import TradingDesk.Proofs.Settings
import TradingDesk.Proofs.Trading.Tracing
import TradingDesk.Trading.Staff
import Mathlib.Tactic
/-!
# Staff for accepted settings

Settings that keep the rules can always be staffed: every portfolio gets its executor, restored from
its own state document, and its orders go to the exchange if it is live and to nobody if not. Only a
state document that is none can be in the way of that, never the settings.
-/

namespace TradingDesk

theorem mapM_cases {α β ε : Type} (f : α → Except ε β) (xs : List α) :
    (∃ ys, xs.mapM f = .ok ys ∧ List.Forall₂ (fun x y => f x = .ok y) xs ys) ∨
      ∃ x ∈ xs, ∃ e, f x = .error e ∧ xs.mapM f = .error e := by
  induction xs with
  | nil => exact .inl ⟨[], rfl, .nil⟩
  | cons x rest ih =>
      rw [List.mapM_cons]
      cases hx : f x with
      | error e => exact .inr ⟨x, List.mem_cons_self, e, hx, rfl⟩
      | ok y =>
          rcases ih with ⟨ys, hys, hall⟩ | ⟨other, hother, e, he, hrest⟩
          · exact .inl ⟨y :: ys, by rw [hys]; rfl, .cons hx hall⟩
          · exact .inr ⟨other, List.mem_cons_of_mem x hother, e, he, by rw [hrest]; rfl⟩

/-- The collection and the id that an executor keeps its state under. -/
def Trader.stateKey {σ : Type} (t : Trader σ) : String × String :=
  (Collection.states, t.executor.setup.portfolio)

/-- A portfolio's state document, if it has one, is one. -/
def Store.Knows (store : Store) (portfolio : String) : Prop :=
  ∀ d, store.fetch? Collection.states portfolio = some d → (Portfolio.read? d).isSome = true

theorem Executor.restoreState_cases (id : String) (document : Option Json) (now : Instant) :
    (∃ p, restoreState id document now = .ok p) ∨
      (restoreState id document now = .error .json ∧
        ∃ d, document = some d ∧ Portfolio.read? d = none) := by
  cases document with
  | none => exact .inl ⟨_, rfl⟩
  | some d =>
      cases hread : Portfolio.read? d with
      | none => exact .inr ⟨by simp only [restoreState, hread], d, rfl, hread⟩
      | some p => exact .inl ⟨p, by simp only [restoreState, hread]⟩

namespace Trader

variable {settings : Settings.Execution} {hasLive : Bool} {store : Store} {now : Instant}
variable {b : Settings.Binding}

/-- An executor is that of a portfolio as the store knows it. -/
structure Serves (settings : Settings.Execution) (store : Store) (now : Instant)
    (b : Settings.Binding) (t : Trader TargetPrice) : Prop where
  mode : t.mode = b.mode
  setup : t.executor.setup = { portfolio := b.id, asset := b.asset, settings }
  strategy : t.executor.strategy = TargetPrice.strategy
  memory : t.executor.memory = { target := b.strategy }
  state : Executor.restoreState b.id (store.fetch? Collection.states b.id) now =
    .ok t.executor.state

theorem build_eq (hlive : b.mode = .live → hasLive = true) :
    build settings hasLive store now b =
      (Executor.restoreState b.id (store.fetch? Collection.states b.id) now).map fun state =>
        { executor :=
            { setup := { portfolio := b.id, asset := b.asset, settings }
              strategy := TargetPrice.strategy
              memory := { target := b.strategy }
              state
              stage := .ready (.ok ())
              announced := [] }
          mode := b.mode } := by
  have hmode : modeFor b hasLive = .ok b.mode := by
    unfold modeFor
    rw [if_neg]
    rintro ⟨hb, hnone⟩
    rw [hlive hb] at hnone
    contradiction
  unfold build Executor.restore
  rw [hmode]
  cases Executor.restoreState b.id (store.fetch? Collection.states b.id) now <;> rfl

theorem serves_of_build (hlive : b.mode = .live → hasLive = true) {t : Trader TargetPrice}
    (h : build settings hasLive store now b = .ok t) : Serves settings store now b t := by
  rw [build_eq hlive] at h
  cases hstate : Executor.restoreState b.id (store.fetch? Collection.states b.id) now with
  | error e =>
      rw [hstate] at h
      cases h
  | ok state =>
      rw [hstate] at h
      cases h
      exact ⟨rfl, rfl, rfl, rfl, hstate⟩

theorem not_knows_of_build (hlive : b.mode = .live → hasLive = true) {fault : Fault}
    (h : build settings hasLive store now b = .error fault) :
    fault = .json ∧ ¬ store.Knows b.id := by
  rw [build_eq hlive] at h
  rcases Executor.restoreState_cases b.id (store.fetch? Collection.states b.id) now with
    ⟨p, hstate⟩ | ⟨hstate, d, hd, hread⟩
  · rw [hstate] at h
    cases h
  · rw [hstate] at h
    cases h
    refine ⟨rfl, fun hknows => ?_⟩
    have hsome := hknows d hd
    rw [hread] at hsome
    contradiction

theorem stateKeys_eq {bindings : List Settings.Binding} {traders : List (Trader TargetPrice)}
    (h : List.Forall₂ (Serves settings store now) bindings traders) :
    traders.map stateKey = (bindings.map (·.id)).map fun id => (Collection.states, id) := by
  induction h with
  | nil => rfl
  | cons hserves _ ih =>
      rw [List.map_cons, List.map_cons, List.map_cons, ih, stateKey, hserves.setup]

end Trader

namespace Staff

/-- The gateway for some credentials. -/
def gatewayOf (c : Settings) (k : Credentials) : Exchange.Gateway :=
  { client := .of c.exchange.restUrl (some k), credentials := k }

/-- The gateway that a desk with these settings has. -/
def liveGateway? (c : Settings) : Option Exchange.Gateway :=
  c.exchange.credentials?.map (gatewayOf c)

theorem gateway?_eq (c : Settings) : gateway? (.ok ()) c = .ok (liveGateway? c) := by
  unfold gateway? liveGateway?
  cases c.exchange.credentials? <;> rfl

theorem ofSettings_eq (c : Settings) (store : Store) (now : Instant) :
    ofSettings (.ok ()) c store now =
      (Trader.buildAll c (liveGateway? c).isSome store now).map fun traders =>
        { live := liveGateway? c, traders } := by
  rw [ofSettings, gateway?_eq]
  rfl

theorem liveGateway?_isSome {c : Settings} (hvalid : c.validate = .ok ()) {b : Settings.Binding}
    (hb : b ∈ c.portfolios) (hlive : b.mode = .live) : (liveGateway? c).isSome = true := by
  obtain ⟨k, hk⟩ := (Settings.provides_of_validate hvalid hb).credentials hlive
  rw [liveGateway?, hk]
  rfl

/-- An executor is that of a portfolio, and its orders go where those of the portfolio should. -/
structure Employs (s : Staff) (c : Settings) (store : Store) (now : Instant)
    (b : Settings.Binding) (t : Trader TargetPrice) : Prop extends
    t.Serves c.execution store now b where
  live : b.mode = .live → ∃ k, c.exchange.credentials? = some k ∧
    s.outlet? t = some (.exchange (gatewayOf c k))
  paper : b.mode = .paper → s.outlet? t = some .paper

theorem employs_of_serves {c : Settings} {store : Store} {now : Instant} {b : Settings.Binding}
    {t : Trader TargetPrice} {s : Staff} (hprovides : c.Provides b)
    (hlive : s.live = liveGateway? c)
    (h : t.Serves c.execution store now b) : s.Employs c store now b t := by
  refine ⟨h, fun hb => ?_, fun hb => ?_⟩
  · obtain ⟨k, hk⟩ := hprovides.credentials hb
    exact ⟨k, hk, by simp [outlet?, h.mode, hb, hlive, liveGateway?, hk]⟩
  · simp [outlet?, h.mode, hb]

/-- Settings that keep the rules are staffed if the state documents of their portfolios are such
documents: each portfolio gets its executor in its place, a live one with the gateway to the
exchange and no other, and no two of them keep their state in the same place. If they are not
staffed, a state document is to blame. -/
theorem accepted_settings_are_staffed {c : Settings} (hvalid : c.validate = .ok ()) (store : Store)
    (now : Instant) :
    ((∀ b ∈ c.portfolios, store.Knows b.id) → ∃ s, ofSettings (.ok ()) c store now = .ok s ∧
      List.Forall₂ (s.Employs c store now) c.portfolios s.traders ∧
      (s.traders.map Trader.stateKey).Nodup) ∧
    ∀ fault, ofSettings (.ok ()) c store now = .error fault →
      fault = .json ∧ ∃ b ∈ c.portfolios, ¬ store.Knows b.id := by
  have hhas : ∀ b ∈ c.portfolios, b.mode = .live → (liveGateway? c).isSome = true :=
    fun _ hb => liveGateway?_isSome hvalid hb
  rw [ofSettings_eq, Trader.buildAll]
  rcases mapM_cases (Trader.build c.execution (liveGateway? c).isSome store now) c.portfolios with
    ⟨traders, hbuilt, hall⟩ | ⟨b, hb, e, he, hfailed⟩
  · have hserves : List.Forall₂ (fun b t => b ∈ c.portfolios ∧ t.Serves c.execution store now b)
        c.portfolios traders :=
      ((List.forall₂_and_left _ _).mpr ⟨fun _ hb => hb, hall⟩).imp fun b t ⟨hb, hbuild⟩ =>
        ⟨hb, Trader.serves_of_build (hhas b hb) hbuild⟩
    have hkeys := Trader.stateKeys_eq (hserves.imp fun _ _ h => h.2)
    rw [hbuilt]
    refine ⟨fun _ => ⟨_, rfl, ?_, ?_⟩, ?_⟩
    · exact hserves.imp fun b t ⟨hb, h⟩ =>
        employs_of_serves (Settings.provides_of_validate hvalid hb) rfl h
    · rw [hkeys]
      exact (Settings.ids_nodup_of_validate hvalid).map fun _ _ heq => (Prod.mk.inj heq).2
    · rintro fault hfault
      cases hfault
  · obtain ⟨rfl, hnot⟩ := Trader.not_knows_of_build (hhas b hb) he
    rw [hfailed]
    refine ⟨fun hknows => absurd (hknows b hb) hnot, ?_⟩
    rintro fault hfault
    cases hfault
    exact ⟨rfl, b, hb, hnot⟩

/-- A portfolio that is only simulated beside one that is live. -/
def mixed : Settings where
  exchange := { apiKey := "key", apiSecret := "c2VjcmV0", apiPassphrase := "phrase" }
  stream := { assets := ["BTC-USD", "ETH-USD"] }
  portfolios :=
    [{ id := "main", asset := "BTC-USD", strategy := { size := .one } },
      { id := "live", asset := "ETH-USD", mode := .live, strategy := { size := .one } }]

theorem mixed_staffed : mixed.validate = .ok () ∧
    ∃ s, ofSettings (.ok ()) mixed {} ⟨0, 0⟩ = .ok s ∧
      List.Forall₂ (s.Employs mixed {} ⟨0, 0⟩) mixed.portfolios s.traders ∧
      (s.traders.map Trader.stateKey).Nodup := by
  have hvalid : mixed.validate = .ok () := Settings.validate_eq_ok_iff.mpr (by decide +kernel)
  have hknows : ∀ b ∈ mixed.portfolios, ({} : Store).Knows b.id := by
    intro b hb d hd
    cases hd
  exact ⟨hvalid, (accepted_settings_are_staffed hvalid {} ⟨0, 0⟩).1 hknows⟩

end Staff

end TradingDesk

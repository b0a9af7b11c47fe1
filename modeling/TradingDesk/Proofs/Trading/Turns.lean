import TradingDesk.Proofs.Trading.Leaves
/-!
# What a reply makes of an executor

Whatever an executor is told, it trades for its portfolio with its strategy. It leaves its book, the
lots and the last exit, as it is, with an order that it has just decided on or with none that was
not pending before, or it books the fill that it was told of. Its memory changes with an evaluation
alone.
-/

namespace TradingDesk
namespace Executor

variable {σ : Type} {x x' : Executor σ} {m : Moment} {traded : Bool} {reply : Reply}

theorem Leaves.sameBook (h : Leaves x x') : x.state.SameBook x'.state :=
  ⟨h.lots.symm, h.lastExit.symm⟩

/-- What a reply can make of an executor, and whether it has decided to trade with it. -/
inductive Turns (m : Moment) (x : Executor σ) : Bool → Reply → Executor σ → Prop
  | keep {reply : Reply} {x' : Executor σ} (hleaves : Leaves x x') : Turns m x false reply x'
  | skip {view : MarketView} {memory : σ} {x' : Executor σ}
      (hjudged : x.strategy.evaluate? x.memory view x.state = some (.noGo, memory))
      (hleaves : Leaves { x with memory } x') : Turns m x false (.viewed (.ok view)) x'
  | trade {view : MarketView} {trade : Trade} {memory : σ} {order : Order} {x' : Executor σ}
      (hjudged : x.strategy.evaluate? x.memory view x.state = some (.go trade, memory))
      (horder : order = Order.ofTrade x.setup.portfolio x.setup.asset m.freshId trade m.now)
      (hleaves : Leaves { x with memory, state := { x.state with pending := some order } } x') :
      Turns m x true (.viewed (.ok view)) x'
  | dismiss {order : Order} {answer : Except Fault Order.Outcome} {x' : Executor σ}
      (hawaits : x.Awaits order)
      (hleaves : Leaves { x with state := { x.state with pending := none } } x') :
      Turns m x false (.answered answer) x'
  | fill {order : Order} {fill : Fill} {p : Portfolio} {x' : Executor σ} (hawaits : x.Awaits order)
      (hfilled : x.state.applyFill? order fill = some p)
      (hleaves : Leaves { x with state := { p with pending := none } } x') :
      Turns m x false (.answered (.ok (.filled fill))) x'

namespace Turns

theorem evaluate (event : ChangeEvent) (view : Except Fault MarketView) :
    Turns m x (x.judges view) (.viewed view) (x.evaluate event view m) := by
  unfold Executor.evaluate judges
  cases view with
  | error fault => exact .keep (Leaves.enter _ _)
  | ok view =>
      simp only
      cases hjudged : x.strategy.evaluate? x.memory view x.state with
      | none => exact .keep ⟨rfl, rfl, rfl, rfl, rfl, rfl⟩
      | some judged =>
          obtain ⟨decision, memory⟩ := judged
          cases decision with
          | noGo =>
              have hleaves := Leaves.enter (m := m)
                (x := { x with memory, state := x.state.markEvaluated event }) .idle (.finish none)
              exact .skip hjudged { hleaves with }
          | go trade =>
              let order := Order.ofTrade x.setup.portfolio x.setup.asset m.freshId trade m.now
              have hleaves := Leaves.enter (m := m) (x := { x with
                memory
                state := { x.state.markEvaluated event with pending := some order } })
                .orderPending (.submit order)
              exact .trade hjudged rfl { hleaves with }

/-- An answer about an order resolves it, or leaves all as it was. -/
theorem settle {s : Settling} (hawaits : x.Awaits s.order) (answer : Except Fault Order.Outcome) :
    Turns m x false (.answered answer) (x.settle s answer m) := by
  have hsame : ∀ stage answer, Turns m x false (.answered answer) { x with stage } :=
    fun _ _ => .keep ⟨rfl, rfl, rfl, rfl, rfl, rfl⟩
  have hfail : ∀ reason answer, Turns m x false (.answered answer) (x.fail reason s.waiting m) :=
    fun reason _ => .keep (Leaves.fail reason s.waiting)
  have hdismiss : ∀ answer, Turns m x false (.answered answer)
      ({ x with state := { x.state with pending := none } }.enter .idle (.finish s.waiting) m) :=
    fun _ => .dismiss hawaits (Leaves.enter _ _)
  unfold Executor.settle
  cases answer with
  | error fault =>
      cases fault with
      | gateway detail recoverable =>
          cases recoverable with
          | false => exact hfail _ _
          | true =>
              simp only
              cases s.reconcile.next? with
              | none => exact hfail _ _
              | some next => exact hsame _ _
      | _ => exact hfail _ _
  | ok outcome =>
      cases outcome with
      | filled fill =>
          simp only
          cases hfilled : x.state.applyFill? s.order fill with
          | none => exact hsame _ _
          | some p => exact .fill hawaits hfilled (Leaves.enter _ _)
      | rejected reason => exact hdismiss _
      | unknown => exact hdismiss _
      | resting exchangeId =>
          simp only
          split
          · exact hsame _ _
          · split
            · exact hfail _ _
            · split <;> exact hsame _ _

theorem resume (reply : Reply) : Turns m x (x.trades reply) reply (x.resume reply m) := by
  have hsame : ∀ (x : Executor σ) reply stage, Turns m x false reply { x with stage } :=
    fun _ _ _ => .keep ⟨rfl, rfl, rfl, rfl, rfl, rfl⟩
  obtain ⟨setup, strategy, memory, state, stage, announced⟩ := x
  cases stage with
  | ready result => exact hsame _ _ _
  | overflown => exact hsame _ _ _
  | saving fromPhase schedule after =>
      cases reply with
      | saved result =>
          cases result with
          | ok => exact .keep (Leaves.proceed fromPhase after)
          | error fault =>
              simp only [Executor.resume]
              split <;> exact hsame _ _ _
      | _ => exact hsame _ _ _
  | retrying delay fromPhase schedule after => cases reply <;> exact hsame _ _ _
  | degraded fault fromPhase after =>
      cases reply with
      | woke shutdown => cases shutdown <;> exact hsame _ _ _
      | _ => exact hsame _ _ _
  | viewing event =>
      cases reply with
      | viewed view => exact evaluate event view
      | _ => exact hsame _ _ _
  | submitting order =>
      cases reply with
      | answered answer => exact settle (.inl rfl) answer
      | _ => exact hsame _ _ _
  | reconciling order waiting =>
      cases reply with
      | answered answer => exact settle (.inr (.inl ⟨waiting, rfl⟩)) answer
      | _ => exact hsame _ _ _
  | querying s =>
      cases reply with
      | answered answer => exact settle (.inr (.inr ⟨s, rfl, rfl⟩)) answer
      | _ => exact hsame _ _ _
  | cancelling s => cases reply <;> exact hsame _ _ _
  | pausing delay s =>
      cases reply with
      | woke shutdown =>
          cases shutdown with
          | true => exact .keep (Leaves.finish s.waiting)
          | false => exact hsame _ _ _
      | _ => exact hsame _ _ _

end Turns

/-- An executor goes on for its portfolio with its strategy. What it remembers is what the strategy
made of it. What is pending is named by the moment if it has just decided to trade, and was pending
before if it has not. -/
structure Passes (m : Moment) (traded : Bool) (x x' : Executor σ) : Prop where
  setup : x'.setup = x.setup
  strategy : x'.strategy = x.strategy
  memory : x'.memory = x.memory ∨
    ∃ view p decision, x.strategy.evaluate? x.memory view p = some (decision, x'.memory)
  pending : ∀ order, x'.state.pending = some order →
    if traded then order.clientId = m.freshId else x.state.pending = some order

theorem Leaves.passes {y : Executor σ} (hleaves : Leaves y x') (h : Passes m traded x y) :
    Passes m traded x x' where
  setup := hleaves.setup.trans h.setup
  strategy := hleaves.strategy.trans h.strategy
  memory := by
    rw [hleaves.memory]
    exact h.memory
  pending order horder := h.pending order (hleaves.pending ▸ horder)

theorem Turns.passes (h : Turns m x traded reply x') : Passes m traded x x' := by
  have hnone : ∀ order, (none : Option Order) = some order → x.state.pending = some order := by
    rintro order ⟨⟩
  cases h with
  | keep hleaves => exact hleaves.passes ⟨rfl, rfl, .inl rfl, fun _ horder => horder⟩
  | skip hjudged hleaves =>
      exact hleaves.passes ⟨rfl, rfl, .inr ⟨_, _, _, hjudged⟩, fun _ horder => horder⟩
  | trade hjudged horder hleaves =>
      refine hleaves.passes ⟨rfl, rfl, .inr ⟨_, _, _, hjudged⟩, ?_⟩
      rintro order ⟨⟩
      rw [horder]
      rfl
  | dismiss hawaits hleaves => exact hleaves.passes ⟨rfl, rfl, .inl rfl, hnone⟩
  | fill hawaits hfilled hleaves => exact hleaves.passes ⟨rfl, rfl, .inl rfl, hnone⟩

theorem Passes.resume (reply : Reply) : Passes m (x.trades reply) x (x.resume reply m) :=
  (Turns.resume reply).passes

/-! ### In a run -/

namespace World

variable {setup : Setup} {strategy : Strategy σ} {w w' : World σ} {P : Portfolio → Prop}

/-- What is stored was stored before, or is the state in memory. -/
theorem Step.stored_cases (hstep : Step setup strategy w w') (hreach : Reachable setup strategy w)
    {p : Portfolio} (hstored : w'.stored? setup = some p) :
    w.stored? setup = some p ∨ ∃ q, w'.process = some q ∧ q.executor.state = p := by
  rcases hstep.stored?_eq with hkept | ⟨q, hq, hreply⟩
  · refine .inl ?_
    rw [← hstored, stored?, stored?, hkept]
  · have hsaved := ((hreach.step hstep).outline.2.process q hq).saved hreply
    rw [hstored, Option.some.injEq] at hsaved
    exact .inr ⟨q, hq, hsaved.symm⟩

/-- Every state of the portfolio that is stored or in memory has a property. -/
def Holds (setup : Setup) (P : Portfolio → Prop) (w : World σ) : Prop := ∀ p, w.Shows setup p → P p

/-- What hangs on the book and on the pending order alone, and is so of a new portfolio, is kept by
a step if it is kept when a reply comes. -/
theorem Step.holds (hstep : Step setup strategy w w') (hreach : Reachable setup strategy w)
    (hnew : ∀ now, P (Portfolio.new setup.portfolio now))
    (hsame : ∀ p q : Portfolio, P p → p.SameBook q → q.pending = p.pending → P q)
    (hresume : ∀ x call reply m, w.process = some ⟨x, call, some reply⟩ →
      w'.transcript = w.transcript ++ x.learned reply m → P x.state → P (x.resume reply m).state)
    (h : w.Holds setup P) : w'.Holds setup P := by
  have hleaves : ∀ {x x' : Executor σ}, P x.state → Leaves x x' → P x'.state :=
    fun hp hleaves => hsame _ _ hp hleaves.sameBook hleaves.pending
  have hmemory : ∀ q, w'.process = some q → P q.executor.state := by
    cases hstep with
    | @start store t x memory now hnow hrestore =>
        rintro _ ⟨⟩
        rcases restore_cases hrestore with ⟨-, hstate⟩ | ⟨body, hdocument, hread⟩
        · rw [hstate]
          exact hnew now
        · exact h _ (.inl (by simp [stored?, document?, hdocument, hread]))
    | recover hready hnow =>
        rintro _ ⟨⟩
        exact hleaves (h _ (.inr ⟨_, rfl, rfl⟩)) (Leaves.recoverFor none)
    | handle hready hevent hnow =>
        rintro _ ⟨⟩
        exact hleaves (h _ (.inr ⟨_, rfl, rfl⟩)) (Leaves.handle _)
    | ask hrequest hserved =>
        rintro _ ⟨⟩
        exact h _ (.inr ⟨_, rfl, rfl⟩)
    | resume hnow =>
        rintro _ ⟨⟩
        exact hresume _ _ _ _ rfl rfl (h _ (.inr ⟨_, rfl, rfl⟩))
    | crash => rintro _ ⟨⟩
    | elsewhere hkept => exact fun q hq => h _ (.inr ⟨q, hq, rfl⟩)
  rintro p (hstored | ⟨q, hq, rfl⟩)
  · rcases hstep.stored_cases hreach hstored with hkept | ⟨q, hq, rfl⟩
    · exact h p (.inl hkept)
    · exact hmemory q hq
  · exact hmemory q hq

end World

end Executor
end TradingDesk

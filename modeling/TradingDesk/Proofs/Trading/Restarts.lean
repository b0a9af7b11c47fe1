import TradingDesk.Proofs.Trading.Bare
import TradingDesk.Proofs.Trading.Exposure
/-!
# Restarts between events

A strategy that is given a reference price remembers nothing between evaluations, and when a call
has ended the state in memory is the one that was stored. So an executor that is dropped then and
built again from the stored document trades as the one that goes on would have: of two stations that
handle the same events with the same markets and answers, each restarted between events whenever it
likes, one decides, orders and ends as the other does, but for names and stamps.
-/

namespace TradingDesk

theorem Store.upsert_of_failures_eq {s s' : Store} (h : s.failures = s'.failures)
    (collection id : String) (body body' : Json) :
    (s.upsert collection id body).1 = (s'.upsert collection id body').1 ∧
      (s.upsert collection id body).2.failures = (s'.upsert collection id body').2.failures := by
  obtain ⟨collections, keyed, failures⟩ := s
  obtain ⟨collections', keyed', failures'⟩ := s'
  obtain rfl : failures = failures' := h
  cases failures <;> exact ⟨rfl, rfl⟩

/-- The phases in which nothing is under way. -/
def Portfolio.AtRest (p : Portfolio) : Prop := p.phase = .idle ∨ p.phase = .failed

/-- A strategy with a reference price has nothing to remember. -/
theorem TargetPrice.evaluate?_memory {s s' : TargetPrice} {v : MarketView} {p : Portfolio}
    {decision : Decision} (hreference : s.target.reference.isSome = true)
    (h : s.evaluate? v p = some (decision, s')) : s' = s := by
  obtain ⟨reference, hreference⟩ := Option.isSome_iff_exists.mp hreference
  rcases evaluate?_remembers h with hsame | ⟨hnone, -⟩
  · exact hsame
  · cases hexit : p.lastExit <;> simp [anchor?, hreference, hexit] at hnone

namespace Executor

/-! ### States that a document can tell -/

def After.ends : After → Bool
  | finish _ => true
  | _ => false

/-- A call has ended or is about to end. -/
def Stage.ends : Stage → Bool
  | ready _ => true
  | saving _ _ after | retrying _ _ _ after | degraded _ _ after => after.ends
  | _ => false

variable {σ : Type}

/-- The state is one that a document can tell, and it is at rest when the call ends. -/
structure Tidy (x : Executor σ) : Prop where
  valid : x.state.Valid
  event : ∀ e, x.stage.event? = some e → e.sequence < pow2 64
  rest : x.stage.ends = true → x.state.AtRest

section

variable {x : Executor σ} {m : Moment} {waiting : Option ChangeEvent}

theorem Tidy.done (hvalid : x.state.Valid) (hrest : x.state.AtRest) : x.done.Tidy :=
  ⟨hvalid, nofun, fun _ => hrest⟩

theorem Tidy.enter {next : Phase} {after : After}
    (hallowed : x.state.phase.mayBecome next = true) (hvalid : x.state.Valid) (hnow : m.now.Valid)
    (hevent : ∀ e, after.event? = some e → e.sequence < pow2 64)
    (hrest : after.ends = true → next = .idle ∨ next = .failed) : (x.enter next after m).Tidy := by
  rw [enter_eq hallowed]
  exact ⟨hvalid.enter next hnow, hevent, hrest⟩

theorem Tidy.fail (hphase : x.state.phase = .orderPending) (hvalid : x.state.Valid)
    (hnow : m.now.Valid) (hwaiting : ∀ e, waiting = some e → e.sequence < pow2 64)
    (reason : String) : (x.fail reason waiting m).Tidy := by
  rw [fail_eq hphase]
  exact ⟨(hvalid.giveUp reason).enter _ hnow, hwaiting, fun _ => .inr rfl⟩

theorem Tidy.take {event : ChangeEvent} (hidle : x.state.phase = .idle) (hvalid : x.state.Valid)
    (hnow : m.now.Valid) (hevent : event.sequence < pow2 64) : (x.take event m).Tidy := by
  unfold Executor.take
  split
  · exact Tidy.done hvalid (.inl hidle)
  · refine Tidy.enter (by rw [hidle]; rfl) hvalid hnow ?_ nofun
    rintro _ ⟨⟩
    exact hevent

theorem Tidy.finish (hrest : x.state.AtRest) (hvalid : x.state.Valid) (hnow : m.now.Valid)
    (hwaiting : ∀ e, waiting = some e → e.sequence < pow2 64) : (x.finish waiting m).Tidy := by
  unfold Executor.finish
  cases waiting with
  | none => exact Tidy.done hvalid hrest
  | some event =>
      by_cases hidle : x.state.phase = .idle
      · simp only [if_pos hidle]
        exact Tidy.take hidle hvalid hnow (hwaiting event rfl)
      · simp only [if_neg hidle]
        exact Tidy.done hvalid hrest

theorem Tidy.recoverFor (hvalid : x.state.Valid) (hnow : m.now.Valid)
    (hwaiting : ∀ e, waiting = some e → e.sequence < pow2 64) :
    (x.recoverFor waiting m).Tidy := by
  unfold Executor.recoverFor
  cases hphase : x.state.phase with
  | idle => exact Tidy.finish (.inl hphase) hvalid hnow hwaiting
  | evaluating =>
      exact Tidy.enter (by rw [hphase]; rfl) hvalid hnow hwaiting fun _ => .inl rfl
  | orderPending =>
      cases x.state.pending with
      | none => exact Tidy.fail hphase hvalid hnow hwaiting _
      | some order => exact ⟨hvalid, hwaiting, nofun⟩
  | failed => exact Tidy.done hvalid (.inr hphase)

theorem Tidy.handle {event : ChangeEvent} (hrest : x.state.AtRest) (hvalid : x.state.Valid)
    (hnow : m.now.Valid) (hevent : event.sequence < pow2 64) : (x.handle event m).Tidy := by
  unfold Executor.handle
  split
  · exact Tidy.done hvalid hrest
  · rcases hrest with hidle | hfailed
    · rw [hidle]
      exact Tidy.take hidle hvalid hnow hevent
    · rw [hfailed]
      exact Tidy.done hvalid (.inr hfailed)

theorem Tidy.evaluate {event : ChangeEvent} (hphase : x.state.phase = .evaluating)
    (hvalid : x.state.Valid) (hnow : m.now.Valid) (hevent : event.sequence < pow2 64)
    (view : Except Fault MarketView) : (x.evaluate event view m).Tidy := by
  unfold Executor.evaluate
  cases view with
  | error fault => exact Tidy.enter (by rw [hphase]; rfl) hvalid hnow nofun fun _ => .inl rfl
  | ok view =>
      simp only
      cases x.strategy.evaluate? x.memory view x.state with
      | none => exact ⟨hvalid, nofun, nofun⟩
      | some judged =>
          obtain ⟨decision, memory⟩ := judged
          have hmarked := hvalid.markEvaluated hevent
          have hstill : (x.state.markEvaluated event).phase = .evaluating := hphase
          cases decision with
          | noGo =>
              exact Tidy.enter (by simp only [hstill]; rfl) hmarked hnow nofun fun _ => .inl rfl
          | go trade =>
              exact Tidy.enter (by simp only [hstill]; rfl) (hmarked.place hnow) hnow nofun nofun

theorem Tidy.settle {s : Settling} {answer : Except Fault Order.Outcome}
    (hphase : x.state.phase = .orderPending) (hvalid : x.state.Valid) (hnow : m.now.Valid)
    (hanswer : ValidAnswer answer) (hwaiting : ∀ e, s.waiting = some e → e.sequence < pow2 64) :
    (x.settle s answer m).Tidy := by
  have hfollow : ∀ stage : Stage, stage.event? = s.waiting → stage.ends = false →
      Tidy { x with stage } := by
    rintro stage hevent hends
    refine ⟨hvalid, fun e he => hwaiting e (hevent ▸ he), fun h => ?_⟩
    rw [hends] at h
    contradiction
  have hbroken : Tidy { x with stage := .overflown } := ⟨hvalid, nofun, nofun⟩
  have hdismiss : ({ x with state := { x.state with pending := none } }.enter .idle
      (.finish s.waiting) m).Tidy :=
    Tidy.enter (by simp only [hphase]; rfl) hvalid.clear hnow hwaiting fun _ => .inl rfl
  unfold Executor.settle
  cases answer with
  | error fault =>
      cases fault with
      | gateway detail recoverable =>
          cases recoverable with
          | false => exact Tidy.fail hphase hvalid hnow hwaiting _
          | true =>
              simp only
              cases s.reconcile.next? with
              | none => exact Tidy.fail hphase hvalid hnow hwaiting _
              | some next => exact hfollow _ rfl rfl
      | _ => exact Tidy.fail hphase hvalid hnow hwaiting _
  | ok outcome =>
      cases outcome with
      | filled fill =>
          simp only
          cases hbook : x.state.applyFill? s.order fill with
          | none => exact hbroken
          | some q =>
              have hq : q.phase = .orderPending := by rw [Portfolio.applyFill?_eq hbook, hphase]
              have hbooked := (hvalid.applyFill? (hanswer fill rfl) hbook).clear
              exact Tidy.enter (by simp only [hq]; rfl) hbooked hnow hwaiting fun _ => .inl rfl
      | rejected reason => exact hdismiss
      | unknown => exact hdismiss
      | resting exchangeId =>
          simp only
          split
          · exact hbroken
          · split
            · exact Tidy.fail hphase hvalid hnow hwaiting _
            · split <;> exact hfollow _ rfl rfl

theorem Tidy.proceed {fromPhase : Phase} {after : After} (hvalid : x.state.Valid)
    (hnow : m.now.Valid) (hevent : ∀ e, after.event? = some e → e.sequence < pow2 64)
    (hrest : after.ends = true → x.state.AtRest) : (x.proceed fromPhase after m).Tidy := by
  cases after with
  | evaluate event => exact ⟨hvalid, hevent, nofun⟩
  | submit order => exact ⟨hvalid, nofun, nofun⟩
  | finish waiting =>
      let x' : Executor σ :=
        { x with announced := ⟨x.setup.portfolio, fromPhase, x.state.phase⟩ :: x.announced }
      exact Tidy.finish (x := x') (hrest rfl) hvalid hnow hevent

/-- Unless it is asked to stop, an executor comes to rest before a call ends. -/
theorem Tidy.resume (h : x.Tidy) (horderly : x.Orderly) (hnow : m.now.Valid) {reply : Reply}
    (hanswer : ∀ answer, reply = .answered answer → ValidAnswer answer)
    (hwoke : reply ≠ .woke true) : (x.resume reply m).Tidy := by
  obtain ⟨hvalid, hevent, hrest⟩ := h
  unfold Executor.Orderly at horderly
  unfold Executor.resume
  split
  · next hstage =>
      rw [hstage] at hevent hrest
      exact Tidy.proceed hvalid hnow hevent hrest
  · next fromPhase schedule after fault hstage =>
      rw [hstage] at hevent hrest
      cases schedule.next? <;> exact ⟨hvalid, hevent, hrest⟩
  · next hstage =>
      rw [hstage] at hevent hrest
      exact ⟨hvalid, hevent, hrest⟩
  · next fault fromPhase after shutdown hstage =>
      rw [hstage] at hevent hrest
      cases shutdown with
      | true => exact absurd rfl hwoke
      | false => exact ⟨hvalid, hevent, hrest⟩
  · next event view hstage =>
      rw [hstage] at hevent horderly
      exact Tidy.evaluate horderly hvalid hnow (hevent event rfl) view
  · next order answer hstage =>
      rw [hstage] at horderly
      exact Tidy.settle (s := ⟨order, m.time, _, false, none⟩) horderly hvalid hnow
        (hanswer answer rfl) nofun
  · next order waiting answer hstage =>
      rw [hstage] at hevent horderly
      exact Tidy.settle (s := ⟨order, m.time, _, false, waiting⟩) horderly hvalid hnow
        (hanswer answer rfl) hevent
  · next s answer hstage =>
      rw [hstage] at hevent horderly
      exact Tidy.settle horderly hvalid hnow (hanswer answer rfl) hevent
  · next s result hstage =>
      rw [hstage] at hevent
      exact ⟨hvalid, hevent, nofun⟩
  · next delay s shutdown hstage =>
      rw [hstage] at hevent
      cases shutdown with
      | true => exact absurd rfl hwoke
      | false => exact ⟨hvalid, hevent, nofun⟩
  · exact ⟨hvalid, hevent, hrest⟩

/-! ### What is seen of a run -/

end

inductive Deed where
  | decided (event : ChangeEvent) (decision : Decision)
  /-- The gateway was handed an order. -/
  | submitted (order : Order)

def Deed.bare : Deed → Deed
  | decided event decision => .decided event decision
  | submitted order => .submitted order.bare

/-- What an executor has done or decides when a reply comes. -/
def deeds (x : Executor σ) (reply : Reply) : List Deed :=
  match x.stage, reply with
  | .viewing event, .viewed (.ok view) =>
    ((x.strategy.evaluate? x.memory view x.state).map fun judged => .decided event judged.1).toList
  | .submitting order, .answered _ => [.submitted order]
  | _, _ => []

theorem deeds_bare {x : Executor σ} (hblind : x.strategy.Blind) (origin : Nat) (reply : Reply) :
    (x.bare origin).deeds reply.bare = (x.deeds reply).map Deed.bare := by
  obtain ⟨setup, strategy, memory, state, stage, announced⟩ := x
  cases stage with
  | viewing event =>
      cases reply with
      | viewed view =>
          cases view with
          | error fault => rfl
          | ok view =>
              have hjudged : strategy.evaluate? memory view state.bare =
                  strategy.evaluate? memory view state := hblind memory view state
              simp only [deeds, bare, Stage.bare, Reply.bare, hjudged]
              cases strategy.evaluate? memory view state <;> rfl
      | _ => rfl
  | submitting order => cases reply <;> rfl
  | _ => cases reply <;> rfl

/-- The stage waits for a reply of this kind, and nobody asks it to stop. -/
def Stage.awaits : Stage → Reply → Bool
  | retrying .., .woke shutdown | degraded .., .woke shutdown | pausing .., .woke shutdown =>
    !shutdown
  | viewing _, .viewed _ => true
  | submitting _, .answered _ | reconciling .., .answered _ | querying _, .answered _ => true
  | cancelling _, .cancelled _ => true
  | _, _ => false

def Stage.isSaving : Stage → Bool
  | saving .. => true
  | _ => false

theorem Stage.isSaving_bare (s : Stage) (origin : Nat) : (s.bare origin).isSaving = s.isSaving := by
  cases s <;> rfl

theorem Stage.exists_of_isSaving {s : Stage} (h : s.isSaving = true) :
    ∃ fromPhase schedule after, s = .saving fromPhase schedule after := by
  cases s <;> first | exact ⟨_, _, _, rfl⟩ | cases h

theorem Stage.awaits_bare (s : Stage) (origin : Nat) (reply : Reply) :
    (s.bare origin).awaits reply.bare = s.awaits reply := by
  cases s <;> cases reply <;> rfl

theorem Stage.ne_of_awaits {s : Stage} {reply : Reply} (h : s.awaits reply = true) :
    reply ≠ .saved (.ok ()) ∧ reply ≠ .woke true := by
  constructor <;>
  · rintro rfl
    cases s <;> simp [awaits] at h

end Executor

/-! ### Stations -/

/-- What names and clocks are like in one act, and whether the executor is restarted. -/
structure Luck where
  time : Nat
  now : Instant
  freshId : String
  exchangeId : String
  filledAt : Instant
  restart : Bool

structure Luck.Valid (l : Luck) : Prop where
  now : l.now.Valid
  filledAt : l.filledAt.Valid

def Luck.moment (l : Luck) : Moment := { time := l.time, now := l.now, freshId := l.freshId }

/-- The outcome with the name and the stamp that the exchange gives it. -/
def Order.Outcome.stamped (l : Luck) : Order.Outcome → Order.Outcome
  | .filled fill => .filled { fill with exchangeId := l.exchangeId, filledAt := l.filledAt }
  | .resting _ => .resting l.exchangeId
  | outcome => outcome

theorem Order.Outcome.bare_stamped (o : Order.Outcome) (l : Luck) :
    (o.stamped l).bare = o.bare := by
  cases o <;> rfl

namespace Executor.Reply

def stamped (l : Luck) : Reply → Reply
  | answered answer => .answered (answer.map (Order.Outcome.stamped l))
  | reply => reply

theorem bare_stamped (r : Reply) (l : Luck) : (r.stamped l).bare = r.bare := by
  cases r with
  | answered answer =>
      cases answer with
      | error fault => rfl
      | ok outcome =>
          exact congrArg (fun o => Reply.answered (.ok o)) (outcome.bare_stamped l)
  | _ => rfl

theorem valid_of_stamped {r : Reply} {l : Luck} (hl : l.Valid) {answer : Except Fault Order.Outcome}
    (h : r.stamped l = .answered answer) : ValidAnswer answer := by
  rintro fill rfl
  cases r with
  | answered answer =>
      cases answer with
      | error fault => cases h
      | ok outcome =>
          cases outcome <;> cases h
          exact hl.filledAt
  | _ => cases h

end Executor.Reply

open Executor

/-- An executor that trades by target prices, with its store. -/
structure Station where
  executor : Executor TargetPrice
  store : Store
  /-- When the call under way began, and how long it has taken. -/
  origin : Nat
  elapsed : Nat
  deeds : List Deed

namespace Station

/-- What happens to a station, but for names and clocks. -/
inductive Act where
  | handle (event : ChangeEvent)
  /-- The store does what it is asked to. -/
  | store (wait : Nat)
  /-- The market, the gateway or the timer replies. -/
  | reply (reply : Reply) (wait : Nat)
  /-- One event is done with and the next one has not come. -/
  | boundary
  /-- The store fails in the next writes. -/
  | failNext (count : Nat)

def Act.Valid : Act → Prop
  | handle event => event.sequence < pow2 64
  | _ => True

def document? (d : Station) : Option Json :=
  d.store.fetch? Collection.states d.executor.setup.portfolio

def begin (d : Station) (call : Option ChangeEvent) (l : Luck) : Station :=
  { d with executor := d.executor.begin call l.moment, origin := l.time, elapsed := 0 }

/-- When a reply comes that took this long. -/
def moment (d : Station) (wait : Nat) (l : Luck) : Moment :=
  { l.moment with time := d.origin + (d.elapsed + wait) }

def resume (d : Station) (reply : Reply) (wait : Nat) (l : Luck) : Station :=
  { d with
    executor := d.executor.resume reply (d.moment wait l)
    elapsed := d.elapsed + wait
    deeds := d.deeds ++ d.executor.deeds reply }

/-- Drops the executor and builds it again from the stored document. -/
def restart? (d : Station) (l : Luck) : Option Station :=
  let memory : TargetPrice := { target := d.executor.memory.target }
  match restore d.executor.setup TargetPrice.strategy memory d.document? l.now with
  | .error _ => none
  | .ok executor => some ({ d with executor }.begin none l)

def write (d : Station) (wait : Nat) (l : Luck) : Station :=
  let (result, store) :=
    d.store.upsert Collection.states d.executor.setup.portfolio d.executor.document
  { d with store }.resume (.saved result) wait l

/-- What an act makes of a station, if it can happen there. -/
def act? (d : Station) (act : Act) (l : Luck) : Option Station :=
  match act with
  | .handle event => if d.executor.stage.isReady then some (d.begin (some event) l) else none
  | .store wait => if d.executor.stage.isSaving then some (d.write wait l) else none
  | .reply reply wait =>
    if d.executor.stage.awaits reply then some (d.resume (reply.stamped l) wait l) else none
  | .boundary =>
    if d.executor.stage.isReady then
      if l.restart then d.restart? l else some { d with origin := l.time, elapsed := 0 }
    else none
  | .failNext count => some { d with store := d.store.failNext count }

def run? (d : Station) (acts : List (Act × Luck)) : Option Station :=
  acts.foldlM (fun d act => d.act? act.1 act.2) d

/-- A station whose executor is built from what a store holds. -/
def open? (setup : Setup) (target : Settings.Target) (store : Store) (l : Luck) : Option Station :=
  match restore setup TargetPrice.strategy { target }
      (store.fetch? Collection.states setup.portfolio) l.now with
  | .error _ => none
  | .ok executor => some ((Station.mk executor store 0 0 []).begin none l)

/-- What a station shows but for names and stamps. -/
structure Showing where
  state : Portfolio
  stage : Stage
  deeds : List Deed

def shown (d : Station) : Showing where
  state := d.executor.state.bare
  stage := d.executor.stage.bare d.origin
  deeds := d.deeds.map Deed.bare

/-! ### One station -/

/-- A document tells the portfolio; where there is none it is a new one. -/
def Records (id : String) (document : Option Json) (p : Portfolio) : Prop :=
  match document with
  | none => p.bare = (Portfolio.new id default).bare
  | some body => Portfolio.read? body = some p

/-- The store tells the state in memory when a call ends, and nothing else is remembered. -/
structure Sound (s : Setup) (c : Settings.Target) (d : Station) : Prop where
  setup : d.executor.setup = s
  strategy : d.executor.strategy = TargetPrice.strategy
  memory : d.executor.memory = { target := c }
  orderly : d.executor.Orderly
  tidy : d.executor.Tidy
  since : d.executor.stage.Since d.origin
  stored : ∃ last, d.executor.Follows last ∧ Records s.portfolio d.document? last

section

variable {s : Setup} {c : Settings.Target} {d d' : Station} {act : Act} {l : Luck}

theorem Sound.handle (h : d.Sound s c) (hready : d.executor.stage.isReady = true)
    {event : ChangeEvent} (hevent : event.sequence < pow2 64) (hl : l.Valid) :
    (d.begin (some event) l).Sound s c := by
  obtain ⟨result, hready⟩ := Stage.exists_of_isReady hready
  obtain ⟨last, hfollows, hrecords⟩ := h.stored
  have hleaves : Leaves d.executor (d.executor.begin (some event) l.moment) := Leaves.begin _
  have hstate : d.executor.state = last := by
    rw [Follows, hready] at hfollows
    exact hfollows.2
  have hrest : d.executor.state.AtRest := h.tidy.rest (by rw [hready]; rfl)
  exact
    { setup := hleaves.setup.trans h.setup
      strategy := hleaves.strategy.trans h.strategy
      memory := hleaves.memory.trans h.memory
      orderly := orderly_begin _ _ _
      tidy := Tidy.handle hrest h.tidy.valid hl.now hevent
      since := Stage.since_of_none (started?_begin _)
      stored := by
        refine ⟨last, ?_, ?_⟩
        · rw [← hstate]
          exact (Proceeds.begin d.executor (some event) l.moment).follows
        · rw [document?, begin, hleaves.setup]
          exact hrecords }

theorem Sound.document?_eq (h : d.Sound s c) :
    d.document? = d.store.fetch? Collection.states s.portfolio := by
  rw [document?, h.setup]

theorem Sound.resume (h : d.Sound s c) (hreference : c.reference.isSome = true) (hl : l.Valid)
    {reply : Reply} (hanswer : ∀ answer, reply = .answered answer → ValidAnswer answer)
    (hwoke : reply ≠ .woke true) {wait : Nat} {store : Store} {last : Portfolio}
    (hfollows : (d.executor.resume reply (d.moment wait l)).Follows last)
    (hrecords : Records s.portfolio (store.fetch? Collection.states s.portfolio) last) :
    ({ d with store }.resume reply wait l).Sound s c := by
  have hpasses : Passes (d.moment wait l) (d.executor.trades reply) d.executor
    (d.executor.resume reply (d.moment wait l)) := Passes.resume reply
  have hsetup : (d.executor.resume reply (d.moment wait l)).setup = s :=
    hpasses.setup.trans h.setup
  refine
    { setup := hsetup
      strategy := hpasses.strategy.trans h.strategy
      memory := ?_
      orderly := h.orderly.resume reply
      tidy := h.tidy.resume h.orderly hl.now hanswer hwoke
      since := h.since.resume (Nat.le_add_right _ _) reply
      stored := ⟨last, hfollows, ?_⟩ }
  · rcases hpasses.memory with hsame | ⟨view, p, decision, hjudged⟩
    · exact hsame.trans h.memory
    · rw [h.strategy, h.memory] at hjudged
      exact TargetPrice.evaluate?_memory hreference hjudged
  · change Records s.portfolio (store.fetch? Collection.states
      (d.executor.resume reply (d.moment wait l)).setup.portfolio) last
    rw [hsetup]
    exact hrecords

theorem Sound.write (h : d.Sound s c) (hreference : c.reference.isSome = true) (hl : l.Valid)
    (hsaving : d.executor.stage.isSaving = true) (wait : Nat) : (d.write wait l).Sound s c := by
  obtain ⟨fromPhase, schedule, after, hstage⟩ := Stage.exists_of_isSaving hsaving
  have hunasked : ∀ result answer, Reply.saved result = .answered answer → ValidAnswer answer :=
    nofun
  obtain ⟨last, hfollows, hrecords⟩ := h.stored
  unfold Station.write
  rw [h.setup]
  split
  next result store hwrite =>
  cases result with
  | ok =>
      have hresume : d.executor.resume (.saved (.ok ())) (d.moment wait l) =
          d.executor.proceed fromPhase after (d.moment wait l) := by
        unfold Executor.resume
        rw [hstage]
      rw [Follows, hstage] at hfollows
      obtain ⟨-, -, hproceeded⟩ := Follows.proceed (m := d.moment wait l) hfollows.1 hfollows.2
      refine h.resume hreference hl (hunasked (.ok ())) nofun (hresume ▸ hproceeded) ?_
      rw [Store.fetch?_of_upsert_ok hwrite]
      exact Portfolio.read?_document h.tidy.valid
  | error fault =>
      have hproceeds : Proceeds last d.executor
          (d.executor.resume (.saved (.error fault)) (d.moment wait l)) :=
        hfollows.resume h.orderly nofun nofun
      refine h.resume hreference hl (hunasked (.error fault)) nofun hproceeds.follows ?_
      rw [Store.fetch?_of_upsert_error hwrite, ← h.document?_eq]
      exact hrecords

theorem Sound.reply (h : d.Sound s c) (hreference : c.reference.isSome = true) (hl : l.Valid)
    {reply : Reply} (hawaits : d.executor.stage.awaits reply = true) (wait : Nat) :
    (d.resume (reply.stamped l) wait l).Sound s c := by
  obtain ⟨last, hfollows, hrecords⟩ := h.stored
  rw [← Stage.awaits_bare _ d.origin, ← Reply.bare_stamped reply l, Stage.awaits_bare] at hawaits
  obtain ⟨hsaved, hwoke⟩ := Stage.ne_of_awaits hawaits
  have hstill : Records s.portfolio (d.store.fetch? Collection.states s.portfolio) last := by
    rw [← h.document?_eq]
    exact hrecords
  exact h.resume hreference hl (fun _ => Reply.valid_of_stamped hl) hwoke
    (hfollows.resume h.orderly hsaved hwoke).follows hstill

/-! ### Restarts -/

/-- A station that is restarted when a call has ended is the same but for names and stamps. -/
theorem Sound.restart (h : d.Sound s c) (hready : d.executor.stage.isReady = true)
    (hl : l.Valid) :
    ∃ x, d.restart? l = some { d with executor := x, origin := l.time, elapsed := 0 } ∧
      Sound s c { d with executor := x, origin := l.time, elapsed := 0 } ∧
      x.bare l.time = d.executor.bare d.origin := by
  obtain ⟨result, hready⟩ := Stage.exists_of_isReady hready
  obtain ⟨last, hfollows, hrecords⟩ := h.stored
  rw [Follows, hready] at hfollows
  obtain ⟨rfl, hlast⟩ := hfollows
  have hrest : d.executor.state.AtRest := h.tidy.rest (by rw [hready]; rfl)
  have hrestored : ∃ p, restoreState s.portfolio d.document? l.now = .ok p ∧
      p.Valid ∧ p.bare = d.executor.state.bare ∧ Records s.portfolio d.document? p := by
    rw [hlast]
    cases hdocument : d.document? with
    | none =>
        rw [hdocument] at hrecords
        exact ⟨Portfolio.new s.portfolio l.now, rfl, Portfolio.new_valid _ hl.now,
          hrecords.symm, rfl⟩
    | some body =>
        rw [hdocument] at hrecords
        have hread : Portfolio.read? body = some last := hrecords
        refine ⟨last, ?_, Portfolio.valid_of_read hread, rfl, hread⟩
        simp only [restoreState, hread]
  obtain ⟨p, hp, hvalid, hbare, htells⟩ := hrestored
  let x : Executor TargetPrice :=
    ⟨s, TargetPrice.strategy, { target := c }, p, .ready (.ok ()), []⟩
  have hresting : p.AtRest := by
    rw [Portfolio.AtRest, ← p.phase_bare, hbare]
    exact hrest
  have hrecover : x.begin none l.moment = x := by
    simp only [Executor.begin, Executor.recover, Executor.recoverFor]
    rcases hresting with hidle | hfailed
    · rw [hidle]
      rfl
    · rw [hfailed]
      rfl
  refine ⟨x, ?_, ?_, ?_⟩
  · have hrestore : restore s TargetPrice.strategy { target := c } d.document? l.now = .ok x := by
      simp only [restore, hp]
      rfl
    simp only [restart?, h.setup, h.memory, hrestore, begin, hrecover]
  · exact
      { setup := rfl
        strategy := rfl
        memory := rfl
        orderly := orderly_done (x := x)
        tidy := Tidy.done (x := x) hvalid hresting
        since := Stage.since_of_none rfl
        stored := ⟨p, ⟨rfl, rfl⟩, by
          rw [h.document?_eq] at htells
          exact htells⟩ }
  · have hexecutor : d.executor = { d.executor with
        setup := s, strategy := TargetPrice.strategy, memory := { target := c },
        stage := .ready (.ok ()) } := by
      rw [← h.setup, ← h.strategy, ← h.memory, ← hready]
    rw [hexecutor]
    simp only [bare, x, hbare, Stage.bare]

theorem Sound.boundary (h : d.Sound s c) (hready : d.executor.stage.isReady = true)
    (hl : l.Valid) :
    ∃ x, d.act? .boundary l = some { d with executor := x, origin := l.time, elapsed := 0 } ∧
      Sound s c { d with executor := x, origin := l.time, elapsed := 0 } ∧
      x.bare l.time = d.executor.bare d.origin := by
  cases hrestart : l.restart with
  | true =>
      obtain ⟨x, hx, hsound, hbare⟩ := h.restart hready hl
      refine ⟨x, ?_, hsound, hbare⟩
      simp only [act?, hready, hrestart, if_true, hx]
  | false =>
      have hstarted := Stage.started?_of_isReady hready
      refine ⟨d.executor, ?_, ?_, bare_of_started?_eq_none hstarted _ _⟩
      · simp [act?, hready, hrestart]
      · exact { h with since := Stage.since_of_none hstarted }

end

/-! ### Two stations -/

/-- Two stations that differ in names and stamps alone. -/
structure Alike (d d' : Station) : Prop where
  executor : d.executor.bare d.origin = d'.executor.bare d'.origin
  elapsed : d.elapsed = d'.elapsed
  failures : d.store.failures = d'.store.failures
  deeds : d.deeds.map Deed.bare = d'.deeds.map Deed.bare

section

variable {s : Setup} {c : Settings.Target} {d d' : Station} {act : Act} {l l' : Luck}

theorem Alike.stage (h : d.Alike d') :
    d.executor.stage.bare d.origin = d'.executor.stage.bare d'.origin :=
  congrArg Executor.stage h.executor

theorem Alike.shown (h : d.Alike d') : d.shown = d'.shown := by
  have hstate : d.executor.state.bare = d'.executor.state.bare :=
    congrArg Executor.state h.executor
  rw [Station.shown, Station.shown, hstate, h.stage, h.deeds]

/-- Two stations alike, each of them sound, or neither of them. -/
abbrev Paired (s : Setup) (c : Settings.Target) : Option Station → Option Station → Prop :=
  Option.Rel fun d d' => d.Sound s c ∧ d'.Sound s c ∧ d.Alike d'

theorem Paired.bind {o o' : Option Station} {f f' : Station → Option Station} (h : Paired s c o o')
    (hf : ∀ d d', d.Sound s c → d'.Sound s c → d.Alike d' → Paired s c (f d) (f' d')) :
    Paired s c (o.bind f) (o'.bind f') := by
  cases h with
  | none => exact .none
  | some h => exact hf _ _ h.1 h.2.1 h.2.2

theorem Paired.shown {o o' : Option Station} (h : Paired s c o o') :
    o.map Station.shown = o'.map Station.shown := by
  cases h with
  | none => rfl
  | some h => exact congrArg some h.2.2.shown

theorem Alike.begin (h : d.Alike d') {call : Option ChangeEvent}
    (hready : d.executor.stage.started? = none) (hready' : d'.executor.stage.started? = none) :
    (d.begin call l).Alike (d'.begin call l') where
  executor := by
    have hmoment : l.moment.bare l.time = l'.moment.bare l'.time := by
      simp [Luck.moment, Moment.bare]
    simp only [Station.begin]
    rw [bare_begin, bare_begin, hmoment, bare_of_started?_eq_none hready l.time d.origin,
      bare_of_started?_eq_none hready' l'.time d'.origin, h.executor]
  elapsed := rfl
  failures := h.failures
  deeds := h.deeds

theorem Alike.resume (h : d.Alike d') (hsound : d.Sound s c) (hsound' : d'.Sound s c)
    {reply reply' : Reply} (hreply : reply.bare = reply'.bare) (wait : Nat) {store store' : Store}
    (hfailures : store.failures = store'.failures) :
    ({ d with store }.resume reply wait l).Alike ({ d' with store := store' }.resume reply' wait l')
    where
  executor := by
    refine bare_resume_congr h.executor ?_ hsound.since hsound'.since (Nat.le_add_right _ _)
      (Nat.le_add_right _ _) ?_ hreply
    · rw [hsound.strategy]
      exact TargetPrice.strategy_blind
    · simp only [Station.resume, moment, Moment.bare, Nat.add_sub_cancel_left, h.elapsed]
  elapsed := congrArg (· + wait) h.elapsed
  failures := hfailures
  deeds := by
    have hblind : ∀ e : Station, e.Sound s c → e.executor.strategy.Blind := by
      intro e he
      rw [he.strategy]
      exact TargetPrice.strategy_blind
    simp only [Station.resume, List.map_append, h.deeds]
    rw [← deeds_bare (hblind d hsound) d.origin, ← deeds_bare (hblind d' hsound') d'.origin,
      h.executor, hreply]

theorem Alike.write (h : d.Alike d') (hsound : d.Sound s c) (hsound' : d'.Sound s c) (wait : Nat) :
    (d.write wait l).Alike (d'.write wait l') := by
  obtain ⟨hresult, hfailures⟩ := Store.upsert_of_failures_eq h.failures Collection.states
    s.portfolio d.executor.document d'.executor.document
  unfold Station.write
  rw [hsound.setup, hsound'.setup]
  exact h.resume hsound hsound' (congrArg (fun result => (Reply.saved result).bare) hresult) wait
    hfailures

/-- What happens to two stations alike happens to both or to neither, and they stay alike. -/
theorem Alike.step (h : d.Alike d') (hsound : d.Sound s c) (hsound' : d'.Sound s c)
    (hreference : c.reference.isSome = true) (hact : act.Valid) (hl : l.Valid) (hl' : l'.Valid) :
    Paired s c (d.act? act l) (d'.act? act l') := by
  have hready : d'.executor.stage.isReady = d.executor.stage.isReady := by
    rw [← Stage.isReady_bare _ d'.origin, ← h.stage, Stage.isReady_bare]
  cases act with
  | handle event =>
      simp only [act?, hready]
      split
      · next hdone =>
        have hdone' : d'.executor.stage.isReady = true := hready.trans hdone
        exact .some ⟨hsound.handle hdone hact hl, hsound'.handle hdone' hact hl',
          h.begin (Stage.started?_of_isReady hdone) (Stage.started?_of_isReady hdone')⟩
      · exact .none
  | store wait =>
      have hsaving : d'.executor.stage.isSaving = d.executor.stage.isSaving := by
        rw [← Stage.isSaving_bare _ d'.origin, ← h.stage, Stage.isSaving_bare]
      simp only [act?, hsaving]
      split
      · next hasked =>
        exact .some ⟨hsound.write hreference hl hasked wait,
          hsound'.write hreference hl' (hsaving.trans hasked) wait, h.write hsound hsound' wait⟩
      · exact .none
  | reply reply wait =>
      have hawaits : d'.executor.stage.awaits reply = d.executor.stage.awaits reply := by
        rw [← Stage.awaits_bare _ d'.origin, ← h.stage, Stage.awaits_bare]
      simp only [act?, hawaits]
      split
      · next hasked =>
        refine .some ⟨hsound.reply hreference hl hasked wait,
          hsound'.reply hreference hl' (hawaits.trans hasked) wait, ?_⟩
        refine h.resume hsound hsound' ?_ wait h.failures
        rw [Reply.bare_stamped, Reply.bare_stamped]
      · exact .none
  | boundary =>
      cases hdone : d.executor.stage.isReady with
      | true =>
          obtain ⟨x, hx, hrestarted, hbare⟩ := hsound.boundary hdone hl
          obtain ⟨x', hx', hrestarted', hbare'⟩ := hsound'.boundary (hready.trans hdone) hl'
          rw [hx, hx']
          refine .some ⟨hrestarted, hrestarted', ?_⟩
          exact ⟨hbare.trans (h.executor.trans hbare'.symm), rfl, h.failures, h.deeds⟩
      | false =>
          simp only [act?, hready, hdone, Bool.false_eq_true, if_false]
          exact .none
  | failNext count =>
      exact .some ⟨{ hsound with }, { hsound' with }, { h with failures := rfl }⟩

theorem Alike.run {acts acts' : List (Act × Luck)} (hreference : c.reference.isSome = true)
    (hsame : acts.map Prod.fst = acts'.map Prod.fst) (hvalid : ∀ a ∈ acts, a.1.Valid ∧ a.2.Valid)
    (hvalid' : ∀ a ∈ acts', a.2.Valid) (h : d.Alike d') (hsound : d.Sound s c)
    (hsound' : d'.Sound s c) : Paired s c (d.run? acts) (d'.run? acts') := by
  induction acts generalizing d d' acts' with
  | nil =>
      obtain rfl : acts' = [] := by simpa using hsame
      exact .some ⟨hsound, hsound', h⟩
  | cons a rest ih =>
      cases acts' with
      | nil => cases hsame
      | cons a' rest' =>
          rw [List.map_cons, List.map_cons, List.cons.injEq] at hsame
          obtain ⟨hact, hsame⟩ := hsame
          obtain ⟨hvalidAct, hl⟩ := hvalid a List.mem_cons_self
          have hpaired := h.step hsound hsound' hreference hvalidAct hl
            (hvalid' a' List.mem_cons_self)
          simp only [run?, List.foldlM_cons, Option.bind_eq_bind, ← hact]
          exact hpaired.bind fun e e' he he' halike =>
            ih hsame (fun b hb => hvalid b (List.mem_cons_of_mem a hb))
              (fun b hb => hvalid' b (List.mem_cons_of_mem a' hb)) halike he he'

theorem paired_open (store : Store) (hl : l.Valid) (hl' : l'.Valid) :
    Paired s c (open? s c store l) (open? s c store l') := by
  let built (p : Portfolio) : Executor TargetPrice :=
    ⟨s, TargetPrice.strategy, { target := c }, p, .ready (.ok ()), []⟩
  let opened (p : Portfolio) (l : Luck) : Station :=
    (Station.mk (built p) store 0 0 []).begin none l
  have hsound : ∀ p l, l.Valid → p.Valid →
      Records s.portfolio (store.fetch? Collection.states s.portfolio) p →
        Sound s c (opened p l) := by
    intro p l hl hvalid hrecords
    have hleaves : Leaves (built p) ((built p).begin none l.moment) := Leaves.begin none
    refine
      { setup := hleaves.setup
        strategy := hleaves.strategy
        memory := hleaves.memory
        orderly := orderly_begin (built p) none l.moment
        tidy := Tidy.recoverFor (x := built p) hvalid hl.now nofun
        since := Stage.since_of_none (started?_begin (x := built p) none)
        stored := ⟨p, (Proceeds.begin (built p) none l.moment).follows, ?_⟩ }
    change Records s.portfolio
      (store.fetch? Collection.states ((built p).begin none l.moment).setup.portfolio) p
    rw [hleaves.setup]
    exact hrecords
  have halike : ∀ p p' l l', p.bare = p'.bare → (opened p l).Alike (opened p' l') := by
    intro p p' l l' hbare
    have hbuilt : (built p).bare 0 = (built p').bare 0 := by simp only [bare, built, hbare]
    have hsame : (Station.mk (built p) store 0 0 []).Alike (Station.mk (built p') store 0 0 []) :=
      ⟨hbuilt, rfl, rfl, rfl⟩
    exact hsame.begin rfl rfl
  cases hdocument : store.fetch? Collection.states s.portfolio with
  | none =>
      let new (l : Luck) : Portfolio := Portfolio.new s.portfolio l.now
      have hopen : ∀ l, open? s c store l = some (opened (new l) l) := by
        intro l
        simp only [open?, restore, restoreState, hdocument]
        rfl
      have hnew : ∀ l, l.Valid → Sound s c (opened (new l) l) := fun l hl =>
        hsound _ l hl (Portfolio.new_valid _ hl.now) (hdocument ▸ Portfolio.bare_new ..)
      rw [hopen, hopen]
      exact .some ⟨hnew l hl, hnew l' hl', halike _ _ l l' (Portfolio.bare_new ..)⟩
  | some body =>
      cases hread : Portfolio.read? body with
      | none =>
          have hopen : ∀ l, open? s c store l = none := by
            intro l
            simp only [open?, restore, restoreState, hdocument, hread]
            rfl
          rw [hopen, hopen]
          exact .none
      | some p =>
          have hopen : ∀ l, open? s c store l = some (opened p l) := by
            intro l
            simp only [open?, restore, restoreState, hdocument, hread]
            rfl
          have hstored : ∀ l, l.Valid → Sound s c (opened p l) := fun l hl =>
            hsound p l hl (Portfolio.valid_of_read hread) (hdocument ▸ hread)
          rw [hopen, hopen]
          exact .some ⟨hstored l hl, hstored l' hl', halike p p l l' rfl⟩

/-- A strategy with a reference price trades the same whenever its executor is restarted between
events. Whatever is stored at first, of two stations that meet the same events, markets, answers and
failures of the store each shows what the other does at the end of any course of acts, and one comes
there just when the other does; at each boundary between events either of them may be dropped and
built again, and no name and no stamp need be the same. -/
theorem restarts_are_transparent (hreference : c.reference.isSome = true) (store : Store)
    (hl : l.Valid) (hl' : l'.Valid) {acts acts' : List (Act × Luck)}
    (hsame : acts.map Prod.fst = acts'.map Prod.fst) (hvalid : ∀ a ∈ acts, a.1.Valid ∧ a.2.Valid)
    (hvalid' : ∀ a ∈ acts', a.2.Valid) :
    ((open? s c store l).bind (·.run? acts)).map shown =
      ((open? s c store l').bind (·.run? acts')).map shown := by
  refine Paired.shown (Paired.bind (paired_open store hl hl') fun d d' hsound hsound' halike => ?_)
  exact halike.run hreference hsame hvalid hvalid' hsound hsound'

end

/-! ### A purchase and a sale -/

def calm : Luck :=
  { time := 0, now := World.eagerMoment.now, freshId := "first", exchangeId := "x-1"
    filledAt := World.eagerMoment.now, restart := false }

/-- A day later the executor is restarted whenever that can be. -/
def restless : Luck :=
  { time := 86400000, now := { seconds := 86400, nanos := 0 }, freshId := "second"
    exchangeId := "x-2", filledAt := { seconds := 86400, nanos := 0 }, restart := true }

/-- An event on which a unit is traded, with an order that rests for a while. -/
def trade (sequence : Nat) (price : Decimal) : List Act :=
  [.handle { World.eagerEvent with sequence }, .store 5,
    .reply (.viewed (.ok (World.marketAt price))) 5, .store 5,
    .reply (.answered (.ok (.resting ""))) 5, .reply (.woke false) 1000,
    .reply (.answered (.ok (.filled ⟨"", .one, price, default⟩))) 5, .store 5, .boundary]

def roundTrip : List Act := trade 1 .one ++ trade 2 .two

theorem calm_valid : calm.Valid := by
  constructor <;> exact World.eagerMoment_valid

theorem restless_valid : restless.Valid := by
  constructor <;> constructor <;> decide

theorem roundTrip_valid : ∀ act ∈ roundTrip, act.Valid := by
  simp [roundTrip, trade, Act.Valid, pow2]

/-- A unit is bought, the executor is restarted and sells it, just as without the restart. -/
theorem restarted_station_sells_what_it_bought :
    ∃ d, (open? World.eagerSetup World.modestTarget {} calm).bind
        (·.run? (roundTrip.map (·, calm))) = some d ∧ d.deeds.length = 4 ∧
      ((open? World.eagerSetup World.modestTarget {} restless).bind
        (·.run? (roundTrip.map (·, restless)))).map shown = some d.shown := by
  have hdeeds : ((open? World.eagerSetup World.modestTarget {} calm).bind
      (·.run? (roundTrip.map (·, calm)))).map (fun d => d.deeds.length) = some 4 := by
    decide +kernel
  obtain ⟨d, hd, hlength⟩ := Option.map_eq_some_iff.mp hdeeds
  have hacts : (roundTrip.map (·, calm)).map Prod.fst =
      (roundTrip.map (·, restless)).map Prod.fst := by simp [Function.comp_def]
  have hvalid : ∀ a ∈ roundTrip.map (·, calm), a.1.Valid ∧ a.2.Valid := by
    simpa using fun act hact => ⟨roundTrip_valid act hact, calm_valid⟩
  have hvalid' : ∀ a ∈ roundTrip.map (·, restless), a.2.Valid := by
    simpa using fun _ _ => restless_valid
  have hsame := restarts_are_transparent (s := World.eagerSetup) (c := World.modestTarget) rfl {}
    calm_valid restless_valid hacts hvalid hvalid'
  refine ⟨d, hd, hlength, ?_⟩
  rw [← hsame, hd]
  rfl

end Station
end TradingDesk

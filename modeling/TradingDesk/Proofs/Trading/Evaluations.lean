import TradingDesk.Proofs.Trading.Phases
/-!
# From an event to its evaluation

As long as nobody asks for a shutdown and the market can be read, an executor that is handed an
event when it is idle holds on to it until it evaluates it, and then it is idle again unless an
order of it fails. No event ever waits behind an order.
-/

namespace TradingDesk
namespace Executor

variable {σ : Type}

/-- The event that is to be evaluated once the state is stored. -/
def After.inHand : After → Option ChangeEvent
  | evaluate event => some event
  | submit _ | finish _ => none

/-- The event that the call under way is to evaluate. -/
def Stage.inHand : Stage → Option ChangeEvent
  | saving _ _ after | retrying _ _ _ after | degraded _ _ after => after.inHand
  | viewing event => some event
  | ready _ | overflown | submitting _ | reconciling .. | querying _ | cancelling _ | pausing .. =>
    none

/-- The event that a reply lets the strategy evaluate. -/
def judged? (x : Executor σ) (reply : Reply) : Option ChangeEvent :=
  match x.stage, reply with
  | .viewing event, .viewed (.ok _) => some event
  | _, _ => none

def After.IsDirect (phase : Phase) : After → Prop
  | finish waiting => waiting = none ∧ (phase = .idle ∨ phase = .failed)
  | evaluate _ | submit _ => True

/-- No event waits for something else, and calls end where the next event can be handled. -/
def Stage.IsDirect (phase : Phase) : Stage → Prop
  | ready _ => phase = .idle ∨ phase = .failed
  | overflown | viewing _ | submitting _ => True
  | saving _ _ after | retrying _ _ _ after | degraded _ _ after => after.IsDirect phase
  | reconciling _ waiting => waiting = none
  | querying s | cancelling s | pausing _ s => s.waiting = none

structure Direct (x : Executor σ) : Prop where
  orderly : x.Orderly
  stage : x.stage.IsDirect x.state.phase

/-- An executor goes on with an event in hand, without having evaluated any. -/
structure Goes (x x' : Executor σ) (hand : Option ChangeEvent) : Prop where
  direct : x'.Direct
  setup : x'.setup = x.setup
  evaluated : x'.state.evaluated = x.state.evaluated
  inHand : x'.stage.inHand = hand

section

variable {x : Executor σ} {m : Moment}

theorem Goes.refl (h : x.Direct) : Goes x x x.stage.inHand := ⟨h, rfl, rfl, rfl⟩

theorem Goes.done (hphase : x.state.phase = .idle ∨ x.state.phase = .failed) :
    Goes x x.done none :=
  ⟨⟨orderly_done, hphase⟩, rfl, rfl, rfl⟩

theorem Goes.enter {next : Phase} {after : After} (hallowed : x.state.phase.mayBecome next = true)
    (hagrees : after.Agrees next) (hdirect : after.IsDirect next) :
    Goes x (x.enter next after m) after.inHand := by
  have horderly := orderly_enter (m := m) hallowed hagrees
  rw [enter_eq hallowed] at horderly ⊢
  exact ⟨⟨horderly, hdirect⟩, rfl, rfl, rfl⟩

theorem Goes.fail (hphase : x.state.phase = .orderPending) (reason : String) :
    Goes x (x.fail reason none m) none := by
  have horderly := orderly_fail (m := m) hphase reason none
  rw [fail_eq hphase] at horderly ⊢
  exact ⟨⟨horderly, rfl, .inr rfl⟩, rfl, rfl, rfl⟩

theorem Goes.take {event : ChangeEvent} (hidle : x.state.phase = .idle)
    (hnew : x.state.hasEvaluated event = false) : Goes x (x.take event m) (some event) := by
  have htake : x.take event m = x.enter .evaluating (.evaluate event) m := by
    unfold Executor.take
    rw [hnew]
    rfl
  rw [htake]
  exact Goes.enter (by rw [hidle]; rfl) rfl trivial

/-- A call that begins with nothing in hand ends the evaluation or asks for the order of an earlier
run. -/
theorem Goes.recover : Goes x (x.recover m) none := by
  unfold Executor.recover recoverFor
  cases hphase : x.state.phase with
  | idle => exact Goes.done (.inl hphase)
  | evaluating => exact Goes.enter (by rw [hphase]; rfl) trivial ⟨rfl, .inl rfl⟩
  | orderPending =>
      cases x.state.pending with
      | none => exact Goes.fail hphase _
      | some order => exact ⟨⟨hphase, rfl⟩, rfl, rfl, rfl⟩
  | failed => exact Goes.done (.inr hphase)

theorem Goes.handle {event : ChangeEvent} (hwatched : event.collection ∈ x.setup.watched)
    (hidle : x.state.phase = .idle) (hnew : x.state.hasEvaluated event = false) :
    Goes x (x.handle event m) (some event) := by
  have hhandle : x.handle event m = x.take event m := by
    unfold Executor.handle
    rw [List.contains_iff_mem.mpr hwatched, hidle]
    rfl
  rw [hhandle]
  exact Goes.take hidle hnew

theorem Goes.handle_of_failed (hfailed : x.state.phase = .failed) (event : ChangeEvent) :
    Goes x (x.handle event m) none := by
  rw [Executor.handle_of_failed hfailed]
  exact Goes.done (.inr hfailed)

theorem Goes.settle {s : Settling} (hphase : x.state.phase = .orderPending)
    (hwaiting : s.waiting = none) (answer : Except Fault Order.Outcome) :
    Goes x (x.settle s answer m) none := by
  have hdismiss : Goes x ({ x with state := { x.state with pending := none } }.enter .idle
      (.finish s.waiting) m) none := by
    rw [hwaiting]
    have hgoes : Goes { x with state := { x.state with pending := none } }
        ({ x with state := { x.state with pending := none } }.enter .idle (.finish none) m)
        none := Goes.enter (by simp only [hphase]; rfl) trivial ⟨rfl, .inl rfl⟩
    exact ⟨hgoes.direct, hgoes.setup, hgoes.evaluated, hgoes.inHand⟩
  have hfail : ∀ reason, Goes x (x.fail reason s.waiting m) none := by
    rw [hwaiting]
    exact Goes.fail hphase
  unfold Executor.settle
  cases answer with
  | error fault =>
      cases fault with
      | gateway detail recoverable =>
          cases recoverable with
          | false => exact hfail _
          | true =>
              simp only
              cases s.reconcile.next? with
              | none => exact hfail _
              | some next => exact ⟨⟨hphase, hwaiting⟩, rfl, rfl, rfl⟩
      | _ => exact hfail _
  | ok outcome =>
      cases outcome with
      | filled fill =>
          simp only
          cases hbook : x.state.applyFill? s.order fill with
          | none => exact ⟨⟨trivial, trivial⟩, rfl, rfl, rfl⟩
          | some q =>
              have hq := Portfolio.applyFill?_eq hbook
              have hpending : q.phase = .orderPending := by rw [hq, hphase]
              have hevaluated : q.evaluated = x.state.evaluated := by rw [hq]
              have hgoes : Goes { x with state := { q with pending := none } }
                  ({ x with state := { q with pending := none } }.enter .idle (.finish none) m)
                  none := Goes.enter (by simp only [hpending]; rfl) trivial ⟨rfl, .inl rfl⟩
              simp only [hwaiting]
              exact ⟨hgoes.direct, hgoes.setup, hgoes.evaluated.trans hevaluated, hgoes.inHand⟩
      | rejected reason => exact hdismiss
      | unknown => exact hdismiss
      | resting exchangeId =>
          simp only
          split
          · exact ⟨⟨trivial, trivial⟩, rfl, rfl, rfl⟩
          · split
            · exact hfail _
            · split <;> exact ⟨⟨hphase, hwaiting⟩, rfl, rfl, rfl⟩

/-- An evaluation ends with nothing in hand, and with its event noted unless it broke off. -/
theorem evaluate_direct (hphase : x.state.phase = .evaluating) (event : ChangeEvent)
    (view : MarketView) :
    (x.evaluate event (.ok view) m).Direct ∧
      (x.evaluate event (.ok view) m).setup = x.setup ∧
      (x.evaluate event (.ok view) m).stage.inHand = none ∧
      ((x.evaluate event (.ok view) m).state.evaluated = x.state.evaluated ∨
        (x.evaluate event (.ok view) m).state.evaluated =
          (x.state.markEvaluated event).evaluated) := by
  unfold Executor.evaluate
  simp only
  cases x.strategy.evaluate? x.memory view x.state with
  | none => exact ⟨⟨trivial, trivial⟩, rfl, rfl, .inl rfl⟩
  | some judged =>
      obtain ⟨decision, memory⟩ := judged
      have hmarked : (x.state.markEvaluated event).phase = .evaluating := hphase
      let x' : Executor σ := { x with memory, state := x.state.markEvaluated event }
      cases decision with
      | noGo =>
          have hgoes : Goes x' (x'.enter .idle (.finish none) m) none :=
            Goes.enter (by simp only [x', hmarked]; rfl) trivial ⟨rfl, .inl rfl⟩
          exact ⟨hgoes.direct, hgoes.setup, hgoes.inHand, .inr hgoes.evaluated⟩
      | go trade =>
          let order := Order.ofTrade x.setup.portfolio x.setup.asset m.freshId trade m.now
          let x'' : Executor σ := { x' with state := { x'.state with pending := some order } }
          have hgoes : Goes x'' (x''.enter .orderPending (.submit order) m) none :=
            Goes.enter (by simp only [x'', x', hmarked]; rfl) rfl trivial
          exact ⟨hgoes.direct, hgoes.setup, hgoes.inHand, .inr hgoes.evaluated⟩

theorem Goes.proceed {fromPhase : Phase} {after : After} (hagrees : after.Agrees x.state.phase)
    (hdirect : after.IsDirect x.state.phase) :
    Goes x (x.proceed fromPhase after m) after.inHand := by
  unfold Executor.proceed
  cases after with
  | evaluate event => exact ⟨⟨hagrees, trivial⟩, rfl, rfl, rfl⟩
  | submit order => exact ⟨⟨hagrees, trivial⟩, rfl, rfl, rfl⟩
  | finish waiting =>
      obtain ⟨rfl, hphase⟩ := hdirect
      exact ⟨⟨orderly_done, hphase⟩, rfl, rfl, rfl⟩

/-- What the gateway, the clock and the market reply as long as there is no shutdown and the market
can be read. -/
def Reply.IsFair : Reply → Prop
  | woke shutdown => shutdown = false
  | viewed view => ∃ v, view = .ok v
  | saved _ | answered _ | cancelled _ => True

/-- With any reply but the one that it evaluates its event with, an executor keeps its event. -/
theorem Direct.resume (h : x.Direct) {reply : Reply} (hfair : reply.IsFair)
    (hnone : x.judged? reply = none) : Goes x (x.resume reply m) x.stage.inHand := by
  obtain ⟨horderly, hstage⟩ := h
  have hsame : Goes x x x.stage.inHand := Goes.refl ⟨horderly, hstage⟩
  have hnext := horderly.resume (m := m) reply
  unfold Executor.Orderly at horderly
  unfold judged? at hnone
  unfold Executor.resume at hnext ⊢
  split
  · next fromPhase schedule after heq =>
      rw [heq] at horderly hstage ⊢
      exact Goes.proceed horderly hstage
  · next fromPhase schedule after fault heq =>
      rw [heq] at hstage ⊢
      simp only [heq] at hnext
      cases hschedule : schedule.next? with
      | none =>
          simp only [hschedule] at hnext
          exact ⟨⟨hnext, hstage⟩, rfl, rfl, rfl⟩
      | some next =>
          simp only [hschedule] at hnext
          exact ⟨⟨hnext, hstage⟩, rfl, rfl, rfl⟩
  · next delay fromPhase schedule after shutdown heq =>
      rw [heq] at horderly hstage ⊢
      exact ⟨⟨horderly, hstage⟩, rfl, rfl, rfl⟩
  · next fault fromPhase after shutdown heq =>
      rw [heq] at horderly hstage ⊢
      obtain rfl : shutdown = false := hfair
      exact ⟨⟨horderly.2, hstage⟩, rfl, rfl, rfl⟩
  · next event view heq =>
      obtain ⟨v, rfl⟩ := hfair
      simp [heq] at hnone
  · next order answer heq =>
      rw [heq] at horderly ⊢
      exact Goes.settle horderly rfl answer
  · next order waiting answer heq =>
      rw [heq] at horderly hstage ⊢
      exact Goes.settle (s := ⟨order, m.time, _, false, waiting⟩) horderly hstage answer
  · next s answer heq =>
      rw [heq] at horderly hstage ⊢
      exact Goes.settle horderly hstage answer
  · next s result heq =>
      rw [heq] at horderly hstage ⊢
      exact ⟨⟨horderly, hstage⟩, rfl, rfl, rfl⟩
  · next delay s shutdown heq =>
      rw [heq] at horderly hstage ⊢
      obtain rfl : shutdown = false := hfair
      exact ⟨⟨horderly, hstage⟩, rfl, rfl, rfl⟩
  · exact hsame

/-- The reply that an executor evaluates its event with. -/
theorem Direct.resume_judged (h : x.Direct) {reply : Reply} {event : ChangeEvent}
    (hjudged : x.judged? reply = some event) :
    x.stage = .viewing event ∧ (x.resume reply m).Direct ∧
      (x.resume reply m).setup = x.setup ∧ (x.resume reply m).stage.inHand = none ∧
      ((x.resume reply m).state.evaluated = x.state.evaluated ∨
        (x.resume reply m).state.evaluated = (x.state.markEvaluated event).evaluated) := by
  unfold judged? at hjudged
  split at hjudged
  · next event' view hstage =>
      obtain rfl : event' = event := Option.some.inj hjudged
      have horderly := h.orderly
      unfold Executor.Orderly at horderly
      rw [hstage] at horderly
      have hresume : x.resume (.viewed (.ok view)) m = x.evaluate event' (.ok view) m := by
        unfold Executor.resume
        rw [hstage]
      rw [hresume]
      exact ⟨hstage, evaluate_direct horderly event' view⟩
  · contradiction

/-- A portfolio that has failed stays as it is. -/
theorem Orderly.resume_state (h : x.Orderly) (hfailed : x.state.phase = .failed) (reply : Reply) :
    (x.resume reply m).state = x.state := by
  unfold Orderly at h
  rw [hfailed] at h
  cases hstage : x.stage with
  | viewing | submitting | reconciling | querying | cancelling | pausing =>
      -- none of these is a stage of a portfolio that has failed
      rw [hstage] at h
      cases h
  | ready | overflown =>
      unfold Executor.resume
      rw [hstage]
  | saving fromPhase schedule after =>
      rw [hstage] at h
      unfold Executor.resume
      rw [hstage]
      cases reply with
      | saved result =>
          cases result with
          | ok _ => exact (proceed_of_failed hfailed h).1
          | error fault =>
              simp only
              split <;> rfl
      | _ => rfl
  | retrying delay fromPhase schedule after =>
      unfold Executor.resume
      rw [hstage]
      cases reply <;> rfl
  | degraded fault fromPhase after =>
      unfold Executor.resume
      rw [hstage]
      cases reply with
      | woke shutdown => cases shutdown <;> rfl
      | _ => rfl

end

end Executor
end TradingDesk

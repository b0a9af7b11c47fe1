import TradingDesk.Proofs.Trading.Calls
/-!
# What an executor holds on to

Most of what an executor does leaves its lots, its memory and the order that is pending as they are.
The order that it has in hand is the one that it was just named, or the one it had before.
-/

namespace TradingDesk
namespace Executor

variable {σ : Type}

/-- An executor goes on without a change to its lots, its last exit, its strategy or what is
pending. -/
structure Leaves (x x' : Executor σ) : Prop where
  setup : x'.setup = x.setup
  strategy : x'.strategy = x.strategy
  memory : x'.memory = x.memory
  lots : x'.state.lots = x.state.lots
  lastExit : x'.state.lastExit = x.state.lastExit
  pending : x'.state.pending = x.state.pending

section

variable {x x' : Executor σ} {m : Moment}

theorem Leaves.enter (next : Phase) (after : After) : Leaves x (x.enter next after m) := by
  unfold Executor.enter
  dsimp only
  split <;> exact ⟨rfl, rfl, rfl, rfl, rfl, rfl⟩

theorem Leaves.fail (reason : String) (waiting : Option ChangeEvent) :
    Leaves x (x.fail reason waiting m) := by
  have hleaves : Leaves { x with state := { x.state with failure := some reason } }
      (x.fail reason waiting m) := Leaves.enter .failed (.finish waiting)
  exact { hleaves with }

theorem Leaves.take (event : ChangeEvent) : Leaves x (x.take event m) := by
  unfold Executor.take
  split
  · exact ⟨rfl, rfl, rfl, rfl, rfl, rfl⟩
  · exact Leaves.enter _ _

theorem Leaves.finish (waiting : Option ChangeEvent) : Leaves x (x.finish waiting m) := by
  unfold Executor.finish
  cases waiting with
  | none => exact ⟨rfl, rfl, rfl, rfl, rfl, rfl⟩
  | some event =>
      simp only
      split
      · exact Leaves.take event
      · exact ⟨rfl, rfl, rfl, rfl, rfl, rfl⟩

theorem Leaves.recoverFor (waiting : Option ChangeEvent) : Leaves x (x.recoverFor waiting m) := by
  unfold Executor.recoverFor
  cases x.state.phase with
  | idle => exact Leaves.finish waiting
  | evaluating => exact Leaves.enter _ _
  | orderPending =>
      cases x.state.pending with
      | none => exact Leaves.fail _ waiting
      | some order => exact ⟨rfl, rfl, rfl, rfl, rfl, rfl⟩
  | failed => exact ⟨rfl, rfl, rfl, rfl, rfl, rfl⟩

theorem Leaves.handle (event : ChangeEvent) : Leaves x (x.handle event m) := by
  unfold Executor.handle
  split
  · exact ⟨rfl, rfl, rfl, rfl, rfl, rfl⟩
  · cases x.state.phase with
    | failed => exact ⟨rfl, rfl, rfl, rfl, rfl, rfl⟩
    | idle => exact Leaves.take event
    | evaluating => exact Leaves.recoverFor _
    | orderPending => exact Leaves.recoverFor _

theorem Leaves.proceed (fromPhase : Phase) (after : After) :
    Leaves x (x.proceed fromPhase after m) := by
  unfold Executor.proceed
  cases after with
  | evaluate event => exact ⟨rfl, rfl, rfl, rfl, rfl, rfl⟩
  | submit order => exact ⟨rfl, rfl, rfl, rfl, rfl, rfl⟩
  | finish waiting =>
      let x' : Executor σ :=
        { x with announced := ⟨x.setup.portfolio, fromPhase, x.state.phase⟩ :: x.announced }
      have hleaves : Leaves x' (x'.finish waiting m) := Leaves.finish waiting
      exact { hleaves with }

theorem Leaves.begin (call : Option ChangeEvent) : Leaves x (x.begin call m) := by
  cases call with
  | none => exact Leaves.recoverFor none
  | some event => exact Leaves.handle event

/-! ### With a reply -/

/-- Whether the strategy decides to trade on what the market looks like. -/
def judges (x : Executor σ) (view : Except Fault MarketView) : Bool :=
  match view with
  | .ok view => ((x.strategy.evaluate? x.memory view x.state).map (·.1.isGo)).getD false
  | .error _ => false

/-- Whether an executor decides to trade when a reply comes. -/
def trades (x : Executor σ) (reply : Reply) : Bool :=
  match x.stage, reply with
  | .viewing _, .viewed view => x.judges view
  | _, _ => false

end

/-! ### The order in hand -/

/-- The order that is handed in once the state is stored. -/
def After.order? : After → Option Order
  | submit order => some order
  | _ => none

/-- The order that is to be handed in or is asked for. -/
def Stage.order? : Stage → Option Order
  | saving _ _ after | retrying _ _ _ after | degraded _ _ after => after.order?
  | submitting order | reconciling order _ => some order
  | querying s | cancelling s | pausing _ s => some s.order
  | _ => none

/-- Since when an order has been followed. -/
def Stage.started? : Stage → Option Nat
  | querying s | cancelling s | pausing _ s => some s.started
  | _ => none

/-- The order that is to be handed in. -/
def Stage.placing? : Stage → Option Order
  | saving _ _ after | retrying _ _ _ after | degraded _ _ after => after.order?
  | submitting order => some order
  | _ => none

theorem Stage.order?_of_placing? {s : Stage} {order : Order} (h : s.placing? = some order) :
    s.order? = some order := by
  cases s <;> first | exact h | cases h

theorem Stage.started?_of_order? {s : Stage} (h : s.order? = none) : s.started? = none := by
  cases s <;> first | rfl | cases h

section

variable {x : Executor σ} {m : Moment}

theorem document_of_request? {document : Json} (h : x.request? = some (.save document)) :
    document = x.document := by
  unfold request? at h
  split at h <;> cases h
  rfl

theorem placing?_of_request? {order : Order} (h : x.request? = some (.submit order)) :
    x.stage.placing? = some order := by
  unfold request? at h
  split at h <;> cases h
  next hstage => rw [hstage]; rfl

theorem order?_of_request? {clientId : String} (h : x.request? = some (.status clientId)) :
    ∃ order, x.stage.order? = some order ∧ order.clientId = clientId := by
  unfold request? at h
  split at h <;> cases h
  · next hstage => exact ⟨_, by rw [hstage]; rfl, rfl⟩
  · next hstage => exact ⟨_, by rw [hstage]; rfl, rfl⟩

theorem order?_enter {next : Phase} {after : After} (h : after.order? = none) :
    (x.enter next after m).stage.order? = none := by
  unfold enter
  simp only
  split
  · exact h
  · rfl

theorem order?_take (event : ChangeEvent) : (x.take event m).stage.order? = none := by
  unfold take
  split
  · rfl
  · exact order?_enter rfl

theorem order?_finish (waiting : Option ChangeEvent) :
    (x.finish waiting m).stage.order? = none := by
  unfold finish
  cases waiting with
  | none => rfl
  | some event =>
      simp only
      split
      · exact order?_take event
      · rfl

theorem order?_recoverFor (waiting : Option ChangeEvent) :
    (x.recoverFor waiting m).stage.order? = none ∨ ∃ order, x.state.pending = some order ∧
      x.recoverFor waiting m = { x with stage := .reconciling order waiting } := by
  unfold recoverFor
  cases x.state.phase with
  | idle => exact .inl (order?_finish waiting)
  | evaluating => exact .inl (order?_enter rfl)
  | orderPending =>
      cases hpending : x.state.pending with
      | none => exact .inl (order?_enter rfl)
      | some order => exact .inr ⟨order, rfl, rfl⟩
  | failed => exact .inl rfl

/-- A call begins with no order in hand, or with the pending one, which is asked for. -/
theorem order?_begin (call : Option ChangeEvent) :
    (x.begin call m).stage.order? = none ∨ ∃ order, x.state.pending = some order ∧
      x.begin call m = { x with stage := .reconciling order call } := by
  cases call with
  | none => exact order?_recoverFor none
  | some event =>
      simp only [begin, handle]
      split
      · exact .inl rfl
      · cases x.state.phase with
        | failed => exact .inl rfl
        | idle => exact .inl (order?_take event)
        | evaluating => exact order?_recoverFor (some event)
        | orderPending => exact order?_recoverFor (some event)

theorem order?_evaluate (event : ChangeEvent) (view : Except Fault MarketView) :
    (x.evaluate event view m).stage.order? = none ∨
      ∃ order fromPhase schedule,
        (x.evaluate event view m).stage = .saving fromPhase schedule (.submit order) ∧
        (x.evaluate event view m).state.pending = some order ∧ order.clientId = m.freshId := by
  unfold evaluate
  cases view with
  | error fault => exact .inl (order?_enter rfl)
  | ok view =>
      simp only
      cases x.strategy.evaluate? x.memory view x.state with
      | none => exact .inl rfl
      | some judged =>
          obtain ⟨decision, memory⟩ := judged
          cases decision with
          | noGo => exact .inl (order?_enter rfl)
          | go trade =>
              unfold enter
              simp only
              split
              · exact .inr ⟨_, _, _, rfl, rfl, rfl⟩
              · exact .inl rfl

/-- An answer that resolves an order takes it out of hand; otherwise it is followed as before. -/
theorem order?_settle (s : Settling) (answer : Except Fault Order.Outcome) :
    (x.settle s answer m).stage.order? = none ∨
      (∀ outcome, answer = .ok outcome → outcome.isFinal = false) ∧
        (x.settle s answer m).state = x.state ∧
        (x.settle s answer m).stage.order? = some s.order ∧
        (x.settle s answer m).stage.placing? = none ∧
        (x.settle s answer m).stage.started? = some s.started := by
  unfold settle
  cases answer with
  | error fault =>
      cases fault with
      | gateway detail recoverable =>
          cases recoverable with
          | false => exact .inl (order?_enter rfl)
          | true =>
              simp only
              cases s.reconcile.next? with
              | none => exact .inl (order?_enter rfl)
              | some next => exact .inr ⟨nofun, rfl, rfl, rfl, rfl⟩
      | _ => exact .inl (order?_enter rfl)
  | ok outcome =>
      cases outcome with
      | filled fill =>
          simp only
          cases x.state.applyFill? s.order fill with
          | none => exact .inl rfl
          | some state => exact .inl (order?_enter rfl)
      | rejected reason => exact .inl (order?_enter rfl)
      | unknown => exact .inl (order?_enter rfl)
      | resting exchangeId =>
          have hopen : ∀ outcome, (.ok (.resting exchangeId) : Except Fault Order.Outcome) =
              .ok outcome → outcome.isFinal = false := by
            rintro _ ⟨⟩
            rfl
          simp only
          split
          · exact .inl rfl
          · split
            · exact .inl (order?_enter rfl)
            · split <;> exact .inr ⟨hopen, rfl, rfl, rfl, rfl⟩

/-- An executor goes on with the order that it has in hand. The order is followed as long as before,
or from now on when an answer about it resolves nothing. -/
structure Keeps (m : Moment) (reply : Reply) (x x' : Executor σ) : Prop where
  state : x'.state = x.state
  order : x'.stage.order? = x.stage.order?
  placing : x'.stage.placing? = none ∨ x'.stage.placing? = x.stage.placing?
  started : x'.stage.started? = none ∨ x'.stage.started? = x.stage.started? ∨
    ∃ answer, reply = .answered answer ∧
      (∀ outcome, answer = .ok outcome → outcome.isFinal = false) ∧
      x'.stage.started? = some m.time

/-- With a reply an executor has no order in hand, or the one that was named just now, or goes on
with the one that it had. -/
theorem order?_resume (reply : Reply) :
    (x.resume reply m).stage.order? = none ∨
      (∃ order fromPhase schedule,
        (x.resume reply m).stage = .saving fromPhase schedule (.submit order) ∧
        (x.resume reply m).state.pending = some order ∧ order.clientId = m.freshId) ∨
      Keeps m reply x (x.resume reply m) := by
  unfold Executor.resume
  split
  · next fromPhase schedule after hstage =>
      cases after with
      | evaluate event => exact .inl rfl
      | submit order => exact .inr (.inr ⟨rfl, hstage ▸ rfl, .inr (hstage ▸ rfl), .inl rfl⟩)
      | finish waiting => exact .inl (order?_finish waiting)
  · next fromPhase schedule after fault hstage =>
      cases schedule.next? <;>
        exact .inr (.inr ⟨rfl, hstage ▸ rfl, .inr (hstage ▸ rfl), .inl rfl⟩)
  · next hstage => exact .inr (.inr ⟨rfl, hstage ▸ rfl, .inr (hstage ▸ rfl), .inl rfl⟩)
  · next fault fromPhase after shutdown hstage =>
      cases shutdown with
      | true => exact .inl rfl
      | false => exact .inr (.inr ⟨rfl, hstage ▸ rfl, .inr (hstage ▸ rfl), .inl rfl⟩)
  · exact (order?_evaluate _ _).imp_right .inl
  · next order answer hstage =>
      refine (order?_settle ⟨order, m.time, _, false, none⟩ answer).imp_right fun h => .inr ?_
      obtain ⟨hopen, hstate, horder, hplacing, hstarted⟩ := h
      exact ⟨hstate, hstage ▸ horder, .inl hplacing,
        .inr (.inr ⟨answer, rfl, hopen, hstarted⟩)⟩
  · next order waiting answer hstage =>
      refine (order?_settle ⟨order, m.time, _, false, waiting⟩ answer).imp_right fun h => .inr ?_
      obtain ⟨hopen, hstate, horder, hplacing, hstarted⟩ := h
      exact ⟨hstate, hstage ▸ horder, .inl hplacing,
        .inr (.inr ⟨answer, rfl, hopen, hstarted⟩)⟩
  · next s answer hstage =>
      refine (order?_settle s answer).imp_right fun h => .inr ?_
      obtain ⟨-, hstate, horder, hplacing, hstarted⟩ := h
      exact ⟨hstate, hstage ▸ horder, .inl hplacing, .inr (.inl (hstage ▸ hstarted))⟩
  · next s result hstage =>
      exact .inr (.inr ⟨rfl, hstage ▸ rfl, .inl rfl, .inr (.inl (hstage ▸ rfl))⟩)
  · next delay s shutdown hstage =>
      cases shutdown with
      | true => exact .inl (order?_finish s.waiting)
      | false => exact .inr (.inr ⟨rfl, hstage ▸ rfl, .inl rfl, .inr (.inl (hstage ▸ rfl))⟩)
  · exact .inr (.inr ⟨rfl, rfl, .inr rfl, .inr (.inl rfl)⟩)

end

end Executor
end TradingDesk

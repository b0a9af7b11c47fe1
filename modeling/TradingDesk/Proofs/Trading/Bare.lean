import TradingDesk.Trading.TargetPrice
import TradingDesk.Proofs.Trading.Leaves
/-!
# What hangs on names and clocks

Two runs of a desk never give an order the same name, nor do their clocks agree. What is left of a
portfolio, an order or an executor once names and stamps are taken off is bare, and nothing but
names and stamps comes from them: an executor stripped bare goes on as the one with names does. Of
the time only how long an order has been followed has an effect, so that it is counted from some
origin on.
-/

namespace TradingDesk

/-! ### Records -/

def Order.bare (o : Order) : Order := { o with clientId := "", createdAt := default }

def Lot.bare (l : Lot) : Lot := { l with clientId := "", exchangeId := "", openedAt := default }

def Fill.bare (f : Fill) : Fill := { f with exchangeId := "", filledAt := default }

namespace Order.Outcome

def bare : Outcome → Outcome
  | filled fill => .filled fill.bare
  | resting _ => .resting ""
  | rejected reason => .rejected reason
  | unknown => .unknown

end Order.Outcome

namespace Portfolio

/-- What the reason of a portfolio with an overdue order says before it names the order. -/
def overdue : String := (Fault.orderTimeout "").message

/-- A reason to fail, without the name of an order. -/
def bareReason (reason : String) : String :=
  if overdue.toList.isPrefixOf reason.toList then overdue else reason

/-- Positions, evaluated sequences, phase and reason, with no name of an order and no stamp. -/
def bare (p : Portfolio) : Portfolio :=
  { p with
    lots := p.lots.map Lot.bare
    pending := p.pending.map Order.bare
    failure := p.failure.map bareReason
    updatedAt := default }

theorem toList_prefix_append (s t : String) : (s ++ "").toList <+: (s ++ t).toList := by
  rw [String.toList_append, String.toList_append, String.toList_empty, List.append_nil]
  exact List.prefix_append ..

theorem bareReason_orderTimeout (clientId : String) :
    bareReason (Fault.orderTimeout clientId).message = overdue :=
  if_pos (List.isPrefixOf_iff_prefix.mpr (toList_prefix_append "Order timed out: " clientId))

/-- Any other reason is told from one that names an order by its first letter. -/
theorem bareReason_append {start : String} {c : Char} (hstart : start.toList.head? = some c)
    (hc : c ≠ 'O') (detail : String) : bareReason (start ++ detail) = start ++ detail := by
  have hoverdue : overdue.toList.head? = some 'O' := by decide +kernel
  refine if_neg fun hprefix => hc ?_
  obtain ⟨rest, hrest⟩ := List.isPrefixOf_iff_prefix.mp hprefix
  have hheads := congrArg List.head? hrest
  rw [String.toList_append, List.head?_append, List.head?_append, hoverdue, hstart] at hheads
  exact (Option.some.inj hheads).symm

theorem bareReason_gateway (detail : String) :
    bareReason ("gateway error: " ++ detail) = "gateway error: " ++ detail :=
  bareReason_append (c := 'g') (by decide +kernel) (by decide) detail

theorem bareReason_reconcile (detail : String) :
    bareReason ("could not reconcile order: " ++ detail) =
      "could not reconcile order: " ++ detail :=
  bareReason_append (c := 'c') (by decide +kernel) (by decide) detail

/-- A portfolio that lost its order says so without naming it. -/
theorem bareReason_lost : bareReason "ORDER_PENDING without a recorded order" =
    "ORDER_PENDING without a recorded order" := by
  decide +kernel

section

variable {p : Portfolio} {e : ChangeEvent}

@[simp] theorem phase_bare (p : Portfolio) : p.bare.phase = p.phase := rfl

theorem closeLots?_bare (remaining : Decimal) (lots : List Lot) :
    closeLots? remaining (lots.map Lot.bare) =
      (closeLots? remaining lots).map (List.map Lot.bare) := by
  induction lots generalizing remaining with
  | nil => rfl
  | cons lot rest ih =>
      rw [List.map_cons, closeLots?, closeLots?]
      split
      · rfl
      · have hsize : lot.bare.size = lot.size := rfl
        simp only [hsize, ih, Option.bind_eq_bind, Option.pure_def]
        cases lot.size.sub? (remaining.least lot.size) with
        | none => rfl
        | some left =>
            simp only [Option.bind_some]
            cases remaining.sub? (remaining.least lot.size) with
            | none => rfl
            | some remaining' =>
                simp only [Option.bind_some]
                cases closeLots? remaining' rest with
                | none => rfl
                | some lots =>
                    simp only [Option.bind_some, Option.map_some]
                    split <;> rfl

theorem applyFill?_bare (p : Portfolio) (order : Order) (fill : Fill) :
    p.bare.applyFill? order.bare fill.bare = (p.applyFill? order fill).map bare := by
  unfold applyFill?
  have hside : order.bare.side = order.side := rfl
  rw [hside]
  cases order.side with
  | buy => simp [bare, Lot.bare, Order.bare, Fill.bare]
  | sell =>
      have hclose : closeLots? fill.bare.size p.bare.lots =
          (closeLots? fill.size p.lots).map (List.map Lot.bare) := closeLots?_bare fill.size p.lots
      simp only [hclose, Option.bind_eq_bind, Option.pure_def]
      cases closeLots? fill.size p.lots with
      | none => rfl
      | some lots => rfl

/-- A new portfolio but for its stamp. -/
theorem bare_new (id : String) (now now' : Instant) : (new id now).bare = (new id now').bare := rfl

theorem positionSize?_bare : p.bare.positionSize? = p.positionSize? := by
  simp only [positionSize?, bare, List.map_map]
  rfl

theorem entryPrice?_bare : p.bare.entryPrice? = p.entryPrice? := by
  simp only [entryPrice?, positionSize?_bare]
  have hcosts : p.bare.lots.mapM lotCost? = p.lots.mapM lotCost? := by
    simp only [bare, List.mapM_map]
    rfl
  rw [hcosts]

theorem hasHistory_bare : p.bare.hasHistory = p.hasHistory := by
  simp [hasHistory, isHolding, bare]

end

end Portfolio

/-! ### Strategies -/

/-- The strategy decides on nothing that is a name of an order or a stamp of a clock. -/
def Strategy.Blind {σ : Type} (s : Strategy σ) : Prop :=
  ∀ memory view p, s.evaluate? memory view p.bare = s.evaluate? memory view p

theorem TargetPrice.strategy_blind : TargetPrice.strategy.Blind := by
  intro memory view p
  have hholding : holding? memory.target p.bare = holding? memory.target p := by
    simp only [holding?, Portfolio.entryPrice?_bare, Portfolio.positionSize?_bare,
      Portfolio.hasHistory_bare]
  have hbuy : memory.evaluateBuy? view p.bare = memory.evaluateBuy? view p := rfl
  simp only [TargetPrice.strategy, TargetPrice.evaluate?, hholding, hbuy]

/-! ### Executors -/

/-- The moment as a clock that began at `origin` tells it. -/
def Moment.bare (origin : Nat) (m : Moment) : Moment :=
  { time := m.time - origin, now := default, freshId := "" }

namespace Executor

namespace After

def bare : After → After
  | evaluate event => .evaluate event
  | submit order => .submit order.bare
  | finish waiting => .finish waiting

end After

def Settling.bare (origin : Nat) (s : Settling) : Settling :=
  { s with order := s.order.bare, started := s.started - origin }

namespace Stage

def bare (origin : Nat) : Stage → Stage
  | ready result => .ready result
  | overflown => .overflown
  | saving fromPhase schedule after => .saving fromPhase schedule after.bare
  | retrying delay fromPhase schedule after => .retrying delay fromPhase schedule after.bare
  | degraded fault fromPhase after => .degraded fault fromPhase after.bare
  | viewing event => .viewing event
  | submitting order => .submitting order.bare
  | reconciling order waiting => .reconciling order.bare waiting
  | querying s => .querying (s.bare origin)
  | cancelling s => .cancelling (s.bare origin)
  | pausing delay s => .pausing delay (s.bare origin)

/-- An order that is followed has been followed from `origin` on at the earliest. -/
def Since (origin : Nat) (s : Stage) : Prop :=
  ∀ started, s.started? = some started → origin ≤ started

def isReady : Stage → Bool
  | ready _ => true
  | _ => false

theorem isReady_bare (s : Stage) (origin : Nat) : (s.bare origin).isReady = s.isReady := by
  cases s <;> rfl

theorem exists_of_isReady {s : Stage} (h : s.isReady = true) : ∃ result, s = .ready result := by
  cases s <;> first | exact ⟨_, rfl⟩ | cases h

theorem order?_of_isReady {s : Stage} (h : s.isReady = true) : s.order? = none := by
  cases s <;> first | rfl | cases h

theorem started?_of_isReady {s : Stage} (h : s.isReady = true) : s.started? = none :=
  started?_of_order? (order?_of_isReady h)

theorem since_of_none {origin : Nat} {s : Stage} (h : s.started? = none) : s.Since origin := by
  rintro started hstarted
  rw [h] at hstarted
  contradiction

theorem bare_of_none {s : Stage} (h : s.started? = none) (origin origin' : Nat) :
    s.bare origin = s.bare origin' := by
  cases s <;> first | rfl | cases h

end Stage

namespace Reply

def bare : Reply → Reply
  | saved result => .saved result
  | viewed result => .viewed result
  | answered answer => .answered (answer.map Order.Outcome.bare)
  | cancelled result => .cancelled result
  | woke shutdown => .woke shutdown

end Reply

/-- What is asked for, without the names and stamps in it. -/
def Request.bare : Request → Request
  | save _ => .save .null
  | view event => .view event
  | submit order => .submit order.bare
  | status _ => .status ""
  | cancel _ => .cancel ""
  | sleep delay => .sleep delay
  | pause delay => .pause delay

variable {σ : Type}

/-- An executor without names and stamps, that nobody has heard of. -/
def bare (origin : Nat) (x : Executor σ) : Executor σ :=
  { x with state := x.state.bare, stage := x.stage.bare origin, announced := [] }

section

variable {x : Executor σ} {m : Moment} {origin : Nat}

theorem bare_enter (next : Phase) (after : After) :
    (x.enter next after m).bare origin =
      (x.bare origin).enter next after.bare (m.bare origin) := by
  unfold enter
  have hphase : (x.bare origin).state.phase = x.state.phase := rfl
  simp only [hphase]
  split <;> rfl

theorem bare_fail (reason : String) (waiting : Option ChangeEvent) :
    (x.fail reason waiting m).bare origin =
      (x.bare origin).fail (Portfolio.bareReason reason) waiting (m.bare origin) :=
  bare_enter (x := { x with state := { x.state with failure := some reason } }) ..

theorem bare_take (event : ChangeEvent) :
    (x.take event m).bare origin = (x.bare origin).take event (m.bare origin) := by
  unfold take
  have hevaluated : (x.bare origin).state.hasEvaluated event = x.state.hasEvaluated event := rfl
  rw [hevaluated]
  split
  · rfl
  · exact bare_enter ..

theorem bare_finish (waiting : Option ChangeEvent) :
    (x.finish waiting m).bare origin = (x.bare origin).finish waiting (m.bare origin) := by
  unfold finish
  cases waiting with
  | none => rfl
  | some event =>
      have hphase : (x.bare origin).state.phase = x.state.phase := rfl
      simp only [hphase]
      split
      · exact bare_take event
      · rfl

theorem bare_recoverFor (waiting : Option ChangeEvent) :
    (x.recoverFor waiting m).bare origin = (x.bare origin).recoverFor waiting (m.bare origin) := by
  unfold recoverFor
  have hphase : (x.bare origin).state.phase = x.state.phase := rfl
  have hpending : (x.bare origin).state.pending = x.state.pending.map Order.bare := rfl
  rw [hphase, hpending]
  cases x.state.phase with
  | idle => exact bare_finish waiting
  | evaluating => exact bare_enter ..
  | orderPending =>
      cases x.state.pending with
      | none =>
          simp only [bare_fail, Portfolio.bareReason_lost, Option.map_none]
      | some order => rfl
  | failed => rfl

theorem bare_handle (event : ChangeEvent) :
    (x.handle event m).bare origin = (x.bare origin).handle event (m.bare origin) := by
  unfold handle
  have hsetup : (x.bare origin).setup = x.setup := rfl
  have hphase : (x.bare origin).state.phase = x.state.phase := rfl
  rw [hsetup, hphase]
  split
  · rfl
  · cases x.state.phase with
    | failed => rfl
    | idle => exact bare_take event
    | evaluating => exact bare_recoverFor (some event)
    | orderPending => exact bare_recoverFor (some event)

theorem bare_evaluate (hblind : x.strategy.Blind) (event : ChangeEvent)
    (view : Except Fault MarketView) :
    (x.evaluate event view m).bare origin =
      (x.bare origin).evaluate event view (m.bare origin) := by
  unfold evaluate
  cases view with
  | error fault => exact bare_enter ..
  | ok view =>
      have hjudged : (x.bare origin).strategy.evaluate? (x.bare origin).memory view
          (x.bare origin).state = x.strategy.evaluate? x.memory view x.state :=
        hblind x.memory view x.state
      simp only [hjudged]
      cases x.strategy.evaluate? x.memory view x.state with
      | none => rfl
      | some judged =>
          obtain ⟨decision, memory⟩ := judged
          cases decision with
          | noGo =>
              exact bare_enter
                (x := { x with memory, state := x.state.markEvaluated event }) ..
          | go trade =>
              let order := Order.ofTrade x.setup.portfolio x.setup.asset m.freshId trade m.now
              exact bare_enter (x := { x with
                memory
                state := { x.state.markEvaluated event with pending := some order } }) ..

theorem bare_settle {s : Settling} (hsince : origin ≤ s.started)
    (answer : Except Fault Order.Outcome) :
    (x.settle s answer m).bare origin =
      (x.bare origin).settle (s.bare origin) (answer.map Order.Outcome.bare) (m.bare origin) := by
  have hdismiss : ({ x with state := { x.state with pending := none } }.enter .idle
        (.finish s.waiting) m).bare origin =
      { x.bare origin with state := { (x.bare origin).state with pending := none } }.enter .idle
        (.finish s.waiting) (m.bare origin) :=
    bare_enter (x := { x with state := { x.state with pending := none } }) ..
  unfold settle
  cases answer with
  | error fault =>
      cases fault with
      | gateway detail recoverable =>
          cases recoverable with
          | false => exact (bare_fail ..).trans (by rw [Portfolio.bareReason_gateway]; rfl)
          | true =>
              simp only [Except.map, Settling.bare]
              cases s.reconcile.next? with
              | none => exact (bare_fail ..).trans (by rw [Portfolio.bareReason_reconcile])
              | some next => rfl
      | _ => exact (bare_fail ..).trans (by rw [Portfolio.bareReason_gateway]; rfl)
  | ok outcome =>
      cases outcome with
      | filled fill =>
          have hbook : (x.bare origin).state.applyFill? (s.bare origin).order fill.bare =
              (x.state.applyFill? s.order fill).map Portfolio.bare :=
            Portfolio.applyFill?_bare x.state s.order fill
          simp only [Except.map, Order.Outcome.bare, hbook]
          cases x.state.applyFill? s.order fill with
          | none => rfl
          | some state =>
              exact bare_enter (x := { x with state := { state with pending := none } }) ..
      | rejected reason => exact hdismiss
      | unknown => exact hdismiss
      | resting exchangeId =>
          have helapsed : (m.bare origin).time - (s.bare origin).started = m.time - s.started := by
            simp only [Moment.bare, Settling.bare]
            omega
          simp only [Except.map, Order.Outcome.bare, helapsed]
          have hsetup : (x.bare origin).setup = x.setup := rfl
          have hcancel : (s.bare origin).cancelRequested = s.cancelRequested := rfl
          rw [hsetup, hcancel]
          split
          · rfl
          · split
            · rw [bare_fail, Portfolio.bareReason_orderTimeout]
              rfl
            · split <;> rfl

theorem bare_settleFirst (hsince : origin ≤ m.time) (order : Order)
    (waiting : Option ChangeEvent) (answer : Except Fault Order.Outcome) :
    (x.settleFirst order waiting answer m).bare origin =
      (x.bare origin).settleFirst order.bare waiting (answer.map Order.Outcome.bare)
        (m.bare origin) :=
  bare_settle (s := ⟨order, m.time, _, false, waiting⟩) hsince answer

/-- Who has heard of an executor is all the same to it. -/
theorem finish_announced (x : Executor σ) (news : List Transition) (waiting : Option ChangeEvent) :
    { x with announced := news }.finish waiting m =
      { x.finish waiting m with announced := news } := by
  cases waiting with
  | none => rfl
  | some event =>
      simp only [finish, take, enter, done]
      split
      · split
        · rfl
        · split <;> rfl
      · rfl

theorem bare_proceed (fromPhase : Phase) (after : After) :
    (x.proceed fromPhase after m).bare origin =
      { (x.bare origin).proceed fromPhase after.bare (m.bare origin) with announced := [] } := by
  cases after with
  | evaluate event => rfl
  | submit order => rfl
  | finish waiting =>
      let news : Transition := ⟨x.setup.portfolio, fromPhase, x.state.phase⟩
      let heard : Executor σ := { x.bare origin with announced := [news] }
      have hheard : heard.finish waiting (m.bare origin) =
          { (x.bare origin).finish waiting (m.bare origin) with announced := [news] } :=
        finish_announced (x.bare origin) [news] waiting
      calc ({ x with announced := news :: x.announced }.finish waiting m).bare origin
          = (x.bare origin).finish waiting (m.bare origin) := bare_finish waiting
        _ = { heard.finish waiting (m.bare origin) with announced := [] } := by
          rw [hheard, ← bare_finish]
          rfl

theorem silent_of_bare {y z : Executor σ} (h : z.bare origin = y) :
    z.bare origin = { y with announced := [] } := by
  subst h
  rfl

/-- An executor stripped bare goes on with the bare reply as the one with names does. -/
theorem bare_resume (hblind : x.strategy.Blind) (hsince : x.stage.Since origin)
    (htime : origin ≤ m.time) (reply : Reply) :
    (x.resume reply m).bare origin =
      { (x.bare origin).resume reply.bare (m.bare origin) with announced := [] } := by
  obtain ⟨setup, strategy, memory, state, stage, announced⟩ := x
  cases stage with
  | ready result => rfl
  | overflown => rfl
  | saving fromPhase schedule after =>
      cases reply with
      | saved result =>
          cases result with
          | ok => exact bare_proceed fromPhase after
          | error fault =>
              cases hnext : schedule.next? with
              | none => simp only [resume, bare, Stage.bare, Reply.bare, hnext]
              | some next => simp only [resume, bare, Stage.bare, Reply.bare, hnext]
      | _ => rfl
  | retrying delay fromPhase schedule after => cases reply <;> rfl
  | degraded fault fromPhase after =>
      cases reply with
      | woke shutdown => cases shutdown <;> rfl
      | _ => rfl
  | viewing event =>
      cases reply with
      | viewed view => exact silent_of_bare (bare_evaluate hblind event view)
      | _ => rfl
  | submitting order =>
      cases reply with
      | answered answer => exact silent_of_bare (bare_settleFirst htime order none answer)
      | _ => rfl
  | reconciling order waiting =>
      cases reply with
      | answered answer => exact silent_of_bare (bare_settleFirst htime order waiting answer)
      | _ => rfl
  | querying s =>
      cases reply with
      | answered answer => exact silent_of_bare (bare_settle (hsince _ rfl) answer)
      | _ => rfl
  | cancelling s => cases reply <;> rfl
  | pausing delay s =>
      cases reply with
      | woke shutdown =>
          cases shutdown with
          | true => exact silent_of_bare (bare_finish s.waiting)
          | false => rfl
      | _ => rfl

theorem request?_bare (x : Executor σ) (origin : Nat) :
    (x.bare origin).request?.map Request.bare = x.request?.map Request.bare := by
  obtain ⟨setup, strategy, memory, state, stage, announced⟩ := x
  cases stage with
  | saving fromPhase schedule after =>
      simp only [request?, bare, Stage.bare, Option.map_some, Request.bare]
  | _ => rfl

theorem trades_bare (hblind : x.strategy.Blind) (origin : Nat) (reply : Reply) :
    (x.bare origin).trades reply.bare = x.trades reply := by
  obtain ⟨setup, strategy, memory, state, stage, announced⟩ := x
  cases stage with
  | viewing event =>
      cases reply with
      | viewed view =>
          cases view with
          | error fault => rfl
          | ok view =>
              have hjudged : strategy.evaluate? memory view state.bare =
                  strategy.evaluate? memory view state := hblind memory view state
              simp only [trades, judges, bare, Stage.bare, Reply.bare, hjudged]
      | _ => rfl
  | _ => cases reply <;> rfl

/-! ### How long an order is followed -/

theorem started?_begin (call : Option ChangeEvent) : (x.begin call m).stage.started? = none := by
  rcases order?_begin (x := x) (m := m) call with hnone | ⟨order, -, hasked⟩
  · exact Stage.started?_of_order? hnone
  · rw [hasked]
    rfl

/-- With a reply an order is followed as long as before, or no more, or from now on when the first
answer about it resolves nothing. -/
theorem started?_resume (reply : Reply) :
    (x.resume reply m).stage.started? = none ∨
      (x.resume reply m).stage.started? = x.stage.started? ∨
      ∃ answer, reply = .answered answer ∧
        (∀ outcome, answer = .ok outcome → outcome.isFinal = false) ∧
        (x.resume reply m).stage.started? = some m.time := by
  rcases order?_resume (x := x) (m := m) reply with hnone | ⟨_, _, _, hstage, -⟩ | hkeeps
  · exact .inl (Stage.started?_of_order? hnone)
  · rw [hstage]
    exact .inl rfl
  · exact hkeeps.started

theorem Stage.Since.resume (h : x.stage.Since origin) (htime : origin ≤ m.time) (reply : Reply) :
    (x.resume reply m).stage.Since origin := by
  intro started hstarted
  rcases started?_resume (x := x) (m := m) reply with hnone | hsame | ⟨_, -, -, hnow⟩
  · exact since_of_none hnone started hstarted
  · exact h started (hsame ▸ hstarted)
  · rw [hnow] at hstarted
    cases hstarted
    exact htime

/-- No order comes to be followed when all answers resolve theirs. -/
theorem started?_resume_of_final (h : x.stage.started? = none) {reply : Reply}
    (hfinal : ∀ answer, reply = .answered answer →
      ∃ outcome, answer = .ok outcome ∧ outcome.isFinal = true) :
    (x.resume reply m).stage.started? = none := by
  rcases started?_resume (x := x) (m := m) reply with hnone | hsame | ⟨answer, hreply, hopen, -⟩
  · exact hnone
  · exact hsame.trans h
  · obtain ⟨outcome, rfl, hresolved⟩ := hfinal answer hreply
    rw [hopen outcome rfl] at hresolved
    contradiction

/-! ### Two executors alike -/

/-- Where no order is followed it does not matter when the time began. -/
theorem bare_of_started?_eq_none (h : x.stage.started? = none) (origin origin' : Nat) :
    x.bare origin = x.bare origin' := by
  rw [bare, bare, Stage.bare_of_none h origin origin']

theorem bare_begin (call : Option ChangeEvent) :
    (x.begin call m).bare origin = (x.bare origin).begin call (m.bare origin) := by
  cases call with
  | none => exact bare_recoverFor none
  | some event => exact bare_handle event

/-- Two executors that differ in names and stamps alone go on so with replies that do. -/
theorem bare_resume_congr {y : Executor σ} {m' : Moment} {origin' : Nat} {reply reply' : Reply}
    (h : x.bare origin = y.bare origin') (hblind : x.strategy.Blind)
    (hx : x.stage.Since origin) (hy : y.stage.Since origin')
    (hm : origin ≤ m.time) (hm' : origin' ≤ m'.time)
    (hmoment : m.bare origin = m'.bare origin') (hreply : reply.bare = reply'.bare) :
    (x.resume reply m).bare origin = (y.resume reply' m').bare origin' := by
  have hblind' : y.strategy.Blind := by
    change (y.bare origin').strategy.Blind
    rw [← h]
    exact hblind
  rw [bare_resume hblind hx hm, bare_resume hblind' hy hm', h, hmoment, hreply]

end

end Executor
end TradingDesk

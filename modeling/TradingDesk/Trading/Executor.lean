import TradingDesk.Settings
import TradingDesk.Trading.Codec
import TradingDesk.Trading.View
/-!
# The executor of a portfolio

An executor takes the changes of its markets one at a time. Each change that is new to it moves the
portfolio from idle through an evaluation back to idle, or on to a pending order that is followed
until it is resolved or the portfolio fails. Every phase is stored before anything else is done in
it, so that a restart finds each order that was handed in.

The executor is a machine: `Executor.request?` says what it waits for and `Executor.resume` goes on
with the reply. Clock, store and gateway are outside. A crash loses the machine and keeps the stored
document, from which `Executor.restore` starts another.
-/

namespace TradingDesk

/-- A strategy whose memory between evaluations is of type `σ`. It gives no decision when an amount
grows too large. -/
structure Strategy (σ : Type) where
  name : String
  evaluate? : σ → MarketView → Portfolio → Option (Decision × σ)

/-- What an executor is told with each reply: the time in milliseconds, the wall clock, and a name
that no order has had. -/
structure Moment where
  time : Nat
  now : Instant
  freshId : String
deriving DecidableEq, Repr, Inhabited

structure Transition where
  portfolio : String
  fromPhase : Phase
  toPhase : Phase
deriving DecidableEq, Repr

def Transition.label (t : Transition) : String :=
  t.portfolio ++ ": " ++ t.fromPhase.label ++ " -> " ++ t.toPhase.label

namespace Executor

/-- Whom an executor trades for, and how it follows orders. -/
structure Setup where
  portfolio : String
  asset : String
  settings : Settings.Execution
deriving DecidableEq, Repr

def Setup.watched (s : Setup) : List String :=
  Collection.quotes s.asset :: Book.Level.all.map (Collection.books s.asset)

/-- An order on its way to a resolution. -/
structure Settling where
  order : Order
  started : Nat
  reconcile : Backoff
  cancelRequested : Bool
  /-- The event that is handled once the order is resolved. -/
  waiting : Option ChangeEvent
deriving DecidableEq, Repr

/-- What follows once the state is stored. -/
inductive After where
  | evaluate (event : ChangeEvent)
  | submit (order : Order)
  | finish (waiting : Option ChangeEvent)
deriving DecidableEq, Repr

inductive Stage where
  /-- The last call has ended with this result. -/
  | ready (result : Except Fault Unit)
  /-- An amount grew too large. -/
  | overflown
  | saving (fromPhase : Phase) (schedule : Backoff) (after : After)
  /-- Between two attempts to store the state. -/
  | retrying (delay : Nat) (fromPhase : Phase) (schedule : Backoff) (after : After)
  /-- The state could not be stored; all starts again after a pause. -/
  | degraded (fault : Fault) (fromPhase : Phase) (after : After)
  | viewing (event : ChangeEvent)
  | submitting (order : Order)
  /-- Asking for an order that an earlier run left pending. -/
  | reconciling (order : Order) (waiting : Option ChangeEvent)
  | querying (s : Settling)
  | cancelling (s : Settling)
  | pausing (delay : Nat) (s : Settling)

inductive Request where
  | save (document : Json)
  | view (event : ChangeEvent)
  | submit (order : Order)
  | status (clientId : String)
  | cancel (clientId : String)
  /-- A wait that nothing cuts short. -/
  | sleep (delay : Nat)
  /-- A wait that a shutdown cuts short. -/
  | pause (delay : Nat)

inductive Reply where
  | saved (result : Except Fault Unit)
  | viewed (result : Except Fault MarketView)
  | answered (result : Except Fault Order.Outcome)
  | cancelled (result : Except Fault Unit)
  | woke (shutdown : Bool)

end Executor

open Executor in
structure Executor (σ : Type) where
  setup : Setup
  strategy : Strategy σ
  memory : σ
  state : Portfolio
  stage : Stage
  /-- The stored changes of phase, the last one first. -/
  announced : List Transition

namespace Executor

variable {σ : Type}

/-- What a state document of this portfolio says; a portfolio without one is new. -/
def restoreState (id : String) (document : Option Json) (now : Instant) : Except Fault Portfolio :=
  match document with
  | none => .ok (Portfolio.new id now)
  | some body =>
    match Portfolio.read? body with
    | some p => .ok p
    | none => .error .json

def restore (setup : Setup) (strategy : Strategy σ) (memory : σ) (document : Option Json)
    (now : Instant) : Except Fault (Executor σ) := do
  let state ← restoreState setup.portfolio document now
  pure { setup, strategy, memory, state, stage := .ready (.ok ()), announced := [] }

/-- The sequence after which changes of a collection are still to be evaluated. -/
def resumeSequence? (x : Executor σ) (collection : String) : Option Nat :=
  x.state.lastEvaluated? collection

def document (x : Executor σ) : Json := x.state.toJson.settled

def request? (x : Executor σ) : Option Request :=
  match x.stage with
  | .ready _ | .overflown => none
  | .saving .. => some (.save x.document)
  | .retrying delay .. => some (.sleep delay)
  | .degraded .. => some (.pause x.setup.settings.storeRetry.maxDelay)
  | .viewing event => some (.view event)
  | .submitting order => some (.submit order)
  | .reconciling order _ => some (.status order.clientId)
  | .querying s => some (.status s.order.clientId)
  | .cancelling s => some (.cancel s.order.clientId)
  | .pausing delay _ => some (.pause delay)

/-! ### Phases -/

def done (x : Executor σ) : Executor σ := { x with stage := .ready (.ok ()) }

def enter (x : Executor σ) (next : Phase) (after : After) (m : Moment) : Executor σ :=
  let last := x.state.phase
  if last.mayBecome next then
    { x with
      state := { x.state with phase := next, updatedAt := m.now }
      stage := .saving last (Backoff.start x.setup.settings.storeRetry) after }
  else
    let detail := "invalid phase transition " ++ last.label ++ " -> " ++ next.label
    { x with stage := .ready (.error (.internal detail)) }

def fail (x : Executor σ) (reason : String) (waiting : Option ChangeEvent) (m : Moment) :
    Executor σ :=
  { x with state := { x.state with failure := some reason } }.enter .failed (.finish waiting) m

/-- Handles an event when the portfolio is idle. -/
def take (x : Executor σ) (event : ChangeEvent) (m : Moment) : Executor σ :=
  if x.state.hasEvaluated event then x.done else x.enter .evaluating (.evaluate event) m

/-- Goes on with an event that waited, if the portfolio is idle now. -/
def finish (x : Executor σ) (waiting : Option ChangeEvent) (m : Moment) : Executor σ :=
  match waiting with
  | some event => if x.state.phase = .idle then x.take event m else x.done
  | none => x.done

/-! ### Calls -/

/-- Brings a portfolio that was interrupted to rest, and handles the event that waits for that. An
interrupted evaluation handed nothing in; a pending order is asked for. -/
def recoverFor (x : Executor σ) (waiting : Option ChangeEvent) (m : Moment) : Executor σ :=
  match x.state.phase with
  | .idle => x.finish waiting m
  | .evaluating => x.enter .idle (.finish waiting) m
  | .orderPending =>
    match x.state.pending with
    | some order => { x with stage := .reconciling order waiting }
    | none => x.fail "ORDER_PENDING without a recorded order" waiting m
  | .failed => x.done

def recover (x : Executor σ) (m : Moment) : Executor σ := x.recoverFor none m

/-- Handles one event. A failed portfolio takes none. -/
def handle (x : Executor σ) (event : ChangeEvent) (m : Moment) : Executor σ :=
  if !x.setup.watched.contains event.collection then x.done
  else
    match x.state.phase with
    | .failed => x.done
    | .idle => x.take event m
    | _ => x.recoverFor (some event) m

/-! ### Replies -/

/-- Decides on what the market looks like. A market that cannot be read is left unevaluated. -/
def evaluate (x : Executor σ) (event : ChangeEvent) (view : Except Fault MarketView) (m : Moment) :
    Executor σ :=
  match view with
  | .error _ => x.enter .idle (.finish none) m
  | .ok view =>
    match x.strategy.evaluate? x.memory view x.state with
    | none => { x with stage := .overflown }
    | some (decision, memory) =>
      let x := { x with memory, state := x.state.markEvaluated event }
      match decision with
      | .noGo => x.enter .idle (.finish none) m
      | .go trade =>
        let order := Order.ofTrade x.setup.portfolio x.setup.asset m.freshId trade m.now
        { x with state := { x.state with pending := some order } }.enter .orderPending
          (.submit order) m

/-- The longest span of time that can be measured, in seconds. -/
def longestSpan : Nat := pow2 64

def settle (x : Executor σ) (s : Settling) (answer : Except Fault Order.Outcome) (m : Moment) :
    Executor σ :=
  match answer with
  | .ok (.filled fill) =>
    match x.state.applyFill? s.order fill with
    | none => { x with stage := .overflown }
    | some state =>
      { x with state := { state with pending := none } }.enter .idle (.finish s.waiting) m
  | .ok (.rejected _) | .ok .unknown =>
    { x with state := { x.state with pending := none } }.enter .idle (.finish s.waiting) m
  | .ok (.resting _) =>
    let elapsed := m.time - s.started
    let timeout := x.setup.settings.orderTimeout
    if longestSpan ≤ 2 * timeout then { x with stage := .overflown }
    else if 2 * timeout * 1000 ≤ elapsed ∧ s.cancelRequested then
      x.fail (Fault.orderTimeout s.order.clientId).message s.waiting m
    else if timeout * 1000 ≤ elapsed ∧ !s.cancelRequested then
      { x with stage := .cancelling { s with cancelRequested := true } }
    else { x with stage := .pausing x.setup.settings.statusInterval s }
  | .error (.gateway detail true) =>
    match s.reconcile.next? with
    | some (delay, reconcile) => { x with stage := .pausing delay { s with reconcile } }
    | none => x.fail ("could not reconcile order: " ++ detail) s.waiting m
  | .error e => x.fail ("gateway error: " ++ e.message) s.waiting m

/-- Begins to follow an order with the first answer about it. -/
def settleFirst (x : Executor σ) (order : Order) (waiting : Option ChangeEvent)
    (answer : Except Fault Order.Outcome) (m : Moment) : Executor σ :=
  let s : Settling :=
    { order
      started := m.time
      reconcile := Backoff.start x.setup.settings.reconcile
      cancelRequested := false
      waiting }
  x.settle s answer m

/-- Goes on once the state is stored. -/
def proceed (x : Executor σ) (fromPhase : Phase) (after : After) (m : Moment) : Executor σ :=
  let news : Transition :=
    { portfolio := x.setup.portfolio, fromPhase, toPhase := x.state.phase }
  let x := { x with announced := news :: x.announced }
  match after with
  | .evaluate event => { x with stage := .viewing event }
  | .submit order => { x with stage := .submitting order }
  | .finish waiting => x.finish waiting m

/-- Goes on with the reply to what was asked for; any other reply changes nothing. -/
def resume (x : Executor σ) (reply : Reply) (m : Moment) : Executor σ :=
  match x.stage, reply with
  | .saving fromPhase _ after, .saved (.ok ()) => x.proceed fromPhase after m
  | .saving fromPhase schedule after, .saved (.error e) =>
    match schedule.next? with
    | some (delay, schedule) => { x with stage := .retrying delay fromPhase schedule after }
    | none => { x with stage := .degraded (.storeWrite e.message) fromPhase after }
  | .retrying _ fromPhase schedule after, .woke _ =>
    { x with stage := .saving fromPhase schedule after }
  | .degraded e fromPhase after, .woke shutdown =>
    if shutdown then { x with stage := .ready (.error e) }
    else
      { x with stage := .saving fromPhase (Backoff.start x.setup.settings.storeRetry) after }
  | .viewing event, .viewed view => x.evaluate event view m
  | .submitting order, .answered answer => x.settleFirst order none answer m
  | .reconciling order waiting, .answered answer => x.settleFirst order waiting answer m
  | .querying s, .answered answer => x.settle s answer m
  | .cancelling s, .cancelled _ =>
    { x with stage := .pausing x.setup.settings.statusInterval s }
  | .pausing _ s, .woke shutdown =>
    if shutdown then x.finish s.waiting m else { x with stage := .querying s }
  | _, _ => x

end Executor

end TradingDesk

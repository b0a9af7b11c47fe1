import TradingDesk.Rehearsal.Venue
import TradingDesk.Trading.Executor
/-!
# Rehearsing an executor

An executor is run against a store and a venue on a clock that only waits move. What an executor
waits for is served at once, and the reply reaches it after a delay.
-/

namespace TradingDesk.Rehearsal

/-- A served request: what it left behind, and the reply with its delay. -/
structure Served where
  store : Store
  venue : Venue
  delay : Nat
  reply : Executor.Reply

/-- How long a wait lasts that a shutdown cuts short, and whether it was cut. -/
def cutWait (shutdown : Option Nat) (time delay : Nat) : Nat × Bool :=
  match shutdown with
  | some stop => if stop < time + delay then (stop - time, true) else (delay, false)
  | none => (delay, false)

def serve (setup : Executor.Setup) (store : Store) (venue : Venue) (shutdown : Option Nat)
    (time : Nat) (now : Instant) (request : Executor.Request) : Served :=
  match request with
  | .save document =>
    let (result, store) := store.upsert Collection.states setup.portfolio document
    { store, venue, delay := 0, reply := .saved result }
  | .view event =>
    { store, venue, delay := 0, reply := .viewed (MarketView.ofStore store setup.asset event) }
  | .submit order =>
    let (cue, venue) := venue.submit order time now
    { store, venue, delay := cue.delay, reply := .answered cue.answer }
  | .status clientId =>
    let (cue, venue) := venue.status clientId time
    { store, venue, delay := cue.delay, reply := .answered cue.answer }
  | .cancel clientId =>
    let (cue, venue) := venue.cancel clientId time
    { store, venue, delay := cue.delay, reply := .cancelled cue.answer }
  | .sleep delay => { store, venue, delay, reply := .woke false }
  | .pause delay =>
    let (delay, cut) := cutWait shutdown time delay
    { store, venue, delay, reply := .woke cut }

/-- The strategy that decides as a script says, and does nothing once it is used up. -/
def scriptedStrategy : Strategy (List Decision) where
  name := "scripted"
  evaluate? decisions _ _ :=
    match decisions with
    | [] => some (.noGo, [])
    | d :: rest => some (d, rest)

structure Session (σ : Type) where
  executor : Executor σ
  store : Store
  venue : Venue
  time : Nat := 0
  /-- When a shutdown is asked for. -/
  shutdown : Option Nat := none
  /-- How many names have been given out. -/
  names : Nat := 0

namespace Session

variable {σ : Type}

/-- How the wall clock goes, and what names are given out. -/
structure Outside where
  wall : Nat → Instant
  name : Nat → String

def moment (s : Session σ) (out : Outside) : Moment :=
  { time := s.time, now := out.wall s.time, freshId := out.name s.names }

def isShutDown (s : Session σ) : Bool :=
  match s.shutdown with
  | some stop => stop ≤ s.time
  | none => false

def step? (s : Session σ) (out : Outside) : Option (Session σ) :=
  s.executor.request?.map fun request =>
    let served :=
      serve s.executor.setup s.store s.venue s.shutdown s.time (out.wall s.time) request
    let s := { s with
      store := served.store, venue := served.venue, time := s.time + served.delay,
      names := s.names + 1 }
    { s with executor := s.executor.resume served.reply (s.moment out) }

/-- Serves requests until the executor has none, or `fuel` of them. -/
def settle (out : Outside) : (fuel : Nat) → Session σ → Session σ
  | 0, s => s
  | fuel + 1, s =>
    match s.step? out with
    | some s => settle out fuel s
    | none => s

def recover (s : Session σ) (out : Outside) (fuel : Nat) : Session σ :=
  { s with executor := s.executor.recover (s.moment out) }.settle out fuel

def handle (s : Session σ) (out : Outside) (fuel : Nat) (event : ChangeEvent) : Session σ :=
  { s with
    executor := s.executor.handle event (s.moment out)
    names := s.names + 1 }.settle out fuel

/-- Whether the executor came to an end that no call leads on from. -/
def isOver (s : Session σ) : Bool :=
  match s.executor.stage with
  | .overflown => true
  | _ => false

/-- Takes queued events until they are used up or a shutdown is asked for. -/
def consume (out : Outside) (fuel : Nat) (keepOpen : Bool) :
    List ChangeEvent → Session σ → Session σ
  | [], s =>
    match keepOpen, s.shutdown with
    | true, some stop => if s.isOver then s else { s with time := max s.time stop }
    | _, _ => s
  | event :: rest, s =>
    if s.isShutDown || s.isOver then s else consume out fuel keepOpen rest (s.handle out fuel event)

def run (s : Session σ) (out : Outside) (fuel : Nat) (events : List ChangeEvent) (keepOpen : Bool) :
    Session σ :=
  consume out fuel keepOpen events (s.recover out fuel)

end Session

end TradingDesk.Rehearsal

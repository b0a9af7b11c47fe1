import TradingDesk.Collector.Stream
/-!
# Rehearsing a stream collector

A collector is run on a scripted feed. Each connection is one session of the script, whose frames
come after waits; a session without further frames stays silent.
-/

namespace TradingDesk.Rehearsal

/-- What a session yields after a wait: a text frame, the end of the stream, or its loss. -/
structure Frame where
  delay : Nat
  result : Except Fault (Option String)

inductive FeedSession where
  | refused (fault : Fault)
  | frames (frames : List Frame)

inductive FeedCall where
  | connect (assets : List String)
  | close
deriving DecidableEq, Repr

structure Streaming where
  run : StreamCollector.Run
  store : Store
  /-- The sessions of the connections to come. -/
  sessions : List FeedSession
  /-- The frames of the present connection. -/
  frames : List Frame := []
  /-- The calls that the feed got, the last one first. -/
  calls : List (Nat × FeedCall) := []
  time : Nat := 0

namespace Streaming

def connect (s : Streaming) : Except Fault Unit × Streaming :=
  match s.sessions with
  | .frames frames :: sessions => (.ok (), { s with sessions, frames })
  | .refused e :: sessions => (.error e, { s with sessions })
  | [] => (.error (.feedConnection "no more sessions"), s)

/-- Whether a shutdown comes before a wait of `delay` is over. -/
def isCut (shutdown : Option Nat) (time delay : Nat) : Bool :=
  match shutdown with
  | some stop => stop ≤ time + delay
  | none => false

/-- Lets something happen to the collector after a wait, or the shutdown, if that comes first. -/
def happen (s : Streaming) (h : StreamCollector.Happening) (delay : Nat) (shutdown : Option Nat)
    (wall : Nat → Instant) : Streaming :=
  let (h, time) :=
    if isCut shutdown s.time delay then (.shutdown, max s.time (shutdown.getD s.time))
    else (h, s.time + delay)
  let (run, store, elapsed) := s.run.next h s.store time (fun ms => wall (time + ms))
  { s with run, store, time := time + elapsed }

/-- Goes on to what happens next; none when nothing ever does. -/
def step? (s : Streaming) (shutdown : Option Nat) (wall : Nat → Instant) : Option Streaming :=
  match s.run.stage with
  | .ended _ => none
  | .connecting =>
    if isCut shutdown s.time 0 then some (s.happen .shutdown 0 shutdown wall)
    else
      let (result, s) :=
        { s with calls := (s.time, .connect s.run.collector.assets) :: s.calls }.connect
      some (s.happen (.connected result) 0 none wall)
  | .reading =>
    match s.frames with
    | f :: frames =>
      if isCut shutdown s.time f.delay then some (closed s)
      else some ({ s with frames }.happen (.frame f.result) f.delay none wall)
    | [] => if shutdown.isSome then some (closed s) else none
  | .pausing delay => some (s.happen .woke delay shutdown wall)
where
  closed (s : Streaming) : Streaming :=
    let s := s.happen .shutdown (shutdown.getD s.time - s.time) shutdown wall
    { s with calls := (s.time, .close) :: s.calls }

def finish (shutdown : Option Nat) (wall : Nat → Instant) : (fuel : Nat) → Streaming → Streaming
  | 0, s => s
  | fuel + 1, s =>
    match s.step? shutdown wall with
    | some s => finish shutdown wall fuel s
    | none => s

end Streaming

end TradingDesk.Rehearsal

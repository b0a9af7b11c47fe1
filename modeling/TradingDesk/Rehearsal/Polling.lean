import TradingDesk.Collector.Poll
/-!
# Rehearsing a poll collector

The pairs of a collector are run together on a scripted source of books. Of all pairs the one acts
that is due first. A shutdown ends a pair as soon as it waits for a tick or between two attempts; a
fetch under way and a write are finished.
-/

namespace TradingDesk.Rehearsal

/-- What a fetch yields after a wait: a fault, a book, or the next book without rows. -/
inductive Fetched where
  | fault (e : Fault)
  | book (b : Book)
  | empty

structure Fetch where
  delay : Nat := 0
  result : Fetched := .empty

/-- The fetches of a pair: those to come, when the past ones began, and the exchange's sequence. -/
structure Source where
  fetches : List Fetch := []
  calls : List Nat := []
  sequence : Nat := 0

/-- A pair and when it acts next. For a fetch under way also what it yields. -/
structure Polled where
  pair : PollPair
  wakes : Nat := 0
  coming : Option (Except Fault Book) := none

/-- A collector with its pairs, its store and its source of books. -/
structure Polling where
  collector : PollCollector
  pairs : List Polled
  store : Store
  sources : List (PollKey × Source)
  /-- Whether the source's sequence stands still. -/
  frozen : Bool := false
  time : Nat := 0

namespace Polling

def source (s : Polling) (k : PollKey) : Source := (s.sources.lookup k).getD {}

def setSource (s : Polling) (k : PollKey) (x : Source) : Polling :=
  { s with sources := (k, x) :: s.sources.filter (·.1 != k) }

def emptyBook (k : PollKey) (sequence : Nat) (now : Instant) : Book :=
  { asset := k.asset, level := k.level, bids := [], asks := []
    exchangeSequence := sequence, exchangeTime := now, receivedTime := now }

/-- Begins a fetch: what it will yield, and how long it takes. -/
def fetch (s : Polling) (k : PollKey) (now : Instant) : Except Fault Book × Nat × Polling :=
  let x := s.source k
  let x := { x with calls := s.time :: x.calls }
  let (f, rest) := match x.fetches with
    | f :: rest => (f, rest)
    | [] => ({}, [])
  match f.result with
  | .fault e => (.error e, f.delay, s.setSource k { x with fetches := rest })
  | .book b => (.ok b, f.delay, s.setSource k { x with fetches := rest })
  | .empty =>
    let n := if s.frozen then 1 else x.sequence + 1
    (.ok (emptyBook k n now), f.delay, s.setSource k { x with fetches := rest, sequence := n })

def isCuttable : PollPair.Stage → Bool
  | .waiting | .pausing .. => true
  | _ => false

/-- When a pair acts next, a shutdown being asked for at `stop`. -/
def actsAt? (stop : Nat) (p : Polled) : Option Nat :=
  match p.pair.stage with
  | .stopped => none
  | stage => some (if isCuttable stage then min p.wakes stop else p.wakes)

def replyTo (stop time : Nat) (p : Polled) : PollPair.Reply :=
  if isCuttable p.pair.stage && stop ≤ time then .shutdown
  else match p.pair.stage with
    | .fetching .. => .fetched (p.coming.getD (.error (.internal "no fetch under way")))
    | .writing .. => .ready
    | _ => .woke

/-- When a pair wakes from what it waits for now, and what it will be told. -/
def schedule (s : Polling) (p : PollPair) (now : Instant) : Polled × Polling :=
  match p.stage with
  | .waiting => ({ pair := p, wakes := max p.ticker.due s.time }, s)
  | .fetching .. =>
    let (coming, delay, s) := s.fetch p.key now
    ({ pair := p, wakes := s.time + delay, coming := some coming }, s)
  | .pausing delay .. | .retrying delay .. => ({ pair := p, wakes := s.time + delay }, s)
  | .writing .. | .stopped => ({ pair := p, wakes := s.time }, s)

def first? (stop : Nat) (s : Polling) : Option (Nat × Nat) :=
  (s.pairs.mapIdx fun i p => (actsAt? stop p).map (i, ·)).foldl
    (fun best here =>
      match best, here with
      | none, here => here
      | some b, some h => if h.2 < b.2 then some h else some b
      | some b, none => some b) none

def act (stop : Nat) (wall : Nat → Instant) (s : Polling) (i time : Nat) : Polling :=
  match s.pairs[i]? with
  | none => s
  | some p =>
    let s := { s with time }
    let (pair, collector, store) :=
      p.pair.next (replyTo stop time p) s.collector s.store time (wall time)
    let (p, s) := { s with collector, store }.schedule pair (wall time)
    { s with pairs := s.pairs.set i p }

/-- Runs up to a time, or to the end of all pairs, at most `fuel` acts. -/
def runTo (stop : Nat) (wall : Nat → Instant) (limit : Option Nat) :
    (fuel : Nat) → Polling → Polling
  | 0, s => s
  | fuel + 1, s =>
    match s.first? stop with
    | none => s
    | some (i, time) =>
      if (match limit with | some l => decide (l < time) | none => false) then s
      else runTo stop wall limit fuel (s.act stop wall i time)

end Polling

end TradingDesk.Rehearsal

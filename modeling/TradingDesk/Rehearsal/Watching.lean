import TradingDesk.Watcher
/-!
# Rehearsing a watcher

A watcher is run on a clock that jumps from one happening to the next: a poll, a commit, or a
consumer that is ready for an event.
-/

namespace TradingDesk.Rehearsal

/-- What a watcher looks at: a store, or a log whose sequences are given with each commit, in any
order and even twice. Some of the next lookups fail. -/
structure Tail where
  store : Store := {}
  log : List Document := []
  sparse : Bool := false
  failures : Nat := 0
deriving Inhabited

namespace Tail

/-- Puts a document in its place by sequence. -/
def insertBySequence (d : Document) : List Document → List Document
  | [] => [d]
  | e :: rest =>
    if d.sequence < e.sequence then d :: e :: rest else e :: insertBySequence d rest

/-- Commits a document. In a sparse log its name is its sequence. -/
def commit (t : Tail) (collection id : String) (body : Json) (now : Instant) :
    Except Fault Nat × Tail :=
  if t.sparse then
    let sequence := id.toNat?.getD 0
    let d : Document := { collection, sequence, id := "doc-" ++ id, body, committedAt := now }
    (.ok sequence, { t with log := insertBySequence d t.log })
  else
    let (result, store) := t.store.append collection id body now
    (result, { t with store })

def lookup (collection : String) : Watcher.Lookup Tail := fun t after limit =>
  match t.failures with
  | n + 1 => (.error (.internal "scripted query failure"), { t with failures := n })
  | 0 =>
    if t.sparse then
      let newer := t.log.filter fun d => d.collection == collection && after < d.sequence
      (.ok (newer.take limit), t)
    else (.ok (t.store.after collection after limit), t)

end Tail

/-- A consumer takes events, pausing after each, and goes after a number of them. -/
structure Consumer where
  queue : Nat
  /-- How many events are still to be taken; none stands for any number. -/
  left : Option Nat
  pause : Nat
  readyAt : Nat := 0
  gone : Bool := false
  received : List (Nat × Nat) := []
deriving Inhabited

/-- A watcher with what it looks at, its queues and their consumers. -/
structure Watching where
  watcher : Watcher
  tail : Tail
  queues : Watcher.Queues
  consumers : List Consumer
  commits : List (Nat × String)
  interval : Nat
  nextPoll : Nat := 0
  time : Nat := 0
  ended : Bool := false

namespace Watching

/-- When a consumer acts next: when it is ready, if there is an event for it or it is to go. -/
def actsAt? (c : Consumer) (queues : Watcher.Queues) : Option Nat :=
  if c.gone then none
  else if c.left = some 0 || !(queues.get c.queue).events.isEmpty then some c.readyAt
  else none

def act (time : Nat) (c : Consumer) (queues : Watcher.Queues) : Consumer × Watcher.Queues :=
  if c.gone || time < c.readyAt then (c, queues)
  else if c.left = some 0 then
    ({ c with gone := true }, queues.set c.queue (queues.get c.queue).close)
  else
    match (queues.get c.queue).pop? with
    | none => (c, queues)
    | some (e, q) =>
      ({ c with
          left := c.left.map (· - 1), readyAt := time + c.pause,
          received := (time, e.sequence) :: c.received },
        queues.set c.queue q)

def actAll (time : Nat) : List Consumer → Watcher.Queues → List Consumer × Watcher.Queues
  | [], queues => ([], queues)
  | c :: rest, queues =>
    let (c, queues) := act time c queues
    let (rest, queues) := actAll time rest queues
    (c :: rest, queues)

def nextTime? (s : Watching) : Option Nat :=
  let polls := if s.ended then [] else [s.nextPoll]
  let commits := (s.commits.head?.map (·.1)).toList
  let acts := s.consumers.filterMap (actsAt? · s.queues)
  (polls ++ commits ++ acts).min?.map (max s.time)

/-- Lets happen what happens at a time: a commit, a poll, or what the consumers do. -/
def step (s : Watching) (time : Nat) (wall : Nat → Instant) : Watching :=
  let s := { s with time }
  match s.commits with
  | (t, id) :: rest =>
    if t ≤ time then
      let (_, tail) := s.tail.commit s.watcher.collection id .null (wall time)
      { s with tail, commits := rest }
    else poll s time
  | [] => poll s time
where
  poll (s : Watching) (time : Nat) : Watching :=
    if !s.ended && s.nextPoll ≤ time then
      let (watcher, polled) :=
        s.watcher.poll (Tail.lookup s.watcher.collection) s.queues s.tail
      { s with
        watcher, queues := polled.queues, tail := polled.source, nextPoll := time + s.interval
        ended := watcher.subscribers.isEmpty }
    else
      let (consumers, queues) := actAll time s.consumers s.queues
      { s with consumers, queues }

/-- Runs until a time, at most `fuel` happenings. Also when the watcher ended by itself, if so. -/
def run (wall : Nat → Instant) (limit : Nat) :
    (fuel : Nat) → Watching → Option Nat → Watching × Option Nat
  | 0, s, ended => (s, ended)
  | fuel + 1, s, ended =>
    match s.nextTime? with
    | none => (s, ended)
    | some time =>
      if limit < time then (s, ended)
      else
        let next := s.step time wall
        let ended := ended.or (if next.ended then some time else none)
        run wall limit fuel next ended

end Watching

end TradingDesk.Rehearsal

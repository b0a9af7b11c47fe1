import TradingDesk.Queue
/-!
# Watching a collection

A watcher tells its subscribers of the committed documents of one collection, each from a sequence
of its own on, one by one and without leaving any out: a sequence that is missing halts a subscriber
until it shows up, and so does a full queue.

Queues are named by numbers, since several watchers may fill one queue.
-/

namespace TradingDesk

/-- A consumer of a collection: its queue, and the last sequence that was put into it. -/
structure Subscriber where
  queue : Nat
  cursor : Nat
deriving DecidableEq, Repr, Inhabited

structure Watcher where
  collection : String
  startAfter : Nat
  batch : Nat
  subscribers : List Subscriber := []
deriving DecidableEq, Repr, Inhabited

inductive Progress where
  | caughtUp
  /-- Before a missing sequence or a full queue. -/
  | blocked
  /-- Nobody takes its events any more. -/
  | closed
deriving DecidableEq, Repr

namespace Watcher

def subscribeAfter (w : Watcher) (queue sequence : Nat) : Watcher :=
  { w with subscribers := w.subscribers ++ [{ queue, cursor := sequence }] }

def subscribe (w : Watcher) (queue : Nat) : Watcher := w.subscribeAfter queue w.startAfter

def cursors (w : Watcher) : List Nat := w.subscribers.map (·.cursor)

/-- The last sequence that every subscriber has been told of. -/
def cursor (w : Watcher) : Nat := w.cursors.min?.getD w.startAfter

abbrev Queues := List Queue

def Queues.get (qs : Queues) (i : Nat) : Queue := qs[i]?.getD default

/-- Tells a subscriber of documents for as long as they follow on each other and on its cursor and
its queue takes them. Also how many it was told of. -/
def deliver : List Document → Subscriber → Queue → Nat × Progress × Subscriber × Queue
  | [], s, q => (0, .caughtUp, s, q)
  | d :: ds, s, q =>
    if d.sequence = s.cursor + 1 then
      match q.push d.event with
      | .pushed q =>
        let (n, rest) := deliver ds { s with cursor := d.sequence } q
        (n + 1, rest)
      | .full => (0, .blocked, s, q)
      | .closed => (0, .closed, s, q)
    else (0, .blocked, s, q)

/-- Where the documents of a collection are looked up: those after a sequence, at most a number of
them. Looking may fail, and changes what is looked at. -/
abbrev Lookup (τ : Type) := τ → (after limit : Nat) → Except Fault (List Document) × τ

structure Polled (τ : Type) where
  result : Except Fault Nat
  subscribers : List Subscriber
  queues : Queues
  source : τ

/-- Polls for subscriber after subscriber until a lookup fails; `told` is the number of events so
far. A subscriber whose queue is closed is dropped. -/
def pollEach {τ : Type} (lookup : Lookup τ) (batch : Nat) :
    List Subscriber → (queues : Queues) → (source : τ) → (told : Nat) → Polled τ
  | [], queues, source, told => { result := .ok told, subscribers := [], queues, source }
  | s :: rest, queues, source, told =>
    match lookup source s.cursor batch with
    | (.error e, source) => { result := .error e, subscribers := s :: rest, queues, source }
    | (.ok documents, source) =>
      let (n, progress, s, q) := deliver documents s (Queues.get queues s.queue)
      let polled := pollEach lookup batch rest (queues.set s.queue q) source (told + n)
      if progress = .closed then polled
      else { polled with subscribers := s :: polled.subscribers }

def poll {τ : Type} (w : Watcher) (lookup : Lookup τ) (queues : Queues) (source : τ) :
    Watcher × Polled τ :=
  let polled := pollEach lookup w.batch w.subscribers queues source 0
  ({ w with subscribers := polled.subscribers }, polled)

end Watcher

end TradingDesk

import TradingDesk.Fault
import TradingDesk.Backoff
/-!
# The document store

Appended documents are numbered within their collection from one on, and never change; appending a
name that is there already writes nothing. Keyed documents stand beside the collections and are
replaced by each write.

A write may fail and then leaves no trace. A retried write is repeated after the waits of a backoff
schedule.
-/

namespace TradingDesk

/-- A committed document and its place in its collection. -/
structure Document where
  collection : String
  sequence : Nat
  id : String
  body : Json
  committedAt : Instant
deriving Repr, Inhabited

structure ChangeEvent where
  collection : String
  documentId : String
  sequence : Nat
deriving DecidableEq, Repr, Inhabited

def Document.event (d : Document) : ChangeEvent :=
  { collection := d.collection, documentId := d.id, sequence := d.sequence }

/-- A collection: its documents in the order of their sequences, and the sequence that each name was
given. -/
structure Log where
  documents : List Document := []
  sequences : List (String × Nat) := []
deriving Repr, Inhabited

def Log.push (l : Log) (d : Document) : Log :=
  { documents := l.documents ++ [d], sequences := (d.id, d.sequence) :: l.sequences }

structure Store where
  collections : List (String × Log) := []
  keyed : List ((String × String) × Json) := []
  /-- How many of the next writes fail. -/
  failures : Nat := 0
deriving Repr, Inhabited

namespace Store

def log (s : Store) (collection : String) : Log := (s.collections.lookup collection).getD {}

/-- The documents of a collection, in the order of their sequences. -/
def documents (s : Store) (collection : String) : List Document := (s.log collection).documents

/-- The sequence that a name was given in a collection. -/
def sequenceOf? (s : Store) (collection id : String) : Option Nat :=
  (s.log collection).sequences.lookup id

/-- The last sequence of a collection, zero if it is empty. -/
def head (s : Store) (collection : String) : Nat := (s.documents collection).length

def latest? (s : Store) (collection : String) : Option Document :=
  (s.documents collection).getLast?

/-- The first documents behind a sequence. Sequences run without gaps, so that the document with
sequence `n` stands at place `n - 1`. -/
def after (s : Store) (collection : String) (sequence limit : Nat) : List Document :=
  ((s.documents collection).drop sequence).take limit

def fetch? (s : Store) (collection id : String) : Option Json := s.keyed.lookup (collection, id)

def writeFault : Fault := .storeWrite "injected write failure"

/-- Lets the next writes fail, `count` of them. -/
def failNext (s : Store) (count : Nat) : Store := { s with failures := count }

/-- Appends a document to a collection that has no document of that name. -/
def commit (s : Store) (d : Document) : Store :=
  { s with collections :=
      (d.collection, (s.log d.collection).push d) ::
        s.collections.filter (·.1 != d.collection) }

/-- Appends a document and answers its sequence. -/
def append (s : Store) (collection id : String) (body : Json) (now : Instant) :
    Except Fault Nat × Store :=
  match s.failures with
  | n + 1 => (.error writeFault, { s with failures := n })
  | 0 =>
    match s.sequenceOf? collection id with
    | some sequence => (.ok sequence, s)
    | none =>
      let sequence := s.head collection + 1
      (.ok sequence, s.commit { collection, sequence, id, body, committedAt := now })

def upsert (s : Store) (collection id : String) (body : Json) : Except Fault Unit × Store :=
  match s.failures with
  | n + 1 => (.error writeFault, { s with failures := n })
  | 0 =>
    (.ok (), { s with keyed :=
      ((collection, id), body) :: s.keyed.filter (·.1 != (collection, id)) })

end Store

inductive Write where
  | append (collection id : String) (body : Json)
  | upsert (collection id : String) (body : Json)
deriving Repr, Inhabited

/-- Performs a write; an append answers its sequence, an upsert zero. -/
def Store.perform (s : Store) (w : Write) (now : Instant) : Except Fault Nat × Store :=
  match w with
  | .append collection id body => s.append collection id body now
  | .upsert collection id body =>
    let (answer, s) := s.upsert collection id body
    (answer.map fun _ => 0, s)

inductive Retried where
  | done (sequence : Nat)
  | waiting (delay : Nat) (schedule : Backoff)
  | givenUp (fault : Fault)

def Store.attempt (s : Store) (w : Write) (schedule : Backoff) (now : Instant) : Retried × Store :=
  match s.perform w now with
  | (.ok sequence, s) => (.done sequence, s)
  | (.error e, s) =>
    match schedule.next? with
    | some (delay, schedule) => (.waiting delay schedule, s)
    | none => (.givenUp (.storeWrite e.message), s)

/-- Attempts a write until it lands or its schedule is used up, when nobody else writes. Also the
time it takes. -/
def Store.persist (s : Store) (w : Write) (retry : BackoffSettings) (clock : Nat → Instant) :
    Except Fault Nat × Nat × Store :=
  -- every attempt but the last uses up one of the failures to come
  go (s.failures + 1) s (Backoff.start retry) 0
where
  go : Nat → Store → Backoff → Nat → Except Fault Nat × Nat × Store
    | 0, s, _, elapsed => (.error Store.writeFault, elapsed, s)
    | fuel + 1, s, schedule, elapsed =>
      match s.attempt w schedule (clock elapsed) with
      | (.done sequence, s) => (.ok sequence, elapsed, s)
      | (.givenUp e, s) => (.error e, elapsed, s)
      | (.waiting delay schedule, s) => go fuel s schedule (elapsed + delay)

/-- The latest document of a collection, read as a record. -/
def Store.latestRecord {α : Type} (s : Store) (collection : String) (read : Json → Option α) :
    Except Fault (Option α) :=
  match s.latest? collection with
  | none => .ok none
  | some d =>
    match read d.body with
    | some a => .ok (some a)
    | none => .error .json

end TradingDesk

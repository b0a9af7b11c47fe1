import TradingDesk.Fault
import TradingDesk.Trading.Paper
/-!
# Venues for rehearsals

A venue takes orders, either on paper or from a script of answers that may come late. It keeps the
calls that it got.
-/

namespace TradingDesk.Rehearsal

structure Cue (α : Type) where
  delay : Nat
  answer : Except Fault α

/-- The answers to the calls of each kind, in their order. When they are used up, an order rests or
is unknown, and a cancellation succeeds. -/
structure Script where
  submits : List (Cue Order.Outcome) := []
  statuses : List (Cue Order.Outcome) := []
  cancels : List (Cue Unit) := []
  resting : Bool := false
deriving Inhabited

namespace Script

def fallback (s : Script) : Cue Order.Outcome :=
  { delay := 0, answer := .ok (if s.resting then .resting "resting" else .unknown) }

def submit (s : Script) : Cue Order.Outcome × Script :=
  match s.submits with
  | cue :: rest => (cue, { s with submits := rest })
  | [] => (s.fallback, s)

def status (s : Script) : Cue Order.Outcome × Script :=
  match s.statuses with
  | cue :: rest => (cue, { s with statuses := rest })
  | [] => (s.fallback, s)

def cancel (s : Script) : Cue Unit × Script :=
  match s.cancels with
  | cue :: rest => (cue, { s with cancels := rest })
  | [] => ({ delay := 0, answer := .ok () }, s)

end Script

inductive Call where
  | submit (order : Order)
  | status (clientId : String)
  | cancel (clientId : String)
deriving DecidableEq, Repr

inductive Desk where
  | paper (p : Paper)
  | scripted (s : Script)

instance : Inhabited Desk := ⟨.paper {}⟩

/-- A venue and the calls that it got, each with its time, the last one first. -/
structure Venue where
  desk : Desk
  calls : List (Nat × Call) := []
deriving Inhabited

namespace Venue

def onPaper : Venue := { desk := .paper {} }

def scripted (s : Script) : Venue := { desk := .scripted s }

def note (v : Venue) (time : Nat) (c : Call) : Venue := { v with calls := (time, c) :: v.calls }

def submit (v : Venue) (order : Order) (time : Nat) (now : Instant) : Cue Order.Outcome × Venue :=
  let v := v.note time (.submit order)
  match v.desk with
  | .paper p =>
    let (outcome, p) := p.submit order now
    ({ delay := 0, answer := .ok outcome }, { v with desk := .paper p })
  | .scripted s =>
    let (cue, s) := s.submit
    (cue, { v with desk := .scripted s })

def status (v : Venue) (clientId : String) (time : Nat) : Cue Order.Outcome × Venue :=
  let v := v.note time (.status clientId)
  match v.desk with
  | .paper p => ({ delay := 0, answer := .ok (p.status clientId) }, v)
  | .scripted s =>
    let (cue, s) := s.status
    (cue, { v with desk := .scripted s })

def cancel (v : Venue) (clientId : String) (time : Nat) : Cue Unit × Venue :=
  let v := v.note time (.cancel clientId)
  match v.desk with
  | .paper _ => ({ delay := 0, answer := .ok () }, v)
  | .scripted s =>
    let (cue, s) := s.cancel
    (cue, { v with desk := .scripted s })

end Venue

end TradingDesk.Rehearsal

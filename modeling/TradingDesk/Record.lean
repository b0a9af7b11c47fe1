import TradingDesk.Decimal.Text
import TradingDesk.Instant.Text
/-!
# Reading records

A record is read from a value that holds its fields by name or, as a list, in their order. What
such a value is depends on where it comes from: a JSON document takes each value as it is, a
configuration converts it. `Source` says how the plain values are read, and the readers of the
records are written once for all sources.

By name, unknown fields are passed over and a known field must not be given twice.
-/

namespace TradingDesk

/-- Values that records are read from. -/
class Source (σ : Type) where
  isNull : σ → Bool
  bool? : σ → Option Bool
  /-- An unsigned number below a bound. -/
  natBelow? : Nat → σ → Option Nat
  float? : σ → Option Float
  text? : σ → Option String
  decimal? : σ → Option Decimal
  list? : σ → Option (List σ)
  /-- The members of an object in their order, repeated keys included. -/
  members? : σ → Option (List (String × σ))
  /-- One of some names. -/
  choice? : List String → σ → Option String
  /-- Whether a record given as a list may have items behind its last field. -/
  allowsSurplus : Bool

namespace Source

variable {σ : Type} [Source σ]

def word? (v : σ) : Option Nat := natBelow? (pow2 64) v

def instant? (v : σ) : Option Instant := do Instant.ofText? (← text? v)

def listOf? {α : Type} (read : σ → Option α) (v : σ) : Option (List α) := do
  (← list? v).mapM read

def nullable? {α : Type} (read : σ → Option α) (v : σ) : Option (Option α) :=
  if isNull v then some none else (read v).map some

def named? {α : Type} (table : List (String × α)) (v : σ) : Option α := do
  let name ← choice? (table.map (·.1)) v
  table.lookup name

end Source

structure Slots (σ : Type) where
  given : List (String × σ)
  /-- Whether they were given as a list. -/
  listed : Bool

namespace Slots

variable {σ α : Type} [Source σ]

/-- Sorts the parts of a value to the fields of a record. -/
def of? (names : List String) (v : σ) : Option (Slots σ) :=
  match Source.list? v with
  | some items =>
    if items.length ≤ names.length ∨ Source.allowsSurplus σ then
      some { given := names.zip items, listed := true }
    else none
  | none => do
    let known := (← Source.members? v).filter (names.contains ·.1)
    if (known.map (·.1)).Nodup then some { given := known, listed := false } else none

/-- A field that must be given. -/
def required (s : Slots σ) (name : String) (read : σ → Option α) : Option α := do
  read (← s.given.lookup name)

/-- A field with a value of its own when it is not given. -/
def withDefault (s : Slots σ) (name : String) (read : σ → Option α) (default : α) : Option α :=
  match s.given.lookup name with
  | some v => read v
  | none => some default

/-- A field that may be null or left out. -/
def optional (s : Slots σ) (name : String) (read : σ → Option α) : Option (Option α) :=
  s.withDefault name (Source.nullable? read) none

/-- A field that may be null and, by name, left out. -/
def nullable (s : Slots σ) (name : String) (read : σ → Option α) : Option (Option α) :=
  if s.listed then s.required name (Source.nullable? read) else s.optional name read

end Slots

end TradingDesk

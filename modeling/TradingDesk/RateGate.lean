/-!
# Rate gates

A gate lets at most one item of each key pass in the key's interval. It keeps the time of the last
one that passed.
-/

namespace TradingDesk

/-- Keys with an interval of their own, the interval of all others, and the last passages. Of
several intervals of a key the last one counts. -/
structure RateGate (κ : Type) where
  interval : Nat
  overrides : List (κ × Nat) := []
  passed : List (κ × Nat) := []
deriving DecidableEq, Repr, Inhabited

namespace RateGate

variable {κ : Type} [BEq κ]

def intervalOf (g : RateGate κ) (key : κ) : Nat :=
  (g.overrides.reverse.lookup key).getD g.interval

def last? (g : RateGate κ) (key : κ) : Option Nat := g.passed.lookup key

def size (g : RateGate κ) : Nat := g.passed.length

def setLast (g : RateGate κ) (key : κ) (time : Nat) : RateGate κ :=
  { g with passed := (key, time) :: g.passed.filter (·.1 != key) }

/-- Whether an item of this key may pass at this time: the first one may, and later ones an
interval after the last, never before it. -/
def isOpen (g : RateGate κ) (key : κ) (time : Nat) : Bool :=
  match g.last? key with
  | none => true
  | some last => last ≤ time && g.intervalOf key ≤ time - last

/-- Lets an item pass if it may; one that may not leaves no trace. -/
def pass (g : RateGate κ) (key : κ) (time : Nat) : Bool × RateGate κ :=
  if g.isOpen key time then (true, g.setLast key time) else (false, g)

/-- Moves the last passage of a key forward, for work that was let pass and ended later. -/
def record (g : RateGate κ) (key : κ) (time : Nat) : RateGate κ :=
  g.setLast key (max ((g.last? key).getD time) time)

end RateGate

end TradingDesk

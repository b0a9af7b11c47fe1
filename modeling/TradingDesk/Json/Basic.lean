import TradingDesk.KeyMap
/-!
# JSON documents

A document is kept as it was written: members in their order, repeated keys included. A part that
can be skipped but not read, such as a number beyond the range of floats, is `unreadable`.

`Json.settle?` gives the plain document: nothing unreadable, of repeated keys the last, members in
the order of their keys. Stored documents are settled.
-/

namespace TradingDesk

/-- A JSON number: an integer of 64 bits, signed or unsigned, or a float. -/
inductive Json.Number where
  | int (n : Int)
  | float (x : Float)
deriving DecidableEq, Repr

inductive Json where
  | null
  | bool (b : Bool)
  | num (n : Json.Number)
  | str (s : String)
  | arr (items : List Json)
  | obj (members : List (String × Json))
  | unreadable
deriving Repr, Inhabited, BEq

namespace Json

def ofInt (n : Int) : Json := .num (.int n)

def ofNat (n : Nat) : Json := .num (.int n)

def ofFloat (x : Float) : Json := .num (.float x)

def ofOption {α : Type} (f : α → Json) : Option α → Json
  | none => .null
  | some a => f a

/-- The value of a member; of repeated keys the last. -/
def get? (key : String) : Json → Option Json
  | .obj members => (members.reverse.find? (·.1 == key)).map (·.2)
  | _ => none

def asStr? : Json → Option String
  | .str s => some s
  | _ => none

def asNat? : Json → Option Nat
  | .num (.int n) => if 0 ≤ n then some n.toNat else none
  | _ => none

def asList? : Json → Option (List Json)
  | .arr items => some items
  | _ => none

def depth : Json → Nat
  | .arr items => 1 + depthItems items
  | .obj members => 1 + depthMembers members
  | _ => 0
where
  depthItems : List Json → Nat
    | [] => 0
    | v :: vs => max v.depth (depthItems vs)
  depthMembers : List (String × Json) → Nat
    | [] => 0
    | (_, v) :: ms => max v.depth (depthMembers ms)

/-- The object with these members, ordered by key, the last of repeated keys kept. -/
def ofMembers (members : List (String × Json)) : Json := .obj (KeyMap.ofList members).pairs

/-- The plain document, if every part of it can be read. -/
def settle? : Json → Option Json
  | .arr items => (settleItems? items).map .arr
  | .obj members => (settleMembers? members).map ofMembers
  | .unreadable => none
  | v => some v
where
  settleItems? : List Json → Option (List Json)
    | [] => some []
    | v :: vs => do
      let v ← v.settle?
      let vs ← settleItems? vs
      pure (v :: vs)
  settleMembers? : List (String × Json) → Option (List (String × Json))
    | [] => some []
    | (k, v) :: ms => do
      let v ← v.settle?
      let ms ← settleMembers? ms
      pure ((k, v) :: ms)

/-- The plain document, with null for what cannot be read. -/
def settled (v : Json) : Json := v.settle?.getD .null

/-- The deepest nesting that is read. -/
def maxDepth : Nat := 127

end Json

end TradingDesk

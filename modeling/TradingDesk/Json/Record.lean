import TradingDesk.Json.Parser
import TradingDesk.Record
import TradingDesk.Decimal.Shortest
/-!
# Records in JSON

A JSON document is read as it is: no value is converted to another kind, but a decimal may be
written as a text or as a number, and a name `n` without contents also as the object that maps `n`
to null.
-/

namespace TradingDesk.Json

/-- A decimal, written as a text, an integer, or a float that stands for its shortest text. -/
def decimal? : Json → Option Decimal
  | .str s => Decimal.ofText? s
  | .num (.int n) => Decimal.ofInt? n
  | .num (.float x) => Decimal.ofText? (Shortest.floatText x)
  | _ => none

instance : Source Json where
  isNull v := match v with
    | .null => true
    | _ => false
  bool? v := match v with
    | .bool b => some b
    | _ => none
  natBelow? bound v := match v with
    | .num (.int n) => if 0 ≤ n ∧ n < bound then some n.toNat else none
    | _ => none
  float? v := match v with
    | .num (.int n) => some (if 0 ≤ n then Float.ofNat n.toNat else -(Float.ofNat n.natAbs))
    | .num (.float x) => some x
    | _ => none
  text? := asStr?
  decimal? := decimal?
  list? := asList?
  members? v := match v with
    | .obj members => some members
    | _ => none
  choice? names v :=
    let name? := match v with
      | .str s => some s
      | .obj [(s, .null)] => some s
      | _ => none
    name?.filter names.contains
  allowsSurplus := false

/-- A plain document that is nested at most `room` deep. -/
def plain? (room : Nat) (v : Json) : Option Json :=
  if v.depth ≤ room then v.settle? else none

/-- A map from names to values, of repeated names the last. -/
def mapOf? {σ α : Type} [Source σ] (read : σ → Option α) (v : σ) : Option (List (String × α)) := do
  let members ← (← Source.members? v).mapM fun (k, v) => (read v).map (k, ·)
  pure (members.foldl (fun acc (k, a) => acc.filter (·.1 != k) ++ [(k, a)]) [])

def ofDecimal (a : Decimal) : Json := .str a.toText

def ofInstant (t : Instant) : Json := .str t.toText

def ofList {α : Type} (f : α → Json) (xs : List α) : Json := .arr (xs.map f)

end TradingDesk.Json

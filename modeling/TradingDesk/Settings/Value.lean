import TradingDesk.Record
import TradingDesk.Decimal.Shortest
import TradingDesk.Text.Number
/-!
# Values of settings

What a settings file or the environment gives, before it is read as settings. Keys are kept in
small letters. Where a number, a flag or a text is asked for, any of the three is converted to it;
a decimal is never made of a flag, and a list never of a single value.
-/

namespace TradingDesk.Settings

inductive Value where
  | null
  | bool (b : Bool)
  | int (n : Int)
  | float (x : Float)
  | text (s : String)
  | list (items : List Value)
  | table (entries : List (String × Value))
deriving Repr, Inhabited

namespace Value

def flag? (s : String) : Option Bool :=
  let word := Text.lower s
  if ["true", "on", "yes"].contains word then some true
  else if ["false", "off", "no"].contains word then some false
  else none

def bool? : Value → Option Bool
  | .bool b => some b
  | .int n => some (n != 0)
  | .float x => some (x != 0.0)
  | .text s =>
    if s = "1" then some true
    else if s = "0" then some false
    else flag? s
  | _ => none

/-- An unsigned number of 64 bits. A float is rounded, and brought into range. -/
def word? : Value → Option Nat
  | .bool b => some b.toNat
  | .int n => if 0 ≤ n then some n.toNat else none
  | .float x => some x.round.toUInt64.toNat
  | .text s => (flag? s).map Bool.toNat |>.or (Text.word? s)
  | _ => none

def ofBool (b : Bool) : Float := if b then 1.0 else 0.0

def float? : Value → Option Float
  | .bool b => some (ofBool b)
  | .int n => some (Float.ofInt n)
  | .float x => some x
  | .text s => (flag? s).map ofBool |>.or (Text.float? s)
  | _ => none

def text? : Value → Option String
  | .bool b => some (if b then "true" else "false")
  | .int n => some (toString n)
  | .float x => some (Shortest.floatText x)
  | .text s => some s
  | _ => none

def decimal? : Value → Option Decimal
  | .int n => Decimal.ofInt? n
  | .float x => Decimal.ofText? (Shortest.floatText x)
  | .text s => Decimal.ofText? s
  | _ => none

/-- The name given, in any case, as a text or as the only key of a table. -/
def choice? (names : List String) (v : Value) : Option String := do
  let given ← match v with
    | .text s => some s
    | .table [(s, _)] => some s
    | _ => none
  names.find? fun name => Text.lower name == Text.lower given

instance : Source Value where
  isNull v := match v with
    | .null => true
    | _ => false
  bool? := bool?
  natBelow? bound v := v.word?.filter (· < bound)
  float? := float?
  text? := text?
  decimal? := decimal?
  list? v := match v with
    | .list items => some items
    | _ => none
  members? v := match v with
    | .table entries => some entries
    | _ => none
  choice? := choice?
  allowsSurplus := true

/-! ### Layers -/

/-- The entries of a table; there are none in anything else. -/
def entries : Value → List (String × Value)
  | .table entries => entries
  | _ => []

def setEntry (key : String) (v : Value) : List (String × Value) → List (String × Value)
  | [] => [(key, v)]
  | (k, w) :: rest => if k = key then (key, v) :: rest else (k, w) :: setEntry key v rest

/-- Lays a value over another: a table entry by entry, anything else in place of what was there. -/
def overlay (base : Value) : Value → Value
  | .table es => .table (layEntries base.entries es)
  | .list items => .list (lowered items)
  | v => v
where
  layEntries (acc : List (String × Value)) : List (String × Value) → List (String × Value)
    | [] => acc
    | (k, v) :: rest =>
      let key := Text.lower k
      layEntries (setEntry key (overlay ((acc.lookup key).getD .null) v) acc) rest
  lowered : List Value → List Value
    | [] => []
    | v :: rest => overlay .null v :: lowered rest

/-- One step towards a value: an entry of a table, or an item of a list, a negative number counting
from its end. -/
inductive Step where
  | key (name : String)
  | item (index : Int)
deriving DecidableEq, Repr

/-- The items of a list, made long enough to hold the place that an index means. -/
def roomFor (index : Int) (v : Value) : Nat × List Value :=
  let items := match v with
    | .list items => items
    | _ => []
  let place := (if index < 0 then items.length + index else index).toNat
  (place, items ++ List.replicate (place + 1 - items.length) .null)

/-- Lays a value over what is found at the end of a path; what is missing on the way, or has no
place for the next step, is made anew. -/
def put (v : Value) : List Step → Value → Value
  | [], base => base.overlay v
  | .key name :: path, base =>
    let key := Text.lower name
    let es := base.entries
    .table (setEntry key (put v path ((es.lookup key).getD .null)) es)
  | .item index :: path, base =>
    let (place, items) := base.roomFor index
    .list (items.set place (put v path ((items[place]?).getD .null)))

end Value

end TradingDesk.Settings

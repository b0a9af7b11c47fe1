import TradingDesk.Json.Basic
/-!
# Members of JSON objects

Members that are read with a fallback: null, nothing, or a given value, where a member is missing or
of another kind.
-/

namespace TradingDesk.Json

def isNull : Json → Bool
  | .null => true
  | _ => false

def field (v : Json) (key : String) : Json := (v.get? key).getD .null

def textAt? (v : Json) (key : String) : Option String := (v.field key).asStr?

def textAt (v : Json) (key : String) : String := (v.textAt? key).getD ""

def natAt? (v : Json) (key : String) : Option Nat := (v.field key).asNat?

def natAt (v : Json) (key : String) : Nat := (v.natAt? key).getD 0

def itemsAt (v : Json) (key : String) : List Json := (v.field key).asList?.getD []

def textsAt (v : Json) (key : String) : List String := (v.itemsAt key).filterMap asStr?

def flagAt (v : Json) (key : String) (otherwise : Bool) : Bool :=
  match v.field key with
  | .bool b => b
  | _ => otherwise

def members : Json → List (String × Json)
  | .obj ms => ms
  | _ => []

def given? (v : Json) (key : String) : Option Json :=
  let m := v.field key
  if m.isNull then none else some m

end TradingDesk.Json

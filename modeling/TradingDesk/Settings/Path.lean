import TradingDesk.Settings.Value
/-!
# Paths to settings

A key such as `a.b[0].c` leads to a value within tables and lists. A key that is no such path names
an entry as a whole.
-/

namespace TradingDesk.Settings.Path

def isNameChar (c : Char) : Bool := c.isAlphanum || c == ' ' || c == '_' || c == '-'

def readName? (cs : List Char) : Option (String × List Char) :=
  let name := cs.takeWhile isNameChar
  if name.isEmpty then none else some (String.ofList name, cs.dropWhile isNameChar)

/-- The steps behind the first; every step takes a character. -/
def readSteps? : (fuel : Nat) → List Char → Option (List Value.Step)
  | _, [] => some []
  | 0, _ => none
  | fuel + 1, '.' :: cs => do
    let (name, cs) ← readName? cs
    let steps ← readSteps? fuel cs
    pure (.key name :: steps)
  | fuel + 1, '[' :: cs => do
    let (minus, cs) := match cs with
      | '-' :: cs => (true, cs)
      | cs => (false, cs)
    let n ← Text.digits? (cs.takeWhile (Text.isDigit 10))
    match cs.dropWhile (Text.isDigit 10) with
    | ']' :: cs =>
      let steps ← readSteps? fuel cs
      pure (.item (if minus then -n else n) :: steps)
    | _ => none
  | _, _ => none

def ofKey (key : String) : List Value.Step :=
  let path? := do
    let (name, cs) ← readName? key.toList
    let steps ← readSteps? cs.length cs
    pure (Value.Step.key name :: steps)
  path?.getD [.key key]

end TradingDesk.Settings.Path

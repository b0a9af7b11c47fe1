import TradingDesk.Json.Basic
import TradingDesk.Decimal.Shortest
/-!
# Writing JSON

Documents are written without blanks. Inside a string the quote, the backslash and the control
characters are escaped and all else stands for itself; a float has the fewest digits that identify
it, and always a point or an exponent.
-/

namespace TradingDesk.Json

def hexDigit (n : Nat) : Char :=
  if n < 10 then Char.ofNat (48 + n) else Char.ofNat (87 + n)

def escape (c : Char) : List Char :=
  match c with
  | '"' => ['\\', '"']
  | '\\' => ['\\', '\\']
  | '\n' => ['\\', 'n']
  | '\r' => ['\\', 'r']
  | '\t' => ['\\', 't']
  | '\x08' => ['\\', 'b']
  | '\x0c' => ['\\', 'f']
  | c =>
    if c.toNat < 0x20 then
      ['\\', 'u', '0', '0', hexDigit (c.toNat / 16), hexDigit (c.toNat % 16)]
    else [c]

def quote (s : String) : List Char :=
  '"' :: s.toList.flatMap escape ++ ['"']

def floatChars (x : Float) : List Char :=
  let (minus, d) := Shortest.ofFloat x
  let ds := Nat.toDigits 10 d.digits
  let point := (ds.length : Int) + d.exponent
  let body :=
    if 0 ≤ d.exponent ∧ point ≤ 17 then d.plain ++ ['.', '0']
    else if d.exponent < 0 ∧ -5 < point then d.plain
    else ds ++ 'e' :: (toString d.exponent).toList
  if minus then '-' :: body else body

def Number.chars : Number → List Char
  | .int n => (toString n).toList
  | .float x => if x.isNaN || x.isInf then "null".toList else floatChars x

def chars : Json → List Char
  | .null => "null".toList
  | .bool true => "true".toList
  | .bool false => "false".toList
  | .num n => n.chars
  | .str s => quote s
  | .arr items => '[' :: charsItems items ++ [']']
  | .obj members => '\x7b' :: charsMembers members ++ ['\x7d']
  | .unreadable => "null".toList
where
  charsItems : List Json → List Char
    | [] => []
    | [v] => v.chars
    | v :: vs => v.chars ++ ',' :: charsItems vs
  charsMembers : List (String × Json) → List Char
    | [] => []
    | [(k, v)] => quote k ++ ':' :: v.chars
    | (k, v) :: ms => quote k ++ ':' :: v.chars ++ ',' :: charsMembers ms

def toText (v : Json) : String := String.ofList v.chars

end TradingDesk.Json

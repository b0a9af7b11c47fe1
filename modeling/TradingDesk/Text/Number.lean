import TradingDesk.Decimal.Shortest
import TradingDesk.Text.Case
/-!
# Numbers as texts

Whole numbers and floats read from a text that holds nothing else. Digits are ASCII digits; a float
is the one nearest to the decimal that was written.
-/

namespace TradingDesk.Text

def digit? (base : Nat) (c : Char) : Option Nat :=
  let value :=
    if '0' ≤ c ∧ c ≤ '9' then c.toNat - '0'.toNat
    else if 'a' ≤ c ∧ c ≤ 'f' then c.toNat - 'a'.toNat + 10
    else if 'A' ≤ c ∧ c ≤ 'F' then c.toNat - 'A'.toNat + 10
    else base
  if value < base then some value else none

def isDigit (base : Nat) (c : Char) : Bool := (digit? base c).isSome

def digitsValue (base : Nat) (cs : List Char) : Nat :=
  cs.foldl (fun n c => n * base + (digit? base c).getD 0) 0

def digits? (cs : List Char) : Option Nat :=
  if !cs.isEmpty && cs.all (isDigit 10) then some (digitsValue 10 cs) else none

def splitSign : List Char → Bool × List Char
  | '-' :: cs => (true, cs)
  | '+' :: cs => (false, cs)
  | cs => (false, cs)

/-- An unsigned number of 64 bits; a plus may stand before it. -/
def word? (s : String) : Option Nat :=
  let digits := match s.toList with
    | '+' :: cs => cs
    | cs => cs
  (digits? digits).filter (· < pow2 64)

/-- A signed number of 64 bits. -/
def integer? (s : String) : Option Int := do
  let (minus, cs) := splitSign s.toList
  let n ← digits? cs
  let z : Int := if minus then -n else n
  if -(pow2 63) ≤ z ∧ z < pow2 63 then some z else none

/-- The float nearest to `digits * 10 ^ exponent`. -/
def nearest (digits : Nat) (exponent : Int) : Float :=
  let magnitude : Int := (Nat.toDigits 10 digits).length + exponent
  if digits = 0 ∨ magnitude < -330 then 0.0
  else if 310 < magnitude then 1.0 / 0.0
  else Float.ofScientific digits (exponent < 0) exponent.natAbs

/-- The exponent behind a mantissa, zero if there is none. -/
def exponent? : List Char → Option Int
  | [] => some 0
  | c :: cs =>
    if c = 'e' ∨ c = 'E' then do
      let (minus, cs) := splitSign cs
      let n ← digits? cs
      pure (if minus then -n else n)
    else none

/-- A decimal without sign: digits before or behind a point, and an exponent. -/
def unsignedFloat? (cs : List Char) : Option Float := do
  let whole := cs.takeWhile (isDigit 10)
  let rest := cs.dropWhile (isDigit 10)
  let (fraction, rest) := match rest with
    | '.' :: rest => (rest.takeWhile (isDigit 10), rest.dropWhile (isDigit 10))
    | _ => ([], rest)
  if whole.isEmpty && fraction.isEmpty then none
  else pure (nearest (digitsValue 10 (whole ++ fraction)) ((← exponent? rest) - fraction.length))

/-- A float: a decimal, or the name of an infinity or of what is not a number, in any case. -/
def float? (s : String) : Option Float := do
  let (minus, cs) := splitSign s.toList
  let name := String.ofList (cs.map Char.toLower)
  let x ←
    if name = "inf" ∨ name = "infinity" then some (1.0 / 0.0)
    else if name = "nan" then some (0.0 / 0.0)
    else unsignedFloat? cs
  pure (if minus then -x else x)

end TradingDesk.Text

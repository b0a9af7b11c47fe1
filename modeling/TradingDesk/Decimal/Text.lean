import TradingDesk.Decimal.Basic
/-!
# The text of a decimal

A decimal is written with all the digits of its scale. It is read from plain digits with an
optional point, or from plain digits with a power of ten; underscores may stand between digits.
-/

namespace TradingDesk.Decimal

def digit? (c : Char) : Option Nat :=
  if '0' ≤ c ∧ c ≤ '9' then some (c.toNat - '0'.toNat) else none

/-- A natural number in plain digits, at least `width` of them. -/
def paddedDigits (width n : Nat) : List Char :=
  let digits := Nat.toDigits 10 n
  List.replicate (width - digits.length) '0' ++ digits

/-! ### Writing -/

/-- The characters of a decimal: sign, integer part, and the digits of its scale. -/
def chars (a : Decimal) : List Char :=
  let digits := paddedDigits (a.scale + 1) a.coefficient.natAbs
  let whole := digits.take (digits.length - a.scale)
  let fraction := digits.drop (digits.length - a.scale)
  (if a.coefficient < 0 then ['-'] else []) ++ whole ++
    (if a.scale = 0 then [] else '.' :: fraction)

def toText (a : Decimal) : String := String.ofList a.chars

/-! ### Reading plain digits -/

/-- What may follow the digit on which a fraction is rounded. -/
def isTail (cs : List Char) : Bool := cs.all fun c => (digit? c).isSome || c == '_'

/-- The magnitude rounded on its first digit that does not fit. -/
def roundOn? (digits scale next : Nat) : Option (Nat × Nat) :=
  if next < 5 then some (digits, scale)
  else if digits + 1 < bound then some (digits + 1, scale)
  else if scale = 0 then none
  else some ((digits + 1 + 4) / 10, scale - 1)

/-- Reads the digits of a magnitude and the number of them behind the point. `point` and `some`
say whether a point and a digit have been met. -/
def readDigits? : List Char → (digits scale : Nat) → (point met : Bool) → Option (Nat × Nat)
  | [], digits, scale, _, met => if met then some (digits, scale) else none
  | c :: cs, digits, scale, point, met =>
    match digit? c with
    | some d =>
      let next := digits * 10 + d
      if point then
        if scale < maxScale ∧ next < bound then readDigits? cs next (scale + 1) true true
        else if isTail cs then roundOn? digits scale d
        else none
      else if next < bound then readDigits? cs next 0 false true
      else none
    | none =>
      if c = '.' ∧ point = false then readDigits? cs digits scale true met
      else if c = '_' ∧ met then
        if point ∧ scale = maxScale then (if isTail cs then some (digits, scale) else none)
        else readDigits? cs digits scale point met
      else none

/-- Takes an optional sign off the front; `true` is minus. -/
def splitSign : List Char → Bool × List Char
  | '-' :: cs => (true, cs)
  | '+' :: cs => (false, cs)
  | cs => (false, cs)

def readPlain? (cs : List Char) : Option Decimal := do
  let (minus, cs) := splitSign cs
  let (digits, scale) ← readDigits? cs 0 0 false false
  ofParts? (if minus then -(digits : Int) else digits) scale

/-! ### Reading a power of ten -/

/-- Reads an unsigned number of 32 bits: an optional plus and digits. -/
def readExponent? (cs : List Char) : Option Nat :=
  let cs := match cs with
    | '+' :: rest => rest
    | _ => cs
  if cs.isEmpty then none
  else do
    let n ← cs.foldlM (fun n c => (digit? c).map fun d => n * 10 + d) 0
    if n < pow2 32 then some n else none

/-- Moves the point `exponent` places to the right. -/
def raise? (a : Decimal) (exponent : Nat) : Option Decimal :=
  if exponent ≤ a.scale then ofParts? a.coefficient (a.scale - exponent)
  else if exponent > maxScale then none
  else do
    let power ← ofParts? (pow10 exponent) 0
    let product ← a.mul? power
    pure product.plain

/-- Moves the point `exponent` places to the left. -/
def lower? (a : Decimal) (exponent : Nat) : Option Decimal :=
  if exponent > maxScale then none else ofParts? a.coefficient (a.scale + exponent)

/-- Reads plain digits with a power of ten behind an `e` or `E`. -/
def readScientific? (cs : List Char) : Option Decimal := do
  let isMark := fun c => c == 'e' || c == 'E'
  let base := cs.takeWhile (! isMark ·)
  match cs.dropWhile (! isMark ·) with
  | [] => none
  | _ :: '-' :: exponent =>
    let a ← readPlain? base
    let n ← readExponent? exponent
    a.lower? n
  | _ :: exponent =>
    let a ← readPlain? base
    let n ← readExponent? exponent
    a.raise? n

def ofChars? (cs : List Char) : Option Decimal :=
  match readPlain? cs with
  | some a => some a
  | none => readScientific? cs

def ofText? (s : String) : Option Decimal := ofChars? s.toList

end TradingDesk.Decimal

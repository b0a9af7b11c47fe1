import TradingDesk.Power
/-!
# Decimal amounts

Prices, sizes and factors are decimals with a coefficient of at most 96 bits and a scale of at
most 28 digits after the point. The scale is part of the value's text: `1.1` and `1.10` are equal
amounts and distinct decimals.

A result that has too many digits is rounded once, a half going to the even neighbour; a result
whose integer part does not fit is no decimal at all, and the operation returns `none`.
-/

namespace TradingDesk

/-- The decimal `coefficient / 10 ^ scale`. -/
structure Decimal where
  coefficient : Int
  scale : Nat
  coefficient_lt : coefficient.natAbs < pow2 96 := by decide
  scale_le : scale ≤ 28 := by decide
deriving DecidableEq, Repr

namespace Decimal

/-- The coefficients that fit are those below this bound. -/
abbrev bound : Nat := pow2 96

/-- The most digits after the point. -/
abbrev maxScale : Nat := 28

def zero : Decimal := { coefficient := 0, scale := 0 }

def one : Decimal := { coefficient := 1, scale := 0 }

def two : Decimal := { coefficient := 2, scale := 0 }

def thousandth : Decimal := { coefficient := 1, scale := 3 }

instance : Inhabited Decimal := ⟨zero⟩

/-- The decimal with these parts, if they fit. -/
def ofParts? (coefficient : Int) (scale : Nat) : Option Decimal :=
  if h : coefficient.natAbs < pow2 96 ∧ scale ≤ 28 then
    some { coefficient, scale, coefficient_lt := h.1, scale_le := h.2 }
  else none

def ofInt? (n : Int) : Option Decimal := ofParts? n 0

def isZero (a : Decimal) : Bool := a.coefficient == 0

def neg (a : Decimal) : Decimal :=
  { a with coefficient := -a.coefficient, coefficient_lt := by simpa using a.coefficient_lt }

instance : Neg Decimal := ⟨neg⟩

/-! ### Order, by value -/

/-- The coefficients of two decimals brought to the scale `a.scale + b.scale`. -/
def align (a b : Decimal) : Int × Int :=
  (a.coefficient * pow10 b.scale, b.coefficient * pow10 a.scale)

instance : LE Decimal := ⟨fun a b => (a.align b).1 ≤ (a.align b).2⟩

instance : LT Decimal := ⟨fun a b => (a.align b).1 < (a.align b).2⟩

instance (a b : Decimal) : Decidable (a ≤ b) :=
  inferInstanceAs (Decidable ((a.align b).1 ≤ (a.align b).2))

instance (a b : Decimal) : Decidable (a < b) :=
  inferInstanceAs (Decidable ((a.align b).1 < (a.align b).2))

/-- The smaller amount; of two equal amounts the first. -/
def least (a b : Decimal) : Decimal := if b < a then b else a

/-! ### Rounding -/

/-- The quotient rounded to the nearest natural number, a half to the even one. -/
def roundHalfEven (num den : Nat) : Nat :=
  let q := num / den
  let r := num % den
  if 2 * r > den || (2 * r == den && q % 2 == 1) then q + 1 else q

/-- The coefficient left when the last `digits` digits are rounded away. -/
def roundAway (coefficient : Int) (digits : Nat) : Int :=
  coefficient.sign * (roundHalfEven coefficient.natAbs (pow10 digits) : Nat)

/-- The decimal nearest to `coefficient / 10 ^ scale` with as many digits as fit. -/
def fit? (coefficient : Int) (scale : Nat) : Option Decimal :=
  (List.range (scale + 1)).findSome? fun digits =>
    ofParts? (roundAway coefficient digits) (scale - digits)

/-! ### Sums and products -/

/-- The sum, at the larger of the two scales. Adding zero changes nothing, not even the scale. -/
def add? (a b : Decimal) : Option Decimal :=
  if b.isZero then some a
  else if a.isZero then some b
  else
    let scale := max a.scale b.scale
    fit? (a.coefficient * pow10 (scale - a.scale) + b.coefficient * pow10 (scale - b.scale)) scale

def sub? (a b : Decimal) : Option Decimal := a.add? (-b)

/-- The product, at the sum of the two scales. Zero times anything is the plain zero, and so is a
product of two coefficients of 32 bits that lies more than 47 digits behind the point. -/
def mul? (a b : Decimal) : Option Decimal :=
  if a.isZero || b.isZero then some zero
  else if a.scale + b.scale > 47 && a.coefficient.natAbs < pow2 32 &&
      b.coefficient.natAbs < pow2 32 then
    some zero
  else fit? (a.coefficient * b.coefficient) (a.scale + b.scale)

/-! ### Quotients -/

/-- A magnitude and its scale, which may be negative while a quotient is being developed. -/
structure Magnitude where
  digits : Nat
  scale : Int
deriving DecidableEq, Repr

namespace Magnitude

/-- Rounds away the last digit of a magnitude that outgrew the bound. `sticky` says that it was
itself cut short, so that a half is more than a half. -/
def shorten? (m : Magnitude) (sticky : Bool) : Option Magnitude :=
  if m.scale ≤ 0 then none
  else
    let q := m.digits / 10
    let r := m.digits % 10
    let up := r > 5 || (r == 5 && (sticky || q % 2 == 1))
    some { digits := if up then q + 1 else q, scale := m.scale - 1 }

/-- How many digits the next step of a division may add: at most nine, within 28 places and the
bound. -/
def room (m : Magnitude) : Nat :=
  ((List.range 10).reverse.find? fun (k : Nat) =>
    m.scale + (k : Int) ≤ 28 && m.digits * pow10 k < pow2 96).getD 0

/-- Takes `n` zeros off the end, if they are there. Coefficients that are not divisible by `unit`
are not tried. -/
def stripOnce (n unit : Nat) (m : Magnitude) : Magnitude :=
  if m.scale ≥ n && m.digits % unit == 0 && m.digits % pow10 n == 0 then
    { digits := m.digits / pow10 n, scale := m.scale - n }
  else m

/-- Takes zeros off the end in steps of eight, four, two and one digits. -/
def strip (m : Magnitude) : Magnitude :=
  let eight := stripOnce 8 (pow2 32)
  (eight (eight (eight m))) |> stripOnce 4 16 |> stripOnce 2 4 |> stripOnce 1 2

end Magnitude

/-- Develops a quotient, `remainder` of `divisor` being still to divide, until it is exact or has
no room for more digits. -/
def develop (divisor remainder : Nat) (m : Magnitude) : Option Magnitude :=
  if remainder = 0 then
    if 0 ≤ m.scale then some m
    else
      let k := min 9 (-m.scale).toNat
      if m.digits * pow10 k < pow2 96 then
        develop divisor 0 { digits := m.digits * pow10 k, scale := m.scale + k }
      else none
  else
    let k := m.room
    if k < 9 && m.scale + k < 0 then none
    else if 0 < k ∧ m.scale + k ≤ 28 then
      let rest := remainder * pow10 k
      let next : Magnitude :=
        { digits := m.digits * pow10 k + rest / divisor, scale := m.scale + k }
      if next.digits < pow2 96 then develop divisor (rest % divisor) next
      else next.shorten? (rest % divisor != 0)
    else
      let up := 2 * remainder > divisor || (2 * remainder == divisor && m.digits % 2 == 1)
      let rounded := { m with digits := if up then m.digits + 1 else m.digits }
      if rounded.digits < pow2 96 then some rounded else rounded.shorten? true
termination_by (28 - m.scale).toNat
decreasing_by all_goals omega

/-- The quotient. An exact one keeps the difference of the scales where it can; one that needed
further digits has as many as fit, less the zeros at its end. -/
def div? (a b : Decimal) : Option Decimal :=
  if b.isZero then none
  else if a.isZero then some zero
  else do
    let num := a.coefficient.natAbs
    let den := b.coefficient.natAbs
    let start : Magnitude := { digits := num / den, scale := (a.scale : Int) - b.scale }
    let m ← develop den (num % den) start
    let m := if num % den == 0 then m else m.strip
    if m.scale < 0 then none
    else ofParts? (a.coefficient.sign * b.coefficient.sign * m.digits) m.scale.toNat

/-! ### Zeros at the end -/

/-- A coefficient and scale without the zeros at the end of the fraction. -/
def stripFraction (coefficient : Int) : Nat → Int × Nat
  | 0 => (coefficient, 0)
  | scale + 1 =>
    if coefficient % 10 = 0 then stripFraction (coefficient / 10) scale
    else (coefficient, scale + 1)

theorem stripFraction_le (c : Int) (s : Nat) :
    (stripFraction c s).1.natAbs ≤ c.natAbs ∧ (stripFraction c s).2 ≤ s := by
  induction s generalizing c with
  | zero => simp [stripFraction]
  | succ s ih =>
    unfold stripFraction
    split
    · have h := ih (c / 10)
      exact ⟨by omega, by omega⟩
    · exact ⟨by simp, by simp⟩

/-- The same amount without zeros at the end of its fraction. -/
def plain (a : Decimal) : Decimal :=
  { coefficient := (stripFraction a.coefficient a.scale).1
    scale := (stripFraction a.coefficient a.scale).2
    coefficient_lt :=
      Nat.lt_of_le_of_lt (stripFraction_le a.coefficient a.scale).1 a.coefficient_lt
    scale_le := Nat.le_trans (stripFraction_le a.coefficient a.scale).2 a.scale_le }

end Decimal

end TradingDesk

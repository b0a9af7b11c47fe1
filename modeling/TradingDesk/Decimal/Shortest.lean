import TradingDesk.Power
/-!
# Shortest decimals of binary floats

A finite float stands for an interval of reals, those that round to it. The shortest decimal in
that interval, and of the shortest ones the nearest to the float's value, identifies the float.
The search is exact: it compares natural numbers only.
-/

namespace TradingDesk.Shortest

/-- A nonnegative finite float `mantissa * 2 ^ exponent`. `narrow` says that the gap to the value
below is half the gap to the value above. -/
structure Binary where
  mantissa : Nat
  exponent : Int
  narrow : Bool
deriving DecidableEq, Repr

def Binary.ofBits (bits : UInt64) : Binary :=
  let e := ((bits >>> 52) &&& 0x7FF).toNat
  let f := (bits &&& 0xFFFFFFFFFFFFF).toNat
  if e == 0 then { mantissa := f, exponent := -1074, narrow := false }
  else { mantissa := pow2 52 + f, exponent := (e : Int) - 1075, narrow := f == 0 && e > 1 }

/-- The decimal `digits * 10 ^ exponent`. -/
structure Tens where
  digits : Nat
  exponent : Int
deriving DecidableEq, Repr

def compareScaled (a : Nat) (i : Int) (n : Nat) (j : Int) : Ordering :=
  compare (a * pow10 i.toNat * pow2 (-j).toNat) (n * pow2 j.toNat * pow10 (-i).toNat)

/-- Whether a decimal lies among the reals that round to the float. The ends of the interval belong
to it exactly when the mantissa is even. -/
def Binary.holds (x : Binary) (d : Tens) : Bool :=
  let low := if x.narrow then 4 * x.mantissa - 1 else 4 * x.mantissa - 2
  let high := 4 * x.mantissa + 2
  let closed := x.mantissa % 2 == 0
  let atLow := compareScaled d.digits d.exponent low (x.exponent - 2)
  let atHigh := compareScaled d.digits d.exponent high (x.exponent - 2)
  (atLow == .gt || (closed && atLow == .eq)) && (atHigh == .lt || (closed && atHigh == .eq))

/-- The value divided by `10 ^ grid`, rounded down. -/
def Binary.floorOn (x : Binary) (grid : Int) : Nat :=
  (x.mantissa * pow2 x.exponent.toNat * pow10 (-grid).toNat) /
    (pow2 (-x.exponent).toNat * pow10 grid.toNat)

/-- The point of the grid that identifies the float: of its two neighbours on the grid the one
inside the interval, and of two such the nearer, the upper one on a tie. -/
def Binary.onGrid? (x : Binary) (grid : Int) : Option Tens :=
  let below : Tens := { digits := x.floorOn grid, exponent := grid }
  let above : Tens := { below with digits := below.digits + 1 }
  match x.holds below, x.holds above with
  | true, true =>
    -- the value lies below the middle of the two neighbours
    if compareScaled (below.digits + above.digits) grid x.mantissa (x.exponent + 1) == .gt then
      some below
    else some above
  | true, false => some below
  | false, true => some above
  | false, false => none

/-- The least `k` with a value below `10 ^ k`. -/
def Binary.magnitude (x : Binary) : Int :=
  let bits : Int := x.exponent + x.mantissa.log2
  let guess := bits * 30103 / 100000 - 1
  (((List.range 6).map fun (i : Nat) => guess + (i : Int)).find? fun k =>
    compareScaled 1 k x.mantissa x.exponent == .gt).getD (guess + 6)

/-- Takes the zeros off the end of the digits; a number has no more of them than `fuel` digits. -/
def dropZeros : (fuel : Nat) → Tens → Tens
  | 0, d => d
  | fuel + 1, d =>
    if d.digits ≠ 0 ∧ d.digits % 10 = 0 then
      dropZeros fuel { digits := d.digits / 10, exponent := d.exponent + 1 }
    else d

/-- The shortest decimal that identifies the float; zero has the digit zero. -/
def Binary.toTens (x : Binary) : Tens :=
  if x.mantissa = 0 then { digits := 0, exponent := 0 }
  else
    let k := x.magnitude
    let found := (List.range 17).findSome? fun n => x.onGrid? (k - (n + 1 : Nat))
    let exact : Tens :=
      { digits := x.mantissa * pow2 x.exponent.toNat * Nat.pow 5 (-x.exponent).toNat,
        exponent := min x.exponent 0 }
    dropZeros 400 (found.getD exact)

/-- The digits of a finite float, its sign set apart; `true` is minus. -/
def ofFloat (x : Float) : Bool × Tens :=
  (x.toBits >>> 63 == 1, (Binary.ofBits x.toBits).toTens)

def Tens.plain (d : Tens) : List Char :=
  let ds := Nat.toDigits 10 d.digits
  if 0 ≤ d.exponent then ds ++ List.replicate (if d.digits = 0 then 0 else d.exponent.toNat) '0'
  else
    let places := (-d.exponent).toNat
    let ds := List.replicate (places + 1 - ds.length) '0' ++ ds
    ds.take (ds.length - places) ++ '.' :: ds.drop (ds.length - places)

/-- The text of a float: the fewest digits that identify it, without exponent. -/
def floatText (x : Float) : String :=
  if x.isNaN then "NaN"
  else
    let (minus, d) := ofFloat x
    let body := if x.isInf then "inf".toList else d.plain
    String.ofList (if minus then '-' :: body else body)

end TradingDesk.Shortest

import TradingDesk.Instant
import TradingDesk.Text.Blank
/-!
# The text of an instant

An instant is written in UTC with as many fraction digits as it needs, in groups of three. It is
read with any offset, blanks being allowed around the numbers, and a fraction is cut to nanoseconds.
-/

namespace TradingDesk.Instant

open Text (skipBlanks)

/-! ### Writing -/

def padded (width n : Nat) : List Char :=
  let ds := Nat.toDigits 10 n
  List.replicate (width - ds.length) '0' ++ ds

def yearChars (year : Int) : List Char :=
  if 0 ≤ year ∧ year ≤ 9999 then padded 4 year.toNat
  else (if year < 0 then '-' else '+') :: padded 4 year.natAbs

def fractionChars (nanos : Nat) : List Char :=
  if nanos = 0 then []
  else if nanos % 1000000 = 0 then '.' :: padded 3 (nanos / 1000000)
  else if nanos % 1000 = 0 then '.' :: padded 6 (nanos / 1000)
  else '.' :: padded 9 nanos

def chars (t : Instant) : List Char :=
  let date := Date.ofDays (t.seconds / 86400)
  let time := (t.seconds % 86400).toNat
  let leap := t.nanos / 1000000000
  yearChars date.year ++ '-' :: padded 2 date.month ++ '-' :: padded 2 date.day ++
    'T' :: padded 2 (time / 3600) ++ ':' :: padded 2 (time / 60 % 60) ++
    ':' :: padded 2 (time % 60 + leap) ++ fractionChars (t.nanos % 1000000000) ++ ['Z']

def toText (t : Instant) : String := String.ofList t.chars

/-! ### Reading -/

def digit? (c : Char) : Option Nat :=
  if '0' ≤ c ∧ c ≤ '9' then some (c.toNat - '0'.toNat) else none

def readDigits (n : Nat) : (width : Nat) → List Char → Nat × List Char
  | width + 1, c :: cs =>
    match digit? c with
    | some d => readDigits (n * 10 + d) width cs
    | none => (n, c :: cs)
  | _, cs => (n, cs)

/-- Reads a number of one to `width` digits. -/
def readNumber? (width : Nat) (cs : List Char) : Option (Nat × List Char) :=
  match cs with
  | c :: _ => if (digit? c).isSome then some (readDigits 0 width cs) else none
  | [] => none

/-- Reads a number after blanks that must lie between the bounds. -/
def readField? (low high : Nat) (cs : List Char) : Option (Nat × List Char) := do
  let (n, cs) ← readNumber? 2 (skipBlanks cs)
  if low ≤ n ∧ n ≤ high then some (n, cs) else none

/-- Reads a year of up to four digits, or a signed one of any length. -/
def readYear? (cs : List Char) : Option (Int × List Char) :=
  match skipBlanks cs with
  | '-' :: cs => (readNumber? cs.length cs).map fun (n, cs) => (-(n : Int), cs)
  | '+' :: cs => (readNumber? cs.length cs).map fun (n, cs) => ((n : Int), cs)
  | cs => (readNumber? 4 cs).map fun (n, cs) => ((n : Int), cs)

def expect? (c : Char) (cs : List Char) : Option (List Char) :=
  match cs with
  | d :: rest => if c = d then some rest else none
  | [] => none

/-- Reads the digits after a point as nanoseconds; further digits are passed over. -/
def readFraction? (cs : List Char) : Option (Nat × List Char) :=
  match cs with
  | '.' :: rest => do
    let (n, after) ← readNumber? 9 rest
    let count := rest.length - after.length
    some (n * pow10 (9 - count), after.dropWhile fun c => (digit? c).isSome)
  | _ => some (0, cs)

def readOffset? (cs : List Char) : Option (Int × List Char) :=
  match cs with
  | a :: b :: c :: rest =>
    if a.toLower = 'u' ∧ b.toLower = 't' ∧ c.toLower = 'c' then some (0, rest) else signed? cs
  | _ => signed? cs
where
  signed? : List Char → Option (Int × List Char)
    | 'Z' :: rest => some (0, rest)
    | 'z' :: rest => some (0, rest)
    | '+' :: rest => hours? 1 rest
    | '-' :: rest => hours? (-1) rest
    | '−' :: rest => hours? (-1) rest
    | _ => none
  hours? (sign : Int) : List Char → Option (Int × List Char)
    | h1 :: h2 :: rest => do
      let h1 ← digit? h1
      let h2 ← digit? h2
      match rest.dropWhile fun c => c == ':' || Text.isBlank c with
      | m1 :: m2 :: rest =>
        let m1 ← digit? m1
        let m2 ← digit? m2
        if m1 ≤ 5 then
          let offset := (h1 * 10 + h2) * 3600 + (m1 * 10 + m2) * 60
          if offset < 86400 then some (sign * offset, rest) else none
        else none
      | _ => none
    | _ => none

def ofChars? (cs : List Char) : Option Instant := do
  let (year, cs) ← readYear? cs
  let cs ← expect? '-' (skipBlanks cs)
  let (month, cs) ← readField? 1 12 cs
  let cs ← expect? '-' (skipBlanks cs)
  let (day, cs) ← readField? 1 31 cs
  let cs ← match cs with
    | c :: rest => if c = 't' ∨ c = 'T' ∨ c = ' ' then some rest else none
    | [] => none
  let (hour, cs) ← readField? 0 23 cs
  let cs ← expect? ':' (skipBlanks cs)
  let (minute, cs) ← readField? 0 59 cs
  let cs ← expect? ':' (skipBlanks cs)
  let (second, cs) ← readField? 0 60 cs
  let (nanos, cs) ← readFraction? cs
  let (offset, cs) ← readOffset? (skipBlanks cs)
  let date : Date := { year, month, day }
  if (skipBlanks cs).isEmpty ∧ date.isValid then
    let leap := second / 60
    let seconds := date.toDays * 86400 + hour * 3600 + minute * 60 + (second - leap : Nat) - offset
    let day := Date.ofDays (seconds / 86400)
    if firstYear ≤ day.year ∧ day.year ≤ lastYear then
      some { seconds, nanos := nanos + leap * 1000000000 }
    else none
  else none

def ofText? (s : String) : Option Instant := ofChars? s.toList

end TradingDesk.Instant

import TradingDesk.Json.Basic
import TradingDesk.Power
/-!
# Reading JSON

The reader takes the whole text or nothing. Nesting is not limited here: `Json.readGeneric?` limits
it, and a typed reader limits only what it looks at.
-/

namespace TradingDesk.Json

def isBlank (c : Char) : Bool := c == ' ' || c == '\n' || c == '\t' || c == '\r'

def skipBlanks (cs : List Char) : List Char := cs.dropWhile isBlank

def digit? (c : Char) : Option Nat :=
  if '0' ≤ c ∧ c ≤ '9' then some (c.toNat - '0'.toNat) else none

def isDigit (c : Char) : Bool := (digit? c).isSome

def hexValue? (c : Char) : Option Nat :=
  if '0' ≤ c ∧ c ≤ '9' then some (c.toNat - '0'.toNat)
  else if 'a' ≤ c ∧ c ≤ 'f' then some (c.toNat - 'a'.toNat + 10)
  else if 'A' ≤ c ∧ c ≤ 'F' then some (c.toNat - 'A'.toNat + 10)
  else none

/-! ### Numbers -/

/-- The largest unsigned integer of 64 bits. -/
def maxUnsigned : Nat := pow2 64 - 1

/-- The float `digits * 10 ^ exponent` in one multiplication or division, after divisions by
`10 ^ 308` while the exponent is below that. A value beyond the range of floats is none. -/
def scale? (digits : Nat) (exponent : Int) : Option Float :=
  let rec go : (fuel : Nat) → Float → Int → Option Float
    | 0, _, _ => some 0.0
    | fuel + 1, x, e =>
      if e.natAbs ≤ 308 then
        let power := Float.ofScientific 1 false e.natAbs
        if 0 ≤ e then
          let y := x * power
          if y.isInf then none else some y
        else some (x / power)
      else if x == 0.0 then some x
      else if 0 ≤ e then none
      else go fuel (x / Float.ofScientific 1 false 308) (e + 308)
  go 8 (Float.ofNat digits) exponent

/-- Reads digits onto `n` while the result stays below 2^64; answers the number, how many digits
went into it, and the rest, which starts with a digit only if that did not fit. -/
def readUpTo : (n count : Nat) → List Char → Nat × Nat × List Char
  | n, count, [] => (n, count, [])
  | n, count, c :: cs =>
    match digit? c with
    | some d =>
      if n * 10 + d ≤ maxUnsigned then readUpTo (n * 10 + d) (count + 1) cs
      else (n, count, c :: cs)
    | none => (n, count, c :: cs)

/-- A number that was recognised: in range, or out of the range of floats. -/
abbrev Scanned := Option Number

def readPower? (minus : Bool) (digits : Nat) (exponent : Int) (cs : List Char) :
    Option (Scanned × List Char) :=
  let finish (x : Option Float) : Scanned :=
    x.map fun x => Number.float (if minus then -x else x)
  match cs with
  | c :: rest =>
    if c = 'e' ∨ c = 'E' then
      let (down, rest) := match rest with
        | '+' :: r => (false, r)
        | '-' :: r => (true, r)
        | r => (false, r)
      let ds := rest.takeWhile isDigit
      let rest := rest.dropWhile isDigit
      if ds.isEmpty then none
      else
        let power := ds.foldl (fun n c => n * 10 + (digit? c).getD 0) 0
        if power > pow2 31 - 1 then
          some (if digits ≠ 0 ∧ ¬ down then none else finish (some 0.0), rest)
        else
          some (finish (scale? digits (if down then exponent - power else exponent + power)), rest)
    else some (finish (scale? digits exponent), cs)
  | [] => some (finish (scale? digits exponent), cs)

/-- Continues after the integer part: a fraction, an exponent, or the end. -/
def readFraction? (minus : Bool) (digits : Nat) (exponent : Int) (cs : List Char) :
    Option (Scanned × List Char) :=
  match cs with
  | '.' :: rest =>
    let (digits', count, rest') := readUpTo digits 0 rest
    let excess := rest'.takeWhile isDigit
    if count = 0 ∧ excess.isEmpty then none
    else readPower? minus digits' (exponent - count) (rest'.dropWhile isDigit)
  | _ => readPower? minus digits exponent cs

def continuesFloat : List Char → Bool
  | c :: _ => c == '.' || c == 'e' || c == 'E'
  | [] => false

def readNumber? (minus : Bool) (cs : List Char) : Option (Scanned × List Char) :=
  match cs with
  | '0' :: rest =>
    match rest with
    | c :: _ =>
      if isDigit c then none
      else if continuesFloat rest then readFraction? minus 0 0 rest
      else some (some (if minus then .float (-0.0) else .int 0), rest)
    | [] => some (some (if minus then .float (-0.0) else .int 0), rest)
  | c :: _ =>
    if !isDigit c then none
    else
      let (n, _, rest) := readUpTo 0 0 cs
      let excess := rest.takeWhile isDigit
      if !excess.isEmpty then readFraction? minus n excess.length (rest.dropWhile isDigit)
      else if continuesFloat rest then readFraction? minus n 0 rest
      else if !minus then some (some (.int n), rest)
      else if n ≤ pow2 63 then some (some (.int (-(n : Int))), rest)
      else some (some (.float (-(Float.ofNat n))), rest)
  | [] => none

/-! ### Strings -/

def readHex4? : List Char → Option (Nat × List Char)
  | a :: b :: c :: d :: rest => do
    let a ← hexValue? a
    let b ← hexValue? b
    let c ← hexValue? c
    let d ← hexValue? d
    pure (a * 4096 + b * 256 + c * 16 + d, rest)
  | _ => none

def unescape? : Char → Option Char
  | '"' => some '"'
  | '\\' => some '\\'
  | '/' => some '/'
  | 'b' => some '\x08'
  | 'f' => some '\x0c'
  | 'n' => some '\n'
  | 'r' => some '\r'
  | 't' => some '\t'
  | _ => none

/-- Reads the rest of a string, its opening quote taken off. Half a surrogate pair spoils the string
(`sound` is false) and does not end it. -/
def readString? : (fuel : Nat) → List Char → (acc : List Char) → (sound : Bool) →
    Option (Option String × List Char)
  | 0, _, _, _ => none
  | fuel + 1, cs, acc, sound =>
    match cs with
    | '"' :: rest => some (if sound then some (String.ofList acc.reverse) else none, rest)
    | '\\' :: 'u' :: rest =>
      match readHex4? rest with
      | none => none
      | some (hi, rest) =>
        if 0xD800 ≤ hi ∧ hi < 0xDC00 then
          match rest with
          | '\\' :: 'u' :: rest' =>
            match readHex4? rest' with
            | some (lo, rest'') =>
              if 0xDC00 ≤ lo ∧ lo < 0xE000 then
                let c := Char.ofNat (0x10000 + (hi - 0xD800) * 0x400 + (lo - 0xDC00))
                readString? fuel rest'' (c :: acc) sound
              else readString? fuel rest acc false
            | none => none
          | _ => readString? fuel rest acc false
        else if 0xDC00 ≤ hi ∧ hi < 0xE000 then readString? fuel rest acc false
        else readString? fuel rest (Char.ofNat hi :: acc) sound
    | '\\' :: c :: rest =>
      match unescape? c with
      | some c => readString? fuel rest (c :: acc) sound
      | none => none
    | c :: rest => if c.toNat < 0x20 then none else readString? fuel rest (c :: acc) sound
    | [] => none

/-! ### Values -/

/-- The members of an object, none if one of the keys cannot be read. -/
def objectOf (members : List (Option String × Json)) : Json :=
  match members.mapM fun (k, v) => k.map (·, v) with
  | some members => .obj members
  | none => .unreadable

mutual

def readValue? : (fuel : Nat) → List Char → Option (Json × List Char)
  | 0, _ => none
  | fuel + 1, cs =>
    match cs with
    | 'n' :: 'u' :: 'l' :: 'l' :: rest => some (.null, rest)
    | 't' :: 'r' :: 'u' :: 'e' :: rest => some (.bool true, rest)
    | 'f' :: 'a' :: 'l' :: 's' :: 'e' :: rest => some (.bool false, rest)
    | '"' :: rest =>
      (readString? (rest.length + 1) rest [] true).map fun (s, rest) =>
        ((s.map Json.str).getD .unreadable, rest)
    | '[' :: rest =>
      match skipBlanks rest with
      | ']' :: rest => some (.arr [], rest)
      | rest => (readItems? fuel rest).map fun (items, rest) => (.arr items, rest)
    | '\x7b' :: rest =>
      match skipBlanks rest with
      | '\x7d' :: rest => some (.obj [], rest)
      | rest => (readMembers? fuel rest).map fun (members, rest) => (objectOf members, rest)
    | '-' :: rest =>
      (readNumber? true rest).map fun (n, rest) => ((n.map Json.num).getD .unreadable, rest)
    | _ =>
      (readNumber? false cs).map fun (n, rest) => ((n.map Json.num).getD .unreadable, rest)

def readItems? : (fuel : Nat) → List Char → Option (List Json × List Char)
  | 0, _ => none
  | fuel + 1, cs =>
    match readValue? fuel cs with
    | none => none
    | some (v, rest) =>
      match skipBlanks rest with
      | ',' :: rest =>
        match readItems? fuel (skipBlanks rest) with
        | none => none
        | some (vs, rest) => some (v :: vs, rest)
      | ']' :: rest => some ([v], rest)
      | _ => none

def readMembers? : (fuel : Nat) → List Char → Option (List (Option String × Json) × List Char)
  | 0, _ => none
  | fuel + 1, cs =>
    match cs with
    | '"' :: rest =>
      match readString? (rest.length + 1) rest [] true with
      | none => none
      | some (k, rest) =>
        match skipBlanks rest with
        | ':' :: rest =>
          match readValue? fuel (skipBlanks rest) with
          | none => none
          | some (v, rest) =>
            match skipBlanks rest with
            | ',' :: rest =>
              match readMembers? fuel (skipBlanks rest) with
              | none => none
              | some (ms, rest) => some ((k, v) :: ms, rest)
            | '\x7d' :: rest => some ([(k, v)], rest)
            | _ => none
        | _ => none
    | _ => none

end

/-- Reads a text that holds one document and blanks around it. -/
def readChars? (cs : List Char) : Option Json :=
  match readValue? (cs.length + 1) (skipBlanks cs) with
  | some (v, rest) => if (skipBlanks rest).isEmpty then some v else none
  | none => none

def read? (text : String) : Option Json := readChars? text.toList

def readGeneric? (text : String) : Option Json := do
  let v ← read? text
  if v.depth ≤ maxDepth then v.settle? else none

end TradingDesk.Json

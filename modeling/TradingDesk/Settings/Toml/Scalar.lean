import TradingDesk.Instant
import TradingDesk.Settings.Value
/-!
# Texts, numbers and times in TOML

Each reader takes one item off the front of a text. Control characters stand nowhere, a tab and
line ends apart; digits may be grouped by single underscores; a date or a time is kept as its text,
written in one way.
-/

namespace TradingDesk.Settings.Toml

abbrev Reader (α : Type) := List Char → Option (α × List Char)

def isSpace (c : Char) : Bool := c == ' ' || c == '\t'

def skipSpaces (cs : List Char) : List Char := cs.dropWhile isSpace

def isLineChar (c : Char) : Bool := c == '\t' || (0x20 ≤ c.toNat && c.toNat != 0x7F)

def expect? (c : Char) : List Char → Option (List Char)
  | d :: cs => if d = c then some cs else none
  | [] => none

/-! ### Texts -/

def unescape? : Char → Option Char
  | '"' => some '"'
  | '\\' => some '\\'
  | 'b' => some '\x08'
  | 'f' => some '\x0c'
  | 'n' => some '\n'
  | 'r' => some '\r'
  | 't' => some '\t'
  | _ => none

/-- Takes a character off that is given by `width` hexadecimal digits. -/
def readCode? (width : Nat) : Reader Char := fun cs =>
  let digits := cs.take width
  let n := Text.digitsValue 16 digits
  if digits.length = width ∧ digits.all (Text.isDigit 16) ∧ n.isValidChar then
    some (Char.ofNat n, cs.drop width)
  else none

/-- Takes an escape off, its backslash being off already. -/
def readEscape? : Reader Char
  | 'u' :: cs => readCode? 4 cs
  | 'U' :: cs => readCode? 8 cs
  | c :: cs => (unescape? c).map (·, cs)
  | [] => none

def skipGap : List Char → List Char
  | '\r' :: '\n' :: cs => skipGap cs
  | c :: cs => if isSpace c || c == '\n' then skipGap cs else c :: cs
  | [] => []

/-- What follows a backslash that ends a line: the next character that is no blank. -/
def skipLineJoin? (cs : List Char) : Option (List Char) :=
  match skipSpaces cs with
  | '\n' :: cs => some (skipGap cs)
  | '\r' :: '\n' :: cs => some (skipGap cs)
  | _ => none

def readLine? (quote : Char) (escapes : Bool) : (fuel : Nat) → (acc : List Char) → Reader String
  | 0, _, _ => none
  | _, _, [] => none
  | fuel + 1, acc, c :: cs =>
    if c = quote then some (String.ofList acc.reverse, cs)
    else if escapes ∧ c = '\\' then do
      let (d, cs) ← readEscape? cs
      readLine? quote escapes fuel (d :: acc) cs
    else if isLineChar c then readLine? quote escapes fuel (c :: acc) cs
    else none

/-- How many quotes end a text of several lines here: the three that close it, and up to two that
belong to it. -/
def closing? (quote : Char) (cs : List Char) : Option Nat :=
  let n := ((cs.take 5).takeWhile (· == quote)).length
  if 3 ≤ n then some n else none

/-- Reads a text of several lines up to its closing quotes. -/
def readBlock? (quote : Char) (escapes : Bool) : (fuel : Nat) → (acc : List Char) → Reader String
  | 0, _, _ => none
  | _, _, [] => none
  | fuel + 1, acc, c :: cs =>
    match closing? quote (c :: cs) with
    | some n =>
      some (String.ofList (List.replicate (n - 3) quote ++ acc).reverse, (c :: cs).drop n)
    | none =>
      if escapes ∧ c = '\\' then
        match skipLineJoin? cs with
        | some cs => readBlock? quote escapes fuel acc cs
        | none => do
          let (d, cs) ← readEscape? cs
          readBlock? quote escapes fuel (d :: acc) cs
      else if c = '\r' then do
        let cs ← expect? '\n' cs
        readBlock? quote escapes fuel ('\n' :: acc) cs
      else if c = '\n' ∨ isLineChar c then readBlock? quote escapes fuel (c :: acc) cs
      else none

/-- A quote that opens a text; only double quotes admit escapes. -/
def isQuote (c : Char) : Bool := c == '"' || c == '\''

/-- Reads a text of one line, its opening quote included. -/
def readQuoted? : Reader String
  | c :: cs => if isQuote c then readLine? c (c == '"') (cs.length + 1) [] cs else none
  | [] => none

def readText? (cs : List Char) : Option (String × List Char) :=
  match cs with
  | a :: b :: c :: rest =>
    if isQuote a ∧ a = b ∧ b = c then
      let rest := match rest with
        | '\n' :: rest => rest
        | '\r' :: '\n' :: rest => rest
        | rest => rest
      readBlock? a (a == '"') (rest.length + 1) [] rest
    else readQuoted? cs
  | _ => readQuoted? cs

/-! ### Numbers -/

/-- Digits with single underscores between them. -/
def moreDigits (base : Nat) : List Char → List Char × List Char
  | '_' :: d :: cs =>
    if Text.isDigit base d then
      let (ds, rest) := moreDigits base cs
      (d :: ds, rest)
    else ([], '_' :: d :: cs)
  | c :: cs =>
    if Text.isDigit base c then
      let (ds, rest) := moreDigits base cs
      (c :: ds, rest)
    else ([], c :: cs)
  | [] => ([], [])

def readDigits? (base : Nat) : Reader (List Char)
  | c :: cs =>
    if Text.isDigit base c then
      let (ds, rest) := moreDigits base cs
      some (c :: ds, rest)
    else none
  | [] => none

/-- A number of 64 bits that is written in the base of its sign letter. -/
def readBased? (base : Nat) (cs : List Char) : Option (Value × List Char) := do
  let (ds, rest) ← readDigits? base cs
  let n := Text.digitsValue base ds
  if n < pow2 63 then some (.int n, rest) else none

def readFraction? : Reader (Option (List Char))
  | '.' :: cs => (readDigits? 10 cs).map fun (ds, rest) => (some ds, rest)
  | cs => some (none, cs)

def readExponent? (cs : List Char) : Option (Option Int × List Char) :=
  match cs with
  | c :: rest =>
    if c = 'e' ∨ c = 'E' then do
      let (minus, rest) := Text.splitSign rest
      let (ds, rest) ← readDigits? 10 rest
      let n : Int := Text.digitsValue 10 ds
      pure (some (if minus then -n else n), rest)
    else some (none, cs)
  | [] => some (none, [])

/-- A number in decimal digits, without needless zeros in front: a whole number of 64 bits, or a
float that does not pass the largest one. -/
def readDecimal? (minus : Bool) (cs : List Char) : Option (Value × List Char) := do
  let (whole, rest) ← readDigits? 10 cs
  if whole.length ≠ 1 ∧ whole.head? = some '0' then none
  else
    let (fraction?, rest) ← readFraction? rest
    let (exponent?, rest) ← readExponent? rest
    if fraction?.isNone ∧ exponent?.isNone then
      let n : Int := Text.digitsValue 10 whole
      let z := if minus then -n else n
      if -(pow2 63) ≤ z ∧ z < pow2 63 then some (.int z, rest) else none
    else
      let fraction := fraction?.getD []
      let x := Text.nearest (Text.digitsValue 10 (whole ++ fraction))
        (exponent?.getD 0 - fraction.length)
      if x.isInf ∧ ¬ minus then none else some (.float (if minus then -x else x), rest)

def readNumber? (cs : List Char) : Option (Value × List Char) :=
  match cs with
  | '0' :: 'x' :: rest => readBased? 16 rest
  | '0' :: 'o' :: rest => readBased? 8 rest
  | '0' :: 'b' :: rest => readBased? 2 rest
  | _ =>
    let (minus, rest) := Text.splitSign cs
    let sign (x : Float) := if minus then -x else x
    match rest with
    | 'i' :: 'n' :: 'f' :: rest => some (.float (sign (1.0 / 0.0)), rest)
    | 'n' :: 'a' :: 'n' :: rest => some (.float (sign (0.0 / 0.0)), rest)
    | _ => readDecimal? minus rest

/-! ### Times -/

/-- A number of exactly `width` digits, between two bounds. -/
def readField? (width low high : Nat) (cs : List Char) : Option (Nat × List Char) :=
  let ds := cs.take width
  let n := Text.digitsValue 10 ds
  if ds.length = width ∧ ds.all (Text.isDigit 10) ∧ low ≤ n ∧ n ≤ high then some (n, cs.drop width)
  else none

def padded (width n : Nat) : String :=
  let ds := Nat.toDigits 10 n
  String.ofList (List.replicate (width - ds.length) '0' ++ ds)

def readDate? (cs : List Char) : Option (String × List Char) := do
  let (year, cs) ← readField? 4 0 9999 cs
  let (month, cs) ← readField? 2 1 12 (← expect? '-' cs)
  let (day, cs) ← readField? 2 1 (Instant.daysInMonth year month) (← expect? '-' cs)
  pure (padded 4 year ++ "-" ++ padded 2 month ++ "-" ++ padded 2 day, cs)

/-- The fraction of a second, cut after nine places, without zeros at its end. -/
def fractionText (ds : List Char) : String :=
  let ds := ((ds.take 9).reverse.dropWhile (· == '0')).reverse
  if ds.isEmpty then "" else String.ofList ('.' :: ds)

def readTime? (cs : List Char) : Option (String × List Char) := do
  let (hour, cs) ← readField? 2 0 23 cs
  let (minute, cs) ← readField? 2 0 59 (← expect? ':' cs)
  let (second, cs) ← readField? 2 0 60 (← expect? ':' cs)
  let text := padded 2 hour ++ ":" ++ padded 2 minute ++ ":" ++ padded 2 second
  match cs with
  | '.' :: d :: rest =>
    if Text.isDigit 10 d then
      let ds := d :: rest.takeWhile (Text.isDigit 10)
      some (text ++ fractionText ds, rest.dropWhile (Text.isDigit 10))
    else some (text, cs)
  | _ => some (text, cs)

def readOffset? (cs : List Char) : Option (String × List Char) :=
  match cs with
  | [] => some ("", [])
  | c :: rest =>
    if c = 'Z' ∨ c = 'z' then some ("Z", rest)
    else if c = '+' ∨ c = '-' then do
      let (hour, rest) ← readField? 2 0 23 rest
      let (minute, rest) ← readField? 2 0 59 (← expect? ':' rest)
      let sign := if c = '-' ∧ hour + minute ≠ 0 then "-" else "+"
      pure (sign ++ padded 2 hour ++ ":" ++ padded 2 minute, rest)
    else some ("", cs)

def readDayTime? (cs : List Char) : Option (String × List Char) :=
  match cs with
  | c :: rest =>
    if c = 'T' ∨ c = 't' ∨ c = ' ' then
      match readTime? rest with
      | some (time, rest) =>
        (readOffset? rest).map fun (offset, rest) => ("T" ++ time ++ offset, rest)
      | none => some ("", cs)
    else some ("", cs)
  | [] => some ("", [])

def readMoment? (cs : List Char) : Option (String × List Char) :=
  match readDate? cs with
  | some (date, rest) => (readDayTime? rest).map fun (time, rest) => (date ++ time, rest)
  | none => readTime? cs

end TradingDesk.Settings.Toml

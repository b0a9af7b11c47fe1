import TradingDesk.Settings.Toml.Scalar
import TradingDesk.Settings.Toml.Draft
/-!
# Reading TOML

A document is a sequence of lines: headers, and keys with values. A value of several items may run
over several lines; a table in braces may not.
-/

namespace TradingDesk.Settings.Toml

/-- How deep values and keys may be nested. -/
def maxDepth : Nat := 79

/-! ### Keys and line ends -/

def isBareKeyChar (c : Char) : Bool := c.isAlphanum || c == '_' || c == '-'

def readKey? (cs : List Char) : Option (String × List Char) :=
  match cs with
  | c :: _ =>
    if isQuote c then readQuoted? cs
    else
      let key := cs.takeWhile isBareKeyChar
      if key.isEmpty then none else some (String.ofList key, cs.dropWhile isBareKeyChar)
  | [] => none

/-- Keys with dots between them, and the spaces around them. -/
def readKeys? : (fuel : Nat) → Reader (List String × String)
  | 0, _ => none
  | fuel + 1, cs => do
    let (key, cs) ← readKey? (skipSpaces cs)
    match skipSpaces cs with
    | '.' :: cs =>
      let ((path, last), cs) ← readKeys? fuel cs
      pure ((key :: path, last), cs)
    | cs => pure (([], key), cs)

/-- The keys that lead to a value or a table, the last one set apart. -/
def readPath? (cs : List Char) : Option ((List String × String) × List Char) :=
  readKeys? maxDepth cs

/-- Drops spaces, comments and line ends; `comment` says that a comment is open. -/
def skipLines (comment : Bool) : List Char → List Char
  | [] => []
  | '\n' :: cs => skipLines false cs
  | '\r' :: '\n' :: cs => skipLines false cs
  | c :: cs =>
    if comment then (if isLineChar c then skipLines true cs else c :: cs)
    else if c = '#' then skipLines true cs
    else if isSpace c then skipLines false cs
    else c :: cs

def endLine? (cs : List Char) : Option (List Char) :=
  let rest := match skipSpaces cs with
    | '#' :: rest => rest.dropWhile isLineChar
    | rest => rest
  match rest with
  | [] => some []
  | '\n' :: rest => some rest
  | '\r' :: '\n' :: rest => some rest
  | _ => none

/-! ### Values -/

/-- A value that is neither a list nor a table. -/
def readScalar? (cs : List Char) : Option (Value × List Char) :=
  match cs with
  | 't' :: 'r' :: 'u' :: 'e' :: rest => some (.bool true, rest)
  | 'f' :: 'a' :: 'l' :: 's' :: 'e' :: rest => some (.bool false, rest)
  | c :: _ =>
    if isQuote c then (readText? cs).map fun (s, rest) => (.text s, rest)
    else
      match readMoment? cs with
      | some (s, rest) => some (.text s, rest)
      | none => readNumber? cs
  | [] => none

mutual

/-- Reads a value that may hold others, nested at most `room` deep. -/
def readValue? : (fuel room : Nat) → Reader Value
  | 0, _, _ => none
  | fuel + 1, room, cs =>
    match cs with
    | '[' :: rest => do
      if room = 0 then none
      else
        let (items, rest) ← readItems? fuel (room - 1) (skipLines false rest)
        pure (.list items, rest)
    | '\x7b' :: rest => do
      if room = 0 then none
      else
        let (pairs, rest) ←
          match skipSpaces rest with
          | '\x7d' :: rest => some ([], rest)
          | rest => readPairs? fuel (room - 1) rest
        let es ← Draft.addPairs? [] pairs
        pure (.table (Draft.finishEntries es), rest)
    | _ => readScalar? cs

/-- Reads the items of a list up to its bracket; a comma may stand behind the last one. -/
def readItems? : (fuel room : Nat) → Reader (List Value)
  | 0, _, _ => none
  | fuel + 1, room, cs =>
    match cs with
    | ']' :: rest => some ([], rest)
    | _ => do
      let (v, rest) ← readValue? fuel room cs
      match skipLines false rest with
      | ',' :: rest =>
        let (vs, rest) ← readItems? fuel room (skipLines false rest)
        pure (v :: vs, rest)
      | ']' :: rest => pure ([v], rest)
      | _ => none

def readPairs? : (fuel room : Nat) → Reader (List Draft.Pair)
  | 0, _, _ => none
  | fuel + 1, room, cs => do
    let ((path, key), rest) ← readPath? cs
    let rest ← expect? '=' rest
    let (value, rest) ← readValue? fuel room (skipSpaces rest)
    match skipSpaces rest with
    | ',' :: rest =>
      let (pairs, rest) ← readPairs? fuel room rest
      pure ({ path, key, value } :: pairs, rest)
    | '\x7d' :: rest => pure ([{ path, key, value }], rest)
    | _ => none

end

/-! ### Documents -/

inductive Line where
  | header (repeated : Bool) (path : List String) (key : String)
  | pair (p : Draft.Pair)

def readLineOf? (cs : List Char) : Option (Line × List Char) :=
  match cs with
  | '[' :: '[' :: rest => do
    let ((path, key), rest) ← readPath? rest
    let rest ← endLine? (← expect? ']' (← expect? ']' rest))
    pure (.header true path key, rest)
  | '[' :: rest => do
    let ((path, key), rest) ← readPath? rest
    let rest ← endLine? (← expect? ']' rest)
    pure (.header false path key, rest)
  | _ => do
    let ((path, key), rest) ← readPath? cs
    let rest ← expect? '=' rest
    let (value, rest) ← readValue? (rest.length + 1) maxDepth (skipSpaces rest)
    pure (.pair { path, key, value }, ← endLine? rest)

def readLines? : (fuel : Nat) → List Char → Option (List Line)
  | 0, _ => none
  | fuel + 1, cs =>
    match skipLines false cs with
    | [] => some []
    | cs => do
      let (line, rest) ← readLineOf? cs
      let lines ← readLines? fuel rest
      pure (line :: lines)

/-- The pairs in front of the first header, and the headers with what follows each. -/
def sections : List Line → List Draft.Pair × List Draft.Section
  | [] => ([], [])
  | .pair p :: lines =>
    let (pairs, rest) := sections lines
    (p :: pairs, rest)
  | .header repeated path key :: lines =>
    let (pairs, rest) := sections lines
    ([], { repeated, path, key, pairs } :: rest)

/-- The entries of a document; a byte order mark in front of it is passed over. -/
def read? (text : String) : Option (List (String × Value)) := do
  let cs := match text.toList with
    | '\uFEFF' :: cs => cs
    | cs => cs
  let (pairs, rest) := sections (← readLines? (cs.length + 1) cs)
  let es ← Draft.addPairs? [] pairs
  let es ← rest.foldlM Draft.addSection? es
  pure (Draft.finishEntries es)

end TradingDesk.Settings.Toml

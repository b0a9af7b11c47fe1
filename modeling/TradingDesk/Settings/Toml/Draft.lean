import TradingDesk.Settings.Value
/-!
# Tables under construction

The tables of a TOML document are filled as its lines are read. How a table came about decides what
may still be added to it: one with a header of its own gets no second header and nothing by dotted
keys from outside; one made by dotted keys gets no header; one that only lies on the way to another
table may still get its header.
-/

namespace TradingDesk.Settings.Toml

inductive Form where
  | headed
  | dotted
  | passed
deriving DecidableEq, Repr

inductive Draft where
  /-- A value to which nothing is added. -/
  | done (v : Value)
  | table (form : Form) (entries : List (String × Draft))
  /-- Tables that repeat one header. -/
  | tables (items : List (List (String × Draft)))

abbrev Entries := List (String × Draft)

namespace Draft

def setEntry (key : String) (d : Draft) : Entries → Entries
  | [] => [(key, d)]
  | (k, e) :: rest => if k = key then (key, d) :: rest else (k, e) :: setEntry key d rest

/-- Changes the entries of the table at the end of a path; missing tables are made in the form
`route`. A path of dotted keys ends in a table of dotted keys and enters no table with a header,
repeated ones apart. -/
def alter? (change : Entries → Option Entries) (route : Form) :
    List String → Entries → Option Entries
  | [], es => change es
  | key :: path, es =>
    match es.lookup key with
    | none => do
      let inner ← alter? change route path []
      pure (setEntry key (.table route inner) es)
    | some (.done _) => none
    | some (.table form inner) =>
      if route = .dotted ∧ (form = .headed ∨ (path.isEmpty ∧ form ≠ .dotted)) then none
      else do
        let inner ← alter? change route path inner
        pure (setEntry key (.table form inner) es)
    | some (.tables items) =>
      if route = .dotted ∧ path.isEmpty then none
      else do
        let inner ← alter? change route path (← items.getLast?)
        pure (setEntry key (.tables (items.dropLast ++ [inner])) es)

def add? (key : String) (v : Value) (es : Entries) : Option Entries :=
  if (es.lookup key).isSome then none else some (es ++ [(key, .done v)])

structure Pair where
  path : List String
  key : String
  value : Value

def addPair? (es : Entries) (p : Pair) : Option Entries :=
  alter? (add? p.key p.value) .dotted p.path es

def addPairs? (es : Entries) (pairs : List Pair) : Option Entries := pairs.foldlM addPair? es

structure Section where
  /-- Whether the header may be repeated, each time for a table of its own. -/
  repeated : Bool
  path : List String
  key : String
  pairs : List Pair

/-- Adds the table of a header to the tables that hold it. -/
def Section.open? (s : Section) (es : Entries) : Option Entries :=
  if s.repeated then
    match es.lookup s.key with
    | none => do
      let inner ← addPairs? [] s.pairs
      pure (setEntry s.key (.tables [inner]) es)
    | some (.tables items) => do
      let inner ← addPairs? [] s.pairs
      pure (setEntry s.key (.tables (items ++ [inner])) es)
    | some _ => none
  else
    match es.lookup s.key with
    | none => do
      let inner ← addPairs? [] s.pairs
      pure (setEntry s.key (.table .headed inner) es)
    | some (.table .passed inner) => do
      let inner ← addPairs? inner s.pairs
      pure (setEntry s.key (.table .headed inner) es)
    | some _ => none

def addSection? (es : Entries) (s : Section) : Option Entries := alter? s.open? .passed s.path es

mutual

def finish : Draft → Value
  | .done v => v
  | .table _ entries => .table (finishEntries entries)
  | .tables items => .list (finishTables items)

def finishEntries : Entries → List (String × Value)
  | [] => []
  | (k, d) :: rest => (k, finish d) :: finishEntries rest

def finishTables : List Entries → List Value
  | [] => []
  | es :: rest => .table (finishEntries es) :: finishTables rest

end

end Draft

end TradingDesk.Settings.Toml

import TradingDesk.Settings.Path
import TradingDesk.Settings.Toml.Document
import TradingDesk.Settings.Codec
/-!
# Settings from a file and the environment

A setting is looked for in the environment, then in the file; what neither gives has its default.
The variable of a setting is named by the path to it, its parts set apart by two underscores, with
`ALPHA` in front; the case of the name does not matter.

A variable's text is read as a flag or as a number if it can be. The reader of the settings turns
such a value back into a text where it wants one, in the value's usual form: `007` becomes `7`.
-/

namespace TradingDesk.Settings

def variableMark : List Char := "alpha__".toList

/-- Puts a dot for two underscores. -/
def dotted : List Char → List Char
  | '_' :: '_' :: cs => '.' :: dotted cs
  | c :: cs => c :: dotted cs
  | [] => []

def variableKey? (name : String) : Option String :=
  let cs := (Text.lower name).toList
  if variableMark.isPrefixOf cs then some (String.ofList (dotted (cs.drop variableMark.length)))
  else none

/-- The setting that may be given as texts with commas between them. -/
def listedKey : String := "stream.assets"

def variableValue (key text : String) : Value :=
  let word := Text.lower text
  if word = "true" then .bool true
  else if word = "false" then .bool false
  else match Text.integer? text with
    | some n => .int n
    | none => match Text.float? text with
      | some x => .float x
      | none =>
        if key = listedKey then .list ((text.splitOn ",").map .text)
        else .text text

/-- Lays the entry of a key, which may be a path, over other entries. -/
def layer (base : Value) (entry : String × Value) : Value :=
  Value.put entry.2 (Path.ofKey entry.1) base

/-- The entries that the variables of an environment stand for. -/
def variableEntries (environment : List (String × String)) : List (String × Value) :=
  environment.filterMap fun (name, text) =>
    (variableKey? name).map fun key => (key, variableValue key text)

/-- Loads settings from the text of a file, if there is one, and from an environment; they have to
keep the rules. -/
def load (file : Option String) (environment : List (String × String)) : Except Fault Settings := do
  let entries ← match file with
    | none => pure []
    | some text => match Toml.read? text with
      | some entries => pure entries
      | none => throw Fault.settings
  let given := (entries ++ variableEntries environment).foldl layer (.table [])
  match read? given with
  | none => throw Fault.settings
  | some c =>
    c.validate
    pure c

def ofToml (text : String) : Except Fault Settings := load (some text) []

end TradingDesk.Settings

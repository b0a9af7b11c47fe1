import TradingDesk.Settings
/-!
# The command line

The desk is started with a settings file; the level and the form of its log may be given in place of
what the file says.
-/

namespace TradingDesk

structure CommandLine where
  /-- Where the settings are. -/
  config : String := "config.toml"
  logLevel : Option String := none
  jsonLogs : Bool := false
deriving DecidableEq, Repr, Inhabited

namespace CommandLine

/-- A long option and its value, if they are written in one argument. -/
def splitOption (argument : String) : List String :=
  if argument.startsWith "--" then
    match argument.splitOn "=" with
    | name :: first :: rest => [name, String.intercalate "=" (first :: rest)]
    | _ => [argument]
  else [argument]

/-- Reads arguments in which options and values stand apart. -/
def readFrom? (c : CommandLine) : List String → Option CommandLine
  | [] => some c
  | "--json-logs" :: rest => readFrom? { c with jsonLogs := true } rest
  | "--config" :: value :: rest => readFrom? { c with config := value } rest
  | "-c" :: value :: rest => readFrom? { c with config := value } rest
  | "--log-level" :: value :: rest => readFrom? { c with logLevel := some value } rest
  | _ => none

/-- Reads the arguments of a call; what they leave open may be named elsewhere. -/
def read? (config : Option String) (arguments : List String) : Option CommandLine :=
  readFrom? { config := config.getD "config.toml" } (arguments.flatMap splitOption)

def usage : String := "Usage: desk [--config FILE] [--log-level LEVEL] [--json-logs]"

end CommandLine

namespace Settings

/-- Settings with what the command line says in place of them. -/
def withCommandLine (c : Settings) (line : CommandLine) : Settings :=
  let g := c.general
  { c with general := { g with
      logLevel := line.logLevel.getD g.logLevel, jsonLogs := line.jsonLogs || g.jsonLogs } }

def summary (c : Settings) : List String :=
  let quotes := c.stream.assets.map fun asset =>
    "quotes of " ++ asset ++ " from " ++ c.exchange.feedUrl
  let books := c.poll.schedules.map fun s =>
    "books of " ++ s.asset ++ " at level " ++ toString s.level.number ++ " every " ++
      toString s.interval ++ " ms"
  let trades := c.portfolios.map fun b =>
    "portfolio " ++ b.id ++ " trades " ++ b.asset ++ " (" ++ b.mode.name ++ ")"
  quotes ++ books ++ trades

end Settings

end TradingDesk

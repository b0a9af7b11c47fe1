import TradingDesk.CommandLine
import TradingDesk.Settings.Environment
/-!
# The program

Loads the settings and tells what a desk with them does, or why there can be none.
-/

open TradingDesk

def settingVariables : List String :=
  ["EXCHANGE__API_KEY", "EXCHANGE__API_SECRET", "EXCHANGE__API_PASSPHRASE", "EXCHANGE__REST_URL",
   "EXCHANGE__WEBSOCKET_URL", "DATABASE__URL", "DATABASE__MAX_CONNECTIONS",
   "DATABASE__CONNECTION_TIMEOUT_SECONDS", "STREAM__ASSETS", "STREAM__QUOTE_INTERVAL_MS",
   "WATCHER__POLL_INTERVAL_MS", "WATCHER__BATCH_SIZE", "EXECUTOR__QUEUE_SIZE",
   "EXECUTOR__STATUS_POLL_INTERVAL_MS", "EXECUTOR__ORDER_TIMEOUT_SECS", "ALERTS__WEBHOOK_URL",
   "ALERTS__TIMEOUT_SECONDS", "SETTINGS__LOG_LEVEL", "SETTINGS__JSON_LOGS",
   "SETTINGS__REQUEST_TIMEOUT_SECONDS"].map ("ALPHA__" ++ ·)

def readVariables : IO (List (String × String)) :=
  settingVariables.filterMapM fun name => do
    let value ← IO.getEnv name
    pure (value.map (name, ·))

def readSettingsFile (path : String) : IO (Option String) :=
  try
    let text ← IO.FS.readFile path
    pure (some text)
  catch _ => pure none

def main (arguments : List String) : IO UInt32 := do
  match CommandLine.read? (← IO.getEnv "ALPHA_CONFIG") arguments with
  | none =>
    IO.eprintln CommandLine.usage
    pure 2
  | some line =>
    match Settings.load (← readSettingsFile line.config) (← readVariables) with
    | .error fault =>
      IO.eprintln ("Error: loading configuration: " ++ fault.message)
      pure 1
    | .ok settings =>
      (settings.withCommandLine line).summary.forM IO.println
      pure 0

import TradingDesk.Fault
import TradingDesk.Json.Member
/-!
# Faults in JSON

A fault is filed under the name of its kind.
-/

namespace TradingDesk.Fault

def kind : Fault → String
  | network _ => "TransientNetwork"
  | feedConnection _ => "WebSocketConnection"
  | feedCommunication _ => "WebSocketCommunication"
  | http _ => "HttpRequest"
  | json => "JsonParse"
  | malformed _ => "MalformedMessage"
  | authentication _ => "Authentication"
  | rateLimit .. => "RateLimit"
  | invalidResponse _ => "InvalidResponse"
  | storeWrite _ => "StoreWrite"
  | database _ => "Database"
  | gateway .. => "Gateway"
  | orderTimeout _ => "OrderTimeout"
  | configuration _ | settings => "Configuration"
  | channel _ => "ChannelSend"
  | internal _ => "Internal"

/-- The fault that an object names by kind and details; one of no known kind is internal. -/
def ofJson (v : Json) : Fault :=
  let detail := v.textAt "message"
  match v.textAt "kind" with
  | "TransientNetwork" => network detail
  | "WebSocketConnection" => feedConnection detail
  | "WebSocketCommunication" => feedCommunication detail
  | "HttpRequest" => http .unanswered
  | "JsonParse" => json
  | "MalformedMessage" => malformed detail
  | "Authentication" => authentication detail
  | "RateLimit" => rateLimit detail (v.natAt? "retry_after")
  | "InvalidResponse" => invalidResponse detail
  | "StoreWrite" => storeWrite detail
  | "Database" => database detail
  | "Gateway" => gateway detail (v.flagAt "recoverable" false)
  | "OrderTimeout" => orderTimeout detail
  | "Configuration" => configuration detail
  | "ChannelSend" => channel detail
  | _ => internal detail

end TradingDesk.Fault

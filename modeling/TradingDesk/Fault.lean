/-!
# Faults

What can go wrong between the desk and the exchange, its store and its settings. A fault is a cause;
`Fault.message` words it.
-/

namespace TradingDesk

/-- How far an HTTP exchange got that ended without an answer to use. -/
inductive HttpFault where
  /-- The request holds what no request can. -/
  | unwritable
  /-- The request was not answered. -/
  | unanswered
  /-- The answer could not be read. -/
  | unreadable
deriving DecidableEq, Repr

inductive Fault where
  | network (detail : String)
  | feedConnection (detail : String)
  | feedCommunication (detail : String)
  | http (cause : HttpFault)
  | json
  | malformed (detail : String)
  | authentication (detail : String)
  | rateLimit (detail : String) (retryAfterSeconds : Option Nat)
  | invalidResponse (detail : String)
  | storeWrite (detail : String)
  | database (detail : String)
  /-- A failed call of an order gateway. When it is recoverable, the order may or may not have been
  taken, and its status has to be asked for. -/
  | gateway (detail : String) (recoverable : Bool)
  | orderTimeout (detail : String)
  /-- Settings that do not go together. -/
  | configuration (detail : String)
  /-- Settings that could not be read. -/
  | settings
  | channel (detail : String)
  | internal (detail : String)
deriving DecidableEq, Repr

namespace Fault

def message : Fault → String
  | network d => "Transient network error: " ++ d
  | feedConnection d => "WebSocket connection error: " ++ d
  | feedCommunication d => "WebSocket communication error: " ++ d
  | http .unwritable => "HTTP request error: builder error"
  | http .unanswered => "HTTP request error: error sending request"
  | http .unreadable => "HTTP request error: error decoding response body"
  | json => "JSON parsing error: unexpected document"
  | malformed d => "Malformed message: " ++ d
  | authentication d => "Authentication error: " ++ d
  | rateLimit d after =>
    let wait := match after with
      | some n => "Some(" ++ toString n ++ ")"
      | none => "None"
    "Rate limit exceeded: " ++ d ++ ", retry after " ++ wait ++ " seconds"
  | invalidResponse d => "Invalid API response: " ++ d
  | storeWrite d => "Store write failed: " ++ d
  | database d => "Database error: " ++ d
  | gateway d recoverable =>
    "Gateway error (recoverable: " ++ toString recoverable ++ "): " ++ d
  | orderTimeout d => "Order timed out: " ++ d
  | configuration d => "Configuration error: " ++ d
  | settings => "Configuration error: the settings cannot be read"
  | channel d => "Channel send error: " ++ d
  | internal d => "Internal error: " ++ d

/-- Whether the same call may succeed later. -/
def isTransient : Fault → Bool
  | network _ | feedConnection _ | feedCommunication _ | rateLimit .. => true
  | http .unanswered => true
  | _ => false

def isRateLimit : Fault → Bool
  | rateLimit .. => true
  | _ => false

/-- The wait that the server asked for, in milliseconds. -/
def retryAfter? : Fault → Option Nat
  | rateLimit _ (some seconds) => some (seconds * 1000)
  | _ => none

end Fault

end TradingDesk

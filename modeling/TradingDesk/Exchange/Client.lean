import TradingDesk.Exchange.Record
import TradingDesk.Exchange.Signature
import TradingDesk.Http.Call
import TradingDesk.Json.Printer
import TradingDesk.Settings
import TradingDesk.Text.Number
/-!
# Calls to the exchange

Books are public; orders are placed, looked up and cancelled with signed requests. An order goes by
the id that the desk gave it. A refusal is turned into the fault that its status stands for.
-/

namespace TradingDesk.Exchange

structure Client where
  /-- The address that all paths are appended to. -/
  base : String
  credentials : Option Credentials := none
deriving DecidableEq, Repr

namespace Client

/-- A client for an address; slashes at its end do not count. -/
def of (address : String) (credentials : Option Credentials) : Client :=
  { base := String.ofList (address.toList.reverse.dropWhile (· == '/')).reverse, credentials }

/-! ### Answers -/

/-- What a refused request is told: the message of the body, or else the body as it is. -/
def refusalText (r : Http.Response) : String :=
  match Json.read? r.text >>= Refusal.read? with
  | some refusal => refusal.message
  | none => r.text

/-- The seconds after which the exchange wants to be asked again. -/
def retryAfter? (r : Http.Response) : Option Nat := do
  Text.word? (← r.headers.get? "Retry-After")

def refusal (r : Http.Response) : Fault :=
  let message := refusalText r
  let detail := "Server returned status " ++ r.status.label ++ ": " ++ message
  if r.status.code = 429 then .rateLimit message (retryAfter? r)
  else if r.status.code = 401 ∨ r.status.code = 403 then .authentication detail
  else if r.status.isServerError then .network detail
  else .invalidResponse detail

def readRecord {α : Type} (read : Json → Option α) (r : Http.Response) : Except Fault α :=
  if r.status.isSuccess then
    match Json.read? r.content >>= read with
    | some a => .ok a
    | none => .error (.http .unreadable)
  else .error (refusal r)

/-! ### Requests -/

def signed (c : Client) (method : Http.Method) (path body : String) (now : Instant) :
    Except Fault Http.Request :=
  match c.credentials with
  | none => .error (.authentication "API credentials required for this endpoint")
  | some credentials => do
    let signature ← sign credentials.secret now.seconds method.name path body
    let request : Http.Request := { method, address := c.base ++ path }
    let request := if body.isEmpty then request else request.withJson body
    pure (request
      |>.withHeader "CB-ACCESS-KEY" credentials.key
      |>.withHeader "CB-ACCESS-SIGN" signature
      |>.withHeader "CB-ACCESS-TIMESTAMP" (toString now.seconds)
      |>.withHeader "CB-ACCESS-PASSPHRASE" credentials.passphrase)

def book (c : Client) (product : String) (level : Book.Level) (now : Instant) : Http.Call Book :=
  let path := "/products/" ++ product ++ "/book?level=" ++ toString level.number
  .of { method := .get, address := c.base ++ path } fun r => do
    let record ← readRecord BookRecord.read? r
    record.toBook product level now

def place (c : Client) (order : OrderRequest) (now : Instant) :
    Except Fault (Http.Call OrderRecord) := do
  let request ← c.signed .post "/orders" order.toJson.toText now
  pure (.of request (readRecord OrderRecord.read?))

def orderPath (clientId : String) : String := "/orders/client:" ++ clientId

/-- Asks for an order, which the exchange may not know. -/
def order (c : Client) (clientId : String) (now : Instant) :
    Except Fault (Http.Call (Option OrderRecord)) := do
  let request ← c.signed .get (orderPath clientId) "" now
  pure (.of request fun r =>
    if r.status.code = 404 then .ok none else (readRecord OrderRecord.read? r).map some)

/-- Cancels an order; one that the exchange does not know is gone already. -/
def cancel (c : Client) (clientId : String) (now : Instant) : Except Fault (Http.Call Unit) := do
  let request ← c.signed .delete (orderPath clientId) "" now
  pure (.of request fun r =>
    if r.status.code = 404 ∨ r.status.isSuccess then .ok () else .error (refusal r))

end Client

end TradingDesk.Exchange

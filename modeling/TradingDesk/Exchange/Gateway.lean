import TradingDesk.Exchange.Client
/-!
# The gateway to the exchange

Orders go to the exchange through a client with credentials. A failed call is recoverable when it
may have reached the exchange; then the order's status has to be asked for. A refusal that is about
the order itself, not about credentials or load, is the order's rejection.
-/

namespace TradingDesk.Exchange

structure Gateway where
  client : Client
  credentials : Credentials
deriving DecidableEq, Repr

namespace Gateway

def name : String := "coinbase"

/-- The gateway of a client, which needs credentials. -/
def of (client : Client) : Except Fault Gateway :=
  match client.credentials with
  | some credentials => .ok { client, credentials }
  | none => .error (.configuration "live trading requires exchange API credentials")

def classify : Fault → Fault
  | .gateway detail recoverable => .gateway detail recoverable
  | e => .gateway e.message e.isTransient

def classified {α : Type} : Except Fault α → Except Fault α
  | .ok a => .ok a
  | .error e => .error (classify e)

/-- What a placed order's record says; a refusal of the order is an answer too. No outcome if its
price grows too large. -/
def readSubmitted (now : Instant) : Except Fault OrderRecord → Except Fault (Option Order.Outcome)
  | .ok record => .ok (record.outcome? now)
  | .error (.invalidResponse reason) => .ok (some (.rejected reason))
  | .error e => .error (classify e)

def readStatus (now : Instant) :
    Except Fault (Option OrderRecord) → Except Fault (Option Order.Outcome)
  | .ok (some record) => .ok (record.outcome? now)
  | .ok none => .ok (some .unknown)
  | .error e => .error (classify e)

def submit (g : Gateway) (order : Order) (now : Instant) :
    Except Fault (Http.Call (Option Order.Outcome)) :=
  classified ((g.client.place (OrderRequest.ofOrder order) now).map (.map (readSubmitted now)))

def status (g : Gateway) (clientId : String) (now : Instant) :
    Except Fault (Http.Call (Option Order.Outcome)) :=
  classified ((g.client.order clientId now).map (.map (readStatus now)))

def cancel (g : Gateway) (clientId : String) (now : Instant) : Except Fault (Http.Call Unit) :=
  classified ((g.client.cancel clientId now).map (.map classified))

end Gateway

end TradingDesk.Exchange

import TradingDesk.Market.Quote
/-!
# Orders

A strategy decides on a trade; the trade becomes an order with a name of its own, and the gateway
tells what became of it.
-/

namespace TradingDesk

/-- A trade that a strategy wants; without a limit it takes the market's price. -/
structure Trade where
  side : Side
  size : Decimal
  limit : Option Decimal
  reason : String
deriving DecidableEq, Repr

inductive Decision where
  | noGo
  | go (trade : Trade)
deriving DecidableEq, Repr, Inhabited

def Decision.isGo : Decision → Bool
  | noGo => false
  | go _ => true

/-- An order as it is handed to a gateway. Its client id names it from then on. -/
structure Order where
  clientId : String
  portfolio : String
  asset : String
  side : Side
  size : Decimal
  limit : Option Decimal
  reason : String
  createdAt : Instant
deriving DecidableEq, Repr

def Order.ofTrade (portfolio asset clientId : String) (trade : Trade) (now : Instant) : Order :=
  { clientId, portfolio, asset
    side := trade.side
    size := trade.size
    limit := trade.limit
    reason := trade.reason
    createdAt := now }

/-- How an order was executed, at its average price. -/
structure Fill where
  exchangeId : String
  size : Decimal
  price : Decimal
  filledAt : Instant
deriving DecidableEq, Repr

namespace Order

inductive Outcome where
  | filled (fill : Fill)
  /-- Accepted and still working. -/
  | resting (exchangeId : String)
  /-- Refused, or cancelled without a fill. -/
  | rejected (reason : String)
  /-- The gateway does not know the order. -/
  | unknown
deriving DecidableEq, Repr

/-- Whether nothing more can happen to the order. -/
def Outcome.isFinal : Outcome → Bool
  | resting _ => false
  | _ => true

end Order

end TradingDesk

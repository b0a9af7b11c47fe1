import TradingDesk.Decimal.Text
import TradingDesk.Instant
import TradingDesk.Text.Case
/-!
# Quotes

A quote joins the best bid and the best offer of an asset. The feed tells one side at a time, so a
quote is made of two halves.
-/

namespace TradingDesk

inductive Side where
  | buy
  | sell
deriving DecidableEq, Repr, Inhabited

def Side.name : Side → String
  | buy => "buy"
  | sell => "sell"

/-- One side of the market as a single message of the feed tells it. -/
structure QuoteHalf where
  asset : String
  side : Side
  price : Decimal
  size : Decimal
  exchangeTime : Instant
deriving DecidableEq, Repr

structure Quote where
  asset : String
  bidPrice : Decimal
  bidSize : Decimal
  askPrice : Decimal
  askSize : Decimal
  exchangeTime : Instant
  receivedTime : Instant
deriving DecidableEq, Repr

namespace Quote

/-- The quote made of a bid and an ask; it is as old as the later of the two. -/
def ofHalves (bid ask : QuoteHalf) (received : Instant) : Quote :=
  { asset := bid.asset
    bidPrice := bid.price
    bidSize := bid.size
    askPrice := ask.price
    askSize := ask.size
    exchangeTime := bid.exchangeTime.latest ask.exchangeTime
    receivedTime := received }

/-- The name a quote is stored under: asset and time, so that equal quotes have one name. A time
that 64 bits do not hold counts as zero. -/
def documentId (q : Quote) : String :=
  Text.lower q.asset ++ "@" ++ toString (q.exchangeTime.epochNanos?.getD 0)

def midpoint? (q : Quote) : Option Decimal := do
  (← q.bidPrice.add? q.askPrice).div? .two

def spread? (q : Quote) : Option Decimal := q.askPrice.sub? q.bidPrice

end Quote

end TradingDesk

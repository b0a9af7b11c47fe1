import TradingDesk.Exchange.Gateway
import TradingDesk.Trading.Wiring
/-!
# The staff of a desk

A desk has the executors of its portfolios and, if its settings hold credentials, a gateway to the
exchange. Orders of a live portfolio go to that gateway, all others are only simulated.
-/

namespace TradingDesk

/-- Where orders go. -/
inductive Outlet where
  | paper
  | exchange (gateway : Exchange.Gateway)
deriving DecidableEq, Repr

structure Staff where
  /-- The gateway to the exchange, if there is one. -/
  live : Option Exchange.Gateway
  traders : List (Trader TargetPrice)

namespace Staff

/-- The gateway that settings hold credentials for. It needs an HTTP client; `made` tells what came
of making one. -/
def gateway? (made : Except Fault Unit) (c : Settings) : Except Fault (Option Exchange.Gateway) :=
  match c.exchange.credentials? with
  | none => .ok none
  | some credentials => do
    made
    let gateway ← Exchange.Gateway.of (.of c.exchange.restUrl (some credentials))
    pure (some gateway)

/-- The staff of a desk with these settings, its executors restored from the store. -/
def ofSettings (made : Except Fault Unit) (c : Settings) (store : Store) (now : Instant) :
    Except Fault Staff := do
  let live ← gateway? made c
  let traders ← Trader.buildAll c live.isSome store now
  pure { live, traders }

/-- Where the orders of an executor go. -/
def outlet? {σ : Type} (s : Staff) (t : Trader σ) : Option Outlet :=
  match t.mode with
  | .paper => some .paper
  | .live => s.live.map .exchange

end Staff

end TradingDesk

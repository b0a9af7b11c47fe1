import TradingDesk.Settings
import TradingDesk.Trading.Executor
/-!
# Target prices

The strategy buys low and sells high around a price. While it holds a position it sells once the bid
has risen enough above what was paid. Otherwise it buys once the ask has fallen enough below an
anchor: the price of the last sale, else the reference price, else the first ask that it saw.

Amounts that grow too large give no answer.
-/

namespace TradingDesk

/-- The strategy of a portfolio, and the first ask that it took as anchor. -/
structure TargetPrice where
  target : Settings.Target
  firstSeen : Option Decimal := none
deriving DecidableEq, Repr

namespace TargetPrice

def name : String := "target_price"

/-- The bid that a position bought at `paid` is sold at. -/
def sellTarget? (c : Settings.Target) (paid : Decimal) : Option Decimal := do
  paid.mul? (← Decimal.one.add? (← c.tolerance.mul? c.upside))

/-- The ask that is bought at below `anchor`. -/
def buyTarget? (c : Settings.Target) (anchor : Decimal) : Option Decimal := do
  anchor.mul? (← Decimal.one.sub? (← c.tolerance.mul? c.downside))

/-- What is held: the price paid and the size. A portfolio that starts with a sale holds its size,
bought at the reference price. -/
def holding? (c : Settings.Target) (p : Portfolio) : Option (Option (Decimal × Decimal)) := do
  match ← p.entryPrice? with
  | some paid => pure (some (paid, ← p.positionSize?))
  | none =>
    if !p.hasHistory && c.startMode = .sell then pure (c.reference.map fun paid => (paid, c.size))
    else pure none

def sellAt (bid target held : Decimal) : Trade :=
  { side := .sell
    size := held
    limit := some bid
    reason := "bid " ++ bid.toText ++ " reached sell target " ++ target.toText }

def buyAt (ask target size : Decimal) : Trade :=
  { side := .buy
    size
    limit := some ask
    reason := "ask " ++ ask.toText ++ " reached buy target " ++ target.toText }

def evaluateSell? (c : Settings.Target) (v : MarketView) (paid held : Decimal) : Option Decision :=
  match v.bestBid? with
  | none => some .noGo
  | some bid => do
    let target ← sellTarget? c paid
    pure (if target ≤ bid then .go (sellAt bid target held) else .noGo)

/-- The price that a purchase is measured by. -/
def anchor? (s : TargetPrice) (p : Portfolio) : Option Decimal :=
  p.lastExit <|> s.target.reference <|> s.firstSeen

def evaluateBuy? (s : TargetPrice) (v : MarketView) (p : Portfolio) :
    Option (Decision × TargetPrice) :=
  match v.bestAsk? with
  | none => some (.noGo, s)
  | some ask =>
    match s.anchor? p with
    | none => some (.noGo, { s with firstSeen := some ask })
    | some anchor => do
      let target ← buyTarget? s.target anchor
      pure (if ask ≤ target then .go (buyAt ask target s.target.size) else .noGo, s)

/-- Decides on a view of the market; also the strategy after it. -/
def evaluate? (s : TargetPrice) (v : MarketView) (p : Portfolio) :
    Option (Decision × TargetPrice) := do
  match ← holding? s.target p with
  | some (paid, held) => pure (← evaluateSell? s.target v paid held, s)
  | none => s.evaluateBuy? v p

def strategy : Strategy TargetPrice := { name, evaluate? }

end TargetPrice

end TradingDesk

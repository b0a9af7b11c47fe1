import TradingDesk.Trading.Portfolio
import TradingDesk.Market.Codec
import TradingDesk.Market.Collection
/-!
# The view of a market

What a strategy sees of its asset when a change calls for an evaluation: the latest quote and the
latest book of each level, as the store has them.
-/

namespace TradingDesk

structure MarketView where
  asset : String
  trigger : ChangeEvent
  quote : Option Quote := none
  /-- At most one book of each level, coarsest first. -/
  books : List Book := []
deriving DecidableEq, Repr

namespace MarketView

/-- Puts a book in its place, instead of the one of its level. -/
def insertBook (b : Book) : List Book → List Book
  | [] => [b]
  | c :: rest =>
    if b.level.number < c.level.number then b :: c :: rest
    else if b.level = c.level then b :: rest
    else c :: insertBook b rest

def withBook (v : MarketView) (b : Book) : MarketView := { v with books := insertBook b v.books }

/-- The best bid: the quote's, or that of the first book that has one. -/
def bestBid? (v : MarketView) : Option Decimal :=
  match v.quote with
  | some q => some q.bidPrice
  | none => v.books.findSome? fun b => b.bestBid?.map (·.price)

/-- The best ask: the quote's, or that of the first book that has one. -/
def bestAsk? (v : MarketView) : Option Decimal :=
  match v.quote with
  | some q => some q.askPrice
  | none => v.books.findSome? fun b => b.bestAsk?.map (·.price)

def ofStore (s : Store) (asset : String) (trigger : ChangeEvent) : Except Fault MarketView := do
  let quote ← s.latestRecord (Collection.quotes asset) Quote.read?
  let books ← Book.Level.all.mapM fun level =>
    s.latestRecord (Collection.books asset level) Book.read?
  let view : MarketView := { asset, trigger, quote }
  pure (books.foldl (fun v b => (b.map v.withBook).getD v) view)

end MarketView

end TradingDesk

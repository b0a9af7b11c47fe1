import TradingDesk.Market.Quote
/-!
# Order books

A snapshot of the order book of an asset, at one of three levels of detail.
-/

namespace TradingDesk

namespace Book

/-- How much of an order book is shown: the best row of each side, the best fifty, or every
order. -/
inductive Level where
  | best
  | fifty
  | full
deriving DecidableEq, Repr, Inhabited

namespace Level

def all : List Level := [best, fifty, full]

def number : Level → Nat
  | best => 1
  | fifty => 2
  | full => 3

def ofNumber? (n : Nat) : Option Level := all.find? (·.number == n)

def refusal (n : Nat) : String := "book level must be 1, 2 or 3, got " ++ toString n

def family : Level → String
  | best => "book-best"
  | fifty => "book-50"
  | full => "book-full"

end Level

/-- A row of a book: rows of several orders tell their number, rows of one order its name. -/
structure Entry where
  price : Decimal
  size : Decimal
  orderCount : Option Nat := none
  orderId : Option String := none
deriving DecidableEq, Repr

end Book

structure Book where
  asset : String
  level : Book.Level
  bids : List Book.Entry
  asks : List Book.Entry
  exchangeSequence : Nat
  exchangeTime : Instant
  receivedTime : Instant
deriving DecidableEq, Repr

namespace Book

def bestBid? (b : Book) : Option Entry := b.bids.head?

def bestAsk? (b : Book) : Option Entry := b.asks.head?

/-- The name a book is stored under: asset, level and the exchange's sequence. -/
def documentId (b : Book) : String :=
  Text.lower b.asset ++ ":" ++ toString b.level.number ++ ":" ++ toString b.exchangeSequence

end Book

end TradingDesk

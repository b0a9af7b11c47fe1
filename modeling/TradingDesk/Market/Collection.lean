import TradingDesk.Market.Book
/-!
# Collections

The names of the collections that market data and trading state are stored in.
-/

namespace TradingDesk.Collection

def quotes (asset : String) : String := "ticker." ++ Text.lower asset

/-- The collection of the books of an asset at one level. -/
def books (asset : String) (level : Book.Level) : String :=
  level.family ++ "." ++ Text.lower asset

def states : String := "strategy-state"

end TradingDesk.Collection

import TradingDesk.Trading.Order
/-!
# Paper trading

Orders with a limit are filled at once at that limit and orders without one are refused. The first
answer about an order stands, so that asking again after a restart tells the same.
-/

namespace TradingDesk

/-- The orders seen, each with its answer, and how many were filled. -/
structure Paper where
  orders : List (String × Order.Outcome) := []
  filled : Nat := 0
deriving DecidableEq, Repr, Inhabited

namespace Paper

def name : String := "paper"

def size (p : Paper) : Nat := p.orders.length

/-- Answers an order that has not been seen; also how many are filled then. -/
def answer (p : Paper) (order : Order) (now : Instant) : Order.Outcome × Nat :=
  match order.limit with
  | some price =>
    let n := p.filled + 1
    (.filled
      { exchangeId := "paper-" ++ toString n, size := order.size, price, filledAt := now }, n)
  | none => (.rejected "paper trading needs a limit price", p.filled)

def submit (p : Paper) (order : Order) (now : Instant) : Order.Outcome × Paper :=
  match p.orders.lookup order.clientId with
  | some outcome => (outcome, p)
  | none =>
    let (outcome, filled) := p.answer order now
    (outcome, { orders := (order.clientId, outcome) :: p.orders, filled })

def status (p : Paper) (clientId : String) : Order.Outcome :=
  (p.orders.lookup clientId).getD .unknown

end Paper

end TradingDesk

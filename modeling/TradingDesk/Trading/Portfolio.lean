import TradingDesk.Trading.Order
import TradingDesk.Store
/-!
# The state of a portfolio

What has to survive a restart: the phase of the portfolio, its open lots, how far each collection
has been evaluated, and the order that is not yet resolved. One document per portfolio holds it.
-/

namespace TradingDesk

structure Lot where
  clientId : String
  exchangeId : String
  size : Decimal
  entryPrice : Decimal
  openedAt : Instant
deriving DecidableEq, Repr

inductive Phase where
  | idle
  | evaluating
  | orderPending
  /-- Nothing happens any more until an operator resets the document. -/
  | failed
deriving DecidableEq, Repr, Inhabited

namespace Phase

def label : Phase → String
  | idle => "IDLE"
  | evaluating => "EVALUATING"
  | orderPending => "ORDER_PENDING"
  | failed => "FAILED"

def mayBecome : Phase → Phase → Bool
  | idle, evaluating => true
  | evaluating, idle | evaluating, orderPending | evaluating, failed => true
  | orderPending, idle | orderPending, failed => true
  | _, _ => false

end Phase

structure Portfolio where
  id : String
  phase : Phase
  lots : List Lot
  /-- The last sequence that was evaluated, per watched collection. -/
  evaluated : KeyMap Nat
  pending : Option Order
  lastExit : Option Decimal
  failure : Option String
  updatedAt : Instant
deriving DecidableEq, Repr

namespace Portfolio

def new (id : String) (now : Instant) : Portfolio :=
  { id
    phase := .idle
    lots := []
    evaluated := .empty
    pending := none
    lastExit := none
    failure := none
    updatedAt := now }

def isHolding (p : Portfolio) : Bool := !p.lots.isEmpty

def hasHistory (p : Portfolio) : Bool := p.isHolding || p.lastExit.isSome

/-- The sum of some amounts, added from the first to the last. -/
def total? (amounts : List Decimal) : Option Decimal :=
  amounts.foldlM (fun sum a => sum.add? a) Decimal.zero

def positionSize? (p : Portfolio) : Option Decimal := total? (p.lots.map (·.size))

def lotCost? (l : Lot) : Option Decimal := l.size.mul? l.entryPrice

/-- The average price paid for the open lots, weighted by size; none without a position. The outer
`none` says that an amount grew too large. -/
def entryPrice? (p : Portfolio) : Option (Option Decimal) := do
  let size ← p.positionSize?
  if size.isZero then pure none
  else
    let costs ← p.lots.mapM lotCost?
    let cost ← total? costs
    pure (some (← cost.div? size))

/-! ### Evaluated sequences -/

def lastEvaluated? (p : Portfolio) (collection : String) : Option Nat := p.evaluated.get? collection

def hasEvaluated (p : Portfolio) (e : ChangeEvent) : Bool :=
  match p.lastEvaluated? e.collection with
  | some sequence => e.sequence ≤ sequence
  | none => false

/-- Notes an event as evaluated; the last evaluated sequence never goes back. -/
def markEvaluated (p : Portfolio) (e : ChangeEvent) : Portfolio :=
  let sequence := max ((p.lastEvaluated? e.collection).getD 0) e.sequence
  { p with evaluated := p.evaluated.insert e.collection sequence }

/-! ### Fills -/

/-- Closes lots, oldest first, until `remaining` is used up. A lot that is closed wholly is gone. -/
def closeLots? (remaining : Decimal) : List Lot → Option (List Lot)
  | [] => some []
  | lot :: lots =>
    if remaining.isZero then some (lot :: lots)
    else do
      let closed := remaining.least lot.size
      let left ← lot.size.sub? closed
      let remaining ← remaining.sub? closed
      let lots ← closeLots? remaining lots
      pure (if left.isZero then lots else { lot with size := left } :: lots)

/-- Books the fill of an order: a buy opens a lot, a sell closes lots. -/
def applyFill? (p : Portfolio) (order : Order) (fill : Fill) : Option Portfolio :=
  match order.side with
  | .buy =>
    let lot : Lot :=
      { clientId := order.clientId
        exchangeId := fill.exchangeId
        size := fill.size
        entryPrice := fill.price
        openedAt := fill.filledAt }
    some { p with lots := p.lots ++ [lot] }
  | .sell => do
    let lots ← closeLots? fill.size p.lots
    pure { p with lots, lastExit := some fill.price }

end Portfolio

end TradingDesk

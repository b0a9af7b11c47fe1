import TradingDesk.Trading.Portfolio
import TradingDesk.Market.Codec
/-!
# Orders and portfolios in JSON
-/

namespace TradingDesk

open Source (text? word? instant? decimal? listOf?)

namespace Order

def read? (v : Json) : Option Order := do
  let s ← Slots.of? ["client_order_id", "portfolio_id", "asset_id", "side", "size", "limit_price",
    "reason", "created_at"] v
  pure
    { clientId := ← s.required "client_order_id" text?
      portfolio := ← s.required "portfolio_id" text?
      asset := ← s.required "asset_id" text?
      side := ← s.required "side" Side.read?
      size := ← s.required "size" decimal?
      limit := ← s.nullable "limit_price" decimal?
      reason := ← s.required "reason" text?
      createdAt := ← s.required "created_at" instant? }

def toJson (o : Order) : Json := .obj
  [("client_order_id", .str o.clientId),
   ("portfolio_id", .str o.portfolio),
   ("asset_id", .str o.asset),
   ("side", o.side.toJson),
   ("size", .ofDecimal o.size),
   ("limit_price", .ofOption .ofDecimal o.limit),
   ("reason", .str o.reason),
   ("created_at", .ofInstant o.createdAt)]

end Order

namespace Fill

def read? (v : Json) : Option Fill := do
  let s ← Slots.of? ["exchange_order_id", "size", "price", "filled_at"] v
  pure
    { exchangeId := ← s.required "exchange_order_id" text?
      size := ← s.required "size" decimal?
      price := ← s.required "price" decimal?
      filledAt := ← s.required "filled_at" instant? }

def toJson (f : Fill) : Json := .obj
  [("exchange_order_id", .str f.exchangeId),
   ("size", .ofDecimal f.size),
   ("price", .ofDecimal f.price),
   ("filled_at", .ofInstant f.filledAt)]

end Fill

namespace Order.Outcome

/-- An outcome is an object with the name of its kind as the only key, or, without contents, the
name alone. -/
def read? : Json → Option Outcome
  | .str "NotFound" => some .unknown
  | .obj [("NotFound", .null)] => some .unknown
  | .obj [("Filled", v)] => (Fill.read? v).map .filled
  | .obj [("Open", v)] => do
    let s ← Slots.of? ["exchange_order_id"] v
    pure (.resting (← s.required "exchange_order_id" text?))
  | .obj [("Rejected", v)] => do
    let s ← Slots.of? ["reason"] v
    pure (.rejected (← s.required "reason" text?))
  | _ => none

def toJson : Outcome → Json
  | .filled fill => .obj [("Filled", fill.toJson)]
  | .resting id => .obj [("Open", .obj [("exchange_order_id", .str id)])]
  | .rejected reason => .obj [("Rejected", .obj [("reason", .str reason)])]
  | .unknown => .str "NotFound"

end Order.Outcome

namespace Lot

def read? (v : Json) : Option Lot := do
  let s ← Slots.of? ["client_order_id", "exchange_order_id", "size", "entry_price", "opened_at"] v
  pure
    { clientId := ← s.required "client_order_id" text?
      exchangeId := ← s.required "exchange_order_id" text?
      size := ← s.required "size" decimal?
      entryPrice := ← s.required "entry_price" decimal?
      openedAt := ← s.required "opened_at" instant? }

def toJson (l : Lot) : Json := .obj
  [("client_order_id", .str l.clientId),
   ("exchange_order_id", .str l.exchangeId),
   ("size", .ofDecimal l.size),
   ("entry_price", .ofDecimal l.entryPrice),
   ("opened_at", .ofInstant l.openedAt)]

end Lot

namespace Phase

def table : List (String × Phase) :=
  [("idle", idle), ("evaluating", evaluating), ("order_pending", orderPending), ("failed", failed)]

def read? (v : Json) : Option Phase := Source.named? table v

def toJson : Phase → Json
  | idle => .str "idle"
  | evaluating => .str "evaluating"
  | orderPending => .str "order_pending"
  | failed => .str "failed"

end Phase

namespace Portfolio

def readSequences? (v : Json) : Option (KeyMap Nat) :=
  (Json.mapOf? (word? (σ := Json)) v).map KeyMap.ofList

def read? (v : Json) : Option Portfolio := do
  let s ← Slots.of? ["portfolio_id", "current_phase", "open_position_refs",
    "last_evaluated_sequence", "pending_order", "last_exit_price", "failure_reason",
    "updated_at"] v
  pure
    { id := ← s.required "portfolio_id" text?
      phase := ← s.required "current_phase" Phase.read?
      lots := ← s.withDefault "open_position_refs" (listOf? Lot.read?) []
      evaluated := ← s.withDefault "last_evaluated_sequence" readSequences? .empty
      pending := ← s.optional "pending_order" Order.read?
      lastExit := ← s.optional "last_exit_price" decimal?
      failure := ← s.optional "failure_reason" text?
      updatedAt := ← s.required "updated_at" instant? }

def toJson (p : Portfolio) : Json := .obj
  [("portfolio_id", .str p.id),
   ("current_phase", p.phase.toJson),
   ("open_position_refs", .ofList Lot.toJson p.lots),
   ("last_evaluated_sequence", .obj (p.evaluated.map Json.ofNat).pairs),
   ("pending_order", .ofOption Order.toJson p.pending),
   ("last_exit_price", .ofOption .ofDecimal p.lastExit),
   ("failure_reason", .ofOption .str p.failure),
   ("updated_at", .ofInstant p.updatedAt)]

end Portfolio

def Decision.toJson : Decision → Json
  | .noGo => .str "no_go"
  | .go t => .obj
    [("side", t.side.toJson),
     ("size", .ofDecimal t.size),
     ("limit_price", .ofOption .ofDecimal t.limit),
     ("reason", .str t.reason)]

end TradingDesk

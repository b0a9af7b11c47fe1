import TradingDesk.Fault
import TradingDesk.Market.Codec
import TradingDesk.Trading.Order
/-!
# Records of the exchange

What the exchange's order and book requests send and answer. Amounts are texts.
-/

namespace TradingDesk.Exchange

open Source (text? word? bool? instant? listOf?)

/-- A row of a book: price, size, and a number of orders or the id of one. -/
structure BookRow where
  price : String
  size : String
  extra : Json
deriving Repr

structure BookRecord where
  sequence : Nat
  bids : List BookRow
  asks : List BookRow
  time : Option Instant
deriving Repr

namespace BookRow

/-- A row is a list of three; the record, the side and the row are nested around its last item. -/
def read? : Json → Option BookRow
  | .arr [price, size, extra] => do
    pure
      { price := ← text? price
        size := ← text? size
        extra := ← Json.plain? (Json.maxDepth - 3) extra }
  | _ => none

def toJson (r : BookRow) : Json := .arr [.str r.price, .str r.size, r.extra]

end BookRow

namespace BookRecord

def read? (v : Json) : Option BookRecord := do
  let s ← Slots.of? ["sequence", "bids", "asks", "time"] v
  pure
    { sequence := ← s.withDefault "sequence" word? 0
      bids := ← s.required "bids" (listOf? BookRow.read?)
      asks := ← s.required "asks" (listOf? BookRow.read?)
      time := ← s.optional "time" instant? }

def toJson (r : BookRecord) : Json := .obj
  [("sequence", .ofNat r.sequence),
   ("bids", .ofList BookRow.toJson r.bids),
   ("asks", .ofList BookRow.toJson r.asks),
   ("time", .ofOption .ofInstant r.time)]

end BookRecord

structure OrderRequest where
  clientId : String
  product : String
  side : String
  type : String
  size : String
  price : Option String
deriving DecidableEq, Repr

namespace OrderRequest

def read? (v : Json) : Option OrderRequest := do
  let s ← Slots.of? ["client_oid", "product_id", "side", "type", "size", "price"] v
  pure
    { clientId := ← s.required "client_oid" text?
      product := ← s.required "product_id" text?
      side := ← s.required "side" text?
      type := ← s.required "type" text?
      size := ← s.required "size" text?
      price := ← s.nullable "price" text? }

def toJson (r : OrderRequest) : Json := .obj <|
  [("client_oid", Json.str r.clientId),
   ("product_id", Json.str r.product),
   ("side", Json.str r.side),
   ("type", Json.str r.type),
   ("size", Json.str r.size)] ++
    (r.price.map fun p => ("price", Json.str p)).toList

/-- Asks for an order at its limit, or at the market's price. -/
def ofOrder (o : Order) : OrderRequest :=
  { clientId := o.clientId
    product := o.asset
    side := o.side.name
    type := if o.limit.isSome then "limit" else "market"
    size := o.size.plain.toText
    price := o.limit.map fun p => p.plain.toText }

end OrderRequest

structure OrderRecord where
  id : String
  clientId : Option String
  product : Option String
  status : String
  doneReason : Option String
  rejectReason : Option String
  filledSize : Option String
  executedValue : Option String
  settled : Bool
deriving DecidableEq, Repr

namespace OrderRecord

def read? (v : Json) : Option OrderRecord := do
  let s ← Slots.of? ["id", "client_oid", "product_id", "status", "done_reason", "reject_reason",
    "filled_size", "executed_value", "settled"] v
  pure
    { id := ← s.required "id" text?
      clientId := ← s.optional "client_oid" text?
      product := ← s.optional "product_id" text?
      status := ← s.required "status" text?
      doneReason := ← s.optional "done_reason" text?
      rejectReason := ← s.optional "reject_reason" text?
      filledSize := ← s.optional "filled_size" text?
      executedValue := ← s.optional "executed_value" text?
      settled := ← s.withDefault "settled" bool? false }

def toJson (r : OrderRecord) : Json := .obj
  [("id", .str r.id),
   ("client_oid", .ofOption .str r.clientId),
   ("product_id", .ofOption .str r.product),
   ("status", .str r.status),
   ("done_reason", .ofOption .str r.doneReason),
   ("reject_reason", .ofOption .str r.rejectReason),
   ("filled_size", .ofOption .str r.filledSize),
   ("executed_value", .ofOption .str r.executedValue),
   ("settled", .bool r.settled)]

/-- An amount of an order; one that is missing or unreadable counts as zero. -/
def amount (raw : Option String) : Decimal := (raw.bind Decimal.ofText?).getD .zero

/-- What became of an order. One that is done was filled at the average price, if anything of it was
filled. No answer if that price grows too large. -/
def outcome? (r : OrderRecord) (now : Instant) : Option Order.Outcome :=
  if r.status = "done" ∨ r.status = "settled" then
    let filled := amount r.filledSize
    if Decimal.zero < filled then do
      let price ← (amount r.executedValue).div? filled
      pure (.filled { exchangeId := r.id, size := filled, price, filledAt := now })
    else some (.rejected (r.doneReason.getD "done without fill"))
  else if r.status = "rejected" then some (.rejected (r.rejectReason.getD "rejected"))
  else some (.resting r.id)

end OrderRecord

structure Refusal where
  message : String
deriving DecidableEq, Repr

def Refusal.read? (v : Json) : Option Refusal := do
  let s ← Slots.of? ["message"] v
  pure { message := ← s.withDefault "message" text? "" }

def Refusal.toJson (r : Refusal) : Json := .obj [("message", .str r.message)]

/-! ### Books -/

/-- Reads an amount of a book; `field` is its name in complaints. -/
def readAmount (field : String) (text : String) : Except Fault Decimal :=
  match Decimal.ofText? text with
  | some a => .ok a
  | none =>
    .error (.invalidResponse ("Invalid book " ++ field ++ " '" ++ text ++ "': not a decimal"))

/-- A row of a book at some level. Only the full book tells the ids of orders. -/
def BookRow.toEntry (level : Book.Level) (r : BookRow) : Except Fault Book.Entry := do
  let price ← readAmount "price" r.price
  let size ← readAmount "size" r.size
  match level with
  | .full => pure { price, size, orderId := r.extra.asStr? }
  | _ => pure { price, size, orderCount := r.extra.asNat? }

/-- The book of a product; without a time of its own it is as old as its arrival. -/
def BookRecord.toBook (r : BookRecord) (product : String) (level : Book.Level) (now : Instant) :
    Except Fault Book := do
  let bids ← r.bids.mapM (BookRow.toEntry level)
  let asks ← r.asks.mapM (BookRow.toEntry level)
  pure
    { asset := Text.upper product
      level, bids, asks
      exchangeSequence := r.sequence
      exchangeTime := r.time.getD now
      receivedTime := now }

end TradingDesk.Exchange

import TradingDesk.Market.Book
import TradingDesk.Json.Record
/-!
# Market data in JSON
-/

namespace TradingDesk

open Source (text? word? instant? decimal? listOf?)

namespace Side

def read? {σ : Type} [Source σ] (v : σ) : Option Side :=
  Source.named? [("buy", buy), ("sell", sell)] v

def toJson (s : Side) : Json := .str s.name

end Side

namespace QuoteHalf

def read? (v : Json) : Option QuoteHalf := do
  let s ← Slots.of? ["asset_id", "side", "price", "size", "exchange_timestamp"] v
  pure
    { asset := ← s.required "asset_id" text?
      side := ← s.required "side" Side.read?
      price := ← s.required "price" decimal?
      size := ← s.required "size" decimal?
      exchangeTime := ← s.required "exchange_timestamp" instant? }

def toJson (h : QuoteHalf) : Json := .obj
  [("asset_id", .str h.asset),
   ("side", h.side.toJson),
   ("price", .ofDecimal h.price),
   ("size", .ofDecimal h.size),
   ("exchange_timestamp", .ofInstant h.exchangeTime)]

end QuoteHalf

namespace Quote

def read? (v : Json) : Option Quote := do
  let s ← Slots.of? ["asset_id", "bid_price", "bid_size", "ask_price", "ask_size",
    "exchange_timestamp", "received_timestamp"] v
  pure
    { asset := ← s.required "asset_id" text?
      bidPrice := ← s.required "bid_price" decimal?
      bidSize := ← s.required "bid_size" decimal?
      askPrice := ← s.required "ask_price" decimal?
      askSize := ← s.required "ask_size" decimal?
      exchangeTime := ← s.required "exchange_timestamp" instant?
      receivedTime := ← s.required "received_timestamp" instant? }

def toJson (q : Quote) : Json := .obj
  [("asset_id", .str q.asset),
   ("bid_price", .ofDecimal q.bidPrice),
   ("bid_size", .ofDecimal q.bidSize),
   ("ask_price", .ofDecimal q.askPrice),
   ("ask_size", .ofDecimal q.askSize),
   ("exchange_timestamp", .ofInstant q.exchangeTime),
   ("received_timestamp", .ofInstant q.receivedTime)]

end Quote

namespace Book

def Level.read? {σ : Type} [Source σ] (v : σ) : Option Level := do
  Level.ofNumber? (← Source.natBelow? 256 v)

def Level.toJson (l : Level) : Json := .ofNat l.number

def Entry.read? (v : Json) : Option Entry := do
  let s ← Slots.of? ["price", "size", "num_orders", "order_id"] v
  pure
    { price := ← s.required "price" decimal?
      size := ← s.required "size" decimal?
      orderCount := ← s.optional "num_orders" word?
      orderId := ← s.optional "order_id" text? }

/-- A row is written without what it does not tell. -/
def Entry.toJson (e : Entry) : Json := .obj <|
  [("price", Json.ofDecimal e.price), ("size", Json.ofDecimal e.size)] ++
    (e.orderCount.map fun n => ("num_orders", Json.ofNat n)).toList ++
    (e.orderId.map fun s => ("order_id", Json.str s)).toList

def read? (v : Json) : Option Book := do
  let s ← Slots.of? ["asset_id", "level", "bids", "asks", "exchange_sequence",
    "exchange_timestamp", "received_timestamp"] v
  pure
    { asset := ← s.required "asset_id" text?
      level := ← s.required "level" Level.read?
      bids := ← s.required "bids" (listOf? Entry.read?)
      asks := ← s.required "asks" (listOf? Entry.read?)
      exchangeSequence := ← s.withDefault "exchange_sequence" word? 0
      exchangeTime := ← s.required "exchange_timestamp" instant?
      receivedTime := ← s.required "received_timestamp" instant? }

def toJson (b : Book) : Json := .obj
  [("asset_id", .str b.asset),
   ("level", b.level.toJson),
   ("bids", .ofList Entry.toJson b.bids),
   ("asks", .ofList Entry.toJson b.asks),
   ("exchange_sequence", .ofNat b.exchangeSequence),
   ("exchange_timestamp", .ofInstant b.exchangeTime),
   ("received_timestamp", .ofInstant b.receivedTime)]

end Book

end TradingDesk

import TradingDesk.Fault
import TradingDesk.Market.Codec
/-!
# Messages of the feed

The feed sends JSON objects whose `type` tells what they are. A ticker carries one side of the
market: a buyer who took an offer moved the bid half, a seller the ask half.
-/

namespace TradingDesk.Feed

inductive Message where
  | half (h : QuoteHalf)
  /-- A ticker without a side, sent once after subscribing. -/
  | snapshot (product : String)
  | heartbeat
  | subscriptions
  | error (detail : String)
  | other (type : String)
deriving DecidableEq, Repr

structure Ticker where
  product : String
  sequence : Option Nat
  price : Option String
  bestBid : Option String
  bestBidSize : Option String
  bestAsk : Option String
  bestAskSize : Option String
  side : Option String
  lastSize : Option String
  time : Option Instant
deriving DecidableEq, Repr

def Ticker.read? (v : Json) : Option Ticker := do
  let text := Source.text? (σ := Json)
  let s ← Slots.of? ["product_id", "sequence", "price", "best_bid", "best_bid_size", "best_ask",
    "best_ask_size", "side", "last_size", "time"] v
  pure
    { product := ← s.required "product_id" text
      sequence := ← s.optional "sequence" Source.word?
      price := ← s.optional "price" text
      bestBid := ← s.optional "best_bid" text
      bestBidSize := ← s.optional "best_bid_size" text
      bestAsk := ← s.optional "best_ask" text
      bestAskSize := ← s.optional "best_ask_size" text
      side := ← s.optional "side" text
      lastSize := ← s.optional "last_size" text
      time := ← s.optional "time" Source.instant? }

def Ticker.toJson (t : Ticker) : Json :=
  let text := Json.ofOption Json.str
  .obj
    [("product_id", .str t.product),
     ("sequence", .ofOption .ofNat t.sequence),
     ("price", text t.price),
     ("best_bid", text t.bestBid),
     ("best_bid_size", text t.bestBidSize),
     ("best_ask", text t.bestAsk),
     ("best_ask_size", text t.bestAskSize),
     ("side", text t.side),
     ("last_size", text t.lastSize),
     ("time", .ofOption .ofInstant t.time)]

structure Complaint where
  message : String
  reason : Option String
deriving DecidableEq, Repr

def Complaint.read? (v : Json) : Option Complaint := do
  let s ← Slots.of? ["message", "reason"] v
  pure
    { message := ← s.withDefault "message" Source.text? ""
      reason := ← s.optional "reason" Source.text? }

def Complaint.toJson (c : Complaint) : Json :=
  .obj [("message", .str c.message), ("reason", .ofOption .str c.reason)]

def Complaint.detail (c : Complaint) : String :=
  match c.reason with
  | some reason => c.message ++ ": " ++ reason
  | none => c.message

/-! ### Subscribing -/

inductive Channel where
  | ticker
  | heartbeat
deriving DecidableEq, Repr

def Channel.read? (v : Json) : Option Channel :=
  Source.named? [("ticker", ticker), ("heartbeat", heartbeat)] v

def Channel.name : Channel → String
  | ticker => "ticker"
  | heartbeat => "heartbeat"

/-- A request to begin or end the messages about some products. -/
structure Subscription where
  type : String
  products : List String
  channels : List Channel
deriving DecidableEq, Repr

def Subscription.subscribe (products : List String) : Subscription :=
  { type := "subscribe", products, channels := [.ticker, .heartbeat] }

def Subscription.read? (v : Json) : Option Subscription := do
  let s ← Slots.of? ["type", "product_ids", "channels"] v
  pure
    { type := ← s.required "type" Source.text?
      products := ← s.required "product_ids" (Source.listOf? Source.text?)
      channels := ← s.required "channels" (Source.listOf? Channel.read?) }

def Subscription.toJson (s : Subscription) : Json := .obj
  [("type", .str s.type),
   ("product_ids", .ofList .str s.products),
   ("channels", .ofList (fun c => .str c.name) s.channels)]

/-! ### Reading messages -/

/-- Reads an amount of a ticker; `field` is its name in complaints. -/
def readAmount (field : String) (raw : Option String) : Except Fault Decimal :=
  match raw with
  | none => .error (.malformed ("missing " ++ field))
  | some text =>
    match Decimal.ofText? text with
    | some a => .ok a
    | none => .error (.malformed ("invalid " ++ field ++ " '" ++ text ++ "': not a decimal"))

/-- The half that a ticker tells of the market. Without an amount of its own side it tells the last
trade's. -/
def Ticker.toHalf (t : Ticker) (side : Side) : Except Fault QuoteHalf := do
  let (price, size) := match side with
    | .buy => (t.bestBid, t.bestBidSize)
    | .sell => (t.bestAsk, t.bestAskSize)
  match t.time with
  | none => .error (.malformed "ticker without time")
  | some time =>
    let price ← readAmount "price" (price <|> t.price)
    let size ← readAmount "size" (size <|> t.lastSize)
    pure { asset := Text.upper t.product, side, price, size, exchangeTime := time }

def Ticker.toMessage (t : Ticker) : Except Fault Message :=
  match t.side with
  | none => .ok (.snapshot t.product)
  | some side =>
    if side = "buy" then (t.toHalf .buy).map .half
    else if side = "sell" then (t.toHalf .sell).map .half
    else .error (.malformed ("unknown side '" ++ side ++ "'"))

def Message.ofJson (v : Json) : Except Fault Message :=
  match v.get? "type" with
  | some (.str "ticker") =>
    match Ticker.read? v with
    | some t => t.toMessage
    | none => .error (.malformed "bad ticker: unexpected document")
  | some (.str "heartbeat") => .ok .heartbeat
  | some (.str "subscriptions") => .ok .subscriptions
  | some (.str "error") =>
    match Complaint.read? v with
    | some c => .ok (.error c.detail)
    | none => .error .json
  | some (.str type) => .ok (.other type)
  | _ => .error (.malformed "missing type field")

def Message.ofText (text : String) : Except Fault Message :=
  match Json.readGeneric? text with
  | some v => Message.ofJson v
  | none => .error (.malformed "invalid JSON: unexpected text")

end TradingDesk.Feed

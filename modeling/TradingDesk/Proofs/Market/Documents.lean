import TradingDesk.Market.Codec
import TradingDesk.Proofs.Json.Settled
/-!
# Market documents

The documents of quotes and books say all of them. A row of a book is written without what it does
not tell, and read as one that does not tell it.
-/

namespace TradingDesk

open Source (text? word? instant? decimal? listOf?)

theorem Side.read?_toJson (s : Side) : Side.read? s.toJson = some s := by
  cases s <;> rfl

namespace Quote

/-- A quote whose instants are in the calendar. -/
structure Valid (q : Quote) : Prop where
  exchangeTime : q.exchangeTime.Valid
  receivedTime : q.receivedTime.Valid

/-- The members of a written quote. -/
def members (q : Quote) : List (String × Json) :=
  [("asset_id", .str q.asset),
   ("bid_price", .ofDecimal q.bidPrice),
   ("bid_size", .ofDecimal q.bidSize),
   ("ask_price", .ofDecimal q.askPrice),
   ("ask_size", .ofDecimal q.askSize),
   ("exchange_timestamp", .ofInstant q.exchangeTime),
   ("received_timestamp", .ofInstant q.receivedTime)]

theorem settle?_toJson (q : Quote) : q.toJson.settle? = some (Json.ofMembers q.members) := by
  apply Json.settle?_obj
  simp [Json.settle?.settleMembers?, members]

/-- Reading the document of a quote gives the quote. -/
theorem read?_document {q : Quote} (h : q.Valid) : read? q.toJson.settled = some q := by
  rw [Json.settled_of_settle? q.settle?_toJson]
  obtain ⟨s, hs, -, hget⟩ := Slots.of?_ofMembers
    ["asset_id", "bid_price", "bid_size", "ask_price", "ask_size", "exchange_timestamp",
      "received_timestamp"] q.members
  simp [members, KeyMap.lookup_cons_eq] at hget
  simp [read?, hs, Slots.required, hget, text?_str, decimal?_ofDecimal,
    instant?_ofInstant h.exchangeTime, instant?_ofInstant h.receivedTime]

end Quote

namespace Book

theorem Level.read?_toJson (l : Level) : Level.read? l.toJson = some l := by
  cases l <;> rfl

namespace Entry

def Valid (e : Entry) : Prop := ∀ n ∈ e.orderCount, n < pow2 64

/-- The members of a written row: what it does not tell is left out. -/
def members (e : Entry) : List (String × Json) :=
  [("price", .ofDecimal e.price), ("size", .ofDecimal e.size)] ++
    (e.orderCount.map fun n => ("num_orders", .ofNat n)).toList ++
    (e.orderId.map fun s => ("order_id", .str s)).toList

theorem settle?_toJson (e : Entry) : e.toJson.settle? = some (Json.ofMembers e.members) := by
  obtain ⟨price, size, orderCount, orderId⟩ := e
  apply Json.settle?_obj
  cases orderCount <;> cases orderId <;> simp [Json.settle?.settleMembers?, members]

theorem read?_members {e : Entry} (h : e.Valid) : read? (Json.ofMembers e.members) = some e := by
  obtain ⟨s, hs, -, hget⟩ := Slots.of?_ofMembers ["price", "size", "num_orders", "order_id"]
    e.members
  obtain ⟨hprice, hsize, horders, hname⟩ :
      s.given.lookup "price" = some (.ofDecimal e.price) ∧
      s.given.lookup "size" = some (.ofDecimal e.size) ∧
      s.given.lookup "num_orders" = e.orderCount.map Json.ofNat ∧
      s.given.lookup "order_id" = e.orderId.map Json.str := by
    obtain ⟨price, size, orderCount, orderId⟩ := e
    cases orderCount <;> cases orderId <;> simpa [members, KeyMap.lookup_cons_eq] using hget
  have hcount : s.optional "num_orders" word? = some e.orderCount :=
    Slots.optional_of_lookup e.orderCount horders (fun n hn => word?_ofNat (h n hn)) fun _ _ => rfl
  have hid : s.optional "order_id" text? = some e.orderId :=
    Slots.optional_of_lookup e.orderId hname (fun s _ => text?_str s) fun _ _ => rfl
  simp [read?, hs, Slots.required, hprice, hsize, decimal?_ofDecimal, hcount, hid]

end Entry

/-- A book whose numbers are of 64 bits and whose instants are in the calendar. -/
structure Valid (b : Book) : Prop where
  bids : ∀ e ∈ b.bids, e.Valid
  asks : ∀ e ∈ b.asks, e.Valid
  exchangeSequence : b.exchangeSequence < pow2 64
  exchangeTime : b.exchangeTime.Valid
  receivedTime : b.receivedTime.Valid

/-- The members of the document of a book. -/
def members (b : Book) : List (String × Json) :=
  [("asset_id", .str b.asset),
   ("level", b.level.toJson),
   ("bids", .ofList (fun e => .ofMembers e.members) b.bids),
   ("asks", .ofList (fun e => .ofMembers e.members) b.asks),
   ("exchange_sequence", .ofNat b.exchangeSequence),
   ("exchange_timestamp", .ofInstant b.exchangeTime),
   ("received_timestamp", .ofInstant b.receivedTime)]

theorem settle?_toJson (b : Book) : b.toJson.settle? = some (Json.ofMembers b.members) := by
  have hrows : ∀ rows : List Entry, (Json.ofList Entry.toJson rows).settle? =
      some (Json.ofList (fun e => .ofMembers e.members) rows) :=
    fun rows => Json.settle?_ofList rows fun e _ => e.settle?_toJson
  apply Json.settle?_obj
  simp [Json.settle?.settleMembers?, members, hrows, Level.toJson]

theorem listOf?_rows {rows : List Entry} (h : ∀ e ∈ rows, e.Valid) :
    listOf? Entry.read? (Json.ofList (fun e => .ofMembers e.members) rows) = some rows :=
  listOf?_ofList rows fun e he => Entry.read?_members (h e he)

/-- Reading the document of a book gives the book. -/
theorem read?_document {b : Book} (h : b.Valid) : read? b.toJson.settled = some b := by
  rw [Json.settled_of_settle? b.settle?_toJson]
  obtain ⟨s, hs, -, hget⟩ := Slots.of?_ofMembers
    ["asset_id", "level", "bids", "asks", "exchange_sequence", "exchange_timestamp",
      "received_timestamp"] b.members
  simp [members, KeyMap.lookup_cons_eq] at hget
  simp [read?, hs, Slots.required, Slots.withDefault, hget, text?_str, Level.read?_toJson,
    listOf?_rows h.bids, listOf?_rows h.asks, word?_ofNat h.exchangeSequence,
    instant?_ofInstant h.exchangeTime, instant?_ofInstant h.receivedTime]

end Book

end TradingDesk

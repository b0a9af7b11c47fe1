import TradingDesk.Trading.Executor
import TradingDesk.Proofs.Market.Documents
import TradingDesk.Proofs.Trading.Portfolio
/-!
# State documents

The document of a portfolio says all of the portfolio: whoever reads it has the portfolio again.
-/

namespace TradingDesk

open Source (text? word? instant? decimal? listOf?)

theorem Phase.read?_toJson (p : Phase) : Phase.read? p.toJson = some p := by
  cases p <;> rfl

/-! ### Records -/

def Order.Valid (o : Order) : Prop := o.createdAt.Valid

def Lot.Valid (l : Lot) : Prop := l.openedAt.Valid

def Fill.Valid (f : Fill) : Prop := f.filledAt.Valid

/-- A portfolio whose instants are in the calendar and whose sequences are of 64 bits. -/
structure Portfolio.Valid (p : Portfolio) : Prop where
  lots : ∀ l ∈ p.lots, l.Valid
  evaluated : ∀ e ∈ p.evaluated.pairs, e.2 < pow2 64
  pending : ∀ o ∈ p.pending, o.Valid
  updatedAt : p.updatedAt.Valid

namespace Order

/-- The members of a written order. -/
def members (o : Order) : List (String × Json) :=
  [("client_order_id", .str o.clientId),
   ("portfolio_id", .str o.portfolio),
   ("asset_id", .str o.asset),
   ("side", o.side.toJson),
   ("size", .ofDecimal o.size),
   ("limit_price", .ofOption .ofDecimal o.limit),
   ("reason", .str o.reason),
   ("created_at", .ofInstant o.createdAt)]

theorem settle?_toJson (o : Order) : o.toJson.settle? = some (Json.ofMembers o.members) := by
  have hlimit : (Json.ofOption Json.ofDecimal o.limit).settle? =
      some (Json.ofOption Json.ofDecimal o.limit) :=
    Json.settle?_ofOption o.limit fun a _ => Json.settle?_ofDecimal a
  apply Json.settle?_obj
  simp [Json.settle?.settleMembers?, members, hlimit, Side.toJson]

theorem read?_members {o : Order} (h : o.Valid) : read? (Json.ofMembers o.members) = some o := by
  obtain ⟨s, hs, hlisted, hget⟩ := Slots.of?_ofMembers
    ["client_order_id", "portfolio_id", "asset_id", "side", "size", "limit_price", "reason",
      "created_at"] o.members
  have hlimit : Source.nullable? decimal? (Json.ofOption Json.ofDecimal o.limit) = some o.limit :=
    nullable?_ofOption o.limit (fun a _ => decimal?_ofDecimal a) fun _ _ => rfl
  simp [members, KeyMap.lookup_cons_eq] at hget
  simp [read?, hs, Slots.required, Slots.nullable, Slots.optional, Slots.withDefault, hlisted, hget,
    text?_str, Side.read?_toJson, decimal?_ofDecimal, instant?_ofInstant h, hlimit]

theorem valid_of_read {v : Json} {o : Order} (h : read? v = some o) : o.Valid := by
  obtain ⟨s, -, h⟩ := Option.bind_eq_some_iff.mp h
  obtain ⟨clientId, -, h⟩ := Option.bind_eq_some_iff.mp h
  obtain ⟨portfolio, -, h⟩ := Option.bind_eq_some_iff.mp h
  obtain ⟨asset, -, h⟩ := Option.bind_eq_some_iff.mp h
  obtain ⟨side, -, h⟩ := Option.bind_eq_some_iff.mp h
  obtain ⟨size, -, h⟩ := Option.bind_eq_some_iff.mp h
  obtain ⟨limit, -, h⟩ := Option.bind_eq_some_iff.mp h
  obtain ⟨reason, -, h⟩ := Option.bind_eq_some_iff.mp h
  obtain ⟨createdAt, hcreated, h⟩ := Option.bind_eq_some_iff.mp h
  cases h
  obtain ⟨w, -, hread⟩ := Option.bind_eq_some_iff.mp hcreated
  exact Instant.valid_of_read hread

end Order

namespace Lot

/-- The members of a written lot. -/
def members (l : Lot) : List (String × Json) :=
  [("client_order_id", .str l.clientId),
   ("exchange_order_id", .str l.exchangeId),
   ("size", .ofDecimal l.size),
   ("entry_price", .ofDecimal l.entryPrice),
   ("opened_at", .ofInstant l.openedAt)]

theorem settle?_toJson (l : Lot) : l.toJson.settle? = some (Json.ofMembers l.members) := by
  apply Json.settle?_obj
  simp [Json.settle?.settleMembers?, members]

theorem read?_members {l : Lot} (h : l.Valid) : read? (Json.ofMembers l.members) = some l := by
  obtain ⟨s, hs, -, hget⟩ := Slots.of?_ofMembers
    ["client_order_id", "exchange_order_id", "size", "entry_price", "opened_at"] l.members
  simp [members, KeyMap.lookup_cons_eq] at hget
  simp [read?, hs, Slots.required, hget, text?_str, decimal?_ofDecimal, instant?_ofInstant h]

theorem valid_of_read {v : Json} {l : Lot} (h : read? v = some l) : l.Valid := by
  obtain ⟨s, -, h⟩ := Option.bind_eq_some_iff.mp h
  obtain ⟨clientId, -, h⟩ := Option.bind_eq_some_iff.mp h
  obtain ⟨exchangeId, -, h⟩ := Option.bind_eq_some_iff.mp h
  obtain ⟨size, -, h⟩ := Option.bind_eq_some_iff.mp h
  obtain ⟨entryPrice, -, h⟩ := Option.bind_eq_some_iff.mp h
  obtain ⟨openedAt, hopened, h⟩ := Option.bind_eq_some_iff.mp h
  cases h
  obtain ⟨w, -, hread⟩ := Option.bind_eq_some_iff.mp hopened
  exact Instant.valid_of_read hread

end Lot

namespace Portfolio

/-- The members of a state document. -/
def members (p : Portfolio) : List (String × Json) :=
  [("portfolio_id", .str p.id),
   ("current_phase", p.phase.toJson),
   ("open_position_refs", .ofList (fun l => .ofMembers l.members) p.lots),
   ("last_evaluated_sequence", .obj (p.evaluated.map Json.ofNat).pairs),
   ("pending_order", .ofOption (fun o => .ofMembers o.members) p.pending),
   ("last_exit_price", .ofOption .ofDecimal p.lastExit),
   ("failure_reason", .ofOption .str p.failure),
   ("updated_at", .ofInstant p.updatedAt)]

theorem settle?_toJson (p : Portfolio) : p.toJson.settle? = some (Json.ofMembers p.members) := by
  have hphase : p.phase.toJson.settle? = some p.phase.toJson := by
    cases p.phase <;> exact Json.settle?_str _
  have hlots : (Json.ofList Lot.toJson p.lots).settle? =
      some (Json.ofList (fun l => .ofMembers l.members) p.lots) :=
    Json.settle?_ofList p.lots fun l _ => l.settle?_toJson
  have hevaluated : (Json.obj (p.evaluated.map Json.ofNat).pairs).settle? =
      some (Json.obj (p.evaluated.map Json.ofNat).pairs) :=
    Json.settle?_map p.evaluated Json.settle?_ofNat
  have hpending : (Json.ofOption Order.toJson p.pending).settle? =
      some (Json.ofOption (fun o => .ofMembers o.members) p.pending) :=
    Json.settle?_ofOption p.pending fun o _ => o.settle?_toJson
  have hexit : (Json.ofOption Json.ofDecimal p.lastExit).settle? =
      some (Json.ofOption Json.ofDecimal p.lastExit) :=
    Json.settle?_ofOption p.lastExit fun a _ => Json.settle?_ofDecimal a
  have hfailure : (Json.ofOption Json.str p.failure).settle? =
      some (Json.ofOption Json.str p.failure) :=
    Json.settle?_ofOption p.failure fun s _ => Json.settle?_str s
  apply Json.settle?_obj
  simp [Json.settle?.settleMembers?, members, hphase, hlots, hevaluated, hpending, hexit, hfailure]

theorem readSequences?_map {m : KeyMap Nat} (h : ∀ e ∈ m.pairs, e.2 < pow2 64) :
    readSequences? (Json.obj (m.map Json.ofNat).pairs) = some m := by
  rw [readSequences?, Json.mapOf?_map m fun e he => word?_ofNat (h e he), Option.map_some,
    KeyMap.ofList_pairs]

theorem read?_members {p : Portfolio} (h : p.Valid) :
    read? (Json.ofMembers p.members) = some p := by
  obtain ⟨s, hs, -, hget⟩ := Slots.of?_ofMembers
    ["portfolio_id", "current_phase", "open_position_refs", "last_evaluated_sequence",
      "pending_order", "last_exit_price", "failure_reason", "updated_at"] p.members
  have hlots : listOf? Lot.read? (Json.ofList (fun l => .ofMembers l.members) p.lots) =
      some p.lots :=
    listOf?_ofList p.lots fun l hl => Lot.read?_members (h.lots l hl)
  have hpending : Source.nullable? Order.read?
      (Json.ofOption (fun o => .ofMembers o.members) p.pending) = some p.pending :=
    nullable?_ofOption p.pending (fun o ho => Order.read?_members (h.pending o ho)) fun _ _ => rfl
  have hexit : Source.nullable? decimal? (Json.ofOption Json.ofDecimal p.lastExit) =
      some p.lastExit :=
    nullable?_ofOption p.lastExit (fun a _ => decimal?_ofDecimal a) fun _ _ => rfl
  have hfailure : Source.nullable? text? (Json.ofOption Json.str p.failure) = some p.failure :=
    nullable?_ofOption p.failure (fun s _ => text?_str s) fun _ _ => rfl
  simp [members, KeyMap.lookup_cons_eq] at hget
  simp [read?, hs, Slots.required, Slots.optional, Slots.withDefault, hget, text?_str,
    Phase.read?_toJson, hlots, readSequences?_map h.evaluated, hpending, hexit, hfailure,
    instant?_ofInstant h.updatedAt]

/-- Reading the document of a portfolio gives the portfolio. -/
theorem read?_document {p : Portfolio} (h : p.Valid) : read? p.toJson.settled = some p := by
  rw [Json.settled_of_settle? p.settle?_toJson, read?_members h]

theorem lt_of_readSequences? {v : Json} {m : KeyMap Nat} (h : readSequences? v = some m) :
    ∀ e ∈ m.pairs, e.2 < pow2 64 := by
  obtain ⟨ps, hps, rfl⟩ := Option.map_eq_some_iff.mp h
  intro e he
  obtain ⟨w, hread⟩ := mem_of_mapOf? hps e (KeyMap.mem_of_ofList e he)
  exact lt_of_word? hread

/-- Whatever can be read as a portfolio is a valid one. -/
theorem valid_of_read {v : Json} {p : Portfolio} (h : read? v = some p) : p.Valid := by
  obtain ⟨s, -, h⟩ := Option.bind_eq_some_iff.mp h
  obtain ⟨id, -, h⟩ := Option.bind_eq_some_iff.mp h
  obtain ⟨phase, -, h⟩ := Option.bind_eq_some_iff.mp h
  obtain ⟨lots, hlots, h⟩ := Option.bind_eq_some_iff.mp h
  obtain ⟨evaluated, hevaluated, h⟩ := Option.bind_eq_some_iff.mp h
  obtain ⟨pending, hpending, h⟩ := Option.bind_eq_some_iff.mp h
  obtain ⟨lastExit, -, h⟩ := Option.bind_eq_some_iff.mp h
  obtain ⟨failure, -, h⟩ := Option.bind_eq_some_iff.mp h
  obtain ⟨updatedAt, hupdated, h⟩ := Option.bind_eq_some_iff.mp h
  cases h
  refine ⟨?_, ?_, ?_, ?_⟩
  · rcases Slots.read_of_withDefault hlots with rfl | ⟨w, hread⟩
    · simp
    · intro l hl
      obtain ⟨w', hlot⟩ := mem_of_listOf? hread l hl
      exact Lot.valid_of_read hlot
  · rcases Slots.read_of_withDefault hevaluated with rfl | ⟨w, hread⟩
    · simp [KeyMap.empty]
    · exact lt_of_readSequences? hread
  · intro o ho
    obtain ⟨w, hread⟩ := Slots.read_of_optional hpending o ho
    exact Order.valid_of_read hread
  · obtain ⟨w, -, hread⟩ := Option.bind_eq_some_iff.mp hupdated
    exact Instant.valid_of_read hread

/-! ### Changes of valid states -/

section

variable {p q : Portfolio}

theorem new_valid (id : String) {now : Instant} (hnow : now.Valid) : (new id now).Valid where
  lots := by simp [new]
  evaluated := by simp [new, KeyMap.empty]
  pending := by simp [new]
  updatedAt := hnow

theorem Valid.enter (h : p.Valid) (next : Phase) {now : Instant} (hnow : now.Valid) :
    Valid { p with phase := next, updatedAt := now } :=
  { h with updatedAt := hnow }

theorem Valid.clear (h : p.Valid) : Valid { p with pending := none } :=
  { h with pending := by simp }

theorem Valid.place (h : p.Valid) {order : Order} (horder : order.Valid) :
    Valid { p with pending := some order } :=
  { h with
    pending := by
      rintro _ ⟨⟩
      exact horder }

theorem Valid.giveUp (h : p.Valid) (reason : String) : Valid { p with failure := some reason } :=
  { h with }

theorem Valid.lastEvaluated (h : p.Valid) {collection : String} {n : Nat}
    (hn : p.lastEvaluated? collection = some n) : n < pow2 64 :=
  h.evaluated _ (KeyMap.get?_eq_some_iff.mp hn)

theorem Valid.markEvaluated (h : p.Valid) {e : ChangeEvent} (he : e.sequence < pow2 64) :
    (p.markEvaluated e).Valid := by
  refine { h with evaluated := ?_ }
  rintro ⟨collection, n⟩ hmem
  have hget := KeyMap.get?_eq_some_iff.mpr hmem
  simp only [Portfolio.markEvaluated, KeyMap.get?_insert] at hget
  split at hget
  · cases hlast : p.lastEvaluated? e.collection with
    | none =>
        simp only [hlast, Option.getD_none, Nat.zero_max, Option.some.injEq] at hget
        rw [← hget]
        exact he
    | some last =>
        simp only [hlast, Option.getD_some, Option.some.injEq] at hget
        rw [← hget]
        exact max_lt (h.lastEvaluated hlast) he
  · exact h.lastEvaluated hget

theorem Valid.applyFill? (h : p.Valid) {order : Order} {fill : Fill} (hfill : fill.Valid)
    (hbook : p.applyFill? order fill = some q) : q.Valid := by
  obtain ⟨-, rfl⟩ | ⟨-, lots, hclose, rfl⟩ := applyFill?_cases hbook
  · refine { h with lots := ?_ }
    intro l hl
    rcases List.mem_append.mp hl with hl | hl
    · exact h.lots l hl
    · rw [List.mem_singleton.mp hl]
      exact hfill
  · refine { h with lots := ?_ }
    intro l hl
    obtain ⟨l', hl', heq⟩ := closeLots?_mem hclose l hl
    rw [heq]
    exact h.lots l' hl'

end

end Portfolio

end TradingDesk

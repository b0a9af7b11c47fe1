import TradingDesk.Feed.Message
import TradingDesk.Proofs.Json.Fields
/-!
# Frames that cannot be read

Every text that is no message of the feed is a malformed message, whatever is wrong with it: it is
no JSON, it tells no type, or it is a ticker with a field that is missing, of another kind, or no
number. Only a complaint of the feed whose own fields are of another kind comes out as something
else.
-/

namespace TradingDesk.Feed

/-! ### Frames as they should be -/

def IsText (m : Json) : Prop := ∃ s, m = .str s

/-- A sequence of 64 bits. -/
def IsSequence (m : Json) : Prop := ∃ n : Nat, n < pow2 64 ∧ m = .num (.int n)

def IsTime (m : Json) : Prop := ∃ s, m = .str s ∧ (Instant.ofText? s).isSome = true

/-- The object of a complaint: its message is a text if it is given, and so is its reason, unless
that is null. -/
structure Complaint.Formed (v : Json) : Prop where
  message : ∀ m, v.get? "message" = some m → IsText m
  reason : ∀ m, v.get? "reason" = some m → m = .null ∨ IsText m

/-- What a ticker writes as texts, if it writes it. -/
def Ticker.texts : List String :=
  ["price", "best_bid", "best_bid_size", "best_ask", "best_ask_size", "side", "last_size"]

/-- The object of a ticker. -/
structure Ticker.Formed (v : Json) : Prop where
  product : ∃ m, v.get? "product_id" = some m ∧ IsText m
  sequence : ∀ m, v.get? "sequence" = some m → m = .null ∨ IsSequence m
  texts : ∀ name ∈ Ticker.texts, ∀ m, v.get? name = some m → m = .null ∨ IsText m
  time : ∀ m, v.get? "time" = some m → m = .null ∨ IsTime m

/-- The price that a ticker tells of a side: the side's own, or else that of the last trade. -/
def Ticker.priceOf (t : Ticker) : Side → Option String
  | .buy => t.bestBid <|> t.price
  | .sell => t.bestAsk <|> t.price

def Ticker.sizeOf (t : Ticker) : Side → Option String
  | .buy => t.bestBidSize <|> t.lastSize
  | .sell => t.bestAskSize <|> t.lastSize

def IsAmount (raw : Option String) : Prop := (raw.bind Decimal.ofText?).isSome = true

/-- The ticker tells of a side: when it was so, at what price, and how much. -/
structure Ticker.Tells (t : Ticker) (side : Side) : Prop where
  time : t.time.isSome = true
  price : IsAmount (t.priceOf side)
  size : IsAmount (t.sizeOf side)

/-- A ticker without a side need not tell of one. -/
def Ticker.IsLegible (t : Ticker) : Prop :=
  ∀ name, t.side = some name → ∃ side : Side, side.name = name ∧ t.Tells side

/-- A document that is a message of the feed. -/
def IsLegible (v : Json) : Prop :=
  ∃ type, v.get? "type" = some (.str type) ∧
    (type = "ticker" → Ticker.Formed v ∧ ∀ t, Ticker.read? v = some t → t.IsLegible) ∧
    (type = "error" → Complaint.Formed v)

/-- A complaint of the feed with a field of another kind. -/
def IsGarbledComplaint (v : Json) : Prop :=
  v.get? "type" = some (.str "error") ∧ ¬ Complaint.Formed v

/-! ### Reading fields -/

variable {v m : Json}

theorem text?_isSome_iff : (Source.text? m).isSome = true ↔ IsText m := by
  unfold IsText
  cases m <;> simp [Source.text?, Json.asStr?]

theorem word?_isSome_iff : (Source.word? m).isSome = true ↔ IsSequence m := by
  unfold IsSequence Source.word?
  cases m with
  | num n =>
      cases n with
      | int i =>
          simp only [Source.natBelow?, Option.isSome_ite, Json.num.injEq, Json.Number.int.injEq]
          constructor
          · rintro ⟨hpos, hlt⟩
            exact ⟨i.toNat, by omega, by omega⟩
          · rintro ⟨n, hlt, rfl⟩
            omega
      | float x => simp [Source.natBelow?]
  | _ => simp [Source.natBelow?]

theorem instant?_isSome_iff : (Source.instant? m).isSome = true ↔ IsTime m := by
  unfold IsTime Source.instant?
  cases m <;> simp [Source.text?, Json.asStr?]

theorem Complaint.read?_isSome_iff {ms : List (String × Json)} :
    (Complaint.read? (Json.ofMembers ms)).isSome = true ↔ Formed (Json.ofMembers ms) := by
  obtain ⟨s, hs, hgiven⟩ := Slots.exists_of_ofMembers ["message", "reason"] ms
  have hmessage := Slots.withDefault_isSome_iff Source.text?
    (hgiven "message" (by simp)) ""
  have hreason := Slots.optional_isSome_iff Source.text? (hgiven "reason" (by simp))
  simp only [text?_isSome_iff] at hmessage hreason
  simp only [read?, hs, Option.bind_eq_bind, Option.bind_some, Option.pure_def,
    Option.isSome_bind, Option.isSome_some, Slots.any_const, Bool.and_true, Bool.and_eq_true,
    hmessage, hreason]
  exact ⟨fun h => ⟨h.1, h.2⟩, fun h => ⟨h.message, h.reason⟩⟩

theorem Ticker.read?_isSome_iff {ms : List (String × Json)} :
    (Ticker.read? (Json.ofMembers ms)).isSome = true ↔ Formed (Json.ofMembers ms) := by
  obtain ⟨s, hs, hgiven⟩ := Slots.exists_of_ofMembers ["product_id", "sequence", "price",
    "best_bid", "best_bid_size", "best_ask", "best_ask_size", "side", "last_size", "time"] ms
  have hproduct := Slots.required_isSome_iff Source.text? (hgiven "product_id" (by simp))
  have hsequence := Slots.optional_isSome_iff Source.word? (hgiven "sequence" (by simp))
  have htime := Slots.optional_isSome_iff Source.instant? (hgiven "time" (by simp))
  have htexts : ∀ name ∈ texts, (s.optional name Source.text?).isSome = true ↔
      ∀ m, (Json.ofMembers ms).get? name = some m → m = .null ∨ IsText m := by
    intro name hname
    have hknown : name ∈ ["product_id", "sequence", "price", "best_bid", "best_bid_size",
        "best_ask", "best_ask_size", "side", "last_size", "time"] := by
      revert name
      decide
    simpa only [text?_isSome_iff] using
      Slots.optional_isSome_iff Source.text? (hgiven name hknown)
  simp only [text?_isSome_iff] at hproduct
  simp only [word?_isSome_iff] at hsequence
  simp only [instant?_isSome_iff] at htime
  simp only [read?, hs, Option.bind_eq_bind, Option.bind_some, Option.pure_def,
    Option.isSome_bind, Option.isSome_some, Slots.any_const, Bool.and_true, Bool.and_eq_true,
    hproduct, hsequence, htime]
  constructor
  · rintro ⟨hproduct, hsequence, hprice, hbid, hbidSize, hask, haskSize, hside, hlast, htime⟩
    refine ⟨hproduct, hsequence, fun name hname => (htexts name hname).mp ?_, htime⟩
    simp only [texts, List.mem_cons, List.not_mem_nil, or_false] at hname
    rcases hname with rfl | rfl | rfl | rfl | rfl | rfl | rfl <;> assumption
  · intro h
    have hread := fun name hname => (htexts name hname).mpr (h.texts name hname)
    simp only [texts, List.forall_mem_cons] at hread
    obtain ⟨hprice, hbid, hbidSize, hask, haskSize, hside, hlast, -⟩ := hread
    exact ⟨h.product, h.sequence, hprice, hbid, hbidSize, hask, haskSize, hside, hlast, h.time⟩

/-! ### Reading messages -/

theorem readAmount_of_isAmount {field : String} {raw : Option String} (h : IsAmount raw) :
    ∃ a, readAmount field raw = .ok a := by
  obtain ⟨a, ha⟩ := Option.isSome_iff_exists.mp h
  obtain ⟨text, rfl, htext⟩ := Option.bind_eq_some_iff.mp ha
  exact ⟨a, by rw [readAmount]; simp only [htext]⟩

theorem readAmount_of_not_isAmount {field : String} {raw : Option String} (h : ¬ IsAmount raw) :
    ∃ detail, readAmount field raw = .error (.malformed detail) := by
  cases raw with
  | none => exact ⟨_, rfl⟩
  | some text =>
      have hnone : Decimal.ofText? text = none := by simpa [IsAmount] using h
      rw [readAmount]
      simp only [hnone]
      exact ⟨_, rfl⟩

/-- A reading that ends well, or else in a malformed message. -/
def Tries {α : Type} (p : Prop) (r : Except Fault α) : Prop :=
  (p ∧ ∃ a, r = .ok a) ∨ (¬ p ∧ ∃ detail, r = .error (.malformed detail))

theorem readAmount_tries (field : String) (raw : Option String) :
    Tries (IsAmount raw) (readAmount field raw) := by
  by_cases h : IsAmount raw
  · exact .inl ⟨h, readAmount_of_isAmount h⟩
  · exact .inr ⟨h, readAmount_of_not_isAmount h⟩

theorem Ticker.toHalf_eq (t : Ticker) (side : Side) :
    t.toHalf side = t.time.elim (.error (.malformed "ticker without time")) fun time =>
      readAmount "price" (t.priceOf side) >>= fun price =>
        (readAmount "size" (t.sizeOf side)).map fun size =>
          ⟨Text.upper t.product, side, price, size, time⟩ := by
  unfold toHalf
  cases side <;> cases t.time <;> rfl

theorem Ticker.toHalf_tries (t : Ticker) (side : Side) : Tries (t.Tells side) (t.toHalf side) := by
  rw [toHalf_eq]
  cases htime : t.time with
  | none => exact .inr ⟨fun h => by simpa [htime] using h.time, _, rfl⟩
  | some time =>
      rcases readAmount_tries "price" (t.priceOf side) with
        ⟨hprice, price, hread⟩ | ⟨hprice, detail, hread⟩
      · rcases readAmount_tries "size" (t.sizeOf side) with
          ⟨hsize, size, hread'⟩ | ⟨hsize, detail, hread'⟩
        · exact .inl ⟨⟨by simp [htime], hprice, hsize⟩, _, by rw [hread, hread']; rfl⟩
        · exact .inr ⟨fun h => hsize h.size, detail, by rw [hread, hread']; rfl⟩
      · exact .inr ⟨fun h => hprice h.price, detail, by rw [hread]; rfl⟩

theorem Tries.map {α β : Type} {p : Prop} {r : Except Fault α} (h : Tries p r) (f : α → β) :
    Tries p (r.map f) := by
  rcases h with ⟨hp, a, rfl⟩ | ⟨hp, detail, rfl⟩
  · exact .inl ⟨hp, f a, rfl⟩
  · exact .inr ⟨hp, detail, rfl⟩

theorem Tries.of_iff {α : Type} {p q : Prop} {r : Except Fault α} (h : Tries p r) (hpq : p ↔ q) :
    Tries q r := by
  rwa [Tries, ← hpq]

theorem exists_side_iff {p : Side → Prop} (s : Side) :
    (∃ side : Side, side.name = s.name ∧ p side) ↔ p s := by
  constructor
  · rintro ⟨side, hname, hp⟩
    obtain rfl : side = s := by cases side <;> cases s <;> first | rfl | contradiction
    exact hp
  · exact fun hp => ⟨s, rfl, hp⟩

theorem Ticker.toMessage_tries (t : Ticker) : Tries t.IsLegible t.toMessage := by
  unfold toMessage IsLegible
  cases t.side with
  | none => exact .inl ⟨nofun, _, rfl⟩
  | some name =>
      simp only [Option.some.injEq, forall_eq']
      by_cases hbuy : name = "buy"
      · rw [if_pos hbuy]
        subst hbuy
        exact ((t.toHalf_tries .buy).map _).of_iff (exists_side_iff .buy).symm
      · rw [if_neg hbuy]
        by_cases hsell : name = "sell"
        · rw [if_pos hsell]
          subst hsell
          exact ((t.toHalf_tries .sell).map _).of_iff (exists_side_iff .sell).symm
        · rw [if_neg hsell]
          refine .inr ⟨?_, _, rfl⟩
          rintro ⟨side, rfl, -⟩
          cases side <;> contradiction

theorem exists_ofMembers {text : String} {v m : Json} {key : String}
    (h : Json.readGeneric? text = some v) (hget : v.get? key = some m) :
    ∃ ms, v = Json.ofMembers ms := by
  obtain ⟨w, -, hw⟩ := Option.bind_eq_some_iff.mp h
  split at hw
  · exact Json.eq_ofMembers_of_get? hw hget
  · cases hw

theorem isLegible_iff {v : Json} {type : String} (h : v.get? "type" = some (.str type)) :
    IsLegible v ↔ (type = "ticker" → Ticker.Formed v ∧ ∀ t, Ticker.read? v = some t → t.IsLegible) ∧
      (type = "error" → Complaint.Formed v) := by
  simp [IsLegible, h]

theorem not_isGarbledComplaint {v : Json} {type : String} (h : v.get? "type" = some (.str type))
    (hne : type ≠ "error") : ¬ IsGarbledComplaint v := by
  rintro ⟨herror, -⟩
  rw [h, Option.some.injEq, Json.str.injEq] at herror
  exact hne herror

theorem IsGarbledComplaint.not_isLegible {v : Json} (h : IsGarbledComplaint v) :
    ¬ IsLegible v := by
  rw [isLegible_iff h.1]
  exact fun hlegible => h.2 (hlegible.2 rfl)

theorem Message.ofJson_of_ticker {ms : List (String × Json)}
    (h : (Json.ofMembers ms).get? "type" = some (.str "ticker")) :
    Tries (IsLegible (.ofMembers ms)) (ofJson (.ofMembers ms)) := by
  unfold ofJson
  rw [h]
  have hlegible := isLegible_iff h
  simp only [forall_const, String.reduceEq, false_implies, and_true] at hlegible
  cases hread : Ticker.read? (.ofMembers ms) with
  | none =>
      have hformed : ¬ Ticker.Formed (.ofMembers ms) := by
        rw [← Ticker.read?_isSome_iff, hread]
        exact Bool.false_ne_true
      exact .inr ⟨fun h => hformed (hlegible.mp h).1, _, rfl⟩
  | some t =>
      have hformed : Ticker.Formed (.ofMembers ms) := by
        rw [← Ticker.read?_isSome_iff, hread]
        rfl
      apply t.toMessage_tries.of_iff
      rw [hlegible, hread]
      simp [hformed]

theorem Message.ofJson_of_complaint {ms : List (String × Json)}
    (h : (Json.ofMembers ms).get? "type" = some (.str "error")) :
    (IsGarbledComplaint (.ofMembers ms) ∧ ofJson (.ofMembers ms) = .error .json) ∨
      (¬ IsGarbledComplaint (.ofMembers ms) ∧
        Tries (IsLegible (.ofMembers ms)) (ofJson (.ofMembers ms))) := by
  unfold ofJson
  rw [h]
  cases hread : Complaint.read? (.ofMembers ms) with
  | none =>
      have hformed : ¬ Complaint.Formed (.ofMembers ms) := by
        rw [← Complaint.read?_isSome_iff, hread]
        exact Bool.false_ne_true
      exact .inl ⟨⟨h, hformed⟩, rfl⟩
  | some c =>
      have hformed : Complaint.Formed (.ofMembers ms) := by
        rw [← Complaint.read?_isSome_iff, hread]
        rfl
      have hlegible : IsLegible (.ofMembers ms) := by
        rw [isLegible_iff h]
        exact ⟨fun hticker => by contradiction, fun _ => hformed⟩
      exact .inr ⟨fun hgarbled => hgarbled.2 hformed, .inl ⟨hlegible, _, rfl⟩⟩

/-- Messages of all other types tell nothing but their type. -/
theorem Message.ofJson_of_notice {v : Json} {type : String} (h : v.get? "type" = some (.str type))
    (hticker : type ≠ "ticker") (herror : type ≠ "error") : ∃ m, ofJson v = .ok m := by
  unfold ofJson
  rw [h]
  split
  · next heq => exact absurd (Json.str.inj (Option.some.inj heq)) hticker
  · exact ⟨_, rfl⟩
  · exact ⟨_, rfl⟩
  · next heq => exact absurd (Json.str.inj (Option.some.inj heq)) herror
  · exact ⟨_, rfl⟩
  · next hother => exact absurd rfl (hother type)

theorem Message.ofJson_of_untyped {v : Json} (h : ∀ type, v.get? "type" ≠ some (.str type)) :
    ofJson v = .error (.malformed "missing type field") := by
  unfold ofJson
  split
  case h_6 => rfl
  all_goals exact absurd ‹_› (h _)

/-- A document is read as a message if it is one, and is malformed if not, unless it is a complaint
with a field of another kind. -/
theorem Message.ofJson_cases {text : String} {v : Json} (hread : Json.readGeneric? text = some v) :
    (IsGarbledComplaint v ∧ ofJson v = .error .json) ∨
      (¬ IsGarbledComplaint v ∧ Tries (IsLegible v) (ofJson v)) := by
  by_cases htyped : ∃ type, v.get? "type" = some (.str type)
  · obtain ⟨type, htype⟩ := htyped
    obtain ⟨ms, rfl⟩ := exists_ofMembers hread htype
    by_cases hticker : type = "ticker"
    · subst hticker
      exact .inr ⟨not_isGarbledComplaint htype (by decide), ofJson_of_ticker htype⟩
    · by_cases herror : type = "error"
      · subst herror
        exact ofJson_of_complaint htype
      · have hlegible : IsLegible (.ofMembers ms) := by
          rw [isLegible_iff htype]
          exact ⟨fun h => absurd h hticker, fun h => absurd h herror⟩
        exact .inr ⟨not_isGarbledComplaint htype herror,
          .inl ⟨hlegible, ofJson_of_notice htype hticker herror⟩⟩
  · have huntyped := not_exists.mp htyped
    exact .inr ⟨fun h => huntyped _ h.1,
      .inr ⟨fun ⟨type, htype, _⟩ => huntyped type htype, _, ofJson_of_untyped huntyped⟩⟩

/-- A text is a message of the feed exactly if it is the JSON of one. Any other text is a malformed
message exactly if it is no complaint with a field of another kind; such a complaint is never
one. -/
theorem unread_frame_is_malformed_iff (text : String) :
    ((∃ m, Message.ofText text = .ok m) ↔
      ∃ v, Json.readGeneric? text = some v ∧ IsLegible v) ∧
    (∀ fault, Message.ofText text = .error fault →
      ((∃ detail, fault = .malformed detail) ↔
        ¬ ∃ v, Json.readGeneric? text = some v ∧ IsGarbledComplaint v)) ∧
    ((∃ v, Json.readGeneric? text = some v ∧ IsGarbledComplaint v) →
      Message.ofText text = .error .json) := by
  unfold Message.ofText
  cases hread : Json.readGeneric? text with
  | none => simp
  | some v =>
      simp only [Option.some.injEq, exists_eq_left']
      rcases Message.ofJson_cases hread with ⟨hgarbled, hjson⟩ | ⟨hsound, htries⟩
      · simp [hjson, hgarbled, hgarbled.not_isLegible]
      · rcases htries with ⟨hlegible, m, hok⟩ | ⟨hlegible, detail, herror⟩
        · simp [hok, hlegible, hsound]
        · simp [herror, hlegible, hsound]

/-- A complaint of the feed whose message is a number is no malformed message. -/
theorem numbered_complaint_is_not_malformed :
    ∃ fault, Message.ofText "\x7b\"type\": \"error\", \"message\": 5\x7d" = .error fault ∧
      ∀ detail, fault ≠ .malformed detail :=
  ⟨.json, by decide +kernel, nofun⟩

end TradingDesk.Feed

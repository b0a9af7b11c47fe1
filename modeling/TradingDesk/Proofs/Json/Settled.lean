import TradingDesk.Json.Record
import TradingDesk.Proofs.Decimal.RoundTrip
import TradingDesk.Proofs.Instant.RoundTrip
import TradingDesk.Proofs.KeyMap
/-!
# Reading settled documents

A settled object holds for each key the last value that was written for it, and none of its keys is
given twice. So a record is read from it by the names of its fields.
-/

namespace TradingDesk

namespace Json

variable {α : Type}

/-! ### Settling -/

@[simp] theorem settle?_str (s : String) : (Json.str s).settle? = some (.str s) := by
  simp [settle?]

@[simp] theorem settle?_num (n : Number) : (Json.num n).settle? = some (.num n) := by
  simp [settle?]

@[simp] theorem settle?_ofNat (n : Nat) : (ofNat n).settle? = some (ofNat n) :=
  settle?_num _

@[simp] theorem settle?_ofDecimal (a : Decimal) : (ofDecimal a).settle? = some (ofDecimal a) :=
  settle?_str _

@[simp] theorem settle?_ofInstant (t : Instant) : (ofInstant t).settle? = some (ofInstant t) :=
  settle?_str _

theorem settle?_ofOption {f g : α → Json} (o : Option α)
    (h : ∀ a ∈ o, (f a).settle? = some (g a)) :
    (ofOption f o).settle? = some (ofOption g o) := by
  cases o with
  | none => simp [ofOption, settle?]
  | some a => exact h a rfl

theorem settle?_ofList {f g : α → Json} (xs : List α)
    (h : ∀ a ∈ xs, (f a).settle? = some (g a)) :
    (ofList f xs).settle? = some (ofList g xs) := by
  have hitems : settle?.settleItems? (xs.map f) = some (xs.map g) := by
    induction xs with
    | nil => simp [settle?.settleItems?]
    | cons a rest ih =>
      have hrest := ih fun b hb => h b (List.mem_cons_of_mem a hb)
      simp [settle?.settleItems?, h a List.mem_cons_self, hrest]
  simp [ofList, settle?, hitems]

/-- An object is settled member by member. -/
theorem settle?_obj {ms settled : List (String × Json)}
    (h : settle?.settleMembers? ms = some settled) :
    (Json.obj ms).settle? = some (ofMembers settled) := by
  simp [settle?, h]

theorem settleMembers?_cons {k : String} {v w : Json} {ms settled : List (String × Json)}
    (hv : v.settle? = some w) (hms : settle?.settleMembers? ms = some settled) :
    settle?.settleMembers? ((k, v) :: ms) = some ((k, w) :: settled) := by
  simp [settle?.settleMembers?, hv, hms]

theorem settleMembers?_nil : settle?.settleMembers? [] = some [] := by
  simp [settle?.settleMembers?]

/-- A map is settled as it is. -/
theorem settle?_map {f : α → Json} (m : KeyMap α) (h : ∀ a, (f a).settle? = some (f a)) :
    (Json.obj (m.map f).pairs).settle? = some (.obj (m.map f).pairs) := by
  have hmembers : ∀ ps : List (String × α),
      settle?.settleMembers? (ps.map fun p => (p.1, f p.2)) =
        some (ps.map fun p => (p.1, f p.2)) := by
    intro ps
    induction ps with
    | nil => exact settleMembers?_nil
    | cons p rest ih => exact settleMembers?_cons (h p.2) ih
  have hsame : ofMembers (m.map f).pairs = .obj (m.map f).pairs :=
    congrArg Json.obj (congrArg KeyMap.pairs (KeyMap.ofList_pairs (m.map f)))
  exact (settle?_obj (hmembers m.pairs)).trans (congrArg some hsame)

theorem settled_of_settle? {v w : Json} (h : v.settle? = some w) : v.settled = w := by
  rw [settled, h, Option.getD_some]

/-! ### Reading maps -/

theorem foldl_replace_of_nodup (ps acc : List (String × α))
    (h : ((acc ++ ps).map (·.1)).Nodup) :
    ps.foldl (fun acc p => acc.filter (·.1 != p.1) ++ [(p.1, p.2)]) acc = acc ++ ps := by
  induction ps generalizing acc with
  | nil => simp
  | cons p rest ih =>
    have hkeep : acc.filter (·.1 != p.1) = acc := by
      apply List.filter_eq_self.mpr
      intro q hq
      have hne : q.1 ≠ p.1 := by
        rw [List.map_append, List.nodup_append] at h
        exact h.2.2 q.1 (List.mem_map_of_mem hq) p.1 (by simp)
      simpa using hne
    have hnext : ((acc ++ [p] ++ rest).map (·.1)).Nodup := by simpa using h
    rw [List.foldl_cons, hkeep, ih _ hnext, List.append_assoc, List.singleton_append]

/-- A written map is read back. -/
theorem mapOf?_map {f : α → Json} {read : Json → Option α} (m : KeyMap α)
    (h : ∀ p ∈ m.pairs, read (f p.2) = some p.2) :
    mapOf? read (Json.obj (m.map f).pairs) = some m.pairs := by
  have hread : ∀ ps : List (String × α), (∀ p ∈ ps, read (f p.2) = some p.2) →
      (ps.map fun p => (p.1, f p.2)).mapM (fun p => (read p.2).map (p.1, ·)) = some ps := by
    intro ps hps
    induction ps with
    | nil => rfl
    | cons p rest ih =>
      have hrest := ih fun q hq => hps q (List.mem_cons_of_mem p hq)
      simp [hps p List.mem_cons_self, hrest]
  have hfold := foldl_replace_of_nodup m.pairs [] (by simpa using m.nodup_keys)
  simp only [mapOf?, Source.members?, Option.bind_eq_bind, Option.bind_some, KeyMap.map,
    hread m.pairs h]
  simpa using hfold

end Json

/-! ### Reading records -/

/-- The fields of a record in a settled object: what was last written under their names. -/
theorem Slots.of?_ofMembers (names : List String) (ms : List (String × Json)) :
    ∃ s : Slots Json, Slots.of? names (Json.ofMembers ms) = some s ∧ s.listed = false ∧
      ∀ name ∈ names, s.given.lookup name = ms.reverse.lookup name := by
  refine ⟨{ given := (KeyMap.ofList ms).pairs.filter (names.contains ·.1), listed := false },
    ?_, rfl, ?_⟩
  · have hnodup : (((KeyMap.ofList ms).pairs.filter (names.contains ·.1)).map (·.1)).Nodup :=
      (KeyMap.nodup_keys _).sublist (List.filter_sublist.map _)
    exact if_pos hnodup
  · intro name hname
    have hkeep : names.contains name = true := List.contains_iff_mem.mpr hname
    exact (KeyMap.lookup_filter_key names.contains hkeep _).trans (KeyMap.get?_ofList ms name)

/-! ### Reading plain values -/

section

open Source (text? word? instant? decimal? listOf?)

theorem text?_str (s : String) : text? (Json.str s) = some s := rfl

theorem decimal?_str (s : String) : decimal? (Json.str s) = Decimal.ofText? s := rfl

theorem decimal?_ofDecimal (a : Decimal) : decimal? (Json.ofDecimal a) = some a := by
  rw [Json.ofDecimal, decimal?_str, Decimal.ofText?_toText]

theorem instant?_str (s : String) : instant? (Json.str s) = Instant.ofText? s := rfl

theorem instant?_ofInstant {t : Instant} (h : t.Valid) : instant? (Json.ofInstant t) = some t := by
  rw [Json.ofInstant, instant?_str, Instant.ofText?_toText h]

theorem natBelow?_ofNat {bound n : Nat} (h : n < bound) :
    Source.natBelow? bound (Json.ofNat n) = some n :=
  if_pos ⟨Int.natCast_nonneg n, Int.ofNat_lt.mpr h⟩

theorem word?_ofNat {n : Nat} (h : n < pow2 64) : word? (Json.ofNat n) = some n := by
  rw [word?]
  exact natBelow?_ofNat h

theorem nullable?_ofOption {α : Type} {f : α → Json} {read : Json → Option α} (o : Option α)
    (h : ∀ a ∈ o, read (f a) = some a) (hnull : ∀ a ∈ o, Source.isNull (f a) = false) :
    Source.nullable? read (Json.ofOption f o) = some o := by
  cases o with
  | none => rfl
  | some a => simp [Json.ofOption, Source.nullable?, hnull a rfl, h a rfl]

/-- A field that was left out just when there is nothing to tell. -/
theorem Slots.optional_of_lookup {α : Type} {s : Slots Json} {name : String} {f : α → Json}
    {read : Json → Option α} (o : Option α) (hlookup : s.given.lookup name = o.map f)
    (h : ∀ a ∈ o, read (f a) = some a) (hnull : ∀ a ∈ o, Source.isNull (f a) = false) :
    s.optional name read = some o := by
  cases o with
  | none => simp [Slots.optional, Slots.withDefault, hlookup]
  | some a =>
      simp [Slots.optional, Slots.withDefault, hlookup, Source.nullable?, hnull a rfl, h a rfl]

theorem listOf?_ofList {α : Type} {f : α → Json} {read : Json → Option α} (xs : List α)
    (h : ∀ a ∈ xs, read (f a) = some a) :
    listOf? read (Json.ofList f xs) = some xs := by
  have hread : (xs.map f).mapM read = some xs := by
    induction xs with
    | nil => rfl
    | cons a rest ih =>
      have hrest := ih fun b hb => h b (List.mem_cons_of_mem a hb)
      simp [h a List.mem_cons_self, hrest]
  simpa [listOf?, Json.ofList, Source.list?, Json.asList?] using hread

end

/-! ### What was read -/

section

open Source (word? instant? listOf? nullable?)

variable {α : Type} {read : Json → Option α} {v : Json}

theorem Instant.valid_of_read {t : Instant} (h : instant? v = some t) : t.Valid := by
  obtain ⟨text, -, htext⟩ := Option.bind_eq_some_iff.mp h
  exact valid_of_ofText? htext

theorem lt_of_word? {n : Nat} (h : word? v = some n) : n < pow2 64 := by
  unfold word? Source.natBelow? Json.instSource at h
  simp only at h
  split at h
  · split at h
    · next i hi =>
        cases h
        omega
    · cases h
  · cases h

theorem read_of_nullable? {o : Option α} (h : nullable? read v = some o) :
    ∀ a ∈ o, read v = some a := by
  rintro a rfl
  unfold nullable? at h
  split at h
  · cases h
  · obtain ⟨b, hread, heq⟩ := Option.map_eq_some_iff.mp h
    cases heq
    exact hread

theorem Slots.read_of_withDefault {s : Slots Json} {name : String} {default a : α}
    (h : s.withDefault name read default = some a) : a = default ∨ ∃ v, read v = some a := by
  unfold withDefault at h
  split at h
  · exact .inr ⟨_, h⟩
  · exact .inl (Option.some.inj h).symm

theorem Slots.read_of_optional {s : Slots Json} {name : String} {o : Option α}
    (h : s.optional name read = some o) : ∀ a ∈ o, ∃ v, read v = some a := by
  intro a ha
  rcases Slots.read_of_withDefault h with rfl | ⟨v, hread⟩
  · contradiction
  · exact ⟨v, read_of_nullable? hread a ha⟩

theorem mem_of_mapM {β : Type} {f : β → Option α} {ws : List β} {xs : List α}
    (h : ws.mapM f = some xs) : ∀ x ∈ xs, ∃ w ∈ ws, f w = some x := by
  induction ws generalizing xs with
  | nil =>
      cases h
      simp
  | cons w rest ih =>
      simp only [List.mapM_cons, Option.bind_eq_bind, Option.bind_eq_some_iff, Option.pure_def,
        Option.some.injEq] at h
      obtain ⟨x, hx, xs, hrest, rfl⟩ := h
      intro y hy
      rcases List.mem_cons.mp hy with rfl | hy
      · exact ⟨w, List.mem_cons_self, hx⟩
      · obtain ⟨w', hw', hread⟩ := ih hrest y hy
        exact ⟨w', List.mem_cons_of_mem w hw', hread⟩

theorem mem_of_listOf? {xs : List α} (h : listOf? read v = some xs) :
    ∀ x ∈ xs, ∃ w, read w = some x := by
  obtain ⟨ws, -, hxs⟩ := Option.bind_eq_some_iff.mp h
  intro x hx
  obtain ⟨w, -, hw⟩ := mem_of_mapM hxs x hx
  exact ⟨w, hw⟩

theorem mem_of_foldl_replace (ps acc : List (String × α)) :
    ∀ p ∈ ps.foldl (fun acc p => acc.filter (·.1 != p.1) ++ [(p.1, p.2)]) acc,
      p ∈ acc ∨ p ∈ ps := by
  induction ps generalizing acc with
  | nil => exact fun p hp => .inl hp
  | cons p rest ih =>
      intro q hq
      rcases ih _ q hq with hq | hq
      · rcases List.mem_append.mp hq with hq | hq
        · exact .inl (List.mem_filter.mp hq).1
        · exact .inr (by simp [List.mem_singleton.mp hq])
      · exact .inr (List.mem_cons_of_mem p hq)

theorem mem_of_mapOf? {ps : List (String × α)} (h : Json.mapOf? read v = some ps) :
    ∀ p ∈ ps, ∃ w, read w = some p.2 := by
  obtain ⟨members, -, h⟩ := Option.bind_eq_some_iff.mp h
  obtain ⟨pairs, hpairs, h⟩ := Option.bind_eq_some_iff.mp h
  cases h
  intro p hp
  rcases mem_of_foldl_replace pairs [] p hp with hp | hp
  · cases hp
  · obtain ⟨⟨key, w⟩, -, hread⟩ := mem_of_mapM hpairs p hp
    obtain ⟨a, ha, rfl⟩ := Option.map_eq_some_iff.mp hread
    exact ⟨w, ha⟩

end

end TradingDesk

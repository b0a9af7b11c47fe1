import TradingDesk.KeyMap
import Mathlib.Tactic
/-!
# Maps ordered by key, by what they hold

What a map holds for a key after pairs were put into it: of repeated keys the last. A map is made of
its own pairs again.
-/

namespace TradingDesk.KeyMap

variable {α : Type}

theorem ext {m n : KeyMap α} (h : m.pairs = n.pairs) : m = n := by
  cases m
  cases n
  cases h
  rfl

theorem lookup_cons_eq (k : String) (p : String × α) (ps : List (String × α)) :
    (p :: ps).lookup k = if k = p.1 then some p.2 else ps.lookup k := by
  obtain ⟨key, value⟩ := p
  rw [List.lookup_cons]
  by_cases h : k = key
  · rw [beq_iff_eq.mpr h, if_pos h]
  · rw [beq_eq_false_iff_ne.mpr h, if_neg h]

theorem lookup_filter_key (keep : String → Bool) {k : String} (hk : keep k = true)
    (ps : List (String × α)) : (ps.filter fun p => keep p.1).lookup k = ps.lookup k := by
  induction ps with
  | nil => rfl
  | cons p rest ih =>
    rw [List.filter_cons, lookup_cons_eq]
    by_cases heq : k = p.1
    · rw [if_pos (heq ▸ hk), lookup_cons_eq, if_pos heq, if_pos heq]
    · rw [if_neg heq]
      split
      · rw [lookup_cons_eq, if_neg heq, ih]
      · exact ih

/-- A pair that takes the place of those with its key. -/
theorem lookup_replace {κ β : Type} [BEq κ] [LawfulBEq κ] (k key : κ) (value : β)
    (ps : List (κ × β)) :
    ((key, value) :: ps.filter fun p => p.1 != key).lookup k =
      if k == key then some value else ps.lookup k := by
  rw [List.lookup_cons]
  by_cases heq : k == key
  · simp only [heq, if_true]
  · simp only [heq]
    induction ps with
    | nil => rfl
    | cons p rest ih =>
      rw [List.filter_cons, List.lookup_cons]
      by_cases hp : p.1 == key
      · have hk : (k == p.1) = false := by
          rw [eq_of_beq hp]
          simpa using heq
        simpa [bne, hp, hk] using ih
      · rw [if_pos (by simp [bne, hp]), List.lookup_cons]
        split
        · rfl
        · simpa using ih

theorem lookup_insertPair (key k : String) (value : α) (ps : List (String × α)) :
    (insertPair key value ps).lookup k = if k = key then some value else ps.lookup k := by
  induction ps with
  | nil => simp [insertPair, lookup_cons_eq]
  | cons p rest ih =>
    unfold insertPair
    by_cases hlt : key < p.1
    · simp only [hlt, if_true, lookup_cons_eq]
    · by_cases heq : key = p.1
      · rw [if_neg hlt, if_pos heq, lookup_cons_eq, lookup_cons_eq, heq]
        split <;> rfl
      · simp only [hlt, if_false, heq, lookup_cons_eq, ih]
        by_cases hq : k = p.1
        · simp [hq, Ne.symm heq]
        · simp [hq]

@[simp] theorem get?_empty (k : String) : (empty : KeyMap α).get? k = none := rfl

theorem get?_insert (m : KeyMap α) (key k : String) (value : α) :
    (m.insert key value).get? k = if k = key then some value else m.get? k :=
  lookup_insertPair key k value m.pairs

@[simp] theorem get?_insert_self (m : KeyMap α) (key : String) (value : α) :
    (m.insert key value).get? key = some value := by
  rw [get?_insert, if_pos rfl]

theorem get?_insert_of_ne (m : KeyMap α) {key k : String} (h : k ≠ key) (value : α) :
    (m.insert key value).get? k = m.get? k := by
  rw [get?_insert, if_neg h]

/-! ### Maps made of pairs -/

theorem get?_foldl_insert (ps : List (String × α)) (m : KeyMap α) (k : String) :
    (ps.foldl (fun m p => m.insert p.1 p.2) m).get? k = (ps.reverse.lookup k).or (m.get? k) := by
  induction ps generalizing m with
  | nil => simp
  | cons p rest ih =>
    rw [List.foldl_cons, ih, get?_insert, List.reverse_cons, List.lookup_append]
    have hsingle : [p].lookup k = if k = p.1 then some p.2 else none := lookup_cons_eq k p []
    rw [hsingle, Option.or_assoc]
    split <;> simp

theorem get?_ofList (ps : List (String × α)) (k : String) :
    (ofList ps).get? k = ps.reverse.lookup k := by
  have h := get?_foldl_insert ps empty k
  rwa [get?_empty, Option.or_none] at h

/-- A pair with a key behind all others is put at the end. -/
theorem insertPair_of_lt {key : String} (value : α) {ps : List (String × α)}
    (h : ∀ p ∈ ps, p.1 < key) : insertPair key value ps = ps ++ [(key, value)] := by
  induction ps with
  | nil => rfl
  | cons p rest ih =>
    have hp := h p List.mem_cons_self
    have hnot : ¬ key < p.1 := String.lt_asymm hp
    have hne : key ≠ p.1 := fun heq => String.lt_irrefl _ (heq ▸ hp)
    rw [insertPair, if_neg hnot, if_neg hne, ih fun q hq => h q (List.mem_cons_of_mem p hq)]
    rfl

theorem pairs_foldl_insert (ps : List (String × α)) (m : KeyMap α)
    (h : (m.pairs ++ ps).Pairwise (fun a b => a.1 < b.1)) :
    (ps.foldl (fun m p => m.insert p.1 p.2) m).pairs = m.pairs ++ ps := by
  induction ps generalizing m with
  | nil => simp
  | cons p rest ih =>
    have hlt : ∀ q ∈ m.pairs, q.1 < p.1 := fun q hq =>
      (List.pairwise_append.mp h).2.2 q hq p List.mem_cons_self
    have hinsert : (m.insert p.1 p.2).pairs = m.pairs ++ [p] := insertPair_of_lt p.2 hlt
    have hordered : ((m.insert p.1 p.2).pairs ++ rest).Pairwise (fun a b => a.1 < b.1) := by
      rw [hinsert]
      simpa using h
    rw [List.foldl_cons, ih _ hordered, hinsert, List.append_assoc, List.singleton_append]

theorem ofList_pairs (m : KeyMap α) : ofList m.pairs = m := by
  apply ext
  exact pairs_foldl_insert m.pairs empty (by simpa [empty] using m.ordered)

theorem nodup_keys (m : KeyMap α) : (m.pairs.map (·.1)).Nodup := by
  rw [List.Nodup, List.pairwise_map]
  apply m.ordered.imp
  intro a b hlt heq
  rw [heq] at hlt
  exact String.lt_irrefl _ hlt

theorem lookup_eq_some_iff {κ β : Type} [BEq κ] [LawfulBEq κ] {ps : List (κ × β)}
    (hnodup : (ps.map (·.1)).Nodup) {k : κ} {a : β} : ps.lookup k = some a ↔ (k, a) ∈ ps := by
  induction ps with
  | nil => simp
  | cons p rest ih =>
    rw [List.map_cons, List.nodup_cons] at hnodup
    rw [List.lookup_cons, List.mem_cons]
    by_cases heq : k = p.1
    · have hnot : (k, a) ∉ rest := fun hmem =>
        hnodup.1 (List.mem_map.mpr ⟨(k, a), hmem, heq⟩)
      rw [beq_iff_eq.mpr heq, or_iff_left hnot, Option.some.injEq, Prod.ext_iff]
      exact ⟨fun ha => ⟨heq, ha.symm⟩, fun h => h.2.symm⟩
    · have hne : (k, a) ≠ p := fun h => heq (congrArg Prod.fst h)
      rw [beq_eq_false_iff_ne.mpr heq, or_iff_right hne]
      exact ih hnodup.2

/-- The pairs of a map are what it holds. -/
theorem get?_eq_some_iff {m : KeyMap α} {k : String} {a : α} :
    m.get? k = some a ↔ (k, a) ∈ m.pairs :=
  lookup_eq_some_iff m.nodup_keys

theorem mem_of_ofList {ps : List (String × α)} : ∀ p ∈ (ofList ps).pairs, p ∈ ps := by
  rintro ⟨key, a⟩ hp
  have hget := get?_eq_some_iff.mpr hp
  rw [get?_ofList] at hget
  obtain ⟨before, after, heq, -⟩ := List.lookup_eq_some_iff.mp hget
  exact List.mem_reverse.mp (heq ▸ List.mem_append_right before List.mem_cons_self)

end TradingDesk.KeyMap

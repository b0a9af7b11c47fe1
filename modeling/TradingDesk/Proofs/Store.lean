import TradingDesk.Proofs.KeyMap
import TradingDesk.Proofs.Watcher.Polls
/-!
# Numbered documents

The documents of a collection bear the numbers from one on, in their order, and whatever is written
keeps those that are there. So a query for what lies behind a sequence leaves nothing out.
-/

namespace TradingDesk
namespace Store

variable {s s' : Store}

/-! ### Sequences -/

/-- Each document stands in its collection, at the place that its sequence says. -/
def Numbered (s : Store) : Prop :=
  ∀ collection i d, (s.documents collection)[i]? = some d →
    d.collection = collection ∧ d.sequence = i + 1

theorem numbered_empty : Numbered {} := by
  intro collection i d hd
  simp [documents, log] at hd

theorem Numbered.collection_eq (h : s.Numbered) {d : Document} (hd : d ∈ s.documents collection) :
    d.collection = collection := by
  obtain ⟨i, hi⟩ := List.mem_iff_getElem?.mp hd
  exact (h collection i d hi).1

theorem Numbered.sequences (h : s.Numbered) (collection : String) :
    (s.documents collection).map (·.sequence) = List.range' 1 (s.head collection) := by
  apply List.ext_getElem?
  intro i
  rw [List.getElem?_map]
  by_cases hlt : i < s.head collection
  · have hd := List.getElem?_eq_getElem hlt
    have hsequence := (h collection i _ hd).2
    rw [hd, List.getElem?_range' hlt, Option.map_some, hsequence, Nat.one_mul, Nat.add_comm]
  · have hle : s.head collection ≤ i := Nat.le_of_not_lt hlt
    rw [List.getElem?_eq_none hle, List.getElem?_eq_none (by simpa using hle), Option.map_none]

theorem Numbered.nodup (h : s.Numbered) (collection : String) :
    ((s.documents collection).map (·.sequence)).Nodup := by
  rw [h.sequences]
  exact List.nodup_range'

theorem Numbered.ordered (h : s.Numbered) (collection : String) :
    (s.documents collection).Pairwise fun a b => a.sequence < b.sequence := by
  have hlt := List.pairwise_lt_range' (s := 1) (n := s.head collection)
  rw [← h.sequences collection, List.pairwise_map] at hlt
  exact hlt

/-- Skipping as many documents as a sequence says leaves those behind it. -/
theorem Numbered.drop_eq (h : s.Numbered) (collection : String) (n : Nat) :
    (s.documents collection).drop n =
      (s.documents collection).filter fun d => decide (n < d.sequence) := by
  have hbefore : ∀ d ∈ (s.documents collection).take n, ¬ n < d.sequence := by
    intro d hd
    obtain ⟨i, hi⟩ := List.mem_iff_getElem?.mp hd
    rw [List.getElem?_take] at hi
    split at hi
    · have hsequence := (h collection i d hi).2
      omega
    · contradiction
  have hbehind : ∀ d ∈ (s.documents collection).drop n, n < d.sequence := by
    intro d hd
    obtain ⟨i, hi⟩ := List.mem_iff_getElem?.mp hd
    rw [List.getElem?_drop] at hi
    have hsequence := (h collection (n + i) d hi).2
    omega
  have hsplit := List.take_append_drop n (s.documents collection)
  calc (s.documents collection).drop n
      = ((s.documents collection).take n ++ (s.documents collection).drop n).filter
          fun d => decide (n < d.sequence) := by
        rw [List.filter_append, List.filter_eq_nil_iff.mpr (by simpa using hbefore),
          List.filter_eq_self.mpr (by simpa using hbehind), List.nil_append]
    _ = _ := by rw [hsplit]

theorem Numbered.firstAnswers_after (h : s.Numbered) (collection : String) (n limit : Nat) :
    Watcher.FirstAnswers (s.documents collection) n limit (s.after collection n limit) := by
  unfold after
  rw [h.drop_eq]
  exact Watcher.firstAnswers_filter (h.ordered collection) n limit

/-! ### Writes -/

/-- The documents of the first store stand at the beginnings of the collections of the second. -/
def Extends (s s' : Store) : Prop :=
  ∀ collection, s.documents collection <+: s'.documents collection

theorem Extends.refl (s : Store) : s.Extends s := fun _ => List.prefix_rfl

theorem log_commit (s : Store) (d : Document) (collection : String) :
    (s.commit d).log collection =
      if collection = d.collection then (s.log collection).push d else s.log collection := by
  unfold commit
  rw [log, KeyMap.lookup_cons_eq]
  by_cases heq : collection = d.collection
  · rw [if_pos heq, if_pos heq, heq]
    rfl
  · have hkeep : (collection != d.collection) = true := by simpa using heq
    rw [if_neg heq, if_neg heq,
      KeyMap.lookup_filter_key (fun name => name != d.collection) hkeep, log]

theorem documents_commit (s : Store) (d : Document) (collection : String) :
    (s.commit d).documents collection =
      if collection = d.collection then s.documents collection ++ [d]
      else s.documents collection := by
  unfold documents
  rw [log_commit]
  split <;> rfl

/-- What an append does to the collections: nothing, or it adds the next document to one. -/
theorem append_cases (s : Store) (collection id : String) (body : Json) (now : Instant) :
    (∀ c, (s.append collection id body now).2.documents c = s.documents c) ∨
      ∃ d : Document, d.collection = collection ∧ d.sequence = s.head collection + 1 ∧
        ∀ c, (s.append collection id body now).2.documents c =
          if c = collection then s.documents c ++ [d] else s.documents c := by
  unfold append
  split
  · exact .inl fun _ => rfl
  · split
    · exact .inl fun _ => rfl
    · refine .inr ⟨⟨collection, s.head collection + 1, id, body, now⟩, rfl, rfl, fun c => ?_⟩
      exact documents_commit s _ c

theorem documents_upsert (s : Store) (collection id : String) (body : Json) (c : String) :
    (s.upsert collection id body).2.documents c = s.documents c := by
  unfold upsert
  split <;> rfl

theorem extends_append (s : Store) (collection id : String) (body : Json) (now : Instant) :
    s.Extends (s.append collection id body now).2 := by
  intro c
  rcases s.append_cases collection id body now with hsame | ⟨d, -, -, hdocuments⟩
  · rw [hsame]
  · rw [hdocuments]
    split
    · exact List.prefix_append _ _
    · exact List.prefix_rfl

theorem Numbered.of_documents (h : s.Numbered) (hsame : ∀ c, s'.documents c = s.documents c) :
    s'.Numbered := by
  intro c i d hd
  rw [hsame] at hd
  exact h c i d hd

theorem Numbered.append (h : s.Numbered) (collection id : String) (body : Json) (now : Instant) :
    (s.append collection id body now).2.Numbered := by
  rcases s.append_cases collection id body now with hsame | ⟨d, hcollection, hsequence, hdocuments⟩
  · exact h.of_documents hsame
  · intro c i d' hd'
    rw [hdocuments] at hd'
    by_cases heq : c = collection
    · subst c
      rw [if_pos rfl] at hd'
      by_cases hlt : i < (s.documents collection).length
      · rw [List.getElem?_append_left hlt] at hd'
        exact h collection i d' hd'
      · have hlast := (List.getElem?_eq_some_iff.mp hd').1
        rw [List.length_append, List.length_singleton] at hlast
        obtain rfl : i = (s.documents collection).length := by omega
        rw [List.getElem?_concat_length] at hd'
        obtain rfl := Option.some.inj hd'
        exact ⟨hcollection, hsequence⟩
    · rw [if_neg heq] at hd'
      exact h c i d' hd'

end Store
end TradingDesk

import TradingDesk.Proofs.Store
/-!
# Collections as append-only logs

A store answers an append from the sequences it keeps by name, and a query by the place of a
document in its collection. Both agree with the documents after any calls, some of which may fail:
every collection is a log whose documents bear the numbers from one on and names of their own, and a
call adds at most one document to the end of one of them.
-/

namespace TradingDesk

/-- The collection that a write is about. -/
def Write.collection : Write → String
  | .append collection _ _ => collection
  | .upsert collection _ _ => collection

namespace Store

/-! ### Names -/

/-- The sequences that names were given are those of the documents that bear them. -/
def Indexed (s : Store) : Prop :=
  ∀ collection id sequence, s.sequenceOf? collection id = some sequence ↔
    ∃ d ∈ s.documents collection, d.id = id ∧ d.sequence = sequence

variable {s s' : Store}

theorem indexed_empty : Indexed {} := by
  intro collection id sequence
  simp [sequenceOf?, documents, log]

theorem Indexed.sequenceOf?_eq (h : s.Indexed) {collection : String} {d : Document}
    (hd : d ∈ s.documents collection) : s.sequenceOf? collection d.id = some d.sequence :=
  (h collection d.id d.sequence).mpr ⟨d, hd, rfl, rfl⟩

theorem Indexed.sequenceOf?_eq_none (h : s.Indexed) {collection id : String} :
    s.sequenceOf? collection id = none ↔ ∀ d ∈ s.documents collection, d.id ≠ id := by
  constructor
  · rintro hnone d hd rfl
    rw [h.sequenceOf?_eq hd] at hnone
    contradiction
  · intro hnew
    by_contra hsome
    obtain ⟨sequence, hsequence⟩ := Option.ne_none_iff_exists'.mp hsome
    obtain ⟨d, hd, hid, -⟩ := (h collection id sequence).mp hsequence
    exact hnew d hd hid

/-- Of two documents the later one has a larger sequence, and a name has only one. -/
theorem Indexed.names_nodup (h : s.Indexed) (hnumbered : s.Numbered) (collection : String) :
    ((s.documents collection).map (·.id)).Nodup := by
  rw [List.Nodup, List.pairwise_map]
  apply (hnumbered.ordered collection).imp_of_mem
  intro a b ha hb hlt heq
  have hsame : a.sequence = b.sequence := by
    have ha' := h.sequenceOf?_eq ha
    rw [heq, h.sequenceOf?_eq hb] at ha'
    exact (Option.some.inj ha').symm
  omega

theorem sequenceOf?_commit (s : Store) (d : Document) (collection id : String) :
    (s.commit d).sequenceOf? collection id =
      if collection = d.collection ∧ id = d.id then some d.sequence
      else s.sequenceOf? collection id := by
  unfold sequenceOf?
  rw [log_commit]
  by_cases heq : collection = d.collection
  · rw [if_pos heq]
    simp only [Log.push, KeyMap.lookup_cons_eq, heq, true_and]
  · rw [if_neg heq, if_neg fun h => heq h.1]

theorem Indexed.commit (h : s.Indexed) {d : Document}
    (hnew : s.sequenceOf? d.collection d.id = none) : (s.commit d).Indexed := by
  intro collection id sequence
  rw [sequenceOf?_commit, documents_commit]
  by_cases heq : collection = d.collection
  · subst heq
    simp only [true_and, if_true, List.mem_append, List.mem_singleton, or_and_right, exists_or,
      exists_eq_left, ← h d.collection id sequence]
    by_cases hid : id = d.id
    · subst hid
      simp [hnew]
    · simp [hid, Ne.symm hid]
  · simp only [heq, false_and, if_false]
    exact h collection id sequence

/-! ### Calls -/

inductive Call where
  | write (w : Write) (now : Instant)
  /-- The next writes are going to fail, as many as that. -/
  | failNext (count : Nat)

def call (s : Store) : Call → Store
  | .write w now => (s.perform w now).2
  | .failNext count => s.failNext count

/-- The store that a new one is after some calls. -/
def ofCalls (calls : List Call) : Store := calls.foldl call {}

theorem ofCalls_append (calls later : List Call) :
    ofCalls (calls ++ later) = later.foldl call (ofCalls calls) := List.foldl_append

/-- An append fails, finds the name, or adds a document with the next sequence. -/
theorem append_eq (s : Store) (collection id : String) (body : Json) (now : Instant) :
    s.append collection id body now =
      if 0 < s.failures then (.error writeFault, { s with failures := s.failures - 1 })
      else match s.sequenceOf? collection id with
        | some sequence => (.ok sequence, s)
        | none =>
          (.ok (s.head collection + 1),
            s.commit ⟨collection, s.head collection + 1, id, body, now⟩) := by
  unfold append
  cases hfailures : s.failures with
  | zero => rfl
  | succ n => simp

theorem upsert_eq (s : Store) (collection id : String) (body : Json) :
    s.upsert collection id body =
      if 0 < s.failures then (.error writeFault, { s with failures := s.failures - 1 })
      else (.ok (), { s with keyed :=
        ((collection, id), body) :: s.keyed.filter (·.1 != (collection, id)) }) := by
  unfold upsert
  cases hfailures : s.failures with
  | zero => rfl
  | succ n => simp

theorem Indexed.of_log (h : s.Indexed) (hlog : ∀ c, s'.log c = s.log c) : s'.Indexed := by
  intro collection id sequence
  simp only [sequenceOf?, documents, hlog]
  exact h collection id sequence

theorem Indexed.append (h : s.Indexed) (collection id : String) (body : Json) (now : Instant) :
    (s.append collection id body now).2.Indexed := by
  rw [append_eq]
  split
  · exact h
  · split
    · exact h
    · next hnew => exact h.commit hnew

theorem log_upsert (s : Store) (collection id : String) (body : Json) (c : String) :
    (s.upsert collection id body).2.log c = s.log c := by
  rw [upsert_eq]
  split <;> rfl

theorem call_indexed (h : s.Indexed) (c : Call) : (s.call c).Indexed := by
  cases c with
  | write w now =>
      cases w with
      | append collection id body => exact h.append collection id body now
      | upsert collection id body => exact h.of_log (log_upsert s collection id body)
  | failNext count => exact h

theorem call_numbered (h : s.Numbered) (c : Call) : (s.call c).Numbered := by
  cases c with
  | write w now =>
      cases w with
      | append collection id body => exact h.append collection id body now
      | upsert collection id body => exact h.of_documents (documents_upsert s collection id body)
  | failNext count => exact h

theorem extends_call (s : Store) (c : Call) : s.Extends (s.call c) := by
  cases c with
  | write w now =>
      cases w with
      | append collection id body => exact s.extends_append collection id body now
      | upsert collection id body =>
          intro c'
          have hsame := documents_upsert s collection id body c'
          exact hsame ▸ List.prefix_rfl
  | failNext count => exact Extends.refl s

theorem extends_foldl_call (s : Store) (calls : List Call) : s.Extends (calls.foldl call s) := by
  induction calls generalizing s with
  | nil => exact Extends.refl s
  | cons c rest ih => exact fun collection => (s.extends_call c collection).trans (ih _ collection)

theorem ofCalls_sound (calls : List Call) :
    (ofCalls calls).Numbered ∧ (ofCalls calls).Indexed := by
  suffices h : ∀ s : Store, s.Numbered → s.Indexed →
      (calls.foldl call s).Numbered ∧ (calls.foldl call s).Indexed from
    h {} numbered_empty indexed_empty
  induction calls with
  | nil => exact fun _ hnumbered hindexed => ⟨hnumbered, hindexed⟩
  | cons c rest ih =>
      exact fun s hnumbered hindexed => ih _ (call_numbered hnumbered c) (call_indexed hindexed c)

/-! ### Reading -/

/-- A collection read as a log: numbered in the order of the commits, each name once, and answering
from that order. -/
structure IsLog (s : Store) (collection : String) : Prop where
  collections : ∀ d ∈ s.documents collection, d.collection = collection
  sequences : (s.documents collection).map (·.sequence) =
    List.range' 1 (s.documents collection).length
  names : ((s.documents collection).map (·.id)).Nodup
  after : ∀ sequence limit, s.after collection sequence limit =
    ((s.documents collection).filter fun d => sequence < d.sequence).take limit
  head : s.head collection = (s.documents collection).length
  latest : ∀ d, s.latest? collection = some d ↔
    d ∈ s.documents collection ∧ d.sequence = s.head collection

/-- The last document is the one that bears the number of documents. -/
theorem Numbered.latest?_eq_some_iff (h : s.Numbered) {collection : String} {d : Document} :
    s.latest? collection = some d ↔
      d ∈ s.documents collection ∧ d.sequence = s.head collection := by
  unfold latest? head
  rw [List.getLast?_eq_getElem?]
  constructor
  · intro hlast
    have hpos : 0 < (s.documents collection).length :=
      List.length_pos_of_mem (List.mem_of_getElem? hlast)
    have hsequence := (h collection _ d hlast).2
    exact ⟨List.mem_of_getElem? hlast, by omega⟩
  · rintro ⟨hd, hsequence⟩
    obtain ⟨i, hi⟩ := List.mem_iff_getElem?.mp hd
    have hplace := (h collection i d hi).2
    have hlast : (s.documents collection).length - 1 = i := by omega
    rw [hlast, hi]

theorem Numbered.isLog (h : s.Numbered) (hindexed : s.Indexed) (collection : String) :
    s.IsLog collection where
  collections _ hd := h.collection_eq hd
  sequences := h.sequences collection
  names := hindexed.names_nodup h collection
  after sequence limit := by rw [Store.after, h.drop_eq]
  head := rfl
  latest _ := h.latest?_eq_some_iff

/-! ### Writing -/

/-- The same documents, in collections and by key. -/
def SameDocuments (s s' : Store) : Prop :=
  (∀ c, s'.documents c = s.documents c) ∧ ∀ c id, s'.fetch? c id = s.fetch? c id

/-- What writes to a store do. -/
structure WritesToLogs (s : Store) : Prop where
  /-- That writes are going to fail changes no document. -/
  told : ∀ count, s.SameDocuments (s.failNext count)
  /-- A write that fails does nothing but that. -/
  fails : ∀ w now, 0 < s.failures →
    s.perform w now = (.error writeFault, s.failNext (s.failures - 1))
  /-- A name that is there keeps its sequence, whatever the body. -/
  known : s.failures = 0 → ∀ collection body now, ∀ d ∈ s.documents collection,
    s.append collection d.id body now = (.ok d.sequence, s)
  /-- A new name is added at the end. -/
  new : s.failures = 0 → ∀ collection id body now, (∀ d ∈ s.documents collection, d.id ≠ id) →
    ∃ s', s.append collection id body now = (.ok (s.head collection + 1), s') ∧
      s'.documents collection =
        s.documents collection ++ [⟨collection, s.head collection + 1, id, body, now⟩] ∧
      ∀ c id', s'.fetch? c id' = s.fetch? c id'
  /-- A keyed document is replaced, and no other one. -/
  keyed : s.failures = 0 → ∀ collection id body, ∃ s', s.upsert collection id body = (.ok (), s') ∧
    (∀ c, s'.documents c = s.documents c) ∧
    ∀ c id', s'.fetch? c id' =
      if c = collection ∧ id' = id then some body else s.fetch? c id'
  others : ∀ w now c, c ≠ w.collection →
    (s.perform w now).2.documents c = s.documents c ∧
      ∀ id, (s.perform w now).2.fetch? c id = s.fetch? c id

theorem perform_of_failing (h : 0 < s.failures) (w : Write) (now : Instant) :
    s.perform w now = (.error writeFault, s.failNext (s.failures - 1)) := by
  cases w with
  | append collection id body =>
      rw [perform, append_eq, if_pos h]
      rfl
  | upsert collection id body =>
      rw [perform, upsert_eq, if_pos h]
      rfl

theorem fetch?_append (s : Store) (collection id : String) (body : Json) (now : Instant)
    (c id' : String) :
    (s.append collection id body now).2.fetch? c id' = s.fetch? c id' := by
  rw [append_eq]
  split
  · rfl
  · split <;> rfl

theorem fetch?_upsert (h : s.failures = 0) (collection id : String) (body : Json) (c id' : String) :
    (s.upsert collection id body).2.fetch? c id' =
      if c = collection ∧ id' = id then some body else s.fetch? c id' := by
  rw [upsert_eq, if_neg (by omega)]
  simp only [fetch?, KeyMap.lookup_replace, beq_iff_eq, Prod.mk.injEq]

theorem collections_upsert (s : Store) (collection id : String) (body : Json) :
    (s.upsert collection id body).2.collections = s.collections := by
  rw [upsert_eq]
  split <;> rfl

/-- A write of one keyed document leaves all others as they are, whether it fails or not. -/
theorem fetch?_upsert_of_ne {collection id c id' : String} (hne : (c, id') ≠ (collection, id))
    (s : Store) (body : Json) : (s.upsert collection id body).2.fetch? c id' = s.fetch? c id' := by
  rw [upsert_eq]
  split
  · rfl
  · simp only [fetch?, KeyMap.lookup_replace, beq_iff_eq, if_neg hne]

theorem documents_append_of_ne {collection c : String} (hne : c ≠ collection) (id : String)
    (body : Json) (now : Instant) :
    (s.append collection id body now).2.documents c = s.documents c := by
  rcases s.append_cases collection id body now with hsame | ⟨d, -, -, hdocuments⟩
  · exact hsame c
  · rw [hdocuments, if_neg hne]

theorem perform_of_ne (w : Write) (now : Instant) {c : String} (hne : c ≠ w.collection) :
    (s.perform w now).2.documents c = s.documents c ∧
      ∀ id, (s.perform w now).2.fetch? c id = s.fetch? c id := by
  cases w with
  | append collection id body =>
      exact ⟨documents_append_of_ne hne id body now, s.fetch?_append collection id body now c⟩
  | upsert collection id body =>
      refine ⟨documents_upsert s collection id body c, fun id' => ?_⟩
      change (s.upsert collection id body).2.fetch? c id' = s.fetch? c id'
      by_cases hfailures : s.failures = 0
      · rw [fetch?_upsert hfailures, if_neg fun h => hne h.1]
      · rw [upsert_eq, if_pos (Nat.pos_of_ne_zero hfailures)]
        rfl

theorem Indexed.append_known (h : s.Indexed) (hfailures : s.failures = 0) {collection : String}
    {d : Document} (hd : d ∈ s.documents collection) (body : Json) (now : Instant) :
    s.append collection d.id body now = (.ok d.sequence, s) := by
  rw [append_eq, if_neg (by omega), h.sequenceOf?_eq hd]

theorem Indexed.append_new (h : s.Indexed) (hfailures : s.failures = 0) {collection id : String}
    (hnew : ∀ d ∈ s.documents collection, d.id ≠ id) (body : Json) (now : Instant) :
    s.append collection id body now = (.ok (s.head collection + 1),
      s.commit ⟨collection, s.head collection + 1, id, body, now⟩) := by
  rw [append_eq, if_neg (by omega), h.sequenceOf?_eq_none.mpr hnew]

theorem Indexed.writesToLogs (h : s.Indexed) : s.WritesToLogs where
  told _ := ⟨fun _ => rfl, fun _ _ => rfl⟩
  fails w now hfailing := perform_of_failing hfailing w now
  known hfailures _ body now _ hd := h.append_known hfailures hd body now
  new hfailures collection id body now hnew := by
    refine ⟨_, h.append_new hfailures hnew body now, ?_, fun _ _ => rfl⟩
    rw [documents_commit, if_pos rfl]
  keyed hfailures collection id body := by
    have hfetch := fetch?_upsert hfailures collection id body
    have hdocuments := documents_upsert s collection id body
    rw [upsert_eq, if_neg (by omega)] at hfetch hdocuments
    exact ⟨_, by rw [upsert_eq, if_neg (by omega)], hdocuments, hfetch⟩
  others w now _ hne := perform_of_ne w now hne

/-- After any calls, some of which may have failed, every collection is a log that later calls only
add to, and so it stays whatever is written next. -/
theorem collections_are_append_only_logs (calls : List Call) :
    (∀ collection, (ofCalls calls).IsLog collection) ∧
      (∀ later collection, (ofCalls calls).documents collection <+:
        (ofCalls (calls ++ later)).documents collection) ∧
      (ofCalls calls).WritesToLogs := by
  obtain ⟨hnumbered, hindexed⟩ := ofCalls_sound calls
  refine ⟨hnumbered.isLog hindexed, fun later collection => ?_, hindexed.writesToLogs⟩
  rw [ofCalls_append]
  exact extends_foldl_call _ later collection

end Store
end TradingDesk

/-!
# Maps ordered by key

A map from texts, kept as its pairs in the order of their keys, so that equal maps are equal lists.
-/

namespace TradingDesk

/-- A map from texts to values. -/
structure KeyMap (α : Type) where
  pairs : List (String × α)
  ordered : pairs.Pairwise (fun a b => a.1 < b.1) := by simp

namespace KeyMap

variable {α : Type}

instance [Repr α] : Repr (KeyMap α) := ⟨fun m n => reprPrec m.pairs n⟩

instance [DecidableEq α] : DecidableEq (KeyMap α) := fun m n =>
  decidable_of_iff (m.pairs = n.pairs)
    ⟨fun h => by cases m; cases n; cases h; rfl, fun h => h ▸ rfl⟩

def empty : KeyMap α := { pairs := [] }

instance : Inhabited (KeyMap α) := ⟨empty⟩

def get? (m : KeyMap α) (key : String) : Option α := m.pairs.lookup key

/-- The pairs with one more in its place; a pair with its key is replaced. -/
def insertPair (key : String) (value : α) : List (String × α) → List (String × α)
  | [] => [(key, value)]
  | p :: rest =>
    if key < p.1 then (key, value) :: p :: rest
    else if key = p.1 then (key, value) :: rest
    else p :: insertPair key value rest

theorem key_of_mem_insertPair {key : String} {value : α} {q : String × α} :
    {ps : List (String × α)} → q ∈ insertPair key value ps → q.1 = key ∨ q ∈ ps
  | [], h => by simp [insertPair] at h; simp [h]
  | p :: rest, h => by
    unfold insertPair at h
    split at h
    · rcases List.mem_cons.1 h with rfl | h
      · exact .inl rfl
      · exact .inr h
    · split at h
      · rcases List.mem_cons.1 h with rfl | h
        · exact .inl rfl
        · exact .inr (List.mem_cons_of_mem _ h)
      · rcases List.mem_cons.1 h with rfl | h
        · exact .inr (List.mem_cons_self ..)
        · rcases key_of_mem_insertPair h with h | h
          · exact .inl h
          · exact .inr (List.mem_cons_of_mem _ h)

theorem ordered_insertPair {key : String} {value : α} :
    {ps : List (String × α)} → ps.Pairwise (fun a b => a.1 < b.1) →
      (insertPair key value ps).Pairwise (fun a b => a.1 < b.1)
  | [], _ => by simp [insertPair]
  | p :: rest, h => by
    have hp := List.pairwise_cons.1 h
    unfold insertPair
    split
    · next hlt =>
      refine List.pairwise_cons.2 ⟨fun q hq => ?_, h⟩
      rcases List.mem_cons.1 hq with rfl | hq
      · exact hlt
      · exact String.lt_trans hlt (hp.1 q hq)
    · next hnlt =>
      split
      · next heq =>
        refine List.pairwise_cons.2 ⟨fun q hq => ?_, hp.2⟩
        simpa [heq] using hp.1 q hq
      · next hne =>
        refine List.pairwise_cons.2 ⟨fun q hq => ?_, ordered_insertPair hp.2⟩
        rcases key_of_mem_insertPair hq with hq | hq
        · rw [hq]
          exact Decidable.byContradiction fun h =>
            hne (String.le_antisymm (String.not_lt.1 h) (String.not_lt.1 hnlt))
        · exact hp.1 q hq

def insert (m : KeyMap α) (key : String) (value : α) : KeyMap α :=
  { pairs := insertPair key value m.pairs, ordered := ordered_insertPair m.ordered }

/-- The map with these pairs, of repeated keys the last. -/
def ofList (pairs : List (String × α)) : KeyMap α :=
  pairs.foldl (fun m (k, v) => m.insert k v) empty

def map {β : Type} (f : α → β) (m : KeyMap α) : KeyMap β :=
  { pairs := m.pairs.map fun (k, v) => (k, f v)
    ordered := by
      rw [List.pairwise_map]
      exact m.ordered }

end KeyMap

end TradingDesk

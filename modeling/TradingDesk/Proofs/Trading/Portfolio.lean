import TradingDesk.Trading.Portfolio
import TradingDesk.Proofs.KeyMap
/-!
# What portfolios remember

Marking an event never takes back how far a collection was evaluated. Booking a fill touches the
lots and the last exit alone, and the lots bear the names of orders that were booked.
-/

namespace TradingDesk
namespace Portfolio

variable {p q r : Portfolio} {e : ChangeEvent}

/-! ### Evaluated sequences -/

theorem hasEvaluated_iff :
    p.hasEvaluated e = true ↔ ∃ n, p.lastEvaluated? e.collection = some n ∧ e.sequence ≤ n := by
  unfold hasEvaluated
  cases p.lastEvaluated? e.collection <;> simp

theorem lt_of_hasEvaluated {e' : ChangeEvent} (hold : p.hasEvaluated e = true)
    (hnew : p.hasEvaluated e' = false) (hcollection : e.collection = e'.collection) :
    e.sequence < e'.sequence := by
  obtain ⟨n, hn, hle⟩ := hasEvaluated_iff.mp hold
  rw [hcollection] at hn
  by_contra hge
  have htrue : p.hasEvaluated e' = true := hasEvaluated_iff.mpr ⟨n, hn, by omega⟩
  rw [hnew] at htrue
  contradiction

/-- No collection is evaluated less far in the second portfolio. -/
def UpTo (p q : Portfolio) : Prop :=
  ∀ collection n, p.lastEvaluated? collection = some n →
    ∃ m, q.lastEvaluated? collection = some m ∧ n ≤ m

theorem UpTo.refl (p : Portfolio) : p.UpTo p := fun _ n hn => ⟨n, hn, le_rfl⟩

theorem UpTo.trans (hpq : p.UpTo q) (hqr : q.UpTo r) : p.UpTo r := by
  intro collection n hn
  obtain ⟨m, hm, hle⟩ := hpq collection n hn
  obtain ⟨k, hk, hle'⟩ := hqr collection m hm
  exact ⟨k, hk, hle.trans hle'⟩

theorem UpTo.hasEvaluated (hpq : p.UpTo q) (h : p.hasEvaluated e = true) :
    q.hasEvaluated e = true := by
  obtain ⟨n, hn, hle⟩ := hasEvaluated_iff.mp h
  obtain ⟨m, hm, hle'⟩ := hpq e.collection n hn
  exact hasEvaluated_iff.mpr ⟨m, hm, hle.trans hle'⟩

theorem upTo_of_evaluated_eq (h : q.evaluated = p.evaluated) : p.UpTo q := by
  intro collection n hn
  exact ⟨n, by rwa [lastEvaluated?, h], le_rfl⟩

theorem lastEvaluated?_markEvaluated (p : Portfolio) (e : ChangeEvent) (collection : String) :
    (p.markEvaluated e).lastEvaluated? collection =
      if collection = e.collection then
        some (max ((p.lastEvaluated? e.collection).getD 0) e.sequence)
      else p.lastEvaluated? collection :=
  KeyMap.get?_insert ..

theorem upTo_markEvaluated (p : Portfolio) (e : ChangeEvent) : p.UpTo (p.markEvaluated e) := by
  intro collection n hn
  by_cases heq : collection = e.collection
  · subst collection
    refine ⟨max n e.sequence, ?_, le_max_left n e.sequence⟩
    simp [markEvaluated, lastEvaluated?, KeyMap.get?_insert_self] at hn ⊢
    rw [hn, Option.getD_some]
  · refine ⟨n, ?_, le_rfl⟩
    simpa [markEvaluated, lastEvaluated?, KeyMap.get?_insert_of_ne _ heq] using hn

theorem hasEvaluated_markEvaluated (p : Portfolio) (e : ChangeEvent) :
    (p.markEvaluated e).hasEvaluated e = true := by
  rw [hasEvaluated_iff]
  exact ⟨_, KeyMap.get?_insert_self .., le_max_right _ _⟩

/-! ### Fills -/

theorem closeLots?_sublist {remaining : Decimal} {lots left : List Lot}
    (h : closeLots? remaining lots = some left) :
    (left.map (·.clientId)).Sublist (lots.map (·.clientId)) := by
  induction lots generalizing remaining left with
  | nil =>
      cases h
      exact List.Sublist.refl _
  | cons lot rest ih =>
      unfold closeLots? at h
      split at h
      · cases h
        exact List.Sublist.refl _
      · simp only [Option.bind_eq_bind, Option.bind_eq_some_iff] at h
        obtain ⟨size, -, remaining', -, lots, hrest, hleft⟩ := h
        cases hleft
        split
        · exact (ih hrest).cons _
        · exact (ih hrest).cons_cons _

/-- A lot that is left is one of those that there were, but for its size. -/
theorem closeLots?_mem {remaining : Decimal} {lots left : List Lot}
    (h : closeLots? remaining lots = some left) :
    ∀ l ∈ left, ∃ l' ∈ lots, l = { l' with size := l.size } := by
  induction lots generalizing remaining left with
  | nil =>
      cases h
      simp
  | cons lot rest ih =>
      unfold closeLots? at h
      split at h
      · cases h
        exact fun l hl => ⟨l, hl, rfl⟩
      · simp only [Option.bind_eq_bind, Option.bind_eq_some_iff] at h
        obtain ⟨size, -, remaining', -, lots, hrest, hleft⟩ := h
        cases hleft
        have hlater : ∀ l ∈ lots, ∃ l' ∈ lot :: rest, l = { l' with size := l.size } := by
          intro l hl
          obtain ⟨l', hl', heq⟩ := ih hrest l hl
          exact ⟨l', List.mem_cons_of_mem _ hl', heq⟩
        intro l hl
        split at hl
        · exact hlater l hl
        · rcases List.mem_cons.mp hl with rfl | hl
          · exact ⟨lot, List.mem_cons_self, rfl⟩
          · exact hlater l hl

theorem applyFill?_cases {order : Order} {fill : Fill} (h : p.applyFill? order fill = some q) :
    (order.side = .buy ∧ q = { p with lots := p.lots ++
      [{ clientId := order.clientId, exchangeId := fill.exchangeId, size := fill.size,
         entryPrice := fill.price, openedAt := fill.filledAt }] }) ∨
    (order.side = .sell ∧ ∃ lots, closeLots? fill.size p.lots = some lots ∧
      q = { p with lots, lastExit := some fill.price }) := by
  unfold applyFill? at h
  cases hside : order.side with
  | buy =>
      simp only [hside, Option.some.injEq] at h
      exact .inl ⟨rfl, h.symm⟩
  | sell =>
      simp only [hside, Option.bind_eq_bind, Option.bind_eq_some_iff, Option.pure_def,
        Option.some.injEq] at h
      obtain ⟨lots, hclose, hq⟩ := h
      exact .inr ⟨rfl, lots, hclose, hq.symm⟩

/-- A booked fill changes the lots and the last exit alone. -/
theorem applyFill?_eq {order : Order} {fill : Fill} (h : p.applyFill? order fill = some q) :
    q = { p with lots := q.lots, lastExit := q.lastExit } := by
  obtain ⟨-, rfl⟩ | ⟨-, lots, -, rfl⟩ := applyFill?_cases h <;> rfl

theorem applyFill?_sublist {order : Order} {fill : Fill} (h : p.applyFill? order fill = some q) :
    (q.lots.map (·.clientId)).Sublist (p.lots.map (·.clientId) ++ [order.clientId]) := by
  obtain ⟨-, rfl⟩ | ⟨-, lots, hclose, rfl⟩ := applyFill?_cases h
  · simp
  · exact (closeLots?_sublist hclose).trans (List.sublist_append_left _ _)

/-- Whether two portfolios have the same position and the same history of it. -/
def SameBook (p q : Portfolio) : Prop := p.lots = q.lots ∧ p.lastExit = q.lastExit

theorem SameBook.symm (h : p.SameBook q) : q.SameBook p := ⟨h.1.symm, h.2.symm⟩

theorem SameBook.trans (hpq : p.SameBook q) (hqr : q.SameBook r) : p.SameBook r :=
  ⟨hpq.1.trans hqr.1, hpq.2.trans hqr.2⟩

theorem SameBook.applyFill? {p' : Portfolio} {order : Order} {fill : Fill} (h : p.SameBook q)
    (hbook : p.applyFill? order fill = some p') :
    ∃ q', q.applyFill? order fill = some q' ∧ p'.SameBook q' := by
  obtain ⟨hlots, hexit⟩ := h
  unfold Portfolio.applyFill? at hbook ⊢
  cases hside : order.side with
  | buy =>
      simp only [hside] at hbook ⊢
      cases hbook
      exact ⟨_, rfl, by rw [hlots], hexit⟩
  | sell =>
      simp only [hside, Option.bind_eq_bind, Option.bind_eq_some_iff] at hbook ⊢
      obtain ⟨lots, hclose, hp⟩ := hbook
      cases hp
      rw [hlots] at hclose
      exact ⟨_, ⟨lots, hclose, rfl⟩, rfl, rfl⟩

/-! ### Several fills -/

def bookAll? (p : Portfolio) (fills : List (Order × Fill)) : Option Portfolio :=
  fills.foldlM (fun p f => p.applyFill? f.1 f.2) p

theorem bookAll?_concat {fills : List (Order × Fill)} {order : Order}
    {fill : Fill} (h : p.bookAll? fills = some q) :
    p.bookAll? (fills ++ [(order, fill)]) = q.applyFill? order fill := by
  unfold bookAll? at h ⊢
  rw [List.foldlM_append, h]
  simp

theorem bookAll?_sublist {fills : List (Order × Fill)}
    (h : p.bookAll? fills = some q) :
    (q.lots.map (·.clientId)).Sublist
      (p.lots.map (·.clientId) ++ fills.map (·.1.clientId)) := by
  induction fills generalizing p with
  | nil =>
      obtain rfl : p = q := by simpa [bookAll?] using h
      simp
  | cons f rest ih =>
      unfold bookAll? at h
      rw [List.foldlM_cons, Option.bind_eq_bind, Option.bind_eq_some_iff] at h
      obtain ⟨p', hfirst, hrest⟩ := h
      have hsub := (applyFill?_sublist hfirst).append (List.Sublist.refl (rest.map (·.1.clientId)))
      simpa using (ih hrest).trans hsub

end Portfolio
end TradingDesk

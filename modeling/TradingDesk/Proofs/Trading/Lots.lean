import TradingDesk.Proofs.Decimal.Exact
import TradingDesk.Proofs.Trading.Portfolio
/-!
# Opening and closing lots

A purchase opens a lot. A sale closes the lots that were opened first, the last of them perhaps in
part, and what it closes is what was sold or all there was. That is so to the last digit when no sum
or difference in it has to be rounded.
-/

namespace TradingDesk

open Decimal (zero Represented)

namespace Portfolio

variable {p : Portfolio} {lots left : List Lot} {sold : ℚ}

/-- What some lots come to. -/
def sizes (lots : List Lot) : ℚ := (lots.map (·.size.value)).sum

@[simp] theorem sizes_nil : sizes [] = 0 := rfl

@[simp] theorem sizes_cons (lot : Lot) (lots : List Lot) :
    sizes (lot :: lots) = lot.size.value + sizes lots := by
  simp [sizes]

@[simp] theorem sizes_append (lots lots' : List Lot) :
    sizes (lots ++ lots') = sizes lots + sizes lots' := by
  simp [sizes]

/-- Each lot is of a positive size. -/
def Open (lots : List Lot) : Prop := ∀ lot ∈ lots, zero < lot.size

theorem Open.tail {lot : Lot} (h : Open (lot :: lots)) : Open lots :=
  fun l hl => h l (List.mem_cons_of_mem lot hl)

theorem Open.sizes_nonneg (h : Open lots) : 0 ≤ sizes lots := by
  induction lots with
  | nil => rfl
  | cons lot rest ih =>
      have hlot := Decimal.zero_lt_iff.mp (h lot List.mem_cons_self)
      rw [sizes_cons]
      exact add_nonneg hlot.le (ih h.tail)

/-! ### What is left -/

/-- The lots `left` are what is left of others when a number of units is sold, oldest first. -/
inductive Closed : ℚ → List Lot → List Lot → Prop
  | nothing (lots : List Lot) : Closed 0 lots lots
  | part (lot : Lot) (lots : List Lot) {size : Decimal} (hpos : zero < size)
      (hless : size < lot.size) :
      Closed (lot.size.value - size.value) (lot :: lots) ({ lot with size } :: lots)
  | whole (lot : Lot) {sold : ℚ} {lots left : List Lot} (hclosed : Closed sold lots left) :
      Closed (lot.size.value + sold) (lot :: lots) left
  /-- More is sold than there was. -/
  | beyond {sold : ℚ} (hmore : 0 ≤ sold) : Closed sold [] []

namespace Closed

theorem sizes_eq (h : Closed sold lots left) (hopen : Open lots) :
    sizes left = max 0 (sizes lots - sold) := by
  induction h with
  | nothing lots =>
      rw [sub_zero, max_eq_right hopen.sizes_nonneg]
  | part lot lots hpos hless =>
      have hnonneg := hopen.tail.sizes_nonneg
      have hsize := Decimal.zero_lt_iff.mp hpos
      rw [sizes_cons, sizes_cons, max_eq_right (by linarith)]
      ring
  | whole lot hclosed ih =>
      rw [ih hopen.tail, sizes_cons, add_sub_add_left_eq_sub]
  | beyond hmore =>
      rw [sizes_nil, max_eq_left (by linarith)]

theorem isOpen (h : Closed sold lots left) (hopen : Open lots) : Open left := by
  induction h with
  | nothing => exact hopen
  | part lot lots hpos hless =>
      intro l hl
      rcases List.mem_cons.mp hl with rfl | hl
      · exact hpos
      · exact hopen.tail l hl
  | whole lot hclosed ih => exact ih hopen.tail
  | beyond => exact hopen

/-- The oldest lots are gone, and of the next one there may be less. -/
theorem suffix_or_part (h : Closed sold lots left) :
    left <:+ lots ∨ ∃ (lot : Lot) (rest : List Lot) (size : Decimal), lot :: rest <:+ lots ∧
      zero < size ∧ size < lot.size ∧ left = { lot with size } :: rest := by
  induction h with
  | nothing lots => exact .inl List.suffix_rfl
  | part lot lots hpos hless => exact .inr ⟨lot, lots, _, List.suffix_rfl, hpos, hless, rfl⟩
  | whole lot hclosed ih =>
      rcases ih with hsuffix | ⟨lot', rest, size, hsuffix, hpos, hless, hleft⟩
      · exact .inl (hsuffix.trans (List.suffix_cons lot _))
      · exact .inr ⟨lot', rest, size, hsuffix.trans (List.suffix_cons lot _), hpos, hless, hleft⟩
  | beyond => exact .inl List.suffix_rfl

/-- What the first of the lots that are left come to is a difference from those that there were. -/
theorem sizes_prefix (h : Closed sold lots left) {first : List Lot} (hfirst : first <+: left) :
    sizes first = 0 ∨ ∃ first', first' <+: lots ∧ sizes first = sizes first' - sold := by
  induction h generalizing first with
  | nothing lots => exact .inr ⟨first, hfirst, (sub_zero _).symm⟩
  | part lot lots hpos hless =>
      rcases List.prefix_cons_iff.mp hfirst with rfl | ⟨rest, rfl, hrest⟩
      · exact .inl rfl
      · refine .inr ⟨lot :: rest, (List.prefix_cons_inj lot).mpr hrest, ?_⟩
        rw [sizes_cons, sizes_cons]
        ring
  | whole lot hclosed ih =>
      rcases ih hfirst with hzero | ⟨first', hprefix, hsizes⟩
      · exact .inl hzero
      · refine .inr ⟨lot :: first', (List.prefix_cons_inj lot).mpr hprefix, ?_⟩
        rw [hsizes, sizes_cons, add_sub_add_left_eq_sub]
  | beyond =>
      obtain rfl := List.prefix_nil.mp hfirst
      exact .inl rfl

end Closed

/-! ### Closing lots -/

/-- However many of the oldest lots are taken, what they come to, less what is sold, is a decimal.
-/
def SaleExact (sold : ℚ) (lots : List Lot) : Prop :=
  ∀ first, first <+: lots → Represented (sizes first - sold)

theorem SaleExact.tail {lot : Lot} (h : SaleExact (lot.size.value + sold) (lot :: lots)) :
    SaleExact sold lots := by
  intro first hfirst
  have hrepresented := h (lot :: first) ((List.prefix_cons_inj lot).mpr hfirst)
  rwa [sizes_cons, add_sub_add_left_eq_sub] at hrepresented

theorem least_value (a b : Decimal) : (a.least b).value = min a.value b.value := by
  unfold Decimal.least
  split
  · next hlt => exact (min_eq_right (Decimal.lt_iff.mp hlt).le).symm
  · next hge =>
    rw [Decimal.lt_iff, not_lt] at hge
    exact (min_eq_left hge).symm

theorem closeLots?_zero {remaining : Decimal} (h : remaining.value = 0) :
    closeLots? remaining lots = some lots := by
  cases lots with
  | nil => rfl
  | cons => rw [closeLots?, if_pos (Decimal.isZero_iff.mpr h)]

/-- From the oldest lot as much is closed as it has and the sale wants, to the last digit. -/
theorem close_one {remaining : Decimal} {lot : Lot}
    (h : Represented (lot.size.value - remaining.value)) :
    ∃ size remaining', lot.size.sub? (remaining.least lot.size) = some size ∧
      remaining.sub? (remaining.least lot.size) = some remaining' ∧
      size.value = max 0 (lot.size.value - remaining.value) ∧
      remaining'.value = max 0 (remaining.value - lot.size.value) := by
  have hsize : lot.size.value - (remaining.least lot.size).value =
      max 0 (lot.size.value - remaining.value) := by
    rw [least_value, ← max_sub_sub_left, sub_self, max_comm]
  have hremaining : remaining.value - (remaining.least lot.size).value =
      max 0 (remaining.value - lot.size.value) := by
    rw [least_value, ← max_sub_sub_left, sub_self]
  obtain ⟨size, hsub, hvalue⟩ := Decimal.sub?_exact (a := lot.size) (b := remaining.least lot.size)
    (by
      rw [hsize]
      rcases max_choice 0 (lot.size.value - remaining.value) with heq | heq <;> rw [heq]
      · exact Decimal.represented_zero
      · exact h)
  obtain ⟨remaining', hsub', hvalue'⟩ := Decimal.sub?_exact (a := remaining)
    (b := remaining.least lot.size)
    (by
      rw [hremaining]
      rcases max_choice 0 (remaining.value - lot.size.value) with heq | heq <;> rw [heq]
      · exact Decimal.represented_zero
      · rw [← neg_sub]
        exact h.neg)
  exact ⟨size, remaining', hsub, hsub', hvalue.trans hsize, hvalue'.trans hremaining⟩

theorem closeLots?_exact {remaining : Decimal} (hopen : Open lots)
    (hremaining : 0 ≤ remaining.value) (hexact : SaleExact remaining.value lots) :
    ∃ left, closeLots? remaining lots = some left ∧ Closed remaining.value lots left := by
  induction lots generalizing remaining with
  | nil => exact ⟨[], rfl, .beyond hremaining⟩
  | cons lot rest ih =>
      by_cases hzero : remaining.isZero = true
      · rw [Decimal.isZero_iff] at hzero
        rw [closeLots?_zero hzero, hzero]
        exact ⟨_, rfl, .nothing _⟩
      have hone := hexact [lot] (List.prefix_cons_iff.mpr (.inr ⟨[], rfl, List.nil_prefix⟩))
      rw [sizes_cons, sizes_nil, add_zero] at hone
      obtain ⟨size, remaining', hsub, hsub', hsize, hvalue⟩ := close_one hone
      rcases lt_or_ge remaining.value lot.size.value with hless | hmore
      · -- the lot outlasts the sale, and nothing remains to sell of those behind it
        rw [max_eq_right (by linarith)] at hsize
        rw [max_eq_left (by linarith)] at hvalue
        have hleft : size.isZero = false :=
          Decimal.isZero_of_pos (Decimal.zero_lt_iff.mpr (by linarith))
        refine ⟨{ lot with size } :: rest, ?_, ?_⟩
        · simp [closeLots?, hzero, hsub, hsub', closeLots?_zero hvalue, hleft]
        · have hsold : remaining.value = lot.size.value - size.value := by linarith
          rw [hsold]
          refine .part lot rest (Decimal.zero_lt_iff.mpr (by linarith)) (Decimal.lt_iff.mpr ?_)
          have hpos : remaining.value ≠ 0 := by rwa [Decimal.isZero_iff] at hzero
          linarith [lt_of_le_of_ne hremaining hpos.symm]
      · rw [max_eq_left (by linarith)] at hsize
        rw [max_eq_right (by linarith)] at hvalue
        have hsold : remaining.value = lot.size.value + remaining'.value := by linarith
        rw [hsold] at hexact ⊢
        obtain ⟨left, hclose, hclosed⟩ := ih hopen.tail (by linarith) hexact.tail
        refine ⟨left, ?_, .whole lot hclosed⟩
        simp [closeLots?, hzero, hsub, hsub', hclose, Decimal.isZero_iff.mpr hsize]

/-! ### The size of a position -/

/-- A sum of lots is exact if the sums on the way to it are. -/
theorem total?_exact (h : ∀ first, first <+: lots → Represented (sizes first)) :
    ∃ total, total? (lots.map (·.size)) = some total ∧ total.value = sizes lots := by
  induction lots using List.reverseRecOn with
  | nil => exact ⟨zero, rfl, Decimal.value_zero⟩
  | append_singleton lots lot ih =>
      obtain ⟨before, htotal, hvalue⟩ := ih fun first hfirst =>
        h first (hfirst.trans (List.prefix_append lots [lot]))
      have hall := h _ List.prefix_rfl
      rw [sizes_append, sizes_cons, sizes_nil, add_zero, ← hvalue] at hall
      obtain ⟨total, hadd, hsum⟩ := Decimal.add?_exact hall
      refine ⟨total, ?_, by rw [hsum, hvalue]; simp⟩
      unfold total? at htotal ⊢
      rw [List.map_append, List.foldlM_append, htotal]
      simp [hadd]

/-- A purchase appends a lot. A sale that is exact takes what it sells off the position, or all
there is, and only of the oldest lot that is left there may be less than there was. -/
theorem fills_open_and_close_lots (p : Portfolio) (order : Order) (fill : Fill) :
    (order.side = .buy → p.applyFill? order fill = some { p with lots := p.lots ++
      [{ clientId := order.clientId, exchangeId := fill.exchangeId, size := fill.size,
         entryPrice := fill.price, openedAt := fill.filledAt }] }) ∧
    (order.side = .sell → Open p.lots → zero ≤ fill.size → SaleExact 0 p.lots →
      SaleExact fill.size.value p.lots →
      ∃ q before after, p.applyFill? order fill = some q ∧
        q = { p with lots := q.lots, lastExit := some fill.price } ∧
        p.positionSize? = some before ∧ q.positionSize? = some after ∧
        after.value = max 0 (before.value - fill.size.value) ∧
        (q.lots <:+ p.lots ∨ ∃ (lot : Lot) (rest : List Lot) (size : Decimal),
          lot :: rest <:+ p.lots ∧ zero < size ∧ size < lot.size ∧
            q.lots = { lot with size } :: rest) ∧
        Open q.lots) := by
  constructor
  · intro hbuy
    simp [applyFill?, hbuy]
  · intro hsell hopen hpos hbefore hexact
    rw [Decimal.zero_le_iff] at hpos
    obtain ⟨left, hclose, hclosed⟩ := closeLots?_exact hopen hpos hexact
    have hprefixes : ∀ first, first <+: p.lots → Represented (sizes first) := by
      intro first hfirst
      simpa using hbefore first hfirst
    obtain ⟨before, htotal, hvalue⟩ := total?_exact hprefixes
    have hprefixes' : ∀ first, first <+: left → Represented (sizes first) := by
      intro first hfirst
      rcases hclosed.sizes_prefix hfirst with hzero | ⟨first', hfirst', hsizes⟩
      · rw [hzero]
        exact Decimal.represented_zero
      · rw [hsizes]
        exact hexact first' hfirst'
    obtain ⟨after, htotal', hvalue'⟩ := total?_exact hprefixes'
    refine ⟨{ p with lots := left, lastExit := some fill.price }, before, after, ?_, rfl, htotal,
      htotal', ?_, hclosed.suffix_or_part, hclosed.isOpen hopen⟩
    · simp [applyFill?, hsell, hclose]
    · rw [hvalue', hvalue, hclosed.sizes_eq hopen]

/-- A lot of one unit and one of two. -/
def twoLots : Portfolio :=
  { new "alpha" default with
    lots := [⟨"first", "x-1", .one, .one, default⟩, ⟨"second", "x-2", .two, .two, default⟩] }

/-- An order that sells two units. -/
def largeSale : Order :=
  { clientId := "third", portfolio := "alpha", asset := "btc", side := .sell
    size := .two, limit := some .two, reason := "", createdAt := default }

def largeSaleFill : Fill :=
  { exchangeId := "x-3", size := largeSale.size, price := .two, filledAt := default }

theorem prefix_twoLots {first : List Lot} (h : first <+: twoLots.lots) :
    sizes first = 0 ∨ sizes first = 1 ∨ sizes first = 3 := by
  have hone : Decimal.one.value = 1 := by simp [Decimal.value, Decimal.one]
  have htwo : Decimal.two.value = 2 := by simp [Decimal.value, Decimal.two]
  rcases List.prefix_cons_iff.mp h with rfl | ⟨rest, rfl, hrest⟩
  · exact .inl rfl
  · rcases List.prefix_cons_iff.mp hrest with rfl | ⟨rest', rfl, hrest'⟩
    · exact .inr (.inl (by simp [hone]))
    · obtain rfl := List.prefix_nil.mp hrest'
      exact .inr (.inr (by norm_num [hone, htwo]))

theorem half_a_lot_is_left :
    ∃ q after, twoLots.applyFill? largeSale largeSaleFill = some q ∧
      q.positionSize? = some after ∧ after.value = 1 ∧ q.lastExit = some .two ∧
      Open q.lots := by
  have hsold : largeSaleFill.size.value = 2 := by
    simp [largeSaleFill, largeSale, Decimal.value, Decimal.two]
  have hbefore : SaleExact 0 twoLots.lots := by
    intro first hfirst
    rw [sub_zero]
    rcases prefix_twoLots hfirst with hsizes | hsizes | hsizes <;> rw [hsizes]
    · exact Decimal.represented_zero
    · exact ⟨.one, by simp [Decimal.value, Decimal.one]⟩
    · exact ⟨{ coefficient := 3, scale := 0 }, by simp [Decimal.value]⟩
  have hexact : SaleExact largeSaleFill.size.value twoLots.lots := by
    intro first hfirst
    rw [hsold]
    rcases prefix_twoLots hfirst with hsizes | hsizes | hsizes <;> rw [hsizes]
    · exact ⟨{ coefficient := -2, scale := 0 }, by norm_num [Decimal.value]⟩
    · exact ⟨{ coefficient := -1, scale := 0 }, by norm_num [Decimal.value]⟩
    · exact ⟨.one, by norm_num [Decimal.value, Decimal.one]⟩
  obtain ⟨q, before, after, hbook, hq, htotal, htotal', hvalue, -, hopen⟩ :=
    (fills_open_and_close_lots twoLots largeSale largeSaleFill).2 rfl
      (by simp only [Open]; decide) (by decide) hbefore hexact
  have hthree : before = { coefficient := 3, scale := 0 } := by
    have hcomputed : twoLots.positionSize? = some { coefficient := 3, scale := 0 } := by decide
    rw [htotal] at hcomputed
    exact Option.some.inj hcomputed
  refine ⟨q, after, hbook, htotal', ?_, by rw [hq]; rfl, hopen⟩
  rw [hvalue, hsold, hthree]
  norm_num [Decimal.value]

end Portfolio

end TradingDesk

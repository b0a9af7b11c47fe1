import TradingDesk.Proofs.Decimal.Bounds
import TradingDesk.Proofs.Decimal.Quotient
import TradingDesk.Proofs.Trading.Exposure
/-!
# Bargains

With targets on the right side of what they are measured by, a lot is not sold for less than it was
bought at, and nothing is bought for more than the last sale brought. Rounding takes nothing from
that as long as the cost of the lot is a decimal, since no target is rounded past its measure.
-/

namespace TradingDesk

open Decimal (zero one Represented)

namespace MarketView

/-- The best prices are positive. -/
structure Positive (v : MarketView) : Prop where
  bid : ∀ bid, v.bestBid? = some bid → zero < bid
  ask : ∀ ask, v.bestAsk? = some ask → zero < ask

end MarketView

namespace Portfolio

variable {c : Settings.Target} {p q : Portfolio} {lot : Lot}

/-- A price at which a portfolio may trade: it sells for no less than it paid, and buys for no more
than it last got, unless it is set to trade at a loss. -/
structure Bargain (c : Settings.Target) (p : Portfolio) (side : Side) (price : Decimal) : Prop where
  sell : side = .sell → (zero < c.tolerance → zero ≤ c.upside) → ∀ lot ∈ p.lots,
    Represented (lot.size.value * lot.entryPrice.value) → lot.entryPrice ≤ price
  buy : side = .buy → (zero < c.tolerance → zero ≤ c.downside) → ∀ exit, p.lastExit = some exit →
    price ≤ exit

/-- All that was paid and got are positive prices, and the order that is pending is a bargain. -/
structure Thrifty (c : Settings.Target) (p : Portfolio) : Prop where
  paid : ∀ lot ∈ p.lots, zero < lot.entryPrice
  exit : ∀ price, p.lastExit = some price → zero < price
  pending : ∀ order, p.pending = some order → zero < order.size ∧
    ∃ price, order.limit = some price ∧ zero < price ∧ p.Bargain c order.side price

theorem Bargain.of_book {side : Side} {price : Decimal} (h : p.Bargain c side price)
    (hbook : p.SameBook q) : q.Bargain c side price := by
  obtain ⟨hlots, hexit⟩ := hbook
  constructor
  · rw [← hlots]
    exact h.sell
  · rw [← hexit]
    exact h.buy

theorem Thrifty.of_book (h : p.Thrifty c) (hbook : p.SameBook q)
    (hpending : q.pending = p.pending ∨ q.pending = none) : q.Thrifty c := by
  refine ⟨hbook.1 ▸ h.paid, hbook.2 ▸ h.exit, ?_⟩
  intro order horder
  rcases hpending with hsame | hnone
  · rw [hsame] at horder
    obtain ⟨hsize, price, hlimit, hprice, hbargain⟩ := h.pending order horder
    exact ⟨hsize, price, hlimit, hprice, hbargain.of_book hbook⟩
  · rw [hnone] at horder
    contradiction

theorem thrifty_new (c : Settings.Target) (id : String) (now : Instant) :
    (new id now).Thrifty c := by
  constructor
  · simp [new]
  · rintro price ⟨⟩
  · rintro order ⟨⟩

/-- A fill at a positive price is booked at it. -/
theorem Thrifty.applyFill? (h : p.Thrifty c) {order : Order} {fill : Fill}
    (hprice : zero < fill.price) (hfilled : p.applyFill? order fill = some q) :
    (∀ lot ∈ q.lots, zero < lot.entryPrice) ∧ ∀ price, q.lastExit = some price → zero < price := by
  obtain ⟨-, rfl⟩ | ⟨-, lots, hclose, rfl⟩ := applyFill?_cases hfilled
  · refine ⟨?_, h.exit⟩
    intro lot hlot
    rcases List.mem_append.mp hlot with hold | hnew
    · exact h.paid lot hold
    · rw [List.mem_singleton.mp hnew]
      exact hprice
  · constructor
    · intro lot hlot
      obtain ⟨lot', hlot', heq⟩ := closeLots?_mem hclose lot hlot
      rw [heq]
      exact h.paid lot' hlot'
    · rintro price ⟨⟩
      exact hprice

/-- The entry price of a single lot whose cost is a decimal is its own, to the last digit. -/
theorem entryPrice?_exact (hlots : p.lots = [lot]) (hpos : zero < lot.size)
    (hexact : Represented (lot.size.value * lot.entryPrice.value)) :
    ∃ paid, p.entryPrice? = some (some paid) ∧ paid.value = lot.entryPrice.value := by
  obtain ⟨cost, hcost, hvalue⟩ := Decimal.mul?_exact hexact
  have hcosts : p.lots.mapM lotCost? = some [cost] := by
    simp [hlots, lotCost?, hcost]
  obtain ⟨total, htotal, hsum⟩ := Decimal.add?_exact (a := zero) (b := cost)
    (by rw [Decimal.value_zero, zero_add]; exact Decimal.represented_value cost)
  rw [Decimal.value_zero, zero_add, hvalue, mul_comm] at hsum
  have hsize : lot.size.value ≠ 0 := by
    exact (Decimal.zero_lt_iff.mp hpos).ne'
  obtain ⟨paid, hdiv, hpaid⟩ := Decimal.div?_exact hsize hsum
  refine ⟨paid, ?_, hpaid⟩
  simp [entryPrice?, positionSize?_single hlots hpos, Decimal.isZero_of_pos hpos, hcosts, total?,
    htotal, hdiv]

end Portfolio

namespace TargetPrice

variable {c : Settings.Target} {s s' : TargetPrice} {v : MarketView} {p : Portfolio}
  {paid anchor target : Decimal}

/-- A move in the right direction, or none at all. -/
theorem move_nonneg {factor : Decimal} (htolerance : zero ≤ c.tolerance)
    (hfactor : zero < c.tolerance → zero ≤ factor) :
    0 ≤ c.tolerance.value * factor.value := by
  rw [Decimal.zero_le_iff] at htolerance
  rw [Decimal.zero_lt_iff, Decimal.zero_le_iff] at hfactor
  rcases htolerance.eq_or_lt with hnone | hsome
  · rw [← hnone, zero_mul]
  · exact mul_nonneg hsome.le (hfactor hsome)

theorem sellTarget?_ge (hpaid : 0 < paid.value) (hmove : 0 ≤ c.tolerance.value * c.upside.value)
    (h : sellTarget? c paid = some target) : paid.value ≤ target.value := by
  simp only [sellTarget?, Option.bind_eq_bind, Option.bind_eq_some_iff] at h
  obtain ⟨move, hmul, factor, hadd, htarget⟩ := h
  have hfactor := Decimal.le_add? (by rw [Decimal.one_value]; exact zero_le_one)
    (Decimal.mul?_nonneg hmove hmul) hadd
  rw [Decimal.one_value] at hfactor
  exact Decimal.le_mul? hpaid hfactor htarget

theorem buyTarget?_le (hanchor : 0 < anchor.value)
    (hmove : 0 ≤ c.tolerance.value * c.downside.value)
    (h : buyTarget? c anchor = some target) : target.value ≤ anchor.value := by
  simp only [buyTarget?, Option.bind_eq_bind, Option.bind_eq_some_iff] at h
  obtain ⟨move, hmul, factor, hsub, htarget⟩ := h
  exact Decimal.mul?_le hanchor (Decimal.one_sub?_le (Decimal.mul?_nonneg hmove hmul) hsub) htarget

/-- What is held is of a positive size: that of the lot, or the one that is traded. -/
theorem held_pos {held : Decimal} (h : p.Bounded c) (hsize : zero < c.size)
    (hheld : holding? c p = some (some (paid, held))) : zero < held := by
  rcases h.lots_cases with hnone | ⟨lot, hlot, hpos, -⟩
  · have hentry : p.entryPrice? = some none := by
      simp [Portfolio.entryPrice?, Portfolio.positionSize?, hnone, Portfolio.total?, Decimal.isZero,
        zero]
    simp only [holding?, hentry, Option.bind_eq_bind, Option.bind_some] at hheld
    split at hheld
    · obtain ⟨reference, -, hpair⟩ := Option.map_eq_some_iff.mp (Option.some.inj hheld)
      cases hpair
      exact hsize
    · cases hheld
  · rw [(holding?_cases h hheld).2 paid held rfl lot (by simp [hlot])]
    exact hpos

/-- The orders that the strategy decides on in a market of positive prices are bargains. -/
theorem bargain_of_evaluate? {trade : Trade} (hbounded : p.Bounded s.target)
    (hthrifty : p.Thrifty s.target) (hsize : zero < s.target.size)
    (htolerance : zero ≤ s.target.tolerance) (hview : v.Positive)
    (h : s.evaluate? v p = some (.go trade, s')) :
    zero < trade.size ∧ ∃ price, trade.limit = some price ∧ zero < price ∧
      p.Bargain s.target trade.side price := by
  rcases trade_of_evaluate? h with ⟨paid, held, hheld, hsells⟩ | ⟨-, anchor, hanchor, hbuys⟩
  · obtain ⟨hbid, htarget, hreached⟩ := hsells
    refine ⟨held_pos hbounded hsize hheld, _, rfl, hview.bid _ hbid, ?_, by rintro ⟨⟩⟩
    intro _ hfactor lot hlot hexact
    obtain ⟨lot', hlots, hpos, -⟩ := hbounded.lots_cases.resolve_left fun hnone => by
      rw [hnone] at hlot
      contradiction
    rw [hlots, List.mem_singleton] at hlot
    subst hlot
    obtain ⟨paid', hentry, hvalue⟩ := Portfolio.entryPrice?_exact hlots hpos hexact
    have hpaid : paid' = paid := by
      simp only [holding?, hentry, Option.bind_eq_bind, Option.bind_some, Option.bind_eq_some_iff,
        Option.pure_def, Option.some.injEq, Prod.mk.injEq] at hheld
      obtain ⟨-, -, hpaid, -⟩ := hheld
      exact hpaid
    subst hpaid
    have hlow := hthrifty.paid lot (by simp [hlots])
    rw [Decimal.zero_lt_iff, ← hvalue] at hlow
    rw [Decimal.le_iff] at hreached ⊢
    rw [← hvalue]
    exact (sellTarget?_ge hlow (move_nonneg htolerance hfactor) htarget).trans hreached
  · obtain ⟨hask, htarget, hreached⟩ := hbuys
    refine ⟨hsize, _, rfl, hview.ask _ hask, by rintro ⟨⟩, ?_⟩
    intro _ hfactor exit hexit
    obtain rfl : exit = anchor := by
      rw [anchor?, hexit] at hanchor
      exact Option.some.inj hanchor
    have hlow := hthrifty.exit exit hexit
    rw [Decimal.zero_lt_iff] at hlow
    rw [Decimal.le_iff] at hreached ⊢
    exact hreached.trans (buyTarget?_le hlow (move_nonneg htolerance hfactor) htarget)

end TargetPrice

namespace Executor

variable {c : Settings.Target} {x : Executor TargetPrice} {m : Moment}

/-- A reply keeps a portfolio thrifty if the market that it tells of has positive prices and the
fill that it tells of has one. -/
theorem Prudent.thrifty_resume (h : x.Prudent c) (hsize : zero < c.size)
    (htolerance : zero ≤ c.tolerance) (hthrifty : x.state.Thrifty c) {reply : Reply}
    (hmarket : ∀ view, reply = .viewed (.ok view) → view.Positive)
    (hfill : ∀ order fill, x.Awaits order → reply = .answered (.ok (.filled fill)) →
      zero < fill.price) : (x.resume reply m).state.Thrifty c := by
  have hturns := Turns.resume (x := x) (m := m) reply
  generalize x.trades reply = traded, x.resume reply m = x' at hturns
  cases hturns with
  | keep hleaves | skip _ hleaves => exact hthrifty.of_book hleaves.sameBook (.inl hleaves.pending)
  | dismiss hawaits hleaves => exact hthrifty.of_book hleaves.sameBook (.inr hleaves.pending)
  | @trade view trade memory order x' hjudged horder hleaves =>
      rw [h.strategy] at hjudged
      rw [← h.target] at hsize htolerance hthrifty
      obtain ⟨hpos, price, hlimit, hprice, hbargain⟩ := TargetPrice.bargain_of_evaluate?
        (by rw [h.target]; exact h.limited.bounded) hthrifty hsize htolerance (hmarket view rfl)
        hjudged
      rw [h.target] at hthrifty hbargain
      have hcleared := hthrifty.of_book (q := { x'.state with pending := none }) hleaves.sameBook
        (.inr rfl)
      refine ⟨hcleared.paid, hcleared.exit, ?_⟩
      intro order' hpending
      rw [hleaves.pending, Option.some.injEq] at hpending
      rw [← hpending, horder]
      exact ⟨hpos, price, hlimit, hprice, hbargain.of_book hleaves.sameBook⟩
  | @fill order fill p x' hawaits hfilled hleaves =>
      obtain ⟨hpaid, hexit⟩ := hthrifty.applyFill? (hfill order fill hawaits rfl) hfilled
      refine ⟨hleaves.lots ▸ hpaid, hleaves.lastExit ▸ hexit, ?_⟩
      intro order' hpending
      rw [hleaves.pending] at hpending
      contradiction

end Executor

end TradingDesk

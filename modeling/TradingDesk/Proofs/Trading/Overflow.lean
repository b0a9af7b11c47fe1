import TradingDesk.Proofs.Decimal.Overflow
import TradingDesk.Proofs.Exchange.Amounts
import TradingDesk.Proofs.Trading.Lots
import TradingDesk.Proofs.Trading.Targets
/-!
# Amounts that grow too large

What the exchange says of an order that is done goes through quotients, sums and products: the price
of the fill, the size and the cost of the position that it opens, and the target that the position
is measured by. Each of them is computed exactly if its result fits, and nothing is ever divided by
zero. Nobody looks whether it fits: neither the exchange's amounts nor the settings have a bound.
-/

namespace TradingDesk

open Decimal (zero Fits)

theorem isSome_bind_iff {α β : Type} {x : Option α} {f : α → Option β} :
    (x.bind f).isSome = true ↔ x.isSome = true ∧ ∀ a, x = some a → (f a).isSome = true := by
  cases x <;> simp

@[simp] theorem isSome_bind_some {α β : Type} {x : Option α} {f : α → β} :
    (x.bind fun a => some (f a)).isSome = x.isSome := by
  cases x <;> rfl

namespace Exchange.OrderRecord

variable {r : OrderRecord}

/-- The price of the fill that the record tells of, if it tells of one, fits. -/
def PriceFits (r : OrderRecord) : Prop :=
  r.IsDone → zero < amount r.filledSize →
    Fits ((amount r.executedValue).value / (amount r.filledSize).value)

theorem outcome?_isSome_iff (now : Instant) : (r.outcome? now).isSome = true ↔ r.PriceFits := by
  by_cases hdone : r.IsDone
  · by_cases hpos : zero < amount r.filledSize
    · have hne := (Decimal.zero_lt_iff.mp hpos).ne'
      rw [outcome?_of_filled now hdone hpos, Option.isSome_map, Decimal.div?_isSome_iff,
        and_iff_right hne]
      exact ⟨fun hfits _ _ => hfits, fun hfits => hfits hdone hpos⟩
    · rw [outcome?_of_not_filled now hdone hpos]
      exact iff_of_true rfl fun _ h => absurd h hpos
  · have hopen : ¬ (r.status = "done" ∨ r.status = "settled") := hdone
    rw [outcome?, if_neg hopen]
    refine iff_of_true ?_ fun h => absurd h hdone
    split <;> rfl

theorem filled_size_pos {now : Instant} {fill : Fill} (h : r.outcome? now = some (.filled fill)) :
    zero < fill.size := by
  by_cases hdone : r.IsDone
  · by_cases hpos : zero < amount r.filledSize
    · rw [outcome?_of_filled now hdone hpos] at h
      obtain ⟨price, -, hmade⟩ := Option.map_eq_some_iff.mp h
      cases hmade
      exact hpos
    · rw [outcome?_of_not_filled now hdone hpos] at h
      cases h
  · have hopen : ¬ (r.status = "done" ∨ r.status = "settled") := hdone
    rw [outcome?, if_neg hopen] at h
    split at h <;> cases h

end Exchange.OrderRecord

namespace Portfolio

variable {p : Portfolio} {amounts : List Decimal} {sum : Decimal}

/-- Added to a sum one after the other, the amounts fit each time. -/
def SumsFit (sum : Decimal) : List Decimal → Prop
  | [] => True
  | a :: rest =>
    Fits (sum.value + a.value) ∧ ∀ next, sum.add? a = some next → SumsFit next rest

theorem foldlM_add?_isSome_iff (amounts : List Decimal) (sum : Decimal) :
    (amounts.foldlM (fun sum a => Decimal.add? sum a) sum).isSome = true ↔ SumsFit sum amounts := by
  induction amounts generalizing sum with
  | nil => exact iff_of_true rfl trivial
  | cons a rest ih =>
      rw [List.foldlM_cons, Option.bind_eq_bind, isSome_bind_iff, Decimal.add?_isSome_iff, SumsFit]
      simp only [ih]

theorem total?_isSome_iff : (total? amounts).isSome = true ↔ SumsFit zero amounts :=
  foldlM_add?_isSome_iff amounts zero

/-- A sum of positive amounts is no less than any sum on the way to it. -/
theorem pos_of_foldlM_add? (hpos : ∀ a ∈ amounts, zero < a) {total : Decimal}
    (hnonneg : 0 ≤ sum.value) (hsum : 0 < sum.value ∨ amounts ≠ [])
    (h : amounts.foldlM (fun sum a => Decimal.add? sum a) sum = some total) : 0 < total.value := by
  induction amounts generalizing sum with
  | nil =>
      cases h
      exact hsum.resolve_right fun hne => hne rfl
  | cons a rest ih =>
      rw [List.foldlM_cons, Option.bind_eq_bind, Option.bind_eq_some_iff] at h
      obtain ⟨next, hadd, hrest⟩ := h
      have ha := Decimal.zero_lt_iff.mp (hpos a List.mem_cons_self)
      have hnext : 0 < next.value := by
        rcases hnonneg.eq_or_lt with hzero | hlt
        · have hsame : sum.add? a = some a := by
            rw [Decimal.add?, if_neg (by rw [Decimal.isZero_iff]; exact ha.ne'),
              if_pos (Decimal.isZero_iff.mpr hzero.symm)]
          rw [hsame] at hadd
          cases hadd
          exact ha
        · exact hlt.trans_le (Decimal.le_add? hnonneg ha.le hadd)
      exact ih (fun b hb => hpos b (List.mem_cons_of_mem a hb)) hnext.le (.inl hnext) hrest

/-- All lots of the portfolio were opened by purchases that order records tell of. -/
inductive Opened : Portfolio → Prop
  | none {p : Portfolio} (hnone : p.lots = []) : Opened p
  | buy {p q : Portfolio} {order : Order} {r : Exchange.OrderRecord} {now : Instant} {fill : Fill}
      (hopened : Opened p) (hside : order.side = .buy)
      (hfilled : r.outcome? now = some (.filled fill))
      (hbooked : p.applyFill? order fill = some q) : Opened q

theorem Opened.isOpen (h : Opened p) : Portfolio.Open p.lots := by
  induction h with
  | none hnone => simp [Portfolio.Open, hnone]
  | buy _ hside hfilled hbooked ih =>
      simp only [applyFill?, hside, Option.some.injEq] at hbooked
      subst hbooked
      intro lot hlot
      rcases List.mem_append.mp hlot with hold | hnew
      · exact ih lot hold
      · rw [List.mem_singleton.mp hnew]
        exact Exchange.OrderRecord.filled_size_pos hfilled

/-- The average price of the lots can be computed: their size, what each of them cost and all of
them, and what that is for one. -/
structure MeasureFits (p : Portfolio) : Prop where
  size : SumsFit zero (p.lots.map (·.size))
  lots : ∀ lot ∈ p.lots, Fits (lot.size.value * lot.entryPrice.value)
  cost : ∀ costs, p.lots.mapM lotCost? = some costs → SumsFit zero costs
  price : ∀ size costs cost, p.positionSize? = some size → p.lots.mapM lotCost? = some costs →
    total? costs = some cost → Fits (cost.value / size.value)

theorem lotCost?_isSome_iff {lot : Lot} :
    (lotCost? lot).isSome = true ↔ Fits (lot.size.value * lot.entryPrice.value) :=
  Decimal.mul?_isSome_iff

theorem mapM_lotCost?_isSome_iff (lots : List Lot) : (lots.mapM lotCost?).isSome = true ↔
    ∀ lot ∈ lots, Fits (lot.size.value * lot.entryPrice.value) := by
  induction lots with
  | nil => simp
  | cons lot rest ih =>
      rw [List.forall_mem_cons, ← ih, ← lotCost?_isSome_iff, List.mapM_cons]
      cases lotCost? lot <;> cases rest.mapM lotCost? <;> simp

theorem positionSize?_isSome_iff :
    p.positionSize?.isSome = true ↔ SumsFit zero (p.lots.map (·.size)) := total?_isSome_iff

/-- The size that a price is divided by is positive. -/
theorem positionSize?_pos (hopen : Open p.lots) (hlots : p.lots ≠ []) {size : Decimal}
    (h : p.positionSize? = some size) : zero < size := by
  have hpos : ∀ a ∈ p.lots.map (·.size), zero < a := by
    simpa [Portfolio.Open] using hopen
  rw [Decimal.zero_lt_iff]
  exact pos_of_foldlM_add? hpos Decimal.value_zero.ge (.inr (by simpa using hlots)) h

theorem measureFits_of_nil (h : p.lots = []) : p.MeasureFits where
  size := by simp [h, SumsFit]
  lots := by simp [h]
  cost := by
    rintro costs hcosts
    rw [h, List.mapM_nil, Option.pure_def, Option.some.injEq] at hcosts
    rw [← hcosts]
    trivial
  price := by
    intro size costs cost hsize hcosts hcost
    have hzero : zero = size := by simpa [positionSize?, h, total?] using hsize
    rw [← hzero, Decimal.value_zero, div_zero]
    exact Decimal.fits_zero

theorem entryPrice?_of_pos {size : Decimal} (hsize : p.positionSize? = some size)
    (hpos : zero < size) : p.entryPrice? = (p.lots.mapM lotCost?).bind fun costs =>
      (total? costs).bind fun cost => (cost.div? size).map some := by
  rw [entryPrice?, hsize]
  simp [Decimal.isZero_of_pos hpos, Option.bind_eq_bind, Option.map_eq_bind]

theorem entryPrice?_isSome_iff (hopen : Open p.lots) :
    p.entryPrice?.isSome = true ↔ p.MeasureFits := by
  by_cases hlots : p.lots = []
  · refine iff_of_true ?_ (measureFits_of_nil hlots)
    simp [entryPrice?, positionSize?, hlots, total?, Decimal.isZero, Decimal.zero]
  · cases hsize : p.positionSize? with
    | none =>
        refine iff_of_false (by simp [entryPrice?, hsize]) fun hfits => ?_
        rw [← Option.not_isSome_iff_eq_none, positionSize?_isSome_iff] at hsize
        exact hsize hfits.size
    | some size =>
        have hpos := positionSize?_pos hopen hlots hsize
        have hne := (Decimal.zero_lt_iff.mp hpos).ne'
        have hfits : SumsFit zero (p.lots.map (·.size)) :=
          positionSize?_isSome_iff.mp (by simp [hsize])
        rw [entryPrice?_of_pos hsize hpos, isSome_bind_iff, mapM_lotCost?_isSome_iff]
        simp only [isSome_bind_iff, total?_isSome_iff, Option.isSome_map, Decimal.div?_isSome_iff]
        constructor
        · rintro ⟨hlotsFit, hcosts⟩
          refine ⟨hfits, hlotsFit, fun costs h => (hcosts costs h).1, ?_⟩
          intro size' costs cost hsize' h hcost
          rw [hsize, Option.some.injEq] at hsize'
          exact hsize' ▸ ((hcosts costs h).2 cost hcost).2
        · intro hmeasure
          exact ⟨hmeasure.lots, fun costs h => ⟨hmeasure.cost costs h, fun cost hcost =>
            ⟨hne, hmeasure.price size costs cost hsize h hcost⟩⟩⟩

end Portfolio

namespace TargetPrice

variable {c : Settings.Target} {s : TargetPrice} {v : MarketView} {p : Portfolio}

/-- The target of a sale can be computed: the move that is waited for, the factor that this makes,
and the price paid times the factor. -/
def SaleFits (c : Settings.Target) (paid : Decimal) : Prop :=
  Fits (c.tolerance.value * c.upside.value) ∧
    ∀ move, c.tolerance.mul? c.upside = some move → Fits (1 + move.value) ∧
      ∀ factor, Decimal.one.add? move = some factor → Fits (paid.value * factor.value)

/-- The target of a purchase can be computed. -/
def PurchaseFits (c : Settings.Target) (anchor : Decimal) : Prop :=
  Fits (c.tolerance.value * c.downside.value) ∧
    ∀ move, c.tolerance.mul? c.downside = some move → Fits (1 - move.value) ∧
      ∀ factor, Decimal.one.sub? move = some factor → Fits (anchor.value * factor.value)

theorem sellTarget?_isSome_iff {paid : Decimal} :
    (sellTarget? c paid).isSome = true ↔ SaleFits c paid := by
  simp only [sellTarget?, Option.bind_eq_bind, isSome_bind_iff, Decimal.mul?_isSome_iff,
    Decimal.add?_isSome_iff, Decimal.one_value, SaleFits]

theorem buyTarget?_isSome_iff {anchor : Decimal} :
    (buyTarget? c anchor).isSome = true ↔ PurchaseFits c anchor := by
  simp only [buyTarget?, Option.bind_eq_bind, isSome_bind_iff, Decimal.mul?_isSome_iff,
    Decimal.sub?_isSome_iff, Decimal.one_value, PurchaseFits]

/-- The target that the portfolio is measured by can be computed: that of a sale if something is
held, else that of a purchase if there is an anchor. -/
structure TargetFits (s : TargetPrice) (p : Portfolio) : Prop where
  sale : ∀ paid held, holding? s.target p = some (some (paid, held)) → SaleFits s.target paid
  purchase : ∀ anchor, holding? s.target p = some none → s.anchor? p = some anchor →
    PurchaseFits s.target anchor

theorem holding?_isSome_iff : (holding? c p).isSome = true ↔ p.entryPrice?.isSome = true := by
  rw [holding?, Option.bind_eq_bind, isSome_bind_iff, and_iff_left_iff_imp]
  intro _ entry hentry
  cases entry with
  | none =>
      dsimp only
      split <;> rfl
  | some paid =>
      rw [Portfolio.entryPrice?, Option.bind_eq_bind, Option.bind_eq_some_iff] at hentry
      obtain ⟨size, hsize, -⟩ := hentry
      simp [hsize]

theorem evaluateSell?_isSome_iff {bid paid held : Decimal} (hbid : v.bestBid? = some bid) :
    (evaluateSell? c v paid held).isSome = true ↔ SaleFits c paid := by
  simp [evaluateSell?, hbid, ← sellTarget?_isSome_iff]

theorem evaluateBuy?_isSome_iff {ask : Decimal} (hask : v.bestAsk? = some ask) :
    (s.evaluateBuy? v p).isSome = true ↔
      ∀ anchor, s.anchor? p = some anchor → PurchaseFits s.target anchor := by
  cases hanchor : s.anchor? p with
  | none => simp [evaluateBuy?, hask, hanchor]
  | some anchor =>
      simp [evaluateBuy?, hask, hanchor, ← buyTarget?_isSome_iff]

theorem evaluate?_isSome_iff {quote : Quote} (hquote : v.quote = some quote) :
    (s.evaluate? v p).isSome = true ↔ p.entryPrice?.isSome = true ∧ s.TargetFits p := by
  have hbid : v.bestBid? = some quote.bidPrice := by rw [MarketView.bestBid?, hquote]
  have hask : v.bestAsk? = some quote.askPrice := by rw [MarketView.bestAsk?, hquote]
  rw [← holding?_isSome_iff (c := s.target), evaluate?, Option.bind_eq_bind]
  rcases hheld : holding? s.target p with _ | _ | ⟨paid, held⟩
  · simp
  · rw [Option.bind_some, and_iff_right (by rfl)]
    refine (evaluateBuy?_isSome_iff hask).trans ⟨fun h => ⟨?_, fun anchor _ => h anchor⟩, ?_⟩
    · intro paid held hsome
      rw [hheld] at hsome
      cases hsome
    · exact fun h anchor => h.purchase anchor hheld
  · rw [Option.bind_some, and_iff_right (by rfl)]
    have hsell : (evaluateSell? s.target v paid held).isSome = true ↔ s.TargetFits p := by
      rw [evaluateSell?_isSome_iff hbid]
      refine ⟨fun h => ⟨?_, ?_⟩, fun h => h.sale paid held hheld⟩
      · intro paid' held' hsome
        rw [hheld] at hsome
        cases hsome
        exact h
      · intro anchor hnone
        rw [hheld] at hnone
        cases hnone
    rw [← hsell]
    simp

/-- What an order record says of its order is computed exactly if the price fits. Of the lots that
such records open the size, the average price and the decision on a quote are computed exactly if
all sums, products and quotients on the way fit; by nothing but a positive size is divided. -/
theorem answered_iff_amounts_fit (hopened : p.Opened) {quote : Quote}
    (hquote : v.quote = some quote) :
    (∀ (r : Exchange.OrderRecord) (now : Instant), (r.outcome? now).isSome = true ↔ r.PriceFits) ∧
    (p.positionSize?.isSome = true ↔ Portfolio.SumsFit zero (p.lots.map (·.size))) ∧
    (p.entryPrice?.isSome = true ↔ p.MeasureFits) ∧
    (p.lots ≠ [] → ∀ size, p.positionSize? = some size → zero < size) ∧
    ∀ s : TargetPrice, (s.evaluate? v p).isSome = true ↔ p.MeasureFits ∧ s.TargetFits p := by
  have hentry := Portfolio.entryPrice?_isSome_iff hopened.isOpen
  refine ⟨fun r now => r.outcome?_isSome_iff now, Portfolio.positionSize?_isSome_iff, hentry,
    fun hlots size hsize => Portfolio.positionSize?_pos hopened.isOpen hlots hsize, fun s => ?_⟩
  rw [evaluate?_isSome_iff hquote, hentry]

/-! ### Amounts that fit, and amounts that do not -/

open Exchange.OrderRecord (filledRecord coinPurchase)

/-- A lot of some size, bought at one a piece. -/
def lotOf (size : Decimal) : Lot where
  clientId := "c-1"
  exchangeId := "x-1"
  size
  entryPrice := .one
  openedAt := ⟨0, 0⟩

def holderOf (sizes : List Decimal) : Portfolio :=
  { Portfolio.new "alpha" ⟨0, 0⟩ with lots := sizes.map lotOf }

/-- The record of an order that was filled for as much as it is worth. -/
def recordOf (size : String) : Exchange.OrderRecord :=
  { filledRecord with filledSize := some size, executedValue := some size }

/-- Such a record opens a lot. -/
theorem opened_concat {sizes : List Decimal} {text : String} {size : Decimal}
    (hopened : (holderOf sizes).Opened) (htext : Decimal.ofText? text = some size)
    (hpos : zero < size) : (holderOf (sizes ++ [size])).Opened := by
  have hamount : Exchange.OrderRecord.amount (some text) = size :=
    Exchange.OrderRecord.amount_of_stated htext
  have hfilled : (recordOf text).outcome? ⟨0, 0⟩ =
      some (.filled { exchangeId := "x-1", size, price := .one, filledAt := ⟨0, 0⟩ }) := by
    have hsize : Exchange.OrderRecord.amount (recordOf text).filledSize = size := hamount
    have hvalue : Exchange.OrderRecord.amount (recordOf text).executedValue = size := hamount
    rw [Exchange.OrderRecord.outcome?_of_filled ⟨0, 0⟩ (.inl rfl) (by rwa [hsize]), hsize, hvalue,
      Decimal.div?_self hpos]
    rfl
  have hside : coinPurchase.side = .buy := rfl
  refine .buy hopened hside hfilled ?_
  simp [Portfolio.applyFill?, coinPurchase, holderOf, lotOf]

theorem two_coins_opened : (holderOf [.two]).Opened := by
  have htext : Decimal.ofText? "2" = some .two := by decide
  have hnone : (holderOf []).Opened := .none rfl
  exact opened_concat hnone htext Exchange.OrderRecord.two_pos

theorem two_coins_price : (holderOf [.two]).entryPrice? = some (some .one) := by
  have hsize : (holderOf [.two]).positionSize? = some .two := rfl
  have hcosts : (holderOf [.two]).lots.mapM Portfolio.lotCost? = some [.two] := rfl
  have hcost : Portfolio.total? [.two] = some .two := rfl
  rw [Portfolio.entryPrice?_of_pos hsize Exchange.OrderRecord.two_pos, hcosts, Option.bind_some,
    hcost, Option.bind_some, Decimal.div?_self Exchange.OrderRecord.two_pos]
  rfl

/-- Two coins that were bought for two are worth a decision. -/
theorem two_coins_are_measured :
    (holderOf [.two]).Opened ∧ (holderOf [.two]).MeasureFits ∧
      (evaluate? { target := { size := .one } } (pricedAt .two .two)
        (holderOf [.two])).isSome = true := by
  obtain ⟨-, -, hentry, -, hdecision⟩ :=
    answered_iff_amounts_fit two_coins_opened (v := pricedAt .two .two) rfl
  have hmeasure : (holderOf [.two]).MeasureFits := hentry.mp (by rw [two_coins_price]; rfl)
  have hheld : holding? { size := .one } (holderOf [.two]) = some (some (.one, .two)) := by
    rw [holding?, two_coins_price]
    rfl
  have htarget : TargetFits { target := { size := .one } } (holderOf [.two]) := by
    constructor
    · intro paid held hsome
      rw [hheld] at hsome
      cases hsome
      exact sellTarget?_isSome_iff.mp rfl
    · intro anchor hnone
      rw [hheld] at hnone
      cases hnone
  exact ⟨two_coins_opened, hmeasure, (hdecision _).mpr ⟨hmeasure, htarget⟩⟩

/-- The largest amount. -/
def greatest : Decimal :=
  { Decimal.one with coefficient := 79228162514264337593543950335, coefficient_lt := by decide }

def greatestText : String := "79228162514264337593543950335"

/-- The record of an order of which a little was filled for the largest amount. -/
def dearRecord : Exchange.OrderRecord :=
  { filledRecord with filledSize := some "0.0001", executedValue := some greatestText }

/-- The strategy of a portfolio that waits for a move that is no decimal. -/
def lofty : Settings.Target := { tolerance := .two, upside := greatest, size := .one }

def loftySettings : Settings :=
  { Settings.plain with portfolios := [{ id := "main", asset := "BTC-USD", strategy := lofty }] }

/-- The price of a little for a lot is no decimal, nor is the size of two large lots, nor the target
of a position under settings that are accepted. -/
theorem unbounded_amounts_overflow :
    (Exchange.OrderRecord.read? dearRecord.toJson = some dearRecord ∧
      dearRecord.outcome? ⟨0, 0⟩ = none) ∧
    ((holderOf [greatest, greatest]).Opened ∧
      (holderOf [greatest, greatest]).positionSize? = none) ∧
    loftySettings.validate = .ok () ∧ (∀ b ∈ loftySettings.portfolios, b.strategy = lofty) ∧
      (holderOf [.two]).Opened ∧
      evaluate? { target := lofty } (pricedAt .two .two) (holderOf [.two]) = none := by
  have hgreatest : Decimal.ofText? greatestText = some greatest := by decide +kernel
  have hpos : zero < greatest := by decide
  refine ⟨⟨by rfl, ?_⟩, ⟨?_, ?_⟩, by decide, by decide, two_coins_opened, ?_⟩
  · have hvalue : Exchange.OrderRecord.amount dearRecord.executedValue = greatest :=
      Exchange.OrderRecord.amount_of_stated hgreatest
    have hsize : Exchange.OrderRecord.amount dearRecord.filledSize =
        { coefficient := 1, scale := 4 } := by decide +kernel
    rw [← Option.not_isSome_iff_eq_none, Exchange.OrderRecord.outcome?_isSome_iff]
    intro hfits
    have hlarge := hfits (.inl rfl) (by rw [hsize]; decide)
    rw [hvalue, hsize] at hlarge
    norm_num [Fits, Decimal.value, greatest, Decimal.one, pow2] at hlarge
  · have hnone : (holderOf []).Opened := .none rfl
    exact opened_concat (opened_concat hnone hgreatest hpos) hgreatest hpos
  · rw [← Option.not_isSome_iff_eq_none, Portfolio.positionSize?_isSome_iff]
    rintro ⟨-, hrest⟩
    have hlarge := (hrest greatest rfl).1
    norm_num [Fits, Decimal.value, lotOf, greatest, Decimal.one, pow2] at hlarge
  · rw [← Option.not_isSome_iff_eq_none, evaluate?_isSome_iff (v := pricedAt .two .two) rfl]
    rintro ⟨-, htarget⟩
    have hheld : holding? lofty (holderOf [.two]) = some (some (.one, .two)) := by
      rw [holding?, two_coins_price]
      rfl
    have hlarge := (htarget.sale .one .two hheld).1
    norm_num [Fits, Decimal.value, lofty, greatest, Decimal.one, Decimal.two, pow2] at hlarge

end TargetPrice
end TradingDesk

import TradingDesk.Exchange.Record
import TradingDesk.Proofs.Decimal.Order
import TradingDesk.Trading.Portfolio
/-!
# Amounts that an order record states

The record of an order that is done states how much of it was filled and for how much. An amount
that it does not state, or states in a text that is no decimal, counts as nothing: such an order
comes out as filled for free, or as not filled at all.
-/

namespace TradingDesk.Exchange.OrderRecord

/-- The amount that a field states, if it is there and can be read. -/
def statedAmount? (raw : Option String) : Option Decimal := raw.bind Decimal.ofText?

def IsDone (r : OrderRecord) : Prop := r.status = "done" ∨ r.status = "settled"

/-- The record states the size of a fill and what it was worth, and the fill is of that size, at the
price that the two come to. -/
def StatesFill (r : OrderRecord) (fill : Fill) : Prop :=
  ∃ size value, statedAmount? r.filledSize = some size ∧
    statedAmount? r.executedValue = some value ∧ .zero < size ∧ .zero < value ∧
    fill.size = size ∧ value.div? size = some fill.price ∧ .zero < fill.price

/-- The record states that nothing was filled, or nothing of a fill. -/
def StatesNoFill (r : OrderRecord) : Prop :=
  r.filledSize = none ∨ ∃ size, statedAmount? r.filledSize = some size ∧ size.isZero = true

/-- An outcome that says no more of amounts than the record does. -/
structure Faithful (r : OrderRecord) (outcome : Option Order.Outcome) : Prop where
  filled : ∀ fill, outcome = some (.filled fill) → r.StatesFill fill
  rejected : ∀ reason, outcome = some (.rejected reason) → r.StatesNoFill

variable {r : OrderRecord} {size value : Decimal}

theorem amount_of_stated {raw : Option String} (h : statedAmount? raw = some value) :
    amount raw = value := by
  unfold statedAmount? at h
  rw [amount, h, Option.getD_some]

theorem amount_of_not_stated {raw : Option String} (h : statedAmount? raw = none) :
    amount raw = .zero := by
  unfold statedAmount? at h
  rw [amount, h, Option.getD_none]

/-- A positive amount was stated. -/
theorem stated_of_pos {raw : Option String} (h : .zero < amount raw) :
    statedAmount? raw = some (amount raw) := by
  cases hstated : statedAmount? raw with
  | none =>
      rw [amount_of_not_stated hstated, Decimal.lt_iff] at h
      exact absurd h (lt_irrefl _)
  | some value => rw [amount_of_stated hstated]

/-! ### Orders that are done -/

theorem outcome?_of_filled (now : Instant) (hdone : r.IsDone)
    (hpos : .zero < amount r.filledSize) :
    r.outcome? now = ((amount r.executedValue).div? (amount r.filledSize)).map fun price =>
      .filled { exchangeId := r.id, size := amount r.filledSize, price, filledAt := now } := by
  unfold IsDone at hdone
  unfold outcome?
  rw [if_pos hdone]
  simp only [if_pos hpos]
  cases (amount r.executedValue).div? (amount r.filledSize) <;> rfl

theorem outcome?_of_not_filled (now : Instant) (hdone : r.IsDone)
    (hnone : ¬ .zero < amount r.filledSize) :
    r.outcome? now = some (.rejected (r.doneReason.getD "done without fill")) := by
  unfold IsDone at hdone
  unfold outcome?
  rw [if_pos hdone]
  simp only [if_neg hnone]

/-- An order that was filled for an amount that is not stated was filled for free. -/
theorem outcome?_of_free (now : Instant) (hdone : r.IsDone)
    (hsize : statedAmount? r.filledSize = some size) (hpos : .zero < size)
    (hvalue : statedAmount? r.executedValue = none) :
    r.outcome? now =
      some (.filled { exchangeId := r.id, size, price := .zero, filledAt := now }) := by
  have hamount := amount_of_stated hsize
  rw [outcome?_of_filled now hdone (by rwa [hamount]), hamount, amount_of_not_stated hvalue,
    Decimal.div?, if_neg (by simp [Decimal.isZero_of_pos hpos])]
  rfl

theorem faithful_of_filled (now : Instant) (hdone : r.IsDone)
    (hsize : statedAmount? r.filledSize = some size) (hpos : .zero < size) :
    r.Faithful (r.outcome? now) ↔
      ∀ price, (amount r.executedValue).div? size = some price →
        .zero < price ∧ ∃ value, statedAmount? r.executedValue = some value ∧ .zero < value := by
  have hamount := amount_of_stated hsize
  have houtcome := outcome?_of_filled now hdone (by rwa [hamount])
  rw [hamount] at houtcome
  rw [houtcome]
  constructor
  · intro hfaithful price hprice
    obtain ⟨size', value, hsize', hvalue, -, hvaluePos, -, -, hpricePos⟩ :=
      hfaithful.filled { exchangeId := r.id, size, price, filledAt := now } (by rw [hprice]; rfl)
    exact ⟨hpricePos, value, hvalue, hvaluePos⟩
  · intro hprices
    constructor
    case filled =>
      intro fill hfill
      obtain ⟨price, hprice, hmade⟩ := Option.map_eq_some_iff.mp hfill
      obtain ⟨hpricePos, value, hvalue, hvaluePos⟩ := hprices price hprice
      rw [amount_of_stated hvalue] at hprice
      cases hmade
      exact ⟨size, value, hsize, hvalue, hpos, hvaluePos, rfl, hprice, hpricePos⟩
    case rejected =>
      intro reason hrejected
      obtain ⟨price, -, hmade⟩ := Option.map_eq_some_iff.mp hrejected
      cases hmade

theorem faithful_of_not_filled (now : Instant) (hdone : r.IsDone)
    (hnone : ¬ .zero < amount r.filledSize) :
    r.Faithful (r.outcome? now) ↔ r.StatesNoFill := by
  rw [outcome?_of_not_filled now hdone hnone]
  constructor
  · intro hfaithful
    exact hfaithful.rejected _ rfl
  · intro hstates
    exact ⟨nofun, fun _ _ => hstates⟩

theorem not_pos_of_statesNoFill (h : r.StatesNoFill) : ¬ .zero < amount r.filledSize := by
  intro hpos
  rcases h with hmissing | ⟨size, hsize, hzero⟩
  · rw [hmissing] at hpos
    exact absurd (stated_of_pos hpos) nofun
  · rw [amount_of_stated hsize] at hpos
    rw [Decimal.isZero_of_pos hpos] at hzero
    contradiction

/-- What is said of an order that is done is no more than its record states exactly if the record
says that nothing was filled, or states a positive size and, unless the price grows too large, a
positive value, and the price is not rounded to nothing. A value that is not stated gives the fill
for free, and a size that cannot be read gives no fill. -/
theorem stated_amounts_kept_iff (hdone : r.IsDone) (now : Instant) :
    (r.Faithful (r.outcome? now) ↔
      r.StatesNoFill ∨ ∃ size, statedAmount? r.filledSize = some size ∧ .zero < size ∧
        ∀ price, (amount r.executedValue).div? size = some price →
          .zero < price ∧ ∃ value, statedAmount? r.executedValue = some value ∧ .zero < value) ∧
    (∀ size, statedAmount? r.filledSize = some size → .zero < size →
      statedAmount? r.executedValue = none →
      r.outcome? now =
        some (.filled { exchangeId := r.id, size, price := .zero, filledAt := now })) ∧
    (statedAmount? r.filledSize = none →
      r.outcome? now = some (.rejected (r.doneReason.getD "done without fill"))) := by
  refine ⟨?_, fun size hsize hpos hvalue => outcome?_of_free now hdone hsize hpos hvalue, ?_⟩
  · by_cases hpos : .zero < amount r.filledSize
    · have hsize := stated_of_pos hpos
      have hstates : ¬ r.StatesNoFill := fun h => not_pos_of_statesNoFill h hpos
      rw [faithful_of_filled now hdone hsize hpos]
      constructor
      · exact fun hprices => .inr ⟨_, hsize, hpos, hprices⟩
      · rintro (hnone | ⟨size, hsize', -, hprices⟩)
        · exact absurd hnone hstates
        · obtain rfl : amount r.filledSize = size := Option.some.inj (hsize.symm.trans hsize')
          exact hprices
    · rw [faithful_of_not_filled now hdone hpos]
      constructor
      · exact .inl
      · rintro (hnone | ⟨size, hsize, hsizePos, -⟩)
        · exact hnone
        · rw [amount_of_stated hsize] at hpos
          exact absurd hsizePos hpos
  · intro hunread
    apply outcome?_of_not_filled now hdone
    intro hpos
    rw [stated_of_pos hpos] at hunread
    contradiction

/-! ### An order filled for free, and one that is dropped -/

/-- Two coins, bought for two. -/
def filledRecord : OrderRecord :=
  { id := "x-1", clientId := none, product := none, status := "done", doneReason := some "filled"
    rejectReason := none, filledSize := some "2", executedValue := some "2", settled := true }

/-- The record of the same order, without its value. -/
def valuelessRecord : OrderRecord := { filledRecord with executedValue := none }

/-- The record of the same order, with a size that is no decimal. -/
def garbledRecord : OrderRecord := { filledRecord with filledSize := some "two" }

theorem two_pos : .zero < Decimal.two := by decide

theorem two_stated : statedAmount? filledRecord.filledSize = some .two := by decide

theorem filled_record_kept :
    filledRecord.IsDone ∧ filledRecord.Faithful (filledRecord.outcome? ⟨0, 0⟩) := by
  have hdone : filledRecord.IsDone := .inl rfl
  have hvalue : statedAmount? filledRecord.executedValue = some .two := two_stated
  have hprice : Decimal.two.div? .two = some .one := by
    simp [Decimal.div?, Decimal.isZero, Decimal.two, Decimal.develop, Decimal.ofParts?]
    decide
  refine ⟨hdone, (stated_amounts_kept_iff hdone ⟨0, 0⟩).1.mpr
    (.inr ⟨.two, two_stated, two_pos, fun price hdivided => ?_⟩)⟩
  rw [amount_of_stated hvalue, hprice] at hdivided
  cases hdivided
  exact ⟨by decide, .two, hvalue, two_pos⟩

def coinPurchase : Order :=
  { clientId := "c-1", portfolio := "alpha", asset := "BTC-USD", side := .buy, size := .two
    limit := none, reason := "change", createdAt := ⟨0, 0⟩ }

/-- The coins whose value is not stated become a lot that cost nothing, and those whose number
cannot be read leave no trace. -/
theorem unstated_amounts_are_invented :
    (valuelessRecord.IsDone ∧ ∃ fill lot,
      valuelessRecord.outcome? ⟨0, 0⟩ = some (.filled fill) ∧
      ¬ valuelessRecord.Faithful (valuelessRecord.outcome? ⟨0, 0⟩) ∧
      ((Portfolio.new "alpha" ⟨0, 0⟩).applyFill? coinPurchase fill).map (·.lots) = some [lot] ∧
      lot.size = .two ∧ lot.entryPrice = .zero) ∧
    garbledRecord.IsDone ∧ garbledRecord.outcome? ⟨0, 0⟩ = some (.rejected "filled") ∧
      ¬ garbledRecord.Faithful (garbledRecord.outcome? ⟨0, 0⟩) := by
  have hfree := outcome?_of_free (r := valuelessRecord) ⟨0, 0⟩ (.inl rfl) two_stated two_pos rfl
  have hunread : statedAmount? garbledRecord.filledSize = none := by decide
  have hdropped : garbledRecord.outcome? ⟨0, 0⟩ = some (.rejected "filled") := by
    apply outcome?_of_not_filled ⟨0, 0⟩ (.inl rfl)
    rw [amount_of_not_stated hunread]
    decide
  refine ⟨⟨.inl rfl, _, _, hfree, fun hfaithful => ?_, rfl, rfl, rfl⟩, .inl rfl, hdropped,
    fun hfaithful => ?_⟩
  · obtain ⟨size, value, -, hvalue, -⟩ := hfaithful.filled _ hfree
    cases hvalue
  · rcases hfaithful.rejected _ hdropped with hmissing | ⟨size, hsize, -⟩
    · cases hmissing
    · rw [hunread] at hsize
      cases hsize

end TradingDesk.Exchange.OrderRecord

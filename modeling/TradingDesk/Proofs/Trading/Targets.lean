import TradingDesk.Proofs.Settings
import TradingDesk.Trading.TargetPrice
/-!
# Trades at target prices

The strategy sells what is held at a bid that has reached the sell target and buys its size at an
ask that has reached the buy target. A portfolio that starts with a sale sells first only if it is
given the price by which that sale is measured. Without one it buys first, as if it had been set to.
-/

namespace TradingDesk
namespace TargetPrice

variable {c : Settings.Target} {s s' : TargetPrice} {v : MarketView} {p : Portfolio} {trade : Trade}

/-- What is held is sold at the best bid, which has reached the target. -/
inductive Sells (c : Settings.Target) (v : MarketView) (paid held : Decimal) : Trade → Prop
  | intro {bid target : Decimal} (hbid : v.bestBid? = some bid)
      (htarget : sellTarget? c paid = some target) (hreached : target ≤ bid) :
      Sells c v paid held (sellAt bid target held)

/-- The size that is traded is bought at the best ask, which has reached the target. -/
inductive Buys (c : Settings.Target) (v : MarketView) (anchor : Decimal) : Trade → Prop
  | intro {ask target : Decimal} (hask : v.bestAsk? = some ask)
      (htarget : buyTarget? c anchor = some target) (hreached : ask ≤ target) :
      Buys c v anchor (buyAt ask target c.size)

theorem Sells.side {paid held : Decimal} (h : Sells c v paid held trade) : trade.side = .sell := by
  cases h
  rfl

theorem Buys.side {anchor : Decimal} (h : Buys c v anchor trade) : trade.side = .buy := by
  cases h
  rfl

theorem sells_of_evaluateSell? {paid held : Decimal}
    (h : evaluateSell? c v paid held = some (.go trade)) : Sells c v paid held trade := by
  unfold evaluateSell? at h
  split at h
  · cases h
  · next bid hbid =>
    simp only [Option.bind_eq_bind, Option.bind_eq_some_iff, Option.pure_def,
      Option.some.injEq] at h
    obtain ⟨target, htarget, hdecision⟩ := h
    split at hdecision
    · next hreached =>
      cases hdecision
      exact .intro hbid htarget hreached
    · cases hdecision

theorem evaluateBuy?_of_anchor {decision : Decision} {anchor : Decimal}
    (hanchor : s.anchor? p = some anchor) (h : s.evaluateBuy? v p = some (decision, s')) :
    s' = s ∧ ∀ trade, decision = .go trade → Buys s.target v anchor trade := by
  unfold evaluateBuy? at h
  split at h
  · cases h
    exact ⟨rfl, nofun⟩
  · next ask hask =>
    simp only [hanchor, Option.bind_eq_bind, Option.bind_eq_some_iff, Option.pure_def,
      Option.some.injEq, Prod.mk.injEq] at h
    obtain ⟨target, htarget, rfl, rfl⟩ := h
    refine ⟨rfl, fun trade hgo => ?_⟩
    split at hgo
    · next hreached =>
      cases hgo
      exact .intro hask htarget hreached
    · cases hgo

/-- Where there is no anchor yet, the best ask becomes it. -/
theorem evaluateBuy?_of_none {decision : Decision} (hanchor : s.anchor? p = none)
    (h : s.evaluateBuy? v p = some (decision, s')) :
    decision = .noGo ∧ s' = { s with firstSeen := v.bestAsk? } := by
  unfold evaluateBuy? at h
  split at h
  · next hask =>
    cases h
    have hunseen : s.firstSeen = none := by
      simp only [anchor?, Option.orElse_eq_orElse, Option.orElse_eq_or, Option.or_eq_none_iff]
        at hanchor
      exact hanchor.2.2
    exact ⟨rfl, by rw [hask, ← hunseen]⟩
  · next ask hask =>
    rw [hanchor] at h
    cases h
    exact ⟨rfl, by rw [hask]⟩

theorem evaluate?_of_holding {decision : Decision} {paid held : Decimal}
    (hheld : holding? s.target p = some (some (paid, held)))
    (h : s.evaluate? v p = some (decision, s')) :
    s' = s ∧ evaluateSell? s.target v paid held = some decision := by
  rw [evaluate?, hheld] at h
  simp only [Option.bind_eq_bind, Option.bind_some, Option.bind_eq_some_iff, Option.pure_def,
    Option.some.injEq, Prod.mk.injEq] at h
  obtain ⟨_, hsell, rfl, rfl⟩ := h
  exact ⟨rfl, hsell⟩

theorem evaluate?_of_flat {decision : Decision} (hheld : holding? s.target p = some none)
    (h : s.evaluate? v p = some (decision, s')) : s.evaluateBuy? v p = some (decision, s') := by
  rw [evaluate?, hheld] at h
  exact h

theorem holding?_of_evaluate? {decision : Decision} (h : s.evaluate? v p = some (decision, s')) :
    (∃ paid held, holding? s.target p = some (some (paid, held))) ∨
      holding? s.target p = some none := by
  rw [evaluate?, Option.bind_eq_bind, Option.bind_eq_some_iff] at h
  obtain ⟨held, hheld, -⟩ := h
  cases held with
  | some held => exact .inl ⟨held.1, held.2, hheld⟩
  | none => exact .inr hheld

/-- The strategy remembers no more than the first ask, while there is nothing else to measure a
purchase by. -/
theorem evaluate?_remembers {decision : Decision} (h : s.evaluate? v p = some (decision, s')) :
    s' = s ∨ s.anchor? p = none ∧ s' = { s with firstSeen := v.bestAsk? } := by
  rcases holding?_of_evaluate? h with ⟨paid, held, hheld⟩ | hheld
  · exact .inl (evaluate?_of_holding hheld h).1
  · have hbuy := evaluate?_of_flat hheld h
    cases hanchor : s.anchor? p with
    | some anchor => exact .inl (evaluateBuy?_of_anchor hanchor hbuy).1
    | none => exact .inr ⟨rfl, (evaluateBuy?_of_none hanchor hbuy).2⟩

/-- The strategy keeps to its settings. -/
theorem evaluate?_target {decision : Decision} (h : s.evaluate? v p = some (decision, s')) :
    s'.target = s.target := by
  rcases evaluate?_remembers h with rfl | ⟨-, rfl⟩ <;> rfl

/-- What is held is sold; who holds nothing buys. -/
theorem trade_of_evaluate? (h : s.evaluate? v p = some (.go trade, s')) :
    (∃ paid held, holding? s.target p = some (some (paid, held)) ∧
      Sells s.target v paid held trade) ∨
    holding? s.target p = some none ∧ ∃ anchor, s.anchor? p = some anchor ∧
      Buys s.target v anchor trade := by
  rcases holding?_of_evaluate? h with ⟨paid, held, hheld⟩ | hheld
  · have hsell := (evaluate?_of_holding hheld h).2
    exact .inl ⟨paid, held, hheld, sells_of_evaluateSell? hsell⟩
  · have hbuy := evaluate?_of_flat hheld h
    cases hanchor : s.anchor? p with
    | some anchor =>
        exact .inr ⟨hheld, anchor, rfl, (evaluateBuy?_of_anchor hanchor hbuy).2 trade rfl⟩
    | none => cases (evaluateBuy?_of_none hanchor hbuy).1

/-! ### Portfolios without a history -/

/-- The price at which a portfolio that starts with a sale is taken to have bought. -/
def opening? (c : Settings.Target) : Option Decimal :=
  if c.startMode = .sell then c.reference else none

theorem holding?_of_new (h : p.hasHistory = false) :
    holding? c p = some ((opening? c).map fun paid => (paid, c.size)) := by
  have hlots : p.lots = [] := by
    have hnone : p.isHolding = false := (Bool.or_eq_false_iff.mp h).1
    simpa [Portfolio.isHolding] using hnone
  have hentry : p.entryPrice? = some none := by
    simp [Portfolio.entryPrice?, Portfolio.positionSize?, hlots, Portfolio.total?, Decimal.isZero,
      Decimal.zero]
  cases hstart : c.startMode <;> simp [holding?, hentry, h, hstart, opening?]

/-- The decisions on one look at the market after the other. -/
def decideAll? (s : TargetPrice) : List (MarketView × Portfolio) → Option (List Decision)
  | [] => some []
  | (v, p) :: looks => do
    let (decision, s) ← s.evaluate? v p
    let decisions ← s.decideAll? looks
    pure (decision :: decisions)

/-- The first ask that is seen. -/
def firstAsk? (looks : List (MarketView × Portfolio)) : Option Decimal :=
  looks.findSome? (·.1.bestAsk?)

theorem firstAsk?_cons (v : MarketView) (p : Portfolio) (looks : List (MarketView × Portfolio)) :
    firstAsk? ((v, p) :: looks) = v.bestAsk?.or (firstAsk? looks) := by
  rw [firstAsk?, List.findSome?_cons]
  cases v.bestAsk? <;> rfl

theorem decideAll?_cons {looks : List (MarketView × Portfolio)} {decisions : List Decision}
    (h : s.decideAll? ((v, p) :: looks) = some decisions) :
    ∃ decision s' rest, s.evaluate? v p = some (decision, s') ∧
      s'.decideAll? looks = some rest ∧ decisions = decision :: rest := by
  simp only [decideAll?, Option.bind_eq_bind, Option.bind_eq_some_iff, Option.pure_def,
    Option.some.injEq] at h
  obtain ⟨⟨decision, s'⟩, hevaluate, rest, hrest, rfl⟩ := h
  exact ⟨decision, s', rest, hevaluate, hrest, rfl⟩

theorem sells_of_opening {looks : List (MarketView × Portfolio)} {decisions : List Decision}
    {paid : Decimal} (hopening : opening? s.target = some paid)
    (hnew : ∀ look ∈ looks, look.2.hasHistory = false)
    (hdecided : s.decideAll? looks = some decisions) (hgo : .go trade ∈ decisions) :
    ∃ look ∈ looks, Sells s.target look.1 paid s.target.size trade := by
  induction looks generalizing decisions with
  | nil =>
      cases hdecided
      contradiction
  | cons look looks ih =>
      obtain ⟨v, p⟩ := look
      obtain ⟨decision, s', rest, hevaluate, hrest, rfl⟩ := decideAll?_cons hdecided
      have hheld := holding?_of_new (c := s.target) (hnew _ List.mem_cons_self)
      rw [hopening] at hheld
      obtain ⟨rfl, hsell⟩ := evaluate?_of_holding hheld hevaluate
      rcases List.mem_cons.mp hgo with rfl | hlater
      · exact ⟨_, List.mem_cons_self, sells_of_evaluateSell? hsell⟩
      · obtain ⟨look, hlook, hsells⟩ :=
          ih (fun look hlook => hnew look (List.mem_cons_of_mem _ hlook)) hrest hlater
        exact ⟨look, List.mem_cons_of_mem _ hlook, hsells⟩

/-- A portfolio that does not open with a sale measures its purchases by the reference price, else
by the first ask that is seen. -/
theorem buys_of_no_opening {looks : List (MarketView × Portfolio)} {decisions : List Decision}
    (hopening : opening? s.target = none) (hnew : ∀ look ∈ looks, look.2.hasHistory = false)
    (hdecided : s.decideAll? looks = some decisions) (hgo : .go trade ∈ decisions) :
    ∃ anchor, s.target.reference.or (s.firstSeen.or (firstAsk? looks)) = some anchor ∧
      ∃ look ∈ looks, Buys s.target look.1 anchor trade := by
  induction looks generalizing s decisions with
  | nil =>
      cases hdecided
      contradiction
  | cons look looks ih =>
      obtain ⟨v, p⟩ := look
      obtain ⟨decision, s', rest, hevaluate, hrest, rfl⟩ := decideAll?_cons hdecided
      have hpast := hnew _ List.mem_cons_self
      have hexit : p.lastExit = none := by
        simpa using (Bool.or_eq_false_iff.mp hpast).2
      have hlater : ∀ look ∈ looks, look.2.hasHistory = false :=
        fun look hlook => hnew look (List.mem_cons_of_mem _ hlook)
      have hheld := holding?_of_new (c := s.target) hpast
      rw [hopening] at hheld
      have hbuy := evaluate?_of_flat hheld hevaluate
      have hanchor : s.anchor? p = s.target.reference.or s.firstSeen := by
        simp [anchor?, hexit]
      rw [firstAsk?_cons]
      cases hmeasure : s.anchor? p with
      | some anchor =>
          obtain ⟨rfl, hbuys⟩ := evaluateBuy?_of_anchor hmeasure hbuy
          have hsome : ∀ seen, s'.target.reference.or (s'.firstSeen.or seen) = some anchor := by
            intro seen
            rw [← Option.or_assoc, ← hanchor, hmeasure, Option.some_or]
          refine ⟨anchor, hsome _, ?_⟩
          rcases List.mem_cons.mp hgo with rfl | hgo
          · exact ⟨_, List.mem_cons_self, hbuys trade rfl⟩
          · obtain ⟨anchor', hsame, look, hlook, hbuys⟩ := ih hopening hlater hrest hgo
            rw [hsome, Option.some.injEq] at hsame
            exact ⟨look, List.mem_cons_of_mem _ hlook, hsame ▸ hbuys⟩
      | none =>
          obtain ⟨rfl, rfl⟩ := evaluateBuy?_of_none hmeasure hbuy
          rw [hanchor, Option.or_eq_none_iff] at hmeasure
          rcases List.mem_cons.mp hgo with hnow | hgo
          · cases hnow
          · obtain ⟨anchor, hsome, look, hlook, hbuys⟩ :=
              ih (s := { s with firstSeen := v.bestAsk? }) hopening hlater hrest hgo
            refine ⟨anchor, ?_, look, List.mem_cons_of_mem _ hlook, hbuys⟩
            rw [hmeasure.2, Option.none_or]
            exact hsome

/-- On looks at the market without a history, a portfolio trades on the side that it is set to start
with, unless that is a sale and it has no reference price: then it buys. A sale is of its whole
size, measured by the reference price; a purchase is measured by that price, or by the first ask
there was. -/
theorem first_trade_takes_its_side (c : Settings.Target) {looks : List (MarketView × Portfolio)}
    {decisions : List Decision} (hnew : ∀ look ∈ looks, look.2.hasHistory = false)
    (hdecided : decideAll? { target := c } looks = some decisions) :
    ∀ trade, .go trade ∈ decisions →
      (trade.side = c.startMode ↔ (c.startMode = .sell → c.reference.isSome = true)) ∧
      (∀ paid, c.startMode = .sell → c.reference = some paid →
        ∃ look ∈ looks, Sells c look.1 paid c.size trade) ∧
      ((c.startMode = .sell → c.reference = none) →
        ∃ anchor, c.reference.or (firstAsk? looks) = some anchor ∧
          ∃ look ∈ looks, Buys c look.1 anchor trade) := by
  intro trade hgo
  have hsale : ∀ paid, c.startMode = .sell → c.reference = some paid →
      ∃ look ∈ looks, Sells c look.1 paid c.size trade := by
    intro paid hstart hreference
    have hopening : opening? c = some paid := by rw [opening?, if_pos hstart, hreference]
    exact sells_of_opening (s := { target := c }) hopening hnew hdecided hgo
  have hpurchase : (c.startMode = .sell → c.reference = none) →
      ∃ anchor, c.reference.or (firstAsk? looks) = some anchor ∧
        ∃ look ∈ looks, Buys c look.1 anchor trade := by
    intro hunmeasured
    have hopening : opening? c = none := by
      rw [opening?]
      split
      · next hstart => exact hunmeasured hstart
      · rfl
    exact buys_of_no_opening (s := { target := c }) hopening hnew hdecided hgo
  refine ⟨?_, hsale, hpurchase⟩
  by_cases hunmeasured : c.startMode = .sell → c.reference = none
  · obtain ⟨anchor, -, look, -, hbuys⟩ := hpurchase hunmeasured
    rw [hbuys.side]
    cases hstart : c.startMode with
    | buy => simp
    | sell => simp [hunmeasured hstart]
  · obtain ⟨hstart, hmeasured⟩ := Classical.not_imp.mp hunmeasured
    obtain ⟨paid, hreference⟩ := Option.ne_none_iff_exists'.mp hmeasured
    obtain ⟨look, -, hsells⟩ := hsale paid hstart hreference
    simp [hsells.side, hstart, hreference]

/-! ### A sale without a reference price -/

/-- A market with these best prices. -/
def pricedAt (bid ask : Decimal) : MarketView where
  asset := "BTC-USD"
  trigger := { collection := "quotes", documentId := "quote", sequence := 1 }
  quote := some
    { asset := "BTC-USD", bidPrice := bid, bidSize := .one, askPrice := ask, askSize := .one
      exchangeTime := default, receivedTime := default }

/-- One unit is to be sold first. -/
def sellFirst : Settings.Target := { size := .one, startMode := .sell }

def sellFirstSettings : Settings :=
  { Settings.plain with
    portfolios := [{ id := "main", asset := "BTC-USD", strategy := sellFirst }] }

/-- With a reference price of one the unit is sold at two. -/
theorem measured_sale_opens :
    ∃ trade, decideAll? { target := { sellFirst with reference := some .one } }
        [(pricedAt .two .two, Portfolio.new "main" default)] = some [.go trade] ∧
      trade.side = .sell := by
  have hdecided : decideAll? { target := { sellFirst with reference := some .one } }
      [(pricedAt .two .two, Portfolio.new "main" default)] =
      some [.go (sellAt .two { Decimal.thousandth with
        coefficient := 1001, coefficient_lt := by decide } .one)] := rfl
  have hnew : ∀ look ∈ [(pricedAt .two .two, Portfolio.new "main" default)],
      look.2.hasHistory = false := by
    simp [Portfolio.hasHistory, Portfolio.isHolding, Portfolio.new]
  have hside := (first_trade_takes_its_side _ hnew hdecided _ (List.mem_singleton_self _)).1
  exact ⟨_, hdecided, hside.mpr fun _ => rfl⟩

/-- Settings that are accepted let a portfolio that is to start with a sale open with a purchase. -/
theorem unmeasured_sale_opens_with_purchase :
    sellFirstSettings.validate = .ok () ∧
      (∀ b ∈ sellFirstSettings.portfolios, b.strategy.startMode = .sell) ∧
      ∃ trade, decideAll? { target := sellFirst }
          [(pricedAt .two .two, Portfolio.new "main" default),
            (pricedAt .one .one, Portfolio.new "main" default)] = some [.noGo, .go trade] ∧
        trade.side = .buy := by
  refine ⟨?_, ?_, _, rfl, rfl⟩
  · decide
  · decide

end TargetPrice
end TradingDesk

import TradingDesk.Proofs.Decimal.Order
import TradingDesk.Proofs.Trading.Targets
import TradingDesk.Proofs.Trading.Turns
/-!
# The exposure of a portfolio

A portfolio that trades by target prices holds at most one lot, of no more than the size that it
trades. It buys only while it holds none, and sells just what it holds.
-/

namespace TradingDesk

open Decimal (zero)

namespace Portfolio

variable {c : Settings.Target} {p q : Portfolio} {lot : Lot}

/-- At most one lot is open, of a positive size up to the one that is traded. -/
structure Bounded (c : Settings.Target) (p : Portfolio) : Prop where
  single : p.lots.length ≤ 1
  size : ∀ lot ∈ p.lots, zero < lot.size ∧ lot.size ≤ c.size

/-- An order that buys the traded size for a portfolio without a lot, or sells the lot there is. -/
structure Suits (c : Settings.Target) (p : Portfolio) (side : Side) (size : Decimal) : Prop where
  buy : side = .buy → p.lots = [] ∧ size = c.size
  sell : side = .sell → ∀ lot ∈ p.lots, size = lot.size

/-- The lots are bounded, and an order that is pending suits them. -/
structure Limited (c : Settings.Target) (p : Portfolio) : Prop where
  bounded : p.Bounded c
  pending : ∀ order, p.pending = some order → p.Suits c order.side order.size

theorem bounded_of_nil (h : p.lots = []) : p.Bounded c := by
  constructor <;> simp [h]

theorem bounded_of_single (h : p.lots = [lot]) (hpos : zero < lot.size) (hle : lot.size ≤ c.size) :
    p.Bounded c := by
  constructor <;> simp [h, hpos, hle]

theorem Bounded.lots_cases (h : p.Bounded c) :
    p.lots = [] ∨ ∃ lot, p.lots = [lot] ∧ zero < lot.size ∧ lot.size ≤ c.size := by
  cases hlots : p.lots with
  | nil => exact .inl rfl
  | cons lot rest =>
      have hsingle := h.single
      rw [hlots, List.length_cons] at hsingle
      obtain rfl : rest = [] := List.length_eq_zero_iff.mp (by omega)
      exact .inr ⟨lot, rfl, h.size lot (by simp [hlots])⟩

theorem Suits.of_lots {side : Side} {size : Decimal} (h : p.Suits c side size)
    (hlots : q.lots = p.lots) : q.Suits c side size := by
  constructor
  · rw [hlots]
    exact h.buy
  · rw [hlots]
    exact h.sell

theorem Bounded.of_lots (h : p.Bounded c) (hlots : q.lots = p.lots) : q.Bounded c := by
  constructor
  · rw [hlots]
    exact h.single
  · rw [hlots]
    exact h.size

/-- Limits are kept as long as the lots stay and no other order becomes pending. -/
theorem Limited.of_lots (h : p.Limited c) (hlots : q.lots = p.lots)
    (hpending : q.pending = p.pending ∨ q.pending = none) : q.Limited c := by
  refine ⟨h.bounded.of_lots hlots, ?_⟩
  intro order horder
  rcases hpending with hsame | hnone
  · rw [hsame] at horder
    exact (h.pending order horder).of_lots hlots
  · rw [hnone] at horder
    contradiction

theorem limited_new (c : Settings.Target) (id : String) (now : Instant) :
    (new id now).Limited c := by
  refine ⟨bounded_of_nil rfl, ?_⟩
  rintro order ⟨⟩

/-! ### What is held -/

/-- The size of a single lot is its own, to the last digit. -/
theorem positionSize?_single (h : p.lots = [lot]) (hpos : zero < lot.size) :
    p.positionSize? = some lot.size := by
  have hadd : zero.add? lot.size = some lot.size := by
    rw [Decimal.add?, Decimal.isZero_of_pos hpos]
    rfl
  rw [positionSize?, h, List.map_singleton, total?, List.foldlM_cons, hadd]
  rfl

theorem entryPrice?_single (h : p.lots = [lot]) (hpos : zero < lot.size) :
    p.entryPrice? ≠ some none := by
  simp [entryPrice?, positionSize?_single h hpos, Decimal.isZero_of_pos hpos,
    Option.bind_eq_some_iff]

/-! ### Fills -/

theorem closeLots?_single {remaining : Decimal} {left : List Lot} (hpos : zero < remaining)
    (hle : remaining ≤ lot.size) (h : closeLots? remaining [lot] = some left) :
    left = [] ∨ ∃ lot', left = [lot'] ∧ zero < lot'.size ∧ lot'.size ≤ lot.size := by
  simp only [closeLots?, Decimal.isZero_of_pos hpos, Decimal.least_of_le hle, Bool.false_eq_true,
    if_false, Option.bind_eq_bind, Option.bind_eq_some_iff, Option.pure_def,
    Option.some.injEq] at h
  obtain ⟨size, hsub, -, -, _, rfl, hleft⟩ := h
  rw [Decimal.zero_lt_iff] at hpos
  obtain ⟨hnonneg, hmost⟩ := Decimal.sub?_bounds hpos (Decimal.le_iff.mp hle) hsub
  by_cases hzero : size.isZero = true
  · rw [if_pos hzero] at hleft
    exact .inl hleft.symm
  · rw [if_neg hzero] at hleft
    refine .inr ⟨_, hleft.symm, ?_, Decimal.le_iff.mpr hmost⟩
    rw [Decimal.isZero_iff] at hzero
    rw [Decimal.zero_lt_iff]
    exact lt_of_le_of_ne hnonneg (Ne.symm hzero)

/-- A fill of no more than the pending order keeps the lots bounded. -/
theorem Limited.applyFill? {order : Order} {fill : Fill} (h : p.Limited c)
    (hpending : p.pending = some order) (hpos : zero < fill.size) (hle : fill.size ≤ order.size)
    (hbook : p.applyFill? order fill = some q) : q.Bounded c := by
  have hsuits := h.pending order hpending
  obtain ⟨hside, rfl⟩ | ⟨hside, left, hclose, rfl⟩ := applyFill?_cases hbook
  · obtain ⟨hnone, hsize⟩ := hsuits.buy hside
    rw [hsize] at hle
    exact bounded_of_single (by rw [hnone]; rfl) hpos hle
  · rcases h.bounded.lots_cases with hnone | ⟨lot, hlot, -, hmost⟩
    · rw [hnone, closeLots?] at hclose
      exact bounded_of_nil (Option.some.inj hclose).symm
    · have hsize := hsuits.sell hside lot (by simp [hlot])
      rw [hsize] at hle
      rw [hlot] at hclose
      rcases closeLots?_single hpos hle hclose with rfl | ⟨lot', rfl, hpos', hle'⟩
      · exact bounded_of_nil rfl
      · exact bounded_of_single rfl hpos' (Decimal.le_trans hle' hmost)

end Portfolio

namespace TargetPrice

variable {c : Settings.Target} {s s' : TargetPrice} {v : MarketView} {p : Portfolio}

/-- What is held of a bounded portfolio is its lot, if there is one. -/
theorem holding?_cases {held : Option (Decimal × Decimal)} (h : p.Bounded c)
    (hholding : holding? c p = some held) :
    (held = none → p.lots = []) ∧ ∀ paid size, held = some (paid, size) →
      ∀ lot ∈ p.lots, size = lot.size := by
  rcases h.lots_cases with hnone | ⟨lot, hlot, hpos, -⟩
  · exact ⟨fun _ => hnone, by simp [hnone]⟩
  · cases hentry : p.entryPrice? with
    | none => simp [holding?, hentry] at hholding
    | some entry =>
        cases entry with
        | none => exact absurd hentry (Portfolio.entryPrice?_single hlot hpos)
        | some paid =>
            have hheld : some (paid, lot.size) = held := by
              simpa [holding?, hentry, Portfolio.positionSize?_single hlot hpos] using hholding
            subst hheld
            simp [hlot]

/-- The orders that the strategy decides on suit the portfolio. -/
theorem suits_of_evaluate? {trade : Trade} (h : p.Bounded s.target)
    (hevaluate : s.evaluate? v p = some (.go trade, s')) :
    p.Suits s.target trade.side trade.size := by
  rcases trade_of_evaluate? hevaluate with ⟨paid, held, hheld, hsells⟩ | ⟨hnone, anchor, -, hbuys⟩
  · obtain ⟨-, hsome⟩ := holding?_cases h hheld
    cases hsells
    exact ⟨nofun, fun _ => hsome paid held rfl⟩
  · obtain ⟨hlots, -⟩ := holding?_cases h hnone
    cases hbuys
    exact ⟨fun _ => ⟨hlots rfl, rfl⟩, nofun⟩

end TargetPrice

namespace Executor

/-! ### Executors -/

/-- An executor that trades by target prices within the limits of its settings. -/
structure Prudent (c : Settings.Target) (x : Executor TargetPrice) : Prop where
  strategy : x.strategy = TargetPrice.strategy
  target : x.memory.target = c
  limited : x.state.Limited c

namespace Prudent

variable {c : Settings.Target} {x x' : Executor TargetPrice} {m : Moment}

theorem leaves (h : x.Prudent c) (hleaves : Leaves x x') : x'.Prudent c where
  strategy := hleaves.strategy.trans h.strategy
  target := by rw [hleaves.memory, h.target]
  limited := h.limited.of_lots hleaves.lots (.inl hleaves.pending)

/-- A reply keeps an executor within its limits if a fill is of no more than the order that is
pending. -/
theorem resume (h : x.Prudent c) {reply : Reply}
    (hpending : ∀ order, x.Awaits order → x.state.pending = some order)
    (hfill : ∀ order fill, x.Awaits order → reply = .answered (.ok (.filled fill)) →
      zero < fill.size ∧ fill.size ≤ order.size) :
    (x.resume reply m).Prudent c := by
  have hcleared : ∀ p : Portfolio, p.Bounded c →
      ({ p with pending := none } : Portfolio).Limited c := by
    intro p hbounded
    refine ⟨hbounded.of_lots rfl, ?_⟩
    rintro order ⟨⟩
  have hturns := Turns.resume (x := x) (m := m) reply
  generalize x.trades reply = traded, x.resume reply m = x' at hturns
  cases hturns with
  | keep hleaves => exact h.leaves hleaves
  | skip hjudged hleaves =>
      rw [h.strategy] at hjudged
      have htarget := (TargetPrice.evaluate?_target hjudged).trans h.target
      refine leaves ?_ hleaves
      exact ⟨h.strategy, htarget, h.limited⟩
  | @trade view trade memory order x' hjudged horder hleaves =>
      rw [h.strategy] at hjudged
      have htarget := (TargetPrice.evaluate?_target hjudged).trans h.target
      have hsuits := TargetPrice.suits_of_evaluate? (by rw [h.target]; exact h.limited.bounded)
        hjudged
      rw [h.target] at hsuits
      refine leaves ?_ hleaves
      refine ⟨h.strategy, htarget, h.limited.bounded.of_lots rfl, ?_⟩
      rintro order ⟨⟩
      rw [horder]
      exact hsuits.of_lots rfl
  | dismiss hawaits hleaves =>
      refine leaves ?_ hleaves
      exact ⟨h.strategy, h.target, hcleared _ h.limited.bounded⟩
  | @fill order fill p x' hawaits hfilled hleaves =>
      obtain ⟨hpos, hle⟩ := hfill order fill hawaits rfl
      have hbounded := h.limited.applyFill? (hpending order hawaits) hpos hle hfilled
      refine leaves ?_ hleaves
      exact ⟨h.strategy, h.target, hcleared _ hbounded⟩

end Prudent

/-! ### Runs -/

/-- Each fill is of something, and of no more than its order. -/
def Transcript.Modest (t : Transcript) : Prop :=
  ∀ order fill, Observation.answered order (.ok (.filled fill)) ∈ t →
    zero < fill.size ∧ fill.size ≤ order.size

theorem Transcript.Modest.of_append {t s : Transcript} (h : Transcript.Modest (t ++ s)) :
    Transcript.Modest t :=
  fun order fill hmem => h order fill (List.mem_append_left s hmem)

section

variable {σ : Type} {x : Executor σ} {order : Order}

theorem Awaits.learned (h : x.Awaits order) (answer : Except Fault Order.Outcome) (m : Moment) :
    x.learned (.answered answer) m = [.answered order answer] := by
  unfold Executor.learned
  rcases h with hstage | ⟨waiting, hstage⟩ | ⟨s, hstage, rfl⟩ <;> rw [hstage]

theorem Awaits.aimWith (h : x.Awaits order) (reply : Reply) :
    x.aimWith (some reply) = .following order := by
  unfold Executor.aimWith
  rcases h with hstage | ⟨waiting, hstage⟩ | ⟨s, hstage, rfl⟩ <;> rw [hstage] <;> rfl

theorem Awaits.aimWith_cases (h : x.Awaits order) (reply : Option Reply) :
    x.aimWith reply = .placing order ∨ x.aimWith reply = .following order := by
  cases reply with
  | some reply => exact .inr (h.aimWith reply)
  | none =>
      unfold Executor.aimWith
      rcases h with hstage | ⟨waiting, hstage⟩ | ⟨s, hstage, rfl⟩ <;> rw [hstage]
      · exact .inl rfl
      · exact .inr rfl
      · exact .inr rfl

theorem restore_with {setup : Setup} {strategy : Strategy σ} {memory : σ} {document : Option Json}
    {now : Instant} (h : restore setup strategy memory document now = .ok x) :
    x.strategy = strategy ∧ x.memory = memory := by
  unfold restore at h
  cases hstate : restoreState setup.portfolio document now with
  | error fault =>
      rw [hstate] at h
      cases h
  | ok state =>
      rw [hstate] at h
      cases h
      exact ⟨rfl, rfl⟩

end

namespace World

variable {setup : Setup} {c : Settings.Target} {w w' : World TargetPrice}

/-- A step of a portfolio whose processes begin with the strategy as it is configured. -/
def TradingStep (setup : Setup) (c : Settings.Target) (w w' : World TargetPrice) : Prop :=
  Step setup TargetPrice.strategy w w' ∧
    ∀ p, w.process = none → w'.process = some p → p.executor.memory = { target := c }

/-- The worlds that a portfolio without a state document can come to when it trades by target
prices. -/
inductive Trades (setup : Setup) (c : Settings.Target) : World TargetPrice → Prop
  | initial {store : Store}
      (hnew : store.fetch? Collection.states setup.portfolio = none) :
      Trades setup c ⟨store, none, []⟩
  | step {w w' : World TargetPrice} (htrades : Trades setup c w)
      (hstep : TradingStep setup c w w') : Trades setup c w'

theorem Trades.reachable (h : Trades setup c w) : Reachable setup TargetPrice.strategy w := by
  induction h with
  | initial hnew => exact .initial hnew
  | step _ hstep ih => exact ih.step hstep.1

/-- An order that is handed in or asked about is the pending one. -/
theorem Reachable.pending_of_awaits {σ : Type} {strategy : Strategy σ} {w : World σ}
    (hreach : Reachable setup strategy w) {q : Process σ} (hq : w.process = some q) {order : Order}
    (hawaits : q.executor.Awaits order) : q.executor.state.pending = some order := by
  obtain ⟨x, call, reply⟩ := q
  have haim := hreach.outline.1.coherent.aim ⟨x.state, x.aimWith reply, call⟩
    (by simp [World.outline, hq])
  rcases hawaits.aimWith_cases reply with hplacing | hfollowing
  · rw [hplacing] at haim
    exact haim.2.1
  · rw [hfollowing] at haim
    exact haim.2

/-- The stored state and the one in memory keep to the limits. -/
structure Limited (setup : Setup) (c : Settings.Target) (w : World TargetPrice) : Prop where
  stored : ∀ p, w.stored? setup = some p → p.Limited c
  process : ∀ q, w.process = some q → q.executor.Prudent c

theorem Limited.start {store : Store} {t : Transcript} {x : Executor TargetPrice}
    {memory : TargetPrice} {now : Instant}
    (h : Limited setup c (⟨store, none, t⟩ : World TargetPrice))
    (hmemory : x.memory = { target := c }) (hrestore : restore setup TargetPrice.strategy memory
      (store.fetch? Collection.states setup.portfolio) now = .ok x) : x.Prudent c := by
  obtain ⟨hstrategy, -⟩ := restore_with hrestore
  refine ⟨hstrategy, by rw [hmemory], ?_⟩
  rcases restore_cases hrestore with ⟨-, hstate⟩ | ⟨body, hdocument, hread⟩
  · rw [hstate]
    exact Portfolio.limited_new c _ now
  · exact h.stored _ (by simp [stored?, document?, hdocument, hread])

theorem Limited.resume {store : Store} {t : Transcript} {x : Executor TargetPrice}
    {call : Option ChangeEvent} {reply : Reply} {m : Moment}
    (h : Limited setup c (⟨store, some ⟨x, call, some reply⟩, t⟩ : World TargetPrice))
    (hreach : Reachable setup TargetPrice.strategy
      (⟨store, some ⟨x, call, some reply⟩, t⟩ : World TargetPrice))
    (hmodest : Transcript.Modest (t ++ x.learned reply m)) : (x.resume reply m).Prudent c := by
  refine (h.process _ rfl).resume (fun order hawaits => hreach.pending_of_awaits rfl hawaits) ?_
  rintro order fill hawaits rfl
  apply hmodest order fill
  rw [hawaits.learned]
  simp

theorem Limited.step (h : w.Limited setup c) (hreach : Reachable setup TargetPrice.strategy w)
    (hstep : TradingStep setup c w w') (hmodest : w'.transcript.Modest) : w'.Limited setup c := by
  obtain ⟨hstep, hmemory⟩ := hstep
  have hprocess : ∀ q, w'.process = some q → q.executor.Prudent c := by
    cases hstep with
    | start memory hnow hrestore =>
        rintro _ ⟨⟩
        exact h.start (hmemory _ rfl rfl) hrestore
    | recover hready hnow =>
        rintro _ ⟨⟩
        exact (h.process _ rfl).leaves (Leaves.recoverFor none)
    | handle hready hevent hnow =>
        rintro _ ⟨⟩
        exact (h.process _ rfl).leaves (Leaves.handle _)
    | ask hrequest hserved =>
        rintro _ ⟨⟩
        exact h.process ⟨_, _, none⟩ rfl
    | resume hnow =>
        rintro _ ⟨⟩
        exact h.resume hreach hmodest
    | crash => rintro _ ⟨⟩
    | elsewhere hkept => exact h.process
  refine ⟨?_, hprocess⟩
  intro p hstored
  rcases hstep.stored_cases hreach hstored with hkept | ⟨q, hq, rfl⟩
  · exact h.stored p hkept
  · exact (hprocess q hq).limited

theorem Trades.limited (h : Trades setup c w) (hmodest : w.transcript.Modest) :
    w.Limited setup c := by
  induction h with
  | initial hnew =>
      constructor
      · intro p hstored
        rw [stored?, document?, hnew] at hstored
        contradiction
      · rintro _ ⟨⟩
  | step htrades hstep ih =>
      obtain ⟨seen, htranscript⟩ := hstep.1.transcript_eq
      have hbefore := hmodest
      rw [htranscript] at hbefore
      exact (ih (Transcript.Modest.of_append hbefore)).step htrades.reachable hstep hmodest

/-- A portfolio that trades by target prices, from no document on and through any crashes, holds at
most one lot, of a positive size up to the one that it trades. It buys only while it holds none, and
sells just the size of the lot that it holds. -/
theorem exposure_is_bounded (h : Trades setup c w) (hmodest : w.transcript.Modest) :
    (∀ p, w.Shows setup p → p.Bounded c) ∧
      ∀ q order, w.process = some q → q.executor.request? = some (.submit order) →
        (order.side = .buy → q.executor.state.lots = [] ∧ order.size = c.size) ∧
          (order.side = .sell → ∀ lot ∈ q.executor.state.lots, order.size = lot.size) := by
  have hlimited := h.limited hmodest
  constructor
  · rintro p (hstored | ⟨q, hq, rfl⟩)
    · exact (hlimited.stored p hstored).bounded
    · exact (hlimited.process q hq).limited.bounded
  · intro q order hq hrequest
    have hpending := h.reachable.pending_of_awaits hq (.inl (stage_of_submit hrequest))
    have hsuits := (hlimited.process q hq).limited.pending order hpending
    exact ⟨hsuits.buy, hsuits.sell⟩

/-! ### A purchase that is filled in part -/

/-- A process that goes on trades by the strategy that it began with. -/
theorem Step.trading (hstep : Step setup TargetPrice.strategy w w')
    (halive : w.process.isSome = true) : TradingStep setup c w w' := by
  refine ⟨hstep, ?_⟩
  intro p hnone
  rw [hnone] at halive
  contradiction

/-- A process lives on as long as no crash is seen. -/
theorem Step.alive {σ : Type} {strategy : Strategy σ} {w w' : World σ}
    (hstep : Step setup strategy w w') (halive : w.process.isSome = true)
    (hcrash : Observation.crashed ∉ w'.transcript) : w'.process.isSome = true := by
  cases hstep with
  | crash => exact absurd (by simp) hcrash
  | start => contradiction
  | elsewhere => exact halive
  | _ => rfl

theorem Trades.progress (h : Trades setup c w) (halive : w.process.isSome = true)
    (hstep : Step setup TargetPrice.strategy w w') : Trades setup c w' :=
  h.step (hstep.trading halive)

theorem Trades.steps (h : Trades setup c w) (halive : w.process.isSome = true)
    (hsteps : Steps setup TargetPrice.strategy w w')
    (hcrash : Observation.crashed ∉ w'.transcript) :
    Trades setup c w' ∧ w'.process.isSome = true := by
  induction hsteps with
  | refl => exact ⟨h, halive⟩
  | tail hsteps hlast ih =>
      obtain ⟨seen, htranscript⟩ := hlast.transcript_eq
      obtain ⟨htrades, halive⟩ := ih fun hmem => hcrash (by simp [htranscript, hmem])
      exact ⟨htrades.progress halive hlast, hlast.alive halive hcrash⟩

/-- One unit is traded around a price of two. -/
def modestTarget : Settings.Target := { size := .one, reference := some .two }

def halfUnit : Decimal := { coefficient := 5, scale := 1 }

/-- A market whose best bid and ask have one price. -/
def marketAt (price : Decimal) : MarketView where
  asset := "btc"
  trigger := eagerEvent
  quote := some
    { asset := "btc", bidPrice := price, bidSize := .one, askPrice := price, askSize := .one
      exchangeTime := eagerMoment.now, receivedTime := eagerMoment.now }

/-- A thousandth of the reference below it. -/
def lowTarget : Decimal :=
  { Decimal.thousandth with coefficient := 1998, coefficient_lt := by decide }

/-- A thousandth of the price that was paid above it. -/
def highTarget : Decimal :=
  { Decimal.thousandth with coefficient := 1001, coefficient_lt := by decide }

/-- The order that buys a unit at a price of one. -/
def unitOrder : Order :=
  Order.ofTrade "alpha" "btc" "first"
    (TargetPrice.buyAt .one lowTarget .one) eagerMoment.now

/-- Half of what was ordered is got. -/
def halfFill : Fill :=
  { exchangeId := "x-1", size := halfUnit, price := .one, filledAt := eagerMoment.now }

/-- The portfolio that has bought half a unit. -/
def halfState : Portfolio :=
  { placingState "alpha" eagerEvent unitOrder eagerMoment.now with
    phase := .idle
    pending := none
    lots := [⟨"first", "x-1", halfUnit, .one, eagerMoment.now⟩] }

theorem halfState_entryPrice? (now : Instant) :
    (judging halfState now).entryPrice? = some (some .one) := by
  have hsize : (judging halfState now).positionSize? = some halfUnit := rfl
  have hcosts : (judging halfState now).lots.mapM Portfolio.lotCost? = some [halfUnit] := rfl
  have htotal : Portfolio.total? [halfUnit] = some halfUnit := rfl
  have hprice : halfUnit.div? halfUnit = some .one := by
    simp [Decimal.div?, Decimal.isZero, halfUnit, Decimal.develop, Decimal.ofParts?, Decimal.one,
      pow2]
    decide
  rw [Portfolio.entryPrice?, hsize, Option.bind_eq_bind, Option.bind_some, hcosts,
    Option.bind_eq_bind, Option.bind_some, htotal]
  simp [hprice]
  rfl

theorem eagerEvent_watched (sequence : Nat) :
    ({ eagerEvent with sequence } : ChangeEvent).collection ∈ eagerSetup.watched := by
  simp [Setup.watched, eagerEvent, eagerSetup]

def halfTranscript : Transcript :=
  [.stored (judgingState "alpha" eagerMoment.now).toJson.settled, .created unitOrder,
    .stored (placingState "alpha" eagerEvent unitOrder eagerMoment.now).toJson.settled,
    .submitted (some eagerEvent) unitOrder, .answered unitOrder (.ok (.filled halfFill)),
    .stored halfState.toJson.settled]

theorem halfTranscript_modest (s : Transcript) (hs : s.answered = []) :
    Transcript.Modest (halfTranscript ++ s) := by
  have hbounds : zero < halfFill.size ∧ halfFill.size ≤ unitOrder.size := by decide
  intro order fill hmem
  rcases List.mem_append.mp hmem with hmem | hmem
  · obtain ⟨rfl, rfl⟩ : order = unitOrder ∧ fill = halfFill := by simpa [halfTranscript] using hmem
    exact hbounds
  · have hanswer : (order, .ok (.filled fill)) ∈ s.answered :=
      List.mem_filterMap.mpr ⟨_, hmem, rfl⟩
    rw [hs] at hanswer
    contradiction

/-- A portfolio can buy a unit and get half of it. -/
theorem Trades.half_filled :
    ∃ store announced, store.failures = 0 ∧
      Trades eagerSetup modestTarget ⟨store, some ⟨⟨eagerSetup, TargetPrice.strategy,
        { target := modestTarget }, halfState, .ready (.ok ()), announced⟩, some eagerEvent, none⟩,
        halfTranscript⟩ := by
  let x : Executor TargetPrice := ⟨eagerSetup, TargetPrice.strategy, { target := modestTarget },
    Portfolio.new "alpha" eagerMoment.now, .ready (.ok ()), []⟩
  have hbegun : Trades eagerSetup modestTarget ⟨{}, some ⟨x, none, none⟩, []⟩ := by
    refine (Trades.initial rfl).step ⟨.start _ eagerMoment_valid rfl, ?_⟩
    rintro _ - ⟨⟩
    rfl
  have hbuys : TargetPrice.strategy.evaluate? { target := modestTarget } (marketAt .one)
      (judgingState "alpha" eagerMoment.now) =
      some (.go (TargetPrice.buyAt .one lowTarget .one),
        { target := modestTarget }) := rfl
  obtain ⟨store, announced, hfailures, -, hplace⟩ := ViewingSteps.place TargetPrice.strategy x {} []
    none (marketAt .one) rfl rfl rfl rfl (eagerEvent_watched 1) (by decide) eagerMoment_valid rfl
    hbuys rfl
  obtain ⟨hplacing, -⟩ := hbegun.steps rfl hplace.quiet.steps (by simp)
  have hfill : ValidAnswer (.ok (.filled halfFill)) := by
    rintro _ ⟨⟩
    exact eagerMoment_valid
  have hanswered := hplacing.progress rfl (.ask rfl (.submitted unitOrder hfill))
  have hbooked := hanswered.progress rfl (.resume (m := eagerMoment) eagerMoment_valid)
  obtain ⟨store', hwrite, hfailures'⟩ :=
    Store.upsert_of_failures_eq_zero hfailures Collection.states "alpha" _
  have hstored := hbooked.progress rfl (.ask rfl (.saved hwrite))
  have hready := hstored.progress rfl (.resume (m := eagerMoment) eagerMoment_valid)
  exact ⟨store', _, hfailures', hready⟩

/-- A portfolio buys a unit, gets half of it, and goes on to sell that half. -/
theorem half_filled_purchase_is_sold :
    ∃ w q order lot, Trades eagerSetup modestTarget w ∧ w.process = some q ∧
      q.executor.request? = some (.submit order) ∧ order.side = .sell ∧
      q.executor.state.lots = [lot] ∧ order.size = lot.size ∧ lot.size = halfUnit ∧
      q.executor.state.Bounded modestTarget := by
  obtain ⟨store, announced, hfailures, hready⟩ := Trades.half_filled
  have hsells : TargetPrice.strategy.evaluate? { target := modestTarget } (marketAt .two)
      (judging halfState eagerMoment.now) =
      some (.go (TargetPrice.sellAt .two highTarget halfUnit),
        { target := modestTarget }) := by
    change TargetPrice.evaluate? _ _ _ = _
    rw [TargetPrice.evaluate?, TargetPrice.holding?, halfState_entryPrice?]
    rfl
  have hnew : halfState.hasEvaluated { eagerEvent with sequence := 2 } = false := rfl
  obtain ⟨store', announced', -, -, hsale⟩ := ViewingSteps.place TargetPrice.strategy
    ⟨eagerSetup, TargetPrice.strategy, { target := modestTarget }, halfState, .ready (.ok ()),
      announced⟩ store halfTranscript (some eagerEvent) (marketAt .two) rfl rfl rfl hnew
    (eagerEvent_watched 2) (by decide) eagerMoment_valid hfailures hsells rfl
  obtain ⟨hselling, -⟩ := hready.steps rfl hsale.quiet.steps (by simp [halfTranscript])
  obtain ⟨hbounded, hsubmit⟩ :=
    exposure_is_bounded hselling (halfTranscript_modest _ (by simp [Transcript.answered]))
  have hsold := (hsubmit _ _ rfl rfl).2 rfl _ (List.mem_singleton_self _)
  exact ⟨_, _, _, _, hselling, rfl, rfl, rfl, rfl, hsold, rfl,
    hbounded _ (.inr ⟨_, rfl, rfl⟩)⟩

end World

end Executor

end TradingDesk

import TradingDesk.Collector.Pairing
import TradingDesk.Proofs.KeyMap
/-!
# Pairs of halves

What is held of an asset stands for all its halves since the last pair: they are of one side, and
it is the latest of them. A half of the other side completes a pair, which joins the latest half of
each side.
-/

namespace TradingDesk

/-! ### The later of two instants -/

namespace Instant

theorem le_iff {a b : Instant} :
    a ≤ b ↔ a.seconds < b.seconds ∨ (a.seconds = b.seconds ∧ a.nanos ≤ b.nanos) := Iff.rfl

theorem lt_iff {a b : Instant} :
    a < b ↔ a.seconds < b.seconds ∨ (a.seconds = b.seconds ∧ a.nanos < b.nanos) := Iff.rfl

theorem latest_eq_or (a b : Instant) : a.latest b = a ∨ a.latest b = b := by
  unfold latest
  split
  · exact .inl rfl
  · exact .inr rfl

theorem le_latest_left (a b : Instant) : a ≤ a.latest b := by
  unfold latest
  split
  · rw [le_iff]
    omega
  · next h =>
    rw [lt_iff] at h
    rw [le_iff]
    omega

theorem le_latest_right (a b : Instant) : b ≤ a.latest b := by
  unfold latest
  split
  · next h =>
    rw [lt_iff] at h
    rw [le_iff]
    omega
  · rw [le_iff]
    omega

theorem le_antisymm {a b : Instant} (hab : a ≤ b) (hba : b ≤ a) : a = b := by
  rw [le_iff] at hab hba
  have hseconds : a.seconds = b.seconds := by omega
  have hnanos : a.nanos = b.nanos := by omega
  cases a
  cases b
  exact congrArg₂ mk hseconds hnanos

end Instant

/-! ### Joining two halves -/

/-- A quote that tells the market as two halves do, at the later of their times. -/
structure Quote.Joins (q : Quote) (bid ask : QuoteHalf) : Prop where
  asset : q.asset = bid.asset
  bought : q.bidPrice = bid.price ∧ q.bidSize = bid.size
  sold : q.askPrice = ask.price ∧ q.askSize = ask.size
  time : q.exchangeTime = bid.exchangeTime ∨ q.exchangeTime = ask.exchangeTime
  not_before : bid.exchangeTime ≤ q.exchangeTime ∧ ask.exchangeTime ≤ q.exchangeTime

theorem Quote.ofHalves_joins (bid ask : QuoteHalf) (received : Instant) :
    (Quote.ofHalves bid ask received).Joins bid ask where
  asset := rfl
  bought := ⟨rfl, rfl⟩
  sold := ⟨rfl, rfl⟩
  time := Instant.latest_eq_or _ _
  not_before := ⟨Instant.le_latest_left _ _, Instant.le_latest_right _ _⟩

theorem Quote.Joins.exchangeTime_eq {q : Quote} {bid ask : QuoteHalf} (h : q.Joins bid ask) :
    q.exchangeTime = bid.exchangeTime.latest ask.exchangeTime := by
  apply Instant.le_antisymm
  · rcases h.time with heq | heq
    · rw [heq]
      exact Instant.le_latest_left _ _
    · rw [heq]
      exact Instant.le_latest_right _ _
  · rcases Instant.latest_eq_or bid.exchangeTime ask.exchangeTime with heq | heq
    · rw [heq]
      exact h.not_before.1
    · rw [heq]
      exact h.not_before.2

/-- Two halves and the time at which the second came make a quote in one way. -/
theorem Quote.eq_ofHalves_iff {q : Quote} {bid ask : QuoteHalf} {received : Instant} :
    q = ofHalves bid ask received ↔ q.Joins bid ask ∧ q.receivedTime = received := by
  constructor
  · rintro rfl
    exact ⟨ofHalves_joins bid ask received, rfl⟩
  · rintro ⟨hjoins, hreceived⟩
    obtain ⟨hbidPrice, hbidSize⟩ := hjoins.bought
    obtain ⟨haskPrice, haskSize⟩ := hjoins.sold
    have htime := hjoins.exchangeTime_eq
    have hasset := hjoins.asset
    cases q
    simp_all only [ofHalves]

/-- The latest half of one side. -/
def latestOf (side : Side) (halves : List QuoteHalf) : Option QuoteHalf :=
  (halves.filter (·.side = side)).getLast?

theorem latestOf_concat (side : Side) (halves : List QuoteHalf) (half : QuoteHalf) :
    latestOf side (halves ++ [half]) =
      if half.side = side then some half else latestOf side halves := by
  unfold latestOf
  rw [List.filter_append]
  by_cases hside : half.side = side
  · simp [hside]
  · simp [hside]

theorem latestOf_eq_getLast? {side : Side} {halves : List QuoteHalf}
    (h : ∀ half ∈ halves, half.side = side) : latestOf side halves = halves.getLast? := by
  unfold latestOf
  rw [List.filter_eq_self.mpr (by simpa using h)]

namespace Held

/-- What is held once some halves have come none of which completed a pair. -/
def StandsFor : Held → List QuoteHalf → Prop
  | .nothing, halves => halves = []
  | .bid half, halves => halves.getLast? = some half ∧ ∀ g ∈ halves, g.side = .buy
  | .ask half, halves => halves.getLast? = some half ∧ ∀ g ∈ halves, g.side = .sell

variable {held : Held} {halves : List QuoteHalf}

/-- Another half is held if all those before it were of its side. -/
theorem StandsFor.hold (h : held.StandsFor halves) {half : QuoteHalf} (received : Instant)
    (hside : ∀ g ∈ halves, g.side = half.side) :
    (held.add half received).1 = none ∧
      (held.add half received).2.StandsFor (halves ++ [half]) := by
  have hall : ∀ g ∈ halves ++ [half], g.side = half.side := by
    simpa [or_imp, forall_and] using hside
  have hlast : (halves ++ [half]).getLast? = some half := List.getLast?_concat
  cases hhalf : half.side with
  | buy =>
      rw [hhalf] at hall hside
      cases held with
      | nothing => simpa [add, hhalf, StandsFor] using hall
      | bid other => simpa [add, hhalf, StandsFor] using hall
      | ask other =>
          have hother := h.2 other (List.mem_of_getLast? h.1)
          rw [hside other (List.mem_of_getLast? h.1)] at hother
          contradiction
  | sell =>
      rw [hhalf] at hall hside
      cases held with
      | nothing => simpa [add, hhalf, StandsFor] using hall
      | ask other => simpa [add, hhalf, StandsFor] using hall
      | bid other =>
          have hother := h.2 other (List.mem_of_getLast? h.1)
          rw [hside other (List.mem_of_getLast? h.1)] at hother
          contradiction

/-- Another half completes a pair if one of the other side came before it. -/
theorem StandsFor.complete (h : held.StandsFor halves) {half : QuoteHalf} (received : Instant)
    (hside : ∃ g ∈ halves, g.side ≠ half.side) :
    ∃ q bid ask, held.add half received = (some q, .nothing) ∧ q.Joins bid ask ∧
      latestOf .buy (halves ++ [half]) = some bid ∧
      latestOf .sell (halves ++ [half]) = some ask := by
  obtain ⟨g, hg, hne⟩ := hside
  simp only [latestOf_concat]
  cases held with
  | nothing =>
      obtain rfl : halves = [] := h
      contradiction
  | bid other =>
      obtain ⟨hlast, hall⟩ := h
      have hhalf : half.side = .sell := by
        rw [hall g hg] at hne
        cases hside : half.side <;> simp_all
      refine ⟨_, other, half, by simp only [add, hhalf], Quote.ofHalves_joins _ _ received, ?_, ?_⟩
      · rw [if_neg (by simp [hhalf]), latestOf_eq_getLast? hall, hlast]
      · rw [if_pos hhalf]
  | ask other =>
      obtain ⟨hlast, hall⟩ := h
      have hhalf : half.side = .buy := by
        rw [hall g hg] at hne
        cases hside : half.side <;> simp_all
      refine ⟨_, half, other, by simp only [add, hhalf], Quote.ofHalves_joins _ _ received, ?_, ?_⟩
      · rw [if_pos hhalf]
      · rw [if_neg (by simp [hhalf]), latestOf_eq_getLast? hall, hlast]

theorem StandsFor.completes_iff (h : held.StandsFor halves) (half : QuoteHalf)
    (received : Instant) :
    (held.add half received).1.isSome ↔ ∃ g ∈ halves, g.side ≠ half.side := by
  by_cases hside : ∃ g ∈ halves, g.side ≠ half.side
  · obtain ⟨q, bid, ask, hadd, -⟩ := h.complete received hside
    simp only [hadd, Option.isSome_some, hside]
  · have hsame : ∀ g ∈ halves, g.side = half.side := by simpa using hside
    rw [(h.hold received hsame).1]
    simp only [Option.isSome_none, Bool.false_eq_true, hside]

/-- After a pair nothing is held. -/
theorem StandsFor.add (h : held.StandsFor halves) (half : QuoteHalf) (received : Instant) :
    (held.add half received).2.StandsFor
      (if (held.add half received).1.isSome then [] else halves ++ [half]) := by
  by_cases hside : ∃ g ∈ halves, g.side ≠ half.side
  · obtain ⟨q, bid, ask, hadd, -⟩ := h.complete received hside
    rw [hadd]
    exact rfl
  · have hsame : ∀ g ∈ halves, g.side = half.side := by simpa using hside
    obtain ⟨hnone, hheld⟩ := h.hold received hsame
    rw [hnone]
    exact hheld

end Held

namespace Pairing

theorem held_setHeld (p : Pairing) (asset : String) (held : Held) (a : String) :
    (p.setHeld asset held).held a = if a = asset then held else p.held a := by
  unfold setHeld Pairing.held
  rw [KeyMap.lookup_replace]
  by_cases heq : a = asset <;> simp [heq]

theorem push_eq (p : Pairing) (half : QuoteHalf) (received : Instant) :
    p.push half received = (((p.held half.asset).add half received).1,
      p.setHeld half.asset ((p.held half.asset).add half received).2) := rfl

end Pairing

end TradingDesk

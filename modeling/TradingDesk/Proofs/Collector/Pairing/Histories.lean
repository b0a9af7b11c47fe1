import TradingDesk.Proofs.Collector.Pairing
import Mathlib.Data.List.DropRight
/-!
# Histories of pairings

Halves of any assets come in any order, and now and then everything is dropped. What a pairing does
with a half can be told from the history alone: of the halves of an asset since its last quote, or
since everything was dropped, the latest is held, and it makes a quote with a half of the other
side. The halves of other assets play no part in it.
-/

namespace TradingDesk

/-! ### Quotes and the halves they join -/

namespace Quote

variable {q : Quote} {first second : QuoteHalf}

/-- A quote of two halves on different sides, with its bid from the one that buys and its ask from
the one that sells. -/
inductive Couples (q : Quote) (first second : QuoteHalf) : Prop
  | bid_first (hfirst : first.side = .buy) (hsecond : second.side = .sell)
      (hjoins : q.Joins first second)
  | ask_first (hfirst : first.side = .sell) (hsecond : second.side = .buy)
      (hjoins : q.Joins second first)

theorem Couples.side_ne (h : q.Couples first second) : first.side ≠ second.side := by
  cases h with
  | bid_first hfirst hsecond | ask_first hfirst hsecond =>
      rw [hfirst, hsecond]
      rintro ⟨⟩

theorem couples_of_buy_sell (hfirst : first.side = .buy) (hsecond : second.side = .sell) :
    q.Couples first second ↔ q.Joins first second := by
  constructor
  · rintro (⟨-, -, hjoins⟩ | ⟨hsell, -, -⟩)
    · exact hjoins
    · cases hfirst.symm.trans hsell
  · exact .bid_first hfirst hsecond

theorem couples_of_sell_buy (hfirst : first.side = .sell) (hsecond : second.side = .buy) :
    q.Couples first second ↔ q.Joins second first := by
  constructor
  · rintro (⟨hbuy, -, -⟩ | ⟨-, -, hjoins⟩)
    · cases hfirst.symm.trans hbuy
    · exact hjoins
  · exact .ask_first hfirst hsecond

end Quote

namespace Held

variable {last? : Option QuoteHalf} {half : QuoteHalf} {received : Instant} {q : Quote}

/-- What is held of an asset whose latest half this is. -/
def ofLatest : Option QuoteHalf → Held
  | none => .nothing
  | some half =>
    match half.side with
    | .buy => .bid half
    | .sell => .ask half

theorem fst_add_ofLatest_eq_some_iff :
    ((ofLatest last?).add half received).1 = some q ↔
      ∃ last, last? = some last ∧ q.Couples last half ∧ q.receivedTime = received := by
  cases last? with
  | none => cases hhalf : half.side <;> simp [ofLatest, add, hhalf]
  | some last =>
      have hcouples : (∃ l, some last = some l ∧ q.Couples l half ∧ q.receivedTime = received) ↔
          q.Couples last half ∧ q.receivedTime = received := by simp
      rw [hcouples]
      by_cases hside : last.side = half.side
      · have hnot : ¬ q.Couples last half := fun h => h.side_ne hside
        cases hhalf : half.side <;> simp [ofLatest, add, hside, hhalf, hnot]
      · cases hlast : last.side with
        | buy =>
            have hhalf : half.side = .sell := by
              cases hhalf : half.side <;> simp_all
            rw [Quote.couples_of_buy_sell hlast hhalf, ← Quote.eq_ofHalves_iff]
            simp [ofLatest, add, hlast, hhalf, eq_comm]
        | sell =>
            have hhalf : half.side = .buy := by
              cases hhalf : half.side <;> simp_all
            rw [Quote.couples_of_sell_buy hlast hhalf, ← Quote.eq_ofHalves_iff]
            simp [ofLatest, add, hlast, hhalf, eq_comm]

theorem isSome_fst_add_ofLatest_iff :
    ((ofLatest last?).add half received).1.isSome ↔
      ∃ last, last? = some last ∧ last.side ≠ half.side := by
  cases last? with
  | none => cases hhalf : half.side <;> simp [ofLatest, add, hhalf]
  | some last =>
      cases hlast : last.side <;> cases hhalf : half.side <;>
        simp [ofLatest, add, hlast, hhalf]

theorem snd_add_ofLatest :
    ((ofLatest last?).add half received).2 =
      ofLatest (if ((ofLatest last?).add half received).1.isSome then none else some half) := by
  cases last? with
  | none => cases hhalf : half.side <;> simp [ofLatest, add, hhalf]
  | some last =>
      cases hlast : last.side <;> cases hhalf : half.side <;>
        simp [ofLatest, add, hlast, hhalf]

end Held

namespace Pairing

/-! ### Calls -/

/-- What is done with a pairing. -/
inductive Call where
  | push (half : QuoteHalf) (received : Instant)
  | clear

/-- Also the quote that the call gave. -/
def perform (p : Pairing) : Call → Option Quote × Pairing
  | .push half received => p.push half received
  | .clear => (none, .clear)

/-- The pairing after some calls. -/
def after (p : Pairing) (calls : List Call) : Pairing :=
  calls.foldl (fun p c => (p.perform c).2) p

/-- A call, and the quote that it gave. -/
structure Turn where
  call : Call
  quote? : Option Quote

/-- Some calls with what they gave. -/
def transcript (p : Pairing) : List Call → List Turn
  | [] => []
  | c :: calls => ⟨c, (p.perform c).1⟩ :: (p.perform c).2.transcript calls

/-- Whether a call changes what is held of an asset: a half of it does, and dropping everything. -/
def Call.concerns (asset : String) : Call → Bool
  | push half _ => half.asset == asset
  | clear => true

/-- The half of an asset that a call brings. -/
def Call.half? (asset : String) : Call → Option QuoteHalf
  | push half _ => if half.asset = asset then some half else none
  | clear => none

/-- Whether nothing of an asset is left to pair: a quote of it was made, or everything dropped. -/
def Turn.closes (asset : String) (t : Turn) : Bool :=
  match t.call with
  | .push half _ => half.asset == asset && t.quote?.isSome
  | .clear => true

/-- The halves of an asset since its last quote, or since everything was dropped. -/
def openHalves (asset : String) (turns : List Turn) : List QuoteHalf :=
  (turns.rtakeWhile fun t => !t.closes asset).filterMap (·.call.half? asset)

variable {p p' : Pairing} {calls : List Call} {c : Call} {turns : List Turn} {t : Turn}
  {asset : String}

theorem after_concat : p.after (calls ++ [c]) = ((p.after calls).perform c).2 :=
  List.foldl_concat ..

theorem transcript_concat :
    p.transcript (calls ++ [c]) = p.transcript calls ++ [⟨c, ((p.after calls).perform c).1⟩] := by
  induction calls generalizing p with
  | nil => rfl
  | cons first calls ih =>
      rw [List.cons_append, transcript, ih, transcript]
      rfl

theorem openHalves_concat :
    openHalves asset (turns ++ [t]) =
      if t.closes asset then [] else openHalves asset turns ++ (t.call.half? asset).toList := by
  unfold openHalves
  rw [List.rtakeWhile_concat]
  cases hcloses : t.closes asset with
  | true => simp
  | false => cases hhalf : t.call.half? asset <;> simp [hhalf]

/-! ### What is held -/

/-- A half of another asset changes nothing for this one. -/
theorem held_perform_of_not_concerns (h : c.concerns asset = false) :
    (p.perform c).2.held asset = p.held asset := by
  cases c with
  | clear => cases h
  | push half received =>
      have hother : ¬ asset = half.asset := fun heq => ne_of_beq_false h heq.symm
      rw [perform, push_eq, held_setHeld, if_neg hother]

/-- A call gives the same with two pairings that hold the same of its asset. -/
theorem perform_congr (hconcerns : c.concerns asset = true) (hheld : p.held asset = p'.held asset) :
    (p.perform c).1 = (p'.perform c).1 ∧
      (p.perform c).2.held asset = (p'.perform c).2.held asset := by
  cases c with
  | clear => exact ⟨rfl, rfl⟩
  | push half received =>
      obtain rfl : half.asset = asset := eq_of_beq hconcerns
      simp only [perform, push_eq, held_setHeld, hheld, if_true, and_self]

/-- The latest half of an asset that is still open is held, and nothing if there is none. -/
theorem held_after (calls : List Call) (asset : String) :
    (clear.after calls).held asset =
      .ofLatest (openHalves asset (clear.transcript calls)).getLast? := by
  induction calls using List.reverseRecOn with
  | nil => rfl
  | append_singleton calls c ih =>
      rw [after_concat, transcript_concat, openHalves_concat]
      cases c with
      | clear => rfl
      | push half received =>
          by_cases hasset : half.asset = asset
          · -- the half is held now, or it has made a quote and nothing is
            subst hasset
            rw [perform, push_eq, held_setHeld, if_pos rfl, ih, Held.snd_add_ofLatest]
            simp only [Turn.closes, beq_self_eq_true, Bool.true_and, Call.half?, if_true]
            split <;> simp
          · rw [held_perform_of_not_concerns (by simpa [Call.concerns] using hasset), ih]
            simp [Turn.closes, Call.half?, hasset]

/-- Among the calls, those about an asset give what they give alone. -/
theorem transcript_filter (p : Pairing) (asset : String) (calls : List Call) :
    (p.after (calls.filter (·.concerns asset))).held asset = (p.after calls).held asset ∧
      p.transcript (calls.filter (·.concerns asset)) =
        (p.transcript calls).filter (·.call.concerns asset) := by
  induction calls using List.reverseRecOn with
  | nil => exact ⟨rfl, rfl⟩
  | append_singleton calls c ih =>
      obtain ⟨hheld, htranscript⟩ := ih
      rw [List.filter_append, after_concat, transcript_concat, List.filter_append, ← htranscript]
      cases hconcerns : c.concerns asset with
      | true =>
          obtain ⟨hquote, hafter⟩ := perform_congr hconcerns hheld
          have hone : [c].filter (·.concerns asset) = [c] := by simp [hconcerns]
          rw [hone, after_concat, transcript_concat, hquote]
          exact ⟨hafter, by simp [hconcerns]⟩
      | false =>
          have hnone : [c].filter (·.concerns asset) = [] := by simp [hconcerns]
          rw [hnone, List.append_nil, held_perform_of_not_concerns hconcerns]
          exact ⟨hheld, by simp [hconcerns]⟩

/-- However halves were pushed and dropped so far, a half makes a quote just if the latest half of
its asset, since the last quote of the asset and since everything was dropped, is of the other side;
the quote has its bid from the one of the two that buys and its ask from the one that sells. That
latest half is what is held of an asset. The calls about an asset give what they give without the
halves of others, and leave the same of it. -/
theorem quotes_follow_history (calls : List Call) :
    (∀ half received,
      (((clear.after calls).push half received).1.isSome ↔
        ∃ last, (openHalves half.asset (clear.transcript calls)).getLast? = some last ∧
          last.side ≠ half.side) ∧
      ∀ q, ((clear.after calls).push half received).1 = some q ↔
        ∃ last, (openHalves half.asset (clear.transcript calls)).getLast? = some last ∧
          q.Couples last half ∧ q.receivedTime = received) ∧
    ∀ asset,
      (clear.after calls).held asset =
        .ofLatest (openHalves asset (clear.transcript calls)).getLast? ∧
      (clear.after (calls.filter (·.concerns asset))).held asset =
        (clear.after calls).held asset ∧
      clear.transcript (calls.filter (·.concerns asset)) =
        (clear.transcript calls).filter (·.call.concerns asset) := by
  have hquote : ∀ half received q,
      ((clear.after calls).push half received).1 = some q ↔
        ∃ last, (openHalves half.asset (clear.transcript calls)).getLast? = some last ∧
          q.Couples last half ∧ q.receivedTime = received := by
    intro half received q
    rw [push_eq, held_after]
    exact Held.fst_add_ofLatest_eq_some_iff
  refine ⟨fun half received => ⟨?_, hquote half received⟩, fun asset => ?_⟩
  · rw [push_eq, held_after]
    exact Held.isSome_fst_add_ofLatest_iff
  · obtain ⟨hheld, htranscript⟩ := transcript_filter clear asset calls
    exact ⟨held_after calls asset, hheld, htranscript⟩

/-- A bid takes the place of the one before it, and the ask of another asset makes no quote. -/
example (size : Decimal) (time : Instant) :
    (clear.transcript [.push ⟨"btc", .buy, .one, size, time⟩ time,
        .push ⟨"btc", .buy, .two, size, time⟩ time, .push ⟨"eth", .sell, .one, size, time⟩ time,
        .push ⟨"btc", .sell, .one, size, time⟩ time]).map (·.quote?.map (·.bidPrice)) =
      [none, none, none, some .two] := by
  rfl

end Pairing

end TradingDesk

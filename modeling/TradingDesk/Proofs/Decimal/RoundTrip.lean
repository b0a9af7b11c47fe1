import TradingDesk.Proofs.Text.Digits
/-!
# Reading a written decimal

A decimal is read back from its text with its coefficient and its scale.
-/

namespace TradingDesk.Decimal

theorem readDigits?_digit {c : Char} (hc : c.isDigit = true) (cs : List Char)
    (digits scale : Nat) (met : Bool)
    (hlt : digits * 10 + (c.toNat - '0'.toNat) < bound) :
    readDigits? (c :: cs) digits scale false met =
      readDigits? cs (digits * 10 + (c.toNat - '0'.toNat)) 0 false true := by
  rw [readDigits?]
  simp only [digit?_of_isDigit hc, if_pos hlt, Bool.false_eq_true, if_false]

theorem readDigits?_fractionDigit {c : Char} (hc : c.isDigit = true) (cs : List Char)
    (digits scale : Nat) (met : Bool) (hscale : scale < maxScale)
    (hlt : digits * 10 + (c.toNat - '0'.toNat) < bound) :
    readDigits? (c :: cs) digits scale true met =
      readDigits? cs (digits * 10 + (c.toNat - '0'.toNat)) (scale + 1) true true := by
  rw [readDigits?]
  simp only [digit?_of_isDigit hc, if_pos (And.intro hscale hlt), if_true]

/-- The integer part is read digit by digit as long as the number fits. -/
theorem readDigits?_append {ds : List Char} (hds : AllDigits ds) (rest : List Char)
    (digits : Nat) (met : Bool) (hlt : Nat.ofDigitChars 10 ds digits < bound) :
    readDigits? (ds ++ rest) digits 0 false met =
      readDigits? rest (Nat.ofDigitChars 10 ds digits) 0 false (met || !ds.isEmpty) := by
  induction ds generalizing digits met with
  | nil => simp
  | cons c cs ih =>
    rw [ofDigitChars_cons_eq] at hlt ⊢
    have hnext := Nat.lt_of_le_of_lt (le_ofDigitChars cs _) hlt
    rw [List.cons_append, readDigits?_digit hds.head _ _ _ _ hnext, ih hds.tail _ _ hlt]
    simp

/-- The fraction is read digit by digit as long as number and scale fit. -/
theorem readDigits?_fraction {ds : List Char} (hds : AllDigits ds) (digits scale : Nat)
    (hscale : scale + ds.length ≤ maxScale) (hlt : Nat.ofDigitChars 10 ds digits < bound) :
    readDigits? ds digits scale true true =
      some (Nat.ofDigitChars 10 ds digits, scale + ds.length) := by
  induction ds generalizing digits scale with
  | nil => simp [readDigits?]
  | cons c cs ih =>
    rw [ofDigitChars_cons_eq] at hlt ⊢
    have hnext := Nat.lt_of_le_of_lt (le_ofDigitChars cs _) hlt
    have hscale' : scale + 1 + cs.length ≤ maxScale := by
      simp only [List.length_cons] at hscale
      omega
    rw [readDigits?_fractionDigit hds.head _ _ _ _ (by omega) hnext,
      ih hds.tail _ _ hscale' hlt, List.length_cons]
    congr 2
    omega

/-! ### The parts of a text -/

/-- The digits of the coefficient, at least one of them before the point. -/
def written (a : Decimal) : List Char := paddedDigits (a.scale + 1) a.coefficient.natAbs

def whole (a : Decimal) : List Char := a.written.take (a.written.length - a.scale)

def fraction (a : Decimal) : List Char := a.written.drop (a.written.length - a.scale)

theorem chars_eq (a : Decimal) :
    a.chars = (if a.coefficient < 0 then ['-'] else []) ++ (a.whole ++
      (if a.scale = 0 then [] else '.' :: a.fraction)) := by
  simp [chars, whole, fraction, written]

theorem whole_append_fraction (a : Decimal) : a.whole ++ a.fraction = a.written :=
  List.take_append_drop _ _

theorem scale_lt_length_written (a : Decimal) : a.scale < a.written.length :=
  le_length_paddedDigits (a.scale + 1) a.coefficient.natAbs

theorem length_fraction (a : Decimal) : a.fraction.length = a.scale := by
  have hlt := a.scale_lt_length_written
  simp only [fraction, List.length_drop]
  omega

theorem whole_ne_nil (a : Decimal) : a.whole ≠ [] := by
  have hlt := a.scale_lt_length_written
  intro hnil
  have hlen : a.whole.length = 0 := by rw [hnil]; rfl
  simp only [whole, List.length_take] at hlen
  omega

theorem allDigits_whole (a : Decimal) : AllDigits a.whole :=
  (allDigits_paddedDigits _ _).take _

theorem allDigits_fraction (a : Decimal) : AllDigits a.fraction :=
  (allDigits_paddedDigits _ _).drop _

theorem ofDigitChars_fraction (a : Decimal) :
    Nat.ofDigitChars 10 a.fraction (Nat.ofDigitChars 10 a.whole 0) = a.coefficient.natAbs := by
  rw [← Nat.ofDigitChars_append, whole_append_fraction]
  exact ofDigitChars_paddedDigits _ _

/-! ### Reading them -/

theorem readDigits?_whole (a : Decimal) :
    readDigits? (a.whole ++ (if a.scale = 0 then [] else '.' :: a.fraction)) 0 0 false false =
      some (a.coefficient.natAbs, a.scale) := by
  have hlt : Nat.ofDigitChars 10 a.fraction (Nat.ofDigitChars 10 a.whole 0) < bound := by
    rw [ofDigitChars_fraction]
    exact a.coefficient_lt
  have hwhole : Nat.ofDigitChars 10 a.whole 0 < bound :=
    Nat.lt_of_le_of_lt (le_ofDigitChars a.fraction _) hlt
  have hmet : (false || !a.whole.isEmpty) = true := by simp [a.whole_ne_nil]
  rw [readDigits?_append a.allDigits_whole _ _ _ hwhole, hmet]
  have hpoint : digit? '.' = none := rfl
  split
  next hscale =>
    have hnil : a.fraction = [] := List.eq_nil_of_length_eq_zero (a.length_fraction.trans hscale)
    have hvalue := a.ofDigitChars_fraction
    rw [hnil, Nat.ofDigitChars_nil] at hvalue
    simp [readDigits?, hvalue, hscale]
  next =>
    have hscale : 0 + a.fraction.length ≤ maxScale := by
      rw [a.length_fraction, Nat.zero_add]
      exact a.scale_le
    have hread := readDigits?_fraction a.allDigits_fraction (Nat.ofDigitChars 10 a.whole 0) 0
      hscale hlt
    rw [ofDigitChars_fraction, a.length_fraction, Nat.zero_add] at hread
    simpa [readDigits?, hpoint] using hread

theorem splitSign_whole (a : Decimal) (rest : List Char) :
    splitSign (a.whole ++ rest) = (false, a.whole ++ rest) := by
  cases hwhole : a.whole with
  | nil => exact absurd hwhole a.whole_ne_nil
  | cons c cs =>
    have hdigit : c.isDigit = true := by
      have hall := a.allDigits_whole
      rw [hwhole] at hall
      exact hall.head
    rw [List.cons_append, splitSign]
    · intro tail heq
      rw [(List.cons.inj heq).1] at hdigit
      exact absurd hdigit (by decide)
    · intro tail heq
      rw [(List.cons.inj heq).1] at hdigit
      exact absurd hdigit (by decide)

theorem readPlain?_chars (a : Decimal) : readPlain? a.chars = some a := by
  have hfits : ofParts? a.coefficient a.scale = some a := by
    simp [ofParts?, a.coefficient_lt, a.scale_le]
  have hsign : splitSign a.chars = (decide (a.coefficient < 0),
      a.whole ++ (if a.scale = 0 then [] else '.' :: a.fraction)) := by
    rw [chars_eq]
    by_cases hneg : a.coefficient < 0
    · simp [hneg, splitSign]
    · simp only [hneg, if_false, List.nil_append, decide_false]
      exact a.splitSign_whole _
  have hcoefficient : (if decide (a.coefficient < 0) = true then -(a.coefficient.natAbs : Int)
      else a.coefficient.natAbs) = a.coefficient := by
    by_cases hneg : a.coefficient < 0
    · simp only [hneg, decide_true, if_true]
      omega
    · simp only [hneg, decide_false, Bool.false_eq_true, if_false]
      omega
  simp only [readPlain?, hsign, readDigits?_whole, Option.bind_eq_bind, Option.bind_some,
    hcoefficient, hfits]

theorem ofText?_toText (a : Decimal) : ofText? a.toText = some a := by
  simp [ofText?, toText, ofChars?, readPlain?_chars]

end TradingDesk.Decimal

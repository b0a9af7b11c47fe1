import TradingDesk.Decimal.Text
import TradingDesk.Instant.Text
import Mathlib.Tactic
/-!
# Runs of digits

Numbers are written with leading zeros up to a width. Read digit by digit they give the number back.
Decimals and instants write and read their digits alike.
-/

namespace TradingDesk

/-- Characters that are all ASCII digits. -/
def AllDigits (cs : List Char) : Prop := ∀ c ∈ cs, c.isDigit = true

theorem AllDigits.head {c : Char} {cs : List Char} (h : AllDigits (c :: cs)) :
    c.isDigit = true :=
  h c List.mem_cons_self

theorem AllDigits.tail {c : Char} {cs : List Char} (h : AllDigits (c :: cs)) :
    AllDigits cs :=
  fun d hd => h d (List.mem_cons_of_mem c hd)

theorem AllDigits.take {cs : List Char} (h : AllDigits cs) (n : Nat) : AllDigits (cs.take n) :=
  fun c hc => h c (List.mem_of_mem_take hc)

theorem AllDigits.drop {cs : List Char} (h : AllDigits cs) (n : Nat) : AllDigits (cs.drop n) :=
  fun c hc => h c (List.mem_of_mem_drop hc)

/-- What is read of digits is never less than what was read before them. -/
theorem le_ofDigitChars (cs : List Char) (n : Nat) : n ≤ Nat.ofDigitChars 10 cs n := by
  rw [Nat.ofDigitChars_eq_ofDigitChars_zero]
  have hpos : 1 ≤ 10 ^ cs.length := Nat.one_le_pow _ _ (by decide)
  calc
    n = 1 * n := (Nat.one_mul n).symm
    _ ≤ 10 ^ cs.length * n := Nat.mul_le_mul_right n hpos
    _ ≤ 10 ^ cs.length * n + Nat.ofDigitChars 10 cs 0 := Nat.le_add_right _ _

theorem ofDigitChars_cons_eq (c : Char) (cs : List Char) (n : Nat) :
    Nat.ofDigitChars 10 (c :: cs) n =
      Nat.ofDigitChars 10 cs (n * 10 + (c.toNat - '0'.toNat)) := by
  rw [Nat.ofDigitChars_cons, Nat.mul_comm]

namespace Decimal

theorem digit?_of_isDigit {c : Char} (h : c.isDigit = true) :
    digit? c = some (c.toNat - '0'.toNat) := by
  have hbounds : '0' ≤ c ∧ c ≤ '9' := by
    simpa [Char.isDigit, Char.le_def] using h
  simp [digit?, hbounds]

theorem allDigits_paddedDigits (width n : Nat) : AllDigits (paddedDigits width n) := by
  intro c hc
  rcases List.mem_append.mp hc with hzero | hdigit
  · rw [List.eq_of_mem_replicate hzero]
    rfl
  · exact Nat.isDigit_of_mem_toDigits (by decide) (by decide) hdigit

@[simp] theorem ofDigitChars_paddedDigits (width n : Nat) :
    Nat.ofDigitChars 10 (paddedDigits width n) 0 = n := by
  simp [paddedDigits, Nat.ofDigitChars_append]

theorem le_length_paddedDigits (width n : Nat) : width ≤ (paddedDigits width n).length := by
  simp only [paddedDigits, List.length_append, List.length_replicate]
  omega

theorem length_paddedDigits {width n : Nat} (hpos : 0 < width) (hlt : n < 10 ^ width) :
    (paddedDigits width n).length = width := by
  have hle := (Nat.length_toDigits_le_iff (b := 10) (by decide) hpos).mpr hlt
  simp only [paddedDigits, List.length_append, List.length_replicate]
  omega

end Decimal

namespace Instant

theorem digit?_of_isDigit {c : Char} (h : c.isDigit = true) :
    digit? c = some (c.toNat - '0'.toNat) :=
  Decimal.digit?_of_isDigit h

theorem digit?_of_not_isDigit {c : Char} (h : c.isDigit = false) : digit? c = none := by
  have hbounds : ¬ ('0' ≤ c ∧ c ≤ '9') := by
    intro hin
    have : c.isDigit = true := by simpa [Char.isDigit, Char.le_def] using hin
    simp [h] at this
  simp [digit?, hbounds]

theorem allDigits_padded (width n : Nat) : AllDigits (padded width n) :=
  Decimal.allDigits_paddedDigits width n

@[simp] theorem ofDigitChars_padded (width n : Nat) :
    Nat.ofDigitChars 10 (padded width n) 0 = n :=
  Decimal.ofDigitChars_paddedDigits width n

theorem le_length_padded (width n : Nat) : width ≤ (padded width n).length :=
  Decimal.le_length_paddedDigits width n

theorem length_padded {width n : Nat} (hpos : 0 < width) (hlt : n < 10 ^ width) :
    (padded width n).length = width :=
  Decimal.length_paddedDigits hpos hlt

end Instant

end TradingDesk

import Mathlib.Tactic
import TradingDesk.Proofs.Decimal.Order
/-!
# Amounts that need no rounding

A sum, a difference or a product is computed to the last digit if there is a decimal for it.
-/

namespace TradingDesk.Decimal

variable {a b r : Decimal}

/-- There is a decimal for this number. -/
def Represented (q : ℚ) : Prop := ∃ d : Decimal, d.value = q

theorem represented_value (a : Decimal) : Represented a.value := ⟨a, rfl⟩

theorem represented_zero : Represented 0 := ⟨zero, value_zero⟩

theorem Represented.neg {q : ℚ} (h : Represented q) : Represented (-q) := by
  obtain ⟨d, rfl⟩ := h
  exact ⟨-d, neg_value d⟩

/-! ### Rounding -/

theorem roundHalfEven_mul {den : Nat} (hden : 0 < den) (q : Nat) :
    roundHalfEven (q * den) den = q := by
  have hnot : ¬ (0 = den) := by omega
  simp [roundHalfEven, Nat.mul_div_cancel q hden, hnot]

theorem roundAway_mul (c : Int) (digits : Nat) : roundAway (c * pow10 digits) digits = c := by
  have hpos := pow10_pos digits
  have hsign : (c * pow10 digits : Int).sign = c.sign := by
    rw [Int.sign_mul, Int.sign_natCast_of_ne_zero (by omega), mul_one]
  rw [roundAway, Int.natAbs_mul, Int.natAbs_natCast, roundHalfEven_mul hpos, hsign,
    Int.sign_mul_natAbs]

/-- The digits by which a number at a scale has to be cut for a decimal that there is for it. -/
theorem exists_digits {coefficient : Int} {scale : Nat} {d : Decimal}
    (h : d.value = coefficient / 10 ^ scale) :
    ∃ digits ≤ scale, ∃ c : Int, coefficient = c * pow10 digits ∧ c.natAbs < pow2 96 ∧
      scale - digits ≤ 28 := by
  have hvalue : (d.coefficient : ℚ) * 10 ^ scale = coefficient * 10 ^ d.scale :=
    (div_eq_div_iff (by positivity) (by positivity)).mp h
  rcases le_total d.scale scale with hle | hle
  · refine ⟨scale - d.scale, by omega, d.coefficient, ?_, d.coefficient_lt, ?_⟩
    · have hsplit : (10 : ℚ) ^ scale = 10 ^ (scale - d.scale) * 10 ^ d.scale := by
        rw [← pow_add]
        congr 1
        omega
      rw [hsplit, ← mul_assoc] at hvalue
      have hcancel := mul_right_cancel₀ (by positivity) hvalue
      rw [← cast_pow10] at hcancel
      exact_mod_cast hcancel.symm
    · have hscale := d.scale_le
      omega
  · refine ⟨0, by omega, coefficient, by simp [pow10], ?_, ?_⟩
    · have hsplit : (10 : ℚ) ^ d.scale = 10 ^ (d.scale - scale) * 10 ^ scale := by
        rw [← pow_add]
        congr 1
        omega
      rw [hsplit, ← mul_assoc] at hvalue
      have hcancel := mul_right_cancel₀ (by positivity) hvalue
      rw [← cast_pow10] at hcancel
      have heq : d.coefficient = coefficient * pow10 (d.scale - scale) := by exact_mod_cast hcancel
      have hlt := d.coefficient_lt
      rw [heq, Int.natAbs_mul, Int.natAbs_natCast] at hlt
      exact Nat.lt_of_le_of_lt (Nat.le_mul_of_pos_right _ (pow10_pos _)) hlt
    · have hscale := d.scale_le
      omega

theorem fit?_exact {coefficient : Int} {scale : Nat}
    (h : Represented (coefficient / 10 ^ scale)) :
    ∃ r, fit? coefficient scale = some r ∧ r.value = coefficient / 10 ^ scale := by
  obtain ⟨d, hd⟩ := h
  obtain ⟨digits, hdigits, c, rfl, hc, hscale⟩ := exists_digits hd
  have hfits : (ofParts? (roundAway (c * pow10 digits) digits) (scale - digits)).isSome = true := by
    rw [roundAway_mul]
    exact ofParts?_of_fits hc hscale
  cases hfit : fit? (c * pow10 digits) scale with
  | none =>
      have hnone := List.findSome?_eq_none_iff.mp hfit digits (by simpa [Nat.lt_succ_iff])
      rw [hnone] at hfits
      contradiction
  | some r =>
      obtain ⟨cut, hcut, hcoefficient, hr, hfewer⟩ := fit?_eq_some hfit
      have hle : cut ≤ digits := by
        by_contra hgt
        rw [hfewer digits (by omega)] at hfits
        contradiction
      have hsplit : (pow10 digits : Int) = pow10 (digits - cut) * pow10 cut := by
        have hpow : pow10 digits = pow10 (digits - cut) * pow10 cut := by
          change 10 ^ digits = 10 ^ (digits - cut) * 10 ^ cut
          rw [← Nat.pow_add]
          congr 1
          omega
        exact_mod_cast hpow
      rw [hsplit, ← mul_assoc, roundAway_mul] at hcoefficient
      refine ⟨r, rfl, ?_⟩
      rw [value, hcoefficient, hr, hsplit, ← mul_assoc]
      have hscales : (10 : ℚ) ^ scale = 10 ^ (scale - cut) * 10 ^ cut := by
        rw [← pow_add]
        congr 1
        omega
      rw [hscales, div_eq_div_iff (by positivity) (by positivity)]
      push_cast [cast_pow10]
      ring

/-! ### Sums, differences, products -/

theorem add?_exact (h : Represented (a.value + b.value)) :
    ∃ r, a.add? b = some r ∧ r.value = a.value + b.value := by
  unfold add?
  split
  · next hb =>
    rw [isZero_iff] at hb
    exact ⟨a, rfl, by rw [hb, add_zero]⟩
  · split
    · next ha =>
      rw [isZero_iff] at ha
      exact ⟨b, rfl, by rw [ha, zero_add]⟩
    · have hvalue : ((a.coefficient * pow10 (max a.scale b.scale - a.scale) +
          b.coefficient * pow10 (max a.scale b.scale - b.scale) : Int) : ℚ) /
          10 ^ max a.scale b.scale = a.value + b.value := by
        rw [Int.cast_add, scaled (le_max_left _ _), scaled (le_max_right _ _), ← add_mul,
          mul_div_cancel_right₀ _ (by positivity)]
      rw [← hvalue] at h ⊢
      exact fit?_exact h

theorem sub?_exact (h : Represented (a.value - b.value)) :
    ∃ r, a.sub? b = some r ∧ r.value = a.value - b.value := by
  rw [sub_eq_add_neg, ← neg_value] at h ⊢
  exact add?_exact h

/-- A product that lies far behind the point has more digits than there is room for. -/
theorem not_represented_small {coefficient : Int} {scale : Nat} (hne : coefficient ≠ 0)
    (hsmall : coefficient.natAbs < pow2 64) (hscale : 47 < scale) :
    ¬ Represented (coefficient / 10 ^ scale) := by
  rintro ⟨d, hd⟩
  obtain ⟨digits, -, c, rfl, -, hroom⟩ := exists_digits hd
  have hmany : pow10 20 ≤ pow10 digits := Nat.pow_le_pow_right (by omega) (by omega)
  have hc : 0 < c.natAbs := Int.natAbs_pos.mpr (left_ne_zero_of_mul hne)
  rw [Int.natAbs_mul, Int.natAbs_natCast] at hsmall
  have hle : pow10 digits ≤ c.natAbs * pow10 digits := Nat.le_mul_of_pos_left _ hc
  have hbounds : pow2 64 < pow10 20 := by decide
  omega

theorem mul_value (a b : Decimal) :
    ((a.coefficient * b.coefficient : Int) : ℚ) / 10 ^ (a.scale + b.scale) = a.value * b.value := by
  rw [value, value, Int.cast_mul, pow_add, div_mul_div_comm]

theorem mul?_exact (h : Represented (a.value * b.value)) :
    ∃ r, a.mul? b = some r ∧ r.value = a.value * b.value := by
  have hvalue := mul_value a b
  unfold mul?
  split
  · next hzero =>
    refine ⟨zero, rfl, ?_⟩
    rw [Bool.or_eq_true, isZero_iff, isZero_iff] at hzero
    rcases hzero with hzero | hzero <;> simp [hzero, value_zero]
  · split
    · next hzero hsmall =>
      simp only [Bool.and_eq_true, decide_eq_true_eq] at hsmall
      obtain ⟨⟨hscale, ha⟩, hb⟩ := hsmall
      rw [Bool.or_eq_true, not_or, isZero_iff, isZero_iff] at hzero
      have hne : a.coefficient * b.coefficient ≠ 0 := by
        intro heq
        rw [heq, Int.cast_zero, zero_div] at hvalue
        exact mul_ne_zero hzero.1 hzero.2 hvalue.symm
      have hlt : (a.coefficient * b.coefficient).natAbs < pow2 64 := by
        have hbounds : pow2 32 * pow2 32 = pow2 64 := by decide
        rw [Int.natAbs_mul, ← hbounds]
        exact Nat.mul_lt_mul'' ha hb
      rw [← hvalue] at h
      exact absurd h (not_represented_small hne hlt hscale)
    · rw [← hvalue] at h ⊢
      exact fit?_exact h

end TradingDesk.Decimal

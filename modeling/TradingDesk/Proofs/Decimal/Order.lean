import Mathlib.Tactic
import TradingDesk.Decimal.Basic
/-!
# Amounts in order

Decimals are compared by the numbers that they stand for. A smaller amount taken from a larger one
leaves no more than there was, even where the difference has too many digits and is rounded.
-/

namespace TradingDesk.Decimal

variable {a b r : Decimal}

/-- The number that a decimal stands for. -/
def value (a : Decimal) : ℚ := a.coefficient / 10 ^ a.scale

theorem cast_pow10 (n : Nat) : ((pow10 n : Nat) : ℚ) = 10 ^ n := by
  simp [pow10]

theorem le_iff : a ≤ b ↔ a.value ≤ b.value := by
  have hdiv : a.value ≤ b.value ↔
      (a.coefficient : ℚ) * 10 ^ b.scale ≤ b.coefficient * 10 ^ a.scale :=
    div_le_div_iff₀ (by positivity) (by positivity)
  rw [hdiv]
  change a.coefficient * pow10 b.scale ≤ b.coefficient * pow10 a.scale ↔ _
  rw [← cast_pow10, ← cast_pow10]
  norm_cast

theorem lt_iff : a < b ↔ a.value < b.value := by
  have hdiv : a.value < b.value ↔
      (a.coefficient : ℚ) * 10 ^ b.scale < b.coefficient * 10 ^ a.scale :=
    div_lt_div_iff₀ (by positivity) (by positivity)
  rw [hdiv]
  change a.coefficient * pow10 b.scale < b.coefficient * pow10 a.scale ↔ _
  rw [← cast_pow10, ← cast_pow10]
  norm_cast

theorem le_trans (hab : a ≤ b) (hbr : b ≤ r) : a ≤ r :=
  le_iff.mpr ((le_iff.mp hab).trans (le_iff.mp hbr))

theorem value_zero : zero.value = 0 := by simp [value, zero]

theorem zero_lt_iff : zero < a ↔ 0 < a.value := by
  rw [lt_iff, value_zero]

theorem zero_le_iff : zero ≤ a ↔ 0 ≤ a.value := by
  rw [le_iff, value_zero]

theorem isZero_iff : a.isZero = true ↔ a.value = 0 := by
  simp [isZero, value]

theorem isZero_of_pos (h : zero < a) : a.isZero = false := by
  rw [← Bool.not_eq_true, isZero_iff]
  exact (zero_lt_iff.mp h).ne'

theorem least_of_le (h : a ≤ b) : a.least b = a := by
  have hnot : ¬ b < a := by
    rw [lt_iff, not_lt]
    exact le_iff.mp h
  rw [least, if_neg hnot]

/-! ### Rounding -/

/-- What is at most a number of units is not rounded to more of them. -/
theorem roundHalfEven_le {num den bound : Nat} (hden : 0 < den) (h : num ≤ bound * den) :
    roundHalfEven num den ≤ bound := by
  have hdiv : num / den ≤ bound := (Nat.div_le_iff_le_mul_add_pred hden).mpr (by
    rw [Nat.mul_comm]
    omega)
  have hsplit := Nat.div_add_mod num den
  unfold roundHalfEven
  by_cases heq : num / den = bound
  · have hrest : num % den = 0 := by
      rw [heq, Nat.mul_comm] at hsplit
      omega
    have hnot : ¬ (0 = den) := by omega
    simp [heq, hrest, hnot]
  · simp only
    split <;> omega

theorem ofParts?_eq_some {coefficient : Int} {scale : Nat}
    (h : ofParts? coefficient scale = some r) : r.coefficient = coefficient ∧ r.scale = scale := by
  unfold ofParts? at h
  split at h
  · cases h
    exact ⟨rfl, rfl⟩
  · cases h

theorem ofParts?_of_fits {coefficient : Int} {scale : Nat}
    (hcoefficient : coefficient.natAbs < pow2 96) (hscale : scale ≤ 28) :
    (ofParts? coefficient scale).isSome = true := by
  rw [ofParts?, dif_pos ⟨hcoefficient, hscale⟩]
  rfl

theorem pow10_pos (n : Nat) : 0 < pow10 n := Nat.pow_pos (by omega)

theorem roundAway_natCast (m digits : Nat) :
    roundAway m digits = (roundHalfEven m (pow10 digits) : Nat) := by
  rcases Nat.eq_zero_or_pos m with rfl | hpos
  · have hzero : roundHalfEven 0 (pow10 digits) ≤ 0 :=
      roundHalfEven_le (pow10_pos digits) (by omega)
    rw [Nat.le_zero.mp hzero]
    simp [roundAway]
  · rw [roundAway, Int.sign_natCast_of_ne_zero (by omega), Int.natAbs_natCast, one_mul]

/-- No more digits are rounded away than have to be. -/
theorem fit?_eq_some {coefficient : Int} {scale : Nat} (h : fit? coefficient scale = some r) :
    ∃ digits ≤ scale, r.coefficient = roundAway coefficient digits ∧ r.scale = scale - digits ∧
      ∀ fewer < digits, ofParts? (roundAway coefficient fewer) (scale - fewer) = none := by
  obtain ⟨before, digits, behind, hrange, hparts, hbefore⟩ := List.findSome?_eq_some_iff.mp h
  obtain ⟨hcoefficient, hscale⟩ := ofParts?_eq_some hparts
  have hmem : digits ∈ List.range (scale + 1) := by simp [hrange]
  refine ⟨digits, by simpa [Nat.lt_succ_iff] using hmem, hcoefficient, hscale, ?_⟩
  intro fewer hfewer
  apply hbefore
  have hfewer' : fewer ∈ List.range (scale + 1) := by
    rw [List.mem_range] at hmem ⊢
    omega
  rw [hrange, List.mem_append, List.mem_cons] at hfewer'
  have hordered : (List.range (scale + 1)).Pairwise (· < ·) := List.pairwise_lt_range
  rw [hrange, List.pairwise_append, List.pairwise_cons] at hordered
  rcases hfewer' with hin | rfl | hbehind
  · exact hin
  · exact absurd hfewer (Nat.lt_irrefl fewer)
  · have hlt := hordered.2.1.1 fewer hbehind
    omega

/-- A number that is at most a decimal with fewer digits is rounded to at most that decimal. -/
theorem fit?_le {m n scale : Nat} (extra : Nat) (hle : m ≤ n * pow10 extra) (hn : n < pow2 96)
    (hextra : extra ≤ scale) (hscale : scale - extra ≤ 28) (h : fit? m scale = some r) :
    0 ≤ r.value ∧ r.value ≤ n / 10 ^ (scale - extra) := by
  obtain ⟨digits, hdigits, hcoefficient, hr, hfewer⟩ := fit?_eq_some h
  rw [roundAway_natCast] at hcoefficient
  -- with `extra` digits rounded away the number is at most `n`, and that fits
  have hle' : digits ≤ extra := by
    by_contra hgt
    have hnone := hfewer extra (by omega)
    rw [roundAway_natCast] at hnone
    have hround := roundHalfEven_le (pow10_pos extra) hle
    have hfits : (ofParts? (roundHalfEven m (pow10 extra) : Nat) (scale - extra)).isSome = true :=
      ofParts?_of_fits (by rw [Int.natAbs_natCast]; omega) hscale
    rw [hnone] at hfits
    contradiction
  have hsplit : pow10 extra = pow10 (extra - digits) * pow10 digits := by
    change 10 ^ extra = 10 ^ (extra - digits) * 10 ^ digits
    rw [← Nat.pow_add]
    congr 1
    omega
  have hround : roundHalfEven m (pow10 digits) ≤ n * pow10 (extra - digits) := by
    apply roundHalfEven_le (pow10_pos digits)
    rw [Nat.mul_assoc, ← hsplit]
    exact hle
  have hcast : ((roundHalfEven m (pow10 digits) : Nat) : ℚ) ≤ n * 10 ^ (extra - digits) := by
    rw [← cast_pow10]
    exact_mod_cast hround
  rw [value, hcoefficient, hr]
  constructor
  · positivity
  · rw [div_le_div_iff₀ (by positivity) (by positivity)]
    have hscales : (10 : ℚ) ^ (scale - digits) = 10 ^ (extra - digits) * 10 ^ (scale - extra) := by
      rw [← pow_add]
      congr 1
      omega
    rw [hscales, ← mul_assoc]
    exact mul_le_mul_of_nonneg_right hcast (by positivity)

/-! ### Differences -/

theorem neg_value (a : Decimal) : (-a).value = -a.value := by
  change ((-a.coefficient : Int) : ℚ) / 10 ^ a.scale = _
  rw [Int.cast_neg, neg_div]
  rfl

/-- The coefficient that a decimal has at a larger scale. -/
theorem scaled {scale : Nat} (h : a.scale ≤ scale) :
    ((a.coefficient * pow10 (scale - a.scale) : Int) : ℚ) = a.value * 10 ^ scale := by
  have hsplit : (10 : ℚ) ^ scale = 10 ^ a.scale * 10 ^ (scale - a.scale) := by
    rw [← pow_add]
    congr 1
    omega
  rw [value, hsplit, ← mul_assoc, div_mul_cancel₀ _ (by positivity), Int.cast_mul, ← cast_pow10]
  rfl

/-- A difference is rounded from its exact value at the larger of the two scales. -/
theorem sub?_eq_fit? (ha : a.value ≠ 0) (hb : b.value ≠ 0) (h : a.sub? b = some r) :
    ∃ (rest : Int) (scale : Nat), a.scale ≤ scale ∧ fit? rest scale = some r ∧
      (rest : ℚ) = (a.value - b.value) * 10 ^ scale := by
  have hsecond : ¬ (-b).isZero = true := by
    rw [isZero_iff, neg_value]
    exact neg_ne_zero.mpr hb
  have hfirst : ¬ a.isZero = true := by rwa [isZero_iff]
  rw [sub?, add?, if_neg hsecond, if_neg hfirst] at h
  refine ⟨_, _, le_max_left _ _, h, ?_⟩
  rw [Int.cast_add, scaled (le_max_left _ _), scaled (le_max_right _ _), neg_value]
  ring

theorem coefficient_nonneg (h : 0 ≤ a.value) : 0 ≤ a.coefficient := by
  by_contra hneg
  have hlt : a.value < 0 := div_neg_of_neg_of_pos (by exact_mod_cast not_le.mp hneg) (by positivity)
  exact absurd h (not_le.mpr hlt)

/-- Some of an amount taken from it leaves between nothing and all of it. -/
theorem sub?_bounds (hb : 0 < b.value) (hle : b.value ≤ a.value) (h : a.sub? b = some r) :
    0 ≤ r.value ∧ r.value ≤ a.value := by
  have ha : 0 < a.value := hb.trans_le hle
  obtain ⟨rest, scale, hscale, hfit, hrest⟩ := sub?_eq_fit? ha.ne' hb.ne' h
  have hnonneg : 0 ≤ rest := by
    have hcast : (0 : ℚ) ≤ rest := by
      rw [hrest]
      exact mul_nonneg (by linarith) (by positivity)
    exact_mod_cast hcast
  have hmost : rest ≤ a.coefficient * pow10 (scale - a.scale) := by
    have hcast : (rest : ℚ) ≤ (a.coefficient * pow10 (scale - a.scale) : Int) := by
      rw [hrest, scaled hscale]
      exact mul_le_mul_of_nonneg_right (by linarith) (by positivity)
    exact_mod_cast hcast
  have hcoefficient := coefficient_nonneg ha.le
  obtain ⟨m, rfl⟩ := Int.eq_ofNat_of_zero_le hnonneg
  obtain ⟨n, hn⟩ := Int.eq_ofNat_of_zero_le hcoefficient
  have hfits : n < pow2 96 := by
    have hlt := a.coefficient_lt
    omega
  rw [hn] at hmost
  have hback : scale - (scale - a.scale) = a.scale := by omega
  have hmost' : m ≤ n * pow10 (scale - a.scale) := by exact_mod_cast hmost
  have hbounds := fit?_le (scale - a.scale) hmost' hfits (by omega)
    (by rw [hback]; exact a.scale_le) hfit
  rw [hback] at hbounds
  have hvalue : a.value = n / 10 ^ a.scale := by
    rw [value, hn, Int.cast_natCast]
  rw [hvalue]
  exact hbounds

end TradingDesk.Decimal

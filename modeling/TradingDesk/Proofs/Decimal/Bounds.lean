import TradingDesk.Proofs.Decimal.Exact
/-!
# Rounding passes no decimal

A number between decimals is rounded to one of them, however many digits it has to lose. So what is
at least a decimal is rounded to at least that decimal, and an amount does not fall when something
is added to it or when it is multiplied by one or more.
-/

namespace TradingDesk.Decimal

variable {a b r : Decimal}

/-! ### Rounding -/

/-- What is rounded is at most half a unit off. -/
theorem roundHalfEven_bounds {den : Nat} (hden : 0 < den) (num : Nat) :
    2 * num ≤ (2 * roundHalfEven num den + 1) * den ∧
      2 * roundHalfEven num den * den ≤ 2 * num + den := by
  have hsplit := Nat.div_add_mod num den
  have hrest := Nat.mod_lt num hden
  unfold roundHalfEven
  dsimp only
  split
  · next hup =>
    simp only [gt_iff_lt, Bool.or_eq_true, decide_eq_true_eq, Bool.and_eq_true, beq_iff_eq] at hup
    have hhalf : den ≤ 2 * (num % den) := by omega
    constructor <;> nlinarith
  · next hdown =>
    simp only [gt_iff_lt, Bool.or_eq_true, decide_eq_true_eq, Bool.and_eq_true, beq_iff_eq,
      not_or] at hdown
    have hhalf : 2 * (num % den) ≤ den := by omega
    have hnonneg := Nat.zero_le (num % den)
    constructor <;> nlinarith

theorem le_roundHalfEven {num den bound : Nat} (hden : 0 < den)
    (h : 2 * bound * den < 2 * num + den) : bound ≤ roundHalfEven num den := by
  by_contra hlt
  have hmost : (2 * roundHalfEven num den + 2) * den ≤ 2 * bound * den :=
    Nat.mul_le_mul_right den (by omega)
  have hbounds := (roundHalfEven_bounds hden num).1
  nlinarith

/-- A number that does not fit with one digit more is rounded to one with that digit a zero, and
that is more than any coefficient. -/
theorem overflow_lt {m digits : Nat} (h : pow2 96 ≤ roundHalfEven m (pow10 digits)) :
    pow2 96 < 10 * roundHalfEven m (pow10 (digits + 1)) := by
  have hbound : pow2 96 / 10 + 1 ≤ roundHalfEven m (pow10 (digits + 1)) := by
    apply le_roundHalfEven (pow10_pos _)
    have hbounds := (roundHalfEven_bounds (pow10_pos digits) m).2
    have hmost : 2 * pow2 96 * pow10 digits ≤ 2 * roundHalfEven m (pow10 digits) * pow10 digits :=
      Nat.mul_le_mul_right _ (by omega)
    have hpos := pow10_pos digits
    have hsucc : pow10 (digits + 1) = pow10 digits * 10 := Nat.pow_succ ..
    have hnum : 20 * (pow2 96 / 10 + 1) + 1 < 2 * pow2 96 + 10 := by decide
    rw [hsucc]
    nlinarith
  have hnum : pow2 96 < 10 * (pow2 96 / 10 + 1) := by decide
  omega

/-- A number that is at least a decimal is rounded to at least that decimal. -/
theorem le_fit? {d : Decimal} {m scale : Nat} (hle : d.value ≤ m / 10 ^ scale)
    (h : fit? m scale = some r) : d.value ≤ r.value := by
  obtain ⟨digits, hdigits, hcoefficient, hr, hfewer⟩ := fit?_eq_some h
  rw [roundAway_natCast] at hcoefficient
  have hrounded : r.value = roundHalfEven m (pow10 digits) / 10 ^ (scale - digits) := by
    rw [value, hcoefficient, hr]
    rfl
  rw [hrounded]
  rcases le_or_gt d.value 0 with hneg | hpos
  · exact hneg.trans (by positivity)
  obtain ⟨c, hc⟩ := Int.eq_ofNat_of_zero_le (coefficient_nonneg hpos.le)
  rcases Nat.lt_or_ge (scale - digits) d.scale with hcoarse | hfine
  · -- the decimal has more digits than were left
    have hd : d.value = c / 10 ^ d.scale := by rw [value, hc, Int.cast_natCast]
    cases digits with
    | zero =>
        have hsame : roundHalfEven m (pow10 0) = m := by
          simpa [pow10] using roundHalfEven_mul one_pos m
        rw [hsame]
        exact hle
    | succ digits =>
        have hnone := hfewer digits (by omega)
        rw [roundAway_natCast] at hnone
        have hbig : pow2 96 ≤ roundHalfEven m (pow10 digits) := by
          by_contra hfits
          have hscale := d.scale_le
          have hfit : ((roundHalfEven m (pow10 digits) : Nat) : Int).natAbs < pow2 96 := by
            rw [Int.natAbs_natCast]
            omega
          have hsome := ofParts?_of_fits hfit (show scale - digits ≤ 28 by omega)
          rw [hnone] at hsome
          contradiction
        have hmore := overflow_lt hbig
        have hless := d.coefficient_lt
        rw [hc, Int.natAbs_natCast] at hless
        have hcast : (c : ℚ) ≤ 10 * roundHalfEven m (pow10 (digits + 1)) := by
          exact_mod_cast (hless.trans hmore).le
        rw [hd, div_le_div_iff₀ (by positivity) (by positivity)]
        have hpow : (10 : ℚ) ^ (scale - (digits + 1)) * 10 ≤ 10 ^ d.scale := by
          rw [← pow_succ]
          exact pow_le_pow_right₀ (by norm_num) (by omega)
        calc (c : ℚ) * 10 ^ (scale - (digits + 1))
            ≤ 10 * roundHalfEven m (pow10 (digits + 1)) * 10 ^ (scale - (digits + 1)) := by gcongr
          _ = roundHalfEven m (pow10 (digits + 1)) * (10 ^ (scale - (digits + 1)) * 10) := by ring
          _ ≤ roundHalfEven m (pow10 (digits + 1)) * 10 ^ d.scale := by gcongr
  · have hscaled := scaled hfine
    rw [hc] at hscaled
    have hsplit : (10 : ℚ) ^ scale = 10 ^ (scale - digits) * 10 ^ digits := by
      rw [← pow_add]
      congr 1
      omega
    rw [le_div_iff₀ (by positivity), hsplit, ← mul_assoc, ← hscaled, ← cast_pow10] at hle
    have hmost : c * pow10 (scale - digits - d.scale) * pow10 digits ≤ m := by exact_mod_cast hle
    rw [le_div_iff₀ (by positivity), ← hscaled]
    have hround : c * pow10 (scale - digits - d.scale) ≤ roundHalfEven m (pow10 digits) := by
      apply le_roundHalfEven (pow10_pos digits)
      have hpos := pow10_pos digits
      nlinarith
    exact_mod_cast hround

/-! ### Bounds of sums and products -/

theorem fit?_nonpos {coefficient : Int} {scale : Nat} (hle : coefficient ≤ 0)
    (h : fit? coefficient scale = some r) : r.value ≤ 0 := by
  obtain ⟨digits, -, hcoefficient, -, -⟩ := fit?_eq_some h
  have hneg : r.coefficient ≤ 0 := by
    rw [hcoefficient, roundAway]
    exact mul_nonpos_of_nonpos_of_nonneg (Int.sign_nonpos_iff.mpr hle) (Int.natCast_nonneg _)
  exact div_nonpos_of_nonpos_of_nonneg (by exact_mod_cast hneg) (by positivity)

theorem le_add? (ha : 0 ≤ a.value) (hb : 0 ≤ b.value) (h : a.add? b = some r) :
    a.value ≤ r.value := by
  unfold add? at h
  split at h
  · cases h
    exact le_rfl
  · split at h
    · next hzero =>
      cases h
      rw [isZero_iff.mp hzero]
      exact hb
    · have hsum : 0 ≤ a.coefficient * pow10 (max a.scale b.scale - a.scale) +
          b.coefficient * pow10 (max a.scale b.scale - b.scale) := by
        have ha' := coefficient_nonneg ha
        have hb' := coefficient_nonneg hb
        positivity
      obtain ⟨m, hm⟩ := Int.eq_ofNat_of_zero_le hsum
      dsimp only at h
      rw [hm] at h
      refine le_fit? ?_ h
      have hcast : (m : ℚ) = (a.value + b.value) * 10 ^ max a.scale b.scale := by
        rw [← Int.cast_natCast, ← hm, Int.cast_add, scaled (le_max_left _ _),
          scaled (le_max_right _ _), add_mul]
      rw [hcast, mul_div_cancel_right₀ _ (by positivity)]
      linarith

/-- How a product that is not zero is computed. -/
theorem mul?_eq_some (h : a.mul? b = some r) :
    r = zero ∧ (a.value * b.value = 0 ∨
        47 < a.scale + b.scale ∧ a.coefficient.natAbs < pow2 32 ∧ b.coefficient.natAbs < pow2 32) ∨
      fit? (a.coefficient * b.coefficient) (a.scale + b.scale) = some r := by
  unfold mul? at h
  split at h
  · next hzero =>
    cases h
    rw [Bool.or_eq_true, isZero_iff, isZero_iff] at hzero
    exact .inl ⟨rfl, .inl (mul_eq_zero.mpr hzero)⟩
  · split at h
    · next hsmall =>
      cases h
      simp only [Bool.and_eq_true, decide_eq_true_eq] at hsmall
      exact .inl ⟨rfl, .inr ⟨hsmall.1.1, hsmall.1.2, hsmall.2⟩⟩
    · exact .inr h

theorem mul?_nonneg (hnonneg : 0 ≤ a.value * b.value) (h : a.mul? b = some r) : 0 ≤ r.value := by
  rcases mul?_eq_some h with ⟨rfl, -⟩ | hfit
  · exact value_zero.ge
  · have hcoefficient : (0 : ℚ) ≤ (a.coefficient * b.coefficient : Int) := by
      rw [← mul_value, le_div_iff₀ (by positivity), zero_mul] at hnonneg
      exact hnonneg
    obtain ⟨m, hm⟩ := Int.eq_ofNat_of_zero_le (by exact_mod_cast hcoefficient)
    rw [hm] at hfit
    rw [← value_zero]
    exact le_fit? (by rw [value_zero]; positivity) hfit

theorem le_mul? (ha : 0 < a.value) (hb : 1 ≤ b.value) (h : a.mul? b = some r) :
    a.value ≤ r.value := by
  have hb' : 0 < b.value := zero_lt_one.trans_le hb
  rcases mul?_eq_some h with ⟨-, hzero | ⟨hscale, -, hsmall⟩⟩ | hfit
  · exact absurd hzero (mul_pos ha hb').ne'
  · -- a factor of at least one with so few digits has few of them behind the point
    have hcoefficient : pow10 b.scale ≤ b.coefficient.natAbs := by
      rw [value, le_div_iff₀ (by positivity), one_mul, ← cast_pow10] at hb
      have hle : (pow10 b.scale : Int) ≤ b.coefficient := by exact_mod_cast hb
      omega
    have hmany : pow10 19 ≤ pow10 b.scale := by
      apply Nat.pow_le_pow_right (by omega)
      have hscale' := a.scale_le
      omega
    have hnum : pow2 32 < pow10 19 := by decide
    omega
  · obtain ⟨m, hm⟩ := Int.eq_ofNat_of_zero_le
      (mul_nonneg (coefficient_nonneg ha.le) (coefficient_nonneg hb'.le))
    have hvalue := mul_value a b
    rw [hm, Int.cast_natCast] at hvalue
    rw [hm] at hfit
    refine le_fit? ?_ hfit
    rw [hvalue]
    exact le_mul_of_one_le_right ha.le hb

theorem mul?_le (ha : 0 < a.value) (hb : b.value ≤ 1) (h : a.mul? b = some r) :
    r.value ≤ a.value := by
  rcases mul?_eq_some h with ⟨rfl, -⟩ | hfit
  · rw [value_zero]
    exact ha.le
  have hcoefficient := coefficient_nonneg ha.le
  rcases le_or_gt b.coefficient 0 with hneg | hpos
  · exact (fit?_nonpos (mul_nonpos_of_nonneg_of_nonpos hcoefficient hneg) hfit).trans ha.le
  · obtain ⟨m, hm⟩ := Int.eq_ofNat_of_zero_le hcoefficient
    obtain ⟨n, hn⟩ := Int.eq_ofNat_of_zero_le hpos.le
    have hfits := a.coefficient_lt
    rw [hm, Int.natAbs_natCast] at hfits
    have hmost : n ≤ pow10 b.scale := by
      rw [value, div_le_one (by positivity), hn, Int.cast_natCast, ← cast_pow10] at hb
      exact_mod_cast hb
    rw [hm, hn, ← Int.natCast_mul] at hfit
    have hback : a.scale + b.scale - b.scale = a.scale := by omega
    have hbounds := fit?_le b.scale (Nat.mul_le_mul_left m hmost) hfits (by omega)
      (by rw [hback]; exact a.scale_le) hfit
    rw [hback] at hbounds
    rw [value.eq_1 a, hm, Int.cast_natCast]
    exact hbounds.2

theorem one_value : one.value = 1 := by simp [value, one]

/-- What is taken from one leaves at most one, to the last digit. -/
theorem one_sub?_le (hb : 0 ≤ b.value) (h : one.sub? b = some r) : r.value ≤ 1 := by
  obtain ⟨n, hn⟩ := Int.eq_ofNat_of_zero_le (coefficient_nonneg hb)
  have hless := b.coefficient_lt
  rw [hn, Int.natAbs_natCast] at hless
  have hpow : pow10 b.scale < pow2 96 := by
    have hmost : pow10 b.scale ≤ pow10 28 := Nat.pow_le_pow_right (by omega) b.scale_le
    have hnum : pow10 28 < pow2 96 := by decide
    omega
  have hrepresented : Represented (one.value - b.value) := by
    refine ⟨{ coefficient := pow10 b.scale - n, scale := b.scale, coefficient_lt := by omega,
              scale_le := b.scale_le }, ?_⟩
    rw [value, one_value, value, hn, eq_sub_iff_add_eq, ← add_div]
    push_cast [cast_pow10]
    rw [sub_add_cancel, div_self (by positivity)]
  obtain ⟨r', hsub, hvalue⟩ := sub?_exact hrepresented
  rw [h, Option.some.injEq] at hsub
  rw [hsub, hvalue, one_value]
  linarith

end TradingDesk.Decimal

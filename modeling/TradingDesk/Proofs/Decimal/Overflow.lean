import TradingDesk.Proofs.Decimal.Bounds
import TradingDesk.Proofs.Decimal.Quotient
/-!
# Results that fit

Sums, differences, products and quotients of amounts are rounded, and a result whose integer part is
too large is no amount at all. All four operations draw the same line, and it can be told from the
exact result alone: half a unit below the first coefficient that has no room, where rounding would
reach it. Dividing by zero apart, nothing else can go wrong.
-/

namespace TradingDesk.Decimal

variable {a b : Decimal}

/-- The integer that is nearest to the number is a decimal, a tie going to the even one. -/
def Fits (q : ℚ) : Prop := |q| < (pow2 96 : ℚ) - 1 / 2

/-! ### Rounding -/

/-- A tie below an even bound goes to the bound. -/
theorem roundHalfEven_lt_iff {num den bound : Nat} (hden : 0 < den) (heven : bound % 2 = 0) :
    roundHalfEven num den < bound ↔ 2 * num + den < 2 * bound * den := by
  have hsplit := Nat.div_add_mod num den
  have hrest := Nat.mod_lt num hden
  generalize hq : num / den = q at hsplit
  generalize hr : num % den = r at hsplit hrest
  rcases Nat.lt_trichotomy (q + 1) bound with hlt | heq | hgt
  · refine iff_of_true ?_ ?_
    · simp only [roundHalfEven, hq, hr]
      split <;> omega
    · have hmost : den * (q + 2) ≤ den * bound := Nat.mul_le_mul_left den (by omega)
      nlinarith
  · have hodd : q % 2 = 1 := by omega
    subst heq
    have hsum : 2 * (q + 1) * den = 2 * (den * q) + 2 * den := by ring
    rw [hsum]
    simp only [roundHalfEven, hq, hr, hodd]
    by_cases hup : den ≤ 2 * r
    · rw [if_pos (by simp; omega)]
      omega
    · rw [if_neg (by simp; omega)]
      omega
  · refine iff_of_false ?_ ?_
    · simp only [roundHalfEven, hq, hr]
      split <;> omega
    · have hleast : den * bound ≤ den * q := Nat.mul_le_mul_left den (by omega)
      nlinarith

theorem natAbs_roundAway (c : Int) (digits : Nat) :
    (roundAway c digits).natAbs = roundHalfEven c.natAbs (pow10 digits) := by
  rcases eq_or_ne c 0 with rfl | hne
  · rw [show (0 : Int) = ((0 : Nat) : Int) from rfl, roundAway_natCast]
    rfl
  · rw [roundAway, Int.natAbs_mul, Int.natAbs_sign_of_ne_zero hne, one_mul, Int.natAbs_natCast]

theorem abs_div_pow (c : Int) (scale : Nat) : |(c : ℚ) / 10 ^ scale| = c.natAbs / 10 ^ scale := by
  rw [abs_div, abs_of_pos (by positivity : (0 : ℚ) < 10 ^ scale), Nat.cast_natAbs, Int.cast_abs]

theorem fits_div_iff {c : Int} {scale : Nat} :
    Fits (c / 10 ^ scale) ↔
      2 * c.natAbs + pow10 scale < 2 * pow2 96 * pow10 scale := by
  have hpos : (0 : ℚ) < 10 ^ scale := by positivity
  rw [Fits, abs_div_pow, div_lt_iff₀ hpos, ← cast_pow10]
  constructor
  · intro h
    have hcast : (2 * c.natAbs + pow10 scale : ℚ) < 2 * pow2 96 * pow10 scale := by linarith
    exact_mod_cast hcast
  · intro h
    have hcast : (2 * c.natAbs + pow10 scale : ℚ) < 2 * pow2 96 * pow10 scale := by exact_mod_cast h
    linarith

theorem fits_value (a : Decimal) : Fits a.value := by
  rw [value, fits_div_iff]
  have hpos := pow10_pos a.scale
  have hlt := a.coefficient_lt
  nlinarith

theorem fits_zero : Fits 0 := by
  rw [← value_zero]
  exact fits_value zero

theorem fit?_isSome_iff {c : Int} {scale : Nat} :
    (fit? c scale).isSome = true ↔ Fits (c / 10 ^ scale) := by
  rw [fits_div_iff]
  constructor
  · intro h
    obtain ⟨r, hr⟩ := Option.isSome_iff_exists.mp h
    obtain ⟨digits, hdigits, hcoefficient, -, -⟩ := fit?_eq_some hr
    have hlt := r.coefficient_lt
    rw [hcoefficient, natAbs_roundAway, roundHalfEven_lt_iff (pow10_pos digits) (by decide)] at hlt
    have hsplit : pow10 scale = pow10 digits * pow10 (scale - digits) := by
      change 10 ^ scale = 10 ^ digits * 10 ^ (scale - digits)
      rw [← Nat.pow_add, Nat.add_sub_cancel' hdigits]
    have hdigitsPos := pow10_pos digits
    obtain ⟨more, hmore⟩ := Nat.exists_eq_add_of_lt (pow10_pos (scale - digits))
    rw [hsplit, hmore]
    have hbound : 1 ≤ pow2 96 := by decide
    nlinarith [Nat.zero_le (pow10 digits * more), Nat.mul_le_mul_right (pow10 digits * more) hbound]
  · intro h
    rw [fit?, List.findSome?_isSome_iff]
    refine ⟨scale, by simp, ?_⟩
    rw [Nat.sub_self]
    apply ofParts?_of_fits _ (Nat.zero_le _)
    rwa [natAbs_roundAway, roundHalfEven_lt_iff (pow10_pos scale) (by decide)]

/-! ### Sums, differences, products -/

theorem add?_isSome_iff : (a.add? b).isSome = true ↔ Fits (a.value + b.value) := by
  unfold add?
  split
  · next hb =>
    rw [isZero_iff.mp hb, add_zero]
    exact iff_of_true rfl a.fits_value
  · split
    · next ha =>
      rw [isZero_iff.mp ha, zero_add]
      exact iff_of_true rfl b.fits_value
    · dsimp only
      rw [fit?_isSome_iff, Int.cast_add, scaled (le_max_left _ _), scaled (le_max_right _ _),
        ← add_mul, mul_div_cancel_right₀ _ (by positivity)]

theorem sub?_isSome_iff : (a.sub? b).isSome = true ↔ Fits (a.value - b.value) := by
  rw [sub?, add?_isSome_iff, neg_value, sub_eq_add_neg]

theorem mul?_isSome_iff : (a.mul? b).isSome = true ↔ Fits (a.value * b.value) := by
  unfold mul?
  split
  · next hzero =>
    rw [Bool.or_eq_true, isZero_iff, isZero_iff, ← mul_eq_zero] at hzero
    rw [hzero]
    exact iff_of_true rfl fits_zero
  · split
    · next hsmall =>
      simp only [Bool.and_eq_true, decide_eq_true_eq] at hsmall
      obtain ⟨⟨-, ha⟩, hb⟩ := hsmall
      refine iff_of_true rfl ?_
      rw [← mul_value, fits_div_iff, Int.natAbs_mul]
      have hpos := pow10_pos (a.scale + b.scale)
      have hmost : a.coefficient.natAbs * b.coefficient.natAbs < pow2 32 * pow2 32 :=
        Nat.mul_lt_mul'' ha hb
      have hnum : 2 * (pow2 32 * pow2 32) + 1 < 2 * pow2 96 := by decide
      nlinarith
    · rw [fit?_isSome_iff, mul_value]

/-! ### Quotients -/

/-- So far these digits of a quotient have come, and the remainder is still to divide. -/
structure Leads (q : ℚ) (divisor remainder : Nat) (m : Magnitude) : Prop where
  rest : remainder < divisor
  digits : m.digits < pow2 96
  scale : m.scale ≤ 28
  value : (m.digits : ℚ) + remainder / divisor = q * 10 ^ m.scale

/-- A magnitude that is a decimal's. -/
structure Magnitude.Placed (m : Magnitude) : Prop where
  digits : m.digits < pow2 96
  nonneg : 0 ≤ m.scale
  scale : m.scale ≤ 28

/-- How a quotient has come out. -/
inductive Developed (q : ℚ) : Option Magnitude → Prop
  | tooLarge (hlarge : ¬ Fits q) : Developed q none
  | placed {m : Magnitude} (hfits : Fits q) (hplaced : m.Placed) : Developed q (some m)

section develop

variable {q : ℚ} {divisor remainder : Nat} {m : Magnitude}

/-- Digits behind the point only make a number smaller. -/
theorem fits_of_lt {t : ℤ} (hq : 0 ≤ q) (ht : 0 ≤ t) (hlt : q * 10 ^ t < pow2 96 - 1 / 2) :
    Fits q := by
  have hpow : (1 : ℚ) ≤ 10 ^ t := one_le_zpow₀ (by norm_num) ht
  rw [Fits, abs_of_nonneg hq]
  exact (le_mul_of_one_le_right hq hpow).trans_lt hlt

theorem not_fits_of_le {t : ℤ} (hq : 0 ≤ q) (ht : t ≤ 0)
    (hle : (pow2 96 : ℚ) - 1 / 2 ≤ q * 10 ^ t) : ¬ Fits q := by
  have hpow : (10 : ℚ) ^ t ≤ 1 := zpow_le_one_of_nonpos₀ (by norm_num) ht
  rw [Fits, abs_of_nonneg hq, not_lt]
  exact hle.trans (mul_le_of_le_one_right hq hpow)

/-- Less than one unit is still to come. -/
theorem rest_bounds {digits : Nat} {x : ℚ} (hrest : remainder < divisor)
    (hvalue : (digits : ℚ) + remainder / divisor = x) : (digits : ℚ) ≤ x ∧ x < digits + 1 := by
  have hcast : (remainder : ℚ) < divisor := by exact_mod_cast hrest
  have hdivisor : (0 : ℚ) < divisor := (Nat.cast_nonneg remainder).trans_lt hcast
  have hfraction : (remainder : ℚ) / divisor < 1 := (div_lt_one hdivisor).mpr hcast
  have hnonneg : (0 : ℚ) ≤ remainder / divisor := by positivity
  rw [← hvalue]
  constructor <;> linarith

namespace Leads

theorem nonneg (h : Leads q divisor remainder m) : 0 ≤ q := by
  have hpow : (0 : ℚ) < 10 ^ m.scale := by positivity
  have hvalue : 0 ≤ q * 10 ^ m.scale := by
    rw [← h.value]
    positivity
  exact nonneg_of_mul_nonneg_left hvalue hpow

theorem next (h : Leads q divisor remainder m) (k : Nat) :
    ((m.digits * pow10 k + remainder * pow10 k / divisor : Nat) : ℚ) +
        (remainder * pow10 k % divisor : Nat) / divisor = q * 10 ^ (m.scale + k) := by
  rw [next_digits (Nat.zero_lt_of_lt h.rest), h.value, mul_assoc, zpow_add₀ (by norm_num),
    zpow_natCast]

/-- The digits that there is no room for belong to an integer that is too large. -/
theorem not_fits (h : Leads q divisor remainder m) {k : Nat} (hscale : m.scale + k ≤ 0)
    (hfull : pow2 96 ≤ m.digits * pow10 k) : ¬ Fits q := by
  apply not_fits_of_le h.nonneg hscale
  have hcast : (pow2 96 : ℚ) ≤ m.digits * 10 ^ k := by
    rw [← cast_pow10]
    exact_mod_cast hfull
  have hmore : (m.digits : ℚ) * 10 ^ k ≤ q * 10 ^ m.scale * 10 ^ k := by
    gcongr
    exact (rest_bounds h.rest h.value).1
  rw [zpow_add₀ (by norm_num), zpow_natCast, ← mul_assoc]
  linarith

/-- The last digit is rounded up out of range exactly from half a unit below the bound on. -/
theorem rounded_lt_iff (h : Leads q divisor remainder m) :
    roundHalfEven (m.digits * divisor + remainder) divisor < pow2 96 ↔
      q * 10 ^ m.scale < pow2 96 - 1 / 2 := by
  have hdivisor := Nat.zero_lt_of_lt h.rest
  have hcast : (0 : ℚ) < divisor := by exact_mod_cast hdivisor
  have hvalue : (m.digits : ℚ) + remainder / divisor =
      (m.digits * divisor + remainder : Nat) / divisor := by
    push_cast
    field_simp
  rw [roundHalfEven_lt_iff hdivisor (by decide), ← h.value, hvalue, div_lt_iff₀ hcast]
  generalize m.digits * divisor + remainder = num
  constructor
  · intro hlt
    have hlt' : (2 * num + divisor : ℚ) < 2 * pow2 96 * divisor := by exact_mod_cast hlt
    linarith
  · intro hlt
    have hlt' : (2 * num + divisor : ℚ) < 2 * pow2 96 * divisor := by linarith
    exact_mod_cast hlt'

theorem rounded (h : Leads q divisor remainder m) :
    roundHalfEven (m.digits * divisor + remainder) divisor =
      if 2 * remainder > divisor || (2 * remainder == divisor && m.digits % 2 == 1) then
        m.digits + 1
      else m.digits := by
  have hdivisor := Nat.zero_lt_of_lt h.rest
  have hquotient : (m.digits * divisor + remainder) / divisor = m.digits := by
    rw [Nat.mul_comm, Nat.mul_add_div hdivisor, Nat.div_eq_of_lt h.rest, Nat.add_zero]
  have hremainder : (m.digits * divisor + remainder) % divisor = remainder := by
    rw [Nat.mul_comm, Nat.mul_add_mod, Nat.mod_eq_of_lt h.rest]
  rw [roundHalfEven, hquotient, hremainder]

end Leads

/-- A magnitude that is rounded by one digit has all its digits behind the point. -/
theorem shorten?_developed {sticky : Bool} (hq : 0 ≤ q) (hdigits : m.digits < 2 * pow2 96)
    (hscale : m.scale ≤ 28) (hlower : (pow2 96 : ℚ) - 1 / 2 ≤ q * 10 ^ m.scale)
    (hupper : q * 10 ^ m.scale < 2 * pow2 96) : Developed q (m.shorten? sticky) := by
  unfold Magnitude.shorten?
  split
  · next hnone => exact .tooLarge (not_fits_of_le hq hnone hlower)
  · next hsome =>
    refine .placed (fits_of_lt (t := m.scale - 1) hq (by omega) ?_) ⟨?_, ?_, ?_⟩
    · have htenth : q * 10 ^ (m.scale - 1) = q * 10 ^ m.scale / 10 := by
        rw [zpow_sub_one₀ (by norm_num)]
        ring
      have hnum : (2 : ℚ) * pow2 96 / 10 < pow2 96 - 1 / 2 := by norm_num [pow2]
      rw [htenth]
      linarith
    · have hnum : 2 * pow2 96 / 10 + 1 < pow2 96 := by decide
      dsimp only
      split <;> omega
    · dsimp only
      omega
    · dsimp only
      omega

/-- When no more digits are added, the point is reached. -/
theorem scale_nonneg_of_room
    (hfew : ¬ (decide (m.room < 9) && decide (m.scale + m.room < 0)) = true)
    (hroom : ¬ (0 < m.room ∧ m.scale + m.room ≤ 28)) : 0 ≤ m.scale := by
  simp only [Bool.and_eq_true, decide_eq_true_eq] at hfew
  have hlast : m.room = 0 := by
    by_contra hpos
    exact hroom ⟨by omega, (m.room_spec.2.1 (by omega)).1⟩
  omega

theorem develop_developed (h : Leads q divisor remainder m) :
    Developed q (develop divisor remainder m) := by
  fun_induction develop divisor remainder m
  case case1 m hscale =>
      have hvalue := h.value
      rw [Nat.cast_zero, zero_div, add_zero] at hvalue
      have hmost : (m.digits : ℚ) + 1 ≤ pow2 96 := by exact_mod_cast h.digits
      exact .placed (fits_of_lt h.nonneg hscale (by linarith)) ⟨h.digits, hscale, h.scale⟩
  case case2 m hneg k hfits ih =>
      refine ih ⟨h.rest, hfits, by dsimp only; omega, ?_⟩
      simpa using h.next k
  case case3 m hneg k hfull =>
      exact .tooLarge (h.not_fits (k := k) (by omega) (not_lt.mp hfull))
  case case4 remainder m hrest k hfew =>
      simp only [Bool.and_eq_true, decide_eq_true_eq] at hfew
      have hfull := m.room_spec.2.2 (k + 1) (Nat.lt_succ_self _) (by omega) (by omega)
      exact .tooLarge (h.not_fits (k := k + 1) (by omega) hfull)
  case case5 remainder m hrest k hfew hroom rest next hfits ih =>
      exact ih ⟨Nat.mod_lt _ (Nat.zero_lt_of_lt h.rest), hfits, hroom.2, h.next k⟩
  case case6 remainder m hrest k hfew hroom rest next hfull =>
      have hdivisor := Nat.zero_lt_of_lt h.rest
      obtain ⟨hlower, hupper⟩ := rest_bounds (Nat.mod_lt rest hdivisor) (h.next k)
      have hmost : rest / divisor < pow10 k :=
        Nat.div_lt_of_lt_mul (Nat.mul_lt_mul_of_pos_right h.rest (pow10_pos k))
      have hnine : pow10 k ≤ pow10 9 := Nat.pow_le_pow_right (by omega) m.room_spec.1
      have hnum : pow10 9 < pow2 96 := by decide
      have hfits := (m.room_spec.2.1 hroom.1).2
      have hdigits : next.digits < 2 * pow2 96 := by
        change m.digits * pow10 k + rest / divisor < 2 * pow2 96
        change m.digits * pow10 k < pow2 96 at hfits
        omega
      have hfull' : (pow2 96 : ℚ) ≤ next.digits := by exact_mod_cast not_lt.mp hfull
      have hdigits' : (next.digits : ℚ) + 1 ≤ 2 * pow2 96 := by exact_mod_cast hdigits
      exact shorten?_developed h.nonneg hdigits hroom.2 (by linarith) (by linarith)
  case case7 remainder m hrest k hfew hroom up rounded hfits =>
      have hrounded : rounded.digits = roundHalfEven (m.digits * divisor + remainder) divisor :=
        h.rounded.symm
      have hscale : 0 ≤ m.scale := scale_nonneg_of_room hfew hroom
      have hsmall := hfits
      rw [hrounded, h.rounded_lt_iff] at hsmall
      exact .placed (fits_of_lt h.nonneg hscale hsmall) ⟨hfits, hscale, h.scale⟩
  case case8 remainder m hrest k hfew hroom up rounded hfull =>
      have hrounded : rounded.digits = roundHalfEven (m.digits * divisor + remainder) divisor :=
        h.rounded.symm
      have hlarge := hfull
      rw [hrounded, h.rounded_lt_iff, not_lt] at hlarge
      have hless := h.digits
      have hmost : (m.digits : ℚ) + 1 ≤ 2 * pow2 96 := by
        exact_mod_cast (by omega : m.digits + 1 ≤ 2 * pow2 96)
      have hdigits : rounded.digits < 2 * pow2 96 := by
        have hnum : 1 < pow2 96 := by decide
        dsimp only [rounded]
        split <;> omega
      exact shorten?_developed h.nonneg hdigits h.scale hlarge
        ((rest_bounds h.rest h.value).2.trans_le hmost)

end develop

namespace Magnitude.Placed

variable {m : Magnitude}

theorem stripOnce (h : m.Placed) (n unit : Nat) : (m.stripOnce n unit).Placed := by
  unfold Magnitude.stripOnce
  split
  · next hzeros =>
    simp only [ge_iff_le, Bool.and_eq_true, decide_eq_true_eq] at hzeros
    have hscale := h.scale
    exact ⟨(Nat.div_le_self _ _).trans_lt h.digits, by dsimp only; omega, by dsimp only; omega⟩
  · exact h

theorem strip (h : m.Placed) : m.strip.Placed :=
  ((((((h.stripOnce 8 _).stripOnce 8 _).stripOnce 8 _).stripOnce 4 16).stripOnce 2 4).stripOnce 1 2)

theorem ofParts? (h : m.Placed) {sign : Int} (hsign : sign.natAbs ≤ 1) :
    (if m.scale < 0 then none
      else Decimal.ofParts? (sign * m.digits) m.scale.toNat).isSome = true := by
  have hscale := h.scale
  rw [if_neg (not_lt.mpr h.nonneg)]
  apply ofParts?_of_fits _ (by omega)
  rw [Int.natAbs_mul, Int.natAbs_natCast]
  calc sign.natAbs * m.digits ≤ 1 * m.digits := Nat.mul_le_mul_right _ hsign
    _ = m.digits := Nat.one_mul _
    _ < pow2 96 := h.digits

end Magnitude.Placed

theorem leads_start (hb : 0 < b.coefficient.natAbs) :
    Leads |a.value / b.value| b.coefficient.natAbs (a.coefficient.natAbs % b.coefficient.natAbs)
      { digits := a.coefficient.natAbs / b.coefficient.natAbs,
        scale := (a.scale : Int) - b.scale } := by
  refine ⟨Nat.mod_lt _ hb, (Nat.div_le_self _ _).trans_lt a.coefficient_lt, ?_, ?_⟩
  · have hscale := a.scale_le
    dsimp only
    omega
  · rw [div_add_mod_div hb, abs_div, value, value, abs_div_pow, abs_div_pow,
      zpow_sub₀ (by norm_num), zpow_natCast, zpow_natCast]
    field_simp

theorem div?_isSome_iff : (a.div? b).isSome = true ↔ b.value ≠ 0 ∧ Fits (a.value / b.value) := by
  by_cases hb : b.isZero = true
  · rw [div?, if_pos hb]
    exact iff_of_false Bool.false_ne_true fun h => h.1 (isZero_iff.mp hb)
  have hb' : b.value ≠ 0 := fun h => hb (isZero_iff.mpr h)
  rw [and_iff_right hb', div?, if_neg hb]
  by_cases ha : a.isZero = true
  · rw [if_pos ha, isZero_iff.mp ha, zero_div]
    exact iff_of_true rfl fits_zero
  rw [if_neg ha]
  have hdivisor : 0 < b.coefficient.natAbs :=
    Int.natAbs_pos.mpr fun hzero => hb' (by simp [value, hzero])
  have hsign : (a.coefficient.sign * b.coefficient.sign).natAbs ≤ 1 := by
    rw [← Int.sign_mul]
    rcases Int.sign_trichotomy (a.coefficient * b.coefficient) with h | h | h <;> rw [h] <;> decide
  have hdeveloped := develop_developed (leads_start (a := a) hdivisor)
  have hsame : Fits (a.value / b.value) ↔ Fits |a.value / b.value| := by rw [Fits, Fits, abs_abs]
  rw [hsame]
  dsimp only
  generalize develop b.coefficient.natAbs _ _ = developed at hdeveloped ⊢
  cases hdeveloped with
  | tooLarge hlarge => exact iff_of_false Bool.false_ne_true hlarge
  | @placed m hfits hplaced =>
      have hend : ∀ exact : Bool, (if exact = true then m else m.strip).Placed := by
        rintro (_ | _)
        · exact hplaced.strip
        · exact hplaced
      exact iff_of_true ((hend _).ofParts? hsign) hfits

end TradingDesk.Decimal

import TradingDesk.Proofs.Decimal.Order
/-!
# Quotients that come out

A quotient is developed digit by digit. When it is a decimal, there is room for all its digits, and
none of them is rounded away.
-/

namespace TradingDesk.Decimal

variable {c s divisor remainder : Nat} {m : Magnitude}

/-- The magnitude is `c / 10 ^ s`. -/
structure Magnitude.Stands (c s : Nat) (m : Magnitude) : Prop where
  digits : m.digits < pow2 96
  nonneg : 0 ≤ m.scale
  scale : m.scale ≤ 28
  value : (m.digits : ℚ) = c / 10 ^ s * 10 ^ m.scale

/-- So far the digits of `c / 10 ^ s` have come, and the remainder is still to divide. -/
structure Develops (c s divisor remainder : Nat) (m : Magnitude) : Prop where
  rest : remainder < divisor
  digits : m.digits < pow2 96
  scale : m.scale ≤ 28
  value : (m.digits : ℚ) + remainder / divisor = c / 10 ^ s * 10 ^ m.scale

/-! ### Places -/

/-- Behind the last digit there are zeros. -/
theorem shift_of_le {t : ℤ} (h : s ≤ t) :
    ∃ n : Nat, (c : ℚ) / 10 ^ s * 10 ^ t = (n : ℚ) ∧ (s < t → n % 10 = 0) := by
  obtain ⟨k, hk⟩ := Int.eq_ofNat_of_zero_le (sub_nonneg.mpr h)
  obtain rfl : t = s + k := by omega
  refine ⟨c * 10 ^ k, ?_, fun hlt => ?_⟩
  · rw [zpow_add₀ (by norm_num), zpow_natCast, zpow_natCast]
    push_cast
    field_simp
  · obtain ⟨j, rfl⟩ := Nat.exists_eq_succ_of_ne_zero (n := k) (by omega)
    rw [Nat.pow_succ, ← Nat.mul_assoc, Nat.mul_mod_left]

theorem shift_le {t : ℤ} (h : t ≤ s) : (c : ℚ) / 10 ^ s * 10 ^ t ≤ c := by
  have hpow : (10 : ℚ) ^ t ≤ 10 ^ s := by
    rw [← zpow_natCast]
    exact zpow_le_zpow_right₀ (by norm_num) h
  calc (c : ℚ) / 10 ^ s * 10 ^ t ≤ c / 10 ^ s * 10 ^ s := by gcongr
    _ = c := div_mul_cancel₀ _ (by positivity)

/-- What is left of a division that comes out is nothing. -/
theorem comesOut {digits n : Nat} (h : (digits : ℚ) + remainder / divisor = n)
    (hrest : remainder < divisor) : remainder = 0 ∧ digits = n := by
  have hdivisor : (divisor : ℚ) ≠ 0 := by exact_mod_cast (by omega : divisor ≠ 0)
  field_simp at h
  have hnat : digits * divisor + remainder = divisor * n := by exact_mod_cast h
  have hzero : remainder = 0 := by
    have hdvd : divisor ∣ remainder := by
      rw [← Nat.dvd_add_right (Nat.dvd_mul_left divisor digits), hnat]
      exact Nat.dvd_mul_right divisor n
    by_contra hpos
    exact absurd (Nat.le_of_dvd (Nat.pos_of_ne_zero hpos) hdvd) (by omega)
  refine ⟨hzero, Nat.eq_of_mul_eq_mul_right (by omega : 0 < divisor) ?_⟩
  rw [← Nat.add_zero (digits * divisor), ← hzero, hnat, Nat.mul_comm]

namespace Magnitude

theorem shorten?_of_dvd (hscale : 0 < m.scale) (hdigits : m.digits % 10 = 0) :
    m.shorten? false = some { digits := m.digits / 10, scale := m.scale - 1 } := by
  unfold shorten?
  simp [hdigits, not_le.mpr hscale]

/-- The next step adds as many digits as there is room for. -/
theorem room_spec (m : Magnitude) :
    m.room ≤ 9 ∧ (0 < m.room → m.scale + m.room ≤ 28 ∧ m.digits * pow10 m.room < pow2 96) ∧
      ∀ k : Nat, m.room < k → k ≤ 9 → m.scale + k ≤ 28 → pow2 96 ≤ m.digits * pow10 k := by
  unfold room
  have hordered : (List.range 10).reverse.Pairwise (· > ·) := by decide
  have hmem : ∀ k, k ∈ (List.range 10).reverse ↔ k ≤ 9 := by simp [Nat.lt_succ_iff]
  cases hfind : (List.range 10).reverse.find? fun (k : Nat) =>
      m.scale + (k : Int) ≤ 28 && m.digits * pow10 k < pow2 96 with
  | none =>
      refine ⟨Nat.zero_le 9, fun hpos => absurd hpos (Nat.lt_irrefl 0), fun k _ hk hscale => ?_⟩
      have hnot := List.find?_eq_none.mp hfind k ((hmem k).mpr hk)
      simpa [hscale] using hnot
  | some room =>
      obtain ⟨hroom, before, behind, hsplit, hbefore⟩ := List.find?_eq_some_iff_append.mp hfind
      simp only [Bool.and_eq_true, decide_eq_true_eq] at hroom
      refine ⟨(hmem room).mp (List.mem_of_find?_eq_some hfind), fun _ => hroom, ?_⟩
      intro k hlt hk hscale
      have hin := (hmem k).mpr hk
      rw [hsplit, List.mem_append, List.mem_cons] at hin
      rw [hsplit, List.pairwise_append, List.pairwise_cons] at hordered
      rw [Option.getD_some] at hlt
      rcases hin with hin | rfl | hin
      · have hnot := hbefore k hin
        simpa [hscale] using hnot
      · exact absurd hlt (Nat.lt_irrefl k)
      · exact absurd (hordered.2.1.1 k hin) (by omega)

end Magnitude

/-- A whole quotient and what its remainder comes to. -/
theorem div_add_mod_div (hdivisor : 0 < divisor) (n : Nat) :
    ((n / divisor : Nat) : ℚ) + (n % divisor : Nat) / divisor = n / divisor := by
  have hne : (divisor : ℚ) ≠ 0 := by exact_mod_cast hdivisor.ne'
  have hsplit : (divisor : ℚ) * (n / divisor : Nat) + (n % divisor : Nat) = n := by
    exact_mod_cast Nat.div_add_mod n divisor
  rw [← hsplit]
  field_simp

/-- The digits and the remainder after `k` digits more. -/
theorem next_digits (hdivisor : 0 < divisor) (digits remainder k : Nat) :
    ((digits * pow10 k + remainder * pow10 k / divisor : Nat) : ℚ) +
        (remainder * pow10 k % divisor : Nat) / divisor =
      (digits + remainder / divisor) * 10 ^ k := by
  rw [Nat.cast_add, add_assoc, div_add_mod_div hdivisor]
  push_cast [cast_pow10]
  ring

namespace Develops

theorem next (h : Develops c s divisor remainder m) (k : Nat) :
    ((m.digits * pow10 k + remainder * pow10 k / divisor : Nat) : ℚ) +
        (remainder * pow10 k % divisor : Nat) / divisor = c / 10 ^ s * 10 ^ (m.scale + k) := by
  rw [next_digits (Nat.zero_lt_of_lt h.rest), h.value, mul_assoc, zpow_add₀ (by norm_num),
    zpow_natCast]

/-- There is room for the digits that are still to come. -/
theorem digits_le (h : Develops c s divisor remainder m) {k : Nat} (hk : m.scale + k ≤ s) :
    m.digits * pow10 k ≤ c := by
  have hmost : ((m.digits * pow10 k : Nat) : ℚ) ≤ c := by
    calc ((m.digits * pow10 k : Nat) : ℚ)
        ≤ ((m.digits * pow10 k + remainder * pow10 k / divisor : Nat) : ℚ) +
            (remainder * pow10 k % divisor : Nat) / divisor := by
          push_cast
          have hmore : (0 : ℚ) ≤ (remainder * pow10 k / divisor : Nat) := by positivity
          have hrest : (0 : ℚ) ≤ (remainder * pow10 k % divisor : Nat) / divisor := by positivity
          linarith
      _ = c / 10 ^ s * 10 ^ (m.scale + k) := h.next k
      _ ≤ c := shift_le hk
  exact_mod_cast hmost

/-- While something remains the last place is not reached. -/
theorem scale_lt (h : Develops c s divisor remainder m) (hrest : remainder ≠ 0) : m.scale < s := by
  by_contra hge
  obtain ⟨n, hn, -⟩ := shift_of_le (c := c) (not_lt.mp hge)
  exact hrest (comesOut (h.value.trans hn) h.rest).1

theorem room_pos (h : Develops c s divisor remainder m) (hc : c < pow2 96) (hs : s ≤ 28)
    (hrest : remainder ≠ 0) :
    0 < m.room ∧ m.scale + m.room ≤ 28 ∧ m.digits * pow10 m.room < pow2 96 := by
  obtain ⟨-, hroom, hmost⟩ := m.room_spec
  have hscale := h.scale_lt hrest
  have hpos : 0 < m.room := by
    by_contra hzero
    have hfull := hmost 1 (by omega) (by omega) (by omega)
    have hfits := h.digits_le (k := 1) (by omega)
    omega
  exact ⟨hpos, hroom hpos⟩

end Develops

theorem develop_exact (hc : c < pow2 96) (hs : s ≤ 28) (h : Develops c s divisor remainder m) :
    ∃ m', develop divisor remainder m = some m' ∧ m'.Stands c s := by
  fun_induction develop divisor remainder m
  case case1 m hscale =>
      have hvalue := h.value
      rw [Nat.cast_zero, zero_div, add_zero] at hvalue
      exact ⟨m, rfl, h.digits, hscale, h.scale, hvalue⟩
  case case2 m hneg k hfits ih =>
      refine ih ⟨h.rest, hfits, by dsimp only; omega, ?_⟩
      simpa using h.next k
  case case3 m hneg k hfull =>
      have hfits := h.digits_le (k := k) (by omega)
      omega
  case case4 remainder m hrest k hfew =>
      simp only [Bool.and_eq_true, decide_eq_true_eq] at hfew
      have hfull := m.room_spec.2.2 (k + 1) (Nat.lt_succ_self _) (by omega) (by omega)
      have hfits := h.digits_le (k := k + 1) (by omega)
      omega
  case case5 remainder m hrest k hfew hroom rest next hfits ih =>
      exact ih ⟨Nat.mod_lt _ (Nat.zero_lt_of_lt h.rest), hfits, hroom.2, h.next k⟩
  case case6 remainder m hrest k hfew hroom rest next hfull =>
      have hdivisor := Nat.zero_lt_of_lt h.rest
      have hnext : (next.digits : ℚ) + (rest % divisor : Nat) / divisor =
          c / 10 ^ s * 10 ^ next.scale := h.next k
      have hplace : (s : ℤ) < next.scale := by
        by_contra hle
        have hmost : (next.digits : ℚ) ≤ c := by
          have hrest : (0 : ℚ) ≤ (rest % divisor : Nat) / divisor := by positivity
          linarith [shift_le (c := c) (not_lt.mp hle)]
        have hnat : next.digits ≤ c := by exact_mod_cast hmost
        omega
      obtain ⟨n, hn, hten⟩ := shift_of_le (c := c) hplace.le
      obtain ⟨hnone, hdigits⟩ := comesOut (hnext.trans hn) (Nat.mod_lt rest hdivisor)
      have hzero : next.digits % 10 = 0 := hdigits ▸ hten hplace
      have hscale : next.scale ≤ 28 := hroom.2
      rw [hnone]
      refine ⟨_, Magnitude.shorten?_of_dvd (by omega) hzero, ?_, by dsimp only; omega,
        by dsimp only; omega, ?_⟩
      · have hmost : rest / divisor < pow10 k :=
          Nat.div_lt_of_lt_mul (Nat.mul_lt_mul_of_pos_right h.rest (pow10_pos k))
        have hnine : pow10 k ≤ pow10 9 := Nat.pow_le_pow_right (by omega) m.room_spec.1
        have hfits := (h.room_pos hc hs hrest).2.2
        have hnum : pow10 9 < pow2 96 := by decide
        change (m.digits * pow10 k + rest / divisor) / 10 < pow2 96
        change m.digits * pow10 k < pow2 96 at hfits
        omega
      · obtain ⟨tenth, htenth⟩ := Nat.dvd_of_mod_eq_zero hzero
        have hvalue := hn.trans (Nat.cast_inj.mpr hdigits.symm)
        dsimp only
        rw [zpow_sub_one₀ (by norm_num), ← mul_assoc, hvalue, htenth,
          Nat.mul_div_cancel_left tenth (by omega)]
        push_cast
        field_simp
  case case7 remainder m hrest k hfew hroom up rounded hfits =>
      exact absurd ⟨(h.room_pos hc hs hrest).1, (h.room_pos hc hs hrest).2.1⟩ hroom
  case case8 remainder m hrest k hfew hroom up rounded hfull =>
      exact absurd ⟨(h.room_pos hc hs hrest).1, (h.room_pos hc hs hrest).2.1⟩ hroom

/-! ### Zeros at the end -/

namespace Magnitude.Stands

theorem stripOnce (h : m.Stands c s) (n unit : Nat) : (m.stripOnce n unit).Stands c s := by
  unfold Magnitude.stripOnce
  split
  · next hzeros =>
    simp only [ge_iff_le, Bool.and_eq_true, decide_eq_true_eq, beq_iff_eq] at hzeros
    obtain ⟨⟨hscale, -⟩, hdvd⟩ := hzeros
    obtain ⟨rest, hrest⟩ := Nat.dvd_of_mod_eq_zero hdvd
    refine ⟨(Nat.div_le_self _ _).trans_lt h.digits, by dsimp only; omega,
      by have hmost := h.scale; dsimp only; omega, ?_⟩
    have hvalue := h.value
    rw [hrest, Nat.cast_mul, cast_pow10] at hvalue
    dsimp only
    rw [hrest, Nat.mul_div_cancel_left rest (pow10_pos n), zpow_sub₀ (by norm_num), zpow_natCast,
      ← mul_div_assoc, ← hvalue]
    field_simp
  · exact h

theorem strip (h : m.Stands c s) : m.strip.Stands c s :=
  ((((((h.stripOnce 8 _).stripOnce 8 _).stripOnce 8 _).stripOnce 4 16).stripOnce 2 4).stripOnce 1 2)

end Magnitude.Stands

/-! ### Quotients -/

section

variable {a b q : Decimal}

theorem coefficient_mul (h : a.value = q.value * b.value) :
    a.coefficient * (10 ^ (q.scale + b.scale) : Nat) =
      q.coefficient * b.coefficient * (10 ^ a.scale : Nat) := by
  have hcross : (a.coefficient : ℚ) * 10 ^ (q.scale + b.scale) =
      q.coefficient * b.coefficient * 10 ^ a.scale := by
    simp only [value] at h
    rw [div_mul_div_comm, ← pow_add] at h
    exact (div_eq_div_iff (by positivity) (by positivity)).mp h
  exact_mod_cast hcross

theorem develops_start (hb : 0 < b.coefficient.natAbs) (h : a.value = q.value * b.value) :
    Develops q.coefficient.natAbs q.scale b.coefficient.natAbs
      (a.coefficient.natAbs % b.coefficient.natAbs)
      { digits := a.coefficient.natAbs / b.coefficient.natAbs,
        scale := (a.scale : Int) - b.scale } := by
  have hb' : (b.coefficient.natAbs : ℚ) ≠ 0 := by exact_mod_cast hb.ne'
  have hcross := congrArg Int.natAbs (coefficient_mul h)
  simp only [Int.natAbs_mul, Int.natAbs_natCast] at hcross
  have hcast : (a.coefficient.natAbs : ℚ) * 10 ^ (q.scale + b.scale) =
      q.coefficient.natAbs * b.coefficient.natAbs * 10 ^ a.scale := by exact_mod_cast hcross
  refine ⟨Nat.mod_lt _ hb, (Nat.div_le_self _ _).trans_lt a.coefficient_lt, ?_, ?_⟩
  · have hscale := a.scale_le
    dsimp only
    omega
  · rw [div_add_mod_div hb, zpow_sub₀ (by norm_num), zpow_natCast, zpow_natCast]
    rw [pow_add] at hcast
    field_simp
    linarith

theorem sign_mul (hb : b.value ≠ 0) (h : a.value = q.value * b.value) :
    a.coefficient.sign * b.coefficient.sign = q.coefficient.sign := by
  have hb' : b.coefficient.sign * b.coefficient.sign = 1 := by
    have hne : b.coefficient ≠ 0 := fun hzero => hb (by simp [value, hzero])
    rcases lt_or_gt_of_ne hne with hneg | hpos
    · rw [Int.sign_eq_neg_one_of_neg hneg]
      rfl
    · rw [Int.sign_eq_one_of_pos hpos]
      rfl
  have hsign := congrArg Int.sign (coefficient_mul h)
  simp only [Int.sign_mul, Int.sign_natCast_of_ne_zero (pow_ne_zero _ (by norm_num : 10 ≠ 0)),
    mul_one] at hsign
  rw [hsign, mul_assoc, hb', mul_one]

/-- A magnitude with the sign of the number that it stands for. -/
theorem Magnitude.Stands.ofParts? (h : m.Stands q.coefficient.natAbs q.scale) :
    ∃ r, (if m.scale < 0 then none
      else Decimal.ofParts? (q.coefficient.sign * m.digits) m.scale.toNat) = some r ∧
        r.value = q.value := by
  obtain ⟨scale, hscale⟩ := Int.eq_ofNat_of_zero_le h.nonneg
  have hsmall : (q.coefficient.sign * m.digits).natAbs < pow2 96 := by
    have hunit : q.coefficient.sign.natAbs ≤ 1 := by
      rcases Int.sign_trichotomy q.coefficient with hsign | hsign | hsign <;> rw [hsign] <;> decide
    rw [Int.natAbs_mul, Int.natAbs_natCast]
    calc q.coefficient.sign.natAbs * m.digits ≤ 1 * m.digits := Nat.mul_le_mul_right _ hunit
      _ = m.digits := Nat.one_mul _
      _ < pow2 96 := h.digits
  have hmost : m.scale.toNat ≤ 28 := by
    have hle := h.scale
    omega
  have hplaces : m.scale.toNat = scale := by rw [hscale, Int.toNat_natCast]
  have hvalue := h.value
  rw [hscale, zpow_natCast, ← mul_div_right_comm, eq_div_iff (by positivity)] at hvalue
  have hsign : (q.coefficient.sign : ℚ) * q.coefficient.natAbs = q.coefficient := by
    rw [← Int.cast_natCast, ← Int.cast_mul, Int.sign_mul_natAbs]
  rw [if_neg (not_lt.mpr h.nonneg), Decimal.ofParts?, dif_pos ⟨hsmall, hmost⟩]
  refine ⟨_, rfl, ?_⟩
  change ((q.coefficient.sign * m.digits : Int) : ℚ) / 10 ^ m.scale.toNat = q.value
  rw [Decimal.value, hplaces, div_eq_div_iff (by positivity) (by positivity), ← hsign,
    Int.cast_mul, Int.cast_natCast]
  linear_combination (q.coefficient.sign : ℚ) * hvalue

/-- A quotient for which there is a decimal is that decimal. -/
theorem div?_exact (hb : b.value ≠ 0) (h : a.value = q.value * b.value) :
    ∃ r, a.div? b = some r ∧ r.value = q.value := by
  have hdivisor : 0 < b.coefficient.natAbs :=
    Int.natAbs_pos.mpr fun hzero => hb (by simp [value, hzero])
  have hsecond : ¬ b.isZero = true := by rwa [isZero_iff]
  rw [div?, if_neg hsecond]
  by_cases ha : a.isZero = true
  · rw [if_pos ha]
    rw [isZero_iff.mp ha, eq_comm, mul_eq_zero, or_iff_left hb] at h
    exact ⟨zero, rfl, by rw [value_zero, h]⟩
  obtain ⟨m, hdevelop, hstands⟩ :=
    develop_exact q.coefficient_lt q.scale_le (develops_start hdivisor h)
  have hstripped : ∀ exact : Bool,
      (if exact = true then m else m.strip).Stands q.coefficient.natAbs q.scale := by
    rintro (_ | _)
    · exact hstands.strip
    · exact hstands
  rw [if_neg ha]
  dsimp only
  rw [hdevelop, Option.bind_eq_bind, Option.bind_some, sign_mul hb h]
  exact (hstripped _).ofParts?

theorem div?_self (h : zero < a) : a.div? a = some one := by
  have hne : a.coefficient ≠ 0 := by
    intro hzero
    have hpos := zero_lt_iff.mp h
    simp [value, hzero] at hpos
  have hdigits : a.coefficient.natAbs / a.coefficient.natAbs = 1 :=
    Nat.div_self (Int.natAbs_pos.mpr hne)
  have hsign : a.coefficient.sign * a.coefficient.sign = 1 := by
    rw [← Int.sign_mul]
    exact Int.sign_eq_one_of_pos (mul_self_pos.mpr hne)
  have hdevelop : develop a.coefficient.natAbs 0 { digits := 1, scale := 0 } =
      some { digits := 1, scale := 0 } := by
    rw [develop]
    rfl
  rw [div?, isZero_of_pos h]
  simp only [Bool.false_eq_true, if_false, hdigits, Nat.mod_self, sub_self, hdevelop, hsign]
  rfl

end

end TradingDesk.Decimal

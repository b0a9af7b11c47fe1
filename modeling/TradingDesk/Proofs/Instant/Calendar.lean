import TradingDesk.Instant
import Mathlib.Tactic
/-!
# The calendar

An era of 400 years splits into centuries, groups of four years, years and days, each but the last
of its kind being of one length. Counted this way the date of a day is a date of the calendar, and
the day of that date is the day again.
-/

namespace TradingDesk.Instant

/-- The place of a day in its era, years being taken to start in March: so many whole centuries,
groups of four years and years lie before it, and so many days of its own year. -/
structure EraDay (dayOfEra century group year day : Int) : Prop where
  eq : dayOfEra = 36524 * century + 1461 * group + 365 * year + day
  century_nonneg : 0 ≤ century
  century_le : century ≤ 3
  group_nonneg : 0 ≤ group
  group_le : group ≤ 24
  year_nonneg : 0 ≤ year
  year_le : year ≤ 3
  day_nonneg : 0 ≤ day
  day_le : day ≤ 365
  /-- Only a leap year has a day with this number. -/
  leap : day = 365 → year = 3 ∧ (group ≤ 23 ∨ century = 3)

theorem exists_eraDay {dayOfEra : Int} (hpos : 0 ≤ dayOfEra) (hle : dayOfEra ≤ 146096) :
    ∃ century group year day, EraDay dayOfEra century group year day := by
  obtain ⟨century, hc0, hc3, hlow, hhigh⟩ : ∃ c : Int, 0 ≤ c ∧ c ≤ 3 ∧ 36524 * c ≤ dayOfEra ∧
      (dayOfEra < 36524 * c + 36524 ∨ c = 3) :=
    ⟨min (dayOfEra / 36524) 3, by omega, by omega, by omega, by omega⟩
  obtain ⟨inCentury, hin⟩ : ∃ r, r = dayOfEra - 36524 * century := ⟨_, rfl⟩
  have hin0 : 0 ≤ inCentury := by omega
  have hinLe : inCentury ≤ 36524 := by omega
  obtain ⟨group, hgroup⟩ : ∃ g, g = inCentury / 1461 := ⟨_, rfl⟩
  obtain ⟨inGroup, hing⟩ : ∃ s, s = inCentury - 1461 * group := ⟨_, rfl⟩
  have hing0 : 0 ≤ inGroup := by omega
  have hingLe : inGroup ≤ 1460 := by omega
  refine ⟨century, group, min (inGroup / 365) 3, inGroup - 365 * min (inGroup / 365) 3, ?_⟩
  constructor <;> omega

theorem centuries_eq {dayOfEra century : Int} (rest : Int)
    (heq : dayOfEra = 36524 * century + rest) (hc0 : 0 ≤ century) (hc3 : century ≤ 3)
    (hrest : 0 ≤ rest)
    (hle : rest ≤ 36523 ∨ (rest = 36524 ∧ century = 3)) :
    dayOfEra / 36524 - dayOfEra / 146096 = century := by
  rcases hle with hle | ⟨rfl, rfl⟩
  · have h1 : dayOfEra / 36524 = century := by omega
    have h2 : dayOfEra / 146096 = 0 := by omega
    omega
  · omega

namespace EraDay

variable {dayOfEra century group year day : Int}

theorem yearOfEra_eq (h : EraDay dayOfEra century group year day) :
    (dayOfEra - dayOfEra / 1460 + dayOfEra / 36524 - dayOfEra / 146096) / 365 =
      100 * century + 4 * group + year := by
  obtain ⟨heq, hc0, hc3, hg0, hg, hy0, hy, hd0, hd, hleap⟩ := h
  have hcenturies : dayOfEra / 36524 - dayOfEra / 146096 = century := by
    apply centuries_eq (1461 * group + 365 * year + day) <;> omega
  have hlow : 0 ≤ 24 * century + group + day + century - dayOfEra / 1460 := by omega
  have hhigh : 24 * century + group + day + century - dayOfEra / 1460 < 365 := by omega
  omega

theorem daysBefore_eq (h : EraDay dayOfEra century group year day) :
    365 * (100 * century + 4 * group + year) + (100 * century + 4 * group + year) / 4 -
      (100 * century + 4 * group + year) / 100 = dayOfEra - day := by
  obtain ⟨heq, hc0, hc3, hg0, hg, hy0, hy, hd0, hd, hleap⟩ := h
  have hquarters : (100 * century + 4 * group + year) / 4 = 25 * century + group := by omega
  have hhundreds : (100 * century + 4 * group + year) / 100 = century := by omega
  omega

/-- The year behind the last day of a leap year, which is then in February, is a leap year. -/
theorem isLeapYear (h : EraDay dayOfEra century group year day) (hday : day = 365) (era : Int) :
    Instant.isLeapYear (100 * century + 4 * group + year + era * 400 + 1) = true := by
  obtain ⟨hyear, hor⟩ := h.leap hday
  have hc0 := h.century_nonneg
  have hg0 := h.group_nonneg
  have hg := h.group_le
  simp only [Instant.isLeapYear, Bool.and_eq_true, Bool.or_eq_true, beq_iff_eq, bne_iff_ne]
  rcases hor with hor | hor
  · exact ⟨by omega, .inl (by omega)⟩
  · rcases hg.lt_or_eq with hlt | heq
    · exact ⟨by omega, .inl (by omega)⟩
    · exact ⟨by omega, .inr (by omega)⟩

end EraDay

namespace Date

/-- The date of a day, told by the day's place in its era. -/
theorem ofDays_eq {days century group year day : Int}
    (h : EraDay ((days + 719468) % 146097) century group year day) :
    ofDays days =
      { year := 100 * century + 4 * group + year + (days + 719468) / 146097 * 400 +
          (if (if (5 * day + 2) / 153 < 10 then (5 * day + 2) / 153 + 3
            else (5 * day + 2) / 153 - 9) ≤ 2 then 1 else 0)
        month := (if (5 * day + 2) / 153 < 10 then (5 * day + 2) / 153 + 3
          else (5 * day + 2) / 153 - 9).toNat
        day := (day - (153 * ((5 * day + 2) / 153) + 2) / 5 + 1).toNat } := by
  have hday : (days + 719468) % 146097 - (365 * (100 * century + 4 * group + year) +
      (100 * century + 4 * group + year) / 4 - (100 * century + 4 * group + year) / 100) = day := by
    rw [h.daysBefore_eq]
    omega
  simp only [ofDays, h.yearOfEra_eq, hday]

theorem exists_eraDay (days : Int) :
    ∃ century group year day,
      EraDay ((days + 719468) % 146097) century group year day :=
  Instant.exists_eraDay (by omega) (by omega)

/-- The day of a date whose year, counted from March, has the number `yearOfEra` in its era. -/
theorem toDays_eq {d : Date} (era yearOfEra monthFromMarch : Int)
    (hyear : (if d.month ≤ 2 then d.year - 1 else d.year) = yearOfEra + era * 400)
    (hpos : 0 ≤ yearOfEra) (hle : yearOfEra ≤ 399)
    (hmonth : (((d.month + 9) % 12 : Nat) : Int) = monthFromMarch) :
    d.toDays = era * 146097 + (yearOfEra * 365 + yearOfEra / 4 - yearOfEra / 100 +
      ((153 * monthFromMarch + 2) / 5 + d.day - 1)) - 719468 := by
  have hdiv : (yearOfEra + era * 400) / 400 = era := by omega
  have hmod : (yearOfEra + era * 400) % 400 = yearOfEra := by omega
  simp only [toDays, hyear, hmonth, hdiv, hmod]

theorem toDays_ofDays (days : Int) : (ofDays days).toDays = days := by
  obtain ⟨century, group, year, day, h⟩ := exists_eraDay days
  rw [ofDays_eq h]
  have heq := h.daysBefore_eq
  obtain ⟨-, hc0, hc3, hg0, hg, hy0, hy, hd0, hd, -⟩ := h
  obtain ⟨month, hmonth⟩ : ∃ m, m = (5 * day + 2) / 153 := ⟨_, rfl⟩
  obtain ⟨yearOfEra, hyear⟩ : ∃ y, y = 100 * century + 4 * group + year := ⟨_, rfl⟩
  rw [← hyear] at heq
  have hday : 0 ≤ day - (153 * month + 2) / 5 := by omega
  simp only [← hmonth, ← hyear]
  by_cases hlt : month < 10
  · have hnot : ¬ month + 3 ≤ 2 := by omega
    have hnot' : ¬ (month + 3).toNat ≤ 2 := by omega
    rw [toDays_eq ((days + 719468) / 146097) yearOfEra month]
    · simp only
      omega
    · simp only [hlt, if_true, hnot, hnot', if_false, add_zero]
    · omega
    · omega
    · simp only [hlt, if_true]
      omega
  · have hyes : month - 9 ≤ 2 := by omega
    have hyes' : (month - 9).toNat ≤ 2 := by omega
    rw [toDays_eq ((days + 719468) / 146097) yearOfEra month]
    · simp only
      omega
    · simp only [hlt, if_false, hyes, hyes', if_true, add_sub_cancel_right]
    · omega
    · omega
    · simp only [hlt, if_false]
      omega

theorem isValid_ofDays {days : Int} (hlow : firstYear ≤ (ofDays days).year)
    (hhigh : (ofDays days).year ≤ lastYear) :
    (ofDays days).isValid = true := by
  obtain ⟨century, group, year, day, h⟩ := exists_eraDay days
  have hleap := fun hday => h.isLeapYear hday ((days + 719468) / 146097)
  rw [ofDays_eq h] at hlow hhigh ⊢
  obtain ⟨-, hc0, hc3, hg0, hg, hy0, hy, hd0, hd, -⟩ := h
  obtain ⟨month, hmonth⟩ : ∃ m, m = (5 * day + 2) / 153 := ⟨_, rfl⟩
  simp only [← hmonth] at hlow hhigh ⊢
  simp only [isValid, daysInMonth, Bool.and_eq_true, decide_eq_true_eq]
  refine ⟨⟨⟨⟨⟨hlow, hhigh⟩, ?_⟩, ?_⟩, ?_⟩, ?_⟩
  · split <;> omega
  · split <;> omega
  · omega
  · by_cases hlt : month < 10
    · simp only [hlt, if_true]
      have hnot : ¬ month + 3 ≤ 2 := by omega
      split
      · omega
      · split <;> omega
    · simp only [hlt, if_false]
      have hyes : month - 9 ≤ 2 := by omega
      simp only [hyes, if_true]
      split
      · rcases hd.lt_or_eq with hday | hday
        · split <;> omega
        · rw [hleap hday]
          simp only [if_true]
          omega
      · split <;> omega

end Date

end TradingDesk.Instant

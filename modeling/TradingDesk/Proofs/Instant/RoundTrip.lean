import TradingDesk.Proofs.Text.Digits
import TradingDesk.Proofs.Instant.Calendar
/-!
# Reading a written instant

An instant of the calendar is read back from its text, leap seconds included, and every instant that
is read is one of the calendar.
-/

namespace TradingDesk.Instant

open Text (isBlank skipBlanks)

/-- An instant whose day is in the calendar; only the last second of a minute is followed by a leap
second. -/
structure Valid (t : Instant) : Prop where
  firstYear_le : firstYear ≤ (Date.ofDays (t.seconds / 86400)).year
  le_lastYear : (Date.ofDays (t.seconds / 86400)).year ≤ lastYear
  nanos_lt : t.nanos < 2000000000
  leap : 1000000000 ≤ t.nanos → t.seconds % 60 = 59

/-- A text on which no number goes on. -/
def EndsNumber (rest : List Char) : Prop := ∀ c ∈ rest.head?, c.isDigit = false

theorem endsNumber_cons {c : Char} (hc : c.isDigit = false) (rest : List Char) :
    EndsNumber (c :: rest) := by
  intro d hd
  have heq : c = d := by simpa using hd
  rwa [← heq]

theorem isBlank_of_isDigit {c : Char} (h : c.isDigit = true) : isBlank c = false := by
  simp only [Char.isDigit, Bool.and_eq_true, decide_eq_true_eq, UInt32.le_iff_toNat_le,
    ge_iff_le] at h
  change 48 ≤ c.toNat ∧ c.toNat ≤ 57 at h
  obtain ⟨hlow, hhigh⟩ := h
  simp only [isBlank, Bool.or_eq_false_iff, Bool.and_eq_false_iff, decide_eq_false_iff_not,
    beq_eq_false_iff_ne]
  omega

theorem skipBlanks_cons {c : Char} (hc : isBlank c = false) (cs : List Char) :
    skipBlanks (c :: cs) = c :: cs := by
  simp [skipBlanks, hc]

theorem skipBlanks_digits {ds : List Char} (hds : AllDigits ds) (hne : ds ≠ [])
    (rest : List Char) : skipBlanks (ds ++ rest) = ds ++ rest := by
  cases ds with
  | nil => exact absurd rfl hne
  | cons c cs => exact skipBlanks_cons (isBlank_of_isDigit hds.head) _

/-! ### Numbers -/

theorem readDigits_append {ds : List Char} (hds : AllDigits ds) {width : Nat} (n : Nat)
    (rest : List Char) (hlen : ds.length ≤ width)
    (hend : ds.length = width ∨ EndsNumber rest) :
    readDigits n width (ds ++ rest) = (Nat.ofDigitChars 10 ds n, rest) := by
  induction ds generalizing n width with
  | nil =>
    rw [List.nil_append, Nat.ofDigitChars_nil]
    rcases hend with heq | hend
    · rw [← heq]
      cases rest <;> rfl
    · cases width with
      | zero => cases rest <;> rfl
      | succ width =>
        cases rest with
        | nil => rfl
        | cons c cs =>
          have hnot := digit?_of_not_isDigit (hend c (by simp))
          simp [readDigits, hnot]
  | cons c cs ih =>
    cases width with
    | zero => simp at hlen
    | succ width =>
      have hlen' : cs.length ≤ width := by simpa using hlen
      have hend' : cs.length = width ∨ EndsNumber rest := by simpa using hend
      rw [List.cons_append, readDigits, digit?_of_isDigit hds.head]
      simp only
      rw [ih hds.tail _ hlen' hend', ofDigitChars_cons_eq]

theorem readNumber?_append {ds : List Char} (hds : AllDigits ds) (hne : ds ≠ []) {width : Nat}
    (rest : List Char) (hlen : ds.length ≤ width)
    (hend : ds.length = width ∨ EndsNumber rest) :
    readNumber? width (ds ++ rest) = some (Nat.ofDigitChars 10 ds 0, rest) := by
  have hread := readDigits_append hds 0 rest hlen hend
  cases ds with
  | nil => exact absurd rfl hne
  | cons c cs =>
    rw [List.cons_append] at hread ⊢
    simp [readNumber?, digit?_of_isDigit hds.head, hread]

theorem padded_ne_nil {width : Nat} (hpos : 0 < width) (n : Nat) : padded width n ≠ [] := by
  have hle := le_length_padded width n
  intro hnil
  rw [hnil, List.length_nil] at hle
  omega

/-- A number in as many digits as it may have is read whatever follows it. -/
theorem readNumber?_padded (width : Nat) {n : Nat} (hpos : 0 < width) (hlt : n < 10 ^ width)
    (rest : List Char) :
    readNumber? width (padded width n ++ rest) = some (n, rest) := by
  have hlen := length_padded hpos hlt
  rw [readNumber?_append (allDigits_padded width n) (padded_ne_nil hpos n) rest hlen.le
    (.inl hlen), ofDigitChars_padded]

theorem readField?_padded {low high n : Nat} (hlow : low ≤ n) (hhigh : n ≤ high)
    (hlt : n < 100) (rest : List Char) :
    readField? low high (padded 2 n ++ rest) = some (n, rest) := by
  have hskip := skipBlanks_digits (allDigits_padded 2 n) (padded_ne_nil (by decide) n) rest
  have hread := readNumber?_padded 2 (by decide) hlt rest
  simp [readField?, hskip, hread, hlow, hhigh]

/-! ### Years -/

theorem readYear?_signed (c : Char) (hc : c = '-' ∨ c = '+') (n : Nat) {rest : List Char}
    (hend : EndsNumber rest) :
    readYear? (c :: (padded 4 n ++ rest)) = some (if c = '-' then -(n : Int) else n, rest) := by
  have hread : readNumber? (padded 4 n ++ rest).length (padded 4 n ++ rest) = some (n, rest) := by
    rw [readNumber?_append (allDigits_padded 4 n) (padded_ne_nil (by decide) n) rest (by simp)
      (.inr hend), ofDigitChars_padded]
  rw [List.length_append] at hread
  rcases hc with rfl | rfl
  · have hskip := skipBlanks_cons (c := '-') (by decide) (padded 4 n ++ rest)
    simp [readYear?, hskip, hread]
  · have hskip := skipBlanks_cons (c := '+') (by decide) (padded 4 n ++ rest)
    simp [readYear?, hskip, hread]

theorem readYear?_padded {n : Nat} (hlt : n < 10000) (rest : List Char) :
    readYear? (padded 4 n ++ rest) = some ((n : Int), rest) := by
  have hdigits := allDigits_padded 4 n
  have hread := readNumber?_padded 4 (by decide) hlt rest
  have hskip := skipBlanks_digits hdigits (padded_ne_nil (by decide) n) rest
  unfold readYear?
  rw [hskip]
  cases hcs : padded 4 n with
  | nil => exact absurd hcs (padded_ne_nil (by decide) n)
  | cons c cs =>
    rw [hcs] at hdigits hread
    have hc := hdigits.head
    rw [List.cons_append] at hread ⊢
    split
    next heq =>
      rw [(List.cons.inj heq).1] at hc
      exact absurd hc (by decide)
    next heq =>
      rw [(List.cons.inj heq).1] at hc
      exact absurd hc (by decide)
    next => simp [hread]

theorem readYear?_yearChars (year : Int) {rest : List Char} (hend : EndsNumber rest) :
    readYear? (yearChars year ++ rest) = some (year, rest) := by
  unfold yearChars
  split
  next h =>
    rw [readYear?_padded (by omega)]
    congr 2
    omega
  next h =>
    by_cases hneg : year < 0
    · rw [if_pos hneg, List.cons_append, readYear?_signed '-' (.inl rfl) _ hend, if_pos rfl]
      congr 2
      omega
    · rw [if_neg hneg, List.cons_append, readYear?_signed '+' (.inr rfl) _ hend,
        if_neg (by decide)]
      congr 2
      omega

/-! ### Fractions -/

theorem readFraction?_padded {width n : Nat} (hpos : 0 < width) (hle : width ≤ 9)
    (hlt : n < 10 ^ width) {rest : List Char} (hend : EndsNumber rest) :
    readFraction? ('.' :: (padded width n ++ rest)) = some (n * pow10 (9 - width), rest) := by
  have hlen := length_padded hpos hlt
  have hread : readNumber? 9 (padded width n ++ rest) = some (n, rest) := by
    rw [readNumber?_append (allDigits_padded width n) (padded_ne_nil hpos n) rest (by omega)
      (.inr hend), ofDigitChars_padded]
  have hdrop : (rest.dropWhile fun c => (digit? c).isSome) = rest := by
    cases rest with
    | nil => rfl
    | cons c cs => simp [digit?_of_not_isDigit (hend c (by simp))]
  simp [readFraction?, hread, hdrop, hlen]

theorem readFraction?_fractionChars {nanos : Nat} (hlt : nanos < 1000000000) :
    readFraction? (fractionChars nanos ++ ['Z']) = some (nanos, ['Z']) := by
  have hend : EndsNumber ['Z'] := endsNumber_cons (by decide) []
  unfold fractionChars
  split
  next hzero =>
    rw [hzero]
    rfl
  next =>
    split
    next hmillis =>
      rw [List.cons_append, readFraction?_padded (by decide) (by decide) (by omega) hend]
      have hvalue : nanos / 1000000 * pow10 (9 - 3) = nanos := by
        change nanos / 1000000 * 1000000 = nanos
        omega
      rw [hvalue]
    next =>
      split
      next hmicros =>
        rw [List.cons_append, readFraction?_padded (by decide) (by decide) (by omega) hend]
        have hvalue : nanos / 1000 * pow10 (9 - 6) = nanos := by
          change nanos / 1000 * 1000 = nanos
          omega
        rw [hvalue]
      next =>
        rw [List.cons_append, readFraction?_padded (by decide) (by decide) (by omega) hend]
        have hvalue : nanos * pow10 (9 - 9) = nanos := by
          change nanos * 1 = nanos
          omega
        rw [hvalue]

/-! ### Whole instants -/

/-- The text of an instant, its parts one behind the other. -/
theorem chars_eq (t : Instant) :
    t.chars =
      yearChars (Date.ofDays (t.seconds / 86400)).year ++ '-' ::
        (padded 2 (Date.ofDays (t.seconds / 86400)).month ++ '-' ::
        (padded 2 (Date.ofDays (t.seconds / 86400)).day ++ 'T' ::
        (padded 2 ((t.seconds % 86400).toNat / 3600) ++ ':' ::
        (padded 2 ((t.seconds % 86400).toNat / 60 % 60) ++ ':' ::
        (padded 2 ((t.seconds % 86400).toNat % 60 + t.nanos / 1000000000) ++
        (fractionChars (t.nanos % 1000000000) ++ ['Z'])))))) := by
  simp [chars]

theorem expect?_blank {c : Char} (hc : isBlank c = false) (cs : List Char) :
    expect? c (skipBlanks (c :: cs)) = some cs := by
  simp [skipBlanks_cons hc, expect?]

/-- The date of an instant of the calendar as a text tells it. -/
theorem date_bounds {days : Int} (hlow : firstYear ≤ (Date.ofDays days).year)
    (hhigh : (Date.ofDays days).year ≤ lastYear) :
    1 ≤ (Date.ofDays days).month ∧ (Date.ofDays days).month ≤ 12 ∧
      1 ≤ (Date.ofDays days).day ∧ (Date.ofDays days).day ≤ 31 := by
  have hvalid := Date.isValid_ofDays hlow hhigh
  simp only [Date.isValid, Bool.and_eq_true, decide_eq_true_eq] at hvalid
  obtain ⟨⟨⟨⟨-, hm1⟩, hm12⟩, hd1⟩, hdays⟩ := hvalid
  have hle : daysInMonth (Date.ofDays days).year (Date.ofDays days).month ≤ 31 := by
    unfold daysInMonth
    split
    · split <;> decide
    · split <;> decide
  exact ⟨hm1, hm12, hd1, hdays.trans hle⟩

theorem ofChars?_chars {t : Instant} (h : t.Valid) : ofChars? t.chars = some t := by
  obtain ⟨hm1, hm12, hd1, hd31⟩ := date_bounds h.firstYear_le h.le_lastYear
  have hvalid := Date.isValid_ofDays h.firstYear_le h.le_lastYear
  have hdays := Date.toDays_ofDays (t.seconds / 86400)
  have hnanos := h.nanos_lt
  have hleap := h.leap
  obtain ⟨date, hdate⟩ : ∃ date, date = Date.ofDays (t.seconds / 86400) := ⟨_, rfl⟩
  obtain ⟨time, htime⟩ : ∃ time, time = (t.seconds % 86400).toNat := ⟨_, rfl⟩
  have hfirst := h.firstYear_le
  have hlast := h.le_lastYear
  rw [chars_eq, ← hdate, ← htime]
  rw [← hdate] at hm1 hm12 hd1 hd31 hvalid hdays hfirst hlast
  unfold ofChars?
  refine Option.bind_eq_some_iff.mpr
    ⟨_, readYear?_yearChars _ (endsNumber_cons (by decide) _), ?_⟩
  refine Option.bind_eq_some_iff.mpr ⟨_, expect?_blank (by decide) _, ?_⟩
  refine Option.bind_eq_some_iff.mpr ⟨_, readField?_padded hm1 hm12 (by omega) _, ?_⟩
  refine Option.bind_eq_some_iff.mpr ⟨_, expect?_blank (by decide) _, ?_⟩
  refine Option.bind_eq_some_iff.mpr ⟨_, readField?_padded hd1 hd31 (by omega) _, ?_⟩
  refine (if_pos (.inr (.inl rfl))).trans ?_
  refine Option.bind_eq_some_iff.mpr ⟨_, rfl, ?_⟩
  refine Option.bind_eq_some_iff.mpr
    ⟨_, readField?_padded (Nat.zero_le (time / 3600)) (by omega) (by omega) _, ?_⟩
  refine Option.bind_eq_some_iff.mpr ⟨_, expect?_blank (by decide) _, ?_⟩
  refine Option.bind_eq_some_iff.mpr
    ⟨_, readField?_padded (Nat.zero_le (time / 60 % 60)) (by omega) (by omega) _, ?_⟩
  refine Option.bind_eq_some_iff.mpr ⟨_, expect?_blank (by decide) _, ?_⟩
  refine Option.bind_eq_some_iff.mpr
    ⟨_, readField?_padded (Nat.zero_le (time % 60 + t.nanos / 1000000000)) (by omega) (by omega) _,
      ?_⟩
  refine Option.bind_eq_some_iff.mpr
    ⟨_, readFraction?_fractionChars (Nat.mod_lt t.nanos (by decide)), ?_⟩
  refine Option.bind_eq_some_iff.mpr ⟨((0 : Int), []), by decide, ?_⟩
  -- Second 60 stands for the leap second behind second 59.
  have hflag : (time % 60 + t.nanos / 1000000000) / 60 = t.nanos / 1000000000 := by omega
  have hseconds : date.toDays * 86400 + ((time / 3600 : Nat) : Int) * 3600 +
      ((time / 60 % 60 : Nat) : Int) * 60 +
      ((time % 60 + t.nanos / 1000000000 - t.nanos / 1000000000 : Nat) : Int) - 0 =
        t.seconds := by
    rw [hdays]
    omega
  have hnanos' : t.nanos % 1000000000 + t.nanos / 1000000000 * 1000000000 = t.nanos := by omega
  dsimp only
  rw [if_pos ⟨rfl, hvalid⟩, hflag, hseconds, if_pos (by rw [← hdate]; exact ⟨hfirst, hlast⟩),
    hnanos']

theorem ofText?_toText {t : Instant} (h : t.Valid) : ofText? t.toText = some t := by
  simp [ofText?, toText, ofChars?_chars h]

/-! ### What is read is in the calendar -/

/-- As many digits are read as there are fewer characters left. -/
theorem readDigits_spec (n width : Nat) (cs : List Char) :
    ∃ k, k ≤ width ∧ cs.length = (readDigits n width cs).2.length + k ∧
      (readDigits n width cs).1 < (n + 1) * 10 ^ k := by
  induction width generalizing n cs with
  | zero => exact ⟨0, Nat.le_refl 0, by simp [readDigits], by simp [readDigits]⟩
  | succ width ih =>
      cases cs with
      | nil => exact ⟨0, by omega, by simp [readDigits], by simp [readDigits]⟩
      | cons c cs =>
          rw [readDigits]
          cases hdigit : digit? c with
          | none => exact ⟨0, by omega, by simp, by simp⟩
          | some d =>
              obtain ⟨k, hle, hlength, hlt⟩ := ih (n * 10 + d) cs
              have hd : d < 10 := by
                unfold digit? at hdigit
                split at hdigit
                · next hbounds =>
                  rw [Option.some.injEq] at hdigit
                  have hhigh : c.toNat ≤ '9'.toNat := hbounds.2
                  have hnine : '9'.toNat = 57 := rfl
                  have hzero : '0'.toNat = 48 := rfl
                  omega
                · contradiction
              refine ⟨k + 1, by omega, by simp only [List.length_cons, hlength]; omega, ?_⟩
              calc
                _ < (n * 10 + d + 1) * 10 ^ k := hlt
                _ ≤ ((n + 1) * 10) * 10 ^ k := Nat.mul_le_mul_right _ (by omega)
                _ = (n + 1) * 10 ^ (k + 1) := by rw [pow_succ', Nat.mul_assoc]

theorem readNumber?_eq_some {width n : Nat} {cs rest : List Char}
    (h : readNumber? width cs = some (n, rest)) :
    ∃ k, k ≤ width ∧ cs.length = rest.length + k ∧ n < 10 ^ k := by
  unfold readNumber? at h
  split at h
  · next c cs =>
    split at h
    · obtain ⟨k, hle, hlength, hlt⟩ := readDigits_spec 0 width (c :: cs)
      rw [Option.some.injEq] at h
      rw [h] at hlength hlt
      exact ⟨k, hle, hlength, by simpa using hlt⟩
    · contradiction
  · contradiction

/-- A fraction is less than a second. -/
theorem readFraction?_lt {n : Nat} {cs rest : List Char}
    (h : readFraction? cs = some (n, rest)) : n < 1000000000 := by
  unfold readFraction? at h
  split at h
  · next digits =>
    simp only [Option.bind_eq_bind, Option.bind_eq_some_iff, Option.some.injEq, Prod.mk.injEq,
      Prod.exists] at h
    obtain ⟨m, after, hnumber, rfl, -⟩ := h
    obtain ⟨k, hle, hlength, hlt⟩ := readNumber?_eq_some hnumber
    have hcount : digits.length - after.length = k := by omega
    rw [hcount, pow10]
    calc
      m * 10 ^ (9 - k) < 10 ^ k * 10 ^ (9 - k) := Nat.mul_lt_mul_of_pos_right hlt (by positivity)
      _ = 10 ^ 9 := by rw [← pow_add, Nat.add_sub_cancel' hle]
  · cases h
    omega

/-- An offset is one of whole minutes. -/
theorem readOffset?_dvd {offset : Int} {cs rest : List Char}
    (h : readOffset? cs = some (offset, rest)) : 60 ∣ offset := by
  have hhours : ∀ (sign : Int) (cs : List Char),
      readOffset?.hours? sign cs = some (offset, rest) → 60 ∣ offset := by
    intro sign cs h
    unfold readOffset?.hours? at h
    split at h
    · simp only [Option.bind_eq_bind, Option.bind_eq_some_iff] at h
      obtain ⟨h1, -, h2, -, h⟩ := h
      split at h
      · simp only [Option.bind_eq_some_iff] at h
        obtain ⟨m1, -, m2, -, h⟩ := h
        split at h
        · split at h
          · cases h
            apply Dvd.dvd.mul_left
            omega
          · contradiction
        · contradiction
      · contradiction
    · contradiction
  have hsigned : ∀ cs, readOffset?.signed? cs = some (offset, rest) → 60 ∣ offset := by
    intro cs h
    unfold readOffset?.signed? at h
    split at h
    · cases h; exact dvd_zero _
    · cases h; exact dvd_zero _
    · exact hhours _ _ h
    · exact hhours _ _ h
    · exact hhours _ _ h
    · contradiction
  unfold readOffset? at h
  split at h
  · split at h
    · cases h; exact dvd_zero _
    · exact hsigned _ h
  · exact hsigned _ h

theorem readField?_le {low high n : Nat} {cs rest : List Char}
    (h : readField? low high cs = some (n, rest)) : n ≤ high := by
  obtain ⟨⟨m, after⟩, -, h⟩ := Option.bind_eq_some_iff.mp h
  simp only [Option.ite_none_right_eq_some, Option.some.injEq, Prod.mk.injEq] at h
  omega

theorem valid_of_ofChars? {cs : List Char} {t : Instant} (h : ofChars? cs = some t) : t.Valid := by
  unfold ofChars? at h
  obtain ⟨⟨year, cs⟩, -, h⟩ := Option.bind_eq_some_iff.mp h
  obtain ⟨cs, -, h⟩ := Option.bind_eq_some_iff.mp h
  obtain ⟨⟨month, cs⟩, -, h⟩ := Option.bind_eq_some_iff.mp h
  obtain ⟨cs, -, h⟩ := Option.bind_eq_some_iff.mp h
  obtain ⟨⟨day, cs⟩, -, h⟩ := Option.bind_eq_some_iff.mp h
  dsimp only at h
  split at h
  case h_2 => cases h
  split at h
  case isFalse => cases h
  obtain ⟨cs, -, h⟩ := Option.bind_eq_some_iff.mp h
  obtain ⟨⟨hour, cs⟩, -, h⟩ := Option.bind_eq_some_iff.mp h
  obtain ⟨cs, -, h⟩ := Option.bind_eq_some_iff.mp h
  obtain ⟨⟨minute, cs⟩, -, h⟩ := Option.bind_eq_some_iff.mp h
  obtain ⟨cs, -, h⟩ := Option.bind_eq_some_iff.mp h
  obtain ⟨⟨second, cs⟩, hsecond, h⟩ := Option.bind_eq_some_iff.mp h
  obtain ⟨⟨nanos, cs⟩, hfraction, h⟩ := Option.bind_eq_some_iff.mp h
  obtain ⟨⟨offset, cs⟩, hoffset, h⟩ := Option.bind_eq_some_iff.mp h
  have hle := readField?_le hsecond
  have hlt := readFraction?_lt hfraction
  have hminutes := readOffset?_dvd hoffset
  simp only [Option.ite_none_right_eq_some, Option.some.injEq] at h
  obtain ⟨-, ⟨hlow, hhigh⟩, rfl⟩ := h
  constructor
  case firstYear_le => exact hlow
  case le_lastYear => exact hhigh
  case nanos_lt =>
    dsimp only
    omega
  case leap =>
    -- a fraction of a second and more is that of a second numbered sixty
    intro hleap
    dsimp only at hleap ⊢
    have hsixty : second = 60 := by omega
    subst hsixty
    omega

theorem valid_of_ofText? {s : String} {t : Instant} (h : ofText? s = some t) : t.Valid :=
  valid_of_ofChars? h

end TradingDesk.Instant

import TradingDesk.Text.Case
import Mathlib
/-!
# Letters of ASCII texts

In an ASCII text capital and small letters stand for one another one by one. Two such texts have the
same small forms, and the same capital forms, exactly if they are equal up to the case of their
letters.
-/

namespace TradingDesk.Text

def IsAscii (s : String) : Prop := ∀ c ∈ s.toList, c.toNat < 0x80

-- by way of `all`, since otherwise all characters there are would be tried
instance (s : String) : Decidable (IsAscii s) :=
  decidable_of_iff (s.toList.all fun c => c.toNat < 0x80) (by simp [IsAscii])

variable {s t : String}

theorem toNat_toLower_lt_iff {c : Char} : c.toLower.toNat < 0x80 ↔ c.toNat < 0x80 := by
  by_cases h : c.isUpper
  · have hbounds : 65 ≤ c.toNat ∧ c.toNat ≤ 90 := by
      simpa [Char.isUpper, UInt32.le_iff_toNat_le] using h
    have hvalid : (c.toNat + 32).isValidChar := .inl (by omega)
    rw [Char.toLower_eq_of_isUpper h, Char.toNat_ofNat, if_pos hvalid]
    omega
  · rw [Char.toLower_eq_of_not_isUpper h]

theorem toNat_toUpper_lt {c : Char} (h : c.toNat < 0x80) : c.toUpper.toNat < 0x80 := by
  rwa [← toNat_toLower_lt_iff, Char.toLower_toUpper_eq_toLower, toNat_toLower_lt_iff]

theorem lowerFrom_cons {c : Char} (h : c.toNat < 0x80) (before rest : List Char) :
    lowerFrom before (c :: rest) = c.toLower :: lowerFrom (c :: before) rest := by
  have hsigma : c ≠ 'Σ' := by
    rintro rfl
    exact absurd h (by decide)
  rw [lowerFrom, if_neg hsigma, lowerChar, if_pos h]
  rfl

theorem lowerFrom_of_ascii {cs : List Char} (h : ∀ c ∈ cs, c.toNat < 0x80) (before : List Char) :
    lowerFrom before cs = cs.map Char.toLower := by
  induction cs generalizing before with
  | nil => rfl
  | cons c rest ih =>
      rw [lowerFrom_cons (h c List.mem_cons_self), ih fun c hc => h c (List.mem_cons_of_mem _ hc),
        List.map_cons]

theorem toList_lower (h : IsAscii s) : (lower s).toList = s.toList.map Char.toLower := by
  rw [lower, String.toList_ofList, lowerFrom_of_ascii h]

theorem toList_upper (h : IsAscii s) : (upper s).toList = s.toList.map Char.toUpper := by
  have hone : ∀ c ∈ s.toList, upperChar c = [c.toUpper] := fun c hc => by
    rw [upperChar, if_pos (h c hc)]
  rw [upper, String.toList_ofList, List.flatMap_congr hone, List.map_eq_flatMap]

theorem isAscii_upper (h : IsAscii s) : IsAscii (upper s) := by
  intro c hc
  rw [toList_upper h] at hc
  obtain ⟨d, hd, rfl⟩ := List.mem_map.mp hc
  exact toNat_toUpper_lt (h d hd)

theorem sameAscii_iff :
    sameAscii s t = true ↔ s.toList.map Char.toLower = t.toList.map Char.toLower :=
  beq_iff_eq

theorem sameAscii_symm (h : sameAscii s t = true) : sameAscii t s = true :=
  sameAscii_iff.mpr (sameAscii_iff.mp h).symm

/-- What is equal to an ASCII text up to case is one. -/
theorem isAscii_of_sameAscii (h : sameAscii s t = true) (hs : IsAscii s) : IsAscii t := by
  intro c hc
  have hmem : c.toLower ∈ s.toList.map Char.toLower := by
    rw [sameAscii_iff.mp h]
    exact List.mem_map_of_mem hc
  obtain ⟨d, hd, heq⟩ := List.mem_map.mp hmem
  rw [← toNat_toLower_lt_iff, ← heq, toNat_toLower_lt_iff]
  exact hs d hd

theorem lower_eq_lower_iff (hs : IsAscii s) (ht : IsAscii t) :
    lower s = lower t ↔ sameAscii s t = true := by
  rw [sameAscii_iff, ← toList_lower hs, ← toList_lower ht, String.toList_inj]

theorem upper_eq_upper_iff (hs : IsAscii s) (ht : IsAscii t) :
    upper s = upper t ↔ sameAscii s t = true := by
  rw [sameAscii_iff, ← String.toList_inj, toList_upper hs, toList_upper ht]
  constructor <;> intro h
  · have hlower := congrArg (List.map Char.toLower) h
    simpa [Function.comp_def] using hlower
  · have hupper := congrArg (List.map Char.toUpper) h
    simpa [Function.comp_def] using hupper

theorem sameAscii_upper (h : IsAscii s) : sameAscii (upper s) s = true := by
  rw [sameAscii_iff, toList_upper h]
  simp [Function.comp_def]

end TradingDesk.Text

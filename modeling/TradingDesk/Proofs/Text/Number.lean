import TradingDesk.Proofs.Text.Ascii
import TradingDesk.Text.Number
import Mathlib
/-!
# Texts that are no numbers

Digits, signs, a point and a few letters make up the numbers and the names `inf`, `infinity`, `nan`,
`true` and `false`. A text with any other ASCII character, say a slash, is none of these.
-/

namespace TradingDesk.Text

/-- An ASCII character that no number, and neither of the flags, is written with. -/
structure IsForeign (c : Char) : Prop where
  ascii : c.toNat < 0x80
  digit : isDigit 10 c = false
  mark : c.toLower ∉ "+-.aefilnrstuy".toList

instance (c : Char) : Decidable (IsForeign c) :=
  decidable_of_iff
    (c.toNat < 0x80 ∧ isDigit 10 c = false ∧ c.toLower ∉ "+-.aefilnrstuy".toList)
    ⟨fun h => ⟨h.1, h.2.1, h.2.2⟩, fun h => ⟨h.ascii, h.digit, h.mark⟩⟩

namespace IsForeign

variable {c : Char} {cs : List Char} {s : String}

theorem ne (h : IsForeign c) {d : Char} (hd : d.toLower ∈ "+-.aefilnrstuy".toList) : c ≠ d := by
  rintro rfl
  exact h.mark hd

/-- A text in small letters is not any of the names. -/
theorem ne_name (h : IsForeign c) {t name : String} (hc : c.toLower ∈ t.toList)
    (hname : name.toList ⊆ "+-.aefilnrstuy".toList) : t ≠ name := by
  rintro rfl
  exact h.mark (hname hc)

theorem mem_splitSign (h : IsForeign c) (hc : c ∈ cs) : c ∈ (splitSign cs).2 := by
  unfold splitSign
  split
  · exact (List.mem_cons.mp hc).resolve_left (h.ne (by decide))
  · exact (List.mem_cons.mp hc).resolve_left (h.ne (by decide))
  · exact hc

theorem digits? (h : IsForeign c) (hc : c ∈ cs) : digits? cs = none := by
  have hall : cs.all (isDigit 10) = false := by
    rw [List.all_eq_false]
    exact ⟨c, hc, by simp [h.digit]⟩
  rw [Text.digits?, hall, Bool.and_false, if_neg Bool.false_ne_true]

theorem integer? (h : IsForeign c) (hc : c ∈ s.toList) : integer? s = none := by
  have hmem := h.mem_splitSign hc
  unfold Text.integer?
  rcases hsplit : splitSign s.toList with ⟨minus, cs⟩
  rw [hsplit] at hmem
  simp only [h.digits? hmem, Option.bind_eq_bind, Option.bind_none]

theorem exponent? (h : IsForeign c) (hc : c ∈ cs) : exponent? cs = none := by
  cases cs with
  | nil => cases hc
  | cons d rest =>
      rw [Text.exponent?]
      split
      · next hd =>
        have hne : c ≠ d := by rcases hd with rfl | rfl <;> exact h.ne (by decide)
        have hmem := h.mem_splitSign ((List.mem_cons.mp hc).resolve_left hne)
        rcases hsplit : splitSign rest with ⟨minus, cs⟩
        rw [hsplit] at hmem
        simp only [h.digits? hmem, Option.bind_eq_bind, Option.bind_none]
      · rfl

/-- It stands behind all digits that a text begins with. -/
theorem mem_dropWhile (h : IsForeign c) (hc : c ∈ cs) : c ∈ cs.dropWhile (isDigit 10) := by
  rw [← List.takeWhile_append_dropWhile (p := isDigit 10) (l := cs), List.mem_append] at hc
  refine hc.resolve_left fun htaken => ?_
  have hdigit := List.mem_takeWhile_imp htaken
  rw [h.digit] at hdigit
  contradiction

/-- What is left behind the digits, and behind the point and its digits, is no exponent. -/
theorem unsignedFloat? (h : IsForeign c) (hc : c ∈ cs) : unsignedFloat? cs = none := by
  have hrest := h.mem_dropWhile hc
  unfold Text.unsignedFloat?
  simp only
  generalize cs.dropWhile (isDigit 10) = rest at hrest
  split
  · next tail =>
    have htail := (List.mem_cons.mp hrest).resolve_left (h.ne (by decide))
    rw [h.exponent? (h.mem_dropWhile htail)]
    split <;> rfl
  · rw [h.exponent? hrest]
    split <;> rfl

theorem float? (h : IsForeign c) (hc : c ∈ s.toList) : float? s = none := by
  have hmem := h.mem_splitSign hc
  unfold Text.float?
  rcases hsplit : splitSign s.toList with ⟨minus, cs⟩
  rw [hsplit] at hmem
  have hsmall : c.toLower ∈ (String.ofList (cs.map Char.toLower)).toList := by
    rw [String.toList_ofList]
    exact List.mem_map_of_mem hmem
  have hinfinite : ¬ (String.ofList (cs.map Char.toLower) = "inf" ∨
      String.ofList (cs.map Char.toLower) = "infinity") :=
    not_or.mpr ⟨h.ne_name hsmall (by decide), h.ne_name hsmall (by decide)⟩
  simp only
  rw [if_neg hinfinite, if_neg (h.ne_name hsmall (by decide)), h.unsignedFloat? hmem]
  rfl

theorem mem_lowerFrom (h : IsForeign c) (hc : c ∈ cs) (before : List Char) :
    c.toLower ∈ lowerFrom before cs := by
  induction cs generalizing before with
  | nil => cases hc
  | cons d rest ih =>
      rcases List.mem_cons.mp hc with rfl | hrest
      · rw [lowerFrom_cons h.ascii]
        exact List.mem_cons_self
      · rw [lowerFrom, List.mem_append]
        exact .inr (ih hrest _)

theorem lower_ne (h : IsForeign c) (hc : c ∈ s.toList) {name : String}
    (hname : name.toList ⊆ "+-.aefilnrstuy".toList) : lower s ≠ name := by
  refine h.ne_name ?_ hname
  rw [lower, String.toList_ofList]
  exact h.mem_lowerFrom hc []

end IsForeign

end TradingDesk.Text

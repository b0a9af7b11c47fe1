import TradingDesk.Proofs.Json.Settled
/-!
# Fields of settled documents

A settled object holds one value for each of its names. A record is read from it exactly if each of
its fields can be read by itself: one that must be given from what is there, one that need not be
given from what is there if anything is, and one that may be null from what is there if that is not
null.
-/

namespace TradingDesk

namespace Json

theorem lookup_eq_find? (ps : List (String × Json)) (key : String) :
    ps.lookup key = (ps.find? (·.1 == key)).map (·.2) := by
  induction ps with
  | nil => rfl
  | cons p rest ih =>
    rw [KeyMap.lookup_cons_eq, List.find?_cons]
    by_cases heq : key = p.1
    · simp [heq]
    · have hne : (p.1 == key) = false := beq_eq_false_iff_ne.mpr (Ne.symm heq)
      rw [if_neg heq, hne, ih]

theorem get?_ofMembers (ms : List (String × Json)) (key : String) :
    (ofMembers ms).get? key = ms.reverse.lookup key := by
  have hnodup := KeyMap.nodup_keys (KeyMap.ofList ms)
  have hreversed : ((KeyMap.ofList ms).pairs.reverse.map (·.1)).Nodup := by
    rw [List.map_reverse]
    exact List.nodup_reverse.mpr hnodup
  rw [← KeyMap.get?_ofList, ofMembers, get?, ← lookup_eq_find?]
  apply Option.ext
  intro m
  rw [KeyMap.lookup_eq_some_iff hreversed, KeyMap.get?_eq_some_iff, List.mem_reverse]

/-- A settled document that holds something by name is an object. -/
theorem eq_ofMembers_of_get? {v w m : Json} {key : String} (hsettled : v.settle? = some w)
    (h : w.get? key = some m) : ∃ ms, w = ofMembers ms := by
  cases v with
  | obj members =>
      rw [settle?, Option.map_eq_some_iff] at hsettled
      obtain ⟨ms, -, rfl⟩ := hsettled
      exact ⟨ms, rfl⟩
  | arr items =>
      rw [settle?, Option.map_eq_some_iff] at hsettled
      obtain ⟨items', -, rfl⟩ := hsettled
      cases h
  | unreadable =>
      rw [settle?] at hsettled
      cases hsettled
  | _ =>
      simp only [settle?, Option.some.injEq] at hsettled
      subst w
      cases h

end Json

namespace Slots

variable {α : Type} {s : Slots Json} {v : Json} {name : String} (read : Json → Option α)

/-- The fields of a record in a settled object are what it holds by their names. -/
theorem exists_of_ofMembers (names : List String) (ms : List (String × Json)) :
    ∃ s : Slots Json, Slots.of? names (Json.ofMembers ms) = some s ∧
      ∀ name ∈ names, s.given.lookup name = (Json.ofMembers ms).get? name := by
  obtain ⟨s, hs, -, hlookup⟩ := Slots.of?_ofMembers names ms
  exact ⟨s, hs, fun name hname => (hlookup name hname).trans (Json.get?_ofMembers ms name).symm⟩

theorem required_isSome_iff (h : s.given.lookup name = v.get? name) :
    (s.required name read).isSome = true ↔
      ∃ m, v.get? name = some m ∧ (read m).isSome = true := by
  rw [required, h]
  cases v.get? name <;> simp

theorem withDefault_isSome_iff (h : s.given.lookup name = v.get? name) (default : α) :
    (s.withDefault name read default).isSome = true ↔
      ∀ m, v.get? name = some m → (read m).isSome = true := by
  rw [withDefault, h]
  cases v.get? name <;> simp

theorem nullable?_isSome_iff {m : Json} :
    (Source.nullable? read m).isSome = true ↔ m = .null ∨ (read m).isSome = true := by
  unfold Source.nullable?
  cases m <;> simp [Source.isNull]

theorem optional_isSome_iff (h : s.given.lookup name = v.get? name) :
    (s.optional name read).isSome = true ↔
      ∀ m, v.get? name = some m → m = .null ∨ (read m).isSome = true := by
  rw [optional, withDefault_isSome_iff _ h]
  simp only [nullable?_isSome_iff]

/-- A field that is read whatever the fields before it were. -/
theorem any_const {x : Option α} {b : Bool} : (x.any fun _ => b) = (x.isSome && b) := by
  cases x <;> rfl

end Slots

end TradingDesk

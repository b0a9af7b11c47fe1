import TradingDesk.Settings.Environment
import TradingDesk.Proofs.KeyMap
/-!
# Settings laid over one another

A value holds at a path of names what was put there last, as long as nothing has been put on the way
to it or behind it since. So the settings hold what the last variable of a name gives, whatever the
file and the other variables say.
-/

namespace TradingDesk.Settings

namespace Value

/-- What is found at the end of a path of names. -/
def at? : List String → Value → Option Value
  | [], v => some v
  | name :: names, v => (v.entries.lookup (Text.lower name)).bind (at? names)

/-- The names part from the steps before either ends, so that neither path leads through the other's
end. -/
def Apart : List String → List Step → Prop
  | name :: names, .key other :: path => Text.lower name ≠ Text.lower other ∨ Apart names path
  | _, _ => False

instance decidableApart : (names : List String) → (path : List Step) →
    Decidable (Apart names path)
  | name :: names, .key other :: path =>
    have := decidableApart names path
    inferInstanceAs (Decidable (Text.lower name ≠ Text.lower other ∨ Apart names path))
  | [], _ => inferInstanceAs (Decidable False)
  | _ :: _, [] => inferInstanceAs (Decidable False)
  | _ :: _, .item _ :: _ => inferInstanceAs (Decidable False)

theorem lookup_setEntry (key k : String) (v : Value) (es : List (String × Value)) :
    (setEntry key v es).lookup k = if k = key then some v else es.lookup k := by
  induction es with
  | nil => rw [setEntry, KeyMap.lookup_cons_eq]
  | cons e rest ih =>
      obtain ⟨name, w⟩ := e
      rw [setEntry]
      by_cases hname : name = key
      · rw [if_pos hname, KeyMap.lookup_cons_eq, KeyMap.lookup_cons_eq, hname]
        split <;> rfl
      · rw [if_neg hname, KeyMap.lookup_cons_eq, KeyMap.lookup_cons_eq, ih]
        by_cases hk : k = name
        · rw [if_pos hk, if_pos hk, if_neg (hk ▸ hname)]
        · rw [if_neg hk, if_neg hk]

/-- A value that takes the place of what it is laid over. -/
def Covers (v : Value) : Prop := ∀ base : Value, base.overlay v = v

theorem at?_put_self {v : Value} (h : v.Covers) (names : List String) (base : Value) :
    at? names (put v (names.map .key) base) = some v := by
  induction names generalizing base with
  | nil => exact congrArg some (h base)
  | cons name names ih =>
      rw [List.map_cons, put, at?, entries, lookup_setEntry, if_pos rfl]
      exact ih _

/-- Nothing is found on any way behind null. -/
theorem at?_null_of_apart {names : List String} {path : List Step} (h : Apart names path) :
    at? names .null = none := by
  cases names with
  | nil => exact h.elim
  | cons name names => rfl

theorem at?_put_of_apart (v : Value) {names : List String} {path : List Step}
    (h : Apart names path) (base : Value) : at? names (put v path base) = at? names base := by
  induction names generalizing path base with
  | nil => exact h.elim
  | cons name names ih =>
      match path, h with
      | .key other :: path, h =>
          rw [put, at?, entries, lookup_setEntry, at?]
          by_cases heq : Text.lower name = Text.lower other
          · have hrest : Apart names path := h.resolve_left (not_not.mpr heq)
            rw [if_pos heq, Option.bind_some, ih hrest, heq]
            cases base.entries.lookup (Text.lower other) with
            | none => exact at?_null_of_apart hrest
            | some w => rfl
          · rw [if_neg heq]

end Value

open Value

theorem at?_foldl_layer {names : List String} {later : List (String × Value)}
    (h : ∀ e ∈ later, Apart names (Path.ofKey e.1)) (base : Value) :
    at? names (later.foldl layer base) = at? names base := by
  induction later generalizing base with
  | nil => rfl
  | cons e rest ih =>
      rw [List.foldl_cons, ih fun e he => h e (List.mem_cons_of_mem _ he), layer]
      exact at?_put_of_apart e.2 (h e List.mem_cons_self) base

/-- The value of an entry that no later one touches. -/
theorem at?_of_last {names : List String} {key : String} {v : Value}
    (hkey : Path.ofKey key = names.map .key) (hv : v.Covers) {later : List (String × Value)}
    (h : ∀ e ∈ later, Apart names (Path.ofKey e.1)) (earlier : List (String × Value))
    (base : Value) :
    at? names ((earlier ++ (key, v) :: later).foldl layer base) = some v := by
  rw [List.foldl_append, List.foldl_cons, at?_foldl_layer h, layer, hkey]
  exact at?_put_self hv names _

/-- The variables of an environment leave a path of names alone. -/
def Untouched (names : List String) (environment : List (String × String)) : Prop :=
  ∀ v ∈ environment, ∀ key, variableKey? v.1 = some key → Apart names (Path.ofKey key)

instance (names : List String) (environment : List (String × String)) :
    Decidable (Untouched names environment) :=
  inferInstanceAs (Decidable (∀ v ∈ environment, ∀ key ∈ variableKey? v.1,
    Apart names (Path.ofKey key)))

theorem apart_of_untouched {names : List String} {environment : List (String × String)}
    (h : Untouched names environment) :
    ∀ e ∈ variableEntries environment, Apart names (Path.ofKey e.1) := by
  intro e he
  obtain ⟨v, hv, hentry⟩ := List.mem_filterMap.mp he
  obtain ⟨key, hkey, rfl⟩ := Option.map_eq_some_iff.mp hentry
  exact h v hv key hkey

/-- What is loaded is what a value is read as; keeping the rules changes nothing of it. -/
theorem read_of_checked {read : Option Settings} {c : Settings}
    (h : (match read with
      | none => throw Fault.settings
      | some d => do
        d.validate
        pure d) = Except.ok c) : read = some c := by
  cases read with
  | none => cases h
  | some d =>
      simp only [bind, Except.bind, pure, Except.pure] at h
      split at h
      · cases h
      · exact congrArg some (Except.ok.inj h)

theorem read_of_load {file : Option String} {environment : List (String × String)} {c : Settings}
    (h : load file environment = .ok c) :
    ∃ entries, read? ((entries ++ variableEntries environment).foldl layer (.table [])) =
      some c := by
  unfold load at h
  split at h
  · exact ⟨[], read_of_checked h⟩
  · split at h
    · next entries _ => exact ⟨entries, read_of_checked h⟩
    · cases h

theorem load_of_read {environment : List (String × String)} {c : Settings}
    (hread : read? ((variableEntries environment).foldl layer (.table [])) = some c)
    (hvalid : c.validate = .ok ()) : load none environment = .ok c := by
  simp only [load, pure_bind, List.nil_append, hread, hvalid]
  rfl

end TradingDesk.Settings

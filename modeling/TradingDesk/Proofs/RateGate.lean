import TradingDesk.RateGate
import TradingDesk.Proofs.KeyMap
/-!
# What gates remember

A gate knows the last passage of each key, and a key may pass just when its interval has gone by
since then. Neither a passage nor a record of one changes an interval.
-/

namespace TradingDesk

/-! ### Times that are an interval apart -/

def Spaced (interval : Nat) (times : List Nat) : Prop :=
  times.Pairwise fun a b => a + interval ≤ b

/-- A time an interval after the last one is an interval after all. -/
theorem Spaced.concat {interval time : Nat} {times : List Nat} (h : Spaced interval times)
    (hlast : ∀ last, times.getLast? = some last → last + interval ≤ time) :
    Spaced interval (times ++ [time]) := by
  cases times using List.reverseRecOn with
  | nil => exact List.pairwise_singleton _ _
  | append_singleton earlier last =>
      have hlater := hlast last List.getLast?_concat
      apply List.pairwise_append.mpr
      refine ⟨h, List.pairwise_singleton _ _, ?_⟩
      intro a ha b hb
      rw [List.mem_singleton.mp hb]
      rcases List.mem_append.mp ha with hearlier | hmem
      · have hbefore := (List.pairwise_append.mp h).2.2 a hearlier last List.mem_cons_self
        omega
      · rw [List.mem_singleton.mp hmem]
        exact hlater

namespace RateGate

/-! ### The last passage -/

variable {κ : Type} [BEq κ] [LawfulBEq κ] (g : RateGate κ) (key k : κ) (time : Nat)

theorem last?_setLast :
    (g.setLast key time).last? k = if k == key then some time else g.last? k :=
  KeyMap.lookup_replace k key time g.passed

theorem last?_record :
    (g.record key time).last? k =
      if k == key then some (max ((g.last? key).getD time) time) else g.last? k :=
  g.last?_setLast key k _

omit [LawfulBEq κ] in
theorem intervalOf_setLast : (g.setLast key time).intervalOf k = g.intervalOf k := rfl

omit [LawfulBEq κ] in
theorem isOpen_iff :
    g.isOpen key time = true ↔
      ∀ last, g.last? key = some last → last + g.intervalOf key ≤ time := by
  unfold isOpen
  cases g.last? key with
  | none => simp
  | some last =>
      simp only [Bool.and_eq_true, decide_eq_true_eq, Option.some.injEq, forall_eq']
      omega

omit [LawfulBEq κ] in
theorem pass_of_isOpen {g : RateGate κ} {key : κ} {time : Nat} (h : g.isOpen key time = true) :
    g.pass key time = (true, g.setLast key time) := by rw [pass, if_pos h]

omit [LawfulBEq κ] in
theorem pass_of_not_isOpen {g : RateGate κ} {key : κ} {time : Nat}
    (h : g.isOpen key time = false) : g.pass key time = (false, g) := by rw [pass, h]; rfl

/-! ### Intervals -/

variable {g key}

/-- An interval of a key's own is the one that counts, if the key has only one. -/
theorem intervalOf_of_mem (hkeys : (g.overrides.map (·.1)).Nodup) {interval : Nat}
    (hmem : (key, interval) ∈ g.overrides) : g.intervalOf key = interval := by
  have hreversed : (g.overrides.reverse.map (·.1)).Nodup := by
    rw [List.map_reverse]
    exact List.nodup_reverse.mpr hkeys
  unfold intervalOf
  rw [(KeyMap.lookup_eq_some_iff hreversed).mpr (List.mem_reverse.mpr hmem), Option.getD_some]

theorem intervalOf_of_not_mem (hnone : ∀ o ∈ g.overrides, o.1 ≠ key) :
    g.intervalOf key = g.interval := by
  unfold intervalOf
  have hlookup : g.overrides.reverse.lookup key = none := by
    rw [List.lookup_eq_none_iff]
    intro o ho
    exact bne_iff_ne.mpr (hnone o (List.mem_reverse.mp ho)).symm
  rw [hlookup, Option.getD_none]

end RateGate
end TradingDesk

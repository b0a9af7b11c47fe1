import Mathlib.Tactic
import TradingDesk.Proofs.RateGate
/-!
# Histories of gates

A gate is asked to let items pass and is told of passages that ended later, in any order and at any
times. What it remembers of a key is the latest time at which the key passed or was told of, so that
a key may pass just when its interval has gone by since all of them.
-/

namespace TradingDesk
namespace RateGate

variable {κ : Type}

/-- What a gate is asked about a key, or told. -/
inductive Call (κ : Type) where
  | pass (key : κ) (time : Nat)
  | record (key : κ) (time : Nat)

def Call.key : Call κ → κ
  | pass key _ | record key _ => key

variable [BEq κ]

def perform (g : RateGate κ) : Call κ → RateGate κ
  | .pass key time => (g.pass key time).2
  | .record key time => g.record key time

/-- The gate after some calls. -/
def after (g : RateGate κ) (calls : List (Call κ)) : RateGate κ := calls.foldl perform g

/-- The time of a call, if it lets the key pass. -/
def passage (g : RateGate κ) (key : κ) : Call κ → List Nat
  | .pass k time => if k == key && (g.pass k time).1 then [time] else []
  | .record .. => []

/-- The times at which some calls let a key pass. -/
def passages (g : RateGate κ) (key : κ) : List (Call κ) → List Nat
  | [] => []
  | c :: calls => g.passage key c ++ (g.perform c).passages key calls

/-- The time of a call, if it tells of a passage of the key. -/
def Call.recorded (key : κ) : Call κ → List Nat
  | pass .. => []
  | record k time => if k == key then [time] else []

/-- The times that a gate was told of for a key. -/
def records (key : κ) (calls : List (Call κ)) : List Nat := calls.flatMap (·.recorded key)

variable {g : RateGate κ} {key : κ} {calls : List (Call κ)} {c : Call κ} {time : Nat}

/-! ### One more call -/

theorem after_concat : g.after (calls ++ [c]) = (g.after calls).perform c := List.foldl_concat ..

theorem passages_append (before later : List (Call κ)) :
    g.passages key (before ++ later) =
      g.passages key before ++ (g.after before).passages key later := by
  induction before generalizing g with
  | nil => rfl
  | cons c before ih => rw [List.cons_append, passages, ih, passages, List.append_assoc]; rfl

theorem passages_concat :
    g.passages key (calls ++ [c]) = g.passages key calls ++ (g.after calls).passage key c := by
  rw [passages_append, passages, passages, List.append_nil]

theorem records_concat : records key (calls ++ [c]) = records key calls ++ c.recorded key := by
  simp [records]

theorem intervalOf_perform : (g.perform c).intervalOf key = g.intervalOf key := by
  cases c with
  | pass k time =>
      simp only [perform, pass]
      split <;> rfl
  | record k time => rfl

theorem intervalOf_after : (g.after calls).intervalOf key = g.intervalOf key := by
  induction calls using List.reverseRecOn with
  | nil => rfl
  | append_singleton calls c ih => rw [after_concat, intervalOf_perform, ih]

theorem fst_pass : (g.pass key time).1 = g.isOpen key time := by
  unfold pass
  cases g.isOpen key time <;> rfl

theorem perform_of_not_isOpen (hclosed : g.isOpen key time = false) :
    g.perform (.pass key time) = g := by
  rw [perform, pass_of_not_isOpen hclosed]

variable [LawfulBEq κ]

/-- A call about another key changes nothing for this one. -/
theorem last?_perform_of_ne (hne : c.key ≠ key) : (g.perform c).last? key = g.last? key := by
  cases c with
  | pass k time =>
      have hother : ¬ (key == k) = true := fun heq => hne (eq_of_beq heq).symm
      simp only [perform, pass]
      split
      · rw [last?_setLast, if_neg hother]
      · rfl
  | record k time =>
      have hother : ¬ (key == k) = true := fun heq => hne (eq_of_beq heq).symm
      rw [perform, last?_record, if_neg hother]

theorem passage_of_ne (hne : c.key ≠ key) : g.passage key c = [] := by
  cases c with
  | pass k time =>
      have hother : (k == key) = false := beq_false_of_ne hne
      simp [passage, hother]
  | record k time => rfl

theorem recorded_of_ne (hne : c.key ≠ key) : c.recorded key = [] := by
  cases c with
  | pass k time => rfl
  | record k time =>
      have hother : (k == key) = false := beq_false_of_ne hne
      simp [Call.recorded, hother]

/-! ### What is remembered -/

/-- The times at which a key passed or was told of. -/
def marks (g : RateGate κ) (key : κ) (calls : List (Call κ)) : List Nat :=
  g.passages key calls ++ records key calls

omit [LawfulBEq κ] in
theorem marks_concat_of_nil (hpassage : (g.after calls).passage key c = [])
    (hrecorded : c.recorded key = []) : g.marks key (calls ++ [c]) = g.marks key calls := by
  rw [marks, passages_concat, records_concat, hpassage, hrecorded, List.append_nil,
    List.append_nil, marks]

omit [LawfulBEq κ] in
theorem max?_marks_concat (hmark : (g.after calls).passage key c ++ c.recorded key = [time]) :
    (g.marks key (calls ++ [c])).max? =
      some (max ((g.marks key calls).max?.getD time) time) := by
  have hmem : ∀ t, t ∈ g.marks key (calls ++ [c]) ↔ t ∈ g.marks key calls ∨ t = time := by
    intro t
    rw [← List.mem_singleton, ← hmark]
    simp only [marks, passages_concat, records_concat, List.mem_append]
    tauto
  rw [List.max?_eq_some_iff]
  simp only [hmem]
  cases hmax : (g.marks key calls).max? with
  | none =>
      rw [List.max?_eq_none_iff.mp hmax]
      simp
  | some last =>
      obtain ⟨hlast, hlatest⟩ := List.max?_eq_some_iff.mp hmax
      rw [Option.getD_some]
      constructor
      · rcases max_choice last time with heq | heq
        · rw [heq]
          exact .inl hlast
        · exact .inr heq
      · rintro t (hold | rfl)
        · exact (hlatest t hold).trans (le_max_left last time)
        · exact le_max_right last t

omit [LawfulBEq κ] in
/-- When the last time of a key is the latest of some times, the key may pass once its interval has
gone by since each of them. -/
theorem isOpen_iff_of_last? {times : List Nat} (h : g.last? key = times.max?) :
    g.isOpen key time = true ↔ ∀ t ∈ times, t + g.intervalOf key ≤ time := by
  rw [isOpen_iff, h]
  constructor
  · intro hlast t ht
    cases hmax : times.max? with
    | none =>
        rw [List.max?_eq_none_iff.mp hmax] at ht
        contradiction
    | some last =>
        have hle := (List.max?_eq_some_iff.mp hmax).2 t ht
        have hgone := hlast last hmax
        omega
  · intro hall last hlast
    exact hall last (List.max?_eq_some_iff.mp hlast).1

/-- A gate remembers the latest time at which a key passed or was told of. -/
theorem last?_after (hnew : g.passed = []) :
    (g.after calls).last? key = (g.marks key calls).max? := by
  induction calls using List.reverseRecOn with
  | nil => simp [after, last?, hnew, marks, passages, records]
  | append_singleton calls c ih =>
      rw [after_concat]
      by_cases hkey : c.key = key
      · cases c with
        | pass k time =>
            obtain rfl : k = key := hkey
            cases hopen : (g.after calls).isOpen k time with
            | true =>
                have hmark : (g.after calls).passage k (.pass k time) ++
                    (Call.pass k time).recorded k = [time] := by
                  simp [passage, fst_pass, hopen, Call.recorded]
                have hlatest : (g.marks k calls).max?.getD time ≤ time := by
                  cases hmax : (g.marks k calls).max? with
                  | none => exact le_rfl
                  | some last =>
                      have hgone := (isOpen_iff _ _ _).mp hopen last (ih.trans hmax)
                      exact Nat.le_of_add_right_le hgone
                rw [perform, pass_of_isOpen hopen, last?_setLast, if_pos (beq_self_eq_true k),
                  max?_marks_concat hmark, max_eq_right hlatest]
            | false =>
                rw [perform_of_not_isOpen hopen, ih, marks_concat_of_nil]
                · simp [passage, fst_pass, hopen]
                · rfl
        | record k time =>
            obtain rfl : k = key := hkey
            have hmark : (g.after calls).passage k (.record k time) ++
                (Call.record k time).recorded k = [time] := by
              simp [passage, Call.recorded]
            rw [perform, last?_record, if_pos (beq_self_eq_true k), ih, max?_marks_concat hmark]
      · rw [last?_perform_of_ne hkey, ih,
          marks_concat_of_nil (passage_of_ne hkey) (recorded_of_ne hkey)]

/-- A key may pass just when its interval has gone by since all its marks. -/
theorem isOpen_after_iff (hnew : g.passed = []) :
    (g.after calls).isOpen key time = true ↔
      ∀ t ∈ g.marks key calls, t + g.intervalOf key ≤ time := by
  rw [isOpen_iff_of_last? (last?_after hnew), intervalOf_after]

/-! ### One key among others -/

theorem passages_spaced (hnew : g.passed = []) :
    Spaced (g.intervalOf key) (g.passages key calls) := by
  induction calls using List.reverseRecOn with
  | nil => exact List.Pairwise.nil
  | append_singleton calls c ih =>
      rw [passages_concat]
      cases c with
      | record k time => simpa [passage] using ih
      | pass k time =>
          simp only [passage]
          split
          · next hpass =>
            obtain ⟨hkey, hopen⟩ := Bool.and_eq_true_iff.mp hpass
            obtain rfl := eq_of_beq hkey
            rw [fst_pass, isOpen_after_iff hnew] at hopen
            apply ih.concat
            intro last hlast
            exact hopen last (List.mem_append_left _ (List.mem_of_getLast? hlast))
          · rwa [List.append_nil]

omit [LawfulBEq κ] in
theorem isOpen_congr {g g' : RateGate κ} (hlast : g.last? key = g'.last? key)
    (hinterval : g.intervalOf key = g'.intervalOf key) (time : Nat) :
    g.isOpen key time = g'.isOpen key time := by
  rw [isOpen, isOpen, hlast, hinterval]

/-- A call does the same for its key with two gates that know the same of it. -/
theorem perform_congr {g g' : RateGate κ} (hlast : g.last? c.key = g'.last? c.key)
    (hinterval : g.intervalOf c.key = g'.intervalOf c.key) :
    (g.perform c).last? c.key = (g'.perform c).last? c.key ∧
      g.passage c.key c = g'.passage c.key c := by
  cases c with
  | record k time =>
      have hlast' : g.last? k = g'.last? k := hlast
      refine ⟨?_, rfl⟩
      change (g.record k time).last? k = (g'.record k time).last? k
      rw [last?_record, last?_record, hlast']
  | pass k time =>
      have hlast' : g.last? k = g'.last? k := hlast
      have hopen : g.isOpen k time = g'.isOpen k time := isOpen_congr hlast' hinterval time
      change (g.pass k time).2.last? k = (g'.pass k time).2.last? k ∧
        (if k == k && (g.pass k time).1 then [time] else []) =
          if k == k && (g'.pass k time).1 then [time] else []
      rw [fst_pass, fst_pass, hopen]
      refine ⟨?_, rfl⟩
      cases hpass : g'.isOpen k time with
      | true =>
          rw [pass_of_isOpen (hopen.trans hpass), pass_of_isOpen hpass, last?_setLast,
            last?_setLast, hlast']
      | false => rw [pass_of_not_isOpen (hopen.trans hpass), pass_of_not_isOpen hpass, hlast']

/-- What a gate knows of a key, and when it let it pass, hangs on the calls about this key alone. -/
theorem filter_calls (g : RateGate κ) (key : κ) (calls : List (Call κ)) :
    (g.after (calls.filter (·.key == key))).last? key = (g.after calls).last? key ∧
      g.passages key (calls.filter (·.key == key)) = g.passages key calls := by
  induction calls using List.reverseRecOn with
  | nil => exact ⟨rfl, rfl⟩
  | append_singleton calls c ih =>
      obtain ⟨hlast, hpassages⟩ := ih
      rw [List.filter_append, after_concat, passages_concat]
      by_cases hkey : c.key = key
      · subst key
        have hinterval : (g.after (calls.filter (·.key == c.key))).intervalOf c.key =
            (g.after calls).intervalOf c.key := by rw [intervalOf_after, intervalOf_after]
        obtain ⟨hperform, hpassage⟩ := perform_congr hlast hinterval
        have hone : [c].filter (·.key == c.key) = [c] := by simp
        rw [hone, after_concat, passages_concat, hpassages]
        exact ⟨hperform, by rw [hpassage]⟩
      · have hnone : [c].filter (·.key == key) = [] := by simp [hkey]
        rw [hnone, List.append_nil, last?_perform_of_ne hkey, passage_of_ne hkey, List.append_nil]
        exact ⟨hlast, hpassages⟩

/-- The last time of a key never goes back. -/
theorem last?_after_mono (hnew : g.passed = []) (before later : List (Call κ)) {last : Nat}
    (hlast : (g.after before).last? key = some last) :
    ∃ last', (g.after (before ++ later)).last? key = some last' ∧ last ≤ last' := by
  rw [last?_after hnew] at hlast ⊢
  have hmem : last ∈ g.marks key (before ++ later) := by
    have hmark := (List.max?_eq_some_iff.mp hlast).1
    simp only [marks, passages_append, records, List.flatMap_append, List.mem_append] at hmark ⊢
    tauto
  cases hmax : (g.marks key (before ++ later)).max? with
  | none =>
      rw [List.max?_eq_none_iff.mp hmax] at hmem
      contradiction
  | some last' => exact ⟨last', rfl, (List.max?_eq_some_iff.mp hmax).2 last hmem⟩

/-! ### Spacing and fairness -/

theorem not_isOpen_after_iff (hnew : g.passed = []) :
    (g.after calls).isOpen key time = false ↔
      ∃ last, (g.marks key calls).max? = some last ∧ time < last + g.intervalOf key := by
  rw [← Bool.not_eq_true, isOpen_iff, last?_after hnew, intervalOf_after]
  push Not
  rfl

/-- However a new gate was called so far, the times at which a key passed are its interval apart,
and the last time of the key does not go back. The key passes next no sooner than its interval after
all times that were told of it. It is refused just when its interval has not gone by since the
latest time at which it passed or was told of, and a refusal changes nothing. What the gate does
with the key hangs on the calls about this key alone. -/
theorem passages_are_spaced_and_fair (hnew : g.passed = []) (calls : List (Call κ)) (key : κ) :
    Spaced (g.intervalOf key) (g.passages key calls) ∧
    (∀ time, ((g.after calls).pass key time).1 = true →
      ∀ t ∈ records key calls, t + g.intervalOf key ≤ time) ∧
    (∀ later last, (g.after calls).last? key = some last →
      ∃ last', (g.after (calls ++ later)).last? key = some last' ∧ last ≤ last') ∧
    (∀ time, ((g.after calls).pass key time).1 = false ↔
      ∃ last, (g.passages key calls ++ records key calls).max? = some last ∧
        time < last + g.intervalOf key) ∧
    (∀ time, ((g.after calls).pass key time).1 = false →
      ((g.after calls).pass key time).2 = g.after calls) ∧
    (g.after (calls.filter (·.key == key))).last? key = (g.after calls).last? key ∧
    g.passages key (calls.filter (·.key == key)) = g.passages key calls ∧
    ∀ time, ((g.after (calls.filter (·.key == key))).pass key time).1 =
      ((g.after calls).pass key time).1 := by
  obtain ⟨hlast, hpassages⟩ := filter_calls g key calls
  refine ⟨passages_spaced hnew, ?recorded, fun later last => last?_after_mono hnew calls later,
    ?refused, ?traceless, hlast, hpassages, ?own⟩
  case recorded =>
    intro time hpass t ht
    rw [fst_pass, isOpen_after_iff hnew] at hpass
    exact hpass t (List.mem_append_right _ ht)
  case refused =>
    intro time
    rw [fst_pass]
    exact not_isOpen_after_iff hnew
  case traceless =>
    intro time hrefused
    rw [fst_pass] at hrefused
    rw [pass_of_not_isOpen hrefused]
  case own =>
    intro time
    rw [fst_pass, fst_pass]
    apply isOpen_congr hlast
    rw [intervalOf_after, intervalOf_after]

/-- A gate with an interval of five lets a key pass at three, is told of ten, refuses it at twelve
and lets it pass at fifteen; the passage of another key changes nothing of that. -/
theorem told_time_is_waited_for :
    let g : RateGate String := { interval := 5, overrides := [("b", 2)] }
    let calls : List (Call String) :=
      [.pass "a" 3, .pass "b" 30, .record "a" 10, .record "a" 4, .pass "a" 12, .pass "a" 15]
    g.passages "a" calls = [3, 15] ∧ records "a" calls = [10, 4] ∧ Spaced 5 [3, 15] ∧
      ((g.after calls).pass "a" 19).1 = false := by
  intro g calls
  have hpassages : g.passages "a" calls = [3, 15] := by decide
  have hrecords : records "a" calls = [10, 4] := by decide
  have hinterval : g.intervalOf "a" = 5 := by decide
  obtain ⟨hspaced, -, -, hrefused, -⟩ :=
    passages_are_spaced_and_fair (g := g) rfl calls "a"
  rw [hpassages, hinterval] at hspaced
  refine ⟨hpassages, hrecords, hspaced, (hrefused 19).mpr ⟨15, ?_, ?_⟩⟩
  · rw [hpassages, hrecords]
    decide
  · rw [hinterval]
    decide

end RateGate
end TradingDesk

import Mathlib.Tactic
import TradingDesk.Backoff
/-!
# The waits of a schedule

Without jitter the waits of a schedule are those of one sequence, as many of them as are allowed,
and they begin anew after a reset. A wait that has grown is cut at the bound. The first one is taken
as it is set, so that the bound holds of all waits just if it holds of that one.
-/

namespace TradingDesk

namespace BackoffSettings

variable {c : BackoffSettings}

/-- The waits in their order, if there is no limit to their number. -/
def delay (c : BackoffSettings) : Nat → Nat
  | 0 => c.initialDelay
  | n + 1 => c.grow (c.delay n)

/-- How long the first `n` waits are together. -/
def waited (c : BackoffSettings) (n : Nat) : Nat := ((List.range n).map c.delay).sum

@[simp] theorem waited_zero (c : BackoffSettings) : c.waited 0 = 0 := rfl

@[simp] theorem waited_succ (c : BackoffSettings) (n : Nat) :
    c.waited (n + 1) = c.waited n + c.delay n := by
  simp [waited, List.range_succ]

theorem grow_le (c : BackoffSettings) (delay : Nat) : c.grow delay ≤ c.maxDelay :=
  Nat.min_le_right _ _

/-- Whether a wait can be drawn in the place of a scheduled one. With jitter it is drawn between two
numbers, the distance between which has to be finite. -/
def drawable (c : BackoffSettings) (scheduled : Nat) : Bool :=
  let width := Float.ofNat scheduled * c.jitter
  c.jitter ≤ 0.0 || (width - -width).isFinite

theorem spread_of_steady (hsteady : c.jitter ≤ 0.0) (delay : Nat) : c.spread delay = delay := by
  rw [spread, if_pos hsteady]

end BackoffSettings

namespace Backoff

variable {c : BackoffSettings} {b : Backoff} {n : Nat}

/-- The schedule when `n` of its waits have been taken. -/
def after (c : BackoffSettings) (n : Nat) : Backoff :=
  { settings := c, current := c.delay n, attempts := n }

theorem start_eq_after (c : BackoffSettings) : start c = after c 0 := rfl

theorem mayRetry_iff : b.mayRetry = true ↔
    b.settings.maxAttempts = 0 ∨ b.attempts < b.settings.maxAttempts := by
  simp [mayRetry]

theorem mayRetry_after_iff :
    (after c n).mayRetry = true ↔ c.maxAttempts = 0 ∨ n < c.maxAttempts := mayRetry_iff

theorem next?_of_allowed (hallowed : c.maxAttempts = 0 ∨ n < c.maxAttempts) :
    (after c n).next? = some (c.spread (c.delay n), after c (n + 1)) := by
  rw [next?, if_pos (mayRetry_after_iff.mpr hallowed)]
  rfl

theorem next?_of_spent (hlimited : 0 < c.maxAttempts) (hspent : c.maxAttempts ≤ n) :
    (after c n).next? = none := by
  have hnot : ¬ (after c n).mayRetry = true := by
    rw [mayRetry_after_iff]
    omega
  rw [next?, if_neg hnot]

/-! ### Calls -/

inductive Call where
  | next
  | reset
deriving DecidableEq, Repr

/-- What a call answers, and the schedule after it. -/
def call (b : Backoff) : Call → Option Nat × Backoff
  | .next =>
    match b.next? with
    | some (delay, b) => (some delay, b)
    | none => (none, b)
  | .reset => (none, b.reset)

/-- The schedule after some calls. -/
def afterCalls (b : Backoff) (calls : List Call) : Backoff :=
  calls.foldl (fun b call => (b.call call).2) b

/-- The waits that are told in answer to some calls. -/
def waits (b : Backoff) : List Call → List Nat
  | [] => []
  | call :: calls => (b.call call).1.toList ++ (b.call call).2.waits calls

theorem afterCalls_concat (b : Backoff) (calls : List Call) (last : Call) :
    b.afterCalls (calls ++ [last]) = ((b.afterCalls calls).call last).2 := by
  simp [afterCalls]

/-- A wait that is told is told after some of the calls. -/
theorem exists_of_mem_waits {calls : List Call} {delay : Nat} (h : delay ∈ b.waits calls) :
    ∃ before, ((b.afterCalls before).call .next).1 = some delay := by
  induction calls generalizing b with
  | nil => contradiction
  | cons first rest ih =>
      rcases List.mem_append.mp h with hfirst | hrest
      · cases first with
        | next => exact ⟨[], Option.mem_toList.mp hfirst⟩
        | reset => contradiction
      · obtain ⟨before, htold⟩ := ih hrest
        exact ⟨first :: before, htold⟩

/-- A schedule in use has taken some of its waits. -/
theorem afterCalls_start (c : BackoffSettings) (calls : List Call) :
    ∃ n, (start c).afterCalls calls = after c n := by
  induction calls using List.reverseRecOn with
  | nil => exact ⟨0, rfl⟩
  | append_singleton calls last ih =>
      obtain ⟨n, hn⟩ := ih
      rw [afterCalls_concat, hn]
      cases last with
      | reset => exact ⟨0, rfl⟩
      | next =>
          by_cases hmay : (after c n).mayRetry = true
          · exact ⟨n + 1, by simp only [call, next?_of_allowed (mayRetry_after_iff.mp hmay)]⟩
          · exact ⟨n, by simp only [call, next?, if_neg hmay]⟩

/-- Without jitter a wait that is told is the next of the sequence. -/
theorem told_after (hsteady : c.jitter ≤ 0.0) {delay : Nat}
    (h : ((after c n).call .next).1 = some delay) : delay = c.delay n := by
  by_cases hmay : (after c n).mayRetry = true
  · rw [call, next?_of_allowed (mayRetry_after_iff.mp hmay)] at h
    rw [← Option.some.inj h, BackoffSettings.spread_of_steady hsteady]
  · rw [call, next?, if_neg hmay] at h
    contradiction

/-- Of the waits that are allowed no more are told than are left. -/
theorem length_waits_next_le (hlimited : 0 < c.maxAttempts) (calls n : Nat) :
    ((after c n).waits (List.replicate calls .next)).length ≤ c.maxAttempts - n := by
  induction calls generalizing n with
  | zero => exact Nat.zero_le _
  | succ calls ih =>
      rw [List.replicate_succ, waits]
      by_cases hspent : c.maxAttempts ≤ n
      · simp only [call, next?_of_spent hlimited hspent]
        exact ih n
      · simp only [call, next?_of_allowed (.inr (not_le.mp hspent))]
        have hrest := ih (n + 1)
        simp only [Option.toList_some, List.singleton_append, List.length_cons]
        omega

/-- After a wait was asked for, the next one has grown or there is none. -/
theorem told_after_next (hsteady : c.jitter ≤ 0.0) {calls : List Call} {delay : Nat}
    (h : (((start c).afterCalls (calls ++ [.next])).call .next).1 = some delay) :
    delay ≤ c.maxDelay := by
  obtain ⟨n, hn⟩ := afterCalls_start c calls
  rw [afterCalls_concat, hn] at h
  by_cases hmay : (after c n).mayRetry = true
  · have hnext : ((after c n).call .next).2 = after c (n + 1) := by
      simp only [call, next?_of_allowed (mayRetry_after_iff.mp hmay)]
    rw [hnext] at h
    rw [told_after hsteady h]
    exact c.grow_le _
  · have hsame : ((after c n).call .next).2 = after c n := by
      simp only [call, next?, if_neg hmay]
    rw [hsame] at h
    simp only [call, next?, if_neg hmay] at h
    contradiction

/-- Without jitter all waits keep the bound exactly if the initial one does. That one is told first,
and again after each reset; every other wait keeps the bound. Between two resets no more waits are
told than attempts are allowed. -/
theorem waits_bounded_iff (hsteady : c.jitter ≤ 0.0) :
    ((∀ calls, ∀ delay ∈ (start c).waits calls, delay ≤ c.maxDelay) ↔
      c.initialDelay ≤ c.maxDelay) ∧
    (∀ calls delay, (((start c).afterCalls (calls ++ [.next])).call .next).1 = some delay →
      delay ≤ c.maxDelay) ∧
    (∀ calls, (((start c).afterCalls (calls ++ [.reset])).call .next).1 = some c.initialDelay) ∧
    (0 < c.maxAttempts → ∀ before calls,
      (((start c).afterCalls before).waits (List.replicate calls .next)).length ≤
        c.maxAttempts) := by
  have hinitial : ((after c 0).call .next).1 = some c.initialDelay := by
    rw [call, next?_of_allowed (by omega)]
    exact congrArg some (BackoffSettings.spread_of_steady hsteady _)
  refine ⟨⟨fun hbounded => ?_, fun hle calls delay htold => ?_⟩,
    fun calls delay => told_after_next hsteady, fun calls => ?_, fun hlimited before calls => ?_⟩
  · apply hbounded [.next]
    rw [waits, start_eq_after, hinitial]
    exact List.mem_cons_self
  · obtain ⟨before, hbefore⟩ := exists_of_mem_waits htold
    obtain ⟨n, hn⟩ := afterCalls_start c before
    rw [hn] at hbefore
    rw [told_after hsteady hbefore]
    cases n with
    | zero => exact hle
    | succ n => exact c.grow_le _
  · obtain ⟨n, hn⟩ := afterCalls_start c calls
    rw [afterCalls_concat, hn]
    exact hinitial
  · obtain ⟨n, hn⟩ := afterCalls_start c before
    rw [hn]
    exact (length_waits_next_le hlimited calls n).trans (Nat.sub_le _ _)

/-- Three waits from a tenth of a second on, doubled up to four tenths. -/
def doubling : BackoffSettings :=
  { initialDelay := 100, maxDelay := 400, multiplier := 2.0, jitter := 0.0, maxAttempts := 3 }

theorem doubling_waits_bounded :
    doubling.jitter ≤ 0.0 ∧
      (start doubling).waits [.next, .next, .reset, .next, .next, .next, .next] =
        [100, 200, 100, 200, 400] ∧
      (∀ calls, ∀ delay ∈ (start doubling).waits calls, delay ≤ 400) ∧
      ∀ before calls,
        (((start doubling).afterCalls before).waits (List.replicate calls .next)).length ≤ 3 := by
  have hsteady : doubling.jitter ≤ 0.0 := by decide
  obtain ⟨hbounded, -, -, hfew⟩ := waits_bounded_iff hsteady
  exact ⟨hsteady, by decide +kernel, hbounded.mpr (by decide), hfew (by decide)⟩

/-- The same waits, cut at half a tenth. -/
def cutShort : BackoffSettings := { doubling with maxDelay := 50 }

/-- The first wait is twice as long as any should be, and so is the first one after a reset. -/
theorem initial_wait_exceeds_bound :
    cutShort.jitter ≤ 0.0 ∧ cutShort.maxDelay = 50 ∧
      (start cutShort).waits [.next, .next, .reset, .next] = [100, 50, 100] := by
  refine ⟨by decide, rfl, by decide +kernel⟩

end Backoff
end TradingDesk

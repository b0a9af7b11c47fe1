import TradingDesk.Proofs.Backoff
import TradingDesk.Proofs.Store.AppendOnly
/-!
# Writes that are tried again

A write that is refused is tried again after each wait of its schedule, however the store fails. It
ends with the first attempt that succeeds, or with the last one that the schedule allows, and
only the one that succeeds leaves a trace.
-/

namespace TradingDesk
namespace Store

variable {s : Store} {w : Write}

/-! ### One attempt -/

theorem attempt_of_failing (hfailing : 0 < s.failures) (w : Write) (schedule : Backoff)
    (now : Instant) :
    s.attempt w schedule now =
      (match schedule.next? with
        | some (delay, schedule) => .waiting delay schedule
        | none => .givenUp (.storeWrite writeFault.message),
        s.failNext (s.failures - 1)) := by
  rw [attempt, perform_of_failing hfailing]
  cases schedule.next? <;> rfl

theorem attempt_of_ok (schedule : Backoff) {now : Instant} {sequence : Nat} {s' : Store}
    (hperform : s.perform w now = (.ok sequence, s')) :
    s.attempt w schedule now = (.done sequence, s') := by
  rw [attempt, hperform]

/-- What a write that succeeded makes of a store. An append leaves one document of its name, the one
that was there or a new one at the end; an upsert replaces its document. Nothing else is touched. -/
def Wrote (s : Store) (w : Write) (now : Instant) (sequence : Nat) (s' : Store) : Prop :=
  match w with
  | .append collection id body =>
    ((s'.documents collection).map (·.id)).count id = 1 ∧
      (∃ d ∈ s'.documents collection, d.id = id ∧ d.sequence = sequence) ∧
      s'.documents collection = s.documents collection ++
        (if id ∈ (s.documents collection).map (·.id) then []
          else [⟨collection, sequence, id, body, now⟩]) ∧
      (∀ c ≠ collection, s'.documents c = s.documents c) ∧
      ∀ c id', s'.fetch? c id' = s.fetch? c id'
  | .upsert collection id body =>
    (∀ c, s'.documents c = s.documents c) ∧
      ∀ c id', s'.fetch? c id' = if c = collection ∧ id' = id then some body else s.fetch? c id'

theorem wrote_append (hnumbered : s.Numbered) (hindexed : s.Indexed) (hready : s.failures = 0)
    (collection id : String) (body : Json) (now : Instant) :
    ∃ sequence s', s.append collection id body now = (.ok sequence, s') ∧
      s.Wrote (.append collection id body) now sequence s' := by
  have hothers : ∀ c ≠ collection,
      (s.append collection id body now).2.documents c = s.documents c :=
    fun c hne => documents_append_of_ne hne id body now
  have hkeyed := s.fetch?_append collection id body now
  have hnames := (hindexed.append collection id body now).names_nodup
    (hnumbered.append collection id body now) collection
  by_cases hknown : id ∈ (s.documents collection).map (·.id)
  · obtain ⟨d, hd, rfl⟩ := List.mem_map.mp hknown
    have happend := hindexed.append_known hready hd body now
    rw [happend] at hothers hkeyed hnames
    refine ⟨_, _, happend, List.count_eq_one_of_mem hnames hknown, ⟨d, hd, rfl, rfl⟩, ?_, hothers,
      hkeyed⟩
    rw [if_pos hknown, List.append_nil]
  · have hnew : ∀ d ∈ s.documents collection, d.id ≠ id :=
      fun d hd heq => hknown (List.mem_map.mpr ⟨d, hd, heq⟩)
    have happend := hindexed.append_new hready hnew body now
    rw [happend] at hothers hkeyed hnames
    have hdocuments := documents_commit s
      ⟨collection, s.head collection + 1, id, body, now⟩ collection
    rw [if_pos rfl] at hdocuments
    have hlast : ⟨collection, s.head collection + 1, id, body, now⟩ ∈
        (s.commit ⟨collection, s.head collection + 1, id, body, now⟩).documents collection := by
      rw [hdocuments]
      exact List.mem_concat_self
    refine ⟨_, _, happend, ?_, ⟨_, hlast, rfl, rfl⟩, ?_, hothers, hkeyed⟩
    · exact List.count_eq_one_of_mem hnames (List.mem_map.mpr ⟨_, hlast, rfl⟩)
    · rw [if_neg hknown, hdocuments]

/-- A write that the store does not refuse succeeds. -/
theorem wrote_perform (hnumbered : s.Numbered) (hindexed : s.Indexed) (hready : s.failures = 0)
    (w : Write) (now : Instant) :
    ∃ sequence s', s.perform w now = (.ok sequence, s') ∧ s.Wrote w now sequence s' := by
  cases w with
  | append collection id body => exact wrote_append hnumbered hindexed hready collection id body now
  | upsert collection id body =>
      obtain ⟨s', hupsert, hdocuments, hkeyed⟩ :=
        hindexed.writesToLogs.keyed hready collection id body
      refine ⟨0, s', ?_, hdocuments, hkeyed⟩
      rw [perform, hupsert]
      rfl

/-! ### A run of attempts -/

/-- A write under way while nobody else writes. -/
structure Persisting where
  store : Store
  schedule : Backoff
  /-- How often the write was attempted. -/
  attempts : Nat
  /-- The time that was spent on waits. -/
  elapsed : Nat
  answer : Option (Except Fault Nat)

namespace Persisting

def start (s : Store) (retry : BackoffSettings) : Persisting where
  store := s.failNext 0
  schedule := Backoff.start retry
  attempts := 0
  elapsed := 0
  answer := none

/-- Attempts the write once more, if it was not answered; `fails` says whether the store refuses. -/
def next (w : Write) (clock : Nat → Instant) (x : Persisting) (fails : Bool) : Persisting :=
  match x.answer with
  | some _ => x
  | none =>
    let (result, store) :=
      (x.store.failNext (if fails then 1 else 0)).attempt w x.schedule (clock x.elapsed)
    let x := { x with store, attempts := x.attempts + 1 }
    match result with
    | .done sequence => { x with answer := some (.ok sequence) }
    | .waiting delay schedule => { x with schedule, elapsed := x.elapsed + delay }
    | .givenUp e => { x with answer := some (.error e) }

/-- A write after `n` attempts on a store that fails at those that `fails` tells, or after fewer if
it was answered before. -/
def run (s : Store) (w : Write) (retry : BackoffSettings) (clock : Nat → Instant)
    (fails : Nat → Bool) : Nat → Persisting
  | 0 => start s retry
  | n + 1 => (run s w retry clock fails n).next w clock (fails n)

variable {retry : BackoffSettings} {clock : Nat → Instant} {fails : Nat → Bool} {n : Nat}

theorem run_succ : run s w retry clock fails (n + 1) =
    (run s w retry clock fails n).next w clock (fails n) := rfl

/-- After an answer nothing happens any more. -/
theorem run_of_answered {answer : Except Fault Nat}
    (h : (run s w retry clock fails n).answer = some answer) {m : Nat} (hle : n ≤ m) :
    run s w retry clock fails m = run s w retry clock fails n := by
  induction m, hle using Nat.le_induction with
  | base => rfl
  | succ m hle ih => rw [run_succ, ih, next, h]

/-- While all attempts fail that the schedule allows, only time passes. -/
theorem run_of_failing (hsteady : retry.jitter ≤ 0.0)
    (hallowed : retry.maxAttempts = 0 ∨ n ≤ retry.maxAttempts)
    (hfails : ∀ i < n, fails i = true) :
    run s w retry clock fails n =
      { store := s.failNext 0, schedule := Backoff.after retry n, attempts := n,
        elapsed := retry.waited n, answer := none } := by
  induction n with
  | zero => rfl
  | succ n ih =>
      have hrun := ih (by omega) fun i hi => hfails i (by omega)
      have hnext : (Backoff.after retry n).next? =
          some (retry.delay n, Backoff.after retry (n + 1)) := by
        rw [Backoff.next?_of_allowed (by omega), BackoffSettings.spread_of_steady hsteady]
      have hattempt := attempt_of_failing (s := s.failNext 1) Nat.one_pos w
        (Backoff.after retry n) (clock (retry.waited n))
      rw [hnext] at hattempt
      rw [run_succ, hrun, hfails n (Nat.lt_succ_self n), BackoffSettings.waited_succ]
      simp only [next, if_true, failNext] at hattempt ⊢
      rw [hattempt]

/-- The first attempt that the store does not refuse ends the write. -/
theorem run_of_success (hsteady : retry.jitter ≤ 0.0)
    (hallowed : retry.maxAttempts = 0 ∨ n ≤ retry.maxAttempts)
    (hfails : ∀ i < n, fails i = true) (hsuccess : fails n = false) {sequence : Nat} {s' : Store}
    (hperform : (s.failNext 0).perform w (clock (retry.waited n)) = (.ok sequence, s')) :
    run s w retry clock fails (n + 1) =
      { store := s', schedule := Backoff.after retry n, attempts := n + 1,
        elapsed := retry.waited n, answer := some (.ok sequence) } := by
  have hattempt := attempt_of_ok (Backoff.after retry n) hperform
  rw [run_succ, run_of_failing hsteady hallowed hfails, hsuccess]
  simp only [next, failNext, Bool.false_eq_true, if_false] at hattempt ⊢
  rw [hattempt]

/-- When the last attempt that is allowed has failed, the write is given up. -/
theorem run_of_exhausted (w : Write) (clock : Nat → Instant) (hsteady : retry.jitter ≤ 0.0)
    (hlimited : 0 < retry.maxAttempts)
    (hfails : ∀ i ≤ retry.maxAttempts, fails i = true) :
    run s w retry clock fails (retry.maxAttempts + 1) =
      { store := s.failNext 0, schedule := Backoff.after retry retry.maxAttempts,
        attempts := retry.maxAttempts + 1, elapsed := retry.waited retry.maxAttempts,
        answer := some (.error (.storeWrite writeFault.message)) } := by
  have hattempt := attempt_of_failing (s := s.failNext 1) Nat.one_pos w
    (Backoff.after retry retry.maxAttempts) (clock (retry.waited retry.maxAttempts))
  rw [Backoff.next?_of_spent hlimited (Nat.le_refl _)] at hattempt
  rw [run_succ, run_of_failing hsteady (.inr (Nat.le_refl _)) fun i hi => hfails i hi.le,
    hfails _ (Nat.le_refl _)]
  simp only [next, if_true, failNext] at hattempt ⊢
  rw [hattempt]

/-! ### What becomes of a write -/

/-- Of all attempts that might be made this is the first that succeeds. -/
def FirstSuccess (fails : Nat → Bool) (i : Nat) : Prop := fails i = false ∧ ∀ j < i, fails j = true

theorem exists_firstSuccess {i : Nat} (h : fails i = false) :
    ∃ first ≤ i, FirstSuccess fails first := by
  have hsome : ∃ i, fails i = false := ⟨i, h⟩
  refine ⟨Nat.find hsome, Nat.find_le h, Nat.find_spec hsome, fun j hj => ?_⟩
  exact Bool.eq_true_of_not_eq_false (Nat.find_min hsome hj)

/-- A write that succeeded with an attempt, after the waits before it. -/
structure Landed (s : Store) (w : Write) (retry : BackoffSettings) (clock : Nat → Instant)
    (i : Nat) (x : Persisting) : Prop where
  attempts : x.attempts = i + 1
  elapsed : x.elapsed = retry.waited i
  wrote : ∃ sequence, x.answer = some (.ok sequence) ∧ s.Wrote w (clock x.elapsed) sequence x.store

/-- A write that was given up with the last attempt. -/
structure GivenUp (s : Store) (retry : BackoffSettings) (x : Persisting) : Prop where
  attempts : x.attempts = retry.maxAttempts + 1
  elapsed : x.elapsed = retry.waited retry.maxAttempts
  answer : ∃ detail, x.answer = some (.error (.storeWrite detail))
  same : s.SameDocuments x.store

theorem landed_of_success (hnumbered : s.Numbered) (hindexed : s.Indexed)
    (hsteady : retry.jitter ≤ 0.0) {i : Nat}
    (hallowed : retry.maxAttempts = 0 ∨ i ≤ retry.maxAttempts) (hfirst : FirstSuccess fails i)
    (hn : i < n) : Landed s w retry clock i (run s w retry clock fails n) := by
  obtain ⟨hsuccess, hfails⟩ := hfirst
  obtain ⟨sequence, s', hperform, hwrote⟩ :=
    wrote_perform (s := s.failNext 0) hnumbered hindexed rfl w (clock (retry.waited i))
  have hrun := run_of_success hsteady hallowed hfails hsuccess hperform
  have hanswered : (run s w retry clock fails (i + 1)).answer = some (.ok sequence) := by rw [hrun]
  rw [run_of_answered hanswered hn, hrun]
  exact ⟨rfl, rfl, sequence, rfl, hwrote⟩

theorem givenUp_of_exhausted (hsteady : retry.jitter ≤ 0.0) (hlimited : 0 < retry.maxAttempts)
    (hfails : ∀ i ≤ retry.maxAttempts, fails i = true) (hn : retry.maxAttempts < n) :
    GivenUp s retry (run s w retry clock fails n) := by
  have hrun := run_of_exhausted (s := s) w clock hsteady hlimited hfails
  have hanswered : (run s w retry clock fails (retry.maxAttempts + 1)).answer =
      some (.error (.storeWrite writeFault.message)) := by rw [hrun]
  rw [run_of_answered hanswered hn, hrun]
  exact ⟨rfl, rfl, ⟨_, rfl⟩, fun _ => rfl, fun _ _ => rfl⟩

/-- Whatever the store does, a write is under way, has succeeded or was given up. -/
theorem run_cases (hnumbered : s.Numbered) (hindexed : s.Indexed) (hsteady : retry.jitter ≤ 0.0)
    (w : Write) (clock : Nat → Instant) (fails : Nat → Bool) (n : Nat) :
    ((retry.maxAttempts = 0 ∨ n ≤ retry.maxAttempts) ∧ (∀ i < n, fails i = true) ∧
        (run s w retry clock fails n).answer = none ∧
        (run s w retry clock fails n).attempts = n) ∨
      (∃ i < n, (retry.maxAttempts = 0 ∨ i ≤ retry.maxAttempts) ∧ FirstSuccess fails i ∧
        Landed s w retry clock i (run s w retry clock fails n)) ∨
      (0 < retry.maxAttempts ∧ retry.maxAttempts < n ∧
        (∀ i ≤ retry.maxAttempts, fails i = true) ∧
        GivenUp s retry (run s w retry clock fails n)) := by
  by_cases hsuccess : ∃ i < n, (retry.maxAttempts = 0 ∨ i ≤ retry.maxAttempts) ∧ fails i = false
  · obtain ⟨i, hi, hallowed, hi'⟩ := hsuccess
    obtain ⟨first, hle, hfirst⟩ := exists_firstSuccess hi'
    have hallowed' : retry.maxAttempts = 0 ∨ first ≤ retry.maxAttempts := by omega
    exact .inr (.inl ⟨first, by omega, hallowed', hfirst,
      landed_of_success hnumbered hindexed hsteady hallowed' hfirst (by omega)⟩)
  · have hfails : ∀ i < n, (retry.maxAttempts = 0 ∨ i ≤ retry.maxAttempts) → fails i = true :=
      fun i hi hallowed => Bool.eq_true_of_not_eq_false fun h => hsuccess ⟨i, hi, hallowed, h⟩
    by_cases hallowed : retry.maxAttempts = 0 ∨ n ≤ retry.maxAttempts
    · have hall : ∀ i < n, fails i = true := fun i hi => hfails i hi (by omega)
      refine .inl ⟨hallowed, hall, ?_⟩
      rw [run_of_failing hsteady hallowed hall]
      exact ⟨rfl, rfl⟩
    · have hall : ∀ i ≤ retry.maxAttempts, fails i = true :=
        fun i hi => hfails i (by omega) (.inr hi)
      exact .inr (.inr ⟨by omega, by omega, hall,
        givenUp_of_exhausted hsteady (by omega) hall (by omega)⟩)

/-- What becomes of a write for a pattern of failures. -/
structure Obeys (s : Store) (w : Write) (retry : BackoffSettings) (clock : Nat → Instant)
    (fails : Nat → Bool) : Prop where
  /-- No more attempts are made than are allowed. -/
  attempts : 0 < retry.maxAttempts → ∀ n,
    (run s w retry clock fails n).attempts ≤ retry.maxAttempts + 1
  /-- The write is answered when those are made, with success just if one of them succeeds. -/
  succeeds : 0 < retry.maxAttempts → ∀ n, retry.maxAttempts < n →
    ((∃ sequence, (run s w retry clock fails n).answer = some (.ok sequence)) ↔
      ∃ i ≤ retry.maxAttempts, fails i = false)
  landed : ∀ i, (retry.maxAttempts = 0 ∨ i ≤ retry.maxAttempts) → FirstSuccess fails i →
    ∀ n, i < n → Landed s w retry clock i (run s w retry clock fails n)
  givenUp : 0 < retry.maxAttempts → (∀ i ≤ retry.maxAttempts, fails i = true) →
    ∀ n, retry.maxAttempts < n → GivenUp s retry (run s w retry clock fails n)
  /-- Without a limit no fault is ever answered. -/
  unlimited : retry.maxAttempts = 0 → ∀ n fault,
    (run s w retry clock fails n).answer ≠ some (.error fault)

theorem obeys (hnumbered : s.Numbered) (hindexed : s.Indexed) (hsteady : retry.jitter ≤ 0.0)
    (w : Write) (clock : Nat → Instant) (fails : Nat → Bool) : Obeys s w retry clock fails where
  attempts hlimited n := by
    rcases run_cases hnumbered hindexed hsteady w clock fails n with
      ⟨hallowed, -, -, hattempts⟩ | ⟨i, hi, hallowed, -, hlanded⟩ | ⟨-, -, -, hgivenUp⟩
    · omega
    · have hattempts := hlanded.attempts
      omega
    · exact hgivenUp.attempts.le
  succeeds hlimited n hn := by
    rcases run_cases hnumbered hindexed hsteady w clock fails n with
      ⟨hallowed, -, -, -⟩ | ⟨i, hi, hallowed, hfirst, hlanded⟩ | ⟨-, -, hfails, hgivenUp⟩
    · omega
    · obtain ⟨sequence, hanswer, -⟩ := hlanded.wrote
      exact iff_of_true ⟨sequence, hanswer⟩ ⟨i, by omega, hfirst.1⟩
    · obtain ⟨detail, hanswer⟩ := hgivenUp.answer
      refine iff_of_false ?_ ?_
      · rintro ⟨sequence, hok⟩
        rw [hanswer] at hok
        cases hok
      · rintro ⟨i, hi, hsuccess⟩
        rw [hfails i hi] at hsuccess
        contradiction
  landed i hallowed hfirst n hn := landed_of_success hnumbered hindexed hsteady hallowed hfirst hn
  givenUp hlimited hfails n hn := givenUp_of_exhausted hsteady hlimited hfails hn
  unlimited hunlimited n fault := by
    rcases run_cases hnumbered hindexed hsteady w clock fails n with
      ⟨-, -, hnone, -⟩ | ⟨i, -, -, -, hlanded⟩ | ⟨hlimited, -, -, -⟩
    · rw [hnone]
      exact nofun
    · obtain ⟨sequence, hanswer, -⟩ := hlanded.wrote
      rw [hanswer]
      exact nofun
    · omega

/-! ### A store that was told how often it fails -/

/-- What a write has come to, on a store that was told of so many failures. -/
def result? (x : Persisting) (failures : Nat) : Option (Except Fault Nat × Nat × Store) :=
  x.answer.map fun answer => (answer, x.elapsed, x.store.failNext (failures - x.attempts))

theorem failures_perform (hready : s.failures = 0) (w : Write) (now : Instant) :
    (s.perform w now).2.failures = 0 := by
  cases w with
  | append collection id body =>
      rw [perform, append_eq, if_neg (by omega)]
      split <;> exact hready
  | upsert collection id body =>
      rw [perform, upsert_eq, if_neg (by omega)]
      exact hready

/-- From each attempt on, by induction on the failures that are still to come. -/
theorem result?_eq_go (hnumbered : s.Numbered) (hindexed : s.Indexed) (hsteady : retry.jitter ≤ 0.0)
    {failures left : Nat} (hleft : n + left = failures)
    (hallowed : retry.maxAttempts = 0 ∨ n ≤ retry.maxAttempts) :
    (run s w retry clock (fun i => decide (i < failures)) (failures + 1)).result? failures =
      some (persist.go w clock (left + 1) (s.failNext left) (Backoff.after retry n)
        (retry.waited n)) := by
  have hfails : ∀ i < failures, decide (i < failures) = true := fun i hi => decide_eq_true hi
  induction left generalizing n with
  | zero =>
      obtain rfl : n = failures := hleft
      obtain ⟨sequence, s', hperform, -⟩ := wrote_perform (s := s.failNext 0) hnumbered hindexed rfl
        w (clock (retry.waited n))
      have hready : s'.failures = 0 := by
        have hkept := failures_perform (s := s.failNext 0) rfl w (clock (retry.waited n))
        rwa [hperform] at hkept
      have hsame : s'.failNext (n - (n + 1)) = s' := by
        rw [Nat.sub_eq_zero_of_le (Nat.le_succ n), failNext, ← hready]
      rw [run_of_success hsteady hallowed hfails (by simp) hperform, persist.go,
        attempt_of_ok _ hperform]
      simp only [result?, Option.map_some, hsame]
  | succ left ih =>
      rw [persist.go, attempt_of_failing (Nat.succ_pos left)]
      by_cases hmore : retry.maxAttempts = 0 ∨ n < retry.maxAttempts
      · rw [Backoff.next?_of_allowed hmore, BackoffSettings.spread_of_steady hsteady,
          ih (n := n + 1) (by omega) (by omega), BackoffSettings.waited_succ]
        rfl
      · obtain rfl : n = retry.maxAttempts := by omega
        have hrun := run_of_exhausted (s := s) w clock hsteady (by omega)
          fun i hi => hfails i (by omega)
        have hanswered := congrArg answer hrun
        rw [Backoff.next?_of_spent (by omega) (Nat.le_refl _),
          run_of_answered hanswered (by omega), hrun]
        have hrest : failures - (retry.maxAttempts + 1) = left := by omega
        simp only [result?, Option.map_some, failNext, hrest, Nat.add_sub_cancel]

theorem result?_run (hnumbered : s.Numbered) (hindexed : s.Indexed) (hsteady : retry.jitter ≤ 0.0)
    (w : Write) (clock : Nat → Instant) :
    (run s w retry clock (fun i => decide (i < s.failures)) (s.failures + 1)).result? s.failures =
      some (s.persist w retry clock) :=
  result?_eq_go hnumbered hindexed hsteady (Nat.zero_add _) (.inr (Nat.zero_le _))

end Persisting

/-- A write on a store that any calls have left, which fails at any of its attempts, ends with the
first that succeeds, or is given up after the last that the schedule allows and leaves no trace. So
it is when the store was told how often it fails. -/
theorem retried_writes_obey_schedule (calls : List Call) {retry : BackoffSettings}
    (hsteady : retry.jitter ≤ 0.0) (w : Write) (clock : Nat → Instant) :
    (∀ fails, Persisting.Obeys (ofCalls calls) w retry clock fails) ∧
      (Persisting.run (ofCalls calls) w retry clock
          (fun i => decide (i < (ofCalls calls).failures)) ((ofCalls calls).failures + 1)).result?
        (ofCalls calls).failures = some ((ofCalls calls).persist w retry clock) := by
  obtain ⟨hnumbered, hindexed⟩ := ofCalls_sound calls
  exact ⟨Persisting.obeys hnumbered hindexed hsteady w clock,
    Persisting.result?_run hnumbered hindexed hsteady w clock⟩

/-- An order that is refused twice lands with the third attempt, three tenths of a second late. -/
theorem third_attempt_lands :
    Backoff.doubling.jitter ≤ 0.0 ∧ Backoff.doubling.waited 2 = 300 ∧
      Persisting.Landed (ofCalls []) (.append "orders" "o-1" .null) Backoff.doubling
        (fun _ => ⟨0, 0⟩) 2
        (Persisting.run (ofCalls []) (.append "orders" "o-1" .null) Backoff.doubling
          (fun _ => ⟨0, 0⟩) (fun i => decide (i < 2)) 3) := by
  have hsteady : Backoff.doubling.jitter ≤ 0.0 := by decide
  obtain ⟨hobeys, -⟩ := retried_writes_obey_schedule [] hsteady
    (.append "orders" "o-1" .null) fun _ => ⟨0, 0⟩
  exact ⟨hsteady, by decide +kernel,
    (hobeys _).landed 2 (.inr (by decide)) ⟨by decide, by decide⟩ 3 (by decide)⟩

end Store
end TradingDesk

import TradingDesk.Watcher
import Mathlib.Tactic
/-!
# What one poll delivers

As long as nothing else happens, a poll tells a subscriber of the stored documents that follow on
its cursor one by one, as many as the batch and its queue allow. The bounds come from different
places: the batch cuts the answer, a gap cuts what of it follows on the cursor, and the queue stops
taking.
-/

namespace TradingDesk
namespace Watcher

/-! ### Queries -/

/-- What a query may answer: stored documents behind a sequence in order, at most `limit`. -/
structure Answers (stored : List Document) (after limit : Nat) (answer : List Document) :
    Prop where
  mem : ∀ d ∈ answer, d ∈ stored
  behind : ∀ d ∈ answer, after < d.sequence
  ordered : answer.Pairwise fun a b => a.sequence < b.sequence
  length_le : answer.length ≤ limit

/-- An answer that leaves out no document but behind its last one, when it is full. -/
structure FirstAnswers (stored : List Document) (after limit : Nat) (answer : List Document) :
    Prop extends Answers stored after limit answer where
  first : ∀ d ∈ stored, after < d.sequence →
    d ∈ answer ∨ (answer.length = limit ∧ ∀ a ∈ answer, a.sequence < d.sequence)

/-- The documents behind a sequence in a list that is in order. -/
theorem firstAnswers_filter {stored : List Document}
    (hordered : stored.Pairwise fun a b => a.sequence < b.sequence) (after limit : Nat) :
    FirstAnswers stored after limit ((stored.filter (after < ·.sequence)).take limit) := by
  have hfiltered := hordered.sublist
    (List.filter_sublist (p := fun d => decide (after < d.sequence)))
  constructor
  · constructor
    · exact fun d hd => List.mem_of_mem_filter (List.mem_of_mem_take hd)
    · exact fun d hd => by simpa using List.of_mem_filter (List.mem_of_mem_take hd)
    · exact hfiltered.sublist (List.take_sublist _ _)
    · simp
  · intro d hd hlt
    have hmem : d ∈ stored.filter (after < ·.sequence) := by simp [hd, hlt]
    rw [← List.take_append_drop limit (stored.filter (after < ·.sequence)), List.mem_append] at hmem
    rcases hmem with hmem | hmem
    · exact .inl hmem
    · have hlong := List.length_pos_of_mem hmem
      rw [List.length_drop] at hlong
      refine .inr ⟨by rw [List.length_take]; omega, ?_⟩
      intro a ha
      rw [← List.take_append_drop limit (stored.filter (after < ·.sequence))] at hfiltered
      exact (List.pairwise_append.mp hfiltered).2.2 a ha d hmem

theorem exists_missing (stored : List Document) (after : Nat) :
    ∃ k, after + k + 1 ∉ stored.map (·.sequence) := by
  refine ⟨(stored.map (·.sequence)).sum, fun hmem => ?_⟩
  have hle := List.le_sum_of_mem hmem
  omega

/-- How many of the sequences behind a sequence are stored without a gap. -/
def run (stored : List Document) (after : Nat) : Nat := Nat.find (exists_missing stored after)

theorem mem_of_lt_run {stored : List Document} {after k : Nat} (hlt : k < run stored after) :
    after + k + 1 ∈ stored.map (·.sequence) :=
  not_not.mp (Nat.find_min (exists_missing stored after) hlt)

theorem not_mem_run (stored : List Document) (after : Nat) :
    after + run stored after + 1 ∉ stored.map (·.sequence) :=
  Nat.find_spec (exists_missing stored after)

theorem le_run {stored : List Document} {after k : Nat}
    (h : ∀ i < k, after + i + 1 ∈ stored.map (·.sequence)) : k ≤ run stored after := by
  by_contra hlt
  exact not_mem_run stored after (h _ (by omega))

/-- How many documents follow on a sequence one by one. -/
def streak : Nat → List Document → Nat
  | _, [] => 0
  | after, d :: ds => if d.sequence = after + 1 then streak (after + 1) ds + 1 else 0

theorem streak_le_length (after : Nat) (ds : List Document) : streak after ds ≤ ds.length := by
  induction ds generalizing after with
  | nil => simp [streak]
  | cons d rest ih =>
      unfold streak
      split
      · have hle := ih (after + 1)
        rw [List.length_cons]
        omega
      · simp

theorem mem_of_lt_streak {after i : Nat} {ds : List Document} (hlt : i < streak after ds) :
    after + i + 1 ∈ ds.map (·.sequence) := by
  induction ds generalizing after i with
  | nil => simp [streak] at hlt
  | cons d rest ih =>
      unfold streak at hlt
      split at hlt
      · next heq =>
        rw [List.map_cons, List.mem_cons]
        cases i with
        | zero => exact .inl heq.symm
        | succ i =>
            have hmem := @ih (after + 1) i (by omega)
            rw [Nat.add_right_comm after 1 i] at hmem
            exact .inr hmem
      · omega

/-- What follows on the streak of an answer lies behind a gap. -/
theorem streak_gap {after : Nat} {ds : List Document} (hbehind : ∀ d ∈ ds, after < d.sequence)
    (hordered : ds.Pairwise fun a b => a.sequence < b.sequence) :
    ∀ d ∈ ds, d.sequence ≤ after + streak after ds ∨ after + streak after ds + 1 < d.sequence := by
  induction ds generalizing after with
  | nil => simp
  | cons d rest ih =>
      obtain ⟨hfirst, hrest⟩ := List.pairwise_cons.mp hordered
      have hd := hbehind d List.mem_cons_self
      unfold streak
      split
      · next heq =>
        have hgap := @ih (after + 1) (fun a ha => heq ▸ hfirst a ha) hrest
        intro a ha
        rcases List.mem_cons.mp ha with rfl | ha
        · exact .inl (by omega)
        · rcases hgap a ha with hle | hlt
          · exact .inl (by omega)
          · exact .inr (by omega)
      · next hne =>
        intro a ha
        rcases List.mem_cons.mp ha with rfl | ha
        · exact .inr (by omega)
        · have hlt := hfirst a ha
          exact .inr (by omega)

theorem exists_behind_streak {after : Nat} {ds : List Document}
    (hbehind : ∀ d ∈ ds, after < d.sequence)
    (hordered : ds.Pairwise fun a b => a.sequence < b.sequence)
    (hlt : streak after ds < ds.length) :
    ∃ d ∈ ds, after + streak after ds < d.sequence := by
  induction ds generalizing after with
  | nil => simp at hlt
  | cons d rest ih =>
      obtain ⟨hfirst, hrest⟩ := List.pairwise_cons.mp hordered
      unfold streak at hlt ⊢
      split
      · next heq =>
        rw [if_pos heq, List.length_cons] at hlt
        obtain ⟨a, ha, hgt⟩ :=
          @ih (after + 1) (fun a ha => heq ▸ hfirst a ha) hrest (by omega)
        exact ⟨a, List.mem_cons_of_mem d ha, by omega⟩
      · exact ⟨d, List.mem_cons_self, hbehind d List.mem_cons_self⟩

/-- The first documents behind a sequence follow on it as far as the batch and the gaps allow. -/
theorem FirstAnswers.streak_eq {stored answer : List Document} {after limit : Nat}
    (h : FirstAnswers stored after limit answer) :
    streak after answer = min limit (run stored after) := by
  have hlength := streak_le_length after answer
  have hlimit := h.length_le
  have hrun : streak after answer ≤ run stored after := by
    apply le_run
    intro i hi
    obtain ⟨d, hd, hsequence⟩ := List.mem_map.mp (mem_of_lt_streak hi)
    exact List.mem_map.mpr ⟨d, h.mem d hd, hsequence⟩
  by_contra hne
  have hlt : streak after answer < run stored after := by omega
  obtain ⟨d, hd, hsequence⟩ := List.mem_map.mp (mem_of_lt_run hlt)
  rcases h.first d hd (by omega) with hmem | ⟨hfull, hbefore⟩
  · -- the next document is in the answer, but not where the streak could go on
    rcases streak_gap h.behind h.ordered d hmem with hle | hgt <;> omega
  · -- the answer is full without the next document, so that the streak is as long as the batch
    obtain ⟨a, ha, hgt⟩ := exists_behind_streak h.behind h.ordered (by omega)
    have hlast := hbefore a ha
    rcases streak_gap h.behind h.ordered a ha with hle | hgt' <;> omega

/-! ### Queues -/

theorem Queues.get_set_of_ne (queues : Queues) {i j : Nat} (hne : i ≠ j) (q : Queue) :
    Queues.get (queues.set i q) j = Queues.get queues j := by
  simp [Queues.get, List.getElem?_set_ne hne]

theorem Queues.get_set_self (queues : Queues) {i : Nat} (hlt : i < queues.length) (q : Queue) :
    Queues.get (queues.set i q) i = q := by
  simp [Queues.get, hlt]

theorem Queues.get_of_le (queues : Queues) {i : Nat} (hle : queues.length ≤ i) :
    Queues.get queues i = default := by
  simp [Queues.get, hle]

theorem Queues.set_get_self (queues : Queues) (i : Nat) :
    queues.set i (Queues.get queues i) = queues := by
  by_cases hlt : i < queues.length
  · simp [Queues.get, hlt]
  · exact List.set_eq_of_length_le (by omega)

theorem Queues.get_open (queues : Queues) (capacity i : Nat) :
    (Queues.get (queues ++ [⟨capacity, [], false⟩]) i).events = (Queues.get queues i).events := by
  rcases Nat.lt_trichotomy i queues.length with hlt | rfl | hgt
  · simp [Queues.get, List.getElem?_append_left hlt]
  · simp [Queues.get]
    rfl
  · rw [Queues.get_of_le queues hgt.le, Queues.get_of_le _ (by simpa using hgt)]

/-- A push that succeeds puts the event at the end of a queue that there is. -/
theorem push_eq_pushed {queues : Queues} {i : Nat} {e : ChangeEvent} {q : Queue}
    (h : (Queues.get queues i).push e = .pushed q) :
    i < queues.length ∧ q.events = (Queues.get queues i).events ++ [e] := by
  unfold Queue.push at h
  split at h
  · contradiction
  · split at h
    · contradiction
    · next hroom =>
      cases h
      refine ⟨?_, rfl⟩
      by_contra hle
      rw [Queues.get_of_le queues (by omega)] at hroom
      exact hroom (Nat.zero_le _)

theorem pop?_eq_some {queues : Queues} {i : Nat} {e : ChangeEvent} {q : Queue}
    (h : (Queues.get queues i).pop? = some (e, q)) :
    i < queues.length ∧ (Queues.get queues i).events = e :: q.events := by
  unfold Queue.pop? at h
  split at h
  · contradiction
  · next e' rest hevents =>
    cases h
    refine ⟨?_, hevents⟩
    by_contra hle
    rw [Queues.get_of_le queues (by omega)] at hevents
    contradiction

/-! ### Deliveries -/

/-- How many events a queue still takes. -/
def free (q : Queue) : Nat := q.capacity - q.events.length

theorem deliver_of_open {q : Queue} (hopen : q.closed = false) (ds : List Document)
    (s : Subscriber) {n : Nat} (hn : n = min (streak s.cursor ds) (free q)) :
    ∃ progress, progress ≠ .closed ∧ deliver ds s q =
      (n, progress, { s with cursor := s.cursor + n },
        { q with events := q.events ++ (ds.take n).map Document.event }) := by
  induction ds generalizing s q n with
  | nil =>
      obtain rfl : n = 0 := by simpa [streak] using hn
      exact ⟨.caughtUp, by simp, by simp [deliver]⟩
  | cons d rest ih =>
      unfold streak at hn
      unfold deliver
      split
      · next heq =>
        rw [if_pos heq] at hn
        by_cases hfull : q.capacity ≤ q.events.length
        · obtain rfl : n = 0 := by simp [free] at hn; omega
          have hpush : q.push d.event = .full := by simp [Queue.push, hopen, hfull]
          exact ⟨.blocked, by simp, by simp [hpush]⟩
        · -- the streak and the room in the queue go down together
          let q' : Queue := { q with events := q.events ++ [d.event] }
          have hpush : q.push d.event = .pushed q' := by simp [Queue.push, hopen, hfull, q']
          have hfree : free q = free q' + 1 := by simp [free, q']; omega
          obtain ⟨k, rfl⟩ : ∃ k, n = k + 1 := ⟨n - 1, by omega⟩
          obtain ⟨progress, hprogress, hrest⟩ :=
            @ih q' hopen { s with cursor := s.cursor + 1 } k (by simp only; omega)
          refine ⟨progress, hprogress, ?_⟩
          simp only [hpush, heq, hrest]
          simp [q', Nat.add_assoc, Nat.add_comm 1 k]
      · next hne =>
        obtain rfl : n = 0 := by simpa [hne] using hn
        exact ⟨.blocked, by simp, by simp⟩

theorem deliver_of_closed {q : Queue} (hclosed : q.closed = true) (ds : List Document)
    (s : Subscriber) :
    deliver ds s q = (0, (deliver ds s q).2.1, s, q) ∧
      ((deliver ds s q).2.1 = .closed ↔ 0 < streak s.cursor ds) := by
  cases ds with
  | nil => simp [deliver, streak]
  | cons d rest =>
      unfold deliver streak
      split <;> simp [Queue.push, hclosed]

/-- Either the first document is told of, or the subscriber's turn is over with nothing changed. -/
theorem deliver_cons (d : Document) (rest : List Document) (s : Subscriber) (q : Queue) :
    (∃ q', q.push d.event = .pushed q' ∧ d.sequence = s.cursor + 1 ∧
      deliver [d] s q = (1, .caughtUp, { s with cursor := s.cursor + 1 }, q') ∧
      deliver (d :: rest) s q = ((deliver rest { s with cursor := s.cursor + 1 } q').1 + 1,
        (deliver rest { s with cursor := s.cursor + 1 } q').2)) ∨
    ∃ progress, progress ≠ .caughtUp ∧ deliver [d] s q = (0, progress, s, q) ∧
      deliver (d :: rest) s q = (0, progress, s, q) := by
  by_cases heq : d.sequence = s.cursor + 1
  · cases hpush : q.push d.event with
    | pushed q' => exact .inl ⟨q', rfl, heq, by simp [deliver, heq, hpush]⟩
    | full => exact .inr ⟨.blocked, by simp, by simp [deliver, heq, hpush]⟩
    | closed => exact .inr ⟨.closed, by simp, by simp [deliver, heq, hpush]⟩
  · exact .inr ⟨.blocked, by simp, by simp [deliver, heq]⟩

theorem deliver_queue (ds : List Document) (s : Subscriber) (q : Queue) :
    (deliver ds s q).2.2.1.queue = s.queue := by
  induction ds generalizing s q with
  | nil => rfl
  | cons d rest ih =>
      rcases deliver_cons d rest s q with ⟨q', -, -, -, hcons⟩ | ⟨progress, -, -, hcons⟩
      · rw [hcons, ih]
      · rw [hcons]

/-! ### Polls -/

/-- How far a poll brings a subscriber. -/
def advance (stored : List Document) (batch : Nat) (queues : Queues) (s : Subscriber) : Nat :=
  if (Queues.get queues s.queue).closed then 0
  else min batch (min (free (Queues.get queues s.queue)) (run stored s.cursor))

/-- Whether a poll finds out that nobody takes the events of a subscriber any more. -/
def isLost (stored : List Document) (batch : Nat) (queues : Queues) (s : Subscriber) : Bool :=
  (Queues.get queues s.queue).closed && decide (0 < min batch (run stored s.cursor))

theorem advance_set {stored : List Document} {batch : Nat} {queues : Queues} {s : Subscriber}
    {i : Nat} {q : Queue} (hne : s.queue ≠ i) :
    advance stored batch (queues.set i q) s = advance stored batch queues s := by
  rw [advance, Queues.get_set_of_ne queues hne.symm, advance]

theorem isLost_set {stored : List Document} {batch : Nat} {queues : Queues} {s : Subscriber}
    {i : Nat} {q : Queue} (hne : s.queue ≠ i) :
    isLost stored batch (queues.set i q) s = isLost stored batch queues s := by
  rw [isLost, Queues.get_set_of_ne queues hne.symm, isLost]

/-- The subscribers after a poll. -/
def advanced (stored : List Document) (batch : Nat) (queues : Queues) (ss : List Subscriber) :
    List Subscriber :=
  (ss.filter fun s => !isLost stored batch queues s).map fun s =>
    { s with cursor := s.cursor + advance stored batch queues s }

theorem deliver_eq {stored answer : List Document} {batch : Nat} {s : Subscriber} (queues : Queues)
    (h : FirstAnswers stored s.cursor batch answer) :
    ∃ progress q, (progress = .closed ↔ isLost stored batch queues s = true) ∧
      deliver answer s (Queues.get queues s.queue) = (advance stored batch queues s, progress,
        { s with cursor := s.cursor + advance stored batch queues s }, q) := by
  have hstreak := h.streak_eq
  unfold isLost advance
  cases hclosed : (Queues.get queues s.queue).closed with
  | false =>
      obtain ⟨progress, hprogress, hdeliver⟩ := deliver_of_open hclosed answer s rfl
      have hn : min (streak s.cursor answer) (free (Queues.get queues s.queue)) =
          min batch (min (free (Queues.get queues s.queue)) (run stored s.cursor)) := by
        rw [hstreak]
        omega
      rw [hn] at hdeliver
      exact ⟨progress, _, by simpa using hprogress, by simpa using hdeliver⟩
  | true =>
      obtain ⟨hdeliver, hlost⟩ := deliver_of_closed hclosed answer s
      rw [hstreak] at hlost
      exact ⟨_, _, by simpa using hlost, by simpa using hdeliver⟩

theorem pollEach_eq {τ : Type} {lookup : Lookup τ} {stored : List Document} {batch : Nat}
    (hlookup : ∀ source after, ∃ answer source', lookup source after batch = (.ok answer, source') ∧
      FirstAnswers stored after batch answer)
    {ss : List Subscriber} (hnodup : (ss.map (·.queue)).Nodup) (queues : Queues) (source : τ)
    (told : Nat) :
    (pollEach lookup batch ss queues source told).result =
        .ok (told + (ss.map (advance stored batch queues)).sum) ∧
      (pollEach lookup batch ss queues source told).subscribers =
        advanced stored batch queues ss := by
  induction ss generalizing queues source told with
  | nil => simp [pollEach, advanced]
  | cons s rest ih =>
      obtain ⟨hnew, hrest⟩ := List.nodup_cons.mp hnodup
      obtain ⟨answer, source', hanswer, hfirst⟩ := hlookup source s.cursor
      obtain ⟨progress, q, hprogress, hdeliver⟩ := deliver_eq queues hfirst
      -- what the others are told of does not depend on this subscriber's queue
      have hothers : ∀ s' ∈ rest, s'.queue ≠ s.queue := by
        intro s' hs' heq
        exact hnew (List.mem_map.mpr ⟨s', hs', heq⟩)
      have hrestAdvance : rest.map (advance stored batch (queues.set s.queue q)) =
          rest.map (advance stored batch queues) := by
        apply List.map_congr_left
        intro s' hs'
        rw [advance_set (hothers s' hs')]
      have hrestAdvanced : advanced stored batch (queues.set s.queue q) rest =
          advanced stored batch queues rest := by
        unfold advanced
        rw [List.filter_congr fun s' hs' => by rw [isLost_set (hothers s' hs')]]
        apply List.map_congr_left
        intro s' hs'
        rw [advance_set (hothers s' (List.mem_of_mem_filter hs'))]
      obtain ⟨hresult, hsubscribers⟩ := ih hrest (queues.set s.queue q) source'
        (told + advance stored batch queues s)
      rw [hrestAdvance] at hresult
      rw [hrestAdvanced] at hsubscribers
      unfold pollEach
      simp only [hanswer, hdeliver]
      by_cases hlost : progress = .closed
      · have hgone := hprogress.mp hlost
        rw [if_pos hlost]
        refine ⟨?_, ?_⟩
        · rw [hresult, List.map_cons, List.sum_cons, Nat.add_assoc]
        · rw [hsubscribers]
          simp [advanced, hgone]
      · have hkept : isLost stored batch queues s = false := by
          simpa using fun h => hlost (hprogress.mpr h)
        rw [if_neg hlost]
        refine ⟨?_, ?_⟩
        · rw [hresult, List.map_cons, List.sum_cons, Nat.add_assoc]
        · simp [hsubscribers, advanced, hkept]

end Watcher
end TradingDesk

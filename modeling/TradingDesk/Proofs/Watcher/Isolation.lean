import TradingDesk.Proofs.Watcher.Subscriptions
/-!
# Subscribers on their own

What a subscriber is told, and when it is dropped, hangs on the store and on its own queue alone.
Every run of a watcher in which no query fails is, for each subscriber, the run of a watcher that
has no other: what happens to the others is left out of it, and nothing else changes.
-/

namespace TradingDesk
namespace Watcher

/-! ### Runs by what happens -/

/-- What a query answers, by the documents that are stored, the sequence it asks behind and the
number of documents it wants. -/
abbrev Find := List Document → (after limit : Nat) → List Document

/-- What happens at a watcher; a subscriber is named by its queue. -/
inductive Happening where
  | commit (d : Document)
  | openQueue (capacity : Nat)
  | subscribe (i sequence : Nat)
  /-- Another watcher puts an event into a queue. -/
  | putOther (i : Nat) (e : ChangeEvent)
  | take (i : Nat)
  | drop (i : Nat)
  | beginPoll
  | answer (i : Nat) (find : Find)
  /-- A subscriber has its turn with the next document of its answer. -/
  | tell (i : Nat)
  | pass (i : Nat)
  | endPoll

/-- Whether a subscriber would see something happen if it were the only one. -/
def Happening.concerns (i : Nat) : Happening → Bool
  | .subscribe j _ | .putOther j _ | .take j | .drop j | .answer j _ | .tell j | .pass j => j == i
  | .commit _ | .openQueue _ | .beginPoll | .endPoll => true

namespace World

/-- The world after something has happened, if it could. -/
def after? (w : World) : Happening → Option World
  | .commit d => some { w with documents := w.documents ++ [d] }
  | .openQueue capacity => some { w with queues := w.queues ++ [⟨capacity, [], false⟩] }
  | .subscribe i sequence =>
    if w.polling.isNone ∧ w.start? i = none then
      some { w with
        watcher := w.watcher.subscribeAfter i sequence
        start? := Function.update w.start? i (some sequence) }
    else none
  | .putOther i e =>
    if e.collection = w.watcher.collection then none
    else
      match (Queues.get w.queues i).push e with
      | .pushed q => some { w with queues := w.queues.set i q }
      | _ => none
  | .take i =>
    match (Queues.get w.queues i).pop? with
    | some (e, q) =>
      some { w with
        queues := w.queues.set i q
        left := Function.update w.left i (w.left i ++ [e]) }
    | none => none
  | .drop i =>
    if i < w.queues.length then
      some { w with
        queues := w.queues.set i (Queues.get w.queues i).close
        left := Function.update w.left i (w.left i ++ (Queues.get w.queues i).events) }
    else none
  | .beginPoll =>
    if w.polling.isNone then some { w with polling := some ⟨[], w.watcher.subscribers, none⟩ }
    else none
  | .answer i find =>
    match w.polling with
    | some ⟨passed, s :: ahead, none⟩ =>
      if s.queue = i then
        let ds := find w.documents s.cursor w.watcher.batch
        some { w with polling := some ⟨passed, s :: ahead, some ds⟩ }
      else none
    | _ => none
  | .tell i =>
    match w.polling with
    | some ⟨passed, s :: ahead, some (d :: rest)⟩ =>
      if s.queue = i then
        let (_, progress, s', q) := deliver [d] s (Queues.get w.queues s.queue)
        some { w with
          queues := w.queues.set s.queue q
          polling := some (Polling.next passed s' ahead rest progress) }
      else none
    | _ => none
  | .pass i =>
    match w.polling with
    | some ⟨passed, s :: ahead, some []⟩ =>
      if s.queue = i then some { w with polling := some ⟨passed ++ [s], ahead, none⟩ } else none
    | _ => none
  | .endPoll =>
    match w.polling with
    | some ⟨passed, [], none⟩ =>
      some { w with watcher := { w.watcher with subscribers := passed }, polling := none }
    | _ => none

/-- The world after several things have happened one after the other. -/
def run? (w : World) (hs : List Happening) : Option World := hs.foldlM after? w

/-! ### What is left of a world -/

/-- A queue as it would be if nothing was ever put into it or taken from it. -/
def untouched (q : Queue) : Queue := { capacity := q.capacity }

def aloneQueues (i : Nat) (queues : Queues) : Queues :=
  queues.mapIdx fun j q => if j = i then q else untouched q

/-- The poll as it stands for one queue: an answer is its own or nobody's. -/
def alonePolling (i : Nat) (p : Polling) : Polling :=
  { passed := p.passed.filter (·.queue == i)
    ahead := p.ahead.filter (·.queue == i)
    answer := p.ahead.head?.bind fun s => if s.queue = i then p.answer else none }

/-- What is left of a world when there is nothing in it but one queue and its subscriber. -/
def alone (w : World) (i : Nat) : World where
  watcher := { w.watcher with subscribers := w.watcher.subscribers.filter (·.queue == i) }
  polling := w.polling.map (alonePolling i)
  queues := aloneQueues i w.queues
  left := fun j => if j = i then w.left j else []
  start? := fun j => if j = i then w.start? j else none
  documents := w.documents

section

variable {i j : Nat} {queues : Queues} {q : Queue}

theorem get_aloneQueues (i : Nat) (queues : Queues) :
    Queues.get (aloneQueues i queues) i = Queues.get queues i := by
  simp [Queues.get, aloneQueues]

theorem aloneQueues_set_self (queues : Queues) (i : Nat) (q : Queue) :
    aloneQueues i (queues.set i q) = (aloneQueues i queues).set i q := by
  apply List.ext_getElem?
  intro k
  simp [aloneQueues, List.getElem?_mapIdx, List.getElem?_set]

/-- Of another queue nothing is left but its size. -/
theorem aloneQueues_set_of_ne (hne : j ≠ i)
    (hcapacity : q.capacity = (Queues.get queues j).capacity) :
    aloneQueues i (queues.set j q) = aloneQueues i queues := by
  apply List.ext_getElem?
  intro k
  rw [aloneQueues, aloneQueues, List.getElem?_mapIdx, List.getElem?_mapIdx]
  by_cases hk : k = j
  · subst k
    by_cases hlt : j < queues.length
    · have hget : Queues.get queues j = queues[j] := by simp [Queues.get, hlt]
      simp [hlt, hne, untouched, hcapacity, hget]
    · rw [List.set_eq_of_length_le (by omega)]
  · rw [List.getElem?_set_ne (Ne.symm hk)]

theorem aloneQueues_append (i : Nat) (queues : Queues) (capacity : Nat) :
    aloneQueues i (queues ++ [⟨capacity, [], false⟩]) =
      aloneQueues i queues ++ [⟨capacity, [], false⟩] := by
  simp [aloneQueues, List.mapIdx_append, untouched]

theorem capacity_of_push {e : ChangeEvent} {q' : Queue} (h : q.push e = .pushed q') :
    q'.capacity = q.capacity := by
  unfold Queue.push at h
  split at h
  · contradiction
  · split at h
    · contradiction
    · cases h
      rfl

theorem capacity_of_pop {e : ChangeEvent} {q' : Queue} (h : q.pop? = some (e, q')) :
    q'.capacity = q.capacity := by
  unfold Queue.pop? at h
  split at h
  · contradiction
  · cases h
    rfl

theorem capacity_of_deliver (d : Document) (s : Subscriber) (q : Queue) :
    (deliver [d] s q).2.2.2.capacity = q.capacity := by
  rcases deliver_cons d [] s q with ⟨q', hpush, -, hpushed, -⟩ | ⟨progress, -, hover, -⟩
  · rw [hpushed]
    exact capacity_of_push hpush
  · rw [hover]

end

section

variable {w w' : World} {i : Nat} {h : Happening}

theorem alone_congr
    (hwatcher : { w'.watcher with
        subscribers := w'.watcher.subscribers.filter fun s => s.queue == i } =
      { w.watcher with subscribers := w.watcher.subscribers.filter fun s => s.queue == i })
    (hpolling : w'.polling.map (alonePolling i) = w.polling.map (alonePolling i))
    (hqueues : aloneQueues i w'.queues = aloneQueues i w.queues) (hleft : w'.left i = w.left i)
    (hstart : w'.start? i = w.start? i) (hdocuments : w'.documents = w.documents) :
    w'.alone i = w.alone i := by
  unfold alone
  congr 1
  · funext j
    split
    · next heq => rw [heq, hleft]
    · rfl
  · funext j
    split
    · next heq => rw [heq, hstart]
    · rfl

theorem alonePolling_next_of_ne {s s' : Subscriber} (hne : s.queue ≠ i)
    (hqueue : s'.queue = s.queue) (passed ahead : List Subscriber) (d : Document)
    (rest : List Document) (progress : Progress) :
    alonePolling i (Polling.next passed s' ahead rest progress) =
      alonePolling i ⟨passed, s :: ahead, some (d :: rest)⟩ := by
  have hne' : s'.queue ≠ i := hqueue ▸ hne
  cases progress with
  | caughtUp => simp [Polling.next, alonePolling, hne, hne']
  | blocked => simp [Polling.next, alonePolling, hne, hne']
  | closed => simp [Polling.next, alonePolling, hne]

/-- What does not concern a subscriber leaves no trace in its world. -/
theorem alone_eq_of_not_concerns (hother : h.concerns i = false) (hafter : w.after? h = some w') :
    w'.alone i = w.alone i := by
  cases h with
  | commit | openQueue | beginPoll | endPoll => cases hother
  | subscribe j sequence =>
      have hne : j ≠ i := by simpa [Happening.concerns] using hother
      simp only [after?, Option.ite_none_right_eq_some, Option.some.injEq] at hafter
      obtain ⟨-, rfl⟩ := hafter
      refine alone_congr ?_ rfl rfl rfl (Function.update_of_ne hne.symm _ _) rfl
      simp [subscribeAfter, hne]
  | putOther j e =>
      have hne : j ≠ i := by simpa [Happening.concerns] using hother
      simp only [after?] at hafter
      split at hafter
      · contradiction
      · split at hafter
        · next q hpush =>
          cases hafter
          exact alone_congr rfl rfl (aloneQueues_set_of_ne hne (capacity_of_push hpush)) rfl rfl rfl
        · contradiction
  | take j =>
      have hne : j ≠ i := by simpa [Happening.concerns] using hother
      simp only [after?] at hafter
      split at hafter
      · next e q hpop =>
        cases hafter
        exact alone_congr rfl rfl (aloneQueues_set_of_ne hne (capacity_of_pop hpop))
          (Function.update_of_ne hne.symm _ _) rfl rfl
      · contradiction
  | drop j =>
      have hne : j ≠ i := by simpa [Happening.concerns] using hother
      simp only [after?, Option.ite_none_right_eq_some, Option.some.injEq] at hafter
      obtain ⟨-, rfl⟩ := hafter
      exact alone_congr rfl rfl (aloneQueues_set_of_ne hne rfl) (Function.update_of_ne hne.symm _ _)
        rfl rfl
  | answer j find =>
      have hne : j ≠ i := by simpa [Happening.concerns] using hother
      simp only [after?] at hafter
      split at hafter
      · next passed s ahead hpolling =>
        simp only [Option.ite_none_right_eq_some, Option.some.injEq] at hafter
        obtain ⟨rfl, rfl⟩ := hafter
        refine alone_congr rfl ?_ rfl rfl rfl rfl
        simp [hpolling, alonePolling, hne]
      · contradiction
  | tell j =>
      have hne : j ≠ i := by simpa [Happening.concerns] using hother
      simp only [after?] at hafter
      split at hafter
      · next passed s ahead d rest hpolling =>
        simp only [Option.ite_none_right_eq_some, Option.some.injEq] at hafter
        obtain ⟨rfl, rfl⟩ := hafter
        refine alone_congr rfl ?_ (aloneQueues_set_of_ne hne (capacity_of_deliver d s _)) rfl rfl
          rfl
        rw [hpolling]
        exact congrArg some (alonePolling_next_of_ne hne (deliver_queue _ _ _) _ _ _ _ _)
      · contradiction
  | pass j =>
      have hne : j ≠ i := by simpa [Happening.concerns] using hother
      simp only [after?] at hafter
      split at hafter
      · next passed s ahead hpolling =>
        simp only [Option.ite_none_right_eq_some, Option.some.injEq] at hafter
        obtain ⟨rfl, rfl⟩ := hafter
        refine alone_congr rfl ?_ rfl rfl rfl rfl
        simp [hpolling, alonePolling, hne]
      · contradiction

theorem alonePolling_next_of_eq {s s' : Subscriber} (heq : s.queue = i)
    (hqueue : s'.queue = s.queue) (passed ahead : List Subscriber) (rest : List Document)
    (progress : Progress) :
    alonePolling i (Polling.next passed s' ahead rest progress) =
      Polling.next (passed.filter (·.queue == i)) s' (ahead.filter (·.queue == i)) rest
        progress := by
  have heq' : s'.queue = i := hqueue.trans heq
  cases progress with
  | caughtUp => simp [Polling.next, alonePolling, heq']
  | blocked => simp [Polling.next, alonePolling, heq']
  | closed => simp [Polling.next, alonePolling]

theorem only_update {α : Type} (f : Nat → α) (i : Nat) (a b : α) :
    (fun j => if j = i then Function.update f i a j else b) =
      Function.update (fun j => if j = i then f j else b) i a := by
  funext j
  by_cases heq : j = i
  · subst j
    simp
  · simp [heq]

/-- What concerns a subscriber does in its world what it does in company. -/
theorem after?_alone_of_concerns (hown : h.concerns i = true) (hafter : w.after? h = some w') :
    (w.alone i).after? h = some (w'.alone i) := by
  have hget : Queues.get (w.alone i).queues i = Queues.get w.queues i :=
    get_aloneQueues i w.queues
  cases h with
  | commit d =>
      cases hafter
      rfl
  | openQueue capacity =>
      cases hafter
      simp [after?, alone, aloneQueues_append]
  | subscribe j sequence =>
      obtain rfl : j = i := by simpa [Happening.concerns] using hown
      simp only [after?, Option.ite_none_right_eq_some, Option.some.injEq] at hafter ⊢
      obtain ⟨⟨hidle, hnew⟩, rfl⟩ := hafter
      refine ⟨⟨by simpa [alone] using hidle, by simpa [alone] using hnew⟩, ?_⟩
      simp [alone, subscribeAfter, only_update]
  | putOther j e =>
      obtain rfl : j = i := by simpa [Happening.concerns] using hown
      simp only [after?, hget] at hafter ⊢
      split at hafter
      · contradiction
      · next hother =>
        split at hafter
        · next q hpush =>
          cases hafter
          simp [alone, hother, aloneQueues_set_self]
        · contradiction
  | take j =>
      obtain rfl : j = i := by simpa [Happening.concerns] using hown
      simp only [after?, hget] at hafter ⊢
      split at hafter
      · next e q hpop =>
        cases hafter
        simp [alone, aloneQueues_set_self, only_update]
      · contradiction
  | drop j =>
      obtain rfl : j = i := by simpa [Happening.concerns] using hown
      simp only [after?, hget, Option.ite_none_right_eq_some, Option.some.injEq] at hafter ⊢
      obtain ⟨hlt, rfl⟩ := hafter
      refine ⟨by simpa [alone, aloneQueues] using hlt, ?_⟩
      simp [alone, aloneQueues_set_self, only_update]
  | beginPoll =>
      simp only [after?, Option.ite_none_right_eq_some, Option.some.injEq] at hafter ⊢
      obtain ⟨hidle, rfl⟩ := hafter
      refine ⟨by simpa [alone] using hidle, ?_⟩
      simp [alone, alonePolling]
  | answer j find =>
      obtain rfl : j = i := by simpa [Happening.concerns] using hown
      simp only [after?] at hafter
      split at hafter
      · next passed s ahead hpolling =>
        simp only [Option.ite_none_right_eq_some, Option.some.injEq] at hafter
        obtain ⟨rfl, rfl⟩ := hafter
        simp [after?, alone, hpolling, alonePolling]
      · contradiction
  | tell j =>
      obtain rfl : j = i := by simpa [Happening.concerns] using hown
      simp only [after?] at hafter
      split at hafter
      · next passed s ahead d rest hpolling =>
        simp only [Option.ite_none_right_eq_some, Option.some.injEq] at hafter
        obtain ⟨rfl, rfl⟩ := hafter
        have hnext :=
          alonePolling_next_of_eq rfl (deliver_queue [d] s (Queues.get w.queues s.queue)) passed
            ahead rest (deliver [d] s (Queues.get w.queues s.queue)).2.1
        have hpolling' : (w.alone s.queue).polling = some
            ⟨passed.filter (·.queue == s.queue), s :: ahead.filter (·.queue == s.queue),
              some (d :: rest)⟩ := by
          simp [alone, hpolling, alonePolling]
        simp only [after?, hpolling', hget]
        simp [alone, hnext, aloneQueues_set_self]
      · contradiction
  | pass j =>
      obtain rfl : j = i := by simpa [Happening.concerns] using hown
      simp only [after?] at hafter
      split at hafter
      · next passed s ahead hpolling =>
        simp only [Option.ite_none_right_eq_some, Option.some.injEq] at hafter
        obtain ⟨rfl, rfl⟩ := hafter
        simp [after?, alone, hpolling, alonePolling]
      · contradiction
  | endPoll =>
      simp only [after?] at hafter
      split at hafter
      · next passed hpolling =>
        cases hafter
        simp [after?, alone, hpolling, alonePolling]
      · contradiction

end

/-! ### Runs -/

section

variable {w w' : World} {h : Happening} {hs : List Happening}

theorem run?_cons (w : World) (h : Happening) (hs : List Happening) :
    w.run? (h :: hs) = (w.after? h).bind fun w => w.run? hs := by
  rw [run?, List.foldlM_cons]
  rfl

theorem alone_initial (collection : String) (startAfter batch i : Nat) :
    (initial collection startAfter batch).alone i = initial collection startAfter batch := by
  simp [alone, initial, aloneQueues]

/-- The run of a subscriber in its own world leaves out what does not concern it. -/
theorem run?_alone (i : Nat) (hrun : w.run? hs = some w') :
    (w.alone i).run? (hs.filter (·.concerns i)) = some (w'.alone i) := by
  induction hs generalizing w with
  | nil =>
      obtain rfl : w = w' := by simpa [run?] using hrun
      rfl
  | cons h rest ih =>
      rw [run?_cons, Option.bind_eq_some_iff] at hrun
      obtain ⟨w₁, hafter, hrest⟩ := hrun
      cases hown : h.concerns i with
      | true =>
          rw [List.filter_cons_of_pos hown, run?_cons, after?_alone_of_concerns hown hafter]
          exact ih hrest
      | false =>
          rw [List.filter_cons_of_neg (by simp [hown]), ← alone_eq_of_not_concerns hown hafter]
          exact ih hrest

/-! ### One subscriber for each queue -/

/-- The queues of the subscribers are their own, and nobody subscribes with one again. -/
structure Separate (w : World) : Prop where
  nodup : (w.subscribers.map (·.queue)).Nodup
  begun : ∀ i ∈ w.subscribers.map (·.queue), w.start? i ≠ none

theorem Separate.of_sublist (hw : w.Separate)
    (hsubscribers : (w'.subscribers.map (·.queue)).Sublist (w.subscribers.map (·.queue)))
    (hstart : w'.start? = w.start?) : w'.Separate where
  nodup := hw.nodup.sublist hsubscribers
  begun i hi := by
    rw [hstart]
    exact hw.begun i (hsubscribers.subset hi)

theorem Separate.subscribe (hw : w.Separate) {i : Nat} (sequence : Nat) (hidle : w.polling = none)
    (hnew : w.start? i = none) :
    Separate { w with
      watcher := w.watcher.subscribeAfter i sequence
      start? := Function.update w.start? i (some sequence) } := by
  obtain ⟨hnodup, hbegun⟩ := hw
  simp only [subscribers, hidle] at hnodup hbegun
  have hi : i ∉ w.watcher.subscribers.map (·.queue) := fun hmem => hbegun i hmem hnew
  constructor
  · simp only [subscribers, hidle, subscribeAfter, List.map_append, List.map_singleton]
    rw [← List.concat_eq_append]
    exact hnodup.concat hi
  · intro j hj
    by_cases heq : j = i
    · simp [heq]
    · change Function.update w.start? i (some sequence) j ≠ none
      rw [Function.update_of_ne heq]
      apply hbegun
      simpa [subscribers, hidle, subscribeAfter, heq] using hj

theorem Separate.after? (hw : w.Separate) (hafter : w.after? h = some w') : w'.Separate := by
  cases h with
  | commit d =>
      cases hafter
      exact hw.of_sublist (.refl _) rfl
  | openQueue capacity =>
      cases hafter
      exact hw.of_sublist (.refl _) rfl
  | subscribe i sequence =>
      simp only [World.after?, Option.ite_none_right_eq_some, Option.some.injEq,
        Option.isNone_iff_eq_none] at hafter
      obtain ⟨⟨hidle, hnew⟩, rfl⟩ := hafter
      exact hw.subscribe sequence hidle hnew
  | putOther i e =>
      simp only [World.after?] at hafter
      split at hafter
      · contradiction
      · split at hafter
        · cases hafter
          exact hw.of_sublist (.refl _) rfl
        · contradiction
  | take i =>
      simp only [World.after?] at hafter
      split at hafter
      · cases hafter
        exact hw.of_sublist (.refl _) rfl
      · contradiction
  | drop i =>
      simp only [World.after?, Option.ite_none_right_eq_some, Option.some.injEq] at hafter
      obtain ⟨-, rfl⟩ := hafter
      exact hw.of_sublist (.refl _) rfl
  | beginPoll =>
      simp only [World.after?, Option.ite_none_right_eq_some, Option.some.injEq,
        Option.isNone_iff_eq_none] at hafter
      obtain ⟨hidle, rfl⟩ := hafter
      refine hw.of_sublist ?_ rfl
      simp [subscribers, hidle]
  | answer i find =>
      simp only [World.after?] at hafter
      split at hafter
      · next hpolling =>
        simp only [Option.ite_none_right_eq_some, Option.some.injEq] at hafter
        obtain ⟨-, rfl⟩ := hafter
        refine hw.of_sublist ?_ rfl
        simp [subscribers, hpolling]
      · contradiction
  | tell i =>
      simp only [World.after?] at hafter
      split at hafter
      · next passed s ahead d rest hpolling =>
        simp only [Option.ite_none_right_eq_some, Option.some.injEq] at hafter
        obtain ⟨-, rfl⟩ := hafter
        refine hw.of_sublist ?_ rfl
        have hqueue := deliver_queue [d] s (Queues.get w.queues s.queue)
        cases (deliver [d] s (Queues.get w.queues s.queue)).2.1 with
        | caughtUp => simp [subscribers, hpolling, Polling.next, hqueue]
        | blocked => simp [subscribers, hpolling, Polling.next, hqueue]
        | closed => simp [subscribers, hpolling, Polling.next]
      · contradiction
  | pass i =>
      simp only [World.after?] at hafter
      split at hafter
      · next hpolling =>
        simp only [Option.ite_none_right_eq_some, Option.some.injEq] at hafter
        obtain ⟨-, rfl⟩ := hafter
        refine hw.of_sublist ?_ rfl
        simp [subscribers, hpolling]
      · contradiction
  | endPoll =>
      simp only [World.after?] at hafter
      split at hafter
      · next hpolling =>
        cases hafter
        refine hw.of_sublist ?_ rfl
        simp [subscribers, hpolling]
      · contradiction

theorem Separate.run? (hw : w.Separate) (hrun : w.run? hs = some w') : w'.Separate := by
  induction hs generalizing w with
  | nil =>
      obtain rfl : w = w' := by simpa [World.run?] using hrun
      exact hw
  | cons h rest ih =>
      rw [run?_cons, Option.bind_eq_some_iff] at hrun
      obtain ⟨w₁, hafter, hrest⟩ := hrun
      exact ih (hw.after? hafter) hrest

theorem subscribers_alone (w : World) (i : Nat) :
    (w.alone i).subscribers = w.subscribers.filter (·.queue == i) := by
  unfold subscribers alone
  cases w.polling with
  | none => rfl
  | some p => simp [alonePolling]

theorem told_alone (w : World) (i : Nat) : (w.alone i).told i = w.told i := by
  have hget : Queues.get (w.alone i).queues i = Queues.get w.queues i :=
    get_aloneQueues i w.queues
  have hleft : (w.alone i).left i = w.left i := if_pos rfl
  rw [told, told, hget, hleft]
  rfl

theorem filter_queue_eq {ss : List Subscriber} (hnodup : (ss.map (·.queue)).Nodup)
    {s : Subscriber} (hs : s ∈ ss) : ss.filter (·.queue == s.queue) = [s] := by
  induction ss with
  | nil => contradiction
  | cons a rest ih =>
      rw [List.map_cons, List.nodup_cons] at hnodup
      rcases List.mem_cons.mp hs with rfl | hmem
      · have hothers : ∀ b ∈ rest, ¬ (b.queue == s.queue) = true := by
          intro b hb heq
          exact hnodup.1 (List.mem_map.mpr ⟨b, hb, beq_iff_eq.mp heq⟩)
        have hself : (s.queue == s.queue) = true := beq_self_eq_true _
        rw [List.filter_cons, if_pos hself, List.filter_eq_nil_iff.mpr hothers]
      · have hne : ¬ (a.queue == s.queue) = true := by
          intro heq
          rw [beq_iff_eq.mp heq] at hnodup
          exact hnodup.1 (List.mem_map.mpr ⟨s, hmem, rfl⟩)
        rw [List.filter_cons, if_neg hne, ih hnodup.2 hmem]

end

/-! ### Polls -/

section

variable {τ : Type} {lookup : Lookup τ} {batch : Nat}

/-- Queries do not fail, and what one answers does not hang on those before it. -/
def Steady (lookup : Lookup τ) (batch : Nat) : Prop :=
  ∃ find : Nat → List Document, ∀ source after, ∃ source',
    lookup source after batch = (.ok (find after), source')

/-- A poll does to a queue and its subscriber what it would do without the others. -/
theorem pollEach_alone (hlookup : Steady lookup batch) (i : Nat) (ss : List Subscriber)
    {queues own : Queues} (hlength : own.length = queues.length)
    (hget : Queues.get own i = Queues.get queues i) (source source' : τ) (told told' : Nat) :
    (pollEach lookup batch (ss.filter (·.queue == i)) own source' told').subscribers =
        (pollEach lookup batch ss queues source told).subscribers.filter (·.queue == i) ∧
      Queues.get (pollEach lookup batch (ss.filter (·.queue == i)) own source' told').queues i =
        Queues.get (pollEach lookup batch ss queues source told).queues i := by
  obtain ⟨find, hfind⟩ := hlookup
  induction ss generalizing queues own source source' told told' with
  | nil => exact ⟨rfl, hget⟩
  | cons s rest ih =>
      obtain ⟨source₁, hanswer⟩ := hfind source s.cursor
      rcases hdeliver : deliver (find s.cursor) s (Queues.get queues s.queue) with
        ⟨n, progress, s', q⟩
      have hqueue : s'.queue = s.queue := by
        simpa only [hdeliver] using deliver_queue (find s.cursor) s (Queues.get queues s.queue)
      by_cases heq : s.queue = i
      · -- its own turn, with the same answer and the same queue
        subst heq
        obtain ⟨source₂, hanswer'⟩ := hfind source' s.cursor
        have hself : (s.queue == s.queue) = true := beq_self_eq_true _
        have hset : Queues.get (own.set s.queue q) s.queue =
            Queues.get (queues.set s.queue q) s.queue := by
          by_cases hlt : s.queue < queues.length
          · rw [Queues.get_set_self _ hlt, Queues.get_set_self _ (hlength ▸ hlt)]
          · rw [List.set_eq_of_length_le (by omega), List.set_eq_of_length_le (by omega), hget]
        have hrest := ih (by simpa using hlength) hset source₁ source₂ (told + n) (told' + n)
        rw [List.filter_cons, if_pos hself]
        simp only [pollEach, hanswer, hanswer', hget, hdeliver, hqueue]
        split
        · exact hrest
        · have hkept : (s'.queue == s.queue) = true := beq_iff_eq.mpr hqueue
          rw [List.filter_cons, if_pos hkept]
          exact ⟨congrArg (s' :: ·) hrest.1, hrest.2⟩
      · -- another's turn, which ends with another queue
        have hother : ¬ (s.queue == i) = true := by simpa using heq
        have hset : Queues.get own i = Queues.get (queues.set s.queue q) i := by
          rw [Queues.get_set_of_ne _ heq, hget]
        have hrest := ih (by simpa using hlength) hset source₁ source' (told + n) told'
        rw [List.filter_cons, if_neg hother]
        simp only [pollEach, hanswer, hdeliver, hqueue]
        split
        · exact hrest
        · have hgone : ¬ (s'.queue == i) = true := by
            rw [hqueue]
            exact hother
          rw [List.filter_cons, if_neg hgone]
          exact hrest

end

/-! ### The others make no difference -/

section

variable {collection : String} {startAfter batch : Nat} {hs : List Happening} {w : World}

theorem separate_initial (collection : String) (startAfter batch : Nat) :
    (initial collection startAfter batch).Separate := by
  constructor
  · simp [initial, subscribers]
  · simp [initial, subscribers]

/-- However a run goes in which no query fails, it goes on for each queue as if its subscriber was
the only one: that run ends with the same cursor, the same events sent and the same ones waiting,
and the next poll does to the subscriber and its queue what it does in company. -/
theorem subscribers_are_isolated
    (hrun : (initial collection startAfter batch).run? hs = some w) (i : Nat) :
    (initial collection startAfter batch).run? (hs.filter (·.concerns i)) = some (w.alone i) ∧
      (∀ s ∈ w.subscribers, s.queue = i → (w.alone i).subscribers = [s]) ∧
      ((∀ s ∈ w.subscribers, s.queue ≠ i) → (w.alone i).subscribers = []) ∧
      (w.alone i).told i = w.told i ∧
      Queues.get (w.alone i).queues i = Queues.get w.queues i ∧
      (w.polling = none → ∀ (τ : Type) (lookup : Lookup τ) (source source' : τ),
        Steady lookup w.watcher.batch →
        ((w.alone i).watcher.poll lookup (w.alone i).queues source').1.subscribers =
            (w.watcher.poll lookup w.queues source).1.subscribers.filter (·.queue == i) ∧
          Queues.get ((w.alone i).watcher.poll lookup (w.alone i).queues source').2.queues i =
            Queues.get (w.watcher.poll lookup w.queues source).2.queues i) := by
  have hseparate := (separate_initial collection startAfter batch).run? hrun
  refine ⟨?_, ?_, ?_, told_alone w i, get_aloneQueues i w.queues, ?_⟩
  · rw [← alone_initial collection startAfter batch i]
    exact run?_alone i hrun
  · rintro s hs rfl
    rw [subscribers_alone]
    exact filter_queue_eq hseparate.nodup hs
  · intro hnone
    rw [subscribers_alone, List.filter_eq_nil_iff]
    exact fun s hs heq => hnone s hs (beq_iff_eq.mp heq)
  · intro _ τ lookup source source' hsteady
    have hlength : (aloneQueues i w.queues).length = w.queues.length := by simp [aloneQueues]
    exact pollEach_alone hsteady i w.watcher.subscribers hlength (get_aloneQueues i w.queues)
      source source' 0 0

/-- A queue that is full after one event and one that is dropped, each before another. -/
def crowd : List Happening :=
  let all : Find := fun documents after limit =>
    (documents.filter (after < ·.sequence)).take limit
  [.openQueue 1, .openQueue 4, .openQueue 4, .subscribe 0 0, .subscribe 1 0, .subscribe 2 0,
    .commit firstDocument, .commit { firstDocument with sequence := 2, id := "b" }, .drop 1,
    .beginPoll, .answer 0 all, .tell 0, .tell 0, .answer 1 all, .tell 1,
    .answer 2 all, .tell 2, .tell 2, .pass 2, .endPoll]

/-- Behind a full queue and a closed one the third subscriber is told of both documents, as it is
where there is nobody else. -/
theorem crowd_makes_no_difference :
    ∃ w, (initial "ticker.btc" 0 5).run? crowd = some w ∧
      w.subscribers = [⟨0, 1⟩, ⟨2, 2⟩] ∧
      (initial "ticker.btc" 0 5).run? (crowd.filter (·.concerns 2)) = some (w.alone 2) ∧
      (w.alone 2).subscribers = [⟨2, 2⟩] ∧ ((w.alone 2).told 2).map (·.sequence) = [1, 2] := by
  have hrun : ∃ w, (initial "ticker.btc" 0 5).run? crowd = some w ∧
      w.subscribers = [⟨0, 1⟩, ⟨2, 2⟩] ∧ (w.told 2).map (·.sequence) = [1, 2] :=
    ⟨_, rfl, rfl, rfl⟩
  obtain ⟨w, hrun, hsubscribers, htold⟩ := hrun
  obtain ⟨halone, hself, -, hsame, -⟩ := subscribers_are_isolated hrun 2
  refine ⟨w, hrun, hsubscribers, halone, ?_, ?_⟩
  · exact hself ⟨2, 2⟩ (by simp [hsubscribers]) rfl
  · rw [hsame, htold]

end

end World
end Watcher
end TradingDesk

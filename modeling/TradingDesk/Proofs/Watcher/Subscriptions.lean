import TradingDesk.Proofs.Watcher.Polls
/-!
# What subscribers are told

A watcher at work: documents are committed in any order of their sequences, queues are opened,
emptied and dropped, others put events of their own collections into them, and polls go on in
between, query by query and event by event. Whatever happens, a receiver gets the events of the
watched collection from the start of its subscription up to the cursor, each once and in order.
-/

namespace TradingDesk
namespace Watcher

/-- Where a poll stands: the subscribers that had their turn, those that have it now and later, and
what is left of the answer for the one that has it now. -/
structure Polling where
  passed : List Subscriber
  ahead : List Subscriber
  answer : Option (List Document)

/-- Where a poll stands once the subscriber whose turn it is was told of a document. -/
def Polling.next (passed : List Subscriber) (s : Subscriber) (ahead : List Subscriber)
    (rest : List Document) : Progress → Polling
  | .caughtUp => ⟨passed, s :: ahead, some rest⟩
  | .blocked => ⟨passed ++ [s], ahead, none⟩
  | .closed => ⟨passed, ahead, none⟩

structure World where
  watcher : Watcher
  polling : Option Polling
  queues : Queues
  /-- What was taken out of each queue, or dropped with it. -/
  left : Nat → List ChangeEvent
  /-- The sequence after which each queue was subscribed. -/
  start? : Nat → Option Nat
  documents : List Document

namespace World

def subscribers (w : World) : List Subscriber :=
  match w.polling with
  | none => w.watcher.subscribers
  | some p => p.passed ++ p.ahead

/-- The events of the watched collection that a receiver was sent, taken or not. -/
def told (w : World) (i : Nat) : List ChangeEvent :=
  (w.left i ++ (Queues.get w.queues i).events).filter (·.collection = w.watcher.collection)

inductive Step : World → World → Prop
  | commit {w : World} (d : Document) (hcollection : d.collection = w.watcher.collection)
      (hnew : d.sequence ∉ w.documents.map (·.sequence)) :
      Step w { w with documents := w.documents ++ [d] }
  | openQueue {w : World} (capacity : Nat) :
      Step w { w with queues := w.queues ++ [⟨capacity, [], false⟩] }
  | subscribe {w : World} (i sequence : Nat) (hidle : w.polling = none)
      (hnew : w.start? i = none) :
      Step w { w with
        watcher := w.watcher.subscribeAfter i sequence
        start? := Function.update w.start? i (some sequence) }
  | putOther {w : World} {i : Nat} {e : ChangeEvent} {q : Queue}
      (hother : e.collection ≠ w.watcher.collection)
      (hpush : (Queues.get w.queues i).push e = .pushed q) :
      Step w { w with queues := w.queues.set i q }
  | take {w : World} {i : Nat} {e : ChangeEvent} {q : Queue}
      (hpop : (Queues.get w.queues i).pop? = some (e, q)) :
      Step w { w with
        queues := w.queues.set i q
        left := Function.update w.left i (w.left i ++ [e]) }
  | drop {w : World} {i : Nat} (hlt : i < w.queues.length) :
      Step w { w with
        queues := w.queues.set i (Queues.get w.queues i).close
        left := Function.update w.left i (w.left i ++ (Queues.get w.queues i).events) }
  | beginPoll {w : World} (hidle : w.polling = none) :
      Step w { w with polling := some ⟨[], w.watcher.subscribers, none⟩ }
  | answer {w : World} {passed ahead : List Subscriber} {s : Subscriber} {ds : List Document}
      (hpolling : w.polling = some ⟨passed, s :: ahead, none⟩)
      (hanswer : Answers w.documents s.cursor w.watcher.batch ds) :
      Step w { w with polling := some ⟨passed, s :: ahead, some ds⟩ }
  /-- A query that fails ends the poll. -/
  | fail {w : World} {passed ahead : List Subscriber} {s : Subscriber}
      (hpolling : w.polling = some ⟨passed, s :: ahead, none⟩) :
      Step w { w with
        watcher := { w.watcher with subscribers := passed ++ s :: ahead }
        polling := none }
  | tell {w : World} {passed ahead : List Subscriber} {s s' : Subscriber} {d : Document}
      {rest : List Document} {n : Nat} {progress : Progress} {q : Queue}
      (hpolling : w.polling = some ⟨passed, s :: ahead, some (d :: rest)⟩)
      (hdeliver : deliver [d] s (Queues.get w.queues s.queue) = (n, progress, s', q)) :
      Step w { w with
        queues := w.queues.set s.queue q
        polling := some (Polling.next passed s' ahead rest progress) }
  | pass {w : World} {passed ahead : List Subscriber} {s : Subscriber}
      (hpolling : w.polling = some ⟨passed, s :: ahead, some []⟩) :
      Step w { w with polling := some ⟨passed ++ [s], ahead, none⟩ }
  | endPoll {w : World} {passed : List Subscriber}
      (hpolling : w.polling = some ⟨passed, [], none⟩) :
      Step w { w with
        watcher := { w.watcher with subscribers := passed }
        polling := none }

def initial (collection : String) (startAfter batch : Nat) : World where
  watcher := { collection, startAfter, batch }
  polling := none
  queues := []
  left := fun _ => []
  start? := fun _ => none
  documents := []

/-- The worlds that a new watcher over an empty collection can come to. -/
inductive Reachable : World → Prop
  | initial (collection : String) (startAfter batch : Nat) :
      Reachable (initial collection startAfter batch)
  | step {w w' : World} (hreach : Reachable w) (hstep : Step w w') : Reachable w'

end World

/-! ### The invariant -/

namespace World

/-- What holds whatever happens. -/
structure Exact (w : World) : Prop where
  queues : (w.subscribers.map (·.queue)).Nodup
  cursors : ∀ s ∈ w.subscribers, ∃ start, w.start? s.queue = some start ∧
    s.cursor = start + (w.told s.queue).length
  told : ∀ i start, w.start? i = some start →
    (w.told i).map (·.sequence) = List.range' (start + 1) (w.told i).length
  untold : ∀ i, w.start? i = none → w.told i = []
  events : ∀ i, ∀ e ∈ w.told i, ∃ d ∈ w.documents, d.event = e
  answer : ∀ p ds, w.polling = some p → p.answer = some ds → ∀ d ∈ ds, d ∈ w.documents
  sequences : (w.documents.map (·.sequence)).Nodup
  collection : ∀ d ∈ w.documents, d.collection = w.watcher.collection

theorem exact_initial (collection : String) (startAfter batch : Nat) :
    (initial collection startAfter batch).Exact := by
  constructor
  · simp [initial, subscribers]
  · simp [initial, subscribers]
  · simp [initial]
  · exact fun _ _ => rfl
  · intro i e he
    have htold : (initial collection startAfter batch).told i = [] := rfl
    rw [htold] at he
    contradiction
  · simp [initial]
  · simp [initial]
  · simp [initial]

variable {w w' : World}

/-- Nobody is told of anything, and nobody subscribes. -/
theorem Exact.quiet (h : w.Exact) (htold : ∀ i, w'.told i = w.told i)
    (hstart : w'.start? = w.start?) (hsubscribers : w'.subscribers.Sublist w.subscribers)
    (hdocuments : w'.documents = w.documents)
    (hanswer : ∀ p ds, w'.polling = some p → p.answer = some ds → ∀ d ∈ ds, d ∈ w.documents)
    (hcollection : w'.watcher.collection = w.watcher.collection) : w'.Exact := by
  constructor
  · exact h.queues.sublist (hsubscribers.map _)
  · intro s hs
    rw [hstart, htold]
    exact h.cursors s (hsubscribers.subset hs)
  · intro i start hi
    rw [hstart] at hi
    rw [htold]
    exact h.told i start hi
  · intro i hi
    rw [hstart] at hi
    rw [htold]
    exact h.untold i hi
  · intro i e he
    rw [htold] at he
    rw [hdocuments]
    exact h.events i e he
  · rw [hdocuments]
    exact hanswer
  · rw [hdocuments]
    exact h.sequences
  · rw [hdocuments, hcollection]
    exact h.collection

theorem told_set_of_ne {i j : Nat} (q : Queue) (hqueues : w'.queues = w.queues.set i q)
    (hleft : w'.left = w.left) (hcollection : w'.watcher.collection = w.watcher.collection)
    (hne : j ≠ i) : w'.told j = w.told j := by
  rw [World.told, hleft, hqueues, hcollection, Queues.get_set_of_ne _ hne.symm, World.told]

/-- An event is taken, dropped or put by others: the receiver's share stays the same. -/
theorem told_of_queue {i : Nat} {q : Queue} {taken : List ChangeEvent}
    (hleft : w'.left = Function.update w.left i taken) (hqueues : w'.queues = w.queues.set i q)
    (hcollection : w'.watcher.collection = w.watcher.collection) (hlt : i < w.queues.length)
    (heq : (taken ++ q.events).filter (·.collection = w.watcher.collection) = w.told i) (j : Nat) :
    w'.told j = w.told j := by
  unfold World.told
  rw [hleft, hqueues, hcollection]
  by_cases hj : j = i
  · subst j
    rw [Function.update_self, Queues.get_set_self _ hlt, heq, World.told]
  · rw [Function.update_of_ne hj, Queues.get_set_of_ne _ (Ne.symm hj)]

theorem Exact.commit (h : w.Exact) {d : Document}
    (hcollection : d.collection = w.watcher.collection)
    (hnew : d.sequence ∉ w.documents.map (·.sequence)) :
    Exact { w with documents := w.documents ++ [d] } where
  queues := h.queues
  cursors := h.cursors
  told := h.told
  untold := h.untold
  events i e he := by
    obtain ⟨d', hd', heq⟩ := h.events i e he
    exact ⟨d', List.mem_append_left _ hd', heq⟩
  answer p ds hp hds d' hd' := List.mem_append_left _ (h.answer p ds hp hds d' hd')
  sequences := by
    rw [List.map_append, List.map_singleton, ← List.concat_eq_append]
    exact h.sequences.concat hnew
  collection := by
    intro d' hd'
    rcases List.mem_append.mp hd' with hd' | hd'
    · exact h.collection d' hd'
    · rw [List.mem_singleton.mp hd']
      exact hcollection

theorem Exact.subscribe (h : w.Exact) {i sequence : Nat} (hidle : w.polling = none)
    (hnew : w.start? i = none) :
    Exact { w with
      watcher := w.watcher.subscribeAfter i sequence
      start? := Function.update w.start? i (some sequence) } := by
  have hsubscribers : subscribers { w with
      watcher := w.watcher.subscribeAfter i sequence
      start? := Function.update w.start? i (some sequence) } =
        w.subscribers ++ [⟨i, sequence⟩] := by
    simp [subscribers, hidle, subscribeAfter]
  have hother : ∀ s ∈ w.subscribers, s.queue ≠ i := by
    intro s hs heq
    obtain ⟨start, hstart, -⟩ := h.cursors s hs
    rw [heq, hnew] at hstart
    contradiction
  have htold : w.told i = [] := h.untold i hnew
  constructor
  · rw [hsubscribers, List.map_append, List.map_singleton, ← List.concat_eq_append]
    apply h.queues.concat
    intro hmem
    obtain ⟨s, hs, heq⟩ := List.mem_map.mp hmem
    exact hother s hs heq
  · intro s hs
    rw [hsubscribers, List.mem_append, List.mem_singleton] at hs
    rcases hs with hs | rfl
    · simp only [Function.update_of_ne (hother s hs)]
      exact h.cursors s hs
    · refine ⟨sequence, Function.update_self .., ?_⟩
      change sequence = sequence + (w.told i).length
      rw [htold, List.length_nil, Nat.add_zero]
  · intro j start hj
    by_cases heq : j = i
    · subst j
      change (w.told i).map (·.sequence) = List.range' (start + 1) (w.told i).length
      rw [htold]
      rfl
    · simp only [Function.update_of_ne heq] at hj
      exact h.told j start hj
  · intro j hj
    by_cases heq : j = i
    · subst j
      simp at hj
    · simp only [Function.update_of_ne heq] at hj
      exact h.untold j hj
  · exact h.events
  · exact h.answer
  · exact h.sequences
  · exact h.collection

/-- The subscriber whose turn it is has been told of the next document. -/
theorem Exact.tell (h : w.Exact) {passed ahead : List Subscriber} {s : Subscriber} {d : Document}
    {rest : List Document}
    (hpolling : w.polling = some ⟨passed, s :: ahead, some (d :: rest)⟩)
    (hsequence : d.sequence = s.cursor + 1)
    (hsubscribers : w'.subscribers = passed ++ { s with cursor := s.cursor + 1 } :: ahead)
    (hself : w'.told s.queue = w.told s.queue ++ [d.event])
    (hother : ∀ i, i ≠ s.queue → w'.told i = w.told i) (hstart : w'.start? = w.start?)
    (hdocuments : w'.documents = w.documents)
    (hanswer : w'.polling = some ⟨passed, { s with cursor := s.cursor + 1 } :: ahead, some rest⟩)
    (hcollection : w'.watcher.collection = w.watcher.collection) : w'.Exact := by
  have hold : w.subscribers = passed ++ s :: ahead := by simp [subscribers, hpolling]
  have hqueues := h.queues
  rw [hold] at hqueues
  have hne : ∀ s' ∈ passed ++ ahead, s'.queue ≠ s.queue := by
    rw [List.map_append, List.map_cons, List.nodup_middle, List.nodup_cons, ← List.map_append]
      at hqueues
    intro s' hs' heq
    exact hqueues.1 (List.mem_map.mpr ⟨s', hs', heq⟩)
  have hd : d ∈ w.documents := h.answer _ _ hpolling rfl d List.mem_cons_self
  obtain ⟨start, hs, hcursor⟩ := h.cursors s (by simp [hold])
  constructor
  · rw [hsubscribers]
    simpa using hqueues
  · intro s' hs'
    have hmem : s' = { s with cursor := s.cursor + 1 } ∨ s' ∈ passed ++ ahead := by
      simpa [hsubscribers, or_left_comm] using hs'
    rw [hstart]
    rcases hmem with rfl | hmem
    · refine ⟨start, hs, ?_⟩
      simp only [hself, List.length_append, List.length_singleton, hcursor, Nat.add_assoc]
    · rw [hother _ (hne s' hmem)]
      apply h.cursors
      simp only [hold, List.mem_append, List.mem_cons] at hmem ⊢
      exact hmem.imp_right .inr
  · intro i start' hi
    rw [hstart] at hi
    by_cases heq : i = s.queue
    · subst i
      obtain rfl : start = start' := Option.some.inj (hs.symm.trans hi)
      rw [hself, List.map_append, h.told _ start hs, List.length_append, List.length_singleton,
        List.range'_1_concat]
      congr 1
      simp only [List.map_singleton, Document.event, hsequence, hcursor]
      congr 1
      omega
    · rw [hother i heq]
      exact h.told i start' hi
  · intro i hi
    rw [hstart] at hi
    have heq : i ≠ s.queue := by
      rintro rfl
      rw [hs] at hi
      contradiction
    rw [hother i heq]
    exact h.untold i hi
  · intro i e he
    rw [hdocuments]
    by_cases heq : i = s.queue
    · subst i
      rw [hself, List.mem_append, List.mem_singleton] at he
      rcases he with he | rfl
      · exact h.events _ e he
      · exact ⟨d, hd, rfl⟩
    · rw [hother i heq] at he
      exact h.events i e he
  · intro p ds hp hds a ha
    rw [hanswer] at hp
    cases hp
    cases hds
    rw [hdocuments]
    exact h.answer _ _ hpolling rfl a (List.mem_cons_of_mem d ha)
  · rw [hdocuments]
    exact h.sequences
  · rw [hdocuments, hcollection]
    exact h.collection

theorem Exact.step (h : w.Exact) (hstep : Step w w') : w'.Exact := by
  cases hstep with
  | commit d hcollection hnew => exact h.commit hcollection hnew
  | openQueue capacity =>
      refine h.quiet ?_ rfl (.refl _) rfl h.answer rfl
      intro i
      simp only [World.told, Queues.get_open]
  | subscribe i sequence hidle hnew => exact h.subscribe hidle hnew
  | @putOther i e q hother hpush =>
      obtain ⟨hlt, hevents⟩ := push_eq_pushed hpush
      refine h.quiet ?_ rfl (.refl _) rfl h.answer rfl
      refine told_of_queue (Function.update_eq_self i w.left).symm rfl rfl hlt ?_
      simp [hevents, hother, World.told]
  | @take i e q hpop =>
      obtain ⟨hlt, hevents⟩ := pop?_eq_some hpop
      refine h.quiet ?_ rfl (.refl _) rfl h.answer rfl
      refine told_of_queue rfl rfl rfl hlt ?_
      simp [hevents, World.told]
  | drop hlt =>
      refine h.quiet ?_ rfl (.refl _) rfl h.answer rfl
      refine told_of_queue rfl rfl rfl hlt ?_
      simp [Queue.close, World.told]
  | beginPoll hidle =>
      refine h.quiet (fun _ => rfl) rfl ?_ rfl (by rintro _ _ ⟨⟩ ⟨⟩) rfl
      simp [subscribers, hidle]
  | answer hpolling hanswer =>
      refine h.quiet (fun _ => rfl) rfl ?_ rfl ?_ rfl
      · simp [subscribers, hpolling]
      · rintro _ _ ⟨⟩ ⟨⟩
        exact hanswer.mem
  | fail hpolling =>
      refine h.quiet (fun _ => rfl) rfl ?_ rfl (by simp) rfl
      simp [subscribers, hpolling]
  | @tell passed ahead s s' d rest n progress q hpolling hdeliver =>
      rcases deliver_cons d rest s (Queues.get w.queues s.queue) with
        ⟨q', hpush, hsequence, hpushed, -⟩ | ⟨progress', hnot, hover, -⟩
      · rw [hpushed] at hdeliver
        cases hdeliver
        obtain ⟨hlt, hevents⟩ := push_eq_pushed hpush
        have hd : d.event.collection = w.watcher.collection :=
          h.collection d (h.answer _ _ hpolling rfl d List.mem_cons_self)
        refine h.tell hpolling hsequence rfl ?_ ?_ rfl rfl rfl rfl
        · simp only [World.told, Queues.get_set_self _ hlt, hevents]
          simp [hd]
        · exact fun i hne => told_set_of_ne _ rfl rfl rfl hne
      · rw [hover] at hdeliver
        cases hdeliver
        refine h.quiet ?_ rfl ?_ rfl ?_ rfl
        · intro i
          simp only [World.told, Queues.set_get_self]
        · cases progress with
          | caughtUp => exact absurd rfl hnot
          | blocked => simp [subscribers, Polling.next, hpolling]
          | closed => simp [subscribers, Polling.next, hpolling]
        · cases progress with
          | caughtUp => exact absurd rfl hnot
          | blocked => rintro _ _ ⟨⟩ ⟨⟩
          | closed => rintro _ _ ⟨⟩ ⟨⟩
  | pass hpolling =>
      refine h.quiet (fun _ => rfl) rfl ?_ rfl (by rintro _ _ ⟨⟩ ⟨⟩) rfl
      simp [subscribers, hpolling]
  | endPoll hpolling =>
      refine h.quiet (fun _ => rfl) rfl ?_ rfl (by simp) rfl
      simp [subscribers, hpolling]

theorem Reachable.exact (hreach : Reachable w) : w.Exact := by
  induction hreach with
  | initial collection startAfter batch => exact exact_initial collection startAfter batch
  | step _ hstep ih => exact ih.step hstep

/-- Sequences are distinct, so that no document but this one can have been told of. -/
theorem Exact.event_mem (h : w.Exact) {i start : Nat} {d : Document}
    (hstart : w.start? i = some start) (hd : d ∈ w.documents)
    (hmem : d.sequence ∈ List.range' (start + 1) (w.told i).length) : d.event ∈ w.told i := by
  rw [← h.told i start hstart] at hmem
  obtain ⟨e, he, hsequence⟩ := List.mem_map.mp hmem
  obtain ⟨d', hd', hevent⟩ := h.events i e he
  have hsame : d'.sequence = d.sequence := by
    rw [← hsequence, ← hevent]
    rfl
  obtain rfl : d' = d := List.inj_on_of_nodup_map h.sequences hd' hd hsame
  rwa [hevent]

/-! ### Polls as runs -/

abbrev Steps : World → World → Prop := Relation.ReflTransGen Step

theorem Reachable.steps (hreach : Reachable w) (hsteps : Steps w w') : Reachable w' := by
  induction hsteps with
  | refl => exact hreach
  | tail _ hlast ih => exact ih.step hlast

/-- The steps that are the watcher's own. -/
inductive Turn : World → World → Prop
  | beginPoll {w : World} (hidle : w.polling = none) :
      Turn w { w with polling := some ⟨[], w.watcher.subscribers, none⟩ }
  | answer {w : World} {passed ahead : List Subscriber} {s : Subscriber} {ds : List Document}
      (hpolling : w.polling = some ⟨passed, s :: ahead, none⟩)
      (hanswer : Answers w.documents s.cursor w.watcher.batch ds) :
      Turn w { w with polling := some ⟨passed, s :: ahead, some ds⟩ }
  | fail {w : World} {passed ahead : List Subscriber} {s : Subscriber}
      (hpolling : w.polling = some ⟨passed, s :: ahead, none⟩) :
      Turn w { w with
        watcher := { w.watcher with subscribers := passed ++ s :: ahead }
        polling := none }
  | tell {w : World} {passed ahead : List Subscriber} {s s' : Subscriber} {d : Document}
      {rest : List Document} {n : Nat} {progress : Progress} {q : Queue}
      (hpolling : w.polling = some ⟨passed, s :: ahead, some (d :: rest)⟩)
      (hdeliver : deliver [d] s (Queues.get w.queues s.queue) = (n, progress, s', q)) :
      Turn w { w with
        queues := w.queues.set s.queue q
        polling := some (Polling.next passed s' ahead rest progress) }
  | pass {w : World} {passed ahead : List Subscriber} {s : Subscriber}
      (hpolling : w.polling = some ⟨passed, s :: ahead, some []⟩) :
      Turn w { w with polling := some ⟨passed ++ [s], ahead, none⟩ }
  | endPoll {w : World} {passed : List Subscriber}
      (hpolling : w.polling = some ⟨passed, [], none⟩) :
      Turn w { w with
        watcher := { w.watcher with subscribers := passed }
        polling := none }

theorem Turn.step (hturn : Turn w w') : Step w w' := by
  cases hturn with
  | beginPoll hidle => exact .beginPoll hidle
  | answer hpolling hanswer => exact .answer hpolling hanswer
  | fail hpolling => exact .fail hpolling
  | tell hpolling hdeliver => exact .tell hpolling hdeliver
  | pass hpolling => exact .pass hpolling
  | endPoll hpolling => exact .endPoll hpolling

/-- A turn leaves alone what is not the watcher's. -/
theorem Turn.eq (hturn : Turn w w') :
    w' = { w with watcher := w'.watcher, polling := w'.polling, queues := w'.queues } := by
  cases hturn <;> rfl

/-- Into a queue a turn puts events of the watched collection only. -/
theorem Turn.queues (hturn : Turn w w') (h : w.Exact) :
    w'.queues = w.queues ∨ ∃ i e q, e.collection = w.watcher.collection ∧
      (Queues.get w.queues i).push e = .pushed q ∧ w'.queues = w.queues.set i q := by
  cases hturn with
  | @tell passed ahead s s' d rest n progress q hpolling hdeliver =>
      rcases deliver_cons d rest s (Queues.get w.queues s.queue) with
        ⟨q', hpush, -, hpushed, -⟩ | ⟨progress', -, hover, -⟩
      · rw [hpushed] at hdeliver
        cases hdeliver
        have hd := h.answer _ _ hpolling rfl d List.mem_cons_self
        exact .inr ⟨s.queue, d.event, q, h.collection d hd, hpush, rfl⟩
      · rw [hover] at hdeliver
        cases hdeliver
        exact .inl (Queues.set_get_self w.queues s.queue)
  | _ => exact .inl rfl

theorem Turn.collection_eq (hturn : Turn w w') :
    w'.watcher.collection = w.watcher.collection := by
  cases hturn <;> rfl

abbrev Turns : World → World → Prop := Relation.ReflTransGen Turn

/-- Telling a subscriber of a whole answer is telling it of document after document. -/
theorem deliver_turns {ds : List Document} {passed ahead : List Subscriber} {s : Subscriber}
    (hpolling : w.polling = some ⟨passed, s :: ahead, some ds⟩) :
    Turns w { w with
      queues := w.queues.set s.queue (deliver ds s (Queues.get w.queues s.queue)).2.2.2
      polling := some ⟨if (deliver ds s (Queues.get w.queues s.queue)).2.1 = .closed then passed
        else passed ++ [(deliver ds s (Queues.get w.queues s.queue)).2.2.1], ahead, none⟩ } := by
  induction ds generalizing w s with
  | nil =>
      have hpass := Turn.pass hpolling
      simp only [deliver, Queues.set_get_self, reduceCtorEq, if_false]
      exact .single hpass
  | cons d rest ih =>
      rcases deliver_cons d rest s (Queues.get w.queues s.queue) with
        ⟨q, hpush, -, hpushed, hcons⟩ | ⟨progress, hnot, hover, hcons⟩
      · obtain ⟨hlt, -⟩ := push_eq_pushed hpush
        have hrest := ih (w := { w with
          queues := w.queues.set s.queue q
          polling := some (Polling.next passed { s with cursor := s.cursor + 1 } ahead rest
            .caughtUp) }) (s := { s with cursor := s.cursor + 1 }) rfl
        simp only [Queues.get_set_self _ hlt, List.set_set] at hrest
        simp only [hcons]
        exact .head (.tell hpolling hpushed) hrest
      · simp only [hcons]
        have htell := Turn.tell hpolling hover
        cases progress with
        | caughtUp => exact absurd rfl hnot
        | blocked => exact .single htell
        | closed => exact .single htell

/-- The subscribers that have their turn still are polled as the run goes on. -/
theorem pollEach_turns {τ : Type} {lookup : Lookup τ}
    (hlookup : ∀ source after answer source', lookup source after w.watcher.batch =
      (.ok answer, source') → Answers w.documents after w.watcher.batch answer)
    {passed ss : List Subscriber} (hpolling : w.polling = some ⟨passed, ss, none⟩) (source : τ)
    (told : Nat) :
    Turns w { w with
      watcher := { w.watcher with subscribers := passed ++
        (pollEach lookup w.watcher.batch ss w.queues source told).subscribers }
      polling := none
      queues := (pollEach lookup w.watcher.batch ss w.queues source told).queues } := by
  induction ss generalizing w passed source told with
  | nil =>
      simp only [pollEach, List.append_nil]
      exact .single (.endPoll hpolling)
  | cons s rest ih =>
      unfold pollEach
      cases hanswer : lookup source s.cursor w.watcher.batch with
      | mk result source' =>
          cases result with
          | error fault => exact .single (.fail hpolling)
          | ok ds =>
              have hanswered := Turn.answer hpolling (hlookup _ _ _ _ hanswer)
              have hdelivered := deliver_turns (w := { w with
                polling := some ⟨passed, s :: rest, some ds⟩ }) rfl
              rcases hdeliver : deliver ds s (Queues.get w.queues s.queue) with
                ⟨n, progress, s', q⟩
              have hqueue : s'.queue = s.queue := by
                have h := deliver_queue ds s (Queues.get w.queues s.queue)
                rwa [hdeliver] at h
              simp only [hdeliver] at hdelivered ⊢
              simp only [hqueue]
              have hrest := ih (w := { w with
                queues := w.queues.set s.queue q
                polling := some ⟨if progress = .closed then passed else passed ++ [s'], rest,
                  none⟩ }) hlookup rfl source' (told + n)
              have hall := (hdelivered.trans hrest).head hanswered
              by_cases hclosed : progress = .closed
              · simpa [hclosed] using hall
              · simpa [hclosed] using hall

theorem poll_turns {τ : Type} {lookup : Lookup τ} (hidle : w.polling = none)
    (hlookup : ∀ source after answer source', lookup source after w.watcher.batch =
      (.ok answer, source') → Answers w.documents after w.watcher.batch answer) (source : τ) :
    Turns w { w with
      watcher := (w.watcher.poll lookup w.queues source).1
      queues := (w.watcher.poll lookup w.queues source).2.queues } := by
  have hbegin := Turn.beginPoll hidle
  have hpoll := pollEach_turns (w := { w with polling := some ⟨[], w.watcher.subscribers, none⟩ })
    hlookup rfl source 0
  have hall := hpoll.head hbegin
  unfold poll
  simpa [← hidle] using hall

theorem poll_steps {τ : Type} {lookup : Lookup τ} (hidle : w.polling = none)
    (hlookup : ∀ source after answer source', lookup source after w.watcher.batch =
      (.ok answer, source') → Answers w.documents after w.watcher.batch answer) (source : τ) :
    Steps w { w with
      watcher := (w.watcher.poll lookup w.queues source).1
      queues := (w.watcher.poll lookup w.queues source).2.queues } :=
  Relation.ReflTransGen.mono (fun _ _ hturn => hturn.step) _ _
    (poll_turns hidle hlookup source)

/-- The receiver of each subscriber was sent the events of the documents from the start of the
subscription to the cursor, none left out, each once and in order. A poll in which no query fails,
with nothing else happening, brings a subscriber on by the least of the batch, the room in its queue
and the run of documents that is stored behind its cursor, and answers the sum. -/
theorem subscribers_are_told_exactly (hreach : Reachable w) :
    (∀ s ∈ w.subscribers, ∃ start, w.start? s.queue = some start ∧ start ≤ s.cursor ∧
      (w.told s.queue).map (·.sequence) = List.range' (start + 1) (s.cursor - start) ∧
      (∀ e ∈ w.told s.queue, ∃ d ∈ w.documents, d.event = e) ∧
      ∀ d ∈ w.documents, start < d.sequence → d.sequence ≤ s.cursor →
        d.event ∈ w.told s.queue) ∧
    (∀ i start, w.start? i = some start → ∃ n,
      (w.told i).map (·.sequence) = List.range' (start + 1) n) ∧
    (w.polling = none → ∀ (τ : Type) (lookup : Lookup τ) (source : τ),
      (∀ source after, ∃ answer source', lookup source after w.watcher.batch =
        (.ok answer, source') ∧ FirstAnswers w.documents after w.watcher.batch answer) →
      (w.watcher.poll lookup w.queues source).2.result = .ok
        (w.watcher.subscribers.map (advance w.documents w.watcher.batch w.queues)).sum ∧
      (w.watcher.poll lookup w.queues source).1.subscribers =
        advanced w.documents w.watcher.batch w.queues w.watcher.subscribers ∧
      Reachable { w with
        watcher := (w.watcher.poll lookup w.queues source).1
        queues := (w.watcher.poll lookup w.queues source).2.queues }) := by
  have hexact := hreach.exact
  refine ⟨?_, ?_, ?_⟩
  · intro s hs
    obtain ⟨start, hstart, hcursor⟩ := hexact.cursors s hs
    refine ⟨start, hstart, by omega, ?_, hexact.events s.queue, ?_⟩
    · rw [hexact.told s.queue start hstart, hcursor, Nat.add_sub_cancel_left]
    · intro d hd hgt hle
      apply hexact.event_mem hstart hd
      rw [List.mem_range'_1]
      omega
  · exact fun i start hstart => ⟨_, hexact.told i start hstart⟩
  · intro hidle τ lookup source hlookup
    have hqueues := hexact.queues
    simp only [subscribers, hidle] at hqueues
    obtain ⟨hresult, hsubscribers⟩ := pollEach_eq hlookup hqueues w.queues source 0
    have hanswers : ∀ source after answer source', lookup source after w.watcher.batch =
        (.ok answer, source') → Answers w.documents after w.watcher.batch answer := by
      intro source after answer source' heq
      obtain ⟨answer', source'', heq', hfirst⟩ := hlookup source after
      rw [heq] at heq'
      cases heq'
      exact hfirst.toAnswers
    have hsteps := poll_steps hidle hanswers source
    rw [Nat.zero_add] at hresult
    exact ⟨hresult, hsubscribers, hreach.steps hsteps⟩

def firstDocument : Document :=
  { collection := "ticker.btc", sequence := 1, id := "a", body := .null, committedAt := ⟨0, 0⟩ }

def thirdDocument : Document := { firstDocument with sequence := 3, id := "c" }

theorem gap_documents_ordered :
    [firstDocument, thirdDocument].Pairwise fun a b => a.sequence < b.sequence := by
  simp [firstDocument, thirdDocument]

theorem Reachable.gap :
    ∃ w, Reachable w ∧ w.polling = none ∧ w.documents = [firstDocument, thirdDocument] ∧
      w.watcher.subscribers = [⟨0, 1⟩] ∧ w.watcher.batch = 5 ∧ w.start? 0 = some 0 := by
  have hanswer : Answers [firstDocument, thirdDocument] 0 5 [firstDocument, thirdDocument] :=
    (firstAnswers_filter gap_documents_ordered 0 5).toAnswers
  have hstart := Reachable.initial "ticker.btc" 0 5
  have hsubscribed := (hstart.step (.openQueue 3)).step (.subscribe 0 0 rfl rfl)
  have hfirst := hsubscribed.step (.commit firstDocument rfl (by simp [World.initial]))
  have hthird := hfirst.step
    (.commit thirdDocument rfl (by simp [World.initial, firstDocument, thirdDocument]))
  have hanswered := (hthird.step (.beginPoll rfl)).step (.answer rfl hanswer)
  have hblocked := (hanswered.step (.tell rfl rfl)).step (.tell rfl rfl)
  exact ⟨_, hblocked.step (.endPoll rfl), rfl, rfl, rfl, rfl, rfl⟩

/-- A subscriber that was told of the first document waits while the second is missing. -/
theorem gap_is_waited_for :
    ∃ w, Reachable w ∧ w.documents = [firstDocument, thirdDocument] ∧ w.subscribers = [⟨0, 1⟩] ∧
      (w.told 0).map (·.sequence) = [1] ∧
      (w.watcher.poll (fun (_ : Unit) after limit =>
        (.ok ((w.documents.filter (after < ·.sequence)).take limit), ())) w.queues ()).2.result =
          .ok 0 := by
  obtain ⟨w, hreach, hidle, hdocuments, hwatching, hbatch, hstart⟩ := Reachable.gap
  have hsubscribers : w.subscribers = [⟨0, 1⟩] := by simp [subscribers, hidle, hwatching]
  obtain ⟨htold, -, hpoll⟩ := subscribers_are_told_exactly hreach
  refine ⟨w, hreach, hdocuments, hsubscribers, ?_, ?_⟩
  · obtain ⟨start, hsome, -, hsequences, -⟩ := htold ⟨0, 1⟩ (by simp [hsubscribers])
    obtain rfl : 0 = start := Option.some.inj (hstart.symm.trans hsome)
    exact hsequences
  · have hordered : w.documents.Pairwise fun a b => a.sequence < b.sequence := by
      rw [hdocuments]
      exact gap_documents_ordered
    have hrun : run [firstDocument, thirdDocument] 1 = 0 := by
      simp [run, Nat.find_eq_zero, firstDocument, thirdDocument]
    rw [(hpoll hidle Unit _ () fun _ after => ⟨_, _, rfl, firstAnswers_filter hordered after _⟩).1]
    simp [hwatching, hdocuments, advance, hrun]

end World

end Watcher
end TradingDesk

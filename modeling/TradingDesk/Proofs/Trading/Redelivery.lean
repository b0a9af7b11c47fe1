import TradingDesk.Proofs.Trading.Tracing
/-!
# Events that are delivered again

Whatever is delivered, in whatever order and however often, the orders that are handed in for one
collection belong to events of ever greater sequences. The mark that an event was evaluated is
stored together with the order that it led to, before that order is handed in, and no mark is ever
taken back.
-/

namespace TradingDesk
namespace Executor

/-- The events for which orders were handed in. -/
def Transcript.triggers (t : Transcript) : List ChangeEvent :=
  t.submitted.filterMap (·.1)

theorem Transcript.triggers_congr {t t' : Transcript} (h : t'.submitted = t.submitted) :
    t'.triggers = t.triggers := by
  rw [triggers, h, triggers]

/-- Whether one event comes before another, if they are of one collection. -/
def Precedes (e e' : ChangeEvent) : Prop :=
  e.collection = e'.collection → e.sequence < e'.sequence

/-- Two state documents of which the second has no collection evaluated less far. -/
def Later (a b : Json) : Prop :=
  ∃ p q : Portfolio, Portfolio.read? a = some p ∧ Portfolio.read? b = some q ∧ p.UpTo q

/-- What was handed in is marked in the stored state, and what is stored is marked in memory. -/
structure Marked (o : Outline) : Prop where
  triggered : ∀ s ∈ o.transcript.submitted, ∃ e, s.1 = some e
  increasing : o.transcript.triggers.Pairwise Precedes
  stored : ∀ e ∈ o.transcript.triggers, ∃ p, o.stored = some p ∧ p.hasEvaluated e = true
  memory : ∀ q p, o.posture = some q → o.stored = some p → p.UpTo q.state
  placing : ∀ q order event, o.posture = some q → q.aim = .placing order →
    q.call = some event → ∀ e ∈ o.transcript.triggers, Precedes e event
  documents : o.transcript.stored.Pairwise Later
  last : ∀ document ∈ o.transcript.stored, ∃ p q, Portfolio.read? document = some p ∧
    o.stored = some q ∧ p.UpTo q

namespace Marked

variable {stored : Option Portfolio} {posture : Option Posture} {p q : Portfolio} {aim : Aim}
  {call : Option ChangeEvent} {order : Order} {event : ChangeEvent} {t t' : Transcript}

theorem initial : Marked Outline.initial := by
  constructor <;> simp [Outline.initial, Transcript.triggers, Transcript.submitted,
    Transcript.stored]

/-- Nothing is handed in and nothing is stored. -/
theorem quiet (h : Marked ⟨stored, posture, t⟩) (hsubmitted : t'.submitted = t.submitted)
    (hdocuments : t'.stored = t.stored) {posture' : Option Posture}
    (hmemory : ∀ q p, posture' = some q → stored = some p → p.UpTo q.state)
    (hplacing : ∀ q order event, posture' = some q → q.aim = .placing order →
      q.call = some event → ∀ e ∈ t.triggers, Precedes e event) :
    Marked ⟨stored, posture', t'⟩ := by
  have htriggers := Transcript.triggers_congr hsubmitted
  constructor
  · simpa only [hsubmitted] using h.triggered
  · simpa only [htriggers] using h.increasing
  · simpa only [htriggers] using h.stored
  · exact hmemory
  · simpa only [htriggers] using hplacing
  · simpa only [hdocuments] using h.documents
  · simpa only [hdocuments] using h.last

/-- Only the state in memory and the aim change, and nothing is unmarked. -/
theorem internal (h : Marked ⟨stored, some ⟨p, aim, call⟩, t⟩) {aim' : Aim}
    {call' : Option ChangeEvent} (hupTo : p.UpTo q) (haim : ∀ order, aim' ≠ .placing order) :
    Marked ⟨stored, some ⟨q, aim', call'⟩, t⟩ := by
  apply h.quiet rfl rfl
  · rintro _ s ⟨⟩ hs
    exact (h.memory _ s rfl hs).trans hupTo
  · rintro _ order event ⟨⟩ heq
    exact absurd heq (haim order)

theorem answered (h : Marked ⟨stored, some ⟨p, aim, call⟩, t⟩) {aim' : Aim}
    {call' : Option ChangeEvent} {order : Order} {answer : Except Fault Order.Outcome}
    (hupTo : p.UpTo q) (haim : ∀ order, aim' ≠ .placing order) :
    Marked ⟨stored, some ⟨q, aim', call'⟩, t ++ [Observation.answered order answer]⟩ := by
  have hinternal : Marked ⟨stored, some ⟨q, aim', call'⟩, t⟩ := h.internal hupTo haim
  exact hinternal.quiet (by simp [Transcript.submitted]) (by simp [Transcript.stored])
    hinternal.memory hinternal.placing

/-- An order is handed in for an event that is marked in the stored state. -/
theorem submit (h : Marked ⟨some p, some ⟨p, .placing order, some event⟩, t⟩)
    (hevaluated : p.hasEvaluated event = true) :
    Marked ⟨some p, some ⟨p, .following order, some event⟩,
      t ++ [Observation.submitted (some event) order]⟩ := by
  have htriggers : Transcript.triggers (t ++ [Observation.submitted (some event) order]) =
      t.triggers ++ [event] := by
    simp [Transcript.triggers, Transcript.submitted]
  have hdocuments :
      Transcript.stored (t ++ [Observation.submitted (some event) order]) = t.stored := by
    simp [Transcript.stored]
  constructor
  · intro s hs
    rw [Transcript.submitted_append, List.mem_append] at hs
    rcases hs with hs | hs
    · exact h.triggered s hs
    · obtain rfl : s = (some event, order) := by simpa [Transcript.submitted] using hs
      exact ⟨event, rfl⟩
  · simp only [htriggers]
    refine List.pairwise_append.mpr ⟨h.increasing, List.pairwise_singleton _ _, ?_⟩
    intro e he e' he'
    rw [List.mem_singleton.mp he']
    exact h.placing _ order event rfl rfl rfl e he
  · intro e he
    simp only [htriggers, List.mem_append, List.mem_singleton] at he
    rcases he with he | rfl
    · exact h.stored e he
    · exact ⟨p, rfl, hevaluated⟩
  · rintro _ _ ⟨⟩ ⟨⟩
    exact .refl p
  · rintro _ _ _ ⟨⟩ ⟨⟩
  · simpa only [hdocuments] using h.documents
  · simpa only [hdocuments] using h.last

/-- A document is written that says what is in memory. -/
theorem keep (h : Marked ⟨stored, some ⟨p, aim, call⟩, t⟩) {document : Json}
    (hread : Portfolio.read? document = some p) :
    Marked ⟨some p, some ⟨p, aim, call⟩, t ++ [Observation.stored document]⟩ := by
  have hsubmitted :
      Transcript.submitted (t ++ [Observation.stored document]) = t.submitted := by
    simp [Transcript.submitted]
  have htriggers := Transcript.triggers_congr hsubmitted
  have hdocuments : Transcript.stored (t ++ [Observation.stored document]) =
      t.stored ++ [document] := by
    simp [Transcript.stored]
  -- whatever is marked in an earlier document is marked in memory
  have hearlier : ∀ document ∈ t.stored, ∃ q, Portfolio.read? document = some q ∧
      q.UpTo p := by
    intro document hdocument
    obtain ⟨q, s, hq, hs, hupTo⟩ := h.last document hdocument
    exact ⟨q, hq, hupTo.trans (h.memory _ s rfl hs)⟩
  constructor
  · simpa only [hsubmitted] using h.triggered
  · simpa only [htriggers] using h.increasing
  · intro e he
    simp only [htriggers] at he
    obtain ⟨s, hs, hevaluated⟩ := h.stored e he
    exact ⟨p, rfl, (h.memory _ s rfl hs).hasEvaluated hevaluated⟩
  · rintro _ _ ⟨⟩ ⟨⟩
    exact .refl p
  · simpa only [htriggers] using h.placing
  · simp only [hdocuments]
    refine List.pairwise_append.mpr ⟨h.documents, List.pairwise_singleton _ _, ?_⟩
    intro a ha b hb
    rw [List.mem_singleton.mp hb]
    obtain ⟨q, hq, hupTo⟩ := hearlier a ha
    exact ⟨q, p, hq, hread, hupTo⟩
  · intro document hdocument
    simp only [hdocuments, List.mem_append, List.mem_singleton] at hdocument
    rcases hdocument with hdocument | rfl
    · obtain ⟨q, hq, hupTo⟩ := hearlier document hdocument
      exact ⟨q, p, hq, rfl, hupTo⟩
    · exact ⟨p, p, hread, rfl, .refl p⟩

theorem step {id : String} {o o' : Outline} (hstep : Outline.Step id o o')
    (hcoherent : o.Coherent) (h : Marked o) : Marked o' := by
  cases hstep with
  | @start stored t now =>
      apply h.quiet rfl rfl
      · rintro _ p ⟨⟩ rfl
        exact .refl p
      · rintro _ _ _ ⟨⟩ ⟨⟩
  | call => exact h.internal (.refl _) (by simp)
  | begin => exact h.internal (Portfolio.upTo_of_evaluated_eq rfl) (by simp)
  | reset => exact h.internal (Portfolio.upTo_of_evaluated_eq rfl) (by simp)
  | skip => exact h.internal (Portfolio.upTo_markEvaluated _ _) (by simp)
  | @create t p event call order now =>
      obtain ⟨-, -, hnew, hcall⟩ := hcoherent.process
      apply h.quiet (by simp [Transcript.submitted]) (by simp [Transcript.stored])
      · rintro _ _ ⟨⟩ ⟨⟩
        exact p.upTo_markEvaluated event
      · rintro _ _ event' ⟨⟩ - hcall' e he hcollection
        obtain rfl : event = event' := Option.some.inj (hcall.symm.trans hcall')
        -- the state is stored here, so that it marks all that was handed in
        obtain ⟨_, ⟨⟩, hold⟩ := h.stored e he
        exact Portfolio.lt_of_hasEvaluated hold hnew hcollection
  | submit =>
      obtain ⟨-, -, -, event, rfl, hevaluated⟩ := hcoherent.process
      exact h.submit hevaluated
  | inquire => exact h.internal (.refl _) (by simp)
  | hear => exact h.answered (.refl _) (by simp)
  | dismiss => exact h.answered (Portfolio.upTo_of_evaluated_eq rfl) (by simp)
  | book now hbook =>
      refine h.answered (Portfolio.upTo_of_evaluated_eq ?_) (by simp)
      rw [Portfolio.applyFill?_eq hbook]
  | choke => exact h.answered (.refl _) (by simp)
  | giveUp => exact h.internal (Portfolio.upTo_of_evaluated_eq rfl) (by simp)
  | rest => exact h.internal (.refl _) (by simp)
  | «break» => exact h.internal (.refl _) (by simp)
  | keep hvalid => exact h.keep (Portfolio.read?_document hvalid)
  | crash =>
      exact h.quiet (by simp [Transcript.submitted]) (by simp [Transcript.stored]) (by simp)
        (by simp)

theorem of_steps {id : String} {o : Outline} (hsteps : Outline.Steps id Outline.initial o) :
    Marked o :=
  hsteps.invariant initial fun hsteps hstep h => h.step hstep hsteps.coherent

end Marked

/-- Among events of which each precedes the later ones none is found twice. -/
theorem countP_le_one_of_precedes {events : List ChangeEvent} (h : events.Pairwise Precedes)
    (collection : String) (sequence : Nat) :
    (events.countP fun e => e.collection = collection ∧ e.sequence = sequence) ≤ 1 := by
  induction events with
  | nil => simp
  | cons e rest ih =>
      obtain ⟨hfirst, hrest⟩ := List.pairwise_cons.mp h
      rw [List.countP_cons]
      split
      · next heq =>
        obtain ⟨rfl, rfl⟩ : e.collection = collection ∧ e.sequence = sequence := by simpa using heq
        have hnone : (rest.countP fun e' => e'.collection = e.collection ∧
            e'.sequence = e.sequence) = 0 := by
          rw [List.countP_eq_zero]
          intro e' he'
          simp only [decide_eq_true_eq]
          rintro ⟨hcollection, hsequence⟩
          have hlt := hfirst e' he' hcollection.symm
          omega
        omega
      · exact ih hrest

variable {σ : Type} {setup : Setup} {strategy : Strategy σ} {w : World σ}

/-- Each order is handed in for an event; the events of one collection come in strictly increasing
order, so that none gets two orders; and no stored document has less evaluated than one before. -/
theorem redelivery_submits_once (hreach : World.Reachable setup strategy w) :
    (∀ s ∈ w.transcript.submitted, ∃ e, s.1 = some e) ∧
    w.transcript.triggers.Pairwise Precedes ∧
    (∀ collection sequence, (w.transcript.triggers.countP fun e =>
      e.collection = collection ∧ e.sequence = sequence) ≤ 1) ∧
    w.transcript.stored.Pairwise Later := by
  obtain ⟨hsteps, -⟩ := hreach.outline
  have hmarked := Marked.of_steps hsteps
  exact ⟨hmarked.triggered, hmarked.increasing, countP_le_one_of_precedes hmarked.increasing,
    hmarked.documents⟩

/-- An event that is delivered again, after a crash, gets no second order. -/
theorem eager_event_submits_once :
    ∃ w, World.Reachable World.eagerSetup World.eager w ∧
      w.transcript.triggers = [World.eagerEvent] ∧ w.transcript.triggers.Pairwise Precedes ∧
      w.transcript.stored.length = 3 ∧ w.transcript.stored.Pairwise Later := by
  obtain ⟨w, document, hreach, htranscript⟩ := World.Reachable.eager_fill
  obtain ⟨-, hincreasing, -, hdocuments⟩ := redelivery_submits_once hreach
  refine ⟨w, hreach, ?_, hincreasing, ?_, hdocuments⟩
  · rw [htranscript]
    rfl
  · rw [htranscript]
    rfl

end Executor
end TradingDesk

import TradingDesk.Proofs.Trading.Ledger
/-!
# Fills are booked once

A fill is booked in memory and counts once a document was written after it. A process that ends in
between takes its bookings with it, and the next one starts from the document, where the order is
pending still; it asks the gateway again and is told of the same fill. The lots and the last exit of
a document are therefore those fills booked one after the other, each order once and in the order of
creation.
-/

namespace TradingDesk
namespace Executor

open Transcript

/-! ### What documents and processes have booked -/

/-- A portfolio has booked these fills, of these orders. -/
structure Entered (id : String) (p : Portfolio) (fills : List (Order × Fill))
    (orders : List Order) : Prop where
  book : ∀ now, ∃ q, (Portfolio.new id now).bookAll? fills = some q ∧ q.SameBook p
  orders : (fills.map (·.1) ++ p.pending.toList).Sublist orders

namespace Entered

variable {id : String} {p q : Portfolio} {fills : List (Order × Fill)} {orders : List Order}

theorem new (id : String) (now : Instant) (orders : List Order) :
    Entered id (Portfolio.new id now) [] orders where
  book now' := ⟨Portfolio.new id now', rfl, rfl, rfl⟩
  orders := List.nil_sublist orders

theorem same (h : Entered id p fills orders) (hbook : p.SameBook q)
    (hpending : q.pending = p.pending) : Entered id q fills orders where
  book now := by
    obtain ⟨s, hs, hsame⟩ := h.book now
    exact ⟨s, hs, hsame.trans hbook⟩
  orders := by
    rw [hpending]
    exact h.orders

theorem create (h : Entered id p fills orders) (hbook : p.SameBook q) {order : Order}
    (hnone : p.pending = none) (hpending : q.pending = some order) :
    Entered id q fills (orders ++ [order]) where
  book := (h.same (q := { q with pending := p.pending }) hbook rfl).book
  orders := by
    have hsub := h.orders
    rw [hnone, Option.toList_none, List.append_nil] at hsub
    rw [hpending]
    exact hsub.append (List.Sublist.refl _)

theorem mono (h : Entered id p fills orders) {orders' : List Order}
    (hsub : orders.Sublist orders') : Entered id p fills orders' where
  book := h.book
  orders := h.orders.trans hsub

theorem dismiss (h : Entered id p fills orders) (hbook : p.SameBook q)
    (hpending : q.pending = none) : Entered id q fills orders where
  book := (h.same (q := { q with pending := p.pending }) hbook rfl).book
  orders := by
    rw [hpending, Option.toList_none, List.append_nil]
    exact (List.sublist_append_left _ _).trans h.orders

theorem fill (h : Entered id p fills orders) {order : Order} {fill : Fill} {p' : Portfolio}
    (hpending : p.pending = some order) (hfill : p.applyFill? order fill = some p')
    (hbook : p'.SameBook q) (hnone : q.pending = none) :
    Entered id q (fills ++ [(order, fill)]) orders where
  book now := by
    obtain ⟨s, hs, hsame⟩ := h.book now
    obtain ⟨s', hs', hsame'⟩ := hsame.symm.applyFill? hfill
    refine ⟨s', ?_, hsame'.symm.trans hbook⟩
    rw [Portfolio.bookAll?_concat hs, hs']
  orders := by
    have hsub := h.orders
    rw [hpending] at hsub
    simpa [hnone] using hsub

end Entered

/-- Which fills the documents, the stored state and the state in memory have booked. -/
structure Booked (id : String) (o : Outline) : Prop where
  documents : ∀ before document after,
    o.transcript = before ++ Observation.stored document :: after →
      ∃ p, Portfolio.read? document = some p ∧
        Entered id p (booked (before ++ [Observation.stored document])) (created before)
  stored : ∀ p, o.stored = some p → Entered id p o.transcript.booked o.transcript.created
  unstored : o.stored = none → o.transcript.booked = []
  memory : ∀ q, o.posture = some q → q.aim ≠ .broken →
    Entered id q.state o.transcript.known o.transcript.created
  ended : o.posture = none → o.transcript.ledger.seen = []

namespace Booked

variable {id : String} {stored : Option Portfolio} {posture posture' : Option Posture}
  {p q : Portfolio} {aim aim' : Aim} {call call' : Option ChangeEvent} {t : Transcript}

theorem initial : Booked id Outline.initial := by
  constructor <;> simp [Outline.initial, booked, ledger]

/-- Only the state in memory and the aim change, and nothing is booked. -/
theorem internal (h : Booked id ⟨stored, some ⟨p, aim, call⟩, t⟩) (hbook : p.SameBook q)
    (hpending : q.pending = p.pending) (haim : aim' ≠ .broken → aim ≠ .broken) :
    Booked id ⟨stored, some ⟨q, aim', call'⟩, t⟩ where
  documents := h.documents
  stored := h.stored
  unstored := h.unstored
  memory := by
    rintro _ ⟨⟩ hrunning
    exact (h.memory _ rfl (haim hrunning)).same hbook hpending
  ended := by simp

/-- Something is seen that is not a document. -/
theorem extend (h : Booked id ⟨stored, posture, t⟩) {ob : Observation}
    (hob : ∀ document, ob ≠ .stored document)
    (hmemory : ∀ q, posture' = some q → q.aim ≠ .broken →
      Entered id q.state (known (t ++ [ob])) (created (t ++ [ob])))
    (hended : posture' = none → (ledger (t ++ [ob])).seen = []) :
    Booked id ⟨stored, posture', t ++ [ob]⟩ where
  documents := by
    intro before document after hsplit
    rcases split_append hsplit with ⟨after', hold⟩ | ⟨-, hlast⟩
    · exact h.documents before document after' hold
    · exact absurd hlast (hob document)
  stored := by
    intro p hp
    simp only [booked_append t ob hob, created_append]
    exact (h.stored p hp).mono (List.sublist_append_left _ _)
  unstored := by
    intro hnone
    simp only [booked_append t ob hob]
    exact h.unstored hnone
  memory := hmemory
  ended := hended

theorem step {o o' : Outline} (hstep : Outline.Step id o o') (hcoherent : o.Coherent)
    (h : Booked id o) : Booked id o' := by
  cases hstep with
  | @start stored t now =>
      refine ⟨h.documents, h.stored, h.unstored, ?_, by simp⟩
      rintro _ ⟨⟩ -
      -- no process is left that has seen more than counts
      have hknown : known t = booked t := by
        have hseen : t.ledger.seen = [] := h.ended rfl
        rw [known, hseen, List.append_nil, booked]
      simp only [hknown]
      cases stored with
      | none =>
          have hbooked : booked t = [] := h.unstored rfl
          rw [hbooked]
          exact .new id now _
      | some p => exact h.stored p rfl
  | call => exact h.internal ⟨rfl, rfl⟩ rfl (by simp)
  | begin => exact h.internal ⟨rfl, rfl⟩ rfl (by simp)
  | reset now hphase haim => exact h.internal ⟨rfl, rfl⟩ rfl fun _ => haim
  | skip => exact h.internal ⟨rfl, rfl⟩ rfl (by simp)
  | @create t p event call order now =>
      obtain ⟨hp, hphase, -⟩ := hcoherent.process
      have hnone := hp.pending_eq_none (.inr hphase)
      refine h.extend (by simp) ?_ (by simp)
      rintro _ ⟨⟩ -
      have hcreated : created (t ++ [Observation.created order]) = created t ++ [order] := by
        simp [created]
      rw [known_created, hcreated]
      have hentered := h.memory _ rfl (by simp)
      refine hentered.create ?_ hnone rfl
      exact ⟨rfl, rfl⟩
  | @submit t p order call =>
      refine h.extend (by simp) ?_ (by simp)
      rintro _ ⟨⟩ -
      have hentered := h.memory _ rfl (by simp)
      rw [known_submitted, created_append_of_ne t _ (by simp)]
      exact hentered
  | inquire => exact h.internal ⟨rfl, rfl⟩ rfl (by simp)
  | @hear stored t p order call answer hopen =>
      refine h.extend (by simp) ?_ (by simp)
      rintro _ ⟨⟩ -
      have hanswer : ∀ fill, answer ≠ .ok (.filled fill) := by
        rintro fill rfl
        have hfalse := hopen _ rfl
        contradiction
      rw [known_answered t order hanswer, created_append_of_ne t _ (by simp)]
      exact h.memory _ rfl (by simp)
  | @dismiss stored t p order call outcome now hfinal hnone =>
      refine h.extend (by simp) ?_ (by simp)
      rintro _ ⟨⟩ -
      rw [known_answered t order (by simpa using hnone), created_append_of_ne t _ (by simp)]
      exact (h.memory _ rfl (by simp)).dismiss ⟨rfl, rfl⟩ rfl
  | @book stored t p q order call fill now hbook =>
      obtain ⟨-, -, hpending⟩ := hcoherent.process
      refine h.extend (by simp) ?_ (by simp)
      rintro _ ⟨⟩ -
      rw [known_filled, created_append_of_ne t _ (by simp)]
      exact (h.memory _ rfl (by simp)).fill hpending hbook ⟨rfl, rfl⟩ rfl
  | choke =>
      refine h.extend (by simp) ?_ (by simp)
      rintro _ ⟨⟩ hrunning
      exact absurd rfl hrunning
  | giveUp => exact h.internal ⟨rfl, rfl⟩ rfl (by simp)
  | rest haim => exact h.internal ⟨rfl, rfl⟩ rfl fun _ => haim
  | «break» => exact h.internal ⟨rfl, rfl⟩ rfl (by simp)
  | @keep stored t p aim call hvalid haim =>
      have hp := h.memory _ rfl haim
      have hcreated := created_append_of_ne t (.stored p.toJson.settled) (by simp)
      constructor
      · intro before document after hsplit
        rcases split_append hsplit with ⟨after', hold⟩ | ⟨rfl, hlast⟩
        · exact h.documents before document after' hold
        · cases hlast
          exact ⟨p, Portfolio.read?_document hvalid, by rwa [booked_stored]⟩
      · rintro _ ⟨⟩
        simpa only [booked_stored, hcreated] using hp
      · simp
      · rintro _ ⟨⟩ -
        simpa only [known_stored, hcreated] using hp
      · simp
  | crash =>
      refine h.extend (by simp) (by simp) ?_
      intro
      rw [ledger_append]
      rfl

theorem of_steps {o : Outline} (hsteps : Outline.Steps id Outline.initial o) : Booked id o :=
  hsteps.invariant initial fun hsteps hstep h => h.step hstep hsteps.coherent

end Booked

/-! ### No fill is lost -/

/-- A fill of an order that was handed in is booked, or its order is pending still: in the stored
state and in memory. -/
structure Retained (o : Outline) : Prop where
  created : ∀ order ∈ o.transcript.handedIn, order ∈ o.transcript.created
  stored : ∀ order fill, order ∈ o.transcript.handedIn →
    (order, .ok (.filled fill)) ∈ o.transcript.answered →
    (order, fill) ∈ o.transcript.booked ∨ ∃ p, o.stored = some p ∧ p.pending = some order
  memory : ∀ q order fill, o.posture = some q → order ∈ o.transcript.handedIn →
    (order, .ok (.filled fill)) ∈ o.transcript.answered →
    (order, fill) ∈ o.transcript.known ∨ q.state.pending = some order
  pending : ∀ q order, o.posture = some q → order ∈ o.transcript.handedIn →
    q.state.pending = some order → ∃ p, o.stored = some p ∧ p.pending = some order

namespace Retained

variable {id : String} {stored : Option Portfolio} {posture : Option Posture} {p q : Portfolio}
  {aim aim' : Aim} {call call' : Option ChangeEvent} {t : Transcript}

theorem initial : Retained Outline.initial := by
  constructor <;> simp [Outline.initial, handedIn, submitted]

theorem internal (h : Retained ⟨stored, some ⟨p, aim, call⟩, t⟩)
    (hpending : q.pending = p.pending) : Retained ⟨stored, some ⟨q, aim', call'⟩, t⟩ where
  created := h.created
  stored := h.stored
  memory := by
    rintro _ order fill ⟨⟩
    simp only [hpending]
    exact h.memory _ order fill rfl
  pending := by
    rintro _ order ⟨⟩
    simp only [hpending]
    exact h.pending _ order rfl

/-- An answer is taken in that is no fill. -/
theorem answered (h : Retained ⟨stored, some ⟨p, aim, call⟩, t⟩) {order : Order}
    {answer : Except Fault Order.Outcome} (hanswer : ∀ fill, answer ≠ .ok (.filled fill))
    (hpending : ∀ order' fill, (order', .ok (.filled fill)) ∈ t.answered →
      p.pending = some order' → q.pending = some order')
    (hpending' : ∀ order', q.pending = some order' → p.pending = some order') :
    Retained ⟨stored, some ⟨q, aim', call'⟩, t ++ [Observation.answered order answer]⟩ := by
  have hcreated := created_append_of_ne t (.answered order answer) (by simp)
  have hhanded := handedIn_append_of_ne t (.answered order answer) (by simp)
  have hbooked := booked_append t (.answered order answer) (by simp)
  have hknown := known_answered t order hanswer
  have hold : ∀ order' fill,
      (order', .ok (.filled fill)) ∈
          Transcript.answered (t ++ [Observation.answered order answer]) →
        (order', .ok (.filled fill)) ∈ t.answered := by
    intro order' fill hmem
    rw [answered_append, List.mem_append] at hmem
    rcases hmem with hmem | hmem
    · exact hmem
    · have heq : (order', Except.ok (Order.Outcome.filled fill)) = (order, answer) := by
        simpa [Transcript.answered] using hmem
      exact absurd (Prod.ext_iff.mp heq).2.symm (hanswer fill)
  constructor
  · simpa only [hcreated, hhanded] using h.created
  · intro order' fill hmem hfill
    simp only [hhanded, hbooked] at hmem ⊢
    exact h.stored order' fill hmem (hold _ _ hfill)
  · rintro _ order' fill ⟨⟩ hmem hfill
    simp only [hhanded, hknown] at hmem ⊢
    have hfill' := hold _ _ hfill
    exact (h.memory _ order' fill rfl hmem hfill').imp_right (hpending order' fill hfill')
  · rintro _ order' ⟨⟩ hmem hq
    simp only [hhanded] at hmem
    exact h.pending _ order' rfl hmem (hpending' order' hq)

/-- A fill is taken in, booked or not. -/
theorem filled (h : Retained ⟨stored, some ⟨p, aim, call⟩, t⟩) {order : Order} {fill : Fill}
    (horder : p.pending = some order)
    (hsteady : Steady (t ++ [Observation.answered order (.ok (.filled fill))]))
    (hpending : ∀ order', q.pending = some order' → p.pending = some order') :
    Retained ⟨stored, some ⟨q, aim', call'⟩,
      t ++ [Observation.answered order (.ok (.filled fill))]⟩ := by
  have hcreated := created_append_of_ne t (.answered order (.ok (.filled fill))) (by simp)
  have hhanded := handedIn_append_of_ne t (.answered order (.ok (.filled fill))) (by simp)
  have hbooked := booked_append t (.answered order (.ok (.filled fill))) (by simp)
  have hknown := known_filled t order fill
  -- an earlier fill is one of another order, or the same
  have hold : ∀ order' fill', (order', .ok (.filled fill')) ∈
      Transcript.answered (t ++ [Observation.answered order (.ok (.filled fill))]) →
        (order', .ok (.filled fill')) ∈ t.answered ∨ (order', fill') = (order, fill) := by
    intro order' fill' hmem
    rw [answered_append, List.mem_append] at hmem
    rcases hmem with hmem | hmem
    · exact .inl hmem
    · exact .inr (by simpa [Transcript.answered] using hmem)
  have hsame : ∀ fill', (order, .ok (.filled fill')) ∈ t.answered → fill' = fill := by
    intro fill' hmem
    have heq := hsteady.filled hmem
    cases heq
    rfl
  constructor
  · simpa only [hcreated, hhanded] using h.created
  · intro order' fill' hmem hfill
    simp only [hhanded, hbooked] at hmem ⊢
    rcases hold _ _ hfill with hfill | heq
    · exact h.stored order' fill' hmem hfill
    · cases heq
      exact .inr (h.pending _ order rfl hmem horder)
  · rintro _ order' fill' ⟨⟩ hmem hfill
    simp only [hhanded, hknown, List.mem_append, List.mem_singleton] at hmem ⊢
    rcases hold _ _ hfill with hfill | heq
    · rcases h.memory _ order' fill' rfl hmem hfill with hin | hp
      · exact .inl (.inl hin)
      · obtain rfl : order = order' := Option.some.inj (horder.symm.trans hp)
        rw [hsame fill' hfill]
        exact .inl (.inr rfl)
    · exact .inl (.inr heq)
  · rintro _ order' ⟨⟩ hmem hq
    simp only [hhanded] at hmem
    exact h.pending _ order' rfl hmem (hpending order' hq)

theorem place (h : Retained ⟨some p, some ⟨p, aim, call⟩, t⟩) {order : Order}
    (hnone : p.pending = none) (hpending : q.pending = some order)
    (hfresh : Fresh (t ++ [Observation.created order])) :
    Retained ⟨some p, some ⟨q, aim', call'⟩, t ++ [Observation.created order]⟩ := by
  have hhanded := handedIn_append_of_ne t (.created order) (by simp)
  have hanswered := answered_append_of_ne t (.created order) (by simp)
  have hbooked := booked_append t (.created order) (by simp)
  have hknown := known_created t order
  constructor
  · intro order' hmem
    simp only [hhanded, created_append, List.mem_append] at hmem ⊢
    exact .inl (h.created order' hmem)
  · simpa only [hhanded, hanswered, hbooked] using h.stored
  · rintro _ order' fill ⟨⟩ hmem hfill
    simp only [hhanded, hanswered, hknown] at hmem hfill ⊢
    rcases h.memory _ order' fill rfl hmem hfill with hin | hp
    · exact .inl hin
    · rw [hnone] at hp
      contradiction
  · rintro _ order' ⟨⟩ hmem hq
    simp only [hhanded] at hmem
    obtain rfl : order = order' := Option.some.inj (hpending.symm.trans hq)
    -- an order that is new cannot have been handed in
    exact absurd (h.created order hmem) hfresh.not_mem

theorem handIn (h : Retained ⟨some p, some ⟨p, aim, call⟩, t⟩) {order : Order}
    (hpending : p.pending = some order) (hcreated : order ∈ t.created) :
    Retained ⟨some p, some ⟨p, aim', call'⟩, t ++ [Observation.submitted call order]⟩ := by
  have hanswered := answered_append_of_ne t (.submitted call order) (by simp)
  have hbooked := booked_append t (.submitted call order) (by simp)
  have hknown := known_submitted t call order
  have hsame := created_append_of_ne t (.submitted call order) (by simp)
  have hhanded : ∀ order', order' ∈ handedIn (t ++ [Observation.submitted call order]) →
      order' ∈ handedIn t ∨ order' = order := by
    intro order' hmem
    simpa [handedIn, submitted] using hmem
  constructor
  · intro order' hmem
    simp only [hsame]
    rcases hhanded order' hmem with hmem | rfl
    · exact h.created order' hmem
    · exact hcreated
  · intro order' fill hmem hfill
    simp only [hanswered, hbooked] at hfill ⊢
    rcases hhanded order' hmem with hmem | rfl
    · exact h.stored order' fill hmem hfill
    · exact .inr ⟨p, rfl, hpending⟩
  · rintro _ order' fill ⟨⟩ hmem hfill
    simp only [hanswered, hknown] at hfill ⊢
    rcases hhanded order' hmem with hmem | rfl
    · exact h.memory _ order' fill rfl hmem hfill
    · exact .inr hpending
  · rintro _ order' ⟨⟩ - hq
    exact ⟨p, rfl, hq⟩

theorem keep (h : Retained ⟨stored, some ⟨p, aim, call⟩, t⟩) (document : Json) :
    Retained ⟨some p, some ⟨p, aim', call'⟩, t ++ [Observation.stored document]⟩ := by
  have hanswered := answered_append_of_ne t (.stored document) (by simp)
  have hhanded := handedIn_append_of_ne t (.stored document) (by simp)
  have hcreated := created_append_of_ne t (.stored document) (by simp)
  have hbooked := booked_stored t document
  have hknown := known_stored t document
  constructor
  · simpa only [hcreated, hhanded] using h.created
  · intro order fill hmem hfill
    simp only [hhanded, hanswered, hbooked] at hmem hfill ⊢
    exact (h.memory _ order fill rfl hmem hfill).imp_right fun hp => ⟨p, rfl, hp⟩
  · rintro _ order fill ⟨⟩ hmem hfill
    simp only [hhanded, hanswered, hknown] at hmem hfill ⊢
    exact h.memory _ order fill rfl hmem hfill
  · rintro _ order ⟨⟩ - hq
    exact ⟨p, rfl, hq⟩

theorem crash (h : Retained ⟨stored, posture, t⟩) :
    Retained ⟨stored, none, t ++ [Observation.crashed]⟩ := by
  have hanswered := answered_append_of_ne t .crashed (by simp)
  have hhanded := handedIn_append_of_ne t .crashed (by simp)
  have hcreated := created_append_of_ne t .crashed (by simp)
  have hbooked := booked_append t .crashed (by simp)
  constructor
  · simpa only [hcreated, hhanded] using h.created
  · simpa only [hhanded, hanswered, hbooked] using h.stored
  · simp
  · simp

theorem step {o o' : Outline} (hstep : Outline.Step id o o') (hcoherent : o.Coherent)
    (hbooked : Booked id o) (hfresh : o'.transcript.Fresh) (hsteady : o'.transcript.Steady)
    (h : Retained o) : Retained o' := by
  cases hstep with
  | @start stored t now =>
      have hstored : ∀ order, (stored.getD (Portfolio.new id now)).pending = some order →
          ∃ p, stored = some p ∧ p.pending = some order := by
        intro order hpending
        cases stored with
        | none => simp [Portfolio.new] at hpending
        | some p => exact ⟨p, rfl, hpending⟩
      refine ⟨h.created, h.stored, ?_, ?_⟩
      · rintro _ order fill ⟨⟩ hmem hfill
        rcases h.stored order fill hmem hfill with hin | ⟨p, rfl, hpending⟩
        · exact .inl (List.mem_append_left _ hin)
        · exact .inr hpending
      · rintro _ order ⟨⟩ - hpending
        exact hstored order hpending
  | call => exact h.internal rfl
  | begin => exact h.internal rfl
  | reset => exact h.internal rfl
  | skip => exact h.internal rfl
  | create order now =>
      obtain ⟨hp, hphase, -⟩ := hcoherent.process
      exact h.place (hp.pending_eq_none (.inr hphase)) rfl hfresh
  | @submit t p order call =>
      obtain ⟨-, -, hpending, -⟩ := hcoherent.process
      have hentered := hbooked.memory _ rfl (by simp)
      refine h.handIn hpending (hentered.orders.subset ?_)
      simp [hpending]
  | inquire => exact h.internal rfl
  | hear hopen =>
      refine h.answered ?_ (fun _ _ _ hp => hp) fun _ hp => hp
      rintro fill rfl
      have hfalse := hopen _ rfl
      contradiction
  | @dismiss stored t p order call outcome now hfinal hnone =>
      obtain ⟨-, -, hpending⟩ := hcoherent.process
      refine h.answered (by simpa using hnone) ?_ (by simp)
      -- had it told of a fill of this order before, the gateway would tell of it again
      intro order' fill hfill hp
      obtain rfl : order = order' := Option.some.inj (hpending.symm.trans hp)
      exact absurd (hsteady.filled hfill) (hnone fill)
  | book now hbook =>
      obtain ⟨-, -, hpending⟩ := hcoherent.process
      exact h.filled hpending hsteady (by simp)
  | choke =>
      obtain ⟨-, -, hpending⟩ := hcoherent.process
      exact h.filled hpending hsteady fun _ hp => hp
  | giveUp => exact h.internal rfl
  | rest => exact h.internal rfl
  | «break» => exact h.internal rfl
  | keep => exact h.keep _
  | crash => exact h.crash

theorem of_steps {o : Outline} (hsteps : Outline.Steps id Outline.initial o) :
    o.transcript.Fresh → o.transcript.Steady → Retained o := by
  apply hsteps.invariant (P := fun o => o.transcript.Fresh → o.transcript.Steady → Retained o)
  · exact fun _ _ => initial
  · intro o o' hsteps hstep h hfresh hsteady
    obtain ⟨seen, hseen⟩ := hstep.transcript_eq
    have hfresh' := hfresh
    have hsteady' := hsteady
    rw [hseen] at hfresh' hsteady'
    exact (h hfresh'.of_append hsteady'.of_append).step hstep hsteps.coherent
      (.of_steps hsteps) hfresh hsteady

end Retained

variable {σ : Type} {setup : Setup} {strategy : Strategy σ} {w : World σ}

/-- Each document says what comes of booking, on a new portfolio, the fills that count at it: of
different orders, in the order of their creation. No order has two open lots. A fill of an order
that was handed in counts at last: until then the order is pending in the document. -/
theorem fills_are_booked_once (hreach : World.Reachable setup strategy w)
    (hfresh : w.transcript.Fresh) (hsteady : w.transcript.Steady) :
    (∀ before document after, w.transcript = before ++ Observation.stored document :: after →
      ∃ p, Portfolio.read? document = some p ∧
        (∀ now, ∃ q, (Portfolio.new setup.portfolio now).bookAll?
            (booked (before ++ [Observation.stored document])) = some q ∧
          q.lots = p.lots ∧ q.lastExit = p.lastExit) ∧
        ((booked (before ++ [Observation.stored document])).map (·.1)).Sublist (created before) ∧
        ((booked (before ++ [Observation.stored document])).map (·.1.clientId)).Nodup ∧
        (p.lots.map (·.clientId)).Nodup) ∧
    ∀ order fill, order ∈ w.transcript.handedIn →
      (order, .ok (.filled fill)) ∈ w.transcript.answered →
        (order, fill) ∈ w.transcript.booked ∨
          ∃ document p, w.document? setup = some document ∧ Portfolio.read? document = some p ∧
            (p.phase = .orderPending ∨ p.phase = .failed) ∧ p.pending = some order := by
  obtain ⟨hsteps, -⟩ := hreach.outline
  have hbooked := Booked.of_steps hsteps
  have hretained := Retained.of_steps hsteps hfresh hsteady
  constructor
  · intro before document after hsplit
    obtain ⟨p, hread, hbook, horders⟩ := hbooked.documents before document after hsplit
    have hsub : ((booked (before ++ [Observation.stored document])).map (·.1)).Sublist
        (created before) :=
      (List.sublist_append_left _ _).trans horders
    have hnodup :
        ((booked (before ++ [Observation.stored document])).map (·.1.clientId)).Nodup := by
      have hbefore : Fresh before := by
        rw [hsplit] at hfresh
        exact hfresh.of_append
      have hmap := hsub.map (·.clientId)
      rw [List.map_map] at hmap
      exact hbefore.sublist hmap
    refine ⟨p, hread, hbook, hsub, hnodup, ?_⟩
    -- the lots bear names of booked orders, whatever instant the portfolio was new at
    obtain ⟨q, hq, hlots, -⟩ := hbook p.updatedAt
    have hnames := Portfolio.bookAll?_sublist hq
    rw [hlots] at hnames
    exact hnodup.sublist (by simpa [Portfolio.new] using hnames)
  · intro order fill hmem hfill
    rcases hretained.stored order fill hmem hfill with hin | ⟨p, hp, hpending⟩
    · exact .inl hin
    · obtain ⟨document, hdocument, hread⟩ := Option.bind_eq_some_iff.mp hp
      have hphase := (hsteps.coherent.stored p hp).phase_of_pending hpending
      exact .inr ⟨document, p, hdocument, hread, hphase, hpending⟩

/-- A fill that was seen by a process that ended is booked once, by the next one. -/
theorem eager_fill_is_booked_once :
    ∃ w, World.Reachable World.eagerSetup World.eager w ∧
      w.transcript.booked = [(World.eagerOrder, World.eagerFill)] ∧
      ∃ document before after, w.transcript = before ++ Observation.stored document :: after ∧
        ∃ p, Portfolio.read? document = some p ∧
          (∀ now, ∃ q, (Portfolio.new "alpha" now).bookAll?
              (booked (before ++ [Observation.stored document])) = some q ∧
            q.lots = p.lots ∧ q.lastExit = p.lastExit) ∧
          (p.lots.map (·.clientId)).Nodup := by
  obtain ⟨w, document, hreach, htranscript⟩ := World.Reachable.eager_fill
  have hfresh : w.transcript.Fresh := by
    rw [htranscript]
    simp [World.eagerTranscript, Fresh, created]
  have hsteady : w.transcript.Steady := by
    rw [htranscript]
    simp [World.eagerTranscript, Steady, answered]
  have hbooked := (fills_are_booked_once hreach hfresh hsteady).1 _ document [] htranscript
  obtain ⟨p, hread, hbook, -, -, hlots⟩ := hbooked
  refine ⟨w, hreach, ?_, document, _, [], htranscript, p, hread, hbook, hlots⟩
  rw [htranscript]
  rfl

end Executor
end TradingDesk

import TradingDesk.Proofs.Trading.Tracing
/-!
# Orders are stored before they are handed in

An order that was handed in stands in the state document until what became of it is stored too. In
between the process may know more than the document does; whoever starts from the document asks
again. Hence no more than one order is unresolved at a time.
-/

namespace TradingDesk
namespace Executor
namespace Transcript

variable {t : Transcript} {ob : Observation} {order : Order} {place : Nat}

/-- The running process has taken in what became of an order. -/
def Known (order : Order) (t : Transcript) : Prop :=
  ∃ a b outcome, t = a ++ Observation.answered order (.ok outcome) :: b ∧ outcome.isFinal = true ∧
    .crashed ∉ b

/-- A process that had taken in what became of an order has written a document since. -/
def Recorded (order : Order) (t : Transcript) : Prop :=
  ∃ a document b, t = a ++ Observation.stored document :: b ∧ Known order a

/-- An order was handed in at this place, and what became of it is not recorded. -/
def Unresolved (t : Transcript) (place : Nat) (order : Order) : Prop :=
  ∃ trigger, t[place]? = some (.submitted trigger order) ∧ ¬ Recorded order (t.drop (place + 1))

theorem Known.append (h : Known order t) (hlive : ob ≠ .crashed) : Known order (t ++ [ob]) := by
  obtain ⟨a, b, outcome, rfl, hfinal, hb⟩ := h
  refine ⟨a, b ++ [ob], outcome, by simp, hfinal, ?_⟩
  simp [hb, hlive.symm]

theorem Known.answered {outcome : Order.Outcome} (hfinal : outcome.isFinal = true) :
    Known order (t ++ [Observation.answered order (.ok outcome)]) :=
  ⟨t, [], outcome, rfl, hfinal, by simp⟩

theorem Known.recorded (h : Known order t) (document : Json) :
    Recorded order (t ++ [Observation.stored document]) :=
  ⟨t, document, [], rfl, h⟩

theorem Recorded.append (h : Recorded order t) : Recorded order (t ++ [ob]) := by
  obtain ⟨a, document, b, rfl, hknown⟩ := h
  exact ⟨a, document, b ++ [ob], by simp, hknown⟩

theorem Unresolved.lt_length (h : Unresolved t place order) : place < t.length := by
  obtain ⟨trigger, hplace, -⟩ := h
  exact (List.getElem?_eq_some_iff.mp hplace).1

theorem drop_append_of_lt (hlt : place < t.length) (s : Transcript) :
    (t ++ s).drop (place + 1) = t.drop (place + 1) ++ s :=
  List.drop_append_of_le_length hlt

/-- What is unresolved was so before, or was handed in just now. -/
theorem Unresolved.of_append (h : Unresolved (t ++ [ob]) place order) :
    (Unresolved t place order ∧ ¬ Recorded order (t.drop (place + 1) ++ [ob])) ∨
      (place = t.length ∧ ∃ trigger, ob = .submitted trigger order) := by
  have hlt := h.lt_length
  obtain ⟨trigger, hplace, hrecorded⟩ := h
  rw [List.length_append, List.length_singleton] at hlt
  by_cases heq : place = t.length
  · subst place
    rw [List.getElem?_concat_length, Option.some.injEq] at hplace
    exact .inr ⟨rfl, trigger, hplace⟩
  · have hlt' : place < t.length := by omega
    rw [drop_append_of_lt hlt'] at hrecorded
    rw [List.getElem?_append_left hlt'] at hplace
    exact .inl ⟨⟨trigger, hplace, fun hrec => hrecorded hrec.append⟩, hrecorded⟩

theorem Unresolved.of_append_ne (h : Unresolved (t ++ [ob]) place order)
    (hother : ∀ trigger order, ob ≠ .submitted trigger order) : Unresolved t place order := by
  rcases h.of_append with ⟨hold, -⟩ | ⟨-, trigger, heq⟩
  · exact hold
  · exact absurd heq (hother trigger order)

end Transcript

open Transcript

/-- Each order that is unresolved is pending, unless the process knows what became of it. -/
def Holds (p : Portfolio) (t : Transcript) : Prop :=
  ∀ place order, Unresolved t place order →
    Known order (t.drop (place + 1)) ∨ p.pending = some order

theorem Holds.of_pending {p q : Portfolio} {t : Transcript} (h : Holds p t)
    (heq : q.pending = p.pending) : Holds q t := by
  intro place order hun
  rw [heq]
  exact h place order hun

theorem Holds.append {p : Portfolio} {t : Transcript} {ob : Observation} (h : Holds p t)
    (hother : ∀ trigger order, ob ≠ .submitted trigger order) (hlive : ob ≠ .crashed) :
    Holds p (t ++ [ob]) := by
  intro place order hun
  have hold := hun.of_append_ne hother
  rw [drop_append_of_lt hold.lt_length]
  rcases h place order hold with hknown | hpending
  · exact .inl (hknown.append hlive)
  · exact .inr hpending

/-- Once it is taken in what became of the pending order, nothing has to be pending. -/
theorem Holds.answered {p : Portfolio} {t : Transcript} {order : Order} {outcome : Order.Outcome}
    (h : Holds p t) (hpending : p.pending = some order) (hfinal : outcome.isFinal = true)
    (q : Portfolio) : Holds q (t ++ [Observation.answered order (.ok outcome)]) := by
  intro place order' hun
  have hold := hun.of_append_ne (by simp)
  rw [drop_append_of_lt hold.lt_length]
  rcases h place order' hold with hknown | hpending'
  · exact .inl (hknown.append (by simp))
  · obtain rfl : order = order' := Option.some.inj (hpending.symm.trans hpending')
    exact .inl (.answered hfinal)

/-- Write-ahead of orders: stored, in memory, and while an order is about to be handed in. -/
structure WriteAhead (o : Outline) : Prop where
  stored : ∀ place order, Unresolved o.transcript place order →
    ∃ p, o.stored = some p ∧ p.pending = some order
  unique : ∀ place place' order order', Unresolved o.transcript place order →
    Unresolved o.transcript place' order' → place = place'
  memory : ∀ q, o.posture = some q → Holds q.state o.transcript
  placing : ∀ q order, o.posture = some q → q.aim = .placing order →
    ∀ place order', ¬ Unresolved o.transcript place order'

namespace WriteAhead

variable {stored : Option Portfolio} {posture : Option Posture} {p q : Portfolio} {aim : Aim}
  {call : Option ChangeEvent} {order : Order} {t t' : Transcript}

theorem initial : WriteAhead Outline.initial := by
  constructor <;> simp [Outline.initial, Unresolved]

/-- Nothing is handed in and nothing is stored. -/
theorem quiet (h : WriteAhead ⟨stored, posture, t⟩)
    (hun : ∀ place order, Unresolved t' place order → Unresolved t place order)
    (hmemory : Holds p t') (haim : ∀ order, aim ≠ .placing order) :
    WriteAhead ⟨stored, some ⟨p, aim, call⟩, t'⟩ where
  stored place order hplace := h.stored place order (hun place order hplace)
  unique place place' order order' hplace hplace' :=
    h.unique place place' order order' (hun _ _ hplace) (hun _ _ hplace')
  memory := by
    rintro _ ⟨⟩
    exact hmemory
  placing := by
    rintro _ order ⟨⟩ heq
    exact absurd heq (haim order)

/-- Only the state in memory and the aim change. -/
theorem internal (h : WriteAhead ⟨stored, some ⟨p, aim, call⟩, t⟩) {aim' : Aim}
    {call' : Option ChangeEvent} (hpending : q.pending = p.pending)
    (haim : ∀ order, aim' ≠ .placing order) : WriteAhead ⟨stored, some ⟨q, aim', call'⟩, t⟩ :=
  h.quiet (fun _ _ hun => hun) ((h.memory _ rfl).of_pending hpending) haim

theorem answered (h : WriteAhead ⟨stored, posture, t⟩) {answer : Except Fault Order.Outcome}
    (hmemory : Holds p (t ++ [Observation.answered order answer]))
    (haim : ∀ order, aim ≠ .placing order) :
    WriteAhead ⟨stored, some ⟨p, aim, call⟩, t ++ [Observation.answered order answer]⟩ :=
  h.quiet (fun _ _ hun => hun.of_append_ne (by simp)) hmemory haim

/-- Nothing is unresolved when the stored state has no pending order. -/
theorem resolved (h : WriteAhead ⟨some p, posture, t⟩) (hnone : p.pending = none) (place : Nat)
    (order : Order) : ¬ Unresolved t place order := by
  intro hun
  obtain ⟨_, ⟨⟩, hpending⟩ := h.stored place order hun
  rw [hnone] at hpending
  contradiction

theorem create (h : WriteAhead ⟨some p, posture, t⟩) (hnone : p.pending = none) :
    WriteAhead ⟨some p, some ⟨q, .placing order, call⟩, t ++ [Observation.created order]⟩ := by
  have hnone' : ∀ place order', ¬ Unresolved (t ++ [Observation.created order]) place order' :=
    fun place order' hun => h.resolved hnone place order' (hun.of_append_ne (by simp))
  constructor
  · exact fun place order' hun => absurd hun (hnone' place order')
  · exact fun place _ order' _ hun => absurd hun (hnone' place order')
  · exact fun _ _ place order' hun => absurd hun (hnone' place order')
  · exact fun _ _ _ _ => hnone'

/-- The order that is handed in is the only one that is unresolved. -/
theorem submit (h : WriteAhead ⟨some p, some ⟨p, .placing order, call⟩, t⟩)
    (hpending : p.pending = some order) :
    WriteAhead ⟨some p, some ⟨p, .following order, call⟩,
      t ++ [Observation.submitted call order]⟩ := by
  have hnone := h.placing _ _ rfl rfl
  have hlast : ∀ place order',
      Unresolved (t ++ [Observation.submitted call order]) place order' →
        place = t.length ∧ p.pending = some order' := by
    intro place order' hun
    rcases hun.of_append with ⟨hold, -⟩ | ⟨hplace, trigger, heq⟩
    · exact absurd hold (hnone place order')
    · cases heq
      exact ⟨hplace, hpending⟩
  constructor
  · exact fun place order' hun => ⟨p, rfl, (hlast place order' hun).2⟩
  · intro place place' order order' hun hun'
    rw [(hlast _ _ hun).1, (hlast _ _ hun').1]
  · rintro _ ⟨⟩ place order' hun
    exact .inr (hlast place order' hun).2
  · rintro _ _ ⟨⟩ ⟨⟩

/-- What is unresolved still once a document was written is pending in that document. -/
theorem keep (h : WriteAhead ⟨stored, some ⟨p, aim, call⟩, t⟩) (document : Json) :
    WriteAhead ⟨some p, some ⟨p, aim, call⟩, t ++ [Observation.stored document]⟩ := by
  have hpending : ∀ place order,
      Unresolved (t ++ [Observation.stored document]) place order →
        Unresolved t place order ∧ p.pending = some order := by
    intro place order hun
    rcases hun.of_append with ⟨hold, hrecorded⟩ | ⟨-, trigger, heq⟩
    · -- what the process knew is recorded by this document
      rcases h.memory _ rfl place order hold with hknown | hpending
      · exact absurd (hknown.recorded _) hrecorded
      · exact ⟨hold, hpending⟩
    · contradiction
  constructor
  · exact fun place order hun => ⟨p, rfl, (hpending place order hun).2⟩
  · intro place place' order order' hun hun'
    exact h.unique place place' order order' (hpending _ _ hun).1 (hpending _ _ hun').1
  · rintro _ ⟨⟩ place order hun
    exact .inr (hpending place order hun).2
  · rintro _ order ⟨⟩ haim' place order' hun
    exact h.placing _ order rfl haim' place order' (hpending place order' hun).1

theorem crash (h : WriteAhead ⟨stored, posture, t⟩) :
    WriteAhead ⟨stored, none, t ++ [Observation.crashed]⟩ := by
  have hold : ∀ place order, Unresolved (t ++ [Observation.crashed]) place order →
      Unresolved t place order := fun _ _ hun => hun.of_append_ne (by simp)
  constructor
  · exact fun place order hun => h.stored place order (hold _ _ hun)
  · exact fun place place' order order' hun hun' =>
      h.unique place place' order order' (hold _ _ hun) (hold _ _ hun')
  · simp
  · simp

theorem step {id : String} {o o' : Outline} (hstep : Outline.Step id o o')
    (hcoherent : o.Coherent) (h : WriteAhead o) : WriteAhead o' := by
  cases hstep with
  | @start stored t now =>
      refine h.quiet (fun _ _ hun => hun) ?_ (by simp)
      intro place order hun
      obtain ⟨p, rfl, hpending⟩ := h.stored place order hun
      exact .inr hpending
  | call => exact h.internal rfl (by simp)
  | begin => exact h.internal rfl (by simp)
  | reset => exact h.internal rfl (by simp)
  | skip => exact h.internal rfl (by simp)
  | create =>
      obtain ⟨hp, hphase, -⟩ := hcoherent.process
      exact h.create (hp.pending_eq_none (.inr hphase))
  | submit =>
      obtain ⟨-, -, hpending, -⟩ := hcoherent.process
      exact h.submit hpending
  | inquire => exact h.internal rfl (by simp)
  | hear => exact h.answered ((h.memory _ rfl).append (by simp) (by simp)) (by simp)
  | dismiss now hfinal =>
      obtain ⟨-, -, hpending⟩ := hcoherent.process
      exact h.answered ((h.memory _ rfl).answered hpending hfinal _) (by simp)
  | book =>
      obtain ⟨-, -, hpending⟩ := hcoherent.process
      exact h.answered ((h.memory _ rfl).answered hpending rfl _) (by simp)
  | choke => exact h.answered ((h.memory _ rfl).append (by simp) (by simp)) (by simp)
  | giveUp => exact h.internal rfl (by simp)
  | rest => exact h.internal rfl (by simp)
  | «break» => exact h.internal rfl (by simp)
  | keep => exact h.keep _
  | crash => exact h.crash

theorem of_steps {id : String} {o : Outline} (hsteps : Outline.Steps id Outline.initial o) :
    WriteAhead o :=
  hsteps.invariant initial fun hsteps hstep h => h.step hstep hsteps.coherent

end WriteAhead

variable {σ : Type} {setup : Setup} {strategy : Strategy σ} {w : World σ}

open World (eager eagerSetup eagerEvent eagerOrder)

/-- While it is not stored what became of an order that was handed in, the stored document has it
pending; and no two orders are unresolved. -/
theorem unresolved_order_is_stored (hreach : World.Reachable setup strategy w) :
    (∀ place order, Unresolved w.transcript place order →
      ∃ document p, w.document? setup = some document ∧ Portfolio.read? document = some p ∧
        (p.phase = .orderPending ∨ p.phase = .failed) ∧ p.pending = some order) ∧
    ∀ place place' order order', Unresolved w.transcript place order →
      Unresolved w.transcript place' order' → place = place' := by
  obtain ⟨hsteps, -⟩ := hreach.outline
  have hahead := WriteAhead.of_steps hsteps
  refine ⟨?_, hahead.unique⟩
  intro place order hun
  obtain ⟨p, hstored, hpending⟩ := hahead.stored place order hun
  obtain ⟨document, hdocument, hread⟩ := Option.bind_eq_some_iff.mp hstored
  have hphase := (hsteps.coherent.stored p hstored).phase_of_pending hpending
  exact ⟨document, p, hdocument, hread, hphase, hpending⟩

/-- While the gateway has not answered, the first order of a portfolio is pending in its
document. -/
theorem eager_order_is_stored :
    ∃ w, World.Reachable eagerSetup eager w ∧ Unresolved w.transcript 3 eagerOrder ∧
      ∃ document p, w.document? eagerSetup = some document ∧
        Portfolio.read? document = some p ∧ (p.phase = .orderPending ∨ p.phase = .failed) ∧
        p.pending = some eagerOrder := by
  have hanswer : ValidAnswer (.error (.gateway "timeout" true)) := by simp [ValidAnswer]
  obtain ⟨store, announced, -, -, hreach⟩ := World.Reachable.eager_order hanswer
  refine ⟨_, hreach, ?_, ?_⟩
  · exact ⟨some eagerEvent, rfl, by simp [Recorded]⟩
  · refine (unresolved_order_is_stored hreach).1 3 eagerOrder ?_
    exact ⟨some eagerEvent, rfl, by simp [Recorded]⟩

end Executor
end TradingDesk

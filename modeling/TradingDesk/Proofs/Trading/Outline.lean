import TradingDesk.Proofs.Trading.Portfolio
import TradingDesk.Proofs.Trading.Runs
/-!
# Outlines of runs

What the invariants of a run speak about: the stored state, the state in memory and what the process
is about. Backoff schedules, waits and replies are left out, and every call is taken apart into the
few things it can do to an order.
-/

namespace TradingDesk
namespace Executor

/-- What a process is about. -/
inductive Aim where
  | rest
  /-- An amount grew too large; nothing happens any more. -/
  | broken
  | judging (event : ChangeEvent)
  | placing (order : Order)
  | following (order : Order)

structure Posture where
  state : Portfolio
  aim : Aim
  call : Option ChangeEvent

structure Outline where
  stored : Option Portfolio
  posture : Option Posture
  transcript : Transcript

namespace Outline

def initial : Outline := ⟨none, none, []⟩

/-- One thing that a process does, for the portfolio `id`. -/
inductive Step (id : String) : Outline → Outline → Prop
  | start {stored : Option Portfolio} {t : Transcript} (now : Instant) :
      Step id ⟨stored, none, t⟩
        ⟨stored, some ⟨stored.getD (Portfolio.new id now), .rest, none⟩, t⟩
  | call {stored : Option Portfolio} {t : Transcript} {p : Portfolio} {call : Option ChangeEvent}
      (call' : Option ChangeEvent) :
      Step id ⟨stored, some ⟨p, .rest, call⟩, t⟩ ⟨stored, some ⟨p, .rest, call'⟩, t⟩
  | begin {stored : Option Portfolio} {t : Transcript} {p : Portfolio} {event : ChangeEvent}
      (now : Instant) (hidle : p.phase = .idle) (hnew : p.hasEvaluated event = false) :
      Step id ⟨stored, some ⟨p, .rest, some event⟩, t⟩
        ⟨stored, some ⟨{ p with phase := .evaluating, updatedAt := now }, .judging event,
          some event⟩, t⟩
  | reset {stored : Option Portfolio} {t : Transcript} {p : Portfolio} {aim : Aim}
      {call : Option ChangeEvent} (now : Instant) (hphase : p.phase = .evaluating)
      (haim : aim ≠ .broken) :
      Step id ⟨stored, some ⟨p, aim, call⟩, t⟩
        ⟨stored, some ⟨{ p with phase := .idle, updatedAt := now }, .rest, call⟩, t⟩
  | skip {stored : Option Portfolio} {t : Transcript} {p : Portfolio} {event : ChangeEvent}
      {call : Option ChangeEvent} (now : Instant) :
      Step id ⟨stored, some ⟨p, .judging event, call⟩, t⟩
        ⟨stored, some ⟨{ p.markEvaluated event with phase := .idle, updatedAt := now }, .rest,
          call⟩, t⟩
  | create {t : Transcript} {p : Portfolio} {event : ChangeEvent} {call : Option ChangeEvent}
      (order : Order) (now : Instant) :
      Step id ⟨some p, some ⟨p, .judging event, call⟩, t⟩
        ⟨some p, some ⟨{ p.markEvaluated event with
          pending := some order, phase := .orderPending, updatedAt := now }, .placing order,
          call⟩, t ++ [Observation.created order]⟩
  | submit {t : Transcript} {p : Portfolio} {order : Order} {call : Option ChangeEvent} :
      Step id ⟨some p, some ⟨p, .placing order, call⟩, t⟩
        ⟨some p, some ⟨p, .following order, call⟩, t ++ [Observation.submitted call order]⟩
  | inquire {stored : Option Portfolio} {t : Transcript} {p : Portfolio} {order : Order}
      {call : Option ChangeEvent} (hphase : p.phase = .orderPending)
      (hpending : p.pending = some order) :
      Step id ⟨stored, some ⟨p, .rest, call⟩, t⟩ ⟨stored, some ⟨p, .following order, call⟩, t⟩
  | hear {stored : Option Portfolio} {t : Transcript} {p : Portfolio} {order : Order}
      {call : Option ChangeEvent} {answer : Except Fault Order.Outcome}
      (hopen : ∀ outcome, answer = .ok outcome → outcome.isFinal = false) :
      Step id ⟨stored, some ⟨p, .following order, call⟩, t⟩
        ⟨stored, some ⟨p, .following order, call⟩, t ++ [Observation.answered order answer]⟩
  | dismiss {stored : Option Portfolio} {t : Transcript} {p : Portfolio} {order : Order}
      {call : Option ChangeEvent} {outcome : Order.Outcome} (now : Instant)
      (hfinal : outcome.isFinal = true) (hnone : ∀ fill, outcome ≠ .filled fill) :
      Step id ⟨stored, some ⟨p, .following order, call⟩, t⟩
        ⟨stored, some ⟨{ p with pending := none, phase := .idle, updatedAt := now }, .rest,
          call⟩, t ++ [Observation.answered order (.ok outcome)]⟩
  | book {stored : Option Portfolio} {t : Transcript} {p q : Portfolio} {order : Order}
      {call : Option ChangeEvent} {fill : Fill} (now : Instant)
      (hbook : p.applyFill? order fill = some q) :
      Step id ⟨stored, some ⟨p, .following order, call⟩, t⟩
        ⟨stored, some ⟨{ q with pending := none, phase := .idle, updatedAt := now }, .rest,
          call⟩, t ++ [Observation.answered order (.ok (.filled fill))]⟩
  /-- A fill that makes an amount too large. -/
  | choke {stored : Option Portfolio} {t : Transcript} {p : Portfolio} {order : Order}
      {call : Option ChangeEvent} (fill : Fill) :
      Step id ⟨stored, some ⟨p, .following order, call⟩, t⟩
        ⟨stored, some ⟨p, .broken, call⟩, t ++ [Observation.answered order (.ok (.filled fill))]⟩
  | giveUp {stored : Option Portfolio} {t : Transcript} {p : Portfolio} {order : Order}
      {call : Option ChangeEvent} (reason : String) (now : Instant) :
      Step id ⟨stored, some ⟨p, .following order, call⟩, t⟩
        ⟨stored, some ⟨{ p with failure := some reason, phase := .failed, updatedAt := now }, .rest,
          call⟩, t⟩
  | rest {stored : Option Portfolio} {t : Transcript} {p : Portfolio} {aim : Aim}
      {call : Option ChangeEvent} (haim : aim ≠ .broken) :
      Step id ⟨stored, some ⟨p, aim, call⟩, t⟩ ⟨stored, some ⟨p, .rest, call⟩, t⟩
  | break {stored : Option Portfolio} {t : Transcript} {p : Portfolio} {aim : Aim}
      {call : Option ChangeEvent} :
      Step id ⟨stored, some ⟨p, aim, call⟩, t⟩ ⟨stored, some ⟨p, .broken, call⟩, t⟩
  | keep {stored : Option Portfolio} {t : Transcript} {p : Portfolio} {aim : Aim}
      {call : Option ChangeEvent} (hvalid : p.Valid) (haim : aim ≠ .broken) :
      Step id ⟨stored, some ⟨p, aim, call⟩, t⟩
        ⟨some p, some ⟨p, aim, call⟩, t ++ [Observation.stored p.toJson.settled]⟩
  | crash {stored : Option Portfolio} {t : Transcript} {posture : Posture} :
      Step id ⟨stored, some posture, t⟩ ⟨stored, none, t ++ [Observation.crashed]⟩

theorem Step.transcript_eq {id : String} {o o' : Outline} (hstep : Step id o o') :
    ∃ seen, o'.transcript = o.transcript ++ seen := by
  cases hstep with
  | create | submit | hear | dismiss | book | choke | keep | crash => exact ⟨[_], rfl⟩
  | _ => exact ⟨[], (List.append_nil _).symm⟩

abbrev Steps (id : String) : Outline → Outline → Prop := Relation.ReflTransGen (Step id)

end Outline

/-! ### Phases and pending orders -/

end Executor

/-- An order is pending just as long as the phase says so. -/
def Portfolio.Coherent (p : Portfolio) : Prop :=
  p.pending.isSome = true ↔ p.phase = .orderPending ∨ p.phase = .failed

theorem Portfolio.Coherent.pending_eq_none {p : Portfolio} (h : p.Coherent)
    (hphase : p.phase = .idle ∨ p.phase = .evaluating) : p.pending = none := by
  unfold Coherent at h
  rcases hphase with hphase | hphase <;> simpa [hphase] using h

theorem Portfolio.Coherent.phase_of_pending {p : Portfolio} (h : p.Coherent) {order : Order}
    (hpending : p.pending = some order) : p.phase = .orderPending ∨ p.phase = .failed :=
  h.mp (by rw [hpending]; rfl)

namespace Executor

/-- What a state says of an aim, in the call that handles `call`. -/
def Aim.Fits (state : Portfolio) (call : Option ChangeEvent) : Aim → Prop
  | rest | broken => True
  | judging event =>
      state.phase = .evaluating ∧ state.hasEvaluated event = false ∧ call = some event
  | placing order =>
      state.phase = .orderPending ∧ state.pending = some order ∧
        ∃ event, call = some event ∧ state.hasEvaluated event = true
  | following order => state.phase = .orderPending ∧ state.pending = some order

structure Outline.Coherent (o : Outline) : Prop where
  stored : ∀ p, o.stored = some p → p.Coherent
  state : ∀ q, o.posture = some q → q.state.Coherent
  aim : ∀ q, o.posture = some q → q.aim.Fits q.state q.call

namespace Outline

theorem initial_coherent : initial.Coherent := by
  constructor <;> simp [initial]

section

variable {stored : Option Portfolio} {p : Portfolio} {aim : Aim} {call : Option ChangeEvent}
  {t : Transcript}

theorem Coherent.process (h : Coherent ⟨stored, some ⟨p, aim, call⟩, t⟩) :
    p.Coherent ∧ aim.Fits p call :=
  ⟨h.state _ rfl, h.aim _ rfl⟩

theorem Coherent.mk_some (hstored : ∀ p, stored = some p → p.Coherent) (hstate : p.Coherent)
    (haim : aim.Fits p call) : Coherent ⟨stored, some ⟨p, aim, call⟩, t⟩ := by
  constructor
  · exact hstored
  · rintro q ⟨⟩
    exact hstate
  · rintro q ⟨⟩
    exact haim

end

theorem Coherent.step {id : String} {o o' : Outline} (hstep : Step id o o')
    (h : o.Coherent) : o'.Coherent := by
  have hstored := h.stored
  cases hstep with
  | @start stored t now =>
      refine mk_some hstored ?_ trivial
      cases stored with
      | none => simp [Portfolio.Coherent, Portfolio.new]
      | some p => exact hstored p rfl
  | call => exact mk_some hstored h.process.1 trivial
  | begin now hidle hnew =>
      have hnone := h.process.1.pending_eq_none (.inl hidle)
      refine mk_some hstored ?_ ⟨rfl, hnew, rfl⟩
      simp [Portfolio.Coherent, hnone]
  | reset now hphase =>
      have hnone := h.process.1.pending_eq_none (.inr hphase)
      refine mk_some hstored ?_ trivial
      simp [Portfolio.Coherent, hnone]
  | skip now =>
      obtain ⟨hp, hphase, -, -⟩ := h.process
      have hnone := hp.pending_eq_none (.inr hphase)
      refine mk_some hstored ?_ trivial
      simp [Portfolio.Coherent, Portfolio.markEvaluated, hnone]
  | @create _ p event call order now =>
      obtain ⟨-, -, -, hcall⟩ := h.process
      refine mk_some hstored ?_ ⟨rfl, rfl, event, hcall, p.hasEvaluated_markEvaluated event⟩
      simp [Portfolio.Coherent]
  | submit =>
      obtain ⟨hp, hphase, hpending, -⟩ := h.process
      exact mk_some hstored hp ⟨hphase, hpending⟩
  | inquire hphase hpending => exact mk_some hstored h.process.1 ⟨hphase, hpending⟩
  | hear => exact mk_some hstored h.process.1 h.process.2
  | dismiss =>
      refine mk_some hstored ?_ trivial
      simp [Portfolio.Coherent]
  | book =>
      refine mk_some hstored ?_ trivial
      simp [Portfolio.Coherent]
  | choke => exact mk_some hstored h.process.1 trivial
  | giveUp =>
      obtain ⟨-, -, hpending⟩ := h.process
      refine mk_some hstored ?_ trivial
      simp [Portfolio.Coherent, hpending]
  | rest => exact mk_some hstored h.process.1 trivial
  | «break» => exact mk_some hstored h.process.1 trivial
  | keep =>
      obtain ⟨hp, haim⟩ := h.process
      refine mk_some ?_ hp haim
      rintro _ ⟨⟩
      exact hp
  | crash => exact ⟨hstored, by simp, by simp⟩

theorem Steps.coherent {id : String} {o : Outline} (hsteps : Steps id initial o) :
    o.Coherent := by
  induction hsteps with
  | refl => exact initial_coherent
  | tail _ hlast ih => exact ih.step hlast

/-- A property that holds at first and is kept by each step of a run. -/
theorem Steps.invariant {id : String} {o : Outline} {P : Outline → Prop} (hinitial : P initial)
    (hstep : ∀ {o o'}, Steps id initial o → Step id o o' → P o → P o')
    (hsteps : Steps id initial o) : P o := by
  induction hsteps with
  | refl => exact hinitial
  | tail hsteps hlast ih => exact hstep hsteps hlast ih

end Outline

end Executor
end TradingDesk

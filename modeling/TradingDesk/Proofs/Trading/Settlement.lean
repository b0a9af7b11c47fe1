import TradingDesk.Proofs.Backoff
import TradingDesk.Proofs.Trading.Tracing
/-!
# Settling an order

From the first answer about an order on, an executor asks for the order's status until it is
resolved: at an interval as long as the order is open, and after the waits of a schedule when the
gateway fails in a way that leaves its fate unknown. An order that stays open too long is cancelled
once, and given up when that does not help. The last answer and what came before it tell where that
ends, and it ends after a bounded number of calls.

A schedule with jitter may take any wait in the place of one of its own. It can take none if the
jitter has no bounds; then nothing happens any more.
-/

namespace TradingDesk
namespace Executor
namespace Settlement

variable {σ : Type}

/-! ### What happens -/

inductive Note where
  | answered (time : Nat) (answer : Except Fault Order.Outcome)
  | cancelled (time : Nat) (clientId : String)
  | waited
  | shutdown

namespace Note

def isAnswer : Note → Bool
  | answered _ _ => true
  | _ => false

/-- An answer that leaves the fate of the order unknown. -/
def isRecoverable : Note → Bool
  | answered _ (.error (.gateway _ true)) => true
  | _ => false

def isResting : Note → Bool
  | answered _ (.ok (.resting _)) => true
  | _ => false

def isCancel : Note → Bool
  | cancelled _ _ => true
  | _ => false

end Note

inductive Ending where
  | stored (state : Portfolio)
  | interrupted

/-- An executor that settles an order, with its store and what has happened so far. -/
structure Course (σ : Type) where
  executor : Executor σ
  store : Store
  time : Nat
  notes : List Note
  ending : Option Ending := none

/-- The phase that was stored at the end, or the one in memory before that. -/
def Course.phase (y : Course σ) : Phase :=
  match y.ending with
  | some (.stored state) => state.phase
  | _ => y.executor.state.phase

/-- What there is when the first answer about an order comes. -/
structure Opening where
  setup : Setup
  state : Portfolio
  order : Order
  started : Nat
  store : Store

namespace Opening

variable (o : Opening)

/-- An executor that waits for the first answer. -/
structure Awaits (x : Executor σ) : Prop where
  setup : x.setup = o.setup
  state : x.state = o.state
  stage : x.stage = .submitting o.order ∨ ∃ waiting, x.stage = .reconciling o.order waiting

/-- An order is pending, writes succeed, and the settings allow each wait to be measured. -/
structure Proper : Prop where
  phase : o.state.phase = .orderPending
  failures : o.store.failures = 0
  interval : 0 < o.setup.settings.statusInterval
  timeout : 2 * o.setup.settings.orderTimeout < longestSpan
  attempts : 0 < o.setup.settings.reconcile.maxAttempts

end Opening

/-! ### What answers come to -/

inductive Verdict where
  | open
  | idle
  | failed
  /-- An amount grows too large when the fill is booked. -/
  | overflown
  /-- The order is to be asked for again after a wait, and none can be drawn. -/
  | undrawn
deriving DecidableEq

/-- What an answer comes to after what has happened before. -/
def Opening.verdict (o : Opening) (before : List Note) (time : Nat) :
    Except Fault Order.Outcome → Verdict
  | .error (.gateway _ true) =>
    let schedule := o.setup.settings.reconcile
    let failures := before.countP Note.isRecoverable
    if failures < schedule.maxAttempts then
      if schedule.drawable (schedule.delay failures) then .open else .undrawn
    else .failed
  | .error _ => .failed
  | .ok (.resting _) =>
    if o.started + 2 * o.setup.settings.orderTimeout * 1000 ≤ time ∧ before.any Note.isCancel then
      .failed
    else .open
  | .ok (.filled fill) =>
    if (o.state.applyFill? o.order fill).isSome then .idle else .overflown
  | .ok (.rejected _) | .ok .unknown => .idle

/-- The last thing that happened was an answer that came to this. -/
def Ends (o : Opening) (notes : List Note) (v : Verdict) : Prop :=
  ∃ before time answer, notes = before ++ [.answered time answer] ∧
    o.verdict before time answer = v

variable {o : Opening} {notes : List Note}

theorem ends_concat {time : Nat} {answer : Except Fault Order.Outcome} {v : Verdict} :
    Ends o (notes ++ [.answered time answer]) v ↔ o.verdict notes time answer = v := by
  constructor
  · rintro ⟨before, time', answer', heq, hverdict⟩
    obtain ⟨rfl, hlast⟩ := List.append_singleton_inj.mp heq
    cases hlast
    exact hverdict
  · exact fun hverdict => ⟨notes, time, answer, rfl, hverdict⟩

theorem not_ends_concat {n : Note} (hother : n.isAnswer = false) (v : Verdict) :
    ¬ Ends o (notes ++ [n]) v := by
  rintro ⟨before, time, answer, heq, -⟩
  rw [(List.append_singleton_inj.mp heq).2] at hother
  cases hother

theorem not_ends_answered (before : List Note) (time : Nat)
    (answer : Except Fault Order.Outcome) {v : Verdict} (h : o.verdict before time answer ≠ v) :
    ¬ Ends o (before ++ [.answered time answer]) v :=
  mt ends_concat.mp h

theorem Ends.eq {v v' : Verdict} (h : Ends o notes v) (h' : Ends o notes v') : v = v' := by
  obtain ⟨before, time, answer, rfl, hverdict⟩ := h
  exact hverdict.symm.trans (ends_concat.mp h')

/-! ### What happens next -/

/-- Whether the last thing that happened left the fate of the order unknown. -/
def leftUnknown (notes : List Note) : Bool := notes.getLast?.any Note.isRecoverable

@[simp] theorem leftUnknown_concat (notes : List Note) (n : Note) :
    leftUnknown (notes ++ [n]) = n.isRecoverable := by
  simp [leftUnknown]

/-- What may happen next. Time goes on as it likes, but for waits that are not cut short. -/
inductive Step (o : Opening) : Course σ → Course σ → Prop
  | ask {y : Course σ} {clientId : String} {m : Moment}
      (hgoing : y.ending = none) (hrequest : y.executor.request? = some (.status clientId))
      (htime : y.time ≤ m.time) (answer : Except Fault Order.Outcome) :
      Step o y { y with
        executor := y.executor.resume (.answered answer) m
        time := m.time
        notes := y.notes ++ [.answered m.time answer] }
  | cancel {y : Course σ} {clientId : String} {m : Moment}
      (hgoing : y.ending = none) (hrequest : y.executor.request? = some (.cancel clientId))
      (htime : y.time ≤ m.time) (result : Except Fault Unit) :
      Step o y { y with
        executor := y.executor.resume (.cancelled result) m
        time := m.time
        notes := y.notes ++ [.cancelled m.time clientId] }
  | wait {y : Course σ} {delay : Nat} {m : Moment}
      (hgoing : y.ending = none) (hrequest : y.executor.request? = some (.pause delay))
      (hdrawn : ¬ Ends o y.notes .undrawn) (htime : y.time + delay ≤ m.time) :
      Step o y { y with
        executor := y.executor.resume (.woke false) m
        time := m.time
        notes := y.notes ++ [.waited] }
  /-- With jitter a wait of the schedule may turn out to be any. -/
  | jitter {y : Course σ} {delay : Nat} {m : Moment}
      (hgoing : y.ending = none) (hrequest : y.executor.request? = some (.pause delay))
      (hdrawn : ¬ Ends o y.notes .undrawn) (hunknown : leftUnknown y.notes = true)
      (hjitter : ¬ o.setup.settings.reconcile.jitter ≤ 0.0) (htime : y.time ≤ m.time) :
      Step o y { y with
        executor := y.executor.resume (.woke false) m
        time := m.time
        notes := y.notes ++ [.waited] }
  | shutdown {y : Course σ} {delay : Nat} {m : Moment}
      (hgoing : y.ending = none) (hrequest : y.executor.request? = some (.pause delay))
      (hdrawn : ¬ Ends o y.notes .undrawn) (htime : y.time ≤ m.time) :
      Step o y { y with
        executor := y.executor.resume (.woke true) m
        time := m.time
        notes := y.notes ++ [.shutdown]
        ending := some .interrupted }
  | save {y : Course σ} {document : Json} {m : Moment} {store : Store}
      (hgoing : y.ending = none) (hrequest : y.executor.request? = some (.save document))
      (htime : y.time ≤ m.time)
      (hwrite : y.store.upsert Collection.states o.setup.portfolio document = (.ok (), store)) :
      Step o y { y with
        executor := y.executor.resume (.saved (.ok ())) m
        store
        time := m.time
        ending := some (.stored y.executor.state) }

inductive Reachable (o : Opening) : Course σ → Prop
  | first {x : Executor σ} {m : Moment} (answer : Except Fault Order.Outcome)
      (hawaits : o.Awaits x) (htime : m.time = o.started) :
      Reachable o
        { executor := x.resume (.answered answer) m
          store := o.store
          time := m.time
          notes := [.answered m.time answer] }
  | step {y y' : Course σ} (hreach : Reachable o y) (hstep : Step o y y') : Reachable o y'

/-! ### Cancels -/

/-- Cancels of this order, directly after it was found open once its time was over, and only one. -/
def CancelsDuly (o : Opening) (notes : List Note) : Prop :=
  ∀ before time clientId, before ++ [.cancelled time clientId] <+: notes →
    clientId = o.order.clientId ∧ before.any Note.isCancel = false ∧
      ∃ earlier seen exchangeId, before = earlier ++ [.answered seen (.ok (.resting exchangeId))] ∧
        o.started + o.setup.settings.orderTimeout * 1000 ≤ seen

theorem CancelsDuly.concat (h : CancelsDuly o notes) {n : Note} (hother : n.isCancel = false) :
    CancelsDuly o (notes ++ [n]) := by
  intro before time clientId hprefix
  rcases List.prefix_concat_iff.mp hprefix with heq | hearlier
  · obtain ⟨-, rfl⟩ := List.append_singleton_inj.mp heq
    cases hother
  · exact h before time clientId hearlier

theorem CancelsDuly.cancel (h : CancelsDuly o notes) (hnone : notes.any Note.isCancel = false)
    {earlier : List Note} {seen time : Nat} {exchangeId : String}
    (hlast : notes = earlier ++ [.answered seen (.ok (.resting exchangeId))])
    (hseen : o.started + o.setup.settings.orderTimeout * 1000 ≤ seen) :
    CancelsDuly o (notes ++ [.cancelled time o.order.clientId]) := by
  intro before time' clientId hprefix
  rcases List.prefix_concat_iff.mp hprefix with heq | hearlier
  · obtain ⟨rfl, hcancel⟩ := List.append_singleton_inj.mp heq
    cases hcancel
    exact ⟨rfl, hnone, earlier, seen, exchangeId, hlast, hseen⟩
  · exact h before time' clientId hearlier

/-! ### Orders that are open -/

namespace Opening

/-- Milliseconds after which an order that could not be cancelled is given up. -/
def deadline (o : Opening) : Nat := 2 * o.setup.settings.orderTimeout * 1000

/-- How often an order can be found open at an interval until then. -/
def patience (o : Opening) : Nat := o.deadline / o.setup.settings.statusInterval

/-- How much can happen until an order is settled. -/
def limit (o : Opening) : Nat := 2 * (o.patience + o.setup.settings.reconcile.maxAttempts + 3)

end Opening

/-- What stays as it was at the beginning until the order is settled. -/
structure Kept (o : Opening) (y : Course σ) (s : Settling) : Prop where
  going : y.ending = none
  setup : y.executor.setup = o.setup
  state : y.executor.state = o.state
  store : y.store = o.store
  order : s.order = o.order
  started : s.started = o.started
  schedule : s.reconcile.settings = o.setup.settings.reconcile

/-- No answer so far has settled the order. The next one is asked for when `due` milliseconds and
`owed` notes have been added. -/
structure Open (o : Opening) (y : Course σ) (s : Settling) (due owed : Nat) : Prop where
  kept : Kept o y s
  attempts : s.reconcile.attempts = y.notes.countP Note.isRecoverable
  within : y.notes.countP Note.isRecoverable ≤ o.setup.settings.reconcile.maxAttempts
  undecided : ∀ v, v ≠ .open → ¬ Ends o y.notes v
  since : o.started ≤ y.time
  spaced : o.started + y.notes.countP Note.isResting * o.setup.settings.statusInterval ≤
    y.time + due
  /-- Past the deadline the order is found open once more at most. -/
  few : y.notes.countP Note.isResting ≤ o.patience + 1 ∨
    (y.notes.countP Note.isResting ≤ o.patience + 2 ∧ s.cancelRequested = true ∧
      o.started + o.deadline ≤ y.time)
  length : y.notes.length + owed ≤
    2 * (y.notes.countP Note.isResting + y.notes.countP Note.isRecoverable) +
      (y.notes.any Note.isCancel).toNat

variable {y : Course σ} {s : Settling} {due owed : Nat} {m : Moment}

theorem Open.length_le (h : Open o y s due owed) : y.notes.length + owed + 1 ≤ o.limit := by
  have hlength := h.length
  have hwithin := h.within
  have hcancel := Bool.toNat_le (y.notes.any Note.isCancel)
  unfold Opening.limit
  rcases h.few with hfew | ⟨hfew, -⟩ <;> omega

theorem countP_concat (p : Note → Bool) (notes : List Note) (n : Note) :
    (notes ++ [n]).countP p = notes.countP p + (p n).toNat := by
  rw [List.countP_append, List.countP_singleton]
  cases p n <;> rfl

theorem any_concat (p : Note → Bool) (notes : List Note) (n : Note) :
    (notes ++ [n]).any p = (notes.any p || p n) := by
  rw [List.any_append, List.any_cons, List.any_nil, Bool.or_false]

/-- The course after an answer. -/
def Course.hear (y : Course σ) (x : Executor σ) (m : Moment)
    (answer : Except Fault Order.Outcome) : Course σ :=
  { y with executor := x, time := m.time, notes := y.notes ++ [.answered m.time answer] }

/-- The order stays open at an answer that finds it open. -/
theorem Open.resting (h : Open o y s 0 0) (hproper : o.Proper)
    (hcancel : s.cancelRequested = y.notes.any Note.isCancel) (htime : y.time ≤ m.time)
    {exchangeId : String} (hverdict : o.verdict y.notes m.time (.ok (.resting exchangeId)) = .open)
    {cancelled : Bool} (hlate : o.started + o.deadline ≤ m.time → cancelled = true)
    (stage : Stage) :
    Open o (y.hear { y.executor with stage } m (.ok (.resting exchangeId)))
      { s with cancelRequested := cancelled } y.executor.setup.settings.statusInterval 1 := by
  have hsetup := h.kept.setup
  have hspaced := h.spaced
  have hlength := h.length
  constructor <;> simp only [Course.hear, countP_concat, any_concat, Note.isResting,
    Note.isRecoverable, Note.isCancel, Bool.toNat_true, Bool.toNat_false, Bool.or_false,
    Nat.add_zero, List.length_append, List.length_singleton]
  case kept => exact { h.kept with }
  case attempts => exact h.attempts
  case within => exact h.within
  case undecided => exact fun v hv hends => hv ((ends_concat.mp hends).symm.trans hverdict)
  case since => exact h.since.trans htime
  case spaced =>
    rw [hsetup, Nat.add_mul]
    omega
  case few =>
    by_cases hdeadline : o.started + o.deadline ≤ m.time
    · -- it would have been given up if a cancel had been tried
      have hnone : s.cancelRequested = false := by
        rw [hcancel]
        by_contra hany
        rw [Opening.verdict, if_pos ⟨hdeadline, by simpa using hany⟩] at hverdict
        cases hverdict
      rcases h.few with hfew | ⟨-, htrue, -⟩
      · exact .inr ⟨by omega, hlate hdeadline, hdeadline⟩
      · rw [hnone] at htrue
        cases htrue
    · have hle : y.notes.countP Note.isResting ≤ o.patience := by
        rw [Opening.patience, Nat.le_div_iff_mul_le hproper.interval]
        omega
      exact .inl (by omega)
  case length => omega

/-- The order stays open at an answer that leaves its fate unknown, if there may be another one. -/
theorem Open.unknown (h : Open o y s 0 0) (htime : y.time ≤ m.time) {detail : String}
    (hwithin : y.notes.countP Note.isRecoverable < o.setup.settings.reconcile.maxAttempts)
    (hverdict : o.verdict y.notes m.time (.error (.gateway detail true)) = .open)
    {reconcile : Backoff} (hsettings : reconcile.settings = s.reconcile.settings)
    (hattempts : reconcile.attempts = s.reconcile.attempts + 1) (stage : Stage) :
    Open o (y.hear { y.executor with stage } m (.error (.gateway detail true)))
      { s with reconcile } 0 1 := by
  have hspaced := h.spaced
  have hlength := h.length
  constructor <;> simp only [Course.hear, countP_concat, any_concat, Note.isResting,
    Note.isRecoverable, Note.isCancel, Bool.toNat_true, Bool.toNat_false, Bool.or_false,
    Nat.add_zero, List.length_append, List.length_singleton]
  case kept => exact { h.kept with schedule := hsettings.trans h.kept.schedule }
  case attempts => rw [hattempts, h.attempts]
  case within => exact hwithin
  case undecided => exact fun v hv hends => hv ((ends_concat.mp hends).symm.trans hverdict)
  case since => exact h.since.trans htime
  case spaced => omega
  case few =>
    exact h.few.imp_right fun ⟨hfew, hrequested, hdeadline⟩ =>
      ⟨hfew, hrequested, hdeadline.trans htime⟩
  case length => omega

/-- What happens between two answers leaves the order open. -/
theorem Open.pass (h : Open o y s due owed) {n : Note} (hother : n.isAnswer = false)
    (stage : Stage) (htime : y.time ≤ m.time) {due' owed' : Nat}
    (hdue : y.time + due ≤ m.time + due')
    (howed : owed' + 1 + (y.notes.any Note.isCancel).toNat ≤
      owed + (y.notes.any Note.isCancel || n.isCancel).toNat) :
    Open o { y with executor := { y.executor with stage }, time := m.time, notes := y.notes ++ [n] }
      s due' owed' := by
  have hspaced := h.spaced
  have hlength := h.length
  have hresting : n.isResting = false := by
    cases n <;> first | rfl | cases hother
  have hrecoverable : n.isRecoverable = false := by
    cases n <;> first | rfl | cases hother
  constructor <;> simp only [countP_concat, any_concat, hresting, hrecoverable, Bool.toNat_false,
    Nat.add_zero, List.length_append, List.length_singleton]
  case kept => exact { h.kept with }
  case attempts => exact h.attempts
  case within => exact h.within
  case undecided => exact fun v _ => not_ends_concat hother v
  case since => exact h.since.trans htime
  case spaced => omega
  case few =>
    exact h.few.imp_right fun ⟨hfew, hrequested, hdeadline⟩ =>
      ⟨hfew, hrequested, hdeadline.trans htime⟩
  case length => omega

/-! ### Where a course stands -/

inductive Stands (o : Opening) (y : Course σ) : Prop
  | asking (s : Settling) (hstage : y.executor.stage = .querying s) (hopen : Open o y s 0 0)
      (hcancel : s.cancelRequested = y.notes.any Note.isCancel)
  /-- Only the waits between answers that found the order open have to be as long as they are. -/
  | pausing (delay due : Nat) (s : Settling) (hstage : y.executor.stage = .pausing delay s)
      (hopen : Open o y s due 1) (hcancel : s.cancelRequested = y.notes.any Note.isCancel)
      (hdue : due = 0 ∨ due = delay ∧ leftUnknown y.notes = false)
  | cancelling (s : Settling) (hstage : y.executor.stage = .cancelling s)
      (hopen : Open o y s y.executor.setup.settings.statusInterval 1)
      (hcancel : s.cancelRequested = true)
      (hnone : y.notes.any Note.isCancel = false)
      (hdue : ∃ before seen exchangeId,
        y.notes = before ++ [.answered seen (.ok (.resting exchangeId))] ∧
          o.started + o.setup.settings.orderTimeout * 1000 ≤ seen)
  | deciding (v : Verdict) (schedule : Backoff) (waiting : Option ChangeEvent)
      (hstage : y.executor.stage = .saving .orderPending schedule (.finish waiting))
      (hgoing : y.ending = none) (hstore : y.store = o.store) (hends : Ends o y.notes v)
      (hphase : v = .failed ∧ y.executor.state.phase = .failed ∨
        v = .idle ∧ y.executor.state.phase = .idle)
  | overflown (hstage : y.executor.stage = .overflown) (hgoing : y.ending = none)
      (hends : Ends o y.notes .overflown) (hphase : y.executor.state.phase = .orderPending)
  | undrawn (delay : Nat) (s : Settling) (hstage : y.executor.stage = .pausing delay s)
      (hgoing : y.ending = none) (hends : Ends o y.notes .undrawn)
      (hstate : y.executor.state = o.state) (hstore : y.store = o.store)
  | interrupted (hstage : y.executor.stage ≠ .overflown) (hending : y.ending = some .interrupted)
      (hundecided : ∀ v, v ≠ .open → ¬ Ends o y.notes v) (hshutdown : .shutdown ∈ y.notes)
      (hstate : y.executor.state = o.state) (hstore : y.store = o.store)
  | stored (v : Verdict) (p : Portfolio) (hstage : y.executor.stage ≠ .overflown)
      (hending : y.ending = some (.stored p)) (hends : Ends o y.notes v)
      (hphase : v = .failed ∧ p.phase = .failed ∨ v = .idle ∧ p.phase = .idle)
      (hstore : y.store.fetch? Collection.states o.setup.portfolio = some p.toJson.settled)

structure Sound (o : Opening) (y : Course σ) : Prop where
  stands : Stands o y
  duly : CancelsDuly o y.notes
  length : y.notes.length ≤ o.limit

/-- An answer that settles the order. -/
theorem stands_conclude {x : Executor σ} {answer : Except Fault Order.Outcome} {v : Verdict}
    (hkept : Kept o y s) (hverdict : o.verdict y.notes m.time answer = v) {schedule : Backoff}
    {waiting : Option ChangeEvent}
    (hstage : x.stage = .saving .orderPending schedule (.finish waiting))
    (hphase : v = .failed ∧ x.state.phase = .failed ∨ v = .idle ∧ x.state.phase = .idle) :
    Stands o (y.hear x m answer) :=
  .deciding v schedule waiting hstage hkept.going hkept.store (ends_concat.mpr hverdict) hphase

theorem Open.phase (h : Open o y s due owed) (hproper : o.Proper) :
    y.executor.state.phase = .orderPending := by
  rw [h.kept.state, hproper.phase]

theorem Open.fail (h : Open o y s due owed) (hproper : o.Proper)
    {answer : Except Fault Order.Outcome} (hverdict : o.verdict y.notes m.time answer = .failed)
    (reason : String) : Stands o (y.hear (y.executor.fail reason s.waiting m) m answer) := by
  rw [fail_eq (h.phase hproper)]
  exact stands_conclude h.kept hverdict rfl (.inl ⟨rfl, rfl⟩)

/-- The order is resolved, with a fill booked or without. -/
theorem Open.rest (h : Open o y s due owed) {answer : Except Fault Order.Outcome}
    (hverdict : o.verdict y.notes m.time answer = .idle) {state : Portfolio}
    (hstate : state.phase = .orderPending) :
    Stands o (y.hear ({ y.executor with state := { state with pending := none } }.enter .idle
      (.finish s.waiting) m) m answer) := by
  rw [enter_eq (by simp only [hstate]; rfl)]
  exact stands_conclude h.kept hverdict (by simp only [hstate]; rfl) (.inr ⟨rfl, rfl⟩)

theorem Open.settle_resting (h : Open o y s 0 0) (hproper : o.Proper)
    (hcancel : s.cancelRequested = y.notes.any Note.isCancel) (htime : y.time ≤ m.time)
    (exchangeId : String) :
    Stands o (y.hear (y.executor.settle s (.ok (.resting exchangeId)) m) m
      (.ok (.resting exchangeId))) := by
  have hverdict : o.verdict y.notes m.time (.ok (.resting exchangeId)) =
      if o.started + o.deadline ≤ m.time ∧ y.notes.any Note.isCancel then .failed
      else .open := rfl
  have hsince := h.since.trans htime
  have hspan := hproper.timeout
  have htimeout : y.executor.setup.settings.orderTimeout = o.setup.settings.orderTimeout := by
    rw [h.kept.setup]
  have hdeadline : o.deadline = 2 * o.setup.settings.orderTimeout * 1000 := rfl
  have hstarted := h.kept.started
  simp only [Executor.settle]
  rw [if_neg (by omega)]
  by_cases hover : o.started + o.deadline ≤ m.time ∧ y.notes.any Note.isCancel = true
  · rw [if_pos ⟨by omega, by rw [hcancel]; exact hover.2⟩]
    exact h.fail hproper (hverdict.trans (if_pos hover)) _
  · rw [if_neg fun hboth => hover ⟨by omega, by rw [← hcancel]; exact hboth.2⟩]
    have hopen := hverdict.trans (if_neg hover)
    split
    · next hlate =>
      -- the first answer past the time of the order
      have hnone : s.cancelRequested = false := by simpa using hlate.2
      refine .cancelling _ rfl (h.resting hproper hcancel htime hopen (fun _ => rfl) _) rfl ?_
        ⟨_, _, _, rfl, by omega⟩
      rw [Course.hear, any_concat, ← hcancel, hnone]
      rfl
    · next hearly =>
      have hlate : o.started + o.deadline ≤ m.time → s.cancelRequested = true := by
        intro hdeadline
        by_contra hnot
        exact hearly ⟨by omega, by simpa using hnot⟩
      refine .pausing _ _ _ rfl (h.resting hproper hcancel htime hopen hlate _) ?_
        (.inr ⟨rfl, leftUnknown_concat _ _⟩)
      rw [Course.hear, any_concat, ← hcancel]
      exact (Bool.or_false _).symm

theorem Open.settle_unknown (h : Open o y s 0 0) (hproper : o.Proper)
    (hcancel : s.cancelRequested = y.notes.any Note.isCancel) (htime : y.time ≤ m.time)
    (detail : String) :
    Stands o (y.hear (y.executor.settle s (.error (.gateway detail true)) m) m
      (.error (.gateway detail true))) := by
  have hlimit := hproper.attempts
  simp only [Executor.settle, Backoff.next?, Backoff.mayRetry, h.attempts, h.kept.schedule]
  by_cases hmore : y.notes.countP Note.isRecoverable < o.setup.settings.reconcile.maxAttempts
  · rw [if_pos (by simp [hmore])]
    have hverdict : o.verdict y.notes m.time (.error (.gateway detail true)) =
        if o.setup.settings.reconcile.drawable
            (o.setup.settings.reconcile.delay (y.notes.countP Note.isRecoverable)) then .open
        else .undrawn := if_pos hmore
    split at hverdict
    · refine .pausing _ 0 _ rfl (h.unknown htime hmore hverdict h.kept.schedule.symm ?_ _) ?_
        (.inl rfl)
      · rw [h.attempts]
      · rw [Course.hear, any_concat, ← hcancel]
        exact (Bool.or_false _).symm
    · exact .undrawn _ _ rfl h.kept.going (ends_concat.mpr hverdict) h.kept.state h.kept.store
  · have hverdict : o.verdict y.notes m.time (.error (.gateway detail true)) = .failed :=
      if_neg hmore
    rw [if_neg (by simp only [Bool.or_eq_true, beq_iff_eq, decide_eq_true_eq]; omega)]
    exact h.fail hproper hverdict _

/-- Wherever an answer leads, the course stands as what it was said to come to. -/
theorem Open.settle (h : Open o y s 0 0) (hproper : o.Proper)
    (hcancel : s.cancelRequested = y.notes.any Note.isCancel) (htime : y.time ≤ m.time)
    (answer : Except Fault Order.Outcome) :
    Stands o (y.hear (y.executor.settle s answer m) m answer) := by
  have hphase := h.phase hproper
  cases answer with
  | error fault =>
      cases fault with
      | gateway detail recoverable =>
          cases recoverable with
          | false => exact h.fail hproper rfl _
          | true => exact h.settle_unknown hproper hcancel htime detail
      | _ => exact h.fail hproper rfl _
  | ok outcome =>
      cases outcome with
      | resting exchangeId => exact h.settle_resting hproper hcancel htime exchangeId
      | rejected reason => exact h.rest rfl hphase
      | unknown => exact h.rest rfl hphase
      | filled fill =>
          have hbooked : y.executor.state.applyFill? s.order fill =
              o.state.applyFill? o.order fill := by
            rw [h.kept.state, h.kept.order]
          simp only [Executor.settle, hbooked]
          cases hbook : o.state.applyFill? o.order fill with
          | none =>
              refine .overflown rfl h.kept.going (ends_concat.mpr ?_) hphase
              simp only [Opening.verdict, hbook, Option.isSome_none]
              rfl
          | some state =>
              have hstate : state.phase = .orderPending := by
                rw [Portfolio.applyFill?_eq hbook, hproper.phase]
              refine h.rest ?_ hstate
              simp only [Opening.verdict, hbook, Option.isSome_some, if_true]

theorem stage_enter_ne_overflown (x : Executor σ) (next : Phase) (after : After) :
    (x.enter next after m).stage ≠ .overflown := by
  unfold Executor.enter
  simp only
  split <;> exact Stage.noConfusion

theorem stage_finish_ne_overflown (x : Executor σ) (waiting : Option ChangeEvent) :
    (x.finish waiting m).stage ≠ .overflown := by
  unfold Executor.finish
  cases waiting with
  | none => exact Stage.noConfusion
  | some event =>
      simp only
      split
      · unfold Executor.take
        split
        · exact Stage.noConfusion
        · exact stage_enter_ne_overflown _ _ _
      · exact Stage.noConfusion

/-! ### Steps -/

variable {y' : Course σ}

theorem Step.going (h : Step o y y') : y.ending = none := by
  cases h <;> assumption

theorem Step.querying (h : Step o y y') (hstage : y.executor.stage = .querying s) :
    ∃ answer m, y.time ≤ m.time ∧ y' = y.hear (y.executor.settle s answer m) m answer := by
  cases h with
  | ask _ _ htime answer =>
      refine ⟨answer, _, htime, ?_⟩
      simp only [Course.hear, Executor.resume, hstage]
  | _ _ hrequest =>
      simp only [Executor.request?, hstage] at hrequest
      cases hrequest

theorem Step.pausing {delay : Nat} (h : Step o y y')
    (hstage : y.executor.stage = .pausing delay s) :
    (∃ m : Moment, y.time ≤ m.time ∧ (leftUnknown y.notes = false → y.time + delay ≤ m.time) ∧
        y' = { y with
          executor := { y.executor with stage := .querying s }
          time := m.time
          notes := y.notes ++ [.waited] }) ∨
      ∃ m : Moment, y' = { y with
        executor := y.executor.finish s.waiting m
        time := m.time
        notes := y.notes ++ [.shutdown]
        ending := some .interrupted } := by
  cases h with
  | wait _ hrequest _ htime =>
      simp only [Executor.request?, hstage] at hrequest
      cases hrequest
      refine .inl ⟨_, by omega, fun _ => htime, ?_⟩
      simp only [Executor.resume, hstage, Bool.false_eq_true, if_false]
  | jitter _ _ _ hunknown _ htime =>
      refine .inl ⟨_, htime, fun hknown => ?_, ?_⟩
      · rw [hunknown] at hknown
        contradiction
      · simp only [Executor.resume, hstage, Bool.false_eq_true, if_false]
  | @shutdown _ m =>
      refine .inr ⟨m, ?_⟩
      simp only [Executor.resume, hstage, if_true]
  | _ _ hrequest =>
      simp only [Executor.request?, hstage] at hrequest
      cases hrequest

/-- Where a wait is to be drawn and cannot be, there is an end without any outcome. -/
theorem not_step_of_undrawn {delay : Nat} (hstage : y.executor.stage = .pausing delay s)
    (hends : Ends o y.notes .undrawn) : ¬ Step o y y' := by
  intro h
  cases h with
  | wait _ _ hdrawn => exact hdrawn hends
  | jitter _ _ hdrawn => exact hdrawn hends
  | shutdown _ _ hdrawn => exact hdrawn hends
  | _ _ hrequest =>
      simp only [Executor.request?, hstage] at hrequest
      cases hrequest

theorem Step.cancelling (h : Step o y y') (hstage : y.executor.stage = .cancelling s) :
    ∃ m : Moment, y.time ≤ m.time ∧ y' = { y with
      executor := { y.executor with
        stage := .pausing y.executor.setup.settings.statusInterval s }
      time := m.time
      notes := y.notes ++ [.cancelled m.time s.order.clientId] } := by
  cases h with
  | cancel _ hrequest htime =>
      simp only [Executor.request?, hstage] at hrequest
      cases hrequest
      refine ⟨_, htime, ?_⟩
      simp only [Executor.resume, hstage]
  | _ _ hrequest =>
      simp only [Executor.request?, hstage] at hrequest
      cases hrequest

theorem Step.saving {fromPhase : Phase} {schedule : Backoff} {waiting : Option ChangeEvent}
    (h : Step o y y') (hstage : y.executor.stage = .saving fromPhase schedule (.finish waiting)) :
    y'.executor.stage ≠ .overflown ∧ y'.notes = y.notes ∧
      y'.ending = some (.stored y.executor.state) ∧
      y'.store.fetch? Collection.states o.setup.portfolio =
        some y.executor.state.toJson.settled := by
  cases h with
  | save _ hrequest _ hwrite =>
      simp only [Executor.request?, hstage] at hrequest
      cases hrequest
      refine ⟨?_, rfl, rfl, Store.fetch?_of_upsert_ok hwrite⟩
      simp only [Executor.resume, hstage, Executor.proceed]
      exact stage_finish_ne_overflown _ waiting
  | _ _ hrequest =>
      simp only [Executor.request?, hstage] at hrequest
      cases hrequest

theorem Sound.hear (h : Sound o y) (hproper : o.Proper) (hopen : Open o y s 0 0)
    (hcancel : s.cancelRequested = y.notes.any Note.isCancel) (htime : y.time ≤ m.time)
    (answer : Except Fault Order.Outcome) :
    Sound o (y.hear (y.executor.settle s answer m) m answer) where
  stands := hopen.settle hproper hcancel htime answer
  duly := h.duly.concat rfl
  length := by
    rw [Course.hear, List.length_append]
    exact hopen.length_le

theorem Sound.step (h : Sound o y) (hproper : o.Proper) (hstep : Step o y y') : Sound o y' := by
  have hgoing := hstep.going
  cases h.stands with
  | asking s hstage hopen hcancel =>
      obtain ⟨answer, m, htime, rfl⟩ := hstep.querying hstage
      exact h.hear hproper hopen hcancel htime answer
  | pausing delay due s hstage hopen hcancel hdue =>
      have hlength : ∀ n : Note, (y.notes ++ [n]).length ≤ o.limit := by
        intro n
        have hle := hopen.length_le
        rw [List.length_append, List.length_singleton]
        omega
      obtain ⟨m, htime, hlong, rfl⟩ | ⟨m, rfl⟩ := hstep.pausing hstage
      · have hwaited : y.time + due ≤ m.time := by
          rcases hdue with rfl | ⟨rfl, hknown⟩
          · exact htime
          · exact hlong hknown
        refine ⟨.asking s rfl (hopen.pass rfl _ htime hwaited ?_) ?_,
          h.duly.concat rfl, hlength _⟩
        · simp only [Note.isCancel, Bool.or_false]
          omega
        · rw [any_concat, ← hcancel]
          exact (Bool.or_false _).symm
      · have hphase := hopen.phase hproper
        have hstate : (y.executor.finish s.waiting m).state = y.executor.state := by
          unfold Executor.finish
          cases s.waiting with
          | none => rfl
          | some event =>
              simp only
              rw [if_neg (by rw [hphase]; exact Phase.noConfusion)]
              rfl
        refine ⟨.interrupted (stage_finish_ne_overflown _ _) rfl ?_ ?_ ?_ hopen.kept.store,
          h.duly.concat rfl, hlength _⟩
        · exact fun v _ => not_ends_concat rfl v
        · exact List.mem_append_right _ List.mem_cons_self
        · exact hstate.trans hopen.kept.state
  | cancelling s hstage hopen hcancel hnone hdue =>
      obtain ⟨m, htime, rfl⟩ := hstep.cancelling hstage
      obtain ⟨before, seen, exchangeId, hlast, hseen⟩ := hdue
      rw [hopen.kept.order]
      refine ⟨.pausing _ _ s rfl (hopen.pass rfl _ htime ?_ ?_) ?_
          (.inr ⟨rfl, leftUnknown_concat _ _⟩),
        h.duly.cancel hnone hlast hseen, ?_⟩
      · omega
      · rw [hnone]
        exact Nat.le_refl 2
      · rw [any_concat, hcancel]
        exact (Bool.or_true _).symm
      · have hle := hopen.length_le
        rw [List.length_append, List.length_singleton]
        omega
  | deciding v schedule waiting hstage _ hstore hends hphase =>
      obtain ⟨hnot, hnotes, hending, hfetch⟩ := hstep.saving hstage
      refine ⟨.stored v y.executor.state hnot hending (hnotes ▸ hends) hphase hfetch, ?_, ?_⟩
      · exact hnotes ▸ h.duly
      · exact hnotes ▸ h.length
  | overflown hstage =>
      cases hstep with
      | _ _ hrequest =>
          simp only [Executor.request?, hstage] at hrequest
          cases hrequest
  | undrawn delay s hstage _ hends => exact absurd hstep (not_step_of_undrawn hstage hends)
  | interrupted _ hending =>
      rw [hgoing] at hending
      cases hending
  | stored _ _ _ hending =>
      rw [hgoing] at hending
      cases hending

/-- Before the first answer the order is open, and nothing has happened. -/
theorem Opening.Awaits.open {x : Executor σ} (h : o.Awaits x) (waiting : Option ChangeEvent) :
    Open o { executor := x, store := o.store, time := o.started, notes := [] }
      { order := o.order
        started := o.started
        reconcile := Backoff.start x.setup.settings.reconcile
        cancelRequested := false
        waiting } 0 0 where
  kept := ⟨rfl, h.setup, h.state, rfl, rfl, rfl, by rw [← h.setup]; rfl⟩
  attempts := rfl
  within := Nat.zero_le _
  undecided := by
    rintro v - ⟨before, time, answer, heq, -⟩
    simp at heq
  since := Nat.le_refl _
  spaced := by simp
  few := .inl (Nat.zero_le _)
  length := Nat.le_refl _

theorem Reachable.sound (hreach : Reachable o y) (hproper : o.Proper) : Sound o y := by
  induction hreach with
  | @first x m answer hawaits htime =>
      have hresume : ∃ waiting, x.resume (.answered answer) m = x.settle
          { order := o.order
            started := o.started
            reconcile := Backoff.start x.setup.settings.reconcile
            cancelRequested := false
            waiting } answer m := by
        rcases hawaits.stage with hstage | ⟨waiting, hstage⟩
        · exact ⟨none, by simp only [Executor.resume, hstage, settleFirst, htime]⟩
        · exact ⟨waiting, by simp only [Executor.resume, hstage, settleFirst, htime]⟩
      obtain ⟨waiting, hresume⟩ := hresume
      rw [hresume]
      have hopen := hawaits.open waiting
      have hnothing : CancelsDuly o [] := fun _ _ _ hprefix => by simp at hprefix
      exact ⟨hopen.settle hproper rfl htime.ge answer, hnothing.concat rfl, hopen.length_le⟩
  | step _ hstep ih => exact ih.step hproper hstep

/-- An order that is not settled has something left to do. -/
theorem Stands.goesOn (h : Stands o y) (hproper : o.Proper) (hgoing : y.ending = none)
    (hstage : y.executor.stage ≠ .overflown) (hdrawn : ¬ Ends o y.notes .undrawn) :
    ∃ y', Step o y y' := by
  let m (time : Nat) : Moment := { time, now := default, freshId := "" }
  cases h with
  | asking s hstage =>
      exact ⟨_, .ask (m := m y.time) hgoing (by rw [Executor.request?, hstage]) (Nat.le_refl _)
        (.ok .unknown)⟩
  | pausing delay due s hstage =>
      exact ⟨_, .wait (m := m (y.time + delay)) hgoing (by rw [Executor.request?, hstage]) hdrawn
        (Nat.le_refl _)⟩
  | cancelling s hstage =>
      exact ⟨_, .cancel (m := m y.time) hgoing (by rw [Executor.request?, hstage]) (Nat.le_refl _)
        (.ok ())⟩
  | deciding v schedule waiting hstage _ hstore =>
      have hfailures : y.store.failures = 0 := by rw [hstore, hproper.failures]
      obtain ⟨store, hwrite, -⟩ := Store.upsert_of_failures_eq_zero hfailures Collection.states
        o.setup.portfolio y.executor.document
      exact ⟨_, .save (m := m y.time) hgoing (by rw [Executor.request?, hstage]) (Nat.le_refl _)
        hwrite⟩
  | overflown hbroken => exact absurd hbroken hstage
  | undrawn _ _ _ _ hends => exact absurd hends hdrawn
  | interrupted _ hending =>
      rw [hgoing] at hending
      cases hending
  | stored _ _ _ hending =>
      rw [hgoing] at hending
      cases hending

theorem Step.advances (h : Step o y y') :
    y'.ending ≠ none ∨ y'.notes.length = y.notes.length + 1 := by
  cases h with
  | save => exact .inl nofun
  | _ => exact .inr List.length_append

/-! ### What settling comes to -/

structure Settles (o : Opening) (y : Course σ) : Prop where
  /-- There is an end: each step but the last is noted, and the notes are few. -/
  length : y.notes.length ≤ o.limit
  advances : ∀ y', Step o y y' → y'.ending ≠ none ∨ y'.notes.length = y.notes.length + 1
  goesOn : y.ending = none → y.executor.stage ≠ .overflown → ¬ Ends o y.notes .undrawn →
    ∃ y', Step o y y'
  duly : CancelsDuly o y.notes
  failed : y.phase = .failed ↔ Ends o y.notes .failed
  idle : y.phase = .idle ↔ Ends o y.notes .idle
  overflown : y.executor.stage = .overflown ↔ Ends o y.notes .overflown
  undrawn : Ends o y.notes .undrawn → y.ending = none ∧ y.executor.state = o.state ∧
    y.store = o.store ∧ ∀ y', ¬ Step o y y'
  stored : ∀ p, y.ending = some (.stored p) → p.phase ≠ .orderPending ∧
    y.store.fetch? Collection.states o.setup.portfolio = some p.toJson.settled
  interrupted : y.ending = some .interrupted →
    .shutdown ∈ y.notes ∧ y.executor.state = o.state ∧ y.store = o.store

theorem Ends.iff {v v' : Verdict} (h : Ends o notes v) : Ends o notes v' ↔ v = v' :=
  ⟨h.eq, fun heq => heq ▸ h⟩

theorem Open.undecided_phase (h : Open o y s due owed) (hproper : o.Proper) :
    y.phase = .orderPending := by
  rw [Course.phase, h.kept.going]
  exact h.phase hproper

/-- The phase that a course has come to, and the verdict that led there. -/
theorem Stands.phase_eq (h : Stands o y) (hproper : o.Proper) :
    (y.executor.stage ≠ .overflown ∧ y.phase = .orderPending ∧
        ∀ v, v ≠ .open → v ≠ .undrawn → ¬ Ends o y.notes v) ∨
      (y.executor.stage ≠ .overflown ∧ y.phase = .failed ∧ Ends o y.notes .failed) ∨
      (y.executor.stage ≠ .overflown ∧ y.phase = .idle ∧ Ends o y.notes .idle) ∨
      (y.executor.stage = .overflown ∧ y.phase = .orderPending ∧ Ends o y.notes .overflown) := by
  cases h with
  | asking s hstage hopen =>
      exact .inl ⟨by rw [hstage]; exact Stage.noConfusion, hopen.undecided_phase hproper,
        fun v hv _ => hopen.undecided v hv⟩
  | pausing delay due s hstage hopen =>
      exact .inl ⟨by rw [hstage]; exact Stage.noConfusion, hopen.undecided_phase hproper,
        fun v hv _ => hopen.undecided v hv⟩
  | cancelling s hstage hopen =>
      exact .inl ⟨by rw [hstage]; exact Stage.noConfusion, hopen.undecided_phase hproper,
        fun v hv _ => hopen.undecided v hv⟩
  | deciding v schedule waiting hstage hgoing hstore hends hphase =>
      have hnot : y.executor.stage ≠ .overflown := by
        rw [hstage]
        exact Stage.noConfusion
      unfold Course.phase
      rw [hgoing]
      rcases hphase with ⟨rfl, hphase⟩ | ⟨rfl, hphase⟩
      · exact .inr (.inl ⟨hnot, hphase, hends⟩)
      · exact .inr (.inr (.inl ⟨hnot, hphase, hends⟩))
  | overflown hstage hgoing hends hphase =>
      unfold Course.phase
      rw [hgoing]
      exact .inr (.inr (.inr ⟨hstage, hphase, hends⟩))
  | undrawn delay s hstage hgoing hends hstate =>
      unfold Course.phase
      rw [hgoing]
      exact .inl ⟨by rw [hstage]; exact Stage.noConfusion, by rw [hstate, hproper.phase],
        fun v _ hv hother => hv (hother.eq hends)⟩
  | interrupted hnot hending hundecided hshutdown hstate =>
      unfold Course.phase
      rw [hending]
      exact .inl ⟨hnot, by rw [hstate, hproper.phase], fun v hv _ => hundecided v hv⟩
  | stored v p hnot hending hends hphase =>
      unfold Course.phase
      rw [hending]
      rcases hphase with ⟨rfl, hphase⟩ | ⟨rfl, hphase⟩
      · exact .inr (.inl ⟨hnot, hphase, hends⟩)
      · exact .inr (.inr (.inl ⟨hnot, hphase, hends⟩))

theorem Stands.ended (h : Stands o y) {ending : Ending} (hending : y.ending = some ending) :
    (∃ p, ending = .stored p ∧ p.phase ≠ .orderPending ∧
        y.store.fetch? Collection.states o.setup.portfolio = some p.toJson.settled) ∨
      ending = .interrupted ∧ .shutdown ∈ y.notes ∧ y.executor.state = o.state ∧
        y.store = o.store := by
  have hnot : y.ending ≠ none := by
    rw [hending]
    exact Option.some_ne_none _
  cases h with
  | asking _ _ hopen => exact absurd hopen.kept.going hnot
  | pausing _ _ _ _ hopen => exact absurd hopen.kept.going hnot
  | cancelling _ _ hopen => exact absurd hopen.kept.going hnot
  | deciding _ _ _ _ hgoing => exact absurd hgoing hnot
  | overflown _ hgoing => exact absurd hgoing hnot
  | undrawn _ _ _ hgoing => exact absurd hgoing hnot
  | interrupted _ hinterrupted _ hshutdown hstate hstore =>
      rw [hending] at hinterrupted
      cases hinterrupted
      exact .inr ⟨rfl, hshutdown, hstate, hstore⟩
  | stored v p _ hstored _ hphase hfetch =>
      rw [hending] at hstored
      cases hstored
      refine .inl ⟨p, rfl, ?_, hfetch⟩
      rcases hphase with ⟨-, hphase⟩ | ⟨-, hphase⟩
      · rw [hphase]
        exact Phase.noConfusion
      · rw [hphase]
        exact Phase.noConfusion

/-- A course that ends with a wait that cannot be drawn has changed nothing. -/
theorem Stands.of_undrawn (h : Stands o y) (hends : Ends o y.notes .undrawn) :
    y.ending = none ∧ y.executor.state = o.state ∧ y.store = o.store ∧ ∀ y', ¬ Step o y y' := by
  cases h with
  | undrawn delay s hstage hgoing _ hstate hstore =>
      exact ⟨hgoing, hstate, hstore, fun _ => not_step_of_undrawn hstage hends⟩
  | asking _ _ hopen => exact absurd hends (hopen.undecided _ nofun)
  | pausing _ _ _ _ hopen => exact absurd hends (hopen.undecided _ nofun)
  | cancelling _ _ hopen => exact absurd hends (hopen.undecided _ nofun)
  | deciding v _ _ _ _ _ hother hphase =>
      rcases hphase with ⟨rfl, -⟩ | ⟨rfl, -⟩ <;> exact nomatch hends.eq hother
  | overflown _ _ hother => exact nomatch hends.eq hother
  | interrupted _ _ hundecided => exact absurd hends (hundecided _ nofun)
  | stored v _ _ _ hother hphase =>
      rcases hphase with ⟨rfl, -⟩ | ⟨rfl, -⟩ <;> exact nomatch hends.eq hother

/-- From the first answer on an order is settled in a bounded number of steps: the portfolio fails,
or comes to rest, as the last answer says, or is left with the order pending on a shutdown. -/
theorem order_is_settled (hreach : Reachable o y) (hproper : o.Proper) : Settles o y := by
  obtain ⟨hstands, hduly, hlength⟩ := hreach.sound hproper
  have hphases : (y.phase = .failed ↔ Ends o y.notes .failed) ∧
      (y.phase = .idle ↔ Ends o y.notes .idle) ∧
      (y.executor.stage = .overflown ↔ Ends o y.notes .overflown) := by
    rcases hstands.phase_eq hproper with ⟨hstage, hphase, hnone⟩ | ⟨hstage, hphase, hends⟩ |
      ⟨hstage, hphase, hends⟩ | ⟨hstage, hphase, hends⟩
    · simp [hstage, hphase, hnone]
    all_goals simp [hstage, hphase, hends.iff]
  constructor
  case length => exact hlength
  case advances => exact fun _ hstep => hstep.advances
  case goesOn => exact hstands.goesOn hproper
  case duly => exact hduly
  case failed => exact hphases.1
  case idle => exact hphases.2.1
  case overflown => exact hphases.2.2
  case undrawn => exact hstands.of_undrawn
  case stored =>
    intro p hending
    obtain ⟨p', heq, hphase, hfetch⟩ | ⟨heq, -⟩ := hstands.ended hending
    · cases heq
      exact ⟨hphase, hfetch⟩
    · cases heq
  case interrupted =>
    intro hending
    obtain ⟨p, heq, -⟩ | ⟨-, hleft⟩ := hstands.ended hending
    · cases heq
    · exact hleft

/-! ### An order that is cancelled, and orders that are left pending -/

def momentAt (time : Nat) : Moment := { World.eagerMoment with time }

def eagerOpening : Opening where
  setup := World.eagerSetup
  state := World.placingState "alpha" World.eagerEvent World.eagerOrder World.eagerMoment.now
  order := World.eagerOrder
  started := 0
  store := {}

def awaitingFirst (o : Opening) : Executor Unit :=
  ⟨o.setup, World.eager, (), o.state, .submitting o.order, []⟩

theorem awaitingFirst_awaits (o : Opening) : o.Awaits (awaitingFirst o) :=
  ⟨rfl, rfl, .inl rfl⟩

theorem eagerOpening_proper : eagerOpening.Proper := by
  constructor <;> decide

/-- The first answer gets lost, and the wait after it is 50 milliseconds shorter than scheduled. The
order then rests until its time is over, is cancelled, and is found rejected. -/
def eagerNotes : List Note :=
  [.answered 0 (.error (.gateway "timed out" true)), .waited, .answered 450 (.ok (.resting "x-1")),
    .waited, .answered 60000 (.ok (.resting "x-1")), .cancelled 60000 "first", .waited,
    .answered 61000 (.ok (.rejected "cancelled"))]

theorem eager_course : ∃ y : Course Unit, Reachable eagerOpening y ∧ y.notes = eagerNotes := by
  have hfirst := Reachable.first (m := momentAt 0) (.error (.gateway "timed out" true))
    (awaitingFirst_awaits eagerOpening) rfl
  have hdrawn := hfirst.step (.jitter (m := momentAt 450) rfl rfl
    (not_ends_answered [] _ _ (by decide +kernel)) rfl (by decide) (by decide))
  have hfound := hdrawn.step (.ask (m := momentAt 450) rfl rfl (by decide) (.ok (.resting "x-1")))
  have hwaited := hfound.step (.wait (m := momentAt 60000) rfl rfl
    (not_ends_answered _ _ _ (by decide)) (by decide))
  have hresting := hwaited.step
    (.ask (m := momentAt 60000) rfl rfl (by decide) (.ok (.resting "x-1")))
  have hcancelled := hresting.step (.cancel (m := momentAt 60000) rfl rfl (by decide) (.ok ()))
  have hwaiting := hcancelled.step (.wait (m := momentAt 61000) rfl rfl
    (not_ends_concat rfl _) (by decide))
  have hrejected := hwaiting.step
    (.ask (m := momentAt 61000) rfl rfl (by decide) (.ok (.rejected "cancelled")))
  exact ⟨_, hrejected, rfl⟩

theorem eager_order_is_settled :
    ∃ y : Course Unit, Reachable eagerOpening y ∧ eagerOpening.Proper ∧ y.notes = eagerNotes ∧
      Settles eagerOpening y := by
  obtain ⟨y, hreach, hnotes⟩ := eager_course
  exact ⟨y, hreach, eagerOpening_proper, hnotes, order_is_settled hreach eagerOpening_proper⟩

/-- A portfolio that holds one lot and sells it. -/
def sellingOpening : Opening where
  setup := World.eagerSetup
  state :=
    { eagerOpening.state with
      lots := [⟨"bought", "x-0", Decimal.one, Decimal.one, World.eagerMoment.now⟩] }
  order := { World.eagerOrder with side := .sell }
  started := 0
  store := {}

/-- The fill of a sale that would let the lot grow beyond all amounts. -/
def hugeFill : Fill :=
  { exchangeId := "x-1"
    size :=
      { Decimal.one with
        coefficient := -79228162514264337593543950335
        coefficient_lt := by decide }
    price := Decimal.one
    filledAt := World.eagerMoment.now }

/-- Settings whose jitter has no bounds: no finite float tells how far a wait may lie from the
scheduled one. -/
def boundlessOpening : Opening :=
  { eagerOpening with
    setup := { World.eagerSetup with
      settings := { reconcile := { jitter := 1e308, maxAttempts := 5 } } } }

/-- An order may be left pending by what happened, without a shutdown and with nothing left to
do. -/
def LeavesPending (o : Opening) (notes : List Note) : Prop :=
  o.Proper ∧ ∃ y : Course Unit, Reachable o y ∧ y.notes = notes ∧ y.phase = .orderPending ∧
    ∀ y', ¬ Step o y y'

theorem leavesPending_unbookable :
    LeavesPending sellingOpening [.answered 0 (.ok (.filled hugeFill))] := by
  have hproper : sellingOpening.Proper := by constructor <;> decide
  have hbook : sellingOpening.state.applyFill? sellingOpening.order hugeFill = none := by
    decide
  have hfirst := Reachable.first (m := momentAt 0) (.ok (.filled hugeFill))
    (awaitingFirst_awaits sellingOpening) rfl
  have hresume : (awaitingFirst sellingOpening).resume (.answered (.ok (.filled hugeFill)))
      (momentAt 0) = { awaitingFirst sellingOpening with stage := .overflown } := by
    simp only [Executor.resume, awaitingFirst, settleFirst, Executor.settle, hbook]
  rw [hresume] at hfirst
  refine ⟨hproper, _, hfirst, rfl, rfl, fun y' hstep => ?_⟩
  cases hstep with
  | _ _ hrequest => cases hrequest

theorem leavesPending_undrawn :
    LeavesPending boundlessOpening [.answered 0 (.error (.gateway "timed out" true))] := by
  have hproper : boundlessOpening.Proper := by constructor <;> decide
  have hundrawn :
      boundlessOpening.verdict [] 0 (.error (.gateway "timed out" true)) = .undrawn := by
    decide +kernel
  have hfirst := Reachable.first (m := momentAt 0) (.error (.gateway "timed out" true))
    (awaitingFirst_awaits boundlessOpening) rfl
  have hends : Ends boundlessOpening [.answered 0 (.error (.gateway "timed out" true))] .undrawn :=
    ⟨[], 0, _, rfl, hundrawn⟩
  exact ⟨hproper, _, hfirst, rfl, rfl, fun _ => not_step_of_undrawn rfl hends⟩

/-- A fill that cannot be booked brings the portfolio neither to rest nor to fail. Neither does a
call whose answer is lost, if no wait can be drawn after it. -/
theorem orders_are_left_pending :
    LeavesPending sellingOpening [.answered 0 (.ok (.filled hugeFill))] ∧
      LeavesPending boundlessOpening [.answered 0 (.error (.gateway "timed out" true))] :=
  ⟨leavesPending_unbookable, leavesPending_undrawn⟩

end Settlement
end Executor
end TradingDesk

import TradingDesk.Proofs.Trading.Tracing
/-!
# Phases of a portfolio

Whatever document an executor starts from, it changes phases only as they allow: the one error that
a call ends with is that of a write. A portfolio that began without a document has an order pending
just in the phases that follow one, and a reason once it has failed. A portfolio that has failed
asks for nothing any more.
-/

namespace TradingDesk
namespace Executor

variable {σ : Type}

/-! ### Stages and phases -/

/-- The phase in which a stage that follows can be. -/
def After.Agrees (phase : Phase) : After → Prop
  | evaluate _ => phase = .evaluating
  | submit _ => phase = .orderPending
  | finish _ => True

/-- The phase in which a stage can be, and what can have gone wrong there. -/
def Stage.Agrees (phase : Phase) : Stage → Prop
  | ready result => ∀ fault, result = .error fault → ∃ reason, fault = .storeWrite reason
  | overflown => True
  | saving _ _ after | retrying _ _ _ after => after.Agrees phase
  | degraded fault _ after => (∃ reason, fault = .storeWrite reason) ∧ after.Agrees phase
  | viewing _ => phase = .evaluating
  | submitting _ | reconciling .. | querying _ | cancelling _ | pausing .. => phase = .orderPending

/-- The stage of an executor is one of its phase. -/
def Orderly (x : Executor σ) : Prop := x.stage.Agrees x.state.phase

section

variable {x : Executor σ} {m : Moment}

theorem orderly_done : x.done.Orderly := by
  intro fault hfault
  cases hfault

theorem orderly_enter {next : Phase} {after : After}
    (hallowed : x.state.phase.mayBecome next = true) (hafter : after.Agrees next) :
    (x.enter next after m).Orderly := by
  rw [enter_eq hallowed]
  exact hafter

theorem orderly_fail (hphase : x.state.phase = .orderPending) (reason : String)
    (waiting : Option ChangeEvent) : (x.fail reason waiting m).Orderly := by
  rw [fail_eq hphase]
  trivial

theorem orderly_take {event : ChangeEvent} (hidle : x.state.phase = .idle) :
    (x.take event m).Orderly := by
  unfold take
  split
  · exact orderly_done
  · exact orderly_enter (by rw [hidle]; rfl) rfl

theorem orderly_finish (waiting : Option ChangeEvent) : (x.finish waiting m).Orderly := by
  unfold finish
  cases waiting with
  | none => exact orderly_done
  | some event =>
      by_cases hidle : x.state.phase = .idle
      · simp only [if_pos hidle]
        exact orderly_take hidle
      · simp only [if_neg hidle]
        exact orderly_done

theorem orderly_recoverFor (waiting : Option ChangeEvent) : (x.recoverFor waiting m).Orderly := by
  unfold recoverFor
  cases hphase : x.state.phase with
  | idle => exact orderly_finish waiting
  | evaluating => exact orderly_enter (by rw [hphase]; rfl) trivial
  | orderPending =>
      cases x.state.pending with
      | none => exact orderly_fail hphase _ waiting
      | some order => exact hphase
  | failed => exact orderly_done

theorem orderly_handle (event : ChangeEvent) : (x.handle event m).Orderly := by
  unfold handle
  split
  · exact orderly_done
  · cases hphase : x.state.phase with
    | failed => exact orderly_done
    | idle => exact orderly_take hphase
    | evaluating => exact orderly_recoverFor (some event)
    | orderPending => exact orderly_recoverFor (some event)

theorem orderly_evaluate (hphase : x.state.phase = .evaluating) (event : ChangeEvent)
    (view : Except Fault MarketView) : (x.evaluate event view m).Orderly := by
  unfold evaluate
  cases view with
  | error fault => exact orderly_enter (by rw [hphase]; rfl) trivial
  | ok view =>
      simp only
      cases x.strategy.evaluate? x.memory view x.state with
      | none => trivial
      | some judged =>
          obtain ⟨decision, memory⟩ := judged
          have hmarked : (x.state.markEvaluated event).phase = .evaluating := hphase
          cases decision with
          | noGo => exact orderly_enter (by simp only [hmarked]; rfl) trivial
          | go trade => exact orderly_enter (by simp only [hmarked]; rfl) rfl

theorem orderly_settle (hphase : x.state.phase = .orderPending) (s : Settling)
    (answer : Except Fault Order.Outcome) : (x.settle s answer m).Orderly := by
  have hdismiss : ({ x with state := { x.state with pending := none } }.enter .idle
      (.finish s.waiting) m).Orderly :=
    orderly_enter (by simp only [hphase]; rfl) trivial
  unfold settle
  cases answer with
  | error fault =>
      cases fault with
      | gateway detail recoverable =>
          cases recoverable with
          | false => exact orderly_fail hphase _ _
          | true =>
              simp only
              cases s.reconcile.next? with
              | none => exact orderly_fail hphase _ _
              | some next => exact hphase
      | _ => exact orderly_fail hphase _ _
  | ok outcome =>
      cases outcome with
      | filled fill =>
          simp only
          cases hbook : x.state.applyFill? s.order fill with
          | none => trivial
          | some q =>
              have hq : q.phase = .orderPending := by rw [Portfolio.applyFill?_eq hbook, hphase]
              exact orderly_enter (by simp only [hq]; rfl) trivial
      | rejected reason => exact hdismiss
      | unknown => exact hdismiss
      | resting exchangeId =>
          simp only
          split
          · trivial
          · split
            · exact orderly_fail hphase _ _
            · split <;> exact hphase

theorem orderly_proceed {fromPhase : Phase} {after : After} (h : after.Agrees x.state.phase) :
    (x.proceed fromPhase after m).Orderly := by
  unfold proceed
  cases after with
  | evaluate event => exact h
  | submit order => exact h
  | finish waiting => exact orderly_finish waiting

/-- No reply makes a stage one that its phase has not. -/
theorem Orderly.resume (h : x.Orderly) (reply : Reply) : (x.resume reply m).Orderly := by
  have horderly := h
  unfold Orderly at h
  unfold Executor.resume
  split
  · next fromPhase schedule after hstage =>
      rw [hstage] at h
      exact orderly_proceed h
  · next fromPhase schedule after fault hstage =>
      rw [hstage] at h
      cases schedule.next? with
      | none => exact ⟨⟨_, rfl⟩, h⟩
      | some next => exact h
  · next delay fromPhase schedule after shutdown hstage =>
      rw [hstage] at h
      exact h
  · next fault fromPhase after shutdown hstage =>
      rw [hstage] at h
      split
      · rintro _ ⟨⟩
        exact h.1
      · exact h.2
  · next event view hstage =>
      rw [hstage] at h
      exact orderly_evaluate h event view
  · next order answer hstage =>
      rw [hstage] at h
      exact orderly_settle h _ answer
  · next order waiting answer hstage =>
      rw [hstage] at h
      exact orderly_settle h _ answer
  · next s answer hstage =>
      rw [hstage] at h
      exact orderly_settle h s answer
  · next s result hstage =>
      rw [hstage] at h
      exact h
  · next delay s shutdown hstage =>
      rw [hstage] at h
      split
      · exact orderly_finish s.waiting
      · exact h
  · exact horderly

end

namespace World

variable {setup : Setup} {strategy : Strategy σ} {w w' : World σ}

def Orderly (w : World σ) : Prop := ∀ p, w.process = some p → p.executor.Orderly

theorem Orderly.step (h : w.Orderly) (hstep : Step setup strategy w w') : w'.Orderly := by
  cases hstep with
  | start memory hnow hrestore =>
      rintro _ ⟨⟩
      obtain ⟨-, hstage⟩ := restore_eq hrestore
      rw [Executor.Orderly, hstage]
      rintro _ ⟨⟩
  | recover hready hnow =>
      rintro _ ⟨⟩
      exact orderly_recoverFor none
  | handle hready hevent hnow =>
      rintro _ ⟨⟩
      exact orderly_handle _
  | ask hrequest hserved =>
      rintro _ ⟨⟩
      exact h ⟨_, _, none⟩ rfl
  | resume hnow =>
      rintro _ ⟨⟩
      exact (h _ rfl).resume _
  | crash => rintro _ ⟨⟩
  | elsewhere hkept => exact h

theorem Orderly.steps (h : w.Orderly) (hsteps : Steps setup strategy w w') : w'.Orderly := by
  induction hsteps with
  | refl => exact h
  | tail _ hlast ih => exact ih.step hlast

end World

/-! ### Pending orders and reasons -/

end Executor

/-- A portfolio that has failed says why. -/
def Portfolio.Explained (p : Portfolio) : Prop := p.phase = .failed → p.failure.isSome = true

theorem Portfolio.explained_of_ne {p : Portfolio} (h : p.phase ≠ .failed) : p.Explained :=
  fun hfailed => absurd hfailed h

/-- What the phase of a portfolio says of its order and of its reason to fail. -/
structure Portfolio.Proper (p : Portfolio) : Prop where
  free : p.phase = .idle ∨ p.phase = .evaluating → p.pending = none
  ordered : p.phase = .orderPending → p.pending.isSome = true
  failed : p.phase = .failed → p.pending.isSome = true ∧ p.failure.isSome = true

theorem Portfolio.proper_of_coherent {p : Portfolio} (hcoherent : p.Coherent)
    (hexplained : p.Explained) : p.Proper where
  free := hcoherent.pending_eq_none
  ordered hphase := hcoherent.mpr (.inl hphase)
  failed hphase := ⟨hcoherent.mpr (.inr hphase), hexplained hphase⟩

namespace Executor

structure Outline.Explained (o : Outline) : Prop where
  stored : ∀ p, o.stored = some p → p.Explained
  state : ∀ q, o.posture = some q → q.state.Explained

namespace Outline

variable {stored : Option Portfolio} {posture : Option Posture} {p : Portfolio} {aim : Aim}
  {call : Option ChangeEvent} {t t' : Transcript}

theorem Explained.change (h : Explained ⟨stored, posture, t⟩) (hstate : p.Explained) :
    Explained ⟨stored, some ⟨p, aim, call⟩, t'⟩ := by
  refine ⟨h.stored, ?_⟩
  rintro _ ⟨⟩
  exact hstate

theorem Explained.step {id : String} {o o' : Outline} (hstep : Step id o o')
    (h : o.Explained) : o'.Explained := by
  cases hstep with
  | @start stored t now =>
      refine h.change ?_
      cases stored with
      | none => exact Portfolio.explained_of_ne (by simp [Portfolio.new])
      | some p => exact h.stored p rfl
  | call | submit | inquire | hear | choke | rest | «break» => exact h.change (h.state _ rfl)
  | begin | reset | skip | create | dismiss | book =>
      exact h.change (Portfolio.explained_of_ne (by simp))
  | giveUp => exact h.change fun _ => rfl
  | keep =>
      have hstate := h.state _ rfl
      refine ⟨?_, ?_⟩
      · rintro _ ⟨⟩
        exact hstate
      · rintro _ ⟨⟩
        exact hstate
  | crash => exact ⟨h.stored, by simp⟩

theorem Explained.of_steps {id : String} {o : Outline} (hsteps : Steps id initial o) :
    o.Explained := by
  refine hsteps.invariant ?_ fun _ hstep h => h.step hstep
  constructor <;> simp [initial]

end Outline

namespace World

variable {setup : Setup} {strategy : Strategy σ} {w w' : World σ} {p : Portfolio}

/-- The stored state and the one in memory. -/
def Shows (setup : Setup) (w : World σ) (p : Portfolio) : Prop :=
  w.stored? setup = some p ∨ ∃ q, w.process = some q ∧ q.executor.state = p

theorem Reachable.proper (hreach : Reachable setup strategy w) (hshows : w.Shows setup p) :
    p.Proper := by
  obtain ⟨hsteps, -⟩ := hreach.outline
  have hcoherent := hsteps.coherent
  have hexplained := Outline.Explained.of_steps hsteps
  rcases hshows with hstored | ⟨q, hq, rfl⟩
  · exact Portfolio.proper_of_coherent (hcoherent.stored p hstored) (hexplained.stored p hstored)
  · have hposture : (w.outline setup).posture =
        some ⟨q.executor.state, q.executor.aimWith q.reply, q.call⟩ := by
      simp [World.outline, hq]
    exact Portfolio.proper_of_coherent (hcoherent.state _ hposture) (hexplained.state _ hposture)

/-! ### Failed portfolios -/

end World

section

variable {x : Executor σ} {m : Moment}

theorem recover_of_failed (hfailed : x.state.phase = .failed) : x.recover m = x.done := by
  unfold recover recoverFor
  rw [hfailed]

theorem handle_of_failed (hfailed : x.state.phase = .failed) (event : ChangeEvent) :
    x.handle event m = x.done := by
  unfold handle
  rw [hfailed]
  split <;> rfl

theorem finish_of_failed (hfailed : x.state.phase = .failed) (waiting : Option ChangeEvent) :
    x.finish waiting m = x.done := by
  unfold finish
  cases waiting with
  | none => rfl
  | some event => exact if_neg (by simp [hfailed])

/-- Once it is stored that the portfolio has failed, the call ends. -/
theorem proceed_of_failed (hfailed : x.state.phase = .failed) {fromPhase : Phase} {after : After}
    (hafter : after.Agrees .failed) :
    (x.proceed fromPhase after m).state = x.state ∧
      (x.proceed fromPhase after m).stage = .ready (.ok ()) := by
  cases after with
  | evaluate event => cases hafter
  | submit order => cases hafter
  | finish waiting =>
      let x' : Executor σ :=
        { x with announced := ⟨x.setup.portfolio, fromPhase, x.state.phase⟩ :: x.announced }
      have hproceed : x.proceed fromPhase (.finish waiting) m = x'.finish waiting m := rfl
      have hphase : x'.state.phase = .failed := hfailed
      rw [hproceed, finish_of_failed hphase]
      exact ⟨rfl, rfl⟩

theorem Orderly.resume_saved (h : x.Orderly) (hfailed : x.state.phase = .failed)
    {document : Json} (hrequest : x.request? = some (.save document)) :
    (x.resume (.saved (.ok ())) m).state = x.state ∧
      (x.resume (.saved (.ok ())) m).request? = none ∧ x.learned (.saved (.ok ())) m = [] := by
  unfold Orderly at h
  unfold request? at hrequest
  cases hstage : x.stage with
  | saving fromPhase schedule after =>
      rw [hstage, hfailed] at h
      have hresume : x.resume (.saved (.ok ())) m = x.proceed fromPhase after m := by
        unfold Executor.resume
        rw [hstage]
      have hlearned : x.learned (.saved (.ok ())) m = [] := by
        unfold learned
        rw [hstage]
      obtain ⟨hstate, hready⟩ := proceed_of_failed (m := m) hfailed h
      rw [hresume]
      exact ⟨hstate, by rw [request?, hready], hlearned⟩
  | _ => simp [hstage] at hrequest

end

theorem Served.fetch?_eq {portfolio : String} {call : Option ChangeEvent} {store store' : Store}
    {request : Request} {reply : Reply} {seen : Transcript}
    (h : Served portfolio call store request reply store' seen) (hreply : reply ≠ .saved (.ok ())) :
    store'.fetch? Collection.states portfolio = store.fetch? Collection.states portfolio := by
  cases h with
  | saved hwrite => exact absurd rfl hreply
  | notSaved hwrite => exact Store.fetch?_of_upsert_error hwrite Collection.states portfolio
  | _ => rfl

namespace World

variable {setup : Setup} {strategy : Strategy σ} {w w' : World σ} {p : Portfolio}

theorem Step.transcript_eq (hstep : Step setup strategy w w') :
    ∃ seen, w'.transcript = w.transcript ++ seen := by
  cases hstep with
  | ask | resume | crash => exact ⟨_, rfl⟩
  | _ => exact ⟨[], (List.append_nil _).symm⟩

/-- The process has the portfolio in this state and asks for nothing. -/
def Halted (p : Portfolio) (w : World σ) : Prop :=
  ∃ x call, w.process = some ⟨x, call, none⟩ ∧ x.state = p ∧ x.request? = none

theorem Halted.step (h : w.Halted p) (hfailed : p.phase = .failed)
    (hstep : Step setup strategy w w') :
    (w'.transcript = w.transcript ∧ w'.document? setup = w.document? setup ∧ w'.Halted p) ∨
      w'.transcript = w.transcript ++ [Observation.crashed] := by
  obtain ⟨x, call, hprocess, rfl, hidle⟩ := h
  cases hstep with
  | start => cases hprocess
  | recover hready hnow =>
      cases hprocess
      exact .inl ⟨rfl, rfl, _, _, rfl, by rw [recover_of_failed hfailed]; exact ⟨rfl, rfl⟩⟩
  | handle hready hevent hnow =>
      cases hprocess
      exact .inl ⟨rfl, rfl, _, _, rfl, by rw [handle_of_failed hfailed]; exact ⟨rfl, rfl⟩⟩
  | ask hrequest hserved =>
      cases hprocess
      rw [hidle] at hrequest
      contradiction
  | resume hnow => cases hprocess
  | crash => exact .inr rfl
  | elsewhere hkept => exact .inl ⟨rfl, hkept, x, call, hprocess, rfl, hidle⟩

/-- Until it ends, the process of a portfolio that has failed does nothing. -/
theorem Halted.steps (h : w.Halted p) (hfailed : p.phase = .failed)
    (hsteps : Steps setup strategy w w') :
    ∃ seen, w'.transcript = w.transcript ++ seen ∧ (.crashed ∈ seen ∨
      seen = [] ∧ w'.document? setup = w.document? setup ∧ w'.Halted p) := by
  induction hsteps with
  | refl => exact ⟨[], (List.append_nil _).symm, .inr ⟨rfl, rfl, h⟩⟩
  | tail _ hlast ih =>
      obtain ⟨seen, htranscript, hended | ⟨rfl, hdocument, hhalted⟩⟩ := ih
      · obtain ⟨seen', hnew⟩ := hlast.transcript_eq
        refine ⟨seen ++ seen', by rw [hnew, htranscript, List.append_assoc], .inl ?_⟩
        exact List.mem_append_left seen' hended
      · rw [List.append_nil] at htranscript
        rcases hhalted.step hfailed hlast with ⟨hsame, hkept, hhalted'⟩ | hcrashed
        · refine ⟨[], ?_, .inr ⟨rfl, hkept.trans hdocument, hhalted'⟩⟩
          rw [hsame, htranscript, List.append_nil]
        · exact ⟨[.crashed], by rw [hcrashed, htranscript], .inl (by simp)⟩

/-- A process over a stored state that has failed has that state, and asks for nothing or is about
to be told that the state is stored. -/
def Sealed (setup : Setup) (w : World σ) : Prop :=
  ∀ p, w.stored? setup = some p → p.phase = .failed → ∀ q, w.process = some q →
    q.executor.state = p ∧
      (q.executor.request? = none ∨ q.reply = some (.saved (.ok ())))

/-- The stored state changes only when a process is told that it does. -/
theorem Step.stored?_eq (hstep : Step setup strategy w w') :
    w'.document? setup = w.document? setup ∨
      ∃ q, w'.process = some q ∧ q.reply = some (.saved (.ok ())) := by
  cases hstep with
  | @ask store store' t seen x call request reply hrequest hserved =>
      by_cases hsaved : reply = .saved (.ok ())
      · subst reply
        exact .inr ⟨_, rfl, rfl⟩
      · exact .inl (hserved.fetch?_eq hsaved)
  | elsewhere hkept => exact .inl hkept
  | _ => exact .inl rfl

theorem Sealed.frozen (h : w.Sealed setup) (hsound : w.Sound setup) (horderly : w.Orderly)
    (hstored : w.stored? setup = some p) (hfailed : p.phase = .failed)
    (hstep : Step setup strategy w w') :
    w'.document? setup = w.document? setup ∧
      (w'.transcript = w.transcript ∨ w'.transcript = w.transcript ++ [Observation.crashed]) ∧
      ∀ q, w'.process = some q → q.executor.state = p ∧
        (q.executor.request? = none ∨ q.reply = some (.saved (.ok ()))) := by
  have hprocess := h p hstored hfailed
  cases hstep with
  | @start store t x memory now hnow hrestore =>
      refine ⟨rfl, .inl rfl, ?_⟩
      rintro _ ⟨⟩
      rcases restore_cases hrestore with ⟨hnone, -⟩ | ⟨document, hdocument, hread⟩
      · simp [stored?, document?, hnone] at hstored
      · have hstate : x.state = p := by simpa [stored?, document?, hdocument, hread] using hstored
        refine ⟨hstate, .inl ?_⟩
        rw [request?, (restore_eq hrestore).2]
  | recover hready hnow =>
      obtain ⟨rfl, -⟩ := hprocess _ rfl
      refine ⟨rfl, .inl rfl, ?_⟩
      rintro _ ⟨⟩
      rw [recover_of_failed hfailed]
      exact ⟨rfl, .inl rfl⟩
  | handle hready hevent hnow =>
      obtain ⟨rfl, -⟩ := hprocess _ rfl
      refine ⟨rfl, .inl rfl, ?_⟩
      rintro _ ⟨⟩
      rw [handle_of_failed hfailed]
      exact ⟨rfl, .inl rfl⟩
  | ask hrequest hserved =>
      obtain ⟨-, hidle | hreply⟩ := hprocess _ rfl
      · rw [hidle] at hrequest
        contradiction
      · contradiction
  | resume hnow =>
      obtain ⟨rfl, hidle | hreply⟩ := hprocess _ rfl
      · obtain ⟨request, hrequest, -⟩ := (hsound.process _ rfl).reply _ rfl
        rw [hidle] at hrequest
        contradiction
      · obtain rfl := Option.some.inj hreply
        obtain ⟨request, hrequest, hfits⟩ := (hsound.process _ rfl).reply _ rfl
        cases request <;> try contradiction
        next document =>
        obtain ⟨hstate, hidle, hlearned⟩ :=
          (horderly _ rfl).resume_saved hfailed hrequest
        refine ⟨rfl, .inl ?_, ?_⟩
        · rw [hlearned, List.append_nil]
        · rintro _ ⟨⟩
          exact ⟨hstate, .inl hidle⟩
  | crash => exact ⟨rfl, .inr rfl, by rintro _ ⟨⟩⟩
  | elsewhere hkept => exact ⟨hkept, .inl rfl, hprocess⟩

theorem Sealed.step (h : w.Sealed setup) (hsound : w.Sound setup) (horderly : w.Orderly)
    (hsound' : w'.Sound setup) (hstep : Step setup strategy w w') : w'.Sealed setup := by
  intro p hstored hfailed q hq
  rcases hstep.stored?_eq with hkept | ⟨q', hq', hreply⟩
  · have hbefore : w.stored? setup = some p := by
      rw [← hstored, stored?, stored?, hkept]
    exact (h.frozen hsound horderly hbefore hfailed hstep).2.2 q hq
  · obtain rfl : q = q' := Option.some.inj (hq.symm.trans hq')
    have hsaved := (hsound'.process q hq).saved hreply
    exact ⟨Option.some.inj (hsaved.symm.trans hstored), .inr hreply⟩

theorem Reachable.orderly (hreach : Reachable setup strategy w) : w.Orderly := by
  induction hreach with
  | initial => rintro _ ⟨⟩
  | step _ hstep ih => exact ih.step hstep

theorem Reachable.sealed (hreach : Reachable setup strategy w) : w.Sealed setup := by
  induction hreach with
  | initial => rintro _ _ _ _ ⟨⟩
  | step hreach hstep ih =>
      exact ih.step hreach.outline.2 hreach.orderly (hreach.step hstep).outline.2 hstep

/-- What is stored of a portfolio that has failed stays, and processes come and go without effect.
-/
theorem Reachable.stays_failed (hreach : Reachable setup strategy w)
    (hstored : w.stored? setup = some p) (hfailed : p.phase = .failed)
    (hsteps : Steps setup strategy w w') :
    w'.document? setup = w.document? setup ∧
      ∃ n, w'.transcript = w.transcript ++ List.replicate n Observation.crashed := by
  induction hsteps with
  | refl => exact ⟨rfl, 0, (List.append_nil _).symm⟩
  | @tail w₁ w₂ hsteps hlast ih =>
      obtain ⟨hdocument, n, htranscript⟩ := ih
      have hreach₁ := hreach.steps hsteps
      have hstored₁ : w₁.stored? setup = some p := by
        rw [← hstored, stored?, stored?, hdocument]
      obtain ⟨hkept, hseen, -⟩ := hreach₁.sealed.frozen hreach₁.outline.2 hreach₁.orderly hstored₁
        hfailed hlast
      refine ⟨hkept.trans hdocument, ?_⟩
      rcases hseen with hsame | hcrashed
      · exact ⟨n, hsame.trans htranscript⟩
      · refine ⟨n + 1, ?_⟩
        rw [hcrashed, htranscript, List.replicate_succ', List.append_assoc]

/-- From any document on, a call ends with an error only where a write has failed, never because a
change of phase is not allowed. A portfolio that began without a document has orders and reasons as
its phases say. Once it has failed and its call has ended, the process does nothing until it ends
itself; and once the document says so, nothing is asked for or stored ever again. -/
theorem phases_are_orderly (setup : Setup) (strategy : Strategy σ) :
    (∀ store w, Steps setup strategy ⟨store, none, []⟩ w →
      ∀ q fault, w.process = some q → q.executor.stage = .ready (.error fault) →
        ∃ reason, fault = .storeWrite reason) ∧
    ∀ w, Reachable setup strategy w →
      (∀ p, w.Shows setup p → p.Proper) ∧
      (∀ q result, w.process = some q → q.executor.stage = .ready result →
        q.executor.state.phase = .failed → ∀ w', Steps setup strategy w w' →
          ∃ seen, w'.transcript = w.transcript ++ seen ∧ (.crashed ∈ seen ∨
            seen = [] ∧ w'.document? setup = w.document? setup ∧ w'.Halted q.executor.state)) ∧
      ∀ p, w.stored? setup = some p → p.phase = .failed → ∀ w', Steps setup strategy w w' →
        w'.document? setup = w.document? setup ∧
        (∃ n, w'.transcript = w.transcript ++ List.replicate n Observation.crashed) ∧
        ∀ q, w'.process = some q → q.executor.state = p ∧
          (q.executor.request? = none ∨ q.reply = some (.saved (.ok ()))) := by
  constructor
  · intro store w hsteps q fault hq hstage
    have hinitial : Orderly (⟨store, none, []⟩ : World σ) := by rintro _ ⟨⟩
    have horderly := hinitial.steps hsteps q hq
    rw [Executor.Orderly, hstage] at horderly
    exact horderly fault rfl
  · intro w hreach
    refine ⟨fun p hshows => hreach.proper hshows, ?_, ?_⟩
    · intro q result hq hstage hfailed w' hsteps
      have hidle : q.executor.request? = none := by rw [request?, hstage]
      have hreply : q.reply = none := by
        by_contra hsome
        obtain ⟨reply, hreply⟩ := Option.ne_none_iff_exists'.mp hsome
        obtain ⟨request, hrequest, -⟩ := (hreach.outline.2.process q hq).reply reply hreply
        rw [hidle] at hrequest
        contradiction
      have hhalted : w.Halted q.executor.state :=
        ⟨q.executor, q.call, by rw [hq, ← hreply], rfl, hidle⟩
      exact hhalted.steps hfailed hsteps
    · intro p hstored hfailed w' hsteps
      obtain ⟨hdocument, htranscript⟩ := hreach.stays_failed hstored hfailed hsteps
      have hstored' : w'.stored? setup = some p := by
        rw [← hstored, stored?, stored?, hdocument]
      exact ⟨hdocument, htranscript, (hreach.steps hsteps).sealed p hstored' hfailed⟩

/-- A portfolio whose first order is refused has failed, and its next event changes nothing. -/
theorem refused_order_ends_portfolio :
    ∃ w w' p, Reachable eagerSetup eager w ∧ w.stored? eagerSetup = some p ∧
      p.phase = .failed ∧ p.Proper ∧ Steps eagerSetup eager w w' ∧
      w'.process.bind (·.call) = some { eagerEvent with sequence := 2 } ∧
      w'.document? eagerSetup = w.document? eagerSetup ∧
      ∀ q, w'.process = some q → q.executor.state = p ∧
        (q.executor.request? = none ∨ q.reply = some (.saved (.ok ()))) := by
  have hanswer : ValidAnswer (.error (.gateway "refused" false)) := by simp [ValidAnswer]
  obtain ⟨store, announced, hfailures, -, hreach⟩ := Reachable.eager_order hanswer
  have hfailing := hreach.step (.resume (m := eagerMoment) eagerMoment_valid)
  obtain ⟨store', hwrite, -⟩ :=
    Store.upsert_of_failures_eq_zero hfailures Collection.states "alpha" _
  have hstoring := hfailing.step (.ask rfl (.saved hwrite))
  have hstored := (hstoring.outline.2.process _ rfl).saved rfl
  have hready := hstoring.step (.resume (m := eagerMoment) eagerMoment_valid)
  have hnext : ({ eagerEvent with sequence := 2 } : ChangeEvent).sequence < pow2 64 := by decide
  obtain ⟨hproper, -, hfrozen⟩ := (phases_are_orderly eagerSetup eager).2 _ hready
  obtain ⟨hdocument, -, hprocess⟩ := hfrozen _ hstored rfl _
    (.single (.handle (m := eagerMoment) rfl hnext eagerMoment_valid))
  exact ⟨_, _, _, hready, hstored, rfl, hproper _ (.inl hstored),
    .single (.handle (m := eagerMoment) rfl hnext eagerMoment_valid), rfl, hdocument, hprocess⟩

end World

end Executor
end TradingDesk

import TradingDesk.Proofs.Trading.Phases
/-!
# Calls of an executor

A call that nobody interrupts ends without an error, however many writes fail on the way. Until the
changes of a state are stored nothing follows from them, and the listener is told of the phases of
the stored states, one after the other.
-/

namespace TradingDesk
namespace Executor

variable {σ : Type}

/-- The changes of phase that lead from one state through others, the last one first. -/
def changes (id : String) (start : Portfolio) : List Portfolio → List Transition
  | [] => []
  | p :: earlier => ⟨id, (earlier.headD start).phase, p.phase⟩ :: changes id start earlier

/-- What a stage says of the state when `last` is the one that was stored last: it still is the
same, or it is about to be stored and began to differ in the phase of that one. -/
def Follows (last : Portfolio) (x : Executor σ) : Prop :=
  match x.stage with
  | .ready result => result = .ok () ∧ x.state = last
  | .saving fromPhase _ after | .retrying _ fromPhase _ after | .degraded _ fromPhase after =>
    fromPhase = last.phase ∧ ∀ order, after = .submit order → x.state.pending = some order
  | .submitting order => x.state = last ∧ x.state.pending = some order
  | _ => x.state = last

/-- An executor goes on within a call, and the listener has heard no more than before. -/
structure Proceeds (last : Portfolio) (x x' : Executor σ) : Prop where
  setup : x'.setup = x.setup
  announced : x'.announced = x.announced
  follows : x'.Follows last
  /-- What has to be stored before is not begun. -/
  current : x'.stage.isCurrent = true → x.stage.isCurrent = true

section

variable {x : Executor σ} {m : Moment}

theorem Proceeds.done : Proceeds x.state x x.done := ⟨rfl, rfl, ⟨rfl, rfl⟩, nofun⟩

theorem Proceeds.enter {next : Phase} {after : After}
    (hallowed : x.state.phase.mayBecome next = true)
    (hafter : ∀ order, after = .submit order → x.state.pending = some order) {last : Portfolio}
    (hlast : x.state.phase = last.phase) : Proceeds last x (x.enter next after m) := by
  rw [enter_eq hallowed]
  exact ⟨rfl, rfl, ⟨hlast, hafter⟩, nofun⟩

theorem Proceeds.fail (hphase : x.state.phase = .orderPending) (reason : String)
    (waiting : Option ChangeEvent) : Proceeds x.state x (x.fail reason waiting m) := by
  rw [fail_eq hphase]
  exact ⟨rfl, rfl, ⟨hphase.symm, by simp⟩, nofun⟩

theorem Proceeds.take {event : ChangeEvent} (hidle : x.state.phase = .idle) :
    Proceeds x.state x (x.take event m) := by
  unfold Executor.take
  split
  · exact Proceeds.done
  · exact Proceeds.enter (by rw [hidle]; rfl) (by simp) rfl

theorem Proceeds.finish (waiting : Option ChangeEvent) :
    Proceeds x.state x (x.finish waiting m) := by
  unfold Executor.finish
  cases waiting with
  | none => exact Proceeds.done
  | some event =>
      by_cases hidle : x.state.phase = .idle
      · simp only [if_pos hidle]
        exact Proceeds.take hidle
      · simp only [if_neg hidle]
        exact Proceeds.done

theorem Proceeds.recoverFor (waiting : Option ChangeEvent) :
    Proceeds x.state x (x.recoverFor waiting m) := by
  unfold Executor.recoverFor
  cases hphase : x.state.phase with
  | idle => exact Proceeds.finish waiting
  | evaluating => exact Proceeds.enter (by rw [hphase]; rfl) (by simp) rfl
  | orderPending =>
      cases x.state.pending with
      | none => exact Proceeds.fail hphase _ waiting
      | some order => exact ⟨rfl, rfl, rfl, nofun⟩
  | failed => exact Proceeds.done

theorem Proceeds.handle (event : ChangeEvent) : Proceeds x.state x (x.handle event m) := by
  unfold Executor.handle
  split
  · exact Proceeds.done
  · cases hphase : x.state.phase with
    | failed => exact Proceeds.done
    | idle => exact Proceeds.take hphase
    | evaluating => exact Proceeds.recoverFor (some event)
    | orderPending => exact Proceeds.recoverFor (some event)

theorem Proceeds.evaluate (hphase : x.state.phase = .evaluating) (event : ChangeEvent)
    (view : Except Fault MarketView) : Proceeds x.state x (x.evaluate event view m) := by
  unfold Executor.evaluate
  cases view with
  | error fault => exact Proceeds.enter (by rw [hphase]; rfl) (by simp) rfl
  | ok view =>
      simp only
      cases x.strategy.evaluate? x.memory view x.state with
      | none => exact ⟨rfl, rfl, rfl, nofun⟩
      | some judged =>
          obtain ⟨decision, memory⟩ := judged
          have hmarked : (x.state.markEvaluated event).phase = .evaluating := hphase
          cases decision with
          | noGo =>
              simp only
              rw [enter_eq (by simp only [hmarked]; rfl)]
              exact ⟨rfl, rfl, ⟨rfl, by simp⟩, nofun⟩
          | go trade =>
              simp only
              rw [enter_eq (by simp only [hmarked]; rfl)]
              refine ⟨rfl, rfl, ⟨rfl, ?_⟩, nofun⟩
              rintro _ ⟨⟩
              rfl

theorem Proceeds.settle (hphase : x.state.phase = .orderPending) (s : Settling)
    (answer : Except Fault Order.Outcome) : Proceeds x.state x (x.settle s answer m) := by
  have hdismiss : Proceeds x.state x ({ x with state := { x.state with pending := none } }.enter
      .idle (.finish s.waiting) m) := by
    rw [enter_eq (by simp only [hphase]; rfl)]
    exact ⟨rfl, rfl, ⟨rfl, by simp⟩, nofun⟩
  unfold Executor.settle
  cases answer with
  | error fault =>
      cases fault with
      | gateway detail recoverable =>
          cases recoverable with
          | false => exact Proceeds.fail hphase _ _
          | true =>
              simp only
              cases s.reconcile.next? with
              | none => exact Proceeds.fail hphase _ _
              | some next => exact ⟨rfl, rfl, rfl, nofun⟩
      | _ => exact Proceeds.fail hphase _ _
  | ok outcome =>
      cases outcome with
      | filled fill =>
          simp only
          cases hbook : x.state.applyFill? s.order fill with
          | none => exact ⟨rfl, rfl, rfl, nofun⟩
          | some q =>
              have hq : q.phase = x.state.phase := by rw [Portfolio.applyFill?_eq hbook]
              simp only
              rw [enter_eq (by simp only [hq, hphase]; rfl)]
              exact ⟨rfl, rfl, ⟨hq, by simp⟩, nofun⟩
      | rejected reason => exact hdismiss
      | unknown => exact hdismiss
      | resting exchangeId =>
          simp only
          split
          · exact ⟨rfl, rfl, rfl, nofun⟩
          · split
            · exact Proceeds.fail hphase _ _
            · split <;> exact ⟨rfl, rfl, rfl, nofun⟩

/-- Once the state is stored the listener hears of it, and what follows begins from that state. -/
theorem Follows.proceed {last : Portfolio} {fromPhase : Phase} {after : After}
    (hlast : fromPhase = last.phase)
    (hafter : ∀ order, after = .submit order → x.state.pending = some order) :
    (x.proceed fromPhase after m).setup = x.setup ∧
      (x.proceed fromPhase after m).announced =
        ⟨x.setup.portfolio, last.phase, x.state.phase⟩ :: x.announced ∧
      (x.proceed fromPhase after m).Follows x.state := by
  subst hlast
  cases after with
  | evaluate event => exact ⟨rfl, rfl, rfl⟩
  | submit order => exact ⟨rfl, rfl, rfl, hafter order rfl⟩
  | finish waiting =>
      let x' : Executor σ :=
        { x with announced := ⟨x.setup.portfolio, last.phase, x.state.phase⟩ :: x.announced }
      have hfinish : Proceeds x.state x' (x'.finish waiting m) :=
        Proceeds.finish (x := x') (m := m) waiting
      exact ⟨hfinish.setup, hfinish.announced, hfinish.follows⟩

theorem Follows.resume {last : Portfolio} (h : x.Follows last) (horderly : x.Orderly)
    {reply : Reply} (hsaved : reply ≠ .saved (.ok ())) (hwoke : reply ≠ .woke true) :
    Proceeds last x (x.resume reply m) := by
  have hsame := h
  unfold Follows at h
  unfold Executor.Orderly at horderly
  unfold Executor.resume
  split
  · exact absurd rfl hsaved
  · next fromPhase schedule after fault hstage =>
      rw [hstage] at h
      cases schedule.next? with
      | none => exact ⟨rfl, rfl, h, nofun⟩
      | some next => exact ⟨rfl, rfl, h, nofun⟩
  · next hstage =>
      rw [hstage] at h
      exact ⟨rfl, rfl, h, nofun⟩
  · next fault fromPhase after shutdown hstage =>
      rw [hstage] at h
      cases shutdown with
      | true => exact absurd rfl hwoke
      | false => exact ⟨rfl, rfl, h, nofun⟩
  · next event view hstage =>
      rw [hstage] at h horderly
      subst h
      exact Proceeds.evaluate horderly event view
  · next order answer hstage =>
      rw [hstage] at h horderly
      obtain ⟨rfl, -⟩ := h
      exact Proceeds.settle horderly _ answer
  · next order waiting answer hstage =>
      rw [hstage] at h horderly
      subst h
      exact Proceeds.settle horderly _ answer
  · next s answer hstage =>
      rw [hstage] at h horderly
      subst h
      exact Proceeds.settle horderly s answer
  · next s result hstage =>
      rw [hstage] at h
      exact ⟨rfl, rfl, h, nofun⟩
  · next delay s shutdown hstage =>
      rw [hstage] at h
      cases shutdown with
      | true => exact absurd rfl hwoke
      | false => exact ⟨rfl, rfl, h, nofun⟩
  · exact ⟨rfl, rfl, hsame, id⟩

end

/-! ### Another attempt -/

/-- The stages in which a change of the state waits to be stored. -/
def Stage.isWriting : Stage → Bool
  | saving .. | retrying .. | degraded .. => true
  | _ => false

section

variable {x : Executor σ} {m : Moment} {fromPhase : Phase} {schedule : Backoff} {after : After}

theorem resume_of_saving (h : x.stage = .saving fromPhase schedule after) (fault : Fault) :
    (∃ delay schedule', (x.resume (.saved (.error fault)) m).stage =
        .retrying delay fromPhase schedule' after) ∨
      ∃ fault', (x.resume (.saved (.error fault)) m).stage = .degraded fault' fromPhase after := by
  unfold Executor.resume
  rw [h]
  simp only
  cases schedule.next? with
  | none => exact .inr ⟨_, rfl⟩
  | some next => exact .inl ⟨_, _, rfl⟩

theorem resume_of_retrying {delay : Nat} (h : x.stage = .retrying delay fromPhase schedule after) :
    (x.resume (.woke false) m).stage = .saving fromPhase schedule after := by
  unfold Executor.resume
  rw [h]

theorem resume_of_degraded {fault : Fault} (h : x.stage = .degraded fault fromPhase after) :
    (x.resume (.woke false) m).stage =
      .saving fromPhase (Backoff.start x.setup.settings.storeRetry) after := by
  unfold Executor.resume
  rw [h]
  rfl

end

/-! ### Beginnings -/

/-- An executor that begins a call: it handles an event, or recovers. -/
def begin (x : Executor σ) (call : Option ChangeEvent) (m : Moment) : Executor σ :=
  match call with
  | some event => x.handle event m
  | none => x.recover m

theorem Proceeds.begin (x : Executor σ) (call : Option ChangeEvent) (m : Moment) :
    Proceeds x.state x (x.begin call m) := by
  cases call with
  | none => exact Proceeds.recoverFor none
  | some event => exact Proceeds.handle event

theorem orderly_begin (x : Executor σ) (call : Option ChangeEvent) (m : Moment) :
    (x.begin call m).Orderly := by
  cases call with
  | none => exact orderly_recoverFor none
  | some event => exact orderly_handle event

theorem stored_learned (x : Executor σ) (reply : Reply) (m : Moment) :
    (x.learned reply m).stored = [] := by
  unfold learned
  split
  · split <;> rfl
  · rfl
  · rfl
  · rfl
  · rfl

theorem stage_of_saved {x : Executor σ} {request : Request} {result : Except Fault Unit}
    (hrequest : x.request? = some request) (hfits : request.Fits (.saved result)) :
    ∃ fromPhase schedule after, x.stage = .saving fromPhase schedule after := by
  cases request <;> try contradiction
  unfold Executor.request? at hrequest
  cases hstage : x.stage <;> simp [hstage] at hrequest
  exact ⟨_, _, _, rfl⟩

theorem document_of_save {x : Executor σ} {document : Json}
    (h : x.request? = some (.save document)) : document = x.document := by
  unfold Executor.request? at h
  cases hstage : x.stage <;> simp [hstage] at h
  exact h.symm

theorem Served.eq_of_saved {portfolio : String} {call : Option ChangeEvent} {store store' : Store}
    {request : Request} {seen : Transcript}
    (h : Served portfolio call store request (.saved (.ok ())) store' seen) :
    ∃ document, request = .save document ∧ seen = [.stored document] ∧
      store'.fetch? Collection.states portfolio = some document := by
  cases h with
  | saved hwrite => exact ⟨_, rfl, rfl, Store.fetch?_of_upsert_ok hwrite⟩

theorem Served.stored_eq_nil {portfolio : String} {call : Option ChangeEvent}
    {store store' : Store} {request : Request} {reply : Reply} {seen : Transcript}
    (h : Served portfolio call store request reply store' seen) (hreply : reply ≠ .saved (.ok ())) :
    seen.stored = [] := by
  cases h with
  | saved hwrite => exact absurd rfl hreply
  | _ => rfl

/-! ### The course of a call -/

/-- The states that were stored when the listener has been told of some: one more when that it was
stored is on its way to the executor. -/
def Process.stored (p : Process σ) (told : List Portfolio) : List Portfolio :=
  match p.reply with
  | some (.saved (.ok ())) => p.executor.state :: told
  | _ => told

theorem Process.stored_of_ne {p : Process σ} (h : p.reply ≠ some (.saved (.ok ())))
    (told : List Portfolio) : p.stored told = told := by
  unfold stored
  split
  · next heq => exact absurd heq h
  · rfl

namespace World

/-- The call of the process has not ended. -/
def Busy (w : World σ) : Prop :=
  ∃ p, w.process = some p ∧ ∀ result, p.executor.stage ≠ .ready result

/-- A step within a call of a process that goes on and that nobody asks to stop. -/
structure CallStep (setup : Setup) (strategy : Strategy σ) (w w' : World σ) : Prop where
  step : Step setup strategy w w'
  busy : w.Busy
  alive : w'.process.isSome = true
  unhurried : w'.reply? ≠ some (.woke true)

abbrev CallSteps (setup : Setup) (strategy : Strategy σ) : World σ → World σ → Prop :=
  Relation.ReflTransGen (CallStep setup strategy)

/-- How far a call of the executor `x` has come, over the document and behind the transcript that it
began with. -/
structure Underway (x : Executor σ) (document : Option Json) (t : Transcript) (w : World σ)
    (p : Process σ) (told : List Portfolio) : Prop where
  process : w.process = some p
  setup : p.executor.setup = x.setup
  orderly : p.executor.Orderly
  asked : ∀ reply, p.reply = some reply → ∃ request, p.executor.request? = some request ∧
    request.Fits reply
  unhurried : p.reply ≠ some (.woke true)
  follows : p.executor.Follows (told.headD x.state)
  current : p.executor.stage.isCurrent = true → told ≠ []
  announced : p.executor.announced = changes x.setup.portfolio x.state told ++ x.announced
  stored : w.transcript.stored =
    t.stored ++ (p.stored told).reverse.map fun q => q.toJson.settled
  document : w.document? x.setup =
    ((p.stored told).head?.map fun q => q.toJson.settled).or document

section

variable {strategy : Strategy σ} {x : Executor σ} {document : Option Json} {t : Transcript}
  {w w' : World σ} {p : Process σ} {told : List Portfolio}

theorem underway_begin {x : Executor σ} {result : Except Fault Unit}
    (hready : x.stage = .ready result) (call : Option ChangeEvent) (m : Moment) (store : Store)
    (t : Transcript) :
    Underway x (store.fetch? Collection.states x.setup.portfolio) t
      ⟨store, some ⟨x.begin call m, call, none⟩, t⟩ ⟨x.begin call m, call, none⟩ [] := by
  have hbegin := Proceeds.begin x call m
  exact
    { process := rfl
      setup := hbegin.setup
      orderly := orderly_begin x call m
      asked := by simp
      unhurried := by simp
      follows := hbegin.follows
      current := fun h => absurd (hbegin.current h) (by simp [hready, Stage.isCurrent])
      announced := hbegin.announced
      stored := by simp [Process.stored]
      document := rfl }

theorem Underway.ask {store store' : Store} {t' seen : Transcript} {y : Executor σ}
    {call : Option ChangeEvent} {request : Request} {reply : Reply}
    (h : Underway x document t ⟨store, some ⟨y, call, none⟩, t'⟩ ⟨y, call, none⟩ told)
    (hrequest : y.request? = some request)
    (hserved : Served x.setup.portfolio call store request reply store' seen)
    (hwoke : reply ≠ .woke true) :
    Underway x document t ⟨store', some ⟨y, call, some reply⟩, t' ++ seen⟩
      ⟨y, call, some reply⟩ told := by
  have hasked : ∀ r, some reply = some r → ∃ request, y.request? = some request ∧
      request.Fits r := by
    rintro _ ⟨⟩
    exact ⟨request, hrequest, hserved.fits⟩
  have hstored : t'.stored = t.stored ++ told.reverse.map fun q => q.toJson.settled := h.stored
  have hdocument : store.fetch? Collection.states x.setup.portfolio =
      (told.head?.map fun q => q.toJson.settled).or document := h.document
  have hunhurried : some reply ≠ some (.woke true) := fun heq => hwoke (Option.some.inj heq)
  by_cases hsaved : reply = .saved (.ok ())
  · subst hsaved
    obtain ⟨written, rfl, rfl, hfetch⟩ := hserved.eq_of_saved
    obtain rfl := document_of_save hrequest
    refine ⟨rfl, h.setup, h.orderly, hasked, hunhurried, h.follows, h.current, h.announced, ?_,
      hfetch⟩
    simp only [Transcript.stored_append, hstored, Process.stored, List.reverse_cons,
      List.map_append, List.append_assoc]
    rfl
  · have hother : (⟨y, call, some reply⟩ : Process σ).reply ≠ some (.saved (.ok ())) :=
      fun heq => hsaved (Option.some.inj heq)
    refine ⟨rfl, h.setup, h.orderly, hasked, hunhurried, h.follows, h.current, h.announced, ?_, ?_⟩
    · simp only [Transcript.stored_append, hserved.stored_eq_nil hsaved, List.append_nil, hstored,
        Process.stored_of_ne hother]
    · rw [Process.stored_of_ne hother]
      exact (hserved.fetch?_eq hsaved).trans hdocument

theorem Underway.resume {store : Store} {t' : Transcript} {y : Executor σ}
    {call : Option ChangeEvent} {reply : Reply} (m : Moment)
    (h : Underway x document t ⟨store, some ⟨y, call, some reply⟩, t'⟩ ⟨y, call, some reply⟩ told) :
    Underway x document t ⟨store, some ⟨y.resume reply m, call, none⟩, t' ++ y.learned reply m⟩
      ⟨y.resume reply m, call, none⟩ ((⟨y, call, some reply⟩ : Process σ).stored told) := by
  have hstored := h.stored
  have horderly : (y.resume reply m).Orderly := h.orderly.resume reply
  obtain ⟨request, hrequest, hfits⟩ := h.asked reply rfl
  have hseen : (t' ++ y.learned reply m).stored = t'.stored := by
    rw [Transcript.stored_append, stored_learned, List.append_nil]
  suffices hon : (y.resume reply m).setup = y.setup ∧
      (y.resume reply m).Follows (((⟨y, call, some reply⟩ : Process σ).stored told).headD x.state) ∧
      ((y.resume reply m).stage.isCurrent = true →
        (⟨y, call, some reply⟩ : Process σ).stored told ≠ []) ∧
      (y.resume reply m).announced =
        changes x.setup.portfolio x.state ((⟨y, call, some reply⟩ : Process σ).stored told) ++
          x.announced by
    obtain ⟨hsetup, hfollows, hcurrent, hannounced⟩ := hon
    exact ⟨rfl, hsetup.trans h.setup, horderly, by simp, by simp, hfollows, hcurrent, hannounced,
      hseen.trans h.stored, h.document⟩
  have hannounced := h.announced
  have hfollows := h.follows
  by_cases hsaved : reply = .saved (.ok ())
  · subst hsaved
    obtain ⟨fromPhase, schedule, after, hstage⟩ := stage_of_saved hrequest hfits
    have hresume : y.resume (.saved (.ok ())) m = y.proceed fromPhase after m := by
      unfold Executor.resume
      rw [hstage]
    unfold Follows at hfollows
    rw [hstage] at hfollows
    obtain ⟨hsetup, htold, hnext⟩ := Follows.proceed (m := m) hfollows.1 hfollows.2
    rw [hresume]
    refine ⟨hsetup, hnext, fun _ => List.cons_ne_nil _ _, ?_⟩
    rw [htold, hannounced, h.setup]
    rfl
  · have hother : (⟨y, call, some reply⟩ : Process σ).reply ≠ some (.saved (.ok ())) :=
      fun heq => hsaved (Option.some.inj heq)
    have hwoke : reply ≠ .woke true := fun heq => h.unhurried (congrArg some heq)
    have hgoes := hfollows.resume (m := m) h.orderly hsaved hwoke
    rw [Process.stored_of_ne hother]
    exact ⟨hgoes.setup, hgoes.follows, fun hcurrent => h.current (hgoes.current hcurrent),
      hgoes.announced.trans hannounced⟩

theorem Underway.step (h : Underway x document t w p told)
    (hstep : CallStep x.setup strategy w w') :
    ∃ p' told', Underway x document t w' p' told' := by
  obtain ⟨hstep, ⟨q, hq, hbusy⟩, halive, hunhurried⟩ := hstep
  cases hstep with
  | start => cases hq
  | recover hready hnow =>
      cases hq
      exact absurd hready (hbusy _)
  | handle hready hevent hnow =>
      cases hq
      exact absurd hready (hbusy _)
  | ask hrequest hserved =>
      obtain rfl := Option.some.inj h.process
      have hwoke : _ ≠ Reply.woke true := fun heq => hunhurried (congrArg some heq)
      exact ⟨_, _, h.ask hrequest hserved hwoke⟩
  | @resume store t' y call reply m hnow =>
      obtain rfl := Option.some.inj h.process
      exact ⟨_, _, h.resume m⟩
  | crash => cases halive
  | elsewhere hkept =>
      exact ⟨p, told, ⟨h.process, h.setup, h.orderly, h.asked, h.unhurried, h.follows, h.current,
        h.announced, h.stored, hkept.trans h.document⟩⟩

theorem Underway.steps (h : Underway x document t w p told)
    (hsteps : CallSteps x.setup strategy w w') :
    ∃ p' told', Underway x document t w' p' told' := by
  induction hsteps with
  | refl => exact ⟨p, told, h⟩
  | tail _ hlast ih =>
      obtain ⟨p', told', h'⟩ := ih
      exact h'.step hlast

/-- While the executor has heard of all that was stored and has not changed its state since, the
document says that state. -/
theorem Underway.document_eq (h : Underway x document t w p told)
    (hreply : p.reply ≠ some (.saved (.ok ()))) (hstate : p.executor.state = told.headD x.state)
    (hdocument : told ≠ [] ∨ document = some x.document) :
    w.document? x.setup = some p.executor.document := by
  rw [h.document, Process.stored_of_ne hreply, Executor.document, hstate]
  cases told with
  | cons last earlier => rfl
  | nil =>
      rw [hdocument.resolve_left (by simp)]
      rfl

theorem Underway.submit (h : Underway x document t w p told) {order : Order}
    (hrequest : p.executor.request? = some (.submit order)) :
    w.document? x.setup = some p.executor.document ∧ p.executor.state.phase = .orderPending ∧
      p.executor.state.pending = some order := by
  have hstage := stage_of_submit hrequest
  have hfollows := h.follows
  have horderly := h.orderly
  unfold Follows at hfollows
  unfold Executor.Orderly at horderly
  rw [hstage] at hfollows horderly
  have hreply : p.reply ≠ some (.saved (.ok ())) := by
    intro hsaved
    obtain ⟨request, hrequest', hfits⟩ := h.asked _ hsaved
    obtain ⟨_, _, _, hsaving⟩ := stage_of_saved hrequest' hfits
    rw [hstage] at hsaving
    contradiction
  have htold : told ≠ [] := h.current (by rw [hstage]; rfl)
  exact ⟨h.document_eq hreply hfollows.1 (.inl htold), horderly, hfollows.2⟩

theorem Underway.ready (h : Underway x document t w p told) {result : Except Fault Unit}
    (hready : p.executor.stage = .ready result) :
    result = .ok () ∧ p.reply = none ∧ p.executor.state = told.headD x.state := by
  have hfollows := h.follows
  unfold Follows at hfollows
  rw [hready] at hfollows
  refine ⟨hfollows.1, ?_, hfollows.2⟩
  by_contra hreply
  obtain ⟨reply, hreply⟩ := Option.ne_none_iff_exists'.mp hreply
  obtain ⟨request, hrequest, -⟩ := h.asked reply hreply
  rw [Executor.request?, hready] at hrequest
  contradiction

end

/-! ### Writes that fail -/

/-- A step of the process itself; no more writes are going to fail than before. -/
def WorkStep (setup : Setup) (strategy : Strategy σ) (w w' : World σ) : Prop :=
  CallStep setup strategy w w' ∧ w'.reply?.isSome ≠ w.reply?.isSome

/-- A state is about to be stored: that many steps are left until the attempt that does not fail. -/
def Writing (w : World σ) (left : Nat) : Prop :=
  ∃ p, w.process = some p ∧
    match p.executor.stage, p.reply with
    | .saving .., none => left = 4 * w.store.failures
    | .saving .., some (.saved (.error _)) => left = 4 * w.store.failures + 3
    | .retrying .., none | .degraded .., none => left = 4 * w.store.failures + 2
    | .retrying .., some (.woke false) | .degraded .., some (.woke false) =>
      left = 4 * w.store.failures + 1
    | _, _ => False

section

variable {setup : Setup} {strategy : Strategy σ} {w w' : World σ} {left : Nat}

theorem failures_of_upsert_error {store store' : Store} {collection id : String} {body : Json}
    {fault : Fault} (h : store.upsert collection id body = (.error fault, store')) :
    store.failures = store'.failures + 1 := by
  unfold Store.upsert at h
  split at h
  · next n hfailures =>
      cases h
      exact hfailures
  · cases h

theorem Writing.step (h : w.Writing left) (hstep : WorkStep setup strategy w w') :
    w'.reply? = some (.saved (.ok ())) ∨ ∃ left', left' < left ∧ w'.Writing left' := by
  obtain ⟨p, hp, hleft⟩ := h
  obtain ⟨⟨hstep, ⟨q, hq, hbusy⟩, halive, hunhurried⟩, hwork⟩ := hstep
  cases hstep with
  | start => cases hq
  | recover hready hnow =>
      cases hq
      exact absurd hready (hbusy _)
  | handle hready hevent hnow =>
      cases hq
      exact absurd hready (hbusy _)
  | @ask store store' t seen y call request reply hrequest hserved =>
      cases hp
      unfold Executor.request? at hrequest
      cases hstage : y.stage <;> simp only [hstage, Option.some.injEq] at hleft hrequest
      · subst request
        cases hserved with
        | saved hwrite => exact .inl rfl
        | notSaved hwrite =>
            have hfailures := failures_of_upsert_error hwrite
            refine .inr ⟨4 * store'.failures + 3, by omega, _, rfl, ?_⟩
            simp only [hstage]
      · subst request
        cases hserved with
        | slept delay shutdown =>
            have hwoke : shutdown = false := by simpa [reply?] using hunhurried
            subst hwoke
            refine .inr ⟨4 * store.failures + 1, by omega, _, rfl, ?_⟩
            simp only [hstage]
      · subst request
        cases hserved with
        | paused delay shutdown =>
            have hwoke : shutdown = false := by simpa [reply?] using hunhurried
            subst hwoke
            refine .inr ⟨4 * store.failures + 1, by omega, _, rfl, ?_⟩
            simp only [hstage]
  | @resume store t y call reply m hnow =>
      cases hp
      simp only at hleft
      split at hleft
      · contradiction
      · next fault hstage hreply =>
          obtain rfl := Option.some.inj hreply
          refine .inr ⟨4 * store.failures + 2, by omega, _, rfl, ?_⟩
          rcases resume_of_saving (m := m) hstage fault with ⟨_, _, hnext⟩ | ⟨_, hnext⟩
          · simp only [hnext]
          · simp only [hnext]
      · contradiction
      · contradiction
      · next hstage hreply =>
          obtain rfl := Option.some.inj hreply
          refine .inr ⟨4 * store.failures, by omega, _, rfl, ?_⟩
          simp only [resume_of_retrying (m := m) hstage]
      · next hstage hreply =>
          obtain rfl := Option.some.inj hreply
          refine .inr ⟨4 * store.failures, by omega, _, rfl, ?_⟩
          simp only [resume_of_degraded (m := m) hstage]
      · contradiction
  | crash => cases halive
  | elsewhere hkept => exact absurd rfl hwork

/-- While the process works a write that fails is repeated until it lands. -/
theorem Writing.lands (run : Nat → World σ) (n : Nat) (h : (run 0).Writing left) (hlt : left < n)
    (hsteps : ∀ i < n, WorkStep setup strategy (run i) (run (i + 1))) :
    ∃ i ≤ n, (run i).reply? = some (.saved (.ok ())) := by
  induction n generalizing run left with
  | zero => omega
  | succ n ih =>
      rcases h.step (hsteps 0 (by omega)) with hlanded | ⟨left', hless, hwriting⟩
      · exact ⟨1, by omega, hlanded⟩
      · obtain ⟨i, hi, hlanded⟩ := ih (fun i => run (i + 1)) hwriting (by omega)
          fun i hi => hsteps (i + 1) (by omega)
        exact ⟨i + 1, by omega, hlanded⟩

end

section

variable {strategy : Strategy σ} {x : Executor σ} {document : Option Json} {t : Transcript}
  {w : World σ} {p : Process σ} {told : List Portfolio}

theorem Underway.writing (h : Underway x document t w p told)
    (hwriting : p.executor.stage.isWriting = true) :
    p.reply = some (.saved (.ok ())) ∨
      ∃ left, left < 4 * w.store.failures + 4 ∧ w.Writing left := by
  have hprocess := h.process
  by_cases hnone : p.reply = none
  · cases hstage : p.executor.stage <;> simp [hstage, Stage.isWriting] at hwriting
    · exact .inr ⟨4 * w.store.failures, by omega, p, hprocess, by simp only [hstage, hnone]⟩
    · exact .inr ⟨4 * w.store.failures + 2, by omega, p, hprocess, by simp only [hstage, hnone]⟩
    · exact .inr ⟨4 * w.store.failures + 2, by omega, p, hprocess, by simp only [hstage, hnone]⟩
  · obtain ⟨reply, hreply⟩ := Option.ne_none_iff_exists'.mp hnone
    obtain ⟨request, hrequest, hfits⟩ := h.asked reply hreply
    have hunhurried := h.unhurried
    rw [hreply] at hunhurried
    unfold Executor.request? at hrequest
    cases hstage : p.executor.stage <;> simp [hstage, Stage.isWriting] at hwriting <;>
      simp only [hstage, Option.some.injEq] at hrequest <;> subst request <;>
      cases reply <;> try contradiction
    · next result =>
      cases result with
      | ok => exact .inl hreply
      | error fault =>
          exact .inr ⟨4 * w.store.failures + 3, by omega, p, hprocess,
            by simp only [hstage, hreply]⟩
    · next shutdown =>
      cases shutdown <;> try contradiction
      exact .inr ⟨4 * w.store.failures + 1, by omega, p, hprocess, by simp only [hstage, hreply]⟩
    · next shutdown =>
      cases shutdown <;> try contradiction
      exact .inr ⟨4 * w.store.failures + 1, by omega, p, hprocess, by simp only [hstage, hreply]⟩

theorem Underway.lands (h : Underway x document t w p told)
    (hwriting : p.executor.stage.isWriting = true) (run : Nat → World σ) (hrun : run 0 = w)
    {n : Nat} (hn : 4 * w.store.failures + 4 ≤ n)
    (hsteps : ∀ i < n, WorkStep x.setup strategy (run i) (run (i + 1))) :
    ∃ i ≤ n, (run i).reply? = some (.saved (.ok ())) := by
  rcases h.writing hwriting with hlanded | ⟨left, hlt, hleft⟩
  · refine ⟨0, Nat.zero_le n, ?_⟩
    rw [hrun, reply?, h.process]
    exact hlanded
  · subst hrun
    exact hleft.lands run n (by omega) hsteps

/-- A call that nobody interrupts ends without an error. It hands in an order only over a document
that has it pending. The listener is told of the phases of the stored states, each change beginning
where the one before ended, and when the call ends it has been told of all of them and the document
says the state in memory. A write that fails is repeated until it lands. -/
theorem calls_store_what_they_tell {result : Except Fault Unit} (hready : x.stage = .ready result)
    (call : Option ChangeEvent) (m : Moment) (store : Store)
    (hsteps : CallSteps x.setup strategy ⟨store, some ⟨x.begin call m, call, none⟩, t⟩ w) :
    ∃ p told, w.process = some p ∧
      w.transcript.stored =
        t.stored ++ (p.stored told).reverse.map (fun q => q.toJson.settled) ∧
      p.executor.announced = changes x.setup.portfolio x.state told ++ x.announced ∧
      (∀ order, p.executor.request? = some (.submit order) →
        w.document? x.setup = some p.executor.document ∧
          p.executor.state.phase = .orderPending ∧ p.executor.state.pending = some order) ∧
      (∀ result, p.executor.stage = .ready result →
        result = .ok () ∧ p.stored told = told ∧ p.executor.state = told.headD x.state ∧
          (told ≠ [] ∨ store.fetch? Collection.states x.setup.portfolio = some x.document →
            w.document? x.setup = some p.executor.document)) ∧
      (p.executor.stage.isWriting = true →
        ∀ (run : Nat → World σ) n, run 0 = w → 4 * w.store.failures + 4 ≤ n →
        (∀ i < n, WorkStep x.setup strategy (run i) (run (i + 1))) →
          ∃ i ≤ n, (run i).reply? = some (.saved (.ok ()))) := by
  obtain ⟨p, told, h⟩ := (underway_begin hready call m store t).steps hsteps
  refine ⟨p, told, h.process, h.stored, h.announced, fun order hrequest => h.submit hrequest,
    fun result hended => ?_, fun hwriting run n hrun hn hwork => h.lands hwriting run hrun hn hwork⟩
  obtain ⟨hok, hreply, hstate⟩ := h.ready hended
  have hheard : p.reply ≠ some (.saved (.ok ())) := by simp [hreply]
  exact ⟨hok, Process.stored_of_ne hheard told, hstate,
    fun hbegun => h.document_eq hheard hstate hbegun⟩

end

/-! ### A fill behind a failed write -/

/-- A portfolio that is stored as it was begun with. -/
def eagerExecutor : Executor Unit :=
  ⟨eagerSetup, eager, (), Portfolio.new "alpha" eagerMoment.now, .ready (.ok ()), []⟩

/-- A store with the state of the portfolio, whose next write fails. -/
def failingStore : Store :=
  { keyed := [((Collection.states, "alpha"), eagerExecutor.document)], failures := 1 }

section

variable {setup : Setup} {strategy : Strategy σ} {w : World σ} {store store' : Store}
  {t seen : Transcript} {x : Executor σ} {call : Option ChangeEvent}

theorem CallSteps.ask {request : Request} {reply : Reply}
    (h : CallSteps setup strategy w ⟨store, some ⟨x, call, none⟩, t⟩)
    (hrequest : x.request? = some request)
    (hserved : Served setup.portfolio call store request reply store' seen)
    (hwoke : reply ≠ .woke true) :
    CallSteps setup strategy w ⟨store', some ⟨x, call, some reply⟩, t ++ seen⟩ := by
  refine h.tail ⟨.ask hrequest hserved, ⟨_, rfl, ?_⟩, rfl, ?_⟩
  · intro result hready
    rw [Executor.request?, hready] at hrequest
    contradiction
  · intro heq
    exact hwoke (Option.some.inj heq)

theorem CallSteps.resume {reply : Reply}
    (h : CallSteps setup strategy w ⟨store, some ⟨x, call, some reply⟩, t⟩)
    (hbusy : ∀ result, x.stage ≠ .ready result) {m : Moment} (hnow : m.now.Valid) :
    CallSteps setup strategy w
      ⟨store, some ⟨x.resume reply m, call, none⟩, t ++ x.learned reply m⟩ :=
  h.tail ⟨.resume hnow, ⟨_, rfl, hbusy⟩, rfl, nofun⟩

end

theorem eager_call_stores_what_it_tells :
    ∃ w p, CallSteps eagerSetup eager ⟨failingStore,
        some ⟨eagerExecutor.begin (some eagerEvent) eagerMoment, some eagerEvent, none⟩, []⟩ w ∧
      w.process = some p ∧ p.executor.stage = .ready (.ok ()) ∧
      p.executor.announced = [⟨"alpha", .orderPending, .idle⟩,
        ⟨"alpha", .evaluating, .orderPending⟩, ⟨"alpha", .idle, .evaluating⟩] ∧
      w.document? eagerSetup = some p.executor.document := by
  have hbegun : CallSteps eagerSetup eager ⟨failingStore,
      some ⟨eagerExecutor.begin (some eagerEvent) eagerMoment, some eagerEvent, none⟩, []⟩
      ⟨failingStore, some ⟨eagerExecutor.begin (some eagerEvent) eagerMoment, some eagerEvent,
        none⟩, []⟩ := .refl
  have hfill : ValidAnswer (.ok (.filled eagerFill)) := by
    rintro _ ⟨⟩
    exact eagerMoment_valid
  let view : MarketView := { asset := "btc", trigger := eagerEvent }
  have hfailed := hbegun.ask rfl (.notSaved rfl) nofun
  have hretrying := hfailed.resume (m := eagerMoment) nofun eagerMoment_valid
  have hslept := hretrying.ask rfl (.slept _ false) nofun
  have hsaving := hslept.resume (m := eagerMoment) nofun eagerMoment_valid
  have hsaved := hsaving.ask rfl (.saved rfl) nofun
  have hviewing := hsaved.resume (m := eagerMoment) nofun eagerMoment_valid
  have hviewed := hviewing.ask rfl (.viewed eagerEvent (.ok view)) nofun
  have hplacing := hviewed.resume (m := eagerMoment) nofun eagerMoment_valid
  have hplaced := hplacing.ask rfl (.saved rfl) nofun
  have hsubmitting := hplaced.resume (m := eagerMoment) nofun eagerMoment_valid
  have hsubmitted := hsubmitting.ask rfl (.submitted _ hfill) nofun
  have hbooked := hsubmitted.resume (m := eagerMoment) nofun eagerMoment_valid
  have hstored := hbooked.ask rfl (.saved rfl) nofun
  have hended := hstored.resume (m := eagerMoment) nofun eagerMoment_valid
  obtain ⟨p, told, hprocess, -, hannounced, -, hreturned, -⟩ :=
    calls_store_what_they_tell (x := eagerExecutor) rfl _ _ _ hended
  obtain rfl := Option.some.inj hprocess
  have hdocument := (hreturned _ rfl).2.2.2 (.inr rfl)
  exact ⟨_, _, hended, rfl, rfl, rfl, hdocument⟩

end World

end Executor
end TradingDesk

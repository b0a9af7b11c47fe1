import TradingDesk.Proofs.Trading.Outline
/-!
# Runs follow their outlines

Each step of a run is a few steps of its outline. Along the way the state in memory stays one that a
document can tell, an event that waits is the event of the call, and whatever looks at the market
or hands in an order does so with its state stored.
-/

namespace TradingDesk

/-! ### Executors in outline -/

namespace Executor

variable {σ : Type}

def After.aim : After → Aim
  | evaluate event => .judging event
  | submit order => .placing order
  | finish _ => .rest

def Stage.aim : Stage → Aim
  | ready _ => .rest
  | overflown => .broken
  | saving _ _ after | retrying _ _ _ after | degraded _ _ after => after.aim
  | viewing event => .judging event
  | submitting order => .placing order
  | reconciling order _ => .following order
  | querying s | cancelling s | pausing _ s => .following s.order

/-- The event that waits until the state is stored. -/
def After.event? : After → Option ChangeEvent
  | evaluate event => some event
  | submit _ => none
  | finish waiting => waiting

/-- The event that is still to be handled. -/
def Stage.event? : Stage → Option ChangeEvent
  | ready _ | overflown | submitting _ => none
  | saving _ _ after | retrying _ _ _ after | degraded _ _ after => after.event?
  | viewing event => some event
  | reconciling _ waiting => waiting
  | querying s | cancelling s | pausing _ s => s.waiting

/-- The stages that are entered with the state stored. -/
def Stage.isCurrent : Stage → Bool
  | viewing _ | submitting _ => true
  | _ => false

structure Sound (x : Executor σ) (stored : Option Portfolio) (call : Option ChangeEvent) :
    Prop where
  valid : x.state.Valid
  event : ∀ e, x.stage.event? = some e → call = some e
  current : x.stage.isCurrent = true → stored = some x.state

/-- From a posture, over a stored state, an executor comes to where it is. -/
structure Turn (id : String) (stored : Option Portfolio) (call : Option ChangeEvent)
    (p : Portfolio) (aim : Aim) (t : Transcript) (x : Executor σ) (t' : Transcript) : Prop where
  steps : Outline.Steps id ⟨stored, some ⟨p, aim, call⟩, t⟩
    ⟨stored, some ⟨x.state, x.stage.aim, call⟩, t'⟩
  sound : x.Sound stored call

section

variable {id : String} {stored : Option Portfolio} {call : Option ChangeEvent} {t : Transcript}
  {x : Executor σ} {m : Moment}

theorem enter_eq {next : Phase} (h : x.state.phase.mayBecome next = true) (after : After) :
    x.enter next after m = { x with
      state := { x.state with phase := next, updatedAt := m.now }
      stage := .saving x.state.phase (Backoff.start x.setup.settings.storeRetry) after } :=
  if_pos h

theorem fail_eq (h : x.state.phase = .orderPending) (reason : String)
    (waiting : Option ChangeEvent) :
    x.fail reason waiting m = { x with
      state := { x.state with failure := some reason, phase := .failed, updatedAt := m.now }
      stage := .saving .orderPending (Backoff.start x.setup.settings.storeRetry)
        (.finish waiting) } := by
  rw [fail, enter_eq (by simp [h, Phase.mayBecome]), h]

theorem Turn.done {aim : Aim} (haim : aim ≠ .broken) (hvalid : x.state.Valid) :
    Turn id stored call x.state aim t x.done t where
  steps := .single (.rest haim)
  sound := ⟨hvalid, by simp [Executor.done, Stage.event?], by simp [Executor.done, Stage.isCurrent]⟩

theorem Turn.take {event : ChangeEvent} (hvalid : x.state.Valid) (hnow : m.now.Valid)
    (hidle : x.state.phase = .idle) :
    Turn id stored (some event) x.state .rest t (x.take event m) t := by
  unfold Executor.take
  split
  · exact Turn.done (by simp) hvalid
  · next hnew =>
    rw [enter_eq (by simp [hidle, Phase.mayBecome])]
    constructor
    · exact .single (.begin m.now hidle (by simpa using hnew))
    · refine ⟨hvalid.enter _ hnow, ?_, by simp [Stage.isCurrent]⟩
      simp [Stage.event?, After.event?]

theorem Turn.finish {waiting : Option ChangeEvent} (hvalid : x.state.Valid) (hnow : m.now.Valid)
    (hwaiting : ∀ e, waiting = some e → call = some e) :
    Turn id stored call x.state .rest t (x.finish waiting m) t := by
  unfold Executor.finish
  cases waiting with
  | none => exact Turn.done (by simp) hvalid
  | some event =>
      obtain rfl := hwaiting event rfl
      simp only
      split
      · next hidle => exact Turn.take hvalid hnow hidle
      · exact Turn.done (by simp) hvalid

theorem Turn.fail {order : Order} {waiting : Option ChangeEvent} (hvalid : x.state.Valid)
    (hnow : m.now.Valid) (hphase : x.state.phase = .orderPending)
    (hwaiting : ∀ e, waiting = some e → call = some e) (reason : String) :
    Turn id stored call x.state (.following order) t (x.fail reason waiting m) t := by
  rw [fail_eq hphase]
  constructor
  · exact .single (.giveUp reason m.now)
  · exact ⟨(hvalid.giveUp reason).enter _ hnow, hwaiting, by simp [Stage.isCurrent]⟩

theorem Turn.recoverFor {waiting : Option ChangeEvent} (hvalid : x.state.Valid)
    (hcoherent : x.state.Coherent) (hnow : m.now.Valid)
    (hwaiting : ∀ e, waiting = some e → call = some e) :
    Turn id stored call x.state .rest t (x.recoverFor waiting m) t := by
  unfold Executor.recoverFor
  cases hphase : x.state.phase with
  | idle => exact Turn.finish hvalid hnow hwaiting
  | evaluating =>
      simp only
      rw [enter_eq (by simp [hphase, Phase.mayBecome])]
      constructor
      · exact .single (.reset m.now hphase (by simp))
      · exact ⟨hvalid.enter _ hnow, hwaiting, by simp [Stage.isCurrent]⟩
  | orderPending =>
      obtain ⟨order, horder⟩ := Option.isSome_iff_exists.mp (hcoherent.mpr (.inl hphase))
      simp only [horder]
      constructor
      · exact .single (.inquire hphase horder)
      · exact ⟨hvalid, hwaiting, by simp [Stage.isCurrent]⟩
  | failed => exact Turn.done (by simp) hvalid

theorem Turn.handle {event : ChangeEvent} (hvalid : x.state.Valid) (hcoherent : x.state.Coherent)
    (hnow : m.now.Valid) :
    Turn id stored (some event) x.state .rest t (x.handle event m) t := by
  unfold Executor.handle
  split
  · exact Turn.done (by simp) hvalid
  · cases hphase : x.state.phase with
    | failed => exact Turn.done (by simp) hvalid
    | idle => exact Turn.take hvalid hnow hphase
    | evaluating => exact Turn.recoverFor hvalid hcoherent hnow fun _ h => h
    | orderPending => exact Turn.recoverFor hvalid hcoherent hnow fun _ h => h

/-- What an evaluation decides on, as a transcript shows it. -/
def decided (x : Executor σ) : Transcript :=
  match x.stage with
  | .saving _ _ (.submit order) => [.created order]
  | _ => []

theorem Turn.evaluate {event : ChangeEvent} {view : Except Fault MarketView}
    (hvalid : x.state.Valid) (hnow : m.now.Valid) (hphase : x.state.phase = .evaluating)
    (hevent : event.sequence < pow2 64) :
    Turn id (some x.state) call x.state (.judging event) t (x.evaluate event view m)
      (t ++ (x.evaluate event view m).decided) := by
  unfold Executor.evaluate
  cases view with
  | error fault =>
      simp only
      rw [enter_eq (by simp [hphase, Phase.mayBecome])]
      simp only [decided, List.append_nil]
      constructor
      · exact .single (.reset m.now hphase (by simp))
      · exact ⟨hvalid.enter _ hnow, by simp [Stage.event?, After.event?], by simp [Stage.isCurrent]⟩
  | ok view =>
      simp only
      cases x.strategy.evaluate? x.memory view x.state with
      | none =>
          simp only [decided, List.append_nil]
          exact ⟨.single .break, hvalid, by simp [Stage.event?], by simp [Stage.isCurrent]⟩
      | some judged =>
          obtain ⟨decision, memory⟩ := judged
          have hmarked := hvalid.markEvaluated hevent
          cases decision with
          | noGo =>
              simp only
              rw [enter_eq (by simp [Portfolio.markEvaluated, hphase, Phase.mayBecome])]
              simp only [decided, List.append_nil]
              constructor
              · exact .single (.skip m.now)
              · exact ⟨hmarked.enter _ hnow, by simp [Stage.event?, After.event?],
                  by simp [Stage.isCurrent]⟩
          | go trade =>
              simp only
              rw [enter_eq (by simp [Portfolio.markEvaluated, hphase, Phase.mayBecome])]
              constructor
              · exact .single (.create _ m.now)
              · refine ⟨(hmarked.place ?_).enter _ hnow, by simp [Stage.event?, After.event?],
                  by simp [Stage.isCurrent]⟩
                exact hnow

/-- An answer that resolves nothing is heard first, whatever follows from it. -/
theorem Turn.hear {p : Portfolio} {order : Order} {t' : Transcript}
    (answer : Except Fault Order.Outcome)
    (hopen : ∀ outcome, answer = .ok outcome → outcome.isFinal = false)
    (h : Turn id stored call p (.following order) (t ++ [Observation.answered order answer]) x t') :
    Turn id stored call p (.following order) t x t' :=
  ⟨.head (.hear hopen) h.steps, h.sound⟩

theorem Turn.dismiss {s : Settling} {outcome : Order.Outcome} (hvalid : x.state.Valid)
    (hnow : m.now.Valid) (hphase : x.state.phase = .orderPending)
    (hwaiting : ∀ e, s.waiting = some e → call = some e) (hfinal : outcome.isFinal = true)
    (hnone : ∀ fill, outcome ≠ .filled fill) :
    Turn id stored call x.state (.following s.order) t
      ({ x with state := { x.state with pending := none } }.enter .idle (.finish s.waiting) m)
      (t ++ [Observation.answered s.order (.ok outcome)]) := by
  rw [enter_eq (by simp [hphase, Phase.mayBecome])]
  constructor
  · exact .single (.dismiss m.now hfinal hnone)
  · exact ⟨hvalid.clear.enter _ hnow, hwaiting, by simp [Stage.isCurrent]⟩

theorem Turn.settle (s : Settling) {answer : Except Fault Order.Outcome} (hvalid : x.state.Valid)
    (hnow : m.now.Valid) (hanswer : ValidAnswer answer) (hphase : x.state.phase = .orderPending)
    (hwaiting : ∀ e, s.waiting = some e → call = some e) :
    Turn id stored call x.state (.following s.order) t (x.settle s answer m)
      (t ++ [Observation.answered s.order answer]) := by
  unfold Executor.settle
  cases answer with
  | error fault =>
      refine Turn.hear (.error fault) (by simp) ?_
      cases fault with
      | gateway detail recoverable =>
          cases recoverable with
          | false => exact Turn.fail hvalid hnow hphase hwaiting _
          | true =>
              simp only
              split
              · exact ⟨.refl, hvalid, hwaiting, by simp [Stage.isCurrent]⟩
              · exact Turn.fail hvalid hnow hphase hwaiting _
      | _ => exact Turn.fail hvalid hnow hphase hwaiting _
  | ok outcome =>
      cases outcome with
      | filled fill =>
          simp only
          cases hbook : x.state.applyFill? s.order fill with
          | none =>
              exact ⟨.single (.choke fill), hvalid, by simp [Stage.event?],
                by simp [Stage.isCurrent]⟩
          | some q =>
              have hq : q.phase = .orderPending := by rw [Portfolio.applyFill?_eq hbook, hphase]
              simp only
              rw [enter_eq (by simp [hq, Phase.mayBecome])]
              constructor
              · exact .single (.book (q := q) m.now hbook)
              · exact ⟨(hvalid.applyFill? (hanswer fill rfl) hbook).clear.enter _ hnow, hwaiting,
                  by simp [Stage.isCurrent]⟩
      | rejected reason => exact Turn.dismiss hvalid hnow hphase hwaiting rfl (by simp)
      | unknown => exact Turn.dismiss hvalid hnow hphase hwaiting rfl (by simp)
      | resting exchangeId =>
          refine Turn.hear (.ok (.resting exchangeId)) ?_ ?_
          · rintro _ ⟨⟩
            rfl
          simp only
          split
          · exact ⟨.single .break, hvalid, by simp [Stage.event?], by simp [Stage.isCurrent]⟩
          · split
            · exact Turn.fail hvalid hnow hphase hwaiting _
            · split <;> exact ⟨.refl, hvalid, hwaiting, by simp [Stage.isCurrent]⟩

theorem Turn.settleFirst {order : Order} {waiting : Option ChangeEvent}
    {answer : Except Fault Order.Outcome} (hvalid : x.state.Valid) (hnow : m.now.Valid)
    (hanswer : ValidAnswer answer) (hphase : x.state.phase = .orderPending)
    (hwaiting : ∀ e, waiting = some e → call = some e) :
    Turn id stored call x.state (.following order) t (x.settleFirst order waiting answer m)
      (t ++ [Observation.answered order answer]) := by
  exact Turn.settle ⟨order, m.time, _, false, waiting⟩ hvalid hnow hanswer hphase hwaiting

theorem Turn.proceed {fromPhase : Phase} {after : After} (hvalid : x.state.Valid)
    (hnow : m.now.Valid) (hevent : ∀ e, after.event? = some e → call = some e) :
    Turn id (some x.state) call x.state after.aim t (x.proceed fromPhase after m) t := by
  unfold Executor.proceed
  cases after with
  | evaluate event => exact ⟨.refl, hvalid, hevent, fun _ => rfl⟩
  | submit order => exact ⟨.refl, hvalid, by simp [Stage.event?], fun _ => rfl⟩
  | finish waiting =>
      let x' : Executor σ :=
        { x with announced := ⟨x.setup.portfolio, fromPhase, x.state.phase⟩ :: x.announced }
      have hfinish : Turn id (some x.state) call x'.state .rest t (x'.finish waiting m) t :=
        Turn.finish hvalid hnow hevent
      exact hfinish

/-- The replies that a request can have. -/
def Request.Fits : Request → Reply → Prop
  | .save _, .saved _ => True
  | .view _, .viewed _ => True
  | .submit _, .answered answer => ValidAnswer answer
  | .status _, .answered answer => ValidAnswer answer
  | .cancel _, .cancelled _ => True
  | .sleep _, .woke _ => True
  | .pause _, .woke _ => True
  | _, _ => False

theorem Served.fits {portfolio : String} {store store' : Store} {request : Request} {reply : Reply}
    {seen : Transcript} (h : Served portfolio call store request reply store' seen) :
    request.Fits reply := by
  cases h with
  | submitted order hanswer => exact hanswer
  | status clientId hanswer => exact hanswer
  | _ => trivial

/-- The aim of a process whose order may be at the gateway already. -/
def aimWith (x : Executor σ) (reply : Option Reply) : Aim :=
  match x.stage, reply with
  | .submitting order, some _ => .following order
  | stage, _ => stage.aim

theorem aimWith_of_request {request : Request} (hrequest : x.request? = some request)
    (hother : ∀ order, request ≠ .submit order) (reply : Option Reply) :
    x.aimWith reply = x.aimWith none := by
  unfold request? at hrequest
  unfold aimWith
  cases hstage : x.stage with
  | submitting order =>
      rw [hstage] at hrequest
      exact absurd (Option.some.inj hrequest).symm (hother order)
  | _ => rfl

theorem Turn.resume {reply : Reply} {request : Request} (hsound : x.Sound stored call)
    (hfits : (x.aimWith (some reply)).Fits x.state call) (hnow : m.now.Valid)
    (hcall : ∀ e, call = some e → e.sequence < pow2 64) (hrequest : x.request? = some request)
    (hreply : request.Fits reply) (hsaved : reply = .saved (.ok ()) → stored = some x.state) :
    Turn id stored call x.state (x.aimWith (some reply)) t (x.resume reply m)
      (t ++ x.learned reply m) := by
  obtain ⟨hvalid, hevent, hcurrent⟩ := hsound
  unfold aimWith at hfits ⊢
  unfold request? at hrequest
  unfold learned Executor.resume
  -- what a stage asks for leaves one kind of reply
  cases hstage : x.stage with
  | ready result => simp [hstage] at hrequest
  | overflown => simp [hstage] at hrequest
  | saving fromPhase schedule after =>
      simp only [hstage, Option.some.injEq] at hrequest hfits hevent
      subst request
      cases reply <;> try contradiction
      next result =>
      simp only [List.append_nil]
      cases result with
      | ok =>
          obtain rfl := hsaved rfl
          exact Turn.proceed hvalid hnow hevent
      | error fault =>
          simp only
          split <;> exact ⟨.refl, hvalid, hevent, by simp [Stage.isCurrent]⟩
  | retrying delay fromPhase schedule after =>
      simp only [hstage, Option.some.injEq] at hrequest hfits hevent
      subst request
      cases reply <;> try contradiction
      simp only [List.append_nil]
      exact ⟨.refl, hvalid, hevent, by simp [Stage.isCurrent]⟩
  | degraded fault fromPhase after =>
      simp only [hstage, Option.some.injEq] at hrequest hfits hevent
      subst request
      cases reply <;> try contradiction
      simp only [List.append_nil]
      split
      · refine ⟨.single (.rest ?_), hvalid, by simp [Stage.event?], by simp [Stage.isCurrent]⟩
        cases after <;> simp [Stage.aim, After.aim]
      · exact ⟨.refl, hvalid, hevent, by simp [Stage.isCurrent]⟩
  | viewing event =>
      simp only [hstage, Option.some.injEq] at hrequest hfits hevent
      obtain rfl := hcurrent (by simp [hstage, Stage.isCurrent])
      subst request
      cases reply <;> try contradiction
      next view =>
      obtain ⟨hphase, hnew, hevent'⟩ := hfits
      exact Turn.evaluate hvalid hnow hphase (hcall event hevent')
  | submitting order =>
      simp only [hstage, Option.some.injEq] at hrequest hfits
      subst request
      cases reply <;> try contradiction
      next answer =>
      exact Turn.settleFirst hvalid hnow hreply hfits.1 (by simp)
  | reconciling order waiting =>
      simp only [hstage, Option.some.injEq] at hrequest hfits hevent
      subst request
      cases reply <;> try contradiction
      next answer =>
      exact Turn.settleFirst hvalid hnow hreply hfits.1 hevent
  | querying s =>
      simp only [hstage, Option.some.injEq] at hrequest hfits hevent
      subst request
      cases reply <;> try contradiction
      next answer =>
      exact Turn.settle s hvalid hnow hreply hfits.1 hevent
  | cancelling s =>
      simp only [hstage, Option.some.injEq] at hrequest hfits hevent
      subst request
      cases reply <;> try contradiction
      simp only [List.append_nil]
      exact ⟨.refl, hvalid, hevent, by simp [Stage.isCurrent]⟩
  | pausing delay s =>
      simp only [hstage, Option.some.injEq] at hrequest hfits hevent
      subst request
      cases reply <;> try contradiction
      next shutdown =>
      simp only [List.append_nil]
      split
      · have hrest : Turn id stored call x.state .rest t (x.finish s.waiting m) t :=
          Turn.finish hvalid hnow hevent
        exact ⟨.head (.rest (by simp [Stage.aim])) hrest.steps, hrest.sound⟩
      · exact ⟨.refl, hvalid, hevent, by simp [Stage.isCurrent]⟩

end

/-! ### Worlds in outline -/

theorem restore_eq {setup : Setup} {strategy : Strategy σ} {memory : σ} {document : Option Json}
    {now : Instant} {x : Executor σ}
    (h : restore setup strategy memory document now = .ok x) :
    restoreState setup.portfolio document now = .ok x.state ∧ x.stage = .ready (.ok ()) := by
  unfold restore at h
  cases hstate : restoreState setup.portfolio document now with
  | error fault =>
      rw [hstate] at h
      cases h
  | ok state =>
      rw [hstate] at h
      cases h
      exact ⟨rfl, rfl⟩

/-- An executor begins with what the document says; where there is none the portfolio is new. -/
theorem restore_cases {setup : Setup} {strategy : Strategy σ} {memory : σ} {document : Option Json}
    {now : Instant} {x : Executor σ}
    (h : restore setup strategy memory document now = .ok x) :
    document = none ∧ x.state = Portfolio.new setup.portfolio now ∨
      ∃ body, document = some body ∧ Portfolio.read? body = some x.state := by
  obtain ⟨hstate, -⟩ := restore_eq h
  cases document with
  | none =>
      rw [restoreState, Except.ok.injEq] at hstate
      exact .inl ⟨rfl, hstate.symm⟩
  | some body =>
      rw [restoreState] at hstate
      cases hread : Portfolio.read? body with
      | none => simp [hread] at hstate
      | some p =>
          simp only [hread, Except.ok.injEq] at hstate
          exact .inr ⟨body, rfl, by rw [hread, hstate]⟩

structure Process.Sound (p : Process σ) (stored : Option Portfolio) : Prop where
  executor : p.executor.Sound stored p.call
  call : ∀ e, p.call = some e → e.sequence < pow2 64
  reply : ∀ r, p.reply = some r → ∃ request, p.executor.request? = some request ∧ request.Fits r
  saved : p.reply = some (.saved (.ok ())) → stored = some p.executor.state

/-- A process that has got no reply. -/
theorem Process.Sound.of_none {x : Executor σ} {call : Option ChangeEvent}
    {stored : Option Portfolio} (hx : x.Sound stored call)
    (hcall : ∀ e, call = some e → e.sequence < pow2 64) :
    Process.Sound ⟨x, call, none⟩ stored :=
  ⟨hx, hcall, by simp, by simp⟩

namespace World

/-- What the state document says. -/
def stored? (setup : Setup) (w : World σ) : Option Portfolio :=
  (w.document? setup).bind Portfolio.read?

def outline (setup : Setup) (w : World σ) : Outline where
  stored := w.stored? setup
  posture := w.process.map fun p =>
    ⟨p.executor.state, p.executor.aimWith p.reply, p.call⟩
  transcript := w.transcript

structure Sound (setup : Setup) (w : World σ) : Prop where
  document : ∀ document, w.document? setup = some document →
    ∃ p : Portfolio, p.Valid ∧ document = p.toJson.settled
  process : ∀ p, w.process = some p → p.Sound (w.stored? setup)

variable {setup : Setup} {strategy : Strategy σ} {w w' : World σ}

theorem Sound.start {store : Store} {t : Transcript} {x : Executor σ} {memory : σ} {now : Instant}
    (h : Sound setup (⟨store, none, t⟩ : World σ)) (hnow : now.Valid)
    (hrestore : restore setup strategy memory (store.fetch? Collection.states setup.portfolio)
      now = .ok x) :
    Outline.Steps setup.portfolio (outline setup (⟨store, none, t⟩ : World σ))
        (outline setup ⟨store, some ⟨x, none, none⟩, t⟩) ∧
      Sound setup ⟨store, some ⟨x, none, none⟩, t⟩ := by
  obtain ⟨-, hstage⟩ := restore_eq hrestore
  have hx : x.state.Valid ∧
      x.state = (stored? setup (⟨store, none, t⟩ : World σ)).getD
        (Portfolio.new setup.portfolio now) := by
    rcases restore_cases hrestore with ⟨hnone, hstate⟩ | ⟨body, hdocument, hread⟩
    · rw [hstate]
      exact ⟨Portfolio.new_valid _ hnow, by simp [stored?, document?, hnone]⟩
    · exact ⟨Portfolio.valid_of_read hread, by simp [stored?, document?, hdocument, hread]⟩
  constructor
  · have haim : x.aimWith none = .rest := by simp [aimWith, hstage, Stage.aim]
    apply Relation.ReflTransGen.single
    simp only [outline, Option.map_some, Option.map_none, haim, hx.2]
    exact .start now
  · refine ⟨h.document, ?_⟩
    rintro _ ⟨⟩
    refine Process.Sound.of_none ⟨hx.1, ?_, ?_⟩ (by simp)
    · simp [hstage, Stage.event?]
    · simp [hstage, Stage.isCurrent]

theorem Sound.call {store : Store} {t : Transcript} {x x' : Executor σ}
    {call call' : Option ChangeEvent} {result : Except Fault Unit}
    (h : Sound setup (⟨store, some ⟨x, call, none⟩, t⟩ : World σ))
    (hready : x.stage = .ready result)
    (hcall : ∀ e, call' = some e → e.sequence < pow2 64)
    (hturn : Turn setup.portfolio (stored? setup (⟨store, some ⟨x, call, none⟩, t⟩ : World σ))
      call' x.state .rest t x' t) :
    Outline.Steps setup.portfolio (outline setup ⟨store, some ⟨x, call, none⟩, t⟩)
        (outline setup ⟨store, some ⟨x', call', none⟩, t⟩) ∧
      Sound setup ⟨store, some ⟨x', call', none⟩, t⟩ := by
  constructor
  · have haim : x.aimWith none = .rest := by simp [aimWith, hready, Stage.aim]
    have haim' : x'.aimWith none = x'.stage.aim := by simp [aimWith]
    simp only [outline, Option.map_some, haim, haim']
    exact .head (.call call') hturn.steps
  · refine ⟨h.document, ?_⟩
    rintro _ ⟨⟩
    exact Process.Sound.of_none hturn.sound hcall

/-- A request whose service does not write the state document. -/
theorem Sound.await {store store' : Store} {t t' : Transcript} {x : Executor σ}
    {call : Option ChangeEvent} {request : Request} {reply : Reply}
    (h : Sound setup (⟨store, some ⟨x, call, none⟩, t⟩ : World σ))
    (hrequest : x.request? = some request) (hfits : request.Fits reply)
    (hkept : store'.fetch? Collection.states setup.portfolio =
      store.fetch? Collection.states setup.portfolio)
    (hreply : reply ≠ .saved (.ok ())) :
    Sound setup ⟨store', some ⟨x, call, some reply⟩, t'⟩ := by
  have hstored : stored? setup (⟨store', some ⟨x, call, some reply⟩, t'⟩ : World σ) =
      stored? setup (⟨store, some ⟨x, call, none⟩, t⟩ : World σ) := by
    simp only [stored?, document?, hkept]
  constructor
  · intro document hdocument
    apply h.document document
    unfold document? at hdocument ⊢
    rwa [hkept] at hdocument
  · rintro _ ⟨⟩
    rw [hstored]
    obtain ⟨hx, hcall, -, -⟩ := h.process _ rfl
    refine ⟨hx, hcall, ?_, ?_⟩
    · rintro _ ⟨⟩
      exact ⟨request, hrequest, hfits⟩
    · intro hsaved
      exact absurd (Option.some.inj hsaved) hreply

theorem Sound.save {store store' : Store} {t : Transcript} {x : Executor σ}
    {call : Option ChangeEvent}
    (h : Sound setup (⟨store, some ⟨x, call, none⟩, t⟩ : World σ))
    (hrequest : x.request? = some (.save x.document))
    (hwrite : store.upsert Collection.states setup.portfolio x.document = (.ok (), store')) :
    Outline.Steps setup.portfolio (outline setup ⟨store, some ⟨x, call, none⟩, t⟩)
        (outline setup ⟨store', some ⟨x, call, some (.saved (.ok ()))⟩,
          t ++ [Observation.stored x.document]⟩) ∧
      Sound setup ⟨store', some ⟨x, call, some (.saved (.ok ()))⟩,
        t ++ [Observation.stored x.document]⟩ := by
  obtain ⟨hx, hcall, -, -⟩ := h.process _ rfl
  have hfetch := Store.fetch?_of_upsert_ok hwrite
  have hread := Portfolio.read?_document hx.valid
  have hstored : (store'.fetch? Collection.states setup.portfolio).bind Portfolio.read? =
      some x.state := by
    rw [hfetch]
    exact hread
  constructor
  · have haim : x.aimWith (some (.saved (.ok ()))) = x.aimWith none :=
      aimWith_of_request hrequest (by simp) _
    have hrunning : x.aimWith none ≠ .broken := by
      unfold request? at hrequest
      unfold aimWith
      cases hstage : x.stage <;> simp [hstage] at hrequest ⊢
      next after => cases after <;> simp [Stage.aim, After.aim]
    apply Relation.ReflTransGen.single
    simp only [outline, stored?, document?, hstored, Option.map_some, haim]
    exact .keep hx.valid hrunning
  · constructor
    · intro document hdocument
      exact ⟨x.state, hx.valid, Option.some.inj (hdocument.symm.trans hfetch)⟩
    · rintro _ ⟨⟩
      refine ⟨⟨hx.valid, hx.event, fun _ => hstored⟩, hcall, ?_, fun _ => hstored⟩
      rintro _ ⟨⟩
      exact ⟨_, hrequest, trivial⟩

/-- A request of which nothing is seen. -/
theorem Sound.wait {store store' : Store} {t : Transcript} {x : Executor σ}
    {call : Option ChangeEvent} {request : Request} {reply : Reply}
    (h : Sound setup (⟨store, some ⟨x, call, none⟩, t⟩ : World σ))
    (hrequest : x.request? = some request) (hother : ∀ order, request ≠ .submit order)
    (hfits : request.Fits reply)
    (hkept : store'.fetch? Collection.states setup.portfolio =
      store.fetch? Collection.states setup.portfolio)
    (hreply : reply ≠ .saved (.ok ())) :
    Outline.Steps setup.portfolio (outline setup ⟨store, some ⟨x, call, none⟩, t⟩)
        (outline setup ⟨store', some ⟨x, call, some reply⟩, t ++ []⟩) ∧
      Sound setup ⟨store', some ⟨x, call, some reply⟩, t ++ []⟩ := by
  refine ⟨?_, h.await hrequest hfits hkept hreply⟩
  have haim := aimWith_of_request hrequest hother (some reply)
  simp only [outline, stored?, document?, hkept, Option.map_some, haim, List.append_nil]
  exact .refl

theorem Sound.submit {store : Store} {t : Transcript} {x : Executor σ}
    {call : Option ChangeEvent} {order : Order} {answer : Except Fault Order.Outcome}
    (h : Sound setup (⟨store, some ⟨x, call, none⟩, t⟩ : World σ))
    (hrequest : x.request? = some (.submit order)) (hanswer : ValidAnswer answer) :
    Outline.Steps setup.portfolio (outline setup ⟨store, some ⟨x, call, none⟩, t⟩)
        (outline setup ⟨store, some ⟨x, call, some (.answered answer)⟩,
          t ++ [Observation.submitted call order]⟩) ∧
      Sound setup ⟨store, some ⟨x, call, some (.answered answer)⟩,
        t ++ [Observation.submitted call order]⟩ := by
  refine ⟨?_, h.await hrequest hanswer rfl (by simp)⟩
  obtain ⟨hx, -, -, -⟩ := h.process _ rfl
  have hstage := stage_of_submit hrequest
  have hstored : ∀ process t, stored? setup (⟨store, process, t⟩ : World σ) = some x.state :=
    fun _ _ => hx.current (by simp [hstage, Stage.isCurrent])
  apply Relation.ReflTransGen.single
  simp only [outline, hstored, Option.map_some, aimWith, hstage, Stage.aim]
  exact .submit

theorem Sound.ask {store store' : Store} {t seen : Transcript} {x : Executor σ}
    {call : Option ChangeEvent} {request : Request} {reply : Reply}
    (h : Sound setup (⟨store, some ⟨x, call, none⟩, t⟩ : World σ))
    (hrequest : x.request? = some request)
    (hserved : Served setup.portfolio call store request reply store' seen) :
    Outline.Steps setup.portfolio (outline setup ⟨store, some ⟨x, call, none⟩, t⟩)
        (outline setup ⟨store', some ⟨x, call, some reply⟩, t ++ seen⟩) ∧
      Sound setup ⟨store', some ⟨x, call, some reply⟩, t ++ seen⟩ := by
  have hfits := hserved.fits
  cases hserved with
  | @saved document _ hwrite =>
      obtain rfl : document = x.document := by
        unfold request? at hrequest
        cases hstage : x.stage <;> simp [hstage] at hrequest
        exact hrequest.symm
      exact h.save hrequest hwrite
  | notSaved hwrite =>
      have hkept := Store.fetch?_of_upsert_error hwrite Collection.states setup.portfolio
      exact h.wait hrequest (by simp) hfits hkept (by simp)
  | submitted order hanswer => exact h.submit hrequest hanswer
  | _ => exact h.wait hrequest (by simp) hfits rfl (by simp)

theorem Sound.resume {store : Store} {t : Transcript} {x : Executor σ}
    {call : Option ChangeEvent} {reply : Reply} {m : Moment}
    (h : Sound setup (⟨store, some ⟨x, call, some reply⟩, t⟩ : World σ))
    (hcoherent : (outline setup (⟨store, some ⟨x, call, some reply⟩, t⟩ : World σ)).Coherent)
    (hnow : m.now.Valid) :
    Outline.Steps setup.portfolio (outline setup ⟨store, some ⟨x, call, some reply⟩, t⟩)
        (outline setup ⟨store, some ⟨x.resume reply m, call, none⟩, t ++ x.learned reply m⟩) ∧
      Sound setup ⟨store, some ⟨x.resume reply m, call, none⟩, t ++ x.learned reply m⟩ := by
  obtain ⟨hx, hcall, hreply, hsaved⟩ := h.process _ rfl
  obtain ⟨request, hrequest, hfits⟩ := hreply reply rfl
  have hturn : Turn setup.portfolio
      (stored? setup (⟨store, some ⟨x, call, some reply⟩, t⟩ : World σ)) call x.state
      (x.aimWith (some reply)) t (x.resume reply m) (t ++ x.learned reply m) :=
    Turn.resume hx hcoherent.process.2 hnow hcall hrequest hfits fun heq =>
      hsaved (congrArg some heq)
  constructor
  · have haim : (x.resume reply m).aimWith none = (x.resume reply m).stage.aim := by
      simp [aimWith]
    simp only [outline, Option.map_some, haim]
    exact hturn.steps
  · refine ⟨h.document, ?_⟩
    rintro _ ⟨⟩
    exact Process.Sound.of_none hturn.sound hcall

theorem Sound.step (h : w.Sound setup) (hcoherent : (w.outline setup).Coherent)
    (hstep : Step setup strategy w w') :
    Outline.Steps setup.portfolio (w.outline setup) (w'.outline setup) ∧ w'.Sound setup := by
  cases hstep with
  | start memory hnow hrestore => exact h.start hnow hrestore
  | recover hready hnow =>
      obtain ⟨hx, -, -, -⟩ := h.process _ rfl
      exact h.call hready (by simp)
        (Turn.recoverFor hx.valid hcoherent.process.1 hnow (by simp))
  | handle hready hevent hnow =>
      obtain ⟨hx, -, -, -⟩ := h.process _ rfl
      refine h.call hready ?_ (Turn.handle hx.valid hcoherent.process.1 hnow)
      rintro _ ⟨⟩
      exact hevent
  | ask hrequest hserved => exact h.ask hrequest hserved
  | resume hnow => exact h.resume hcoherent hnow
  | crash => exact ⟨.single .crash, h.document, by simp⟩
  | @elsewhere store store' process t hkept =>
      have hstored : stored? setup (⟨store', process, t⟩ : World σ) =
          stored? setup (⟨store, process, t⟩ : World σ) := by
        simp only [stored?, document?, hkept]
      refine ⟨?_, ?_, ?_⟩
      · simp only [outline, hstored]
        exact .refl
      · intro document hdocument
        apply h.document document
        unfold document? at hdocument ⊢
        rwa [hkept] at hdocument
      · rw [hstored]
        exact h.process

/-- The worlds that can be come to are sound, and so are their outlines. -/
theorem Reachable.outline (hreach : Reachable setup strategy w) :
    Outline.Steps setup.portfolio Outline.initial (w.outline setup) ∧ w.Sound setup := by
  induction hreach with
  | @initial store hnew =>
      have hoffline : World.outline setup (⟨store, none, []⟩ : World σ) = Outline.initial := by
        simp [World.outline, Outline.initial, stored?, document?, hnew]
      rw [hoffline]
      refine ⟨.refl, ?_, by simp⟩
      intro document hdocument
      rw [document?, hnew] at hdocument
      contradiction
  | step hreach hstep ih =>
      obtain ⟨hsteps, hsound⟩ := ih
      obtain ⟨hnext, hsound'⟩ := hsound.step hsteps.coherent hstep
      exact ⟨hsteps.trans hnext, hsound'⟩

end World

end Executor
end TradingDesk

import TradingDesk.Proofs.Trading.Documents
/-!
# Runs of an executor

A run is a store, at most one process that trades for the portfolio, and the transcript of what was
seen from outside. The process is told of events, asks for things and is given replies; it can end
at any moment, with a request on its way or not, and another one then goes on from the stored
document. Gateway, market and clock answer as they like, and a write fails whenever the store says
so.
-/

namespace TradingDesk

/-! ### Writes of a document -/

namespace Store

variable {s s' : Store} {collection id : String} {body : Json}

theorem fetch?_of_upsert_ok (h : s.upsert collection id body = (.ok (), s')) :
    s'.fetch? collection id = some body := by
  unfold upsert at h
  split at h
  · cases h
  · cases h
    simp [fetch?]

theorem fetch?_of_upsert_error {fault : Fault}
    (h : s.upsert collection id body = (.error fault, s')) (collection' id' : String) :
    s'.fetch? collection' id' = s.fetch? collection' id' := by
  unfold upsert at h
  split at h
  · cases h
    rfl
  · cases h

/-- A write to a store that does not fail, which does not fail then either. -/
theorem upsert_of_failures_eq_zero (h : s.failures = 0) (collection id : String) (body : Json) :
    ∃ s', s.upsert collection id body = (.ok (), s') ∧ s'.failures = 0 := by
  let keyed := s.keyed.filter fun e => e.1 != (collection, id)
  refine ⟨{ s with keyed := ((collection, id), body) :: keyed }, ?_, h⟩
  unfold upsert
  rw [h]

end Store

namespace Executor

variable {σ : Type}

/-! ### Transcripts -/

inductive Observation where
  /-- A strategy has decided on an order. -/
  | created (order : Order)
  /-- The gateway was handed an order, in the call that handles `trigger`. -/
  | submitted (trigger : Option ChangeEvent) (order : Order)
  /-- The executor takes in what the gateway says about an order. -/
  | answered (order : Order) (answer : Except Fault Order.Outcome)
  /-- The state document was written. -/
  | stored (document : Json)
  /-- The process has ended. -/
  | crashed

abbrev Transcript := List Observation

namespace Transcript

def created (t : Transcript) : List Order :=
  t.filterMap fun
    | .created order => some order
    | _ => none

def submitted (t : Transcript) : List (Option ChangeEvent × Order) :=
  t.filterMap fun
    | .submitted trigger order => some (trigger, order)
    | _ => none

def answered (t : Transcript) : List (Order × Except Fault Order.Outcome) :=
  t.filterMap fun
    | .answered order answer => some (order, answer)
    | _ => none

def stored (t : Transcript) : List Json :=
  t.filterMap fun
    | .stored document => some document
    | _ => none

variable (t s : Transcript)

@[simp] theorem created_append : created (t ++ s) = created t ++ created s :=
  List.filterMap_append

@[simp] theorem submitted_append : submitted (t ++ s) = submitted t ++ submitted s :=
  List.filterMap_append

@[simp] theorem answered_append : answered (t ++ s) = answered t ++ answered s :=
  List.filterMap_append

@[simp] theorem stored_append : stored (t ++ s) = stored t ++ stored s :=
  List.filterMap_append

end Transcript

/-! ### Requests and replies -/

/-- An answer whose fill happened at an instant of the calendar. -/
def ValidAnswer (answer : Except Fault Order.Outcome) : Prop :=
  ∀ fill, answer = .ok (.filled fill) → fill.Valid

/-- How a request may be served in the call that handles `call`: the reply, the store afterwards and
what is seen of it. -/
inductive Served (portfolio : String) (call : Option ChangeEvent) (store : Store) :
    Request → Reply → Store → Transcript → Prop
  | saved {document : Json} {store' : Store}
      (hwrite : store.upsert Collection.states portfolio document = (.ok (), store')) :
      Served portfolio call store (.save document) (.saved (.ok ())) store' [.stored document]
  | notSaved {document : Json} {fault : Fault} {store' : Store}
      (hwrite : store.upsert Collection.states portfolio document = (.error fault, store')) :
      Served portfolio call store (.save document) (.saved (.error fault)) store' []
  | viewed (event : ChangeEvent) (view : Except Fault MarketView) :
      Served portfolio call store (.view event) (.viewed view) store []
  | submitted (order : Order) {answer : Except Fault Order.Outcome}
      (hanswer : ValidAnswer answer) :
      Served portfolio call store (.submit order) (.answered answer) store [.submitted call order]
  | status (clientId : String) {answer : Except Fault Order.Outcome}
      (hanswer : ValidAnswer answer) :
      Served portfolio call store (.status clientId) (.answered answer) store []
  | cancelled (clientId : String) (result : Except Fault Unit) :
      Served portfolio call store (.cancel clientId) (.cancelled result) store []
  | slept (delay : Nat) (shutdown : Bool) :
      Served portfolio call store (.sleep delay) (.woke shutdown) store []
  | paused (delay : Nat) (shutdown : Bool) :
      Served portfolio call store (.pause delay) (.woke shutdown) store []

/-- What an executor decides or takes in with a reply. -/
def learned (x : Executor σ) (reply : Reply) (m : Moment) : Transcript :=
  match x.stage, reply with
  | .viewing _, .viewed _ =>
    match (x.resume reply m).stage with
    | .saving _ _ (.submit order) => [.created order]
    | _ => []
  | .submitting order, .answered answer => [.answered order answer]
  | .reconciling order _, .answered answer => [.answered order answer]
  | .querying s, .answered answer => [.answered s.order answer]
  | _, _ => []

theorem stage_of_submit {x : Executor σ} {order : Order}
    (h : x.request? = some (.submit order)) : x.stage = .submitting order := by
  unfold request? at h
  cases hstage : x.stage <;> simp [hstage] at h
  rw [h]

/-- An answer of the gateway is taken for one about the order. -/
def Awaits (x : Executor σ) (order : Order) : Prop :=
  x.stage = .submitting order ∨ (∃ waiting, x.stage = .reconciling order waiting) ∨
    ∃ s, x.stage = .querying s ∧ s.order = order

theorem Awaits.request? {x : Executor σ} {order : Order} (h : x.Awaits order) :
    x.request? = some (.submit order) ∨ x.request? = some (.status order.clientId) := by
  rcases h with hstage | ⟨waiting, hstage⟩ | ⟨s, hstage, rfl⟩
  · exact .inl (by rw [Executor.request?, hstage])
  · exact .inr (by rw [Executor.request?, hstage])
  · exact .inr (by rw [Executor.request?, hstage])

theorem awaits_of_learned {x : Executor σ} {reply : Reply} {m : Moment} {order : Order}
    {answer : Except Fault Order.Outcome}
    (h : Observation.answered order answer ∈ x.learned reply m) :
    x.Awaits order ∧ reply = .answered answer := by
  unfold learned at h
  split at h
  · split at h <;> simp at h
  · next order' answer' hstage =>
    obtain ⟨rfl, rfl⟩ : order = order' ∧ answer = answer' := by simpa using h
    exact ⟨.inl hstage, rfl⟩
  · next order' waiting answer' hstage =>
    obtain ⟨rfl, rfl⟩ : order = order' ∧ answer = answer' := by simpa using h
    exact ⟨.inr (.inl ⟨waiting, hstage⟩), rfl⟩
  · next s answer' hstage =>
    obtain ⟨rfl, rfl⟩ : order = s.order ∧ answer = answer' := by simpa using h
    exact ⟨.inr (.inr ⟨s, hstage, rfl⟩), rfl⟩
  · contradiction

/-! ### Runs -/

/-- An executor at work. -/
structure Process (σ : Type) where
  executor : Executor σ
  /-- The event that the call under way handles; none when it recovers. -/
  call : Option ChangeEvent
  /-- The reply that is on its way. -/
  reply : Option Reply

structure World (σ : Type) where
  store : Store
  process : Option (Process σ)
  transcript : Transcript

namespace World

def document? (setup : Setup) (w : World σ) : Option Json :=
  w.store.fetch? Collection.states setup.portfolio

inductive Step (setup : Setup) (strategy : Strategy σ) : World σ → World σ → Prop
  | start {store : Store} {t : Transcript} {x : Executor σ} (memory : σ) {now : Instant}
      (hnow : now.Valid)
      (hrestore : restore setup strategy memory (store.fetch? Collection.states setup.portfolio)
        now = .ok x) :
      Step setup strategy ⟨store, none, t⟩ ⟨store, some ⟨x, none, none⟩, t⟩
  | recover {store : Store} {t : Transcript} {x : Executor σ} {call : Option ChangeEvent}
      {result : Except Fault Unit} {m : Moment}
      (hready : x.stage = .ready result) (hnow : m.now.Valid) :
      Step setup strategy ⟨store, some ⟨x, call, none⟩, t⟩
        ⟨store, some ⟨x.recover m, none, none⟩, t⟩
  | handle {store : Store} {t : Transcript} {x : Executor σ} {call : Option ChangeEvent}
      {result : Except Fault Unit} {event : ChangeEvent} {m : Moment}
      (hready : x.stage = .ready result) (hevent : event.sequence < pow2 64)
      (hnow : m.now.Valid) :
      Step setup strategy ⟨store, some ⟨x, call, none⟩, t⟩
        ⟨store, some ⟨x.handle event m, some event, none⟩, t⟩
  | ask {store store' : Store} {t seen : Transcript} {x : Executor σ}
      {call : Option ChangeEvent} {request : Request} {reply : Reply}
      (hrequest : x.request? = some request)
      (hserved : Served setup.portfolio call store request reply store' seen) :
      Step setup strategy ⟨store, some ⟨x, call, none⟩, t⟩
        ⟨store', some ⟨x, call, some reply⟩, t ++ seen⟩
  | resume {store : Store} {t : Transcript} {x : Executor σ} {call : Option ChangeEvent}
      {reply : Reply} {m : Moment} (hnow : m.now.Valid) :
      Step setup strategy ⟨store, some ⟨x, call, some reply⟩, t⟩
        ⟨store, some ⟨x.resume reply m, call, none⟩, t ++ x.learned reply m⟩
  | crash {store : Store} {t : Transcript} {p : Process σ} :
      Step setup strategy ⟨store, some p, t⟩ ⟨store, none, t ++ [Observation.crashed]⟩
  /-- Others write to the store, or it begins to fail; the state document is not theirs. -/
  | elsewhere {store store' : Store} {process : Option (Process σ)} {t : Transcript}
      (hkept : store'.fetch? Collection.states setup.portfolio =
        store.fetch? Collection.states setup.portfolio) :
      Step setup strategy ⟨store, process, t⟩ ⟨store', process, t⟩

/-- The worlds that a portfolio without a state document can come to. -/
inductive Reachable (setup : Setup) (strategy : Strategy σ) : World σ → Prop
  | initial {store : Store}
      (hnew : store.fetch? Collection.states setup.portfolio = none) :
      Reachable setup strategy ⟨store, none, []⟩
  | step {w w' : World σ} (hreach : Reachable setup strategy w)
      (hstep : Step setup strategy w w') : Reachable setup strategy w'

/-! ### The first order -/

abbrev Steps (setup : Setup) (strategy : Strategy σ) : World σ → World σ → Prop :=
  Relation.ReflTransGen (Step setup strategy)

theorem Reachable.steps {setup : Setup} {strategy : Strategy σ} {w w' : World σ}
    (hreach : Reachable setup strategy w) (hsteps : Steps setup strategy w w') :
    Reachable setup strategy w' := by
  induction hsteps with
  | refl => exact hreach
  | tail _ hlast ih => exact ih.step hlast

def reply? (w : World σ) : Option Reply := w.process.bind (·.reply)

/-- A step in which the gateway answers nothing. -/
def QuietStep (setup : Setup) (strategy : Strategy σ) (w w' : World σ) : Prop :=
  Step setup strategy w w' ∧
    ∀ answer, w'.reply? = some (.answered answer) → w.reply? = some (.answered answer)

abbrev QuietSteps (setup : Setup) (strategy : Strategy σ) : World σ → World σ → Prop :=
  Relation.ReflTransGen (QuietStep setup strategy)

theorem QuietSteps.steps {setup : Setup} {strategy : Strategy σ} {w w' : World σ}
    (hsteps : QuietSteps setup strategy w w') : Steps setup strategy w w' :=
  Relation.ReflTransGen.mono (fun _ _ hstep => hstep.1) _ _ hsteps

/-- A quiet step in which the market shows nothing but `view`. -/
def ViewingStep (setup : Setup) (strategy : Strategy σ) (view : MarketView) (w w' : World σ) :
    Prop :=
  QuietStep setup strategy w w' ∧ ∀ seen, w'.reply? = some (.viewed (.ok seen)) → seen = view

abbrev ViewingSteps (setup : Setup) (strategy : Strategy σ) (view : MarketView) :
    World σ → World σ → Prop :=
  Relation.ReflTransGen (ViewingStep setup strategy view)

theorem ViewingSteps.quiet {setup : Setup} {strategy : Strategy σ} {view : MarketView}
    {w w' : World σ} (hsteps : ViewingSteps setup strategy view w w') :
    QuietSteps setup strategy w w' :=
  Relation.ReflTransGen.mono (fun _ _ hstep => hstep.1) _ _ hsteps

theorem ViewingSteps.step {setup : Setup} {strategy : Strategy σ} {view : MarketView}
    {w w' w'' : World σ} (hsteps : ViewingSteps setup strategy view w w')
    (hstep : Step setup strategy w' w'')
    (hreply : ∀ reply, w''.reply? = some reply →
      (∃ result, reply = .saved result) ∨ reply = .viewed (.ok view)) :
    ViewingSteps setup strategy view w w'' := by
  refine hsteps.tail ⟨⟨hstep, fun answer heq => ?_⟩, fun seen heq => ?_⟩
  · rcases hreply _ heq with ⟨result, hsaved⟩ | hviewed
    · cases hsaved
    · cases hviewed
  · rcases hreply _ heq with ⟨result, hsaved⟩ | hviewed
    · cases hsaved
    · cases hviewed
      rfl

/-- A portfolio that judges an event. -/
def judging (p : Portfolio) (now : Instant) : Portfolio :=
  { p with phase := .evaluating, updatedAt := now }

/-- A portfolio that hands in an order. -/
def placing (p : Portfolio) (event : ChangeEvent) (order : Order) (now : Instant) : Portfolio :=
  { (judging p now).markEvaluated event with
    pending := some order, phase := .orderPending, updatedAt := now }

/-- The state in which a new portfolio judges an event. -/
def judgingState (id : String) (now : Instant) : Portfolio :=
  { Portfolio.new id now with phase := .evaluating }

/-- The state in which a new portfolio hands in an order. -/
def placingState (id : String) (event : ChangeEvent) (order : Order) (now : Instant) :
    Portfolio :=
  { (judgingState id now).markEvaluated event with
    pending := some order, phase := .orderPending }

/-- An event that is new to an idle portfolio is judged, once the state is stored. -/
theorem handle_of_idle {x : Executor σ} {event : ChangeEvent} (m : Moment)
    (hidle : x.state.phase = .idle) (hnew : x.state.hasEvaluated event = false)
    (hwatched : event.collection ∈ x.setup.watched) :
    x.handle event m = { x with
      state := judging x.state m.now
      stage := .saving .idle (Backoff.start x.setup.settings.storeRetry) (.evaluate event) } := by
  have hcontains : x.setup.watched.contains event.collection = true := by simpa using hwatched
  unfold handle
  rw [hcontains]
  simp [hidle, take, hnew, enter, Phase.mayBecome, judging]

/-- An event on which the strategy of an idle portfolio decides to trade brings it to hand in an
order. -/
theorem ViewingSteps.place {setup : Setup} (strategy : Strategy σ) (x : Executor σ) (store : Store)
    (t : Transcript) (call : Option ChangeEvent) {event : ChangeEvent} {m : Moment}
    {trade : Trade} {order : Order} {memory : σ} {result : Except Fault Unit} (view : MarketView)
    (hsetup : x.setup = setup) (hready : x.stage = .ready result) (hidle : x.state.phase = .idle)
    (hnew : x.state.hasEvaluated event = false) (hwatched : event.collection ∈ setup.watched)
    (hevent : event.sequence < pow2 64) (hnow : m.now.Valid) (hfailures : store.failures = 0)
    (hgo : x.strategy.evaluate? x.memory view (judging x.state m.now) = some (.go trade, memory))
    (horder : order = Order.ofTrade setup.portfolio setup.asset m.freshId trade m.now) :
    ∃ store' announced, store'.failures = 0 ∧
      store'.fetch? Collection.states setup.portfolio =
        some (placing x.state event order m.now).toJson.settled ∧
      ViewingSteps setup strategy view ⟨store, some ⟨x, call, none⟩, t⟩
        ⟨store', some ⟨⟨setup, x.strategy, memory, placing x.state event order m.now,
            .submitting order, announced⟩, some event, none⟩,
          t ++ [.stored (judging x.state m.now).toJson.settled, .created order,
            .stored (placing x.state event order m.now).toJson.settled]⟩ := by
  subst setup order
  let x₁ : Executor σ :=
    { x with
      state := judging x.state m.now
      stage := .saving .idle (Backoff.start x.setup.settings.storeRetry) (.evaluate event) }
  let x₂ : Executor σ := x₁.resume (.saved (.ok ())) m
  let order := Order.ofTrade x.setup.portfolio x.setup.asset m.freshId trade m.now
  let x₃ : Executor σ :=
    { x₂ with
      memory := memory
      state := placing x.state event order m.now
      stage := .saving .evaluating (Backoff.start x.setup.settings.storeRetry) (.submit order) }
  have hhandle : x.handle event m = x₁ := handle_of_idle m hidle hnew hwatched
  have hevaluate : x₂.resume (.viewed (.ok view)) m = x₃ := by
    have hunfold : x₂.resume (.viewed (.ok view)) m = x₂.evaluate event (.ok view) m := rfl
    have hjudged : x₂.strategy.evaluate? x₂.memory view x₂.state = some (.go trade, memory) := hgo
    rw [hunfold, Executor.evaluate]
    simp only [hjudged]
    rfl
  have hlearned : x₂.learned (.viewed (.ok view)) m = [.created order] := by
    have hstage : (x₂.resume (.viewed (.ok view)) m).stage = x₃.stage := by rw [hevaluate]
    have hunfold : x₂.learned (.viewed (.ok view)) m =
        match (x₂.resume (.viewed (.ok view)) m).stage with
        | .saving _ _ (.submit order) => [.created order]
        | _ => [] := rfl
    rw [hunfold, hstage]
  obtain ⟨s₁, hwrite₁, hfailures₁⟩ := Store.upsert_of_failures_eq_zero hfailures Collection.states
    x.setup.portfolio x₁.document
  obtain ⟨s₂, hwrite₂, hfailures₂⟩ := Store.upsert_of_failures_eq_zero hfailures₁ Collection.states
    x.setup.portfolio x₃.document
  have hbegin : ViewingSteps x.setup strategy view ⟨store, some ⟨x, call, none⟩, t⟩
      ⟨store, some ⟨x, call, none⟩, t⟩ := .refl
  have hhandled := hbegin.step (.handle (m := m) hready hevent hnow) (by simp [reply?])
  rw [hhandle] at hhandled
  have hjudging := hhandled.step (.ask rfl (.saved hwrite₁)) (by simp [reply?])
  have hviewing := hjudging.step (.resume (m := m) hnow) (by simp [reply?])
  have hviewed := hviewing.step (.ask rfl (.viewed event (.ok view))) (by simp [reply?])
  have hdecided := hviewed.step (.resume (x := x₂) (m := m) hnow) (by simp [reply?])
  rw [hlearned, hevaluate] at hdecided
  have hwritten := hdecided.step (.ask rfl (.saved hwrite₂)) (by simp [reply?])
  have hplacing := hwritten.step (.resume (m := m) hnow) (by simp [reply?])
  refine ⟨s₂, (x₃.resume (.saved (.ok ())) m).announced, hfailures₂,
    Store.fetch?_of_upsert_ok hwrite₂, ?_⟩
  have htranscript : t ++ [Observation.stored x₁.document] ++ [] ++ [] ++
      [Observation.created order] ++ [Observation.stored x₃.document] ++ [] =
      t ++ [Observation.stored (judging x.state m.now).toJson.settled, .created order,
        .stored (placing x.state event order m.now).toJson.settled] := by
    simp [document, x₁, x₃]
  rw [← htranscript]
  exact hplacing

/-- The first event on which the strategy of a new portfolio decides to trade brings it to hand in
an order. -/
theorem QuietSteps.first_order (setup : Setup) (strategy : Strategy σ) (memory memory' : σ)
    (view : MarketView) {event : ChangeEvent} {m : Moment} {trade : Trade} {order : Order}
    (hwatched : event.collection ∈ setup.watched) (hevent : event.sequence < pow2 64)
    (hnow : m.now.Valid)
    (hgo : strategy.evaluate? memory view (judgingState setup.portfolio m.now) =
      some (.go trade, memory'))
    (horder : order = Order.ofTrade setup.portfolio setup.asset m.freshId trade m.now) :
    ∃ store announced, store.failures = 0 ∧
      store.fetch? Collection.states setup.portfolio =
        some (placingState setup.portfolio event order m.now).toJson.settled ∧
      QuietSteps setup strategy ⟨{}, none, []⟩ ⟨store, some ⟨⟨setup, strategy, memory',
          placingState setup.portfolio event order m.now, .submitting order, announced⟩,
          some event, none⟩,
        [.stored (judgingState setup.portfolio m.now).toJson.settled, .created order,
          .stored (placingState setup.portfolio event order m.now).toJson.settled]⟩ := by
  let x : Executor σ :=
    ⟨setup, strategy, memory, Portfolio.new setup.portfolio m.now, .ready (.ok ()), []⟩
  have hstart : QuietStep setup strategy ⟨{}, none, []⟩ ⟨{}, some ⟨x, none, none⟩, []⟩ :=
    ⟨.start memory hnow rfl, by simp [reply?]⟩
  obtain ⟨store, announced, hfailures, hfetch, hsteps⟩ :=
    ViewingSteps.place strategy x {} [] none view rfl rfl rfl rfl hwatched hevent hnow rfl hgo
      horder
  exact ⟨store, announced, hfailures, hfetch, .head hstart hsteps.quiet⟩

/-- An event on which the strategy of a new portfolio decides to trade gets an order handed in. -/
theorem Reachable.first_order (setup : Setup) (strategy : Strategy σ) (memory memory' : σ)
    (view : MarketView) {event : ChangeEvent} {m : Moment} {trade : Trade} {order : Order}
    {answer : Except Fault Order.Outcome}
    (hwatched : event.collection ∈ setup.watched) (hevent : event.sequence < pow2 64)
    (hnow : m.now.Valid) (hanswer : ValidAnswer answer)
    (hgo : strategy.evaluate? memory view (judgingState setup.portfolio m.now) =
      some (.go trade, memory'))
    (horder : order = Order.ofTrade setup.portfolio setup.asset m.freshId trade m.now) :
    ∃ store announced, store.failures = 0 ∧
      store.fetch? Collection.states setup.portfolio =
        some (placingState setup.portfolio event order m.now).toJson.settled ∧
      Reachable setup strategy ⟨store, some ⟨⟨setup, strategy, memory',
          placingState setup.portfolio event order m.now, .submitting order, announced⟩,
          some event, some (.answered answer)⟩,
        [.stored (judgingState setup.portfolio m.now).toJson.settled, .created order,
          .stored (placingState setup.portfolio event order m.now).toJson.settled,
          .submitted (some event) order]⟩ := by
  obtain ⟨store, announced, hfailures, hfetch, hsteps⟩ :=
    QuietSteps.first_order setup strategy memory memory' view hwatched hevent hnow hgo horder
  have hplacing := (Reachable.initial rfl).steps hsteps.steps
  exact ⟨store, announced, hfailures, hfetch,
    hplacing.step (.ask rfl (.submitted order hanswer))⟩

/-! A strategy that buys at each change, and its first order. -/

def eager : Strategy Unit where
  name := "eager"
  evaluate? := fun _ _ _ =>
    some (.go { side := .buy, size := Decimal.one, limit := none, reason := "change" }, ())

def eagerSetup : Setup := { portfolio := "alpha", asset := "btc", settings := {} }

def eagerEvent : ChangeEvent :=
  { collection := Collection.quotes "btc", documentId := "quote", sequence := 1 }

def eagerMoment : Moment :=
  { time := 0, now := { seconds := 0, nanos := 0 }, freshId := "first" }

def eagerOrder : Order :=
  { clientId := "first", portfolio := "alpha", asset := "btc", side := .buy, size := Decimal.one
    limit := none, reason := "change", createdAt := eagerMoment.now }

theorem eagerMoment_valid : eagerMoment.now.Valid := by
  constructor <;> decide

theorem Reachable.eager_order {answer : Except Fault Order.Outcome} (hanswer : ValidAnswer answer) :
    ∃ store announced, store.failures = 0 ∧
      store.fetch? Collection.states "alpha" =
        some (placingState "alpha" eagerEvent eagerOrder eagerMoment.now).toJson.settled ∧
      Reachable eagerSetup eager ⟨store, some ⟨⟨eagerSetup, eager, (),
          placingState "alpha" eagerEvent eagerOrder eagerMoment.now, .submitting eagerOrder,
          announced⟩, some eagerEvent, some (.answered answer)⟩,
        [.stored (judgingState "alpha" eagerMoment.now).toJson.settled, .created eagerOrder,
          .stored (placingState "alpha" eagerEvent eagerOrder eagerMoment.now).toJson.settled,
          .submitted (some eagerEvent) eagerOrder]⟩ :=
  Reachable.first_order eagerSetup eager () () { asset := "btc", trigger := eagerEvent }
    (by simp [Setup.watched, eagerEvent, eagerSetup]) (by decide) eagerMoment_valid hanswer rfl rfl

def eagerFill : Fill :=
  { exchangeId := "x-1", size := Decimal.one, price := Decimal.two, filledAt := eagerMoment.now }

theorem eager_placingState_valid :
    (placingState "alpha" eagerEvent eagerOrder eagerMoment.now).Valid := by
  have hnew := Portfolio.new_valid "alpha" eagerMoment_valid
  have hjudging := hnew.enter .evaluating eagerMoment_valid
  have hmarked := hjudging.markEvaluated (e := eagerEvent) (by decide)
  have horder : eagerOrder.Valid := eagerMoment_valid
  exact (hmarked.place horder).enter .orderPending eagerMoment_valid

/-- The fill of the first order is seen by a process that ends, and again by the next. -/
def eagerTranscript : Transcript :=
  [.stored (judgingState "alpha" eagerMoment.now).toJson.settled, .created eagerOrder,
    .stored (placingState "alpha" eagerEvent eagerOrder eagerMoment.now).toJson.settled,
    .submitted (some eagerEvent) eagerOrder, .answered eagerOrder (.ok (.filled eagerFill)),
    .crashed, .answered eagerOrder (.ok (.filled eagerFill))]

/-- The next process books the fill; the event of the order is then delivered again. -/
theorem Reachable.eager_fill :
    ∃ w document, Reachable eagerSetup eager w ∧
      w.transcript = eagerTranscript ++ [Observation.stored document] := by
  have hfill : ValidAnswer (.ok (.filled eagerFill)) := by
    rintro _ ⟨⟩
    exact eagerMoment_valid
  obtain ⟨store, announced, hfailures, hfetch, hreach⟩ := Reachable.eager_order hfill
  have hcrashed := (hreach.step (.resume (m := eagerMoment) eagerMoment_valid)).step .crash
  have hrestore : restore eagerSetup eager () (store.fetch? Collection.states "alpha")
      eagerMoment.now = .ok ⟨eagerSetup, eager, (),
        placingState "alpha" eagerEvent eagerOrder eagerMoment.now, .ready (.ok ()), []⟩ := by
    rw [hfetch]
    simp only [restore, restoreState, Portfolio.read?_document eager_placingState_valid]
    rfl
  have hstarted := hcrashed.step (.start () eagerMoment_valid hrestore)
  have hrecovering := hstarted.step (.recover (m := eagerMoment) rfl eagerMoment_valid)
  have hasked := hrecovering.step (.ask rfl (.status _ hfill))
  have hbooked := hasked.step (.resume (m := eagerMoment) eagerMoment_valid)
  obtain ⟨store', hwrite, -⟩ :=
    Store.upsert_of_failures_eq_zero hfailures Collection.states "alpha" _
  have hstored := hbooked.step (.ask rfl (.saved hwrite))
  have hrest := hstored.step (.resume (m := eagerMoment) eagerMoment_valid)
  have hsequence : eagerEvent.sequence < pow2 64 := by decide
  have hagain := hrest.step (.handle (m := eagerMoment) rfl hsequence eagerMoment_valid)
  exact ⟨_, _, hagain, rfl⟩

end World

end Executor
end TradingDesk

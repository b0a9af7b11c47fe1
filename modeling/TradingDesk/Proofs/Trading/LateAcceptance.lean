import TradingDesk.Proofs.Trading.WriteAhead
/-!
# Orders that are accepted late

Behind the gateway stands an exchange, to which an order may still be on its way when the gateway
has given up on it. Whoever asks for such an order is told that it is not known, and the order may
be accepted after that. A portfolio takes an order that is not known for one that was not placed: it
lets go of it and is free for the next one. Hence an order that is live, or may still come to be, is
the pending one unless the exchange has once denied to know it.
-/

namespace TradingDesk
namespace Executor

/-! ### The exchange -/

/-- What has become of an order at the exchange. -/
inductive Fate where
  /-- The exchange does not have it, and it is not on its way. -/
  | absent
  /-- It is on its way and may be accepted at any moment. -/
  | travelling
  /-- It was accepted and works. -/
  | live
  | filled (fill : Fill)
  /-- It was refused, or cancelled without a fill. -/
  | refused (reason : String)
deriving DecidableEq, Repr

namespace Fate

/-- Whether the order is at the exchange or can still get there. -/
def isOutstanding : Fate → Bool
  | travelling | live => true
  | _ => false

def isClosed : Fate → Bool
  | filled _ | refused _ => true
  | _ => false

/-- What can happen to an order with nobody calling. -/
inductive Moves : Fate → Fate → Prop
  | accept : Moves travelling live
  | lose : Moves travelling absent
  | turnDown (reason : String) : Moves travelling (refused reason)
  | fill (fill : Fill) : Moves live (filled fill)
  | cancel (reason : String) : Moves live (refused reason)

/-- What can become of an order that is handed in. The exchange does not take an order twice. -/
inductive HandedIn : Fate → Fate → Prop
  | fresh (fate : Fate) : HandedIn absent fate
  | known (fate : Fate) : HandedIn fate fate

/-- What a call about an order can be answered. A call that fails tells nothing. -/
inductive Tells : Fate → Except Fault Order.Outcome → Prop
  | nothing (fate : Fate) (fault : Fault) : Tells fate (.error fault)
  | resting (exchangeId : String) : Tells live (.ok (.resting exchangeId))
  | filled (fill : Fill) : Tells (filled fill) (.ok (.filled fill))
  | refused (reason : String) : Tells (refused reason) (.ok (.rejected reason))
  | absent : Tells absent (.ok .unknown)
  /-- A query can overtake the order that it is about. -/
  | travelling : Tells travelling (.ok .unknown)

theorem Moves.isClosed {fate fate' : Fate} (h : Moves fate fate') : fate.isClosed = false := by
  cases h <;> rfl

theorem HandedIn.isClosed {fate fate' : Fate} (h : HandedIn fate fate')
    (hclosed : fate.isClosed = true) : fate'.isClosed = true := by
  cases h with
  | fresh => contradiction
  | known => exact hclosed

theorem Tells.of_isFinal {fate : Fate} {outcome : Order.Outcome} (h : Tells fate (.ok outcome))
    (hfinal : outcome.isFinal = true) : fate.isClosed = true ∨ outcome = .unknown := by
  cases h with
  | resting => contradiction
  | filled => exact .inl rfl
  | refused => exact .inl rfl
  | absent => exact .inr rfl
  | travelling => exact .inr rfl

end Fate

/-- The exchange as far as orders go, which it knows by their client ids. -/
structure Venue where
  fate : String → Fate
  /-- The orders that a call was told not to be known. -/
  denied : List String

namespace Venue

def initial : Venue := ⟨fun _ => .absent, []⟩

def set (v : Venue) (clientId : String) (fate : Fate) : Venue :=
  { v with fate := Function.update v.fate clientId fate }

def note (v : Venue) (clientId : String) (answer : Except Fault Order.Outcome) : Venue :=
  if answer = .ok .unknown then { v with denied := clientId :: v.denied } else v

/-- Nothing more is going to be asked about the order. -/
def Settled (v : Venue) (clientId : String) : Prop :=
  (v.fate clientId).isClosed = true ∨ clientId ∈ v.denied

variable {v : Venue} {clientId clientId' : String} {answer : Except Fault Order.Outcome}

@[simp] theorem note_fate : (v.note clientId answer).fate = v.fate := by
  unfold note
  split <;> rfl

theorem Settled.note (h : v.Settled clientId') : (v.note clientId answer).Settled clientId' := by
  unfold Settled at h ⊢
  rw [note_fate]
  refine h.imp_right fun hmem => ?_
  unfold Venue.note
  split
  · exact List.mem_cons_of_mem clientId hmem
  · exact hmem

theorem Settled.set {fate : Fate} (h : v.Settled clientId')
    (hclosed : (v.fate clientId).isClosed = true → fate.isClosed = true) :
    (v.set clientId fate).Settled clientId' := by
  refine h.imp_left fun hold => ?_
  unfold Venue.set
  by_cases heq : clientId' = clientId
  · subst clientId'
    simpa using hclosed hold
  · simpa [Function.update_of_ne heq] using hold

/-- An answer that ends an order leaves it settled. -/
theorem settled_note {outcome : Order.Outcome} (htells : (v.fate clientId).Tells (.ok outcome))
    (hfinal : outcome.isFinal = true) : (v.note clientId (.ok outcome)).Settled clientId := by
  rcases htells.of_isFinal hfinal with hclosed | rfl
  · refine .inl ?_
    rwa [note_fate]
  · refine .inr ?_
    simp [note]

end Venue

/-! ### Runs with an exchange -/

structure Dealing (σ : Type) where
  world : World σ
  venue : Venue

namespace Dealing

variable {σ : Type} {setup : Setup} {strategy : Strategy σ}

/-- The gateway's answers say what is so at the exchange; all else goes on as in any run. -/
inductive Step (setup : Setup) (strategy : Strategy σ) : Dealing σ → Dealing σ → Prop
  | work {w w' : World σ} {v : Venue} (hstep : World.QuietStep setup strategy w w') :
      Step setup strategy ⟨w, v⟩ ⟨w', v⟩
  | submit {store : Store} {t : Transcript} {x : Executor σ} {call : Option ChangeEvent}
      {v : Venue} {order : Order} {answer : Except Fault Order.Outcome} {fate : Fate}
      (hrequest : x.request? = some (.submit order)) (hanswer : ValidAnswer answer)
      (hfate : (v.fate order.clientId).HandedIn fate) (htells : fate.Tells answer) :
      Step setup strategy ⟨⟨store, some ⟨x, call, none⟩, t⟩, v⟩
        ⟨⟨store, some ⟨x, call, some (.answered answer)⟩,
            t ++ [Observation.submitted call order]⟩,
          (v.set order.clientId fate).note order.clientId answer⟩
  | query {store : Store} {t : Transcript} {x : Executor σ} {call : Option ChangeEvent}
      {v : Venue} {clientId : String} {answer : Except Fault Order.Outcome}
      (hrequest : x.request? = some (.status clientId)) (hanswer : ValidAnswer answer)
      (htells : (v.fate clientId).Tells answer) :
      Step setup strategy ⟨⟨store, some ⟨x, call, none⟩, t⟩, v⟩
        ⟨⟨store, some ⟨x, call, some (.answered answer)⟩, t⟩, v.note clientId answer⟩
  | move {w : World σ} {v : Venue} {clientId : String} {fate : Fate}
      (hmoves : (v.fate clientId).Moves fate) :
      Step setup strategy ⟨w, v⟩ ⟨w, v.set clientId fate⟩

/-- What a portfolio without a state document and an exchange without orders can come to. -/
inductive Reachable (setup : Setup) (strategy : Strategy σ) : Dealing σ → Prop
  | initial {store : Store} (hnew : store.fetch? Collection.states setup.portfolio = none) :
      Reachable setup strategy ⟨⟨store, none, []⟩, .initial⟩
  | step {d d' : Dealing σ} (hreach : Reachable setup strategy d)
      (hstep : Step setup strategy d d') : Reachable setup strategy d'

variable {d d' : Dealing σ}

theorem Reachable.world (hreach : Reachable setup strategy d) :
    World.Reachable setup strategy d.world := by
  induction hreach with
  | initial hnew => exact .initial hnew
  | step _ hstep ih =>
      cases hstep with
      | work hstep => exact ih.step hstep.1
      | submit hrequest hanswer => exact ih.step (.ask hrequest (.submitted _ hanswer))
      | query hrequest hanswer =>
          have hasked := ih.step (.ask hrequest (.status _ hanswer))
          rwa [List.append_nil] at hasked
      | move => exact ih

theorem Reachable.quietSteps {w w' : World σ} {v : Venue}
    (hreach : Reachable setup strategy ⟨w, v⟩) (hsteps : World.QuietSteps setup strategy w w') :
    Reachable setup strategy ⟨w', v⟩ := by
  induction hsteps with
  | refl => exact hreach
  | tail _ hlast ih => exact ih.step (.work hlast)

/-! ### What the exchange bears out -/

/-- An order that an answer has ended is closed or denied, and what the exchange has was handed
in. -/
structure Truthful (d : Dealing σ) : Prop where
  answers : ∀ order outcome, Observation.answered order (.ok outcome) ∈ d.world.transcript →
    outcome.isFinal = true → d.venue.Settled order.clientId
  reply : ∀ p outcome order, d.world.process = some p →
    p.reply = some (.answered (.ok outcome)) → outcome.isFinal = true → p.executor.Awaits order →
    d.venue.Settled order.clientId
  handed : ∀ clientId, d.venue.fate clientId ≠ .absent →
    ∃ (place : Nat) (trigger : Option ChangeEvent) (order : Order),
      d.world.transcript[place]? = some (.submitted trigger order) ∧ order.clientId = clientId

namespace Truthful

/-- The transcript grows, and the exchange does nothing that unsettles an order. -/
theorem extend {w w' : World σ} {v v' : Venue} (h : Truthful ⟨w, v⟩) (seen : Transcript)
    (htranscript : w'.transcript = w.transcript ++ seen)
    (hsettled : ∀ clientId, v.Settled clientId → v'.Settled clientId)
    (hanswers : ∀ order outcome, Observation.answered order (.ok outcome) ∈ seen →
      outcome.isFinal = true → v'.Settled order.clientId)
    (hreply : ∀ p outcome order, w'.process = some p →
      p.reply = some (.answered (.ok outcome)) → outcome.isFinal = true →
      p.executor.Awaits order → v'.Settled order.clientId)
    (hhanded : ∀ clientId, v'.fate clientId ≠ .absent → v.fate clientId ≠ .absent ∨
      ∃ trigger order, seen = [.submitted trigger order] ∧ order.clientId = clientId) :
    Truthful ⟨w', v'⟩ where
  answers order outcome hmem hfinal := by
    rw [htranscript] at hmem
    rcases List.mem_append.mp hmem with hold | hnew
    · exact hsettled _ (h.answers order outcome hold hfinal)
    · exact hanswers order outcome hnew hfinal
  reply := hreply
  handed clientId hfate := by
    simp only [htranscript]
    rcases hhanded clientId hfate with hold | ⟨trigger, order, rfl, hid⟩
    · obtain ⟨place, trigger, order, hplace, hid⟩ := h.handed clientId hold
      refine ⟨place, trigger, order, ?_, hid⟩
      rwa [List.getElem?_append_left (List.getElem?_eq_some_iff.mp hplace).1]
    · exact ⟨w.transcript.length, trigger, order, List.getElem?_concat_length, hid⟩

theorem work {w w' : World σ} {v : Venue} (h : Truthful ⟨w, v⟩)
    (hstep : World.QuietStep setup strategy w w') : Truthful ⟨w', v⟩ := by
  obtain ⟨hstep, hquiet⟩ := hstep
  have hsame : ∀ clientId, v.Settled clientId → v.Settled clientId := fun _ hsettled => hsettled
  cases hstep with
  | start | recover | handle =>
      exact h.extend [] (List.append_nil _).symm hsame (by simp) (by rintro _ _ _ ⟨⟩ ⟨⟩)
        fun _ => .inl
  | @ask _ _ _ seen x call request reply hrequest hserved =>
      have hnone : ∀ answer, reply ≠ .answered answer := by
        rintro answer rfl
        have hbefore := hquiet answer rfl
        simp [World.reply?] at hbefore
      refine h.extend seen rfl hsame ?_ ?_ fun _ => .inl
      · intro order outcome hmem
        cases hserved <;> simp at hmem
      · rintro _ outcome order ⟨⟩ heq
        exact absurd (Option.some.inj heq) (hnone _)
  | @resume _ _ x call reply m hnow =>
      refine h.extend (x.learned reply m) rfl hsame ?_ (by rintro _ _ _ ⟨⟩ ⟨⟩) fun _ => .inl
      intro order outcome hmem hfinal
      obtain ⟨hawaits, rfl⟩ := awaits_of_learned hmem
      exact h.reply _ outcome order rfl rfl hfinal hawaits
  | crash =>
      exact h.extend [.crashed] rfl hsame (by simp) (by rintro _ _ _ ⟨⟩) fun _ => .inl
  | elsewhere =>
      exact h.extend [] (List.append_nil _).symm hsame (by simp) h.reply fun _ => .inl

theorem submit {store : Store} {t : Transcript} {x : Executor σ} {call : Option ChangeEvent}
    {v : Venue} {order : Order} {answer : Except Fault Order.Outcome} {fate : Fate}
    (h : Truthful ⟨⟨store, some ⟨x, call, none⟩, t⟩, v⟩)
    (hrequest : x.request? = some (.submit order))
    (hfate : (v.fate order.clientId).HandedIn fate) (htells : fate.Tells answer) :
    Truthful ⟨⟨store, some ⟨x, call, some (.answered answer)⟩,
        t ++ [Observation.submitted call order]⟩,
      (v.set order.clientId fate).note order.clientId answer⟩ := by
  have hset : (v.set order.clientId fate).fate order.clientId = fate := by simp [Venue.set]
  refine h.extend [.submitted call order] rfl ?_ (by simp) ?_ ?_
  · exact fun _ hsettled => (hsettled.set hfate.isClosed).note
  · rintro _ outcome order' ⟨⟩ heq hfinal hawaits
    obtain rfl : answer = .ok outcome := by simpa using heq
    obtain rfl : order = order' := by
      rcases hawaits.request? with hsubmit | hstatus
      · simpa [hrequest] using hsubmit
      · simp [hrequest] at hstatus
    rw [← hset] at htells
    exact Venue.settled_note htells hfinal
  · intro clientId hhas
    by_cases heq : clientId = order.clientId
    · exact .inr ⟨call, order, rfl, heq.symm⟩
    · rw [Venue.note_fate] at hhas
      simp only [Venue.set, Function.update_of_ne heq] at hhas
      exact .inl hhas

theorem query {store : Store} {t : Transcript} {x : Executor σ} {call : Option ChangeEvent}
    {v : Venue} {clientId : String} {answer : Except Fault Order.Outcome}
    (h : Truthful ⟨⟨store, some ⟨x, call, none⟩, t⟩, v⟩)
    (hrequest : x.request? = some (.status clientId)) (htells : (v.fate clientId).Tells answer) :
    Truthful ⟨⟨store, some ⟨x, call, some (.answered answer)⟩, t⟩, v.note clientId answer⟩ := by
  refine h.extend [] (List.append_nil _).symm (fun _ hsettled => hsettled.note) (by simp) ?_ ?_
  · rintro _ outcome order ⟨⟩ heq hfinal hawaits
    obtain rfl : answer = .ok outcome := by simpa using heq
    obtain rfl : clientId = order.clientId := by
      rcases hawaits.request? with hsubmit | hstatus
      · simp [hrequest] at hsubmit
      · simpa [hrequest] using hstatus
    exact Venue.settled_note htells hfinal
  · intro clientId' hhas
    rw [Venue.note_fate] at hhas
    exact .inl hhas

theorem move {w : World σ} {v : Venue} {clientId : String} {fate : Fate} (h : Truthful ⟨w, v⟩)
    (hmoves : (v.fate clientId).Moves fate) : Truthful ⟨w, v.set clientId fate⟩ := by
  have hopen : (v.fate clientId).isClosed = true → fate.isClosed = true := by
    simp [hmoves.isClosed]
  refine h.extend [] (List.append_nil _).symm (fun _ hsettled => hsettled.set hopen) (by simp)
    (fun p outcome order hp hreply hfinal hawaits =>
      (h.reply p outcome order hp hreply hfinal hawaits).set hopen) ?_
  intro clientId' hhas
  by_cases heq : clientId' = clientId
  · subst clientId'
    refine .inl fun habsent => ?_
    rw [habsent] at hmoves
    cases hmoves
  · simp only [Venue.set, Function.update_of_ne heq] at hhas
    exact .inl hhas

theorem of_reachable (hreach : Reachable setup strategy d) : Truthful d := by
  induction hreach with
  | initial hnew => constructor <;> simp [Venue.initial]
  | step _ hstep ih =>
      cases hstep with
      | work hstep => exact ih.work hstep
      | submit hrequest _ hfate htells => exact ih.submit hrequest hfate htells
      | query hrequest _ htells => exact ih.query hrequest htells
      | move hmoves => exact ih.move hmoves

end Truthful

end Dealing

/-! ### Where orders stand -/

namespace Transcript

theorem Known.mem {t : Transcript} {order : Order} (h : Known order t) :
    ∃ outcome, Observation.answered order (.ok outcome) ∈ t ∧ outcome.isFinal = true := by
  obtain ⟨a, b, outcome, rfl, hfinal, -⟩ := h
  exact ⟨outcome, by simp, hfinal⟩

theorem Recorded.mem {t : Transcript} {order : Order} (h : Recorded order t) :
    ∃ outcome, Observation.answered order (.ok outcome) ∈ t ∧ outcome.isFinal = true := by
  obtain ⟨a, document, b, rfl, hknown⟩ := h
  obtain ⟨outcome, hmem, hfinal⟩ := hknown.mem
  exact ⟨outcome, List.mem_append_left _ hmem, hfinal⟩

end Transcript

namespace Dealing

open World (eager eagerSetup eagerEvent eagerMoment eagerOrder eagerMoment_valid)
open Transcript (Known Recorded Unresolved)

variable {σ : Type} {setup : Setup} {strategy : Strategy σ} {d : Dealing σ} {clientId : String}

/-- An order that the exchange has, or may still get, and never denied was handed in and is not
resolved, however the process came to see it. -/
theorem Truthful.unresolved (h : Truthful d) (hout : (d.venue.fate clientId).isOutstanding = true)
    (hasked : clientId ∉ d.venue.denied) :
    ∃ place order, order.clientId = clientId ∧ Unresolved d.world.transcript place order ∧
      ¬ Known order (d.world.transcript.drop (place + 1)) := by
  have hhas : d.venue.fate clientId ≠ .absent := by
    intro habsent
    rw [habsent] at hout
    contradiction
  obtain ⟨place, trigger, order, hplace, rfl⟩ := h.handed clientId hhas
  have hunheard : ∀ outcome,
      Observation.answered order (.ok outcome) ∈ d.world.transcript.drop (place + 1) →
        outcome.isFinal ≠ true := by
    intro outcome hmem hfinal
    rcases h.answers order outcome (List.mem_of_mem_drop hmem) hfinal with hclosed | hdenied
    · cases hfate : d.venue.fate order.clientId <;> simp_all [Fate.isOutstanding, Fate.isClosed]
    · exact hasked hdenied
  refine ⟨place, order, rfl, ⟨trigger, hplace, fun hrecorded => ?_⟩, fun hknown => ?_⟩
  · obtain ⟨outcome, hmem, hfinal⟩ := hrecorded.mem
    exact hunheard outcome hmem hfinal
  · obtain ⟨outcome, hmem, hfinal⟩ := hknown.mem
    exact hunheard outcome hmem hfinal

/-- An order that the exchange has, or may still get, is the pending one, unless the exchange was
asked for it and did not know it; and the same goes for all orders when the next one is handed
in. -/
theorem live_order_is_pending (hreach : Reachable setup strategy d) :
    (∀ clientId, (d.venue.fate clientId).isOutstanding = true → clientId ∉ d.venue.denied →
      ∃ order, order.clientId = clientId ∧
        (∃ document p, d.world.document? setup = some document ∧
          Portfolio.read? document = some p ∧ p.pending = some order) ∧
        ∀ p, d.world.process = some p → p.executor.state.pending = some order) ∧
    ∀ p order, d.world.process = some p → p.reply = none →
      p.executor.request? = some (.submit order) →
      ∀ clientId, (d.venue.fate clientId).isOutstanding = true → clientId ∈ d.venue.denied := by
  obtain ⟨hsteps, -⟩ := hreach.world.outline
  have hahead := WriteAhead.of_steps hsteps
  have htruth := Truthful.of_reachable hreach
  constructor
  · intro clientId hout hasked
    obtain ⟨place, order, hid, hun, hunknown⟩ := htruth.unresolved hout hasked
    refine ⟨order, hid, ?_, ?_⟩
    · obtain ⟨p, hstored, hpending⟩ := hahead.stored place order hun
      obtain ⟨document, hdocument, hread⟩ := Option.bind_eq_some_iff.mp hstored
      exact ⟨document, p, hdocument, hread, hpending⟩
    · intro p hp
      have hposture : (d.world.outline setup).posture =
          some ⟨p.executor.state, p.executor.aimWith p.reply, p.call⟩ := by
        simp [World.outline, hp]
      rcases hahead.memory _ hposture place order hun with hknown | hpending
      · exact absurd hknown hunknown
      · exact hpending
  · intro p order hp hreply hrequest clientId hout
    by_contra hasked
    obtain ⟨place, order', -, hun, -⟩ := htruth.unresolved hout hasked
    have hstage : p.executor.stage = .submitting order := stage_of_submit hrequest
    have hposture : (d.world.outline setup).posture =
        some ⟨p.executor.state, .placing order, p.call⟩ := by
      simp [World.outline, hp, aimWith, hreply, hstage, Stage.aim]
    exact hahead.placing _ order hposture rfl place order' hun

/-! ### An order that is overtaken -/

def nextEvent : ChangeEvent :=
  { collection := Collection.quotes "btc", documentId := "quote", sequence := 2 }

def nextMoment : Moment := { eagerMoment with freshId := "second" }

def nextOrder : Order := { eagerOrder with clientId := "second" }

/-- The gateway gives up on the first order, which is on its way. -/
theorem Reachable.overdue :
    ∃ store announced t, store.failures = 0 ∧
      Reachable eagerSetup eager ⟨⟨store, some ⟨⟨eagerSetup, eager, (),
          World.placingState "alpha" eagerEvent eagerOrder eagerMoment.now,
          .submitting eagerOrder, announced⟩, some eagerEvent,
          some (.answered (.error (.gateway "operation timed out" true)))⟩, t⟩,
        Venue.initial.set "first" .travelling⟩ := by
  have hwatched : eagerEvent.collection ∈ eagerSetup.watched := by
    simp [Setup.watched, eagerEvent, eagerSetup]
  have horder : eagerOrder = Order.ofTrade "alpha" "btc" eagerMoment.freshId
      { side := .buy, size := Decimal.one, limit := none, reason := "change" }
      eagerMoment.now := rfl
  obtain ⟨store, announced, hfailures, -, hsteps⟩ :=
    World.QuietSteps.first_order eagerSetup eager () () { asset := "btc", trigger := eagerEvent }
      hwatched (by decide) eagerMoment_valid rfl horder
  have hplacing := (Reachable.initial rfl).quietSteps hsteps
  have hsubmitted := hplacing.step (.submit rfl (by simp [ValidAnswer])
    (.fresh .travelling) (.nothing .travelling (.gateway "operation timed out" true)))
  exact ⟨store, announced, _, hfailures, hsubmitted⟩

def releasingState : Portfolio :=
  { World.placingState "alpha" eagerEvent eagerOrder eagerMoment.now with
    pending := none, phase := .idle }

/-- The query for the first order overtakes it. -/
theorem Reachable.overtaken :
    ∃ store announced t, store.failures = 0 ∧
      Reachable eagerSetup eager ⟨⟨store, some ⟨⟨eagerSetup, eager, (), releasingState,
          .ready (.ok ()), announced⟩, some eagerEvent, none⟩, t⟩,
        (Venue.initial.set "first" .travelling).note "first" (.ok .unknown)⟩ := by
  obtain ⟨store, announced, t, hfailures, hreach⟩ := Reachable.overdue
  have hpausing := hreach.step (.work ⟨.resume (m := eagerMoment) eagerMoment_valid, by
    simp [World.reply?]⟩)
  have hwoken := hpausing.step (.work ⟨.ask rfl (.paused _ false), by simp [World.reply?]⟩)
  have hquerying := hwoken.step (.work ⟨.resume (m := eagerMoment) eagerMoment_valid, by
    simp [World.reply?]⟩)
  have hdenied := hquerying.step (.query rfl (by simp [ValidAnswer]) .travelling)
  have hdismissed := hdenied.step (.work ⟨.resume (m := eagerMoment) eagerMoment_valid, by
    simp [World.reply?]⟩)
  obtain ⟨store', hwrite, hfailures'⟩ :=
    Store.upsert_of_failures_eq_zero hfailures Collection.states "alpha" _
  have hstored := hdismissed.step (.work ⟨.ask rfl (.saved hwrite), by simp [World.reply?]⟩)
  have hrest := hstored.step (.work ⟨.resume (m := eagerMoment) eagerMoment_valid, by
    simp [World.reply?]⟩)
  exact ⟨store', _, _, hfailures', hrest⟩

theorem releasingState_hasEvaluated : releasingState.hasEvaluated nextEvent = false := by
  decide

/-- The portfolio then hands in the next order. -/
theorem Reachable.superseded :
    ∃ w p, Reachable eagerSetup eager
        ⟨w, (Venue.initial.set "first" .travelling).note "first" (.ok .unknown)⟩ ∧
      w.process = some p ∧ p.executor.stage = .submitting nextOrder ∧ p.reply = none ∧
      p.executor.state.pending = some nextOrder := by
  obtain ⟨store, announced, t, hfailures, hreach⟩ := Reachable.overtaken
  have hwatched : nextEvent.collection ∈ eagerSetup.watched := by
    simp [Setup.watched, nextEvent, eagerSetup]
  have horder : nextOrder = Order.ofTrade "alpha" "btc" nextMoment.freshId
      { side := .buy, size := Decimal.one, limit := none, reason := "change" }
      nextMoment.now := rfl
  have hnow : nextMoment.now.Valid := eagerMoment_valid
  obtain ⟨store', announced', -, -, hsteps⟩ := World.ViewingSteps.place eager
    ⟨eagerSetup, eager, (), releasingState, .ready (.ok ()), announced⟩ store t
    (some eagerEvent) { asset := "btc", trigger := nextEvent } rfl rfl rfl
    releasingState_hasEvaluated hwatched (by decide) hnow hfailures rfl horder
  exact ⟨_, _, hreach.quietSteps hsteps.quiet, rfl, rfl, rfl, rfl⟩

/-- The first order is accepted once it is forgotten and the next one is about to be handed in. -/
theorem late_acceptance_is_forgotten :
    ∃ d d' p, Reachable eagerSetup eager d ∧ Step eagerSetup eager d d' ∧
      d.world.process = some p ∧ d'.world.process = some p ∧
      p.executor.request? = some (.submit nextOrder) ∧ p.reply = none ∧
      p.executor.state.pending = some nextOrder ∧ nextOrder.clientId ≠ "first" ∧
      d.venue.fate "first" = .travelling ∧ d'.venue.fate "first" = .live := by
  obtain ⟨w, p, hreach, hp, hstage, hreply, hpending⟩ := Reachable.superseded
  have htravelling : ((Venue.initial.set "first" .travelling).note "first" (.ok .unknown)).fate
      "first" = .travelling := by
    simp [Venue.set]
  have haccept := Fate.Moves.accept
  rw [← htravelling] at haccept
  refine ⟨_, _, p, hreach, .move haccept, hp, hp, ?_, hreply, hpending, by decide, htravelling, ?_⟩
  · rw [request?, hstage]
  · simp [Venue.set]

/-- An order on which the gateway has given up is the pending one. -/
theorem overdue_order_is_pending :
    ∃ d, Reachable eagerSetup eager d ∧ d.venue.fate "first" = .travelling ∧
      "first" ∉ d.venue.denied ∧
      ∃ order, order.clientId = "first" ∧
        (∃ document p, d.world.document? eagerSetup = some document ∧
          Portfolio.read? document = some p ∧ p.pending = some order) ∧
        ∀ p, d.world.process = some p → p.executor.state.pending = some order := by
  obtain ⟨store, announced, t, -, hreach⟩ := Reachable.overdue
  have htravelling : (Venue.initial.set "first" .travelling).fate "first" = .travelling := by
    simp [Venue.set]
  have hasked : "first" ∉ (Venue.initial.set "first" .travelling).denied := by
    simp [Venue.set, Venue.initial]
  refine ⟨_, hreach, htravelling, hasked, ?_⟩
  refine (live_order_is_pending hreach).1 "first" ?_ hasked
  rw [htravelling]
  rfl

end Dealing

end Executor
end TradingDesk

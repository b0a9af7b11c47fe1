import TradingDesk.Proofs.Trading.Pipeline
/-!
# Every commit is evaluated once and in order

An event that leaves the queue of an executor is the next of its collection, so that the executor
has not evaluated it yet; it stays in the executor's hands until the strategy is called with it. So
what the strategy was called with, what is in hand and what is queued are together what the watchers
have told, collection by collection.
-/

namespace TradingDesk
namespace Pipeline

open Watcher (Queues Polling)
open Executor (Request Reply Served)
open Executor.World (eager eagerSetup eagerEvent eagerMoment eagerMoment_valid)

variable {σ : Type} {plan : Plan σ}

/-- No sequence is noted in a portfolio beyond what its strategy was called with. -/
def Covers (plan : Plan σ) (i : Nat) (evaluated : List ChangeEvent) (p : Portfolio) : Prop :=
  ∀ collection start n, plan.start? collection i = some start →
    p.lastEvaluated? collection = some n →
    n ≤ start + (evaluated.filter (·.collection = collection)).length

namespace Covers

variable {i : Nat} {evaluated : List ChangeEvent} {p p' : Portfolio}

theorem of_eq (h : Covers plan i evaluated p) (heq : p'.evaluated = p.evaluated)
    (more : List ChangeEvent) : Covers plan i (evaluated ++ more) p' := by
  intro collection start n hstart hlast
  unfold Portfolio.lastEvaluated? at hlast
  rw [heq] at hlast
  have hle := h collection start n hstart hlast
  rw [List.filter_append, List.length_append]
  omega

theorem mark (h : Covers plan i evaluated p) {e : ChangeEvent}
    (heq : p'.evaluated = (p.markEvaluated e).evaluated)
    (hsequence : ∃ start, plan.start? e.collection i = some start ∧
      e.sequence = start + (evaluated.filter (·.collection = e.collection)).length + 1) :
    Covers plan i (evaluated ++ [e]) p' := by
  intro collection start n hstart hlast
  have hread : (p.markEvaluated e).lastEvaluated? collection = some n := by
    rw [← hlast, Portfolio.lastEvaluated?, Portfolio.lastEvaluated?, heq]
  rw [Portfolio.lastEvaluated?_markEvaluated] at hread
  by_cases hmine : collection = e.collection
  · subst collection
    obtain ⟨start', hstart', hnumber⟩ := hsequence
    obtain rfl : start = start' := Option.some.inj (hstart.symm.trans hstart')
    rw [if_pos rfl, Option.some.injEq] at hread
    have hold : (p.lastEvaluated? e.collection).getD 0 ≤
        start + (evaluated.filter (·.collection = e.collection)).length := by
      cases hbefore : p.lastEvaluated? e.collection with
      | none => exact Nat.zero_le _
      | some k => exact h e.collection start k hstart hbefore
    simp only [List.filter_append, List.length_append, List.filter_cons, decide_true,
      List.filter_nil, if_true, List.length_singleton]
    omega
  · rw [if_neg hmine] at hread
    have hle := h collection start n hstart hread
    rw [List.filter_append, List.length_append]
    omega

/-- An event whose sequence follows on the evaluated ones is new. -/
theorem hasEvaluated_eq_false (h : Covers plan i evaluated p) {e : ChangeEvent} {start : Nat}
    (hstart : plan.start? e.collection i = some start)
    (hsequence : e.sequence =
      start + (evaluated.filter (·.collection = e.collection)).length + 1) :
    p.hasEvaluated e = false := by
  by_contra hold
  obtain ⟨n, hlast, hle⟩ := Portfolio.hasEvaluated_iff.mp (by simpa using hold)
  have hmark := h e.collection start n hstart hlast
  omega

end Covers

/-- How an executor with a queue stands, after `left` has left its queue and its strategy was called
with `evaluated`. -/
structure Employed (plan : Plan σ) (i : Nat) (t : Trader σ) (p : Worker σ)
    (left evaluated : List ChangeEvent) : Prop where
  setup : p.executor.setup = t.executor.setup
  unstarted : p.started = false → left = [] ∧ evaluated = []
  direct : p.started = true → p.executor.Direct
  reply : ∀ r, p.reply = some r → r.IsFair ∧ p.executor.request? ≠ none
  inOrder : evaluated ++ p.executor.stage.inHand.toList <+: left
  complete : p.executor.state.phase ≠ .failed → p.executor.stage ≠ .overflown →
    left = evaluated ++ p.executor.stage.inHand.toList
  covers : Covers plan i evaluated p.executor.state

namespace Employed

variable {i : Nat} {t : Trader σ} {x : Executor σ} {left evaluated : List ChangeEvent} {m : Moment}

theorem initial (ht : plan.traders[i]? = some t) :
    Employed plan i t ⟨t.executor, false, none⟩ [] [] := by
  obtain ⟨result, hready⟩ := plan.ready t (List.mem_of_getElem? ht)
  have hhand : t.executor.stage.inHand = none := by rw [hready]; rfl
  constructor
  case setup =>
    rfl
  case unstarted =>
    exact fun _ => ⟨rfl, rfl⟩
  case direct =>
    rintro ⟨⟩
  case reply =>
    rintro _ ⟨⟩
  case inOrder =>
    simp [hhand]
  case complete =>
    simp [hhand]
  case covers =>
    intro collection start n hstart hlast
    obtain ⟨t', ht', -, rfl⟩ := World.start?_eq_some.mp hstart
    obtain rfl : t = t' := Option.some.inj (ht.symm.trans ht')
    have hresume : t.executor.resumeSequence? collection = some n := hlast
    simp [Trader.startIn, hresume]

theorem begin (h : Employed plan i t ⟨x, false, none⟩ left evaluated) :
    Employed plan i t ⟨x.recover m, true, none⟩ left evaluated := by
  have hgoes : Executor.Goes x (x.recover m) none := Executor.Goes.recover
  obtain ⟨rfl, rfl⟩ := h.unstarted rfl
  refine ⟨hgoes.setup.trans h.setup, by simp, fun _ => hgoes.direct, by simp, ?_, ?_, ?_⟩
  · simp [hgoes.inHand]
  · simp [hgoes.inHand]
  · exact h.covers.of_eq hgoes.evaluated []

/-- The event that is taken is new to an executor that is idle. -/
theorem take (h : Employed plan i t ⟨x, true, none⟩ left evaluated)
    {result : Except Fault Unit} (hready : x.stage = .ready result) {e : ChangeEvent}
    (hwatched : e.collection ∈ t.executor.setup.watched) {start : Nat}
    (hstart : plan.start? e.collection i = some start)
    (hsequence : e.sequence =
      start + (left.filter (·.collection = e.collection)).length + 1) :
    Employed plan i t ⟨x.handle e m, true, none⟩ (left ++ [e]) evaluated := by
  have hhand : x.stage.inHand = none := by rw [hready]; rfl
  have hx : x.Direct := h.direct rfl
  have hphase : x.state.phase = .idle ∨ x.state.phase = .failed := by
    have hstage := hx.stage
    rwa [hready] at hstage
  have hinOrder := h.inOrder
  simp only [hhand, Option.toList_none, List.append_nil] at hinOrder
  rcases hphase with hidle | hfailed
  · have hrunning : x.stage ≠ .overflown := by simp [hready]
    have hcomplete : left = evaluated := by
      simpa [hhand] using h.complete (by simp [hidle]) hrunning
    have hnew : x.state.hasEvaluated e = false := by
      rw [hcomplete] at hsequence
      exact h.covers.hasEvaluated_eq_false hstart hsequence
    rw [← h.setup] at hwatched
    have hgoes : Executor.Goes x (x.handle e m) (some e) :=
      Executor.Goes.handle hwatched hidle hnew
    refine ⟨hgoes.setup.trans h.setup, by simp, fun _ => hgoes.direct, by simp, ?_, ?_, ?_⟩
    · simp [hgoes.inHand, hcomplete]
    · simp [hgoes.inHand, hcomplete]
    · have hcovers := h.covers.of_eq hgoes.evaluated []
      simpa using hcovers
  · have hgoes : Executor.Goes x (x.handle e m) none :=
      Executor.Goes.handle_of_failed hfailed e
    refine ⟨hgoes.setup.trans h.setup, by simp, fun _ => hgoes.direct, by simp, ?_, ?_, ?_⟩
    · simp only [hgoes.inHand, Option.toList_none, List.append_nil]
      exact hinOrder.trans (List.prefix_append left [e])
    · intro hnot
      simp only [Executor.handle_of_failed hfailed] at hnot
      exact absurd hfailed hnot
    · have hcovers := h.covers.of_eq hgoes.evaluated []
      simpa using hcovers

theorem ask (h : Employed plan i t ⟨x, true, none⟩ left evaluated) {request : Request}
    {reply : Reply} (hrequest : x.request? = some request) (hfair : reply.IsFair) :
    Employed plan i t ⟨x, true, some reply⟩ left evaluated := by
  refine ⟨h.setup, by simp, fun _ => h.direct rfl, ?_, h.inOrder, h.complete, h.covers⟩
  rintro _ ⟨⟩
  exact ⟨hfair, by simp [hrequest]⟩

theorem judge {reply : Reply} (h : Employed plan i t ⟨x, true, some reply⟩ left evaluated)
    {e : ChangeEvent} (hjudged : x.judged? reply = some e)
    (hsequence : ∃ start, plan.start? e.collection i = some start ∧
      e.sequence = start + (evaluated.filter (·.collection = e.collection)).length + 1) :
    Employed plan i t ⟨x.resume reply m, true, none⟩ left (evaluated ++ [e]) := by
  have hx : x.Direct := h.direct rfl
  obtain ⟨hstage, hdirect, hsetup, hhand, hnoted⟩ := hx.resume_judged (m := m) hjudged
  have hinHand : x.stage.inHand = some e := by rw [hstage]; rfl
  have hphase : x.state.phase = .evaluating := by
    have horderly := hx.orderly
    rw [Executor.Orderly, hstage] at horderly
    exact horderly
  have hinOrder := h.inOrder
  have hcomplete := h.complete (by simp [hphase]) (by simp [hstage])
  simp only [hinHand, Option.toList_some] at hinOrder hcomplete
  refine ⟨hsetup.trans h.setup, by simp, fun _ => hdirect, by simp, ?_, ?_, ?_⟩
  · simpa [hhand] using hinOrder
  · simpa [hhand] using fun _ _ => hcomplete
  · rcases hnoted with hsame | hmarked
    · exact h.covers.of_eq hsame [e]
    · exact h.covers.mark hmarked hsequence

theorem resume {reply : Reply} (h : Employed plan i t ⟨x, true, some reply⟩ left evaluated)
    (hnone : x.judged? reply = none) :
    Employed plan i t ⟨x.resume reply m, true, none⟩ left evaluated := by
  have hx : x.Direct := h.direct rfl
  obtain ⟨hfair, hrequest⟩ := h.reply reply rfl
  have hgoes := hx.resume (m := m) hfair hnone
  refine ⟨hgoes.setup.trans h.setup, by simp, fun _ => hgoes.direct, by simp, ?_, ?_, ?_⟩
  · simp only [hgoes.inHand]
    exact h.inOrder
  · intro hphase hrunning
    simp only [hgoes.inHand]
    refine h.complete (fun hfailed => hphase ?_) (fun hbroken => hrequest ?_)
    · have hstate := hx.orderly.resume_state (m := m) hfailed reply
      simp only [hstate]
      exact hfailed
    · simp only at hbroken
      rw [Executor.request?, hbroken]
  · have hcovers := h.covers.of_eq hgoes.evaluated []
    simpa using hcovers

theorem leave (h : Employed plan i t ⟨x, true, none⟩ left evaluated)
    (hbroken : x.stage = .overflown) (dropped : List ChangeEvent) :
    Employed plan i t ⟨x, true, none⟩ (left ++ dropped) evaluated := by
  refine ⟨h.setup, by simp, h.direct, by simp, ?_, ?_, h.covers⟩
  · exact h.inOrder.trans (List.prefix_append left dropped)
  · exact fun _ hrunning => absurd hbroken hrunning

end Employed

namespace World

variable {w w' : World σ}

/-! ### The invariant -/

def Staffed (plan : Plan σ) (w : World σ) : Prop :=
  ∀ i t p, plan.traders[i]? = some t → w.workers[i]? = some p →
    Employed plan i t p (w.left i) (w.evaluated i)

def Readable (plan : Plan σ) (w : World σ) : Prop :=
  ∀ t ∈ plan.traders, MarketView.Readable w.store t.executor.setup.asset

theorem Readable.before (h : w'.Readable plan) (hstep : Step plan w w') : w.Readable plan :=
  fun t ht => hstep.extends.readable (h t ht)

theorem staffed_initial (plan : Plan σ) : (initial plan).Staffed plan := by
  intro i t p ht hp
  have hworkers : (initial plan).workers[i]? = some ⟨t.executor, false, none⟩ := by
    simp [initial, ht]
  obtain rfl := Option.some.inj (hworkers.symm.trans hp)
  exact Employed.initial ht

/-- One executor goes on, and the others stay as they are. -/
theorem Staffed.change (h : w.Staffed plan) {i : Nat} {p p' : Worker σ}
    (hworker : w.workers[i]? = some p) (hworkers : w'.workers = w.workers.set i p')
    (hleft : ∀ j, j ≠ i → w'.left j = w.left j)
    (hevaluated : ∀ j, j ≠ i → w'.evaluated j = w.evaluated j)
    (hemployed : ∀ t, plan.traders[i]? = some t →
      Employed plan i t p (w.left i) (w.evaluated i) →
      Employed plan i t p' (w'.left i) (w'.evaluated i)) : w'.Staffed plan := by
  intro j t q ht hq
  rw [hworkers] at hq
  by_cases hij : j = i
  · subst j
    rw [List.getElem?_set_self (List.getElem?_eq_some_iff.mp hworker).1] at hq
    obtain rfl := Option.some.inj hq
    exact hemployed t ht (h i t p ht hworker)
  · rw [List.getElem?_set_ne (Ne.symm hij)] at hq
    rw [hleft j hij, hevaluated j hij]
    exact h j t q ht hq

/-- A reply is fair when the market can be read. -/
theorem fair_of_served {asset portfolio : String} {store store' : Store} {request : Request}
    {reply : Reply} {seen : Executor.Transcript}
    (hserved : Served portfolio none store request reply store' seen)
    (hreadable : MarketView.Readable store asset)
    (hview : ∀ event view, request = .view event → reply = .viewed view →
      ∃ past : Store, past.Extends store ∧ view = MarketView.ofStore past asset event)
    (hcalm : reply ≠ .woke true) : reply.IsFair := by
  cases hserved with
  | viewed event view =>
      obtain ⟨past, hpast, rfl⟩ := hview event view rfl rfl
      exact (hpast.readable hreadable).ofStore event
  | slept delay shutdown | paused delay shutdown =>
      cases shutdown with
      | false => rfl
      | true => exact absurd rfl hcalm
  | _ => trivial

theorem Staffed.step (h : w.Staffed plan) (hwatched : w.Watched plan)
    (hreadable : w.Readable plan) (hstep : Step plan w w') : w'.Staffed plan := by
  cases hstep with
  | append | failWrites | poll => exact h
  | begin m hworker =>
      exact h.change hworker rfl (fun _ _ => rfl) (fun _ _ => rfl) fun t _ hp => hp.begin
  | @take i x result e q m hworker hready hpop =>
      refine h.change hworker rfl (fun j hij => Function.update_of_ne hij _ _) (fun _ _ => rfl) ?_
      intro t ht hp
      obtain ⟨-, hevents⟩ := Watcher.pop?_eq_some hpop
      have hnext : w.left i ++ (Queues.get w.queues i).events = w.left i ++ e :: q.events := by
        rw [hevents]
      obtain ⟨start, hstart, hsequence⟩ := hwatched.sequence_eq hnext
      obtain ⟨t', ht', hmine, -⟩ := start?_eq_some.mp hstart
      obtain rfl : t = t' := Option.some.inj (ht.symm.trans ht')
      simp only [Function.update_self]
      exact hp.take hready hmine hstart hsequence
  | ask hworker hrequest hserved hview hcalm =>
      refine h.change hworker rfl (fun _ _ => rfl) (fun _ _ => rfl) ?_
      intro t ht hp
      have hmarket := hreadable t (List.mem_of_getElem? ht)
      rw [← hp.setup] at hmarket
      exact hp.ask hrequest (fair_of_served hserved hmarket hview hcalm)
  | @resume i x reply m hworker =>
      refine h.change hworker rfl (fun _ _ => rfl)
        (fun j hij => Function.update_of_ne hij _ _) ?_
      intro t ht hp
      simp only [Function.update_self]
      cases hjudged : x.judged? reply with
      | none =>
          rw [Option.toList_none, List.append_nil]
          exact hp.resume hjudged
      | some e =>
          have hx : x.Direct := hp.direct rfl
          have hhand : x.stage.inHand = some e := by
            rw [(hx.resume_judged (m := m) hjudged).1]
            rfl
          -- what is in hand left the queue right behind the evaluated events
          obtain ⟨rest, hrest⟩ := hp.inOrder
          simp only [hhand, Option.toList_some] at hrest
          have hnext : w.left i ++ (Queues.get w.queues i).events =
              w.evaluated i ++ e :: (rest ++ (Queues.get w.queues i).events) := by
            rw [← hrest]
            simp
          exact hp.judge hjudged (hwatched.sequence_eq hnext)
  | @leave i x hworker hbroken =>
      have hsame : w.workers = w.workers.set i ⟨x, true, none⟩ := by
        obtain ⟨hlt, hget⟩ := List.getElem?_eq_some_iff.mp hworker
        rw [← hget, List.set_getElem_self]
      refine h.change hworker hsame (fun j hij => Function.update_of_ne hij _ _) (fun _ _ => rfl) ?_
      intro t _ hp
      simp only [Function.update_self]
      exact hp.leave hbroken _

theorem Reachable.staffed (hreach : Reachable plan w) (hreadable : w.Readable plan) :
    w.Staffed plan := by
  induction hreach with
  | initial => exact staffed_initial plan
  | step hreach hstep ih =>
      have hbefore := hreadable.before hstep
      exact (ih hbefore).step hreach.watched hbefore hstep

/-- As long as nobody asks for a shutdown and the records of the markets can be read, the strategy
of each executor is called, for each collection that it follows, with the documents behind its start
one after the other; and as long as its portfolio has not failed, what it was called with, what is
in its hands and what is queued are together all that its watcher has told it. -/
theorem commits_are_evaluated_in_order (hreach : Reachable plan w) (hreadable : w.Readable plan)
    {i : Nat} {t : Trader σ} (ht : plan.traders[i]? = some t) {collection : String}
    (hwatched : collection ∈ t.executor.setup.watched) :
    (∃ n, ((w.evaluated i).filter (·.collection = collection)).map (·.sequence) =
      List.range' (t.startIn plan.store collection + 1) n) ∧
    (∀ e ∈ w.evaluated i, e.collection = collection →
      ∃ d ∈ w.store.documents collection, d.event = e) ∧
    ∃ p post, w.workers[i]? = some p ∧ w.posts collection = some post ∧
      (p.executor.state.phase ≠ .failed → p.executor.stage ≠ .overflown →
        ∀ s ∈ (w.facing plan collection post).subscribers, s.queue = i →
          ((w.evaluated i ++ p.executor.stage.inHand.toList ++
            (Queues.get w.queues i).events).filter (·.collection = collection)).map (·.sequence) =
            List.range' (t.startIn plan.store collection + 1)
              (s.cursor - t.startIn plan.store collection)) := by
  have hseen := hreach.watched
  have hstart : plan.start? collection i = some (t.startIn plan.store collection) :=
    start?_eq_some.mpr ⟨t, ht, hwatched, rfl⟩
  obtain ⟨post, hpost⟩ := hseen.posts collection i _ hstart
  obtain ⟨hcollection, hexact⟩ := hseen.exact collection post hpost
  have hlt : i < w.workers.length := by
    rw [hreach.workers_length]
    exact (List.getElem?_eq_some_iff.mp ht).1
  have hworker := List.getElem?_eq_getElem hlt
  have hp := hreach.staffed hreadable i t _ ht hworker
  have hbegins : w.evaluated i <+: w.left i ++ (Queues.get w.queues i).events :=
    ((List.prefix_append _ _).trans hp.inOrder).trans (List.prefix_append _ _)
  have htold : (w.facing plan collection post).told i =
      (w.left i ++ (Queues.get w.queues i).events).filter (·.collection = collection) := by
    rw [← hcollection]
    rfl
  refine ⟨⟨_, hseen.sequences_eq hstart hbegins⟩, ?_, _, post, hworker, hpost, ?_⟩
  · intro e he heq
    refine hexact.events i e ?_
    rw [htold, List.mem_filter]
    exact ⟨hbegins.subset he, by simpa using heq⟩
  · intro hphase hrunning s hs hqueue
    subst i
    obtain ⟨start, hstart', hcursor⟩ := hexact.cursors s hs
    obtain rfl := Option.some.inj (hstart.symm.trans hstart')
    rw [← hp.complete hphase hrunning, ← htold, hexact.told s.queue _ hstart, hcursor,
      Nat.add_sub_cancel_left]

theorem withWorker_self {i : Nat} {p : Worker σ} (hworker : w.workers[i]? = some p)
    (p' : Worker σ) : (w.withWorker i p').workers[i]? = some p' :=
  List.getElem?_set_self (List.getElem?_eq_some_iff.mp hworker).1

/-! The first order of a portfolio, from the commit to the evaluation. -/

def eagerTrader : Trader Unit where
  executor := ⟨eagerSetup, eager, (), Portfolio.new "alpha" eagerMoment.now, .ready (.ok ()), []⟩
  mode := .paper

def eagerPlan : Plan Unit where
  store := {}
  traders := [eagerTrader]
  settings := {}
  batch := 5
  numbered := Store.numbered_empty
  ready := by simp [eagerTrader]

def eagerQuote : Quote where
  asset := "btc"
  bidPrice := Decimal.one
  bidSize := Decimal.one
  askPrice := Decimal.two
  askSize := Decimal.one
  exchangeTime := eagerMoment.now
  receivedTime := eagerMoment.now

def eagerDocument : Document where
  collection := Collection.quotes "btc"
  sequence := 1
  id := "quote"
  body := eagerQuote.toJson
  committedAt := eagerMoment.now

def eagerStore : Store := ({} : Store).commit eagerDocument

theorem eagerStore_documents (c : String) :
    eagerStore.documents c = if c = Collection.quotes "btc" then [eagerDocument] else [] :=
  Store.documents_commit {} eagerDocument c

theorem eagerStore_readable : MarketView.Readable eagerStore "btc" := by
  constructor
  · intro d hd
    rw [eagerStore_documents, if_pos rfl, List.mem_singleton] at hd
    subst d
    exact ⟨eagerQuote, Quote.read?_toJson eagerMoment_valid eagerMoment_valid⟩
  · intro level d hd
    have hne : Collection.books "btc" level ≠ Collection.quotes "btc" := by
      cases level <;> simp [Collection.books, Collection.quotes, Book.Level.family]
    rw [eagerStore_documents, if_neg hne] at hd
    contradiction

theorem eager_followers :
    Watchers.followers {} (Collection.quotes "btc") [eagerTrader].zipIdx = [⟨0, 0⟩] := by
  have hwatched : eagerTrader.executor.setup.watched.contains (Collection.quotes "btc") = true := by
    simp [eagerTrader, eagerSetup, Executor.Setup.watched]
  have hstart : eagerTrader.startIn {} (Collection.quotes "btc") = 0 := rfl
  simp only [Watchers.followers, List.zipIdx_cons, List.zipIdx_nil, List.filter_cons, hwatched,
    if_true, List.filter_nil, List.map_cons, List.map_nil, hstart]

theorem eager_poll {watcher : Watcher} (hbatch : watcher.batch = 5)
    (hsubscribers : watcher.subscribers = [⟨0, 0⟩]) :
    (Queues.get (watcher.poll (fun (_ : Unit) after limit =>
      (.ok (eagerStore.after (Collection.quotes "btc") after limit), ()))
      (queuesFor {} [eagerTrader]) ()).2.queues 0).events = [eagerEvent] := by
  have hafter : eagerStore.after (Collection.quotes "btc") 0 5 = [eagerDocument] := by
    rw [Store.after, eagerStore_documents, if_pos rfl]
    rfl
  unfold Watcher.poll
  rw [hsubscribers, hbatch]
  simp only [Watcher.pollEach, hafter]
  rfl

/-- The watcher of the quotes tells the executor of the first one. -/
theorem Reachable.eager_told :
    ∃ w, Reachable eagerPlan w ∧ w.store = eagerStore ∧
      w.workers = [⟨eagerTrader.executor.done, true, none⟩] ∧
      (Queues.get w.queues 0).events = [eagerEvent] ∧ w.evaluated 0 = [] := by
  have hbegun : Reachable eagerPlan _ := Reachable.initial.step (.begin (i := 0) eagerMoment rfl)
  have happended := hbegun.step
    (.append (Collection.quotes "btc") "quote" eagerQuote.toJson eagerMoment.now)
  have hmem : (⟨0, 0⟩ : Subscriber) ∈
      Watchers.followers {} (Collection.quotes "btc") [eagerTrader].zipIdx := by
    rw [eager_followers]
    exact List.mem_cons_self
  rcases Watchers.serves_wire {} 5 [eagerTrader] (Collection.quotes "btc") with
    ⟨-, hnone⟩ | ⟨watcher, hget, -, hbatch, hsubscribers⟩
  · rw [hnone] at hmem
    contradiction
  · rw [eager_followers] at hsubscribers
    have hpost : (World.initial eagerPlan).posts (Collection.quotes "btc") =
        some ⟨watcher, none⟩ := by
      simp [World.initial, eagerPlan, hget]
    have hpolled := happended.steps
      (happended.watched.poll_steps (Collection.quotes "btc") hpost rfl)
    exact ⟨_, hpolled, rfl, rfl, eager_poll hbatch hsubscribers, rfl⟩

/-- An idle executor that has an event in its queue can come to evaluate it: it stores that it is at
it and looks at the market. -/
theorem Reachable.judge_next (hreach : Reachable plan w) {i : Nat} {x : Executor σ}
    {result : Except Fault Unit} {e : ChangeEvent} {rest : List ChangeEvent} (m : Moment)
    (hworker : w.workers[i]? = some ⟨x, true, none⟩) (hready : x.stage = .ready result)
    (hevents : (Queues.get w.queues i).events = e :: rest) (hidle : x.state.phase = .idle)
    (hnew : x.state.hasEvaluated e = false) (hwatched : e.collection ∈ x.setup.watched)
    (hfailures : w.store.failures = 0) (hreadable : MarketView.Readable w.store x.setup.asset) :
    ∃ w', Reachable plan w' ∧ w'.store.Extends w.store ∧
      w'.evaluated i = w.evaluated i ++ [e] := by
  have hpop : (Queues.get w.queues i).pop? =
      some (e, { Queues.get w.queues i with events := rest }) := by
    unfold Queue.pop?
    rw [hevents]
  have htaken := hreach.step (.take m hworker hready hpop)
  rw [Executor.World.handle_of_idle m hidle hnew hwatched] at htaken
  let saving : Executor σ := { x with
    state := Executor.World.judging x.state m.now
    stage := .saving .idle (Backoff.start x.setup.settings.storeRetry) (.evaluate e) }
  let viewing : Executor σ := saving.resume (.saved (.ok ())) m
  have hsaving := withWorker_self hworker ⟨saving, true, none⟩
  obtain ⟨store', hwrite, -⟩ := Store.upsert_of_failures_eq_zero hfailures Collection.states
    x.setup.portfolio saving.document
  have hstored := htaken.step (.ask hsaving rfl (.saved hwrite) (by rintro _ _ ⟨⟩) (by rintro ⟨⟩))
  have hsaved := withWorker_self hsaving ⟨saving, true, some (.saved (.ok ()))⟩
  have hlooking := hstored.step (.resume m hsaved)
  have hkept : ∀ c, store'.documents c = w.store.documents c := by
    intro c
    have hsame := w.store.documents_upsert Collection.states x.setup.portfolio
      saving.document c
    rwa [hwrite] at hsame
  have hextends : store'.Extends w.store := fun c => by rw [hkept]
  obtain ⟨view, hview⟩ := (hextends.readable hreadable).ofStore e
  have hviewing := withWorker_self hsaved ⟨viewing, true, none⟩
  have hseen := hlooking.step (.ask hviewing rfl (.viewed e (.ok view))
    (by
      rintro _ _ ⟨⟩ ⟨⟩
      exact ⟨store', Store.Extends.refl _, hview.symm⟩)
    (by rintro ⟨⟩))
  have hviewed := withWorker_self hviewing ⟨viewing, true, some (.viewed (.ok view))⟩
  have hjudged := hseen.step (.resume m hviewed)
  have hnone : saving.judged? (.saved (.ok ())) = none := rfl
  have hsome : viewing.judged? (.viewed (.ok view)) = some e := rfl
  refine ⟨_, hjudged, hextends, ?_⟩
  simp only [withWorker, Function.update_self, hnone, hsome, Option.toList_none, List.append_nil,
    Option.toList_some]

/-- The strategy of an executor that starts at the beginning is called with the first quote, and
with nothing else. -/
theorem first_quote_is_evaluated :
    ∃ w, Reachable eagerPlan w ∧ w.Readable eagerPlan ∧ w.evaluated 0 = [eagerEvent] ∧
      ((w.evaluated 0).filter (·.collection = Collection.quotes "btc")).map (·.sequence) =
        List.range' (eagerTrader.startIn {} (Collection.quotes "btc") + 1) 1 ∧
      ∃ d ∈ w.store.documents (Collection.quotes "btc"), d.event = eagerEvent := by
  obtain ⟨w, htold, hstore, hworkers, hevents, hevaluated⟩ := Reachable.eager_told
  have hwatched : eagerEvent.collection ∈ eagerSetup.watched := by
    simp [Executor.Setup.watched, eagerEvent, eagerSetup]
  have hworker : w.workers[0]? = some ⟨eagerTrader.executor.done, true, none⟩ := by
    rw [hworkers]
    rfl
  have hreadable : MarketView.Readable w.store "btc" := hstore ▸ eagerStore_readable
  obtain ⟨w', hreach, hextends, hjudged⟩ := htold.judge_next eagerMoment hworker rfl hevents rfl rfl
    hwatched (by rw [hstore]; rfl) hreadable
  rw [hevaluated, List.nil_append] at hjudged
  have hreadable' : w'.Readable eagerPlan := by
    intro t ht
    obtain rfl := List.mem_singleton.mp ht
    exact hextends.readable hreadable
  obtain ⟨⟨n, hsequences⟩, hcommitted, -⟩ :=
    commits_are_evaluated_in_order hreach hreadable' (i := 0) rfl hwatched
  have hlength := congrArg List.length hsequences
  rw [hjudged] at hlength
  have hone : n = 1 := by simpa [eagerEvent] using hlength.symm
  rw [hone] at hsequences
  refine ⟨w', hreach, hreadable', hjudged, hsequences, ?_⟩
  exact hcommitted eagerEvent (by rw [hjudged]; exact List.mem_cons_self) rfl

end World
end Pipeline
end TradingDesk

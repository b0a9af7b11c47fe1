import TradingDesk.Proofs.Store
import TradingDesk.Proofs.Trading.Evaluations
import TradingDesk.Proofs.Trading.Wiring
import TradingDesk.Proofs.Watcher.Subscriptions
/-!
# The wired pipeline

Wired executors at work over one store: documents are appended, the watchers poll, and each executor
recovers, takes events from its queue and asks for what it needs. All of them take turns as they
like, a poll and a call being many turns each. Nobody asks for a shutdown.

What a watcher sees of this is a run of its own in which others fill the queues too. So the queue of
an executor holds the events of each collection that it follows in the order of their sequences.
-/

namespace TradingDesk

/-! ### Views of a market -/

theorem Quote.read?_toJson {q : Quote} (hexchange : q.exchangeTime.Valid)
    (hreceived : q.receivedTime.Valid) : Quote.read? q.toJson = some q := by
  have hslots : Slots.of? ["asset_id", "bid_price", "bid_size", "ask_price", "ask_size",
      "exchange_timestamp", "received_timestamp"] q.toJson =
      some ⟨[("asset_id", .str q.asset), ("bid_price", .ofDecimal q.bidPrice),
        ("bid_size", .ofDecimal q.bidSize), ("ask_price", .ofDecimal q.askPrice),
        ("ask_size", .ofDecimal q.askSize), ("exchange_timestamp", .ofInstant q.exchangeTime),
        ("received_timestamp", .ofInstant q.receivedTime)], false⟩ := rfl
  simp [Quote.read?, hslots, Slots.required, KeyMap.lookup_cons_eq, text?_str, decimal?_ofDecimal,
    instant?_ofInstant hexchange, instant?_ofInstant hreceived]

structure MarketView.Readable (s : Store) (asset : String) : Prop where
  quotes : ∀ d ∈ s.documents (Collection.quotes asset), ∃ q, Quote.read? d.body = some q
  books : ∀ level, ∀ d ∈ s.documents (Collection.books asset level), ∃ b, Book.read? d.body = some b

namespace Store

variable {s s' : Store} {asset : String}

theorem latestRecord_eq_ok {α : Type} {read : Json → Option α} {collection : String}
    (h : ∀ d ∈ s.documents collection, ∃ a, read d.body = some a) :
    ∃ a, s.latestRecord collection read = .ok a := by
  unfold latestRecord latest?
  cases hlast : (s.documents collection).getLast? with
  | none => exact ⟨none, rfl⟩
  | some d =>
      obtain ⟨a, ha⟩ := h d (List.mem_of_getLast? hlast)
      simp only [ha]
      exact ⟨some a, rfl⟩

theorem Extends.readable (h : s.Extends s') (hreadable : MarketView.Readable s' asset) :
    MarketView.Readable s asset where
  quotes d hd := hreadable.quotes d ((h _).subset hd)
  books level d hd := hreadable.books level d ((h _).subset hd)

end Store

theorem MarketView.Readable.ofStore {s : Store} {asset : String} (h : Readable s asset)
    (trigger : ChangeEvent) : ∃ view, MarketView.ofStore s asset trigger = .ok view := by
  obtain ⟨quote, hquote⟩ := Store.latestRecord_eq_ok h.quotes
  obtain ⟨best, hbest⟩ := Store.latestRecord_eq_ok (h.books .best)
  obtain ⟨fifty, hfifty⟩ := Store.latestRecord_eq_ok (h.books .fifty)
  obtain ⟨full, hfull⟩ := Store.latestRecord_eq_ok (h.books .full)
  have hbooks : (Book.Level.all.mapM fun level =>
      s.latestRecord (Collection.books asset level) Book.read?) = .ok [best, fifty, full] := by
    simp only [Book.Level.all, List.mapM_cons, List.mapM_nil, hbest, hfifty, hfull]
    rfl
  unfold MarketView.ofStore
  rw [hquote, hbooks]
  exact ⟨_, rfl⟩

namespace Pipeline

open Watcher (Queues Polling)
open Executor (Request Reply Served)

variable {σ : Type}

/-! ### Runs -/

/-- Executors that are wired over a store; none of them is in the middle of a call. -/
structure Plan (σ : Type) where
  store : Store
  traders : List (Trader σ)
  settings : Settings.Execution
  batch : Nat
  numbered : store.Numbered
  ready : ∀ t ∈ traders, ∃ result, t.executor.stage = .ready result

/-- The sequence after which a queue takes the changes of a collection, if it follows it. -/
def Plan.start? (plan : Plan σ) (collection : String) (i : Nat) : Option Nat :=
  plan.traders[i]?.bind fun t =>
    if collection ∈ t.executor.setup.watched then some (t.startIn plan.store collection) else none

structure Post where
  watcher : Watcher
  polling : Option Polling

structure Worker (σ : Type) where
  executor : Executor σ
  /-- Whether it has begun to recover. -/
  started : Bool
  reply : Option Reply

structure World (σ : Type) where
  store : Store
  posts : String → Option Post
  queues : Queues
  workers : List (Worker σ)
  /-- What was taken out of each queue, or dropped with it. -/
  left : Nat → List ChangeEvent
  /-- The events that each executor's strategy was called with. -/
  evaluated : Nat → List ChangeEvent

namespace World

def initial (plan : Plan σ) : World σ where
  store := plan.store
  posts collection :=
    ((Watchers.wire plan.store plan.batch plan.traders).get? collection).map fun w => ⟨w, none⟩
  queues := queuesFor plan.settings plan.traders
  workers := plan.traders.map fun t => ⟨t.executor, false, none⟩
  left _ := []
  evaluated _ := []

def withWorker (w : World σ) (i : Nat) (p : Worker σ) : World σ :=
  { w with workers := w.workers.set i p }

/-- What the watcher of a collection sees. -/
def facing (plan : Plan σ) (w : World σ) (collection : String) (post : Post) : Watcher.World where
  watcher := post.watcher
  polling := post.polling
  queues := w.queues
  left := w.left
  start? := plan.start? collection
  documents := w.store.documents collection

inductive Step (plan : Plan σ) : World σ → World σ → Prop
  | append {w : World σ} (collection id : String) (body : Json) (now : Instant) :
      Step plan w { w with store := (w.store.append collection id body now).2 }
  | failWrites {w : World σ} (n : Nat) :
      Step plan w { w with store := { w.store with failures := n } }
  | poll {w : World σ} {collection : String} {post : Post} {v : Watcher.World}
      (hpost : w.posts collection = some post)
      (hturn : (w.facing plan collection post).Turn v) :
      Step plan w { w with
        queues := v.queues
        posts := Function.update w.posts collection (some ⟨v.watcher, v.polling⟩) }
  | begin {w : World σ} {i : Nat} {x : Executor σ} (m : Moment)
      (hworker : w.workers[i]? = some ⟨x, false, none⟩) :
      Step plan w (w.withWorker i ⟨x.recover m, true, none⟩)
  | take {w : World σ} {i : Nat} {x : Executor σ} {result : Except Fault Unit} {e : ChangeEvent}
      {q : Queue} (m : Moment) (hworker : w.workers[i]? = some ⟨x, true, none⟩)
      (hready : x.stage = .ready result)
      (hpop : (Queues.get w.queues i).pop? = some (e, q)) :
      Step plan w { w.withWorker i ⟨x.handle e m, true, none⟩ with
        queues := w.queues.set i q
        left := Function.update w.left i (w.left i ++ [e]) }
  /-- The market is looked at between the request and the reply, one collection after the other. -/
  | ask {w : World σ} {i : Nat} {x : Executor σ} {request : Request} {reply : Reply}
      {store' : Store} {seen : Executor.Transcript}
      (hworker : w.workers[i]? = some ⟨x, true, none⟩) (hrequest : x.request? = some request)
      (hserved : Served x.setup.portfolio none w.store request reply store' seen)
      (hview : ∀ event view, request = .view event → reply = .viewed view →
        ∃ past : Store, past.Extends w.store ∧ view = MarketView.ofStore past x.setup.asset event)
      (hcalm : reply ≠ .woke true) :
      Step plan w { w.withWorker i ⟨x, true, some reply⟩ with store := store' }
  | resume {w : World σ} {i : Nat} {x : Executor σ} {reply : Reply} (m : Moment)
      (hworker : w.workers[i]? = some ⟨x, true, some reply⟩) :
      Step plan w { w.withWorker i ⟨x.resume reply m, true, none⟩ with
        evaluated := Function.update w.evaluated i
          (w.evaluated i ++ (x.judged? reply).toList) }
  /-- An executor that broke off takes no more events. -/
  | leave {w : World σ} {i : Nat} {x : Executor σ}
      (hworker : w.workers[i]? = some ⟨x, true, none⟩) (hbroken : x.stage = .overflown) :
      Step plan w { w with
        queues := w.queues.set i (Queues.get w.queues i).close
        left := Function.update w.left i (w.left i ++ (Queues.get w.queues i).events) }

inductive Reachable (plan : Plan σ) : World σ → Prop
  | initial : Reachable plan (initial plan)
  | step {w w' : World σ} (hreach : Reachable plan w) (hstep : Step plan w w') :
      Reachable plan w'

/-! ### What the watchers see -/

/-- Each watcher sees a run of its own, and all events in the queues come from watchers. -/
structure Watched (plan : Plan σ) (w : World σ) : Prop where
  queues : w.queues.length = plan.traders.length
  numbered : w.store.Numbered
  exact : ∀ collection post, w.posts collection = some post →
    post.watcher.collection = collection ∧ (w.facing plan collection post).Exact
  posts : ∀ collection i start, plan.start? collection i = some start →
    ∃ post, w.posts collection = some post
  sources : ∀ i, ∀ e ∈ w.left i ++ (Queues.get w.queues i).events,
    ∃ post, w.posts e.collection = some post

variable {plan : Plan σ} {w w' : World σ}

theorem start?_eq_some {collection : String} {i start : Nat} :
    plan.start? collection i = some start ↔ ∃ t, plan.traders[i]? = some t ∧
      collection ∈ t.executor.setup.watched ∧ start = t.startIn plan.store collection := by
  unfold Plan.start?
  rw [Option.bind_eq_some_iff]
  constructor
  · rintro ⟨t, ht, hsome⟩
    split at hsome
    · next hwatched => exact ⟨t, ht, hwatched, (Option.some.inj hsome).symm⟩
    · contradiction
  · rintro ⟨t, ht, hwatched, rfl⟩
    exact ⟨t, ht, if_pos hwatched⟩

theorem queues_initial (plan : Plan σ) (i : Nat) :
    (Queues.get (initial plan).queues i).events = [] := by
  unfold Queues.get initial queuesFor
  rw [List.getElem?_map]
  cases plan.traders[i]? <;> rfl

theorem exact_initial {collection : String} {watcher : Watcher}
    (hcollection : watcher.collection = collection)
    (hsubscribers : watcher.subscribers =
      Watchers.followers plan.store collection plan.traders.zipIdx) :
    ((initial plan).facing plan collection ⟨watcher, none⟩).Exact := by
  have htold : ∀ i, ((initial plan).facing plan collection ⟨watcher, none⟩).told i = [] := by
    intro i
    have hleft : ((initial plan).facing plan collection ⟨watcher, none⟩).left i = [] := rfl
    have hevents : (Queues.get ((initial plan).facing plan collection
        ⟨watcher, none⟩).queues i).events = [] := queues_initial plan i
    rw [Watcher.World.told, hleft, hevents]
    rfl
  have hfollowers : ((initial plan).facing plan collection ⟨watcher, none⟩).subscribers =
      Watchers.followers plan.store collection plan.traders.zipIdx := hsubscribers
  constructor
  case queues =>
    rw [hfollowers]
    exact Watchers.followers_nodup plan.store collection plan.traders
  case cursors =>
    intro s hs
    rw [hfollowers] at hs
    obtain ⟨t, ht, hwatched, hcursor⟩ := Watchers.mem_followers.mp hs
    refine ⟨s.cursor, start?_eq_some.mpr ⟨t, ht, hwatched, hcursor⟩, ?_⟩
    rw [htold, List.length_nil, Nat.add_zero]
  case told =>
    intro i start _
    rw [htold]
    rfl
  case untold =>
    exact fun i _ => htold i
  case events =>
    intro i e he
    rw [htold] at he
    contradiction
  case answer =>
    rintro _ _ ⟨⟩
  case sequences =>
    exact plan.numbered.nodup collection
  case collection =>
    intro d hd
    rw [plan.numbered.collection_eq hd]
    exact hcollection.symm

theorem watched_initial (plan : Plan σ) : (initial plan).Watched plan := by
  constructor
  case queues =>
    simp [initial, queuesFor]
  case numbered =>
    exact plan.numbered
  case exact =>
    intro collection post hpost
    obtain ⟨watcher, hget, rfl⟩ := Option.map_eq_some_iff.mp hpost
    rcases Watchers.serves_wire plan.store plan.batch plan.traders collection with
      ⟨hnone, -⟩ | ⟨watcher', hget', hcollection, -, hsubscribers⟩
    · rw [hget] at hnone
      contradiction
    · obtain rfl : watcher = watcher' := Option.some.inj (hget.symm.trans hget')
      exact ⟨hcollection, exact_initial hcollection hsubscribers⟩
  case posts =>
    intro collection i start hstart
    obtain ⟨t, ht, hwatched, -⟩ := start?_eq_some.mp hstart
    obtain ⟨watcher, hget⟩ := Watchers.exists_watcher ht hwatched plan.store plan.batch
    exact ⟨⟨watcher, none⟩, by simp [initial, hget]⟩
  case sources =>
    intro i e he
    rw [queues_initial plan i] at he
    simp [initial] at he

/-- Only the store changes, and not in its collections. -/
theorem Watched.keep (h : w.Watched plan) (hposts : w'.posts = w.posts)
    (hqueues : w'.queues = w.queues) (hleft : w'.left = w.left)
    (hdocuments : ∀ c, w'.store.documents c = w.store.documents c) : w'.Watched plan := by
  have hfacing : ∀ c post, w'.facing plan c post = w.facing plan c post := by
    intro c post
    simp only [facing, hqueues, hleft, hdocuments]
  refine ⟨by rw [hqueues]; exact h.queues, h.numbered.of_documents hdocuments, ?_, ?_, ?_⟩
  · intro c post hpost
    rw [hposts] at hpost
    rw [hfacing]
    exact h.exact c post hpost
  · rw [hposts]
    exact h.posts
  · rw [hposts, hqueues, hleft]
    exact h.sources

/-- Each watcher sees a step, or what was there before. -/
theorem Watched.extend (h : w.Watched plan) (hqueues : w'.queues.length = w.queues.length)
    (hnumbered : w'.store.Numbered) (hposts : w'.posts = w.posts)
    (hsteps : ∀ c post, w.posts c = some post → post.watcher.collection = c →
      (w.facing plan c post).Exact → (w'.facing plan c post).Exact)
    (hsources : ∀ i, ∀ e ∈ w'.left i ++ (Queues.get w'.queues i).events,
      e ∈ w.left i ++ (Queues.get w.queues i).events) : w'.Watched plan := by
  refine ⟨hqueues.trans h.queues, hnumbered, ?_, ?_, ?_⟩
  · intro c post hpost
    rw [hposts] at hpost
    obtain ⟨hcollection, hexact⟩ := h.exact c post hpost
    exact ⟨hcollection, hsteps c post hpost hcollection hexact⟩
  · rw [hposts]
    exact h.posts
  · intro i e he
    rw [hposts]
    exact h.sources i e (hsources i e he)

theorem Watched.append (h : w.Watched plan) (collection id : String) (body : Json)
    (now : Instant) :
    Watched plan { w with store := (w.store.append collection id body now).2 } := by
  rcases w.store.append_cases collection id body now with
    hsame | ⟨d, hd, hsequence, hdocuments⟩
  · exact h.keep rfl rfl rfl hsame
  · refine h.extend rfl (h.numbered.append collection id body now) rfl ?_ fun _ _ he => he
    intro c post _ hcollection hexact
    by_cases heq : c = collection
    · have hnew : d.sequence ∉ (w.store.documents c).map (·.sequence) := by
        rw [h.numbered.sequences, List.mem_range'_1, hsequence, heq]
        omega
      have hmine : d.collection = post.watcher.collection := by rw [hd, hcollection, heq]
      have hcommit := hexact.commit hmine hnew
      simpa only [facing, hdocuments, if_pos heq] using hcommit
    · simpa only [facing, hdocuments, if_neg heq] using hexact

theorem mem_get_of_push {queues : Queues} {i j : Nat} {e e' : ChangeEvent} {q : Queue}
    (hpush : (Queues.get queues j).push e' = .pushed q)
    (he : e ∈ (Queues.get (queues.set j q) i).events) :
    e ∈ (Queues.get queues i).events ∨ e = e' := by
  obtain ⟨hlt, hevents⟩ := Watcher.push_eq_pushed hpush
  by_cases hij : i = j
  · subst i
    rw [Watcher.Queues.get_set_self _ hlt, hevents, List.mem_append, List.mem_singleton] at he
    exact he
  · rw [Watcher.Queues.get_set_of_ne _ (Ne.symm hij)] at he
    exact .inl he

theorem Watched.poll (h : w.Watched plan) {collection : String} {post : Post} {v : Watcher.World}
    (hpost : w.posts collection = some post)
    (hturn : (w.facing plan collection post).Turn v) :
    Watched plan { w with
      queues := v.queues
      posts := Function.update w.posts collection (some ⟨v.watcher, v.polling⟩) } := by
  obtain ⟨hcollection, hexact⟩ := h.exact collection post hpost
  have hqueues := hturn.queues hexact
  have hv : v = facing plan { w with queues := v.queues } collection ⟨v.watcher, v.polling⟩ :=
    hturn.eq
  have hsome : ∀ c, (∃ post, w.posts c = some post) →
      ∃ post, Function.update w.posts collection (some ⟨v.watcher, v.polling⟩) c = some post := by
    intro c hc
    by_cases heq : c = collection
    · subst c
      exact ⟨_, Function.update_self ..⟩
    · rwa [Function.update_of_ne heq]
  refine ⟨?_, h.numbered, ?_, fun c i start hstart => hsome c (h.posts c i start hstart), ?_⟩
  · rcases hqueues with hsame | ⟨i, e, q, -, -, hset⟩
    · simp only [hsame]
      exact h.queues
    · simp only [hset, List.length_set]
      exact h.queues
  · intro c post' hpost'
    by_cases heq : c = collection
    · subst c
      simp only [Function.update_self, Option.some.injEq] at hpost'
      subst post'
      refine ⟨hturn.collection_eq.trans hcollection, ?_⟩
      have hstep := hexact.step hturn.step
      rw [hv] at hstep
      exact hstep
    · simp only [Function.update_of_ne heq] at hpost'
      obtain ⟨hcollection', hexact'⟩ := h.exact c post' hpost'
      refine ⟨hcollection', ?_⟩
      rcases hqueues with hsame | ⟨i, e, q, he, hpush, hset⟩
      · simpa only [facing, hsame] using hexact'
      · -- for the other watchers somebody else fills the queue
        have hother : e.collection ≠ (w.facing plan c post').watcher.collection := by
          have hmine : e.collection = collection := he.trans hcollection
          have htheirs : (w.facing plan c post').watcher.collection = c := hcollection'
          rw [hmine, htheirs]
          exact Ne.symm heq
        have hput := hexact'.step (.putOther hother hpush)
        simpa only [facing, hset] using hput
  · intro i e he
    apply hsome
    rcases hqueues with hsame | ⟨j, e', q, he', hpush, hset⟩
    · simp only [hsame] at he
      exact h.sources i e he
    · simp only [hset, List.mem_append] at he
      rcases he with hleft | hqueued
      · exact h.sources i e (List.mem_append_left _ hleft)
      · rcases mem_get_of_push hpush hqueued with hold | rfl
        · exact h.sources i e (List.mem_append_right _ hold)
        · exact ⟨post, by rw [he']; exact hcollection ▸ hpost⟩

/-- Events leave a queue, taken or dropped. -/
theorem Watched.drain (h : w.Watched plan) {i : Nat} {q : Queue} {out : List ChangeEvent}
    (hlt : i < w.queues.length) (hevents : (Queues.get w.queues i).events = out ++ q.events)
    (workers : List (Worker σ))
    (hstep : ∀ c post, Watcher.World.Step (w.facing plan c post)
      { w.facing plan c post with
        queues := w.queues.set i q
        left := Function.update w.left i (w.left i ++ out) }) :
    Watched plan { w with
      workers
      queues := w.queues.set i q
      left := Function.update w.left i (w.left i ++ out) } := by
  refine h.extend (by simp) h.numbered rfl (fun c post _ _ hexact => hexact.step (hstep c post)) ?_
  intro j e he
  simp only at he
  by_cases hij : j = i
  · subst j
    rw [Function.update_self, Watcher.Queues.get_set_self _ hlt] at he
    rw [hevents]
    simpa using he
  · rwa [Function.update_of_ne hij, Watcher.Queues.get_set_of_ne _ (Ne.symm hij)] at he

theorem documents_of_served {portfolio : String} {store store' : Store} {request : Request}
    {reply : Reply} {seen : Executor.Transcript}
    (h : Served portfolio none store request reply store' seen) (c : String) :
    store'.documents c = store.documents c := by
  cases h with
  | @saved document _ hwrite =>
      have hkept := store.documents_upsert Collection.states portfolio document c
      rwa [hwrite] at hkept
  | @notSaved document _ _ hwrite =>
      have hkept := store.documents_upsert Collection.states portfolio document c
      rwa [hwrite] at hkept
  | _ => rfl

theorem Step.extends (hstep : Step plan w w') : w.store.Extends w'.store := by
  cases hstep with
  | append collection id body now => exact w.store.extends_append collection id body now
  | ask hworker hrequest hserved =>
      intro c
      rw [documents_of_served hserved]
  | _ => exact Store.Extends.refl _

theorem Watched.step (h : w.Watched plan) (hworkers : w.workers.length = plan.traders.length)
    (hstep : Step plan w w') : w'.Watched plan := by
  cases hstep with
  | append collection id body now => exact h.append collection id body now
  | failWrites n => exact h.keep rfl rfl rfl fun _ => rfl
  | poll hpost hturn => exact h.poll hpost hturn
  | begin m hworker => exact h.keep rfl rfl rfl fun _ => rfl
  | take m hworker hready hpop =>
      obtain ⟨hlt, hevents⟩ := Watcher.pop?_eq_some hpop
      exact h.drain hlt hevents _ fun c post => .take hpop
  | ask hworker hrequest hserved => exact h.keep rfl rfl rfl (documents_of_served hserved)
  | resume m hworker => exact h.keep rfl rfl rfl fun _ => rfl
  | leave hworker hbroken =>
      have hlt := (List.getElem?_eq_some_iff.mp hworker).1
      rw [hworkers, ← h.queues] at hlt
      exact h.drain hlt (List.append_nil _).symm _ fun c post => .drop hlt

theorem Step.workers_length (hstep : Step plan w w') : w'.workers.length = w.workers.length := by
  cases hstep with
  | begin | take | ask | resume => exact List.length_set
  | _ => rfl

theorem Reachable.workers_length (hreach : Reachable plan w) :
    w.workers.length = plan.traders.length := by
  induction hreach with
  | initial => simp [World.initial]
  | step _ hstep ih => exact hstep.workers_length.trans ih

theorem Reachable.watched (hreach : Reachable plan w) : w.Watched plan := by
  induction hreach with
  | initial => exact watched_initial plan
  | step hreach hstep ih => exact ih.step hreach.workers_length hstep

/-! ### Polls -/

abbrev Steps (plan : Plan σ) : World σ → World σ → Prop := Relation.ReflTransGen (Step plan)

theorem Reachable.steps (hreach : Reachable plan w) (hsteps : Steps plan w w') :
    Reachable plan w' := by
  induction hsteps with
  | refl => exact hreach
  | tail _ hlast ih => exact ih.step hlast

theorem steps_of_turns {collection : String} {post : Post} {v : Watcher.World}
    (hpost : w.posts collection = some post)
    (hturns : (w.facing plan collection post).Turns v) :
    v = facing plan { w with queues := v.queues } collection ⟨v.watcher, v.polling⟩ ∧
      Steps plan w { w with
        queues := v.queues
        posts := Function.update w.posts collection (some ⟨v.watcher, v.polling⟩) } := by
  induction hturns with
  | refl =>
      refine ⟨rfl, ?_⟩
      have hsame : Function.update w.posts collection (some ⟨post.watcher, post.polling⟩) =
          w.posts := by
        rw [Function.update_eq_self_iff]
        exact hpost.symm
      simp only [facing, hsame]
      exact .refl
  | @tail v₁ v₂ _ hlast ih =>
      obtain ⟨hv₁, hsteps⟩ := ih
      have hv₂ := hlast.eq
      have hturn := hlast
      rw [hv₁] at hv₂ hturn
      refine ⟨hv₂, hsteps.tail ?_⟩
      have hstep : Step plan _ _ := .poll (w := { w with
        queues := v₁.queues
        posts := Function.update w.posts collection (some ⟨v₁.watcher, v₁.polling⟩) })
        (Function.update_self ..) hturn
      simpa only [Function.update_idem] using hstep

/-- A poll that nothing comes in between of. -/
theorem Watched.poll_steps (h : w.Watched plan) (collection : String) {watcher : Watcher}
    (hpost : w.posts collection = some ⟨watcher, none⟩)
    {lookup : Watcher.Lookup Unit}
    (hlookup : lookup = fun _ after limit => (.ok (w.store.after collection after limit), ())) :
    Steps plan w { w with
      queues := (watcher.poll lookup w.queues ()).2.queues
      posts := Function.update w.posts collection
        (some ⟨(watcher.poll lookup w.queues ()).1, none⟩) } := by
  have hanswers : ∀ (source : Unit) after answer source',
      lookup source after watcher.batch = (.ok answer, source') →
      Watcher.Answers (w.store.documents collection) after watcher.batch answer := by
    intro source after answer source' heq
    rw [hlookup] at heq
    cases heq
    exact (h.numbered.firstAnswers_after collection after watcher.batch).toAnswers
  have hidle : (w.facing plan collection ⟨watcher, none⟩).polling = none := rfl
  exact (steps_of_turns hpost (Watcher.World.poll_turns hidle hanswers ())).2

/-! ### The events of a queue -/

/-- Among the events that have come into a queue, each one bears the sequence that follows on those
of its collection before it. -/
theorem Watched.sequence_eq (h : w.Watched plan) {i : Nat} {before after : List ChangeEvent}
    {e : ChangeEvent} (heq : w.left i ++ (Queues.get w.queues i).events = before ++ e :: after) :
    ∃ start, plan.start? e.collection i = some start ∧
      e.sequence = start + (before.filter (·.collection = e.collection)).length + 1 := by
  have hmem : e ∈ w.left i ++ (Queues.get w.queues i).events := by simp [heq]
  obtain ⟨post, hpost⟩ := h.sources i e hmem
  obtain ⟨hcollection, hexact⟩ := h.exact e.collection post hpost
  have htold : (w.facing plan e.collection post).told i =
      before.filter (·.collection = e.collection) ++
        e :: after.filter (·.collection = e.collection) := by
    have hunfold : (w.facing plan e.collection post).told i =
        (w.left i ++ (Queues.get w.queues i).events).filter
          (·.collection = post.watcher.collection) := rfl
    rw [hunfold, heq, hcollection]
    simp
  cases hstart : plan.start? e.collection i with
  | none =>
      have hnone := hexact.untold i hstart
      rw [htold] at hnone
      simp at hnone
  | some start =>
      refine ⟨start, rfl, ?_⟩
      have hsequences := congrArg
        (·[(before.filter (·.collection = e.collection)).length]?) (hexact.told i start hstart)
      rw [htold] at hsequences
      simp only [List.map_append, List.map_cons, List.length_append, List.length_cons] at hsequences
      rw [List.getElem?_append_right (by simp), List.getElem?_range' (by omega)] at hsequences
      simp only [List.length_map, Nat.sub_self, List.getElem?_cons_zero, Option.some.injEq]
        at hsequences
      omega

/-- What has come into a queue of a collection, up to any point. -/
theorem Watched.sequences_eq (h : w.Watched plan) {collection : String} {i start : Nat}
    (hstart : plan.start? collection i = some start) {events : List ChangeEvent}
    (hbegins : events <+: w.left i ++ (Queues.get w.queues i).events) :
    (events.filter (·.collection = collection)).map (·.sequence) =
      List.range' (start + 1) (events.filter (·.collection = collection)).length := by
  obtain ⟨post, hpost⟩ := h.posts collection i start hstart
  obtain ⟨hcollection, hexact⟩ := h.exact collection post hpost
  have htold : (w.facing plan collection post).told i =
      (w.left i ++ (Queues.get w.queues i).events).filter (·.collection = collection) := by
    rw [← hcollection]
    rfl
  have hpart := (hbegins.filter (·.collection = collection)).map (·.sequence)
  rw [← htold, hexact.told i start hstart] at hpart
  obtain ⟨rest, hsplit⟩ := hpart
  obtain ⟨k, -, hk, -⟩ := List.range'_eq_append_iff.mp hsplit.symm
  have hlength := congrArg List.length hk
  rw [List.length_map, List.length_range'] at hlength
  rw [hk, hlength]

end World
end Pipeline
end TradingDesk

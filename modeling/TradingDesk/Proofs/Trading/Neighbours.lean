import TradingDesk.Proofs.Store.AppendOnly
import TradingDesk.Proofs.Trading.Exposure
import TradingDesk.Proofs.Trading.Paper
import TradingDesk.Rehearsal.Session
/-!
# Portfolios side by side

Executors of different portfolios share a store and a paper desk, and take turns in whatever order
their waits come to an end. Each of them finds its own document as it left it, and of the orders at
the desk it asks for its own alone. So a portfolio gets where it would have got without the others,
but for names and stamps, when no two orders have the same name.
-/

namespace TradingDesk

theorem MarketView.ofStore_congr {s s' : Store} (h : s.collections = s'.collections)
    (asset : String) (event : ChangeEvent) : ofStore s asset event = ofStore s' asset event := by
  simp only [ofStore, Store.latestRecord, Store.latest?, Store.documents, Store.log, h]

open Executor

/-! ### One executor at the store and the desk -/

/-- An executor with what is to be done. -/
structure Seat (σ : Type) where
  executor : Executor σ
  /-- The events to handle, or `none` where it recovers. -/
  calls : List (Option ChangeEvent)
  reply : Option Reply := none

/-- What an executor has to do with. -/
structure Corner (σ : Type) extends Seat σ where
  store : Store
  paper : Paper

namespace Corner

section

variable {σ : Type}

def serve (c : Corner σ) (m : Moment) (request : Request) : Corner σ :=
  let served :=
    Rehearsal.serve c.executor.setup c.store { desk := .paper c.paper } none m.time m.now request
  { c with
    reply := some served.reply
    store := served.store
    paper := match served.venue.desk with
      | .paper paper => paper
      | .scripted _ => c.paper }

/-- Goes on with the reply that is on its way, with what is asked for or with the next call. -/
def step (c : Corner σ) (m : Moment) : Corner σ :=
  match c.reply, c.executor.request?, c.calls with
  | some reply, _, _ => { c with executor := c.executor.resume reply m, reply := none }
  | none, some request, _ => c.serve m request
  | none, none, call :: rest =>
    if c.executor.stage.isReady then
      { c with executor := c.executor.begin call m, calls := rest }
    else c
  | none, none, [] => c

/-- The same with other collections in the store. -/
def facing (c : Corner σ) (market : List (String × Log)) : Corner σ :=
  { c with store := { c.store with collections := market } }

def document? (c : Corner σ) : Option Json :=
  c.store.fetch? Collection.states c.executor.setup.portfolio

/-- What the desk knows about the pending order, but for the name and the stamp of a fill. -/
def known? (c : Corner σ) : Option Order.Outcome :=
  (c.executor.state.pending.bind fun order => c.paper.orders.lookup order.clientId).map
    Order.Outcome.bare

/-- The executor follows no order and has none in hand but the pending one, and no order at the desk
nor the pending one has a name that is still to be given. -/
structure Sound (names : List String) (c : Corner σ) : Prop where
  failures : c.store.failures = 0
  final : c.paper.Final
  blind : c.executor.strategy.Blind
  started : c.executor.stage.started? = none
  reply : ∀ answer, c.reply = some (.answered answer) →
    ∃ outcome, answer = .ok outcome ∧ outcome.isFinal = true
  hand : ∀ order, c.executor.stage.order? = some order → c.executor.state.pending = some order
  pending : ∀ order, c.executor.state.pending = some order → order.clientId ∉ names
  unknown : ∀ name ∈ names, c.paper.orders.lookup name = none

/-- One executor changes nothing for others but what it is told and what becomes of its own
document and of the order that it places. -/
structure Spares (c c' : Corner σ) : Prop where
  setup : c'.executor.setup = c.executor.setup
  collections : c'.store.collections = c.store.collections
  documents : ∀ collection id, (collection, id) ≠ (Collection.states, c.executor.setup.portfolio) →
    c'.store.fetch? collection id = c.store.fetch? collection id
  orders : ∀ clientId,
    (∀ order, c.executor.stage.placing? = some order → clientId ≠ order.clientId) →
    c'.paper.orders.lookup clientId = c.paper.orders.lookup clientId

/-- A document is the same but for the names and the stamps in it. -/
def SameDocument (d d' : Option Json) : Prop :=
  d = d' ∨ ∃ p q : Portfolio,
    d = some p.toJson.settled ∧ d' = some q.toJson.settled ∧ p.bare = q.bare

/-- Two executors with what they have to do with that differ in names and stamps alone. -/
structure Alike (c c' : Corner σ) : Prop where
  executor : c.executor.bare 0 = c'.executor.bare 0
  calls : c.calls = c'.calls
  reply : c.reply.map Reply.bare = c'.reply.map Reply.bare
  document : SameDocument c.document? c'.document?
  known : c.known? = c'.known?

variable {c c' : Corner σ} {names names' : List String} {m m' : Moment}

/-! ### Steps of one executor -/

theorem Spares.refl (c : Corner σ) : c.Spares c := ⟨rfl, rfl, fun _ _ _ => rfl, fun _ _ => rfl⟩

theorem Spares.serve (c : Corner σ) (m : Moment) {request : Request}
    (hrequest : c.executor.request? = some request) : c.Spares (c.serve m request) := by
  cases request with
  | save document =>
      exact ⟨rfl, c.store.collections_upsert .., fun _ _ hne => Store.fetch?_upsert_of_ne hne ..,
        fun _ _ => rfl⟩
  | submit order =>
      refine ⟨rfl, rfl, fun _ _ _ => rfl, fun clientId hne => ?_⟩
      refine (c.paper.lookup_submit order m.now clientId).trans ?_
      exact if_neg (hne order (placing?_of_request? hrequest))
  | _ => exact ⟨rfl, rfl, fun _ _ _ => rfl, fun _ _ => rfl⟩

theorem Spares.step (c : Corner σ) (m : Moment) : c.Spares (c.step m) := by
  unfold Corner.step
  split
  · next reply _ =>
    have hpasses := Passes.resume (x := c.executor) (m := m) reply
    exact ⟨hpasses.setup, rfl, fun _ _ _ => rfl, fun _ _ => rfl⟩
  · next hrequest => exact Spares.serve c m hrequest
  · next call rest _ _ _ =>
    split
    · have hleaves : Leaves c.executor (c.executor.begin call m) := Leaves.begin call
      exact ⟨hleaves.setup, rfl, fun _ _ _ => rfl, fun _ _ => rfl⟩
    · exact Spares.refl c
  · exact Spares.refl c

theorem Sound.fewer (h : c.Sound names') (hnames : ∀ name ∈ names, name ∈ names') :
    c.Sound names :=
  { h with
    pending := fun order horder hmem => h.pending order horder (hnames _ hmem)
    unknown := fun name hmem => h.unknown name (hnames name hmem) }

theorem Sound.facing (h : c.Sound names) {market : List (String × Log)} :
    (c.facing market).Sound names :=
  { h with }

theorem Sound.serve (h : c.Sound names) (m : Moment) {request : Request}
    (hrequest : c.executor.request? = some request) : (c.serve m request).Sound names := by
  cases request with
  | save document =>
      obtain ⟨store, hwrite, hfailures⟩ := Store.upsert_of_failures_eq_zero h.failures
        Collection.states c.executor.setup.portfolio document
      refine { h with failures := ?_, reply := nofun }
      change (c.store.upsert Collection.states c.executor.setup.portfolio document).2.failures = 0
      rw [hwrite]
      exact hfailures
  | submit order =>
      refine { h with final := h.final.submit order m.now, reply := ?_, unknown := ?_ }
      · rintro _ ⟨⟩
        exact ⟨_, rfl, h.final.isFinal_submit order m.now⟩
      · intro name hname
        have hplacing := Stage.order?_of_placing? (placing?_of_request? hrequest)
        have hne : name ≠ order.clientId :=
          fun heq => h.pending order (h.hand order hplacing) (heq ▸ hname)
        refine (c.paper.lookup_submit order m.now name).trans ?_
        rw [if_neg hne]
        exact h.unknown name hname
  | status clientId =>
      refine { h with reply := ?_ }
      rintro _ ⟨⟩
      exact ⟨_, rfl, h.final.isFinal_status clientId⟩
  | _ => exact { h with reply := nofun }

theorem Sound.resume (h : c.Sound (m.freshId :: names)) (hnew : m.freshId ∉ names) {reply : Reply}
    (hreply : c.reply = some reply) :
    Sound names { c with executor := c.executor.resume reply m, reply := none } := by
  have hpasses := Passes.resume (x := c.executor) (m := m) reply
  have hfewer : c.Sound names := h.fewer fun _ => List.mem_cons_of_mem _
  refine { hfewer with blind := ?_, started := ?_, reply := nofun, hand := ?_, pending := ?_ }
  · rw [hpasses.strategy]
    exact h.blind
  · exact started?_resume_of_final h.started fun answer heq => h.reply answer (heq ▸ hreply)
  · intro order horder
    rcases order?_resume (x := c.executor) (m := m) reply with
      hnone | ⟨named, fromPhase, schedule, hstage, hpending, -⟩ | hkeeps
    · rw [hnone] at horder
      contradiction
    · rw [hstage] at horder
      cases horder
      exact hpending
    · rw [hkeeps.state]
      exact h.hand order (hkeeps.order ▸ horder)
  · intro order horder
    have hnamed := hpasses.pending order horder
    split at hnamed
    · rw [hnamed]
      exact hnew
    · exact hfewer.pending order hnamed

theorem Sound.call (h : c.Sound names) (call : Option ChangeEvent)
    (rest : List (Option ChangeEvent)) :
    Sound names { c with executor := c.executor.begin call m, calls := rest } := by
  have hleaves : Leaves c.executor (c.executor.begin call m) := Leaves.begin call
  refine { h with blind := ?_, started := started?_begin call, hand := ?_, pending := ?_ }
  · rw [hleaves.strategy]
    exact h.blind
  · intro order horder
    rcases order?_begin (x := c.executor) (m := m) call with hnone | ⟨asked, hpending, hasked⟩
    · rw [hnone] at horder
      contradiction
    · rw [hasked] at horder ⊢
      cases horder
      exact hpending
  · intro order horder
    exact h.pending order (hleaves.pending ▸ horder)

theorem Sound.step (h : c.Sound (m.freshId :: names)) (hnew : m.freshId ∉ names) :
    (c.step m).Sound names := by
  have hfewer : c.Sound names := h.fewer fun _ => List.mem_cons_of_mem _
  unfold Corner.step
  split
  · next hreply => exact h.resume hnew hreply
  · next hrequest => exact hfewer.serve m hrequest
  · next call rest _ _ _ =>
    split
    · exact hfewer.call call rest
    · exact hfewer
  · exact hfewer

/-- What is pending or to be placed after a step was so before, or has the name that is given in
it. -/
theorem named_step (c : Corner σ) (m : Moment) :
    (∀ order, (c.step m).executor.state.pending = some order →
      order.clientId = m.freshId ∨ c.executor.state.pending = some order) ∧
    ∀ order, (c.step m).executor.stage.placing? = some order →
      order.clientId = m.freshId ∨ c.executor.stage.placing? = some order := by
  unfold Corner.step
  split
  · next reply _ =>
    refine ⟨fun order horder => ?_, fun order horder => ?_⟩
    · have hnamed := (Passes.resume (x := c.executor) (m := m) reply).pending order horder
      split at hnamed
      · exact .inl hnamed
      · exact .inr hnamed
    · rcases order?_resume (x := c.executor) (m := m) reply with
        hnone | ⟨named, fromPhase, schedule, hstage, -, hname⟩ | hkeeps
      · rw [Stage.order?_of_placing? horder] at hnone
        contradiction
      · rw [hstage] at horder
        cases horder
        exact .inl hname
      · rcases hkeeps.placing with hnone | hsame
        · rw [hnone] at horder
          contradiction
        · exact .inr (hsame ▸ horder)
  · exact ⟨fun _ => .inr, fun _ => .inr⟩
  · next call rest _ _ _ =>
    split
    · have hleaves : Leaves c.executor (c.executor.begin call m) := Leaves.begin call
      refine ⟨fun order horder => .inr (hleaves.pending ▸ horder), fun order horder => ?_⟩
      rcases order?_begin (x := c.executor) (m := m) call with hnone | ⟨asked, -, hasked⟩
      · rw [Stage.order?_of_placing? horder] at hnone
        contradiction
      · rw [hasked] at horder
        cases horder
    · exact ⟨fun _ => .inr, fun _ => .inr⟩
  · exact ⟨fun _ => .inr, fun _ => .inr⟩

/-! ### Two executors alike -/

theorem Alike.state (h : c.Alike c') : c.executor.state.bare = c'.executor.state.bare :=
  congrArg Executor.state h.executor

theorem Alike.facing (h : c.Alike c') (market : List (String × Log)) :
    (c.facing market).Alike (c'.facing market) :=
  { h with }

/-- Of an order in hand two desks know the same. -/
theorem Alike.lookup (h : c.Alike c') {order order' : Order}
    (horder : c.executor.state.pending = some order)
    (horder' : c'.executor.state.pending = some order') :
    order.bare = order'.bare ∧
      (c.paper.orders.lookup order.clientId).map Order.Outcome.bare =
        (c'.paper.orders.lookup order'.clientId).map Order.Outcome.bare := by
  have hpending : c.executor.state.pending.map Order.bare =
      c'.executor.state.pending.map Order.bare := congrArg Portfolio.pending h.state
  have hknown := h.known
  rw [known?, known?, horder, horder'] at hknown
  rw [horder, horder'] at hpending
  exact ⟨Option.some.inj hpending, hknown⟩

theorem known?_eq (hpending : c.executor.state.pending.map Order.bare =
      c'.executor.state.pending.map Order.bare)
    (hlookup : ∀ order order', c.executor.state.pending = some order →
      c'.executor.state.pending = some order' →
      (c.paper.orders.lookup order.clientId).map Order.Outcome.bare =
        (c'.paper.orders.lookup order'.clientId).map Order.Outcome.bare) :
    c.known? = c'.known? := by
  unfold known?
  cases horder : c.executor.state.pending with
  | none =>
      rw [horder] at hpending
      rw [Option.map_eq_none_iff.mp hpending.symm]
      rfl
  | some order =>
      rw [horder] at hpending
      obtain ⟨order', horder', -⟩ := Option.map_eq_some_iff.mp hpending.symm
      rw [horder']
      exact hlookup order order' horder horder'

theorem Alike.resume (h : c.Alike c') (hsound : c.Sound (m.freshId :: names))
    (hsound' : c'.Sound (m'.freshId :: names')) {reply reply' : Reply}
    (hasked : c.reply = some reply) (hasked' : c'.reply = some reply') :
    Alike { c with executor := c.executor.resume reply m, reply := none }
      { c' with executor := c'.executor.resume reply' m', reply := none } := by
  have hreply : reply.bare = reply'.bare := by
    have hreplies := h.reply
    rw [hasked, hasked'] at hreplies
    exact Option.some.inj hreplies
  have hstarted : (c.executor.resume reply m).stage.started? = none :=
    started?_resume_of_final hsound.started fun answer heq => hsound.reply answer (heq ▸ hasked)
  have hstarted' : (c'.executor.resume reply' m').stage.started? = none :=
    started?_resume_of_final hsound'.started fun answer heq =>
      hsound'.reply answer (heq ▸ hasked')
  have hpasses := Passes.resume (x := c.executor) (m := m) reply
  have hpasses' := Passes.resume (x := c'.executor) (m := m') reply'
  have hbefore : c.executor.bare m.time = c'.executor.bare m'.time := by
    rw [bare_of_started?_eq_none hsound.started m.time 0, h.executor,
      bare_of_started?_eq_none hsound'.started 0 m'.time]
  have htrades : c.executor.trades reply = c'.executor.trades reply' := by
    rw [← trades_bare hsound.blind 0, h.executor, hreply, trades_bare hsound'.blind]
  have hafter : (c.executor.resume reply m).bare 0 = (c'.executor.resume reply' m').bare 0 := by
    have hmoment : m.bare m.time = m'.bare m'.time := by simp [Moment.bare]
    rw [bare_of_started?_eq_none hstarted 0 m.time, bare_of_started?_eq_none hstarted' 0 m'.time]
    exact bare_resume_congr hbefore hsound.blind (Stage.since_of_none hsound.started)
      (Stage.since_of_none hsound'.started) (Nat.le_refl _) (Nat.le_refl _) hmoment hreply
  refine ⟨hafter, h.calls, rfl, ?_, ?_⟩
  · unfold document?
    rw [hpasses.setup, hpasses'.setup]
    exact h.document
  · have hpending := congrArg (fun x => x.state.pending) hafter
    refine known?_eq hpending fun order order' horder horder' => ?_
    have hnamed := hpasses.pending order horder
    have hnamed' := hpasses'.pending order' horder'
    rw [← htrades] at hnamed'
    split at hnamed
    · next htraded =>
      -- no desk knows an order that has just been named
      rw [if_pos htraded] at hnamed'
      rw [hnamed, hnamed', hsound.unknown _ List.mem_cons_self,
        hsound'.unknown _ List.mem_cons_self]
    · next htraded =>
      rw [if_neg htraded] at hnamed'
      exact (h.lookup hnamed hnamed').2

theorem Alike.call (h : c.Alike c') (hsound : c.Sound names) (hsound' : c'.Sound names')
    (m m' : Moment) (call : Option ChangeEvent) (rest : List (Option ChangeEvent)) :
    Alike { c with executor := c.executor.begin call m, calls := rest }
      { c' with executor := c'.executor.begin call m', calls := rest } := by
  have hleaves : Leaves c.executor (c.executor.begin call m) := Leaves.begin call
  have hleaves' : Leaves c'.executor (c'.executor.begin call m') := Leaves.begin call
  have hmoment : m.bare m.time = m'.bare m'.time := by simp [Moment.bare]
  refine ⟨?_, rfl, h.reply, ?_, ?_⟩
  · rw [bare_of_started?_eq_none (started?_begin call) 0 m.time,
      bare_of_started?_eq_none (started?_begin call) 0 m'.time, bare_begin, bare_begin, hmoment,
      bare_of_started?_eq_none hsound.started m.time 0, h.executor,
      bare_of_started?_eq_none hsound'.started 0 m'.time]
  · unfold document?
    rw [hleaves.setup, hleaves'.setup]
    exact h.document
  · unfold known?
    rw [hleaves.pending, hleaves'.pending]
    exact h.known

theorem document?_save (h : c.Sound names) {document : Json}
    (hrequest : c.executor.request? = some (.save document)) :
    (c.serve m (.save document)).document? = some c.executor.document := by
  refine (Store.fetch?_upsert h.failures ..).trans ?_
  rw [if_pos ⟨rfl, rfl⟩, document_of_request? hrequest]

theorem Alike.save (h : c.Alike c') (hsound : c.Sound names) (hsound' : c'.Sound names')
    {document document' : Json} (hrequest : c.executor.request? = some (.save document))
    (hrequest' : c'.executor.request? = some (.save document')) :
    (c.serve m (.save document)).Alike (c'.serve m' (.save document')) := by
  refine ⟨h.executor, h.calls, ?_, ?_, h.known⟩
  · obtain ⟨store, hwrite, -⟩ := Store.upsert_of_failures_eq_zero hsound.failures
      Collection.states c.executor.setup.portfolio document
    obtain ⟨store', hwrite', -⟩ := Store.upsert_of_failures_eq_zero hsound'.failures
      Collection.states c'.executor.setup.portfolio document'
    change some (Reply.saved (c.store.upsert ..).1) = some (Reply.saved (c'.store.upsert ..).1)
    rw [hwrite, hwrite']
  · rw [document?_save hsound hrequest, document?_save hsound' hrequest']
    exact .inr ⟨_, _, rfl, rfl, h.state⟩

theorem Alike.submit (h : c.Alike c') (hsound : c.Sound names) (hsound' : c'.Sound names')
    {order order' : Order} (hrequest : c.executor.request? = some (.submit order))
    (hrequest' : c'.executor.request? = some (.submit order')) :
    (c.serve m (.submit order)).Alike (c'.serve m' (.submit order')) := by
  have hpending := hsound.hand order (Stage.order?_of_placing? (placing?_of_request? hrequest))
  have hpending' := hsound'.hand order' (Stage.order?_of_placing? (placing?_of_request? hrequest'))
  obtain ⟨horder, hknown⟩ := h.lookup hpending hpending'
  have hanswer : (c.paper.submit order m.now).1.bare = (c'.paper.submit order' m'.now).1.bare :=
    Paper.bare_submit horder hknown
  -- from now on the desk has an answer about the pending order
  have hknows : ∀ (e : Corner σ) (m : Moment) (order : Order),
      e.executor.state.pending = some order →
      (e.serve m (.submit order)).known? = some (e.paper.submit order m.now).1.bare := by
    intro e m order horder
    change (e.executor.state.pending.bind fun pending =>
      (e.paper.submit order m.now).2.orders.lookup pending.clientId).map Order.Outcome.bare = _
    rw [horder, Option.bind_some, Paper.lookup_submit, if_pos rfl]
    rfl
  refine ⟨h.executor, h.calls, ?_, h.document, ?_⟩
  · exact congrArg (fun outcome => some (Reply.answered (.ok outcome))) hanswer
  · rw [hknows c m order hpending, hknows c' m' order' hpending', hanswer]

theorem Alike.serve (h : c.Alike c') (hsound : c.Sound names) (hsound' : c'.Sound names')
    (hmarket : c.store.collections = c'.store.collections) {request request' : Request}
    (hrequest : c.executor.request? = some request)
    (hrequest' : c'.executor.request? = some request') :
    (c.serve m request).Alike (c'.serve m' request') := by
  have hsetup : c.executor.setup = c'.executor.setup := congrArg (fun x => x.setup) h.executor
  have hbare : request.bare = request'.bare := by
    have hrequests := request?_bare c.executor 0
    rw [h.executor, request?_bare, hrequest, hrequest'] at hrequests
    exact (Option.some.inj hrequests).symm
  cases request with
  | save document =>
      cases request' with
      | save document' => exact h.save hsound hsound' hrequest hrequest'
      | _ => cases hbare
  | view event =>
      cases request' with
      | view event' =>
          cases hbare
          refine ⟨h.executor, h.calls, ?_, h.document, h.known⟩
          refine congrArg (fun view => some (Reply.bare (.viewed view))) ?_
          rw [hsetup]
          exact MarketView.ofStore_congr hmarket ..
      | _ => cases hbare
  | submit order =>
      cases request' with
      | submit order' => exact h.submit hsound hsound' hrequest hrequest'
      | _ => cases hbare
  | status clientId =>
      cases request' with
      | status clientId' =>
          obtain ⟨order, horder, rfl⟩ := order?_of_request? hrequest
          obtain ⟨order', horder', rfl⟩ := order?_of_request? hrequest'
          obtain ⟨-, hknown⟩ := h.lookup (hsound.hand order horder) (hsound'.hand order' horder')
          refine ⟨h.executor, h.calls, ?_, h.document, h.known⟩
          exact congrArg (fun outcome => some (Reply.answered (.ok outcome)))
            (Paper.bare_status hknown)
      | _ => cases hbare
  | cancel clientId =>
      cases request' with
      | cancel clientId' => exact ⟨h.executor, h.calls, rfl, h.document, h.known⟩
      | _ => cases hbare
  | sleep delay =>
      cases request' with
      | sleep delay' => exact ⟨h.executor, h.calls, rfl, h.document, h.known⟩
      | _ => cases hbare
  | pause delay =>
      cases request' with
      | pause delay' => exact ⟨h.executor, h.calls, rfl, h.document, h.known⟩
      | _ => cases hbare

theorem Alike.step (h : c.Alike c') (hsound : c.Sound (m.freshId :: names))
    (hsound' : c'.Sound (m'.freshId :: names'))
    (hmarket : c.store.collections = c'.store.collections) :
    (c.step m).Alike (c'.step m') := by
  have hrequests : c.executor.request?.map Request.bare =
      c'.executor.request?.map Request.bare := by
    rw [← request?_bare c.executor 0, h.executor, request?_bare]
  have hready : c.executor.stage.isReady = c'.executor.stage.isReady := by
    have hstage : c.executor.stage.bare 0 = c'.executor.stage.bare 0 :=
      congrArg Executor.stage h.executor
    rw [← Stage.isReady_bare _ 0, hstage, Stage.isReady_bare]
  unfold Corner.step
  cases hreply : c.reply with
  | some reply =>
      have hreplies := h.reply
      rw [hreply] at hreplies
      obtain ⟨reply', hreply', -⟩ := Option.map_eq_some_iff.mp hreplies.symm
      rw [hreply']
      exact h.resume hsound hsound' hreply hreply'
  | none =>
      have hreply' : c'.reply = none := by
        have hreplies := h.reply
        rw [hreply] at hreplies
        exact Option.map_eq_none_iff.mp hreplies.symm
      rw [hreply']
      cases hrequest : c.executor.request? with
      | some request =>
          rw [hrequest] at hrequests
          obtain ⟨request', hrequest', -⟩ := Option.map_eq_some_iff.mp hrequests.symm
          rw [hrequest']
          exact h.serve hsound hsound' hmarket hrequest hrequest'
      | none =>
          rw [hrequest] at hrequests
          rw [Option.map_eq_none_iff.mp hrequests.symm, ← h.calls]
          cases c.calls with
          | nil => exact h
          | cons call rest =>
              have hcall := h.call hsound hsound' m m' call rest
              rw [hreply, hreply'] at hcall
              simp only [← hready]
              split
              · exact hcall
              · exact h

end

end Corner

/-! ### The room -/

/-- What happens in a room: whose turn it is, and what the market, the clock and the next free name
are then. -/
structure Room.Act (ι : Type) where
  who : ι
  market : List (String × Log)
  moment : Moment

/-- An act but for the names and the clock. -/
def Room.Act.plan {ι : Type} (a : Room.Act ι) : ι × List (String × Log) := (a.who, a.market)

/-- Executors that share a store and a paper desk. -/
structure Room {ι : Type} (σ : ι → Type) where
  store : Store
  paper : Paper
  seats : (i : ι) → Seat (σ i)

namespace Room

variable {ι : Type} {σ : ι → Type}

def corner (r : Room σ) (i : ι) : Corner (σ i) :=
  { r.seats i with store := r.store, paper := r.paper }

def document? (r : Room σ) (i : ι) : Option Json := (r.corner i).document?

/-- All executors are between calls. The store does not fail, no two portfolios have one id, and no
strategy decides on names and stamps. -/
structure Open (r : Room σ) : Prop where
  failures : r.store.failures = 0
  final : r.paper.Final
  ready : ∀ i, (r.seats i).executor.stage.isReady = true
  reply : ∀ i, (r.seats i).reply = none
  blind : ∀ i, (r.seats i).executor.strategy.Blind
  apart : ∀ i j, i ≠ j →
    (r.seats i).executor.setup.portfolio ≠ (r.seats j).executor.setup.portfolio

/-- No order has these names, and none of them is given twice. -/
structure Fresh (r : Room σ) (names : List String) : Prop where
  nodup : names.Nodup
  unknown : ∀ name ∈ names, r.paper.orders.lookup name = none
  pending : ∀ i order, (r.seats i).executor.state.pending = some order → order.clientId ∉ names

/-- All executors are sound, and none places an order with the name of one that is pending for
another. -/
structure Sound (names : List String) (r : Room σ) : Prop where
  corners : ∀ i, (r.corner i).Sound names
  apart : ∀ i j, i ≠ j →
    (r.seats i).executor.setup.portfolio ≠ (r.seats j).executor.setup.portfolio
  distinct : ∀ i j, i ≠ j → ∀ order order',
    (r.seats i).executor.stage.placing? = some order →
    (r.seats j).executor.state.pending = some order' → order'.clientId ≠ order.clientId

theorem Open.sound {r : Room σ} {names : List String} (h : r.Open) (hfresh : r.Fresh names) :
    r.Sound names := by
  have hnone : ∀ i, (r.seats i).executor.stage.order? = none :=
    fun i => Stage.order?_of_isReady (h.ready i)
  refine ⟨fun i => ?_, h.apart, fun i j hne order order' horder => ?_⟩
  · exact
      { failures := h.failures
        final := h.final
        blind := h.blind i
        started := Stage.started?_of_isReady (h.ready i)
        reply := fun answer hreply => nomatch (h.reply i).symm.trans hreply
        hand := fun order horder => nomatch (hnone i).symm.trans horder
        pending := hfresh.pending i
        unknown := hfresh.unknown }
  · exact nomatch (hnone i).symm.trans (Stage.order?_of_placing? horder)

variable [DecidableEq ι]

def act (r : Room σ) (a : Act ι) : Room σ :=
  let c := ((r.corner a.who).facing a.market).step a.moment
  { store := c.store, paper := c.paper, seats := Function.update r.seats a.who c.toSeat }

def run (r : Room σ) (acts : List (Act ι)) : Room σ := acts.foldl act r

section

variable {r r' : Room σ} {names : List String} {a : Act ι} {i : ι}

theorem corner_act (r : Room σ) (a : Act ι) :
    (r.act a).corner a.who = ((r.corner a.who).facing a.market).step a.moment := by
  simp [corner, act]

theorem seats_act_of_ne (h : i ≠ a.who) : (r.act a).seats i = r.seats i :=
  Function.update_of_ne h _ _

theorem corner_act_of_ne (h : i ≠ a.who) :
    (r.act a).corner i =
      { r.corner i with store := (r.act a).store, paper := (r.act a).paper } := by
  rw [corner, seats_act_of_ne h]
  rfl

theorem setup_act (r : Room σ) (a : Act ι) (i : ι) :
    ((r.act a).seats i).executor.setup = (r.seats i).executor.setup := by
  by_cases hi : i = a.who
  · subst hi
    have hsetup := congrArg (fun c => c.executor.setup) (corner_act r a)
    exact hsetup.trans (Corner.Spares.step _ _).setup
  · rw [seats_act_of_ne hi]

theorem spares_act (r : Room σ) (a : Act ι) :
    ((r.corner a.who).facing a.market).Spares ((r.act a).corner a.who) := by
  rw [corner_act]
  exact Corner.Spares.step _ _

theorem named_act (r : Room σ) (a : Act ι) :
    (∀ order, ((r.act a).seats a.who).executor.state.pending = some order →
      order.clientId = a.moment.freshId ∨ (r.seats a.who).executor.state.pending = some order) ∧
    ∀ order, ((r.act a).seats a.who).executor.stage.placing? = some order →
      order.clientId = a.moment.freshId ∨ (r.seats a.who).executor.stage.placing? = some order := by
  have hnamed := Corner.named_step ((r.corner a.who).facing a.market) a.moment
  rw [← corner_act] at hnamed
  exact hnamed

theorem Sound.act (h : r.Sound (a.moment.freshId :: names)) (hnew : a.moment.freshId ∉ names) :
    (r.act a).Sound names := by
  have hwho : ((r.act a).corner a.who).Sound names := by
    rw [corner_act]
    exact (h.corners a.who).facing.step hnew
  have hgiven : ∀ i order, (r.seats i).executor.state.pending = some order →
      order.clientId ≠ a.moment.freshId :=
    fun i order horder heq => (h.corners i).pending order horder (heq ▸ List.mem_cons_self)
  obtain ⟨hpending, hplacing⟩ := named_act r a
  refine ⟨fun i => ?_, fun i j hne => ?_, fun i j hne order order' horder horder' => ?_⟩
  -- the others have but the store and the desk in common with whose turn it is
  · by_cases hi : i = a.who
    · exact hi ▸ hwho
    · have hbefore : (r.corner i).Sound names :=
        (h.corners i).fewer fun _ => List.mem_cons_of_mem _
      rw [corner_act_of_ne hi]
      exact { hbefore with
        failures := hwho.failures
        final := hwho.final
        unknown := hwho.unknown }
  · rw [setup_act, setup_act]
    exact h.apart i j hne
  · by_cases hi : i = a.who
    · subst hi
      rw [seats_act_of_ne (Ne.symm hne)] at horder'
      rcases hplacing order horder with hname | hbefore
      · rw [hname]
        exact hgiven j order' horder'
      · exact h.distinct a.who j hne order order' hbefore horder'
    · rw [seats_act_of_ne hi] at horder
      by_cases hj : j = a.who
      · subst hj
        rcases hpending order' horder' with hname | hbefore
        · rw [hname]
          have hhand := (h.corners i).hand order (Stage.order?_of_placing? horder)
          exact (hgiven i order hhand).symm
        · exact h.distinct i a.who hne order order' horder hbefore
      · rw [seats_act_of_ne hj] at horder'
        exact h.distinct i j hne order order' horder horder'

/-- What one executor does leaves another one alike to whom it was alike to. -/
theorem Sound.alike_act_of_ne (h : r.Sound names) (hi : i ≠ a.who) {c : Corner (σ i)}
    (halike : (r.corner i).Alike c) : ((r.act a).corner i).Alike c := by
  have hspares := spares_act r a
  rw [corner_act_of_ne hi]
  refine ⟨halike.executor, halike.calls, halike.reply, ?_, ?_⟩
  · have hne : (Collection.states, (r.seats i).executor.setup.portfolio) ≠
        (Collection.states, (r.seats a.who).executor.setup.portfolio) :=
      fun heq => h.apart i a.who hi (congrArg Prod.snd heq)
    have hdocument : (r.act a).store.fetch? Collection.states
        (r.seats i).executor.setup.portfolio = (r.corner i).document? :=
      hspares.documents _ _ hne
    have hsame := halike.document
    rw [← hdocument] at hsame
    exact hsame
  · refine Eq.trans ?_ halike.known
    refine Corner.known?_eq rfl fun order order' horder horder' => ?_
    obtain rfl : order = order' := Option.some.inj (horder.symm.trans horder')
    refine congrArg (Option.map Order.Outcome.bare) (hspares.orders order.clientId ?_)
    exact fun placed hplaced => h.distinct a.who i hi.symm placed order hplaced horder

theorem Sound.alike_run {acts alone : List (Act ι)} (h : r.Sound (acts.map (·.moment.freshId)))
    (hnames : (acts.map (·.moment.freshId)).Nodup)
    (h' : r'.Sound (alone.map (·.moment.freshId)))
    (hnames' : (alone.map (·.moment.freshId)).Nodup)
    (hplan : alone.map Act.plan = (acts.filter (·.who = i)).map Act.plan)
    (halike : (r.corner i).Alike (r'.corner i)) :
    ((r.run acts).corner i).Alike ((r'.run alone).corner i) := by
  -- along the joint run: an act of this executor is one of both runs, any other is not
  induction acts generalizing r r' alone with
  | nil =>
      obtain rfl : alone = [] := by simpa using hplan
      exact halike
  | cons a rest ih =>
      rw [List.map_cons, List.nodup_cons] at hnames
      have hrest := h.act hnames.1
      by_cases hi : i = a.who
      · subst hi
        cases alone with
        | nil => simp at hplan
        | cons b alone =>
            obtain ⟨who, market, moment⟩ := b
            rw [List.filter_cons_of_pos (by simp), List.map_cons, List.map_cons,
              List.cons.injEq] at hplan
            obtain ⟨hplan, hplans⟩ := hplan
            obtain ⟨rfl, rfl⟩ : who = a.who ∧ market = a.market := by simpa [Act.plan] using hplan
            rw [List.map_cons, List.nodup_cons] at hnames'
            let b : Act ι := ⟨a.who, a.market, moment⟩
            have hnext : ((r.act a).corner a.who).Alike ((r'.act b).corner b.who) := by
              rw [corner_act, corner_act]
              exact (halike.facing a.market).step (h.corners a.who).facing
                (h'.corners a.who).facing rfl
            have hends := ih hrest hnames.2 (h'.act (a := b) hnames'.1) hnames'.2 hplans hnext
            exact hends
      · rw [List.filter_cons_of_neg (by simpa using Ne.symm hi)] at hplan
        exact ih hrest hnames.2 h' hnames' hplan (h.alike_act_of_ne hi halike)

theorem setup_run (r : Room σ) (acts : List (Act ι)) (i : ι) :
    ((r.run acts).seats i).executor.setup = (r.seats i).executor.setup := by
  induction acts generalizing r with
  | nil => rfl
  | cons a rest ih => exact (ih (r.act a)).trans (setup_act r a i)

/-- Portfolios with ids of their own do not interfere. However their executors take turns at one
store that does not fail and at one paper desk, each of them gets where it gets alone with the same
markets, and leaves the same document, but for names and stamps. Whatever one executor does leaves
all collections as they are and all keyed documents but its own. -/
theorem portfolios_do_not_interfere (h : r.Open) {acts : List (Act ι)}
    (hfresh : r.Fresh (acts.map (·.moment.freshId))) :
    (∀ i alone, alone.map Act.plan = (acts.filter (·.who = i)).map Act.plan →
      r.Fresh (alone.map (·.moment.freshId)) →
      ((r.run acts).seats i).executor.bare 0 = ((r.run alone).seats i).executor.bare 0 ∧
        ((r.run acts).seats i).calls = ((r.run alone).seats i).calls ∧
        Corner.SameDocument ((r.run acts).document? i) ((r.run alone).document? i)) ∧
    ∀ before a after, acts = before ++ a :: after →
      ((r.run before).act a).store.collections = a.market ∧
        ∀ collection id,
          (collection, id) ≠ (Collection.states, (r.seats a.who).executor.setup.portfolio) →
          ((r.run before).act a).store.fetch? collection id =
            (r.run before).store.fetch? collection id := by
  refine ⟨fun i alone hplan hfresh' => ?_, fun before a after _ => ?_⟩
  · have halike := (h.sound hfresh).alike_run hfresh.nodup (h.sound hfresh') hfresh'.nodup hplan
      ⟨rfl, rfl, rfl, .inl rfl, rfl⟩
    exact ⟨halike.executor, halike.calls, halike.document⟩
  · have hspares := spares_act (r.run before) a
    refine ⟨hspares.collections, fun collection id hne => hspares.documents collection id ?_⟩
    rw [← setup_run r before] at hne
    exact hne

end

/-! ### Two portfolios that buy -/

def cheapMarket : List (String × Log) :=
  [(Collection.quotes "btc",
    { documents := (World.marketAt .one).quote.toList.map fun quote =>
        ⟨Collection.quotes "btc", 1, "quote", quote.toJson, quote.receivedTime⟩ })]

/-- Two portfolios that are to handle the same event. -/
def twoBuyers : Room fun _ : Bool => TargetPrice where
  store := {}
  paper := {}
  seats who :=
    let portfolio := if who then "alpha" else "beta"
    { executor :=
        { setup := { World.eagerSetup with portfolio }
          strategy := TargetPrice.strategy
          memory := { target := World.modestTarget }
          state := Portfolio.new portfolio World.eagerMoment.now
          stage := .ready (.ok ())
          announced := [] }
      calls := [some World.eagerEvent] }

def turn (who : Bool) (n : Nat) : Act Bool :=
  ⟨who, cheapMarket, ⟨n, { seconds := n, nanos := 0 }, String.ofList (List.replicate n 'x')⟩⟩

def byTurns : List (Act Bool) := (List.range 22).map fun n => turn (n % 2 == 0) n

/-- The second buyer alone, a while later. -/
def secondAlone : List (Act Bool) := (List.range 11).map fun n => turn false (n + 100)

theorem twoBuyers_open : twoBuyers.Open where
  failures := rfl
  final := nofun
  ready _ := rfl
  reply _ := rfl
  blind _ := TargetPrice.strategy_blind
  apart := by decide +kernel

theorem twoBuyers_fresh {names : List String} (h : names.Nodup) : twoBuyers.Fresh names where
  nodup := h
  unknown _ _ := rfl
  pending := nofun

/-- Both portfolios buy a unit, the second one just as it does alone. -/
theorem each_buyer_buys :
    (∀ who, ((twoBuyers.run byTurns).seats who).executor.state.lots.length = 1) ∧
      ((twoBuyers.run byTurns).seats false).executor.state.bare =
        ((twoBuyers.run secondAlone).seats false).executor.state.bare := by
  refine ⟨by decide +kernel, ?_⟩
  have hplan : secondAlone.map Act.plan = (byTurns.filter (·.who = false)).map Act.plan := rfl
  have hnames : (byTurns.map (·.moment.freshId)).Nodup := by decide +kernel
  obtain ⟨hsame, -⟩ := portfolios_do_not_interfere twoBuyers_open (twoBuyers_fresh hnames)
  obtain ⟨hexecutor, -⟩ := hsame false secondAlone hplan (twoBuyers_fresh (by decide +kernel))
  exact congrArg Executor.state hexecutor

end Room
end TradingDesk

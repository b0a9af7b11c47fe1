import TradingDesk.Proofs.Settings
import TradingDesk.Proofs.Trading.Bargains
import TradingDesk.Proofs.Trading.Bookings
import TradingDesk.Proofs.Trading.Paper
/-!
# Trading on paper

A portfolio that trades at a paper desk is filled in full at the limits of its orders, and so it
books just what it decided on. It sells a lot for no less than it was bought at and buys for no more
than the last sale brought, whatever crashes and restarts come in between.
-/

namespace TradingDesk
namespace Executor

open Decimal (zero Represented)

/-- An order in a portfolio's hand is one that the portfolio has created. -/
theorem World.Reachable.created_of_awaits {σ : Type} {setup : Setup} {strategy : Strategy σ}
    {w : World σ} (hreach : Reachable setup strategy w) {q : Process σ} (hq : w.process = some q)
    {order : Order} (hawaits : q.executor.Awaits order) : order ∈ w.transcript.created := by
  have hpending := hreach.pending_of_awaits hq hawaits
  have hposture : (w.outline setup).posture =
      some ⟨q.executor.state, q.executor.aimWith q.reply, q.call⟩ := by
    simp [World.outline, hq]
  have haim : q.executor.aimWith q.reply ≠ .broken := by
    rcases hawaits.aimWith_cases q.reply with hplacing | hfollowing
    · rw [hplacing]
      rintro ⟨⟩
    · rw [hfollowing]
      rintro ⟨⟩
  have hentered := (Booked.of_steps hreach.outline.1).memory _ hposture haim
  exact hentered.orders.subset (by simp [hpending])

theorem awaits_of_status {σ : Type} {x : Executor σ} {clientId : String}
    (h : x.request? = some (.status clientId)) : ∃ order, x.Awaits order := by
  unfold request? at h
  cases hstage : x.stage <;> simp [hstage] at h
  case reconciling order waiting => exact ⟨order, .inr (.inl ⟨waiting, hstage⟩)⟩
  case querying s => exact ⟨s.order, .inr (.inr ⟨s, hstage, rfl⟩)⟩

/-- A portfolio that trades at a paper desk, with the orders that the desk gets from elsewhere. -/
structure Practice where
  world : World TargetPrice
  desk : Paper
  others : List Order

namespace Practice

variable {setup : Setup} {c : Settings.Target} {p p' : Practice}

/-- All orders that the desk may get. -/
def orders (p : Practice) : List Order := p.world.transcript.created ++ p.others

/-- No two orders have one name. -/
def Named (p : Practice) : Prop := (p.orders.map (·.clientId)).Nodup

inductive Step (setup : Setup) (c : Settings.Target) : Practice → Practice → Prop
  /-- The portfolio goes on, in a market of positive prices and without an answer of the desk. -/
  | work {w w' : World TargetPrice} {desk : Paper} {others : List Order}
      (hstep : World.TradingStep setup c w w')
      (hquiet : ∀ answer, w'.reply? = some (.answered answer) → w.reply? = some (.answered answer))
      (hmarket : ∀ view, w'.reply? = some (.viewed (.ok view)) → view.Positive) :
      Step setup c ⟨w, desk, others⟩ ⟨w', desk, others⟩
  | submit {store : Store} {t : Transcript} {x : Executor TargetPrice} {call : Option ChangeEvent}
      {desk : Paper} {others : List Order} {order : Order} {now : Instant}
      (hrequest : x.request? = some (.submit order)) (hnow : now.Valid) :
      Step setup c ⟨⟨store, some ⟨x, call, none⟩, t⟩, desk, others⟩
        ⟨⟨store, some ⟨x, call, some (.answered (.ok (desk.submit order now).1))⟩,
          t ++ [.submitted call order]⟩, (desk.submit order now).2, others⟩
  | query {store : Store} {t : Transcript} {x : Executor TargetPrice} {call : Option ChangeEvent}
      {desk : Paper} {others : List Order} {clientId : String}
      (hrequest : x.request? = some (.status clientId)) :
      Step setup c ⟨⟨store, some ⟨x, call, none⟩, t⟩, desk, others⟩
        ⟨⟨store, some ⟨x, call, some (.answered (.ok (desk.status clientId)))⟩, t⟩, desk, others⟩
  /-- The desk gets an order of another portfolio. -/
  | visit {w : World TargetPrice} {desk : Paper} {others : List Order} {order : Order}
      {now : Instant} (hnow : now.Valid) :
      Step setup c ⟨w, desk, others⟩ ⟨w, (desk.submit order now).2, others ++ [order]⟩
  /-- The desk went with the process, and there is a new one. -/
  | renew {store : Store} {t : Transcript} {desk : Paper} {others : List Order} :
      Step setup c ⟨⟨store, none, t⟩, desk, others⟩ ⟨⟨store, none, t⟩, {}, others⟩

/-- Where a portfolio without a state document can come to on paper. -/
inductive Reachable (setup : Setup) (c : Settings.Target) : Practice → Prop
  | initial {store : Store}
      (hnew : store.fetch? Collection.states setup.portfolio = none) :
      Reachable setup c ⟨⟨store, none, []⟩, {}, []⟩
  | step {p p' : Practice} (hreach : Reachable setup c p) (hstep : Step setup c p p') :
      Reachable setup c p'

/-! ### What a run keeps -/

/-- The desk answers for the order that the portfolio has in its hand. -/
def Answered (p : Practice) : Prop :=
  ∀ q order outcome, p.world.process = some q → q.executor.Awaits order →
    q.reply = some (.answered (.ok outcome)) → Paper.Fulfils order outcome

/-- The desk tells what became of each order, and the portfolio has traded at positive prices. -/
structure Sound (setup : Setup) (c : Settings.Target) (p : Practice) : Prop where
  trades : World.Trades setup c p.world
  modest : p.world.transcript.Modest
  thrifty : p.world.Holds setup (Portfolio.Thrifty c)
  market : ∀ view, p.world.reply? = some (.viewed (.ok view)) → view.Positive
  honest : p.desk.Honest p.orders
  answered : p.Answered

theorem Sound.initial {store : Store}
    (hnew : store.fetch? Collection.states setup.portfolio = none) :
    Sound setup c ⟨⟨store, none, []⟩, {}, []⟩ where
  trades := .initial hnew
  modest := by simp [Transcript.Modest]
  thrifty := by
    rintro p (hstored | ⟨q, hq, -⟩)
    · rw [World.stored?, World.document?, hnew] at hstored
      contradiction
    · cases hq
  market := by simp [World.reply?]
  honest := Paper.honest_new _
  answered := by
    rintro q order outcome ⟨⟩

/-- An answer that is taken in is about the pending order, and fills it. -/
theorem Sound.fulfilled (h : Sound setup c p) {q : Process TargetPrice} {order : Order}
    {fill : Fill} (hq : p.world.process = some q) (hawaits : q.executor.Awaits order)
    (hreply : q.reply = some (.answered (.ok (.filled fill)))) :
    zero < order.size ∧ fill.size = order.size ∧ zero < fill.price := by
  obtain ⟨-, hsize, hlimit⟩ := h.answered q order _ hq hawaits hreply fill rfl
  have hpending := h.trades.reachable.pending_of_awaits hq hawaits
  obtain ⟨hpos, price, hprice, hpositive, -⟩ :=
    (h.thrifty _ (.inr ⟨q, hq, rfl⟩)).pending order hpending
  obtain rfl := Option.some.inj (hlimit.symm.trans hprice)
  exact ⟨hpos, hsize, hpositive⟩

theorem Sound.modest_step (h : Sound setup c p) {w' : World TargetPrice}
    (hstep : World.Step setup TargetPrice.strategy p.world w') : w'.transcript.Modest := by
  intro order fill hmem
  obtain ⟨world, desk, others⟩ := p
  have hbefore : ∀ {t : Transcript}, Observation.answered order (.ok (.filled fill)) ∈ t →
      world.transcript = t → zero < fill.size ∧ fill.size ≤ order.size := by
    rintro t hold rfl
    exact h.modest order fill hold
  cases hstep with
  | ask hrequest hserved =>
      rcases List.mem_append.mp hmem with hold | hseen
      · exact hbefore hold rfl
      · cases hserved <;> simp at hseen
  | resume hnow =>
      rcases List.mem_append.mp hmem with hold | hseen
      · exact hbefore hold rfl
      · obtain ⟨hawaits, rfl⟩ := awaits_of_learned hseen
        obtain ⟨hpos, hsize, -⟩ := h.fulfilled rfl hawaits rfl
        rw [hsize]
        exact ⟨hpos, Decimal.le_iff.mpr le_rfl⟩
  | crash =>
      rcases List.mem_append.mp hmem with hold | hseen
      · exact hbefore hold rfl
      · simp at hseen
  | start | recover | handle | elsewhere => exact hbefore hmem rfl

theorem Sound.thrifty_step (h : Sound setup c p) (hsize : zero < c.size)
    (htolerance : zero ≤ c.tolerance) {w' : World TargetPrice}
    (hstep : World.Step setup TargetPrice.strategy p.world w') :
    w'.Holds setup (Portfolio.Thrifty c) := by
  refine hstep.holds h.trades.reachable ?_ ?_ ?_ h.thrifty
  · exact fun now => Portfolio.thrifty_new c setup.portfolio now
  · exact fun _ _ hp hbook hpending => hp.of_book hbook (.inl hpending)
  · intro x call reply m hq htranscript hthrifty
    have hprudent := (h.trades.limited h.modest).process _ hq
    refine hprudent.thrifty_resume hsize htolerance hthrifty ?_ ?_
    · rintro view rfl
      exact h.market view (by rw [World.reply?, hq]; rfl)
    · rintro order fill hawaits rfl
      exact (h.fulfilled hq hawaits rfl).2.2

/-- What the portfolio does is sound if what it is told is. -/
theorem Sound.follow (h : Sound setup c p) (hsize : zero < c.size) (htolerance : zero ≤ c.tolerance)
    (hstep : World.TradingStep setup c p.world p'.world)
    (hmarket : ∀ view, p'.world.reply? = some (.viewed (.ok view)) → view.Positive)
    (hhonest : p'.desk.Honest p'.orders) (hanswered : p'.Answered) : Sound setup c p' where
  trades := h.trades.step hstep
  modest := h.modest_step hstep.1
  thrifty := h.thrifty_step hsize htolerance hstep.1
  market := hmarket
  honest := hhonest
  answered := hanswered

theorem Step.orders_sublist (hstep : Step setup c p p') : p.orders.Sublist p'.orders := by
  cases hstep with
  | work hstep hquiet hmarket =>
      obtain ⟨seen, htranscript⟩ := hstep.1.transcript_eq
      rw [orders, orders, htranscript, Transcript.created_append]
      exact (List.sublist_append_left _ _).append (List.Sublist.refl _)
  | submit hrequest hnow =>
      rw [orders, orders, Transcript.created_append]
      exact (List.sublist_append_left _ _).append (List.Sublist.refl _)
  | query | renew => exact List.Sublist.refl _
  | visit hnow => exact (List.Sublist.refl _).append (List.sublist_append_left _ _)

theorem Named.before (h : p'.Named) (hstep : Step setup c p p') : p.Named :=
  h.sublist (hstep.orders_sublist.map _)

/-- An answer that comes with a step of the portfolio alone was there before. -/
theorem Answered.work {w w' : World TargetPrice} {desk : Paper} {others : List Order}
    (h : (⟨w, desk, others⟩ : Practice).Answered) (hstep : World.TradingStep setup c w w')
    (hquiet : ∀ answer, w'.reply? = some (.answered answer) → w.reply? = some (.answered answer)) :
    (⟨w', desk, others⟩ : Practice).Answered := by
  intro q order outcome hq hawaits hreply
  have hbefore := hquiet (.ok outcome) (by rw [World.reply?, hq]; exact hreply)
  obtain ⟨hstep, -⟩ := hstep
  cases hstep with
  | elsewhere hkept => exact h q order outcome hq hawaits hreply
  | ask hrequest hserved => cases hbefore
  | start | recover | handle | resume | crash => cases hq <;> cases hreply

/-- The desk tells the portfolio what became of the order that it has in its hand. -/
theorem Sound.tell {store : Store} {t seen : Transcript} {x : Executor TargetPrice}
    {call : Option ChangeEvent} {desk desk' : Paper} {others : List Order} {request : Request}
    {order : Order} {outcome : Order.Outcome}
    (h : Sound setup c ⟨⟨store, some ⟨x, call, none⟩, t⟩, desk, others⟩) (hsize : zero < c.size)
    (htolerance : zero ≤ c.tolerance) (hrequest : x.request? = some request)
    (hserved : ValidAnswer (.ok outcome) →
      Served setup.portfolio call store request (.answered (.ok outcome)) store seen)
    (hcreated : seen.created = []) (hawaits : x.Awaits order)
    (hfulfils : ∀ order, x.Awaits order → Paper.Fulfils order outcome)
    (hhonest : desk'.Honest (t.created ++ others)) :
    Sound setup c
      ⟨⟨store, some ⟨x, call, some (.answered (.ok outcome))⟩, t ++ seen⟩, desk', others⟩ := by
  have hvalid : ValidAnswer (.ok outcome) := by
    rintro fill ⟨⟩
    exact (hfulfils order hawaits fill rfl).1
  have hstep : World.TradingStep setup c ⟨store, some ⟨x, call, none⟩, t⟩
      ⟨store, some ⟨x, call, some (.answered (.ok outcome))⟩, t ++ seen⟩ := by
    refine ⟨.ask hrequest (hserved hvalid), ?_⟩
    rintro q ⟨⟩
  refine h.follow hsize htolerance hstep ?_ ?_ ?_
  · rintro view ⟨⟩
  · rwa [orders, Transcript.created_append, hcreated, List.append_nil]
  · rintro q order' outcome' ⟨⟩ hawaits' ⟨⟩
    exact hfulfils order' hawaits'

theorem Sound.submit {store : Store} {t : Transcript} {x : Executor TargetPrice}
    {call : Option ChangeEvent} {desk : Paper} {others : List Order} {order : Order} {now : Instant}
    (h : Sound setup c ⟨⟨store, some ⟨x, call, none⟩, t⟩, desk, others⟩)
    (hnamed : ((t.created ++ others).map (·.clientId)).Nodup) (hsize : zero < c.size)
    (htolerance : zero ≤ c.tolerance) (hrequest : x.request? = some (.submit order))
    (hnow : now.Valid) :
    Sound setup c ⟨⟨store, some ⟨x, call, some (.answered (.ok (desk.submit order now).1))⟩,
      t ++ [.submitted call order]⟩, (desk.submit order now).2, others⟩ := by
  have hawaits : x.Awaits order := .inl (stage_of_submit hrequest)
  have hcreated : order ∈ t.created ++ others :=
    List.mem_append_left _ (h.trades.reachable.created_of_awaits rfl hawaits)
  refine h.tell hsize htolerance hrequest (.submitted order) rfl hawaits ?_
    (h.honest.submit hnamed hcreated hnow)
  intro order' hawaits'
  have hsame : order' = order := by
    rcases hawaits'.request? with hsubmit | hstatus
    · exact Request.submit.inj (Option.some.inj (hsubmit.symm.trans hrequest))
    · cases hstatus.symm.trans hrequest
  rw [hsame]
  exact h.honest.fulfils_submit hnamed hcreated hnow

theorem Sound.query {store : Store} {t : Transcript} {x : Executor TargetPrice}
    {call : Option ChangeEvent} {desk : Paper} {others : List Order} {clientId : String}
    (h : Sound setup c ⟨⟨store, some ⟨x, call, none⟩, t⟩, desk, others⟩)
    (hnamed : ((t.created ++ others).map (·.clientId)).Nodup) (hsize : zero < c.size)
    (htolerance : zero ≤ c.tolerance) (hrequest : x.request? = some (.status clientId)) :
    Sound setup c ⟨⟨store, some ⟨x, call, some (.answered (.ok (desk.status clientId)))⟩, t⟩,
      desk, others⟩ := by
  obtain ⟨order, hawaits⟩ := awaits_of_status hrequest
  suffices htold : Sound setup c
      ⟨⟨store, some ⟨x, call, some (.answered (.ok (desk.status clientId)))⟩, t ++ []⟩,
        desk, others⟩ by
    rwa [List.append_nil] at htold
  refine h.tell hsize htolerance hrequest (.status clientId) rfl hawaits ?_ h.honest
  intro order' hawaits'
  have hcreated : order' ∈ t.created ++ others :=
    List.mem_append_left _ (h.trades.reachable.created_of_awaits rfl hawaits')
  have hname : order'.clientId = clientId := by
    rcases hawaits'.request? with hsubmit | hstatus
    · cases hsubmit.symm.trans hrequest
    · exact Request.status.inj (Option.some.inj (hstatus.symm.trans hrequest))
  rw [← hname]
  exact h.honest.fulfils_status hnamed hcreated

theorem Sound.step (h : Sound setup c p) (hsize : zero < c.size) (htolerance : zero ≤ c.tolerance)
    (hstep : Step setup c p p') (hnamed : p'.Named) : Sound setup c p' := by
  have hhonest := h.honest.mono hstep.orders_sublist.subset
  have hnames := hnamed.before hstep
  cases hstep with
  | work hstep hquiet hmarket =>
      exact h.follow hsize htolerance hstep hmarket hhonest (h.answered.work hstep hquiet)
  | submit hrequest hnow => exact h.submit hnames hsize htolerance hrequest hnow
  | query hrequest => exact h.query hnames hsize htolerance hrequest
  | visit hnow => exact { h with honest := hhonest.submit hnamed (by simp [orders]) hnow }
  | renew => exact { h with honest := Paper.honest_new _ }

theorem Reachable.sound (hreach : Reachable setup c p) (hsize : zero < c.size)
    (htolerance : zero ≤ c.tolerance) (hnamed : p.Named) : Sound setup c p := by
  induction hreach with
  | initial hnew => exact .initial hnew
  | step _ hstep ih => exact (ih (hnamed.before hstep)).step hsize htolerance hstep hnamed

/-- What a portfolio of accepted settings hands in, on paper and in a market of positive prices, has
a limit. Unless the factor of its side is negative, which the rules for settings allow, a sale is
for no less than what the open lot was bought at, if the cost of that lot is a decimal, and a
purchase for no more than the last sale brought. -/
theorem bargains_are_kept {settings : Settings} {b : Settings.Binding}
    (hvalid : settings.validate = .ok ()) (hb : b ∈ settings.portfolios)
    (hreach : Reachable ⟨b.id, b.asset, settings.execution⟩ b.strategy p) (hnamed : p.Named)
    {q : Process TargetPrice} (hq : p.world.process = some q) {order : Order}
    (hrequest : q.executor.request? = some (.submit order)) :
    ∃ price, order.limit = some price ∧ zero < price ∧
      (order.side = .sell → (zero < b.strategy.tolerance → zero ≤ b.strategy.upside) →
        ∀ lot ∈ q.executor.state.lots, Represented (lot.size.value * lot.entryPrice.value) →
          lot.entryPrice ≤ price) ∧
      (order.side = .buy → (zero < b.strategy.tolerance → zero ≤ b.strategy.downside) →
        ∀ exit, q.executor.state.lastExit = some exit → price ≤ exit) := by
  obtain ⟨hsize, htolerance⟩ := Settings.traded_of_validate hvalid hb
  have hsound := hreach.sound hsize htolerance hnamed
  have hpending := hsound.trades.reachable.pending_of_awaits hq (.inl (stage_of_submit hrequest))
  obtain ⟨-, price, hlimit, hpositive, hbargain⟩ :=
    (hsound.thrifty _ (.inr ⟨q, hq, rfl⟩)).pending order hpending
  exact ⟨price, hlimit, hpositive, hbargain.sell, hbargain.buy⟩

/-! ### A purchase and a sale -/

theorem positive_marketAt {price : Decimal} (h : zero < price) :
    (World.marketAt price).Positive := by
  constructor <;> rintro price ⟨⟩ <;> exact h

theorem Reachable.works {w w' : World TargetPrice} {desk : Paper} {others : List Order}
    (h : Reachable setup c ⟨w, desk, others⟩) (halive : w.process.isSome = true)
    (hstep : World.Step setup TargetPrice.strategy w w') (hnone : w'.reply? = none) :
    Reachable setup c ⟨w', desk, others⟩ := by
  refine h.step (.work (hstep.trading halive) ?_ ?_) <;> simp [hnone]

/-- What leads to an order in a market of positive prices can happen on paper. -/
theorem Reachable.viewing {view : MarketView} {w w' : World TargetPrice} {desk : Paper}
    {others : List Order} (h : Reachable setup c ⟨w, desk, others⟩)
    (halive : w.process.isSome = true) (hview : view.Positive)
    (hsteps : World.ViewingSteps setup TargetPrice.strategy view w w')
    (hcrash : Observation.crashed ∉ w'.transcript) :
    Reachable setup c ⟨w', desk, others⟩ ∧ w'.process.isSome = true := by
  induction hsteps with
  | refl => exact ⟨h, halive⟩
  | tail hsteps hlast ih =>
      obtain ⟨⟨hstep, hquiet⟩, hseen⟩ := hlast
      obtain ⟨seen, htranscript⟩ := hstep.transcript_eq
      obtain ⟨hreach, halive⟩ := ih fun hmem => hcrash (by simp [htranscript, hmem])
      refine ⟨hreach.step (.work (hstep.trading halive) hquiet ?_), hstep.alive halive hcrash⟩
      intro other hother
      rwa [hseen other hother]

open World

def unitFill : Fill :=
  { exchangeId := "paper-1", size := .one, price := .one, filledAt := eagerMoment.now }

def unitLot : Lot := ⟨"first", "paper-1", .one, .one, eagerMoment.now⟩

/-- The portfolio that has bought a unit. -/
def unitState : Portfolio :=
  { placingState "alpha" eagerEvent unitOrder eagerMoment.now with
    phase := .idle
    pending := none
    lots := [unitLot] }

def unitDesk : Paper := (({} : Paper).submit unitOrder eagerMoment.now).2

def unitTranscript : Transcript :=
  [.stored (judgingState "alpha" eagerMoment.now).toJson.settled, .created unitOrder,
    .stored (placingState "alpha" eagerEvent unitOrder eagerMoment.now).toJson.settled,
    .submitted (some eagerEvent) unitOrder, .answered unitOrder (.ok (.filled unitFill)),
    .stored unitState.toJson.settled]

/-- A portfolio that decides to buy a unit at one gets it. -/
theorem Reachable.bought (hbuys : TargetPrice.evaluate? { target := c } (marketAt .one)
      (judgingState "alpha" eagerMoment.now) =
      some (.go (TargetPrice.buyAt .one lowTarget .one), { target := c })) :
    ∃ store announced, store.failures = 0 ∧
      Reachable eagerSetup c ⟨⟨store, some ⟨⟨eagerSetup, TargetPrice.strategy, { target := c },
        unitState, .ready (.ok ()), announced⟩, some eagerEvent, none⟩, unitTranscript⟩,
        unitDesk, []⟩ := by
  let x : Executor TargetPrice := ⟨eagerSetup, TargetPrice.strategy, { target := c },
    Portfolio.new "alpha" eagerMoment.now, .ready (.ok ()), []⟩
  have hbegun : Reachable eagerSetup c ⟨⟨{}, some ⟨x, none, none⟩, []⟩, {}, []⟩ := by
    refine (Reachable.initial rfl).step
      (.work ⟨.start _ eagerMoment_valid rfl, ?_⟩ (by rintro _ ⟨⟩) (by rintro _ ⟨⟩))
    rintro _ - ⟨⟩
    rfl
  obtain ⟨store, announced, hfailures, -, hplace⟩ := ViewingSteps.place TargetPrice.strategy x {} []
    none (marketAt .one) rfl rfl rfl rfl (eagerEvent_watched 1) (by decide) eagerMoment_valid rfl
    hbuys rfl
  obtain ⟨hplacing, -⟩ := hbegun.viewing rfl (positive_marketAt (by decide)) hplace (by simp)
  have hanswered := hplacing.step (.submit rfl eagerMoment_valid)
  have hbooked := hanswered.works rfl (.resume (m := eagerMoment) eagerMoment_valid) rfl
  obtain ⟨store', hwrite, hfailures'⟩ :=
    Store.upsert_of_failures_eq_zero hfailures Collection.states "alpha" _
  have hstored := hbooked.step (.work
    (Step.trading (.ask rfl (.saved hwrite)) rfl) (by rintro _ ⟨⟩) (by rintro _ ⟨⟩))
  have hready := hstored.works rfl (.resume (m := eagerMoment) eagerMoment_valid) rfl
  exact ⟨store', _, hfailures', hready⟩

/-- A portfolio that has bought a unit hands in the order to sell it that it decides on. -/
theorem Reachable.offered
    (hbuys : TargetPrice.evaluate? { target := c } (marketAt .one)
      (judgingState "alpha" eagerMoment.now) =
      some (.go (TargetPrice.buyAt .one lowTarget .one), { target := c })) {price target : Decimal}
    (hprice : zero < price)
    (hsells : TargetPrice.evaluate? { target := c } (marketAt price)
      (judging unitState eagerMoment.now) =
      some (.go (TargetPrice.sellAt price target .one), { target := c })) :
    ∃ p q order, Reachable eagerSetup c p ∧ p.Named ∧ p.world.process = some q ∧
      q.executor.request? = some (.submit order) ∧ order.side = .sell ∧ order.limit = some price ∧
      q.executor.state.lots = [unitLot] := by
  obtain ⟨store, announced, hfailures, hready⟩ := Reachable.bought hbuys
  have hnew : unitState.hasEvaluated { eagerEvent with sequence := 2 } = false := rfl
  obtain ⟨store', announced', -, -, hplace⟩ := ViewingSteps.place TargetPrice.strategy
    ⟨eagerSetup, TargetPrice.strategy, { target := c }, unitState, .ready (.ok ()), announced⟩ store
    unitTranscript (some eagerEvent) (m := { eagerMoment with freshId := "second" })
    (marketAt price) rfl rfl rfl hnew (eagerEvent_watched 2) (by decide) eagerMoment_valid hfailures
    hsells rfl
  obtain ⟨hoffering, -⟩ := hready.viewing rfl (positive_marketAt hprice) hplace
    (by simp [unitTranscript])
  refine ⟨_, _, _, hoffering, ?_, rfl, rfl, rfl, rfl, rfl⟩
  simp [Named, orders, Transcript.created, unitTranscript, unitOrder, Order.ofTrade, eagerMoment]

/-- One unit is traded around a price of two. -/
def practiceSettings (upside : Decimal) : Settings :=
  { Settings.plain with
    stream := { assets := ["btc"] }
    portfolios := [{ id := "alpha", asset := "btc", strategy := { modestTarget with upside } }] }

theorem unitState_entryPrice? :
    (judging unitState eagerMoment.now).entryPrice? = some (some .one) := by
  decide +kernel

/-- A unit that was bought at one is sold at two. -/
theorem unit_is_sold_above_its_cost :
    ∃ b ∈ (practiceSettings .one).portfolios, ∃ p q order price lot,
      Reachable ⟨b.id, b.asset, (practiceSettings .one).execution⟩ b.strategy p ∧
        p.world.process = some q ∧ q.executor.request? = some (.submit order) ∧
        order.side = .sell ∧ order.limit = some price ∧ lot ∈ q.executor.state.lots ∧
        lot.entryPrice ≤ price := by
  have hvalid : (practiceSettings .one).validate = .ok () := by decide +kernel
  have hsells : TargetPrice.evaluate? { target := { modestTarget with upside := .one } }
      (marketAt .two) (judging unitState eagerMoment.now) =
      some (.go (TargetPrice.sellAt .two highTarget .one),
        { target := { modestTarget with upside := .one } }) := by
    rw [TargetPrice.evaluate?, TargetPrice.holding?, unitState_entryPrice?]
    rfl
  obtain ⟨p, q, order, hreach, hnamed, hq, hrequest, hside, hlimit, hlots⟩ :=
    Reachable.offered rfl (by decide) hsells
  obtain ⟨price, hprice, -, hsell, -⟩ := bargains_are_kept hvalid (List.mem_singleton_self _) hreach
    hnamed hq hrequest
  obtain rfl := Option.some.inj (hlimit.symm.trans hprice)
  refine ⟨_, List.mem_singleton_self _, p, q, order, _, unitLot, hreach, hq, hrequest, hside,
    hlimit, by simp [hlots], ?_⟩
  refine hsell hside (fun _ => by decide) unitLot (by simp [hlots]) ?_
  have hcost : unitLot.size.value * unitLot.entryPrice.value = Decimal.one.value := by
    simp [unitLot, Decimal.one_value]
  rw [hcost]
  exact Decimal.represented_value _

def lossFactor : Decimal := { Decimal.one with coefficient := -1, coefficient_lt := by decide }

/-- A thousandth of the price that was paid below it. -/
def lossTarget : Decimal :=
  { Decimal.thousandth with coefficient := 999, coefficient_lt := by decide }

/-- Settings that are accepted let a portfolio sell a unit for less than it was bought at. -/
theorem negative_upside_sells_at_a_loss :
    (practiceSettings lossFactor).validate = .ok () ∧
      ∃ b ∈ (practiceSettings lossFactor).portfolios, b.mode = .paper ∧ ∃ p q order price lot,
        Reachable ⟨b.id, b.asset, (practiceSettings lossFactor).execution⟩ b.strategy p ∧ p.Named ∧
          p.world.process = some q ∧ q.executor.request? = some (.submit order) ∧
          order.side = .sell ∧ order.limit = some price ∧ q.executor.state.lots = [lot] ∧
          price < lot.entryPrice := by
  have hsells : TargetPrice.evaluate? { target := { modestTarget with upside := lossFactor } }
      (marketAt lossTarget) (judging unitState eagerMoment.now) =
      some (.go (TargetPrice.sellAt lossTarget lossTarget .one),
        { target := { modestTarget with upside := lossFactor } }) := by
    rw [TargetPrice.evaluate?, TargetPrice.holding?, unitState_entryPrice?]
    rfl
  obtain ⟨p, q, order, hreach, hnamed, hq, hrequest, hside, hlimit, hlots⟩ :=
    Reachable.offered rfl (by decide) hsells
  exact ⟨by decide +kernel, _, List.mem_singleton_self _, rfl, p, q, order, _, _, hreach, hnamed,
    hq, hrequest, hside, hlimit, hlots, by decide⟩

end Practice

end Executor
end TradingDesk

import TradingDesk.Trading.Paper
import TradingDesk.Proofs.KeyMap
import TradingDesk.Proofs.Trading.Bare
/-!
# The paper desk

An order on paper is resolved with its first answer. What the desk answers hangs on the order and on
what it knows about it, and another order changes nothing of that. As long as no two orders have one
name, each is filled at its own size and limit.
-/

namespace TradingDesk
namespace Paper

variable {p p' : Paper} {order order' : Order} {now now' : Instant}

/-- Whatever the desk has answered resolves the order. -/
def Final (p : Paper) : Prop :=
  ∀ clientId outcome, p.orders.lookup clientId = some outcome → outcome.isFinal = true

theorem isFinal_answer (p : Paper) (order : Order) (now : Instant) :
    (p.answer order now).1.isFinal = true := by
  unfold answer
  cases order.limit <;> rfl

theorem bare_answer (h : order.bare = order'.bare) :
    (p.answer order now).1.bare = (p'.answer order' now').1.bare := by
  have hlimit : order.bare.limit = order'.bare.limit := congrArg Order.limit h
  have hsize : order.bare.size = order'.bare.size := congrArg Order.size h
  change order.limit = order'.limit at hlimit
  change order.size = order'.size at hsize
  unfold answer
  rw [hlimit, hsize]
  cases order'.limit <;> rfl

theorem lookup_submit (p : Paper) (order : Order) (now : Instant) (clientId : String) :
    (p.submit order now).2.orders.lookup clientId =
      if clientId = order.clientId then some (p.submit order now).1
      else p.orders.lookup clientId := by
  unfold submit
  cases hknown : p.orders.lookup order.clientId with
  | some outcome =>
      by_cases heq : clientId = order.clientId
      · rw [if_pos heq, heq]
        exact hknown
      · rw [if_neg heq]
  | none => exact KeyMap.lookup_cons_eq clientId (order.clientId, (p.answer order now).1) p.orders

theorem Final.isFinal_submit (h : p.Final) (order : Order) (now : Instant) :
    (p.submit order now).1.isFinal = true := by
  unfold submit
  cases hknown : p.orders.lookup order.clientId with
  | some outcome => exact h _ _ hknown
  | none => exact p.isFinal_answer order now

theorem Final.submit (h : p.Final) (order : Order) (now : Instant) :
    (p.submit order now).2.Final := by
  intro clientId outcome hlookup
  rw [lookup_submit] at hlookup
  split at hlookup
  · cases hlookup
    exact h.isFinal_submit order now
  · exact h clientId outcome hlookup

theorem Final.isFinal_status (h : p.Final) (clientId : String) :
    (p.status clientId).isFinal = true := by
  unfold status
  cases hknown : p.orders.lookup clientId with
  | some outcome => exact h _ _ hknown
  | none => rfl

/-- Two desks that know the same about an order answer it alike. -/
theorem bare_submit (h : order.bare = order'.bare)
    (hknown : (p.orders.lookup order.clientId).map Order.Outcome.bare =
      (p'.orders.lookup order'.clientId).map Order.Outcome.bare) :
    (p.submit order now).1.bare = (p'.submit order' now').1.bare := by
  unfold submit
  cases hp : p.orders.lookup order.clientId with
  | some outcome =>
      cases hp' : p'.orders.lookup order'.clientId with
      | some outcome' =>
          rw [hp, hp'] at hknown
          exact Option.some.inj hknown
      | none => rw [hp, hp'] at hknown; cases hknown
  | none =>
      cases hp' : p'.orders.lookup order'.clientId with
      | some outcome' => rw [hp, hp'] at hknown; cases hknown
      | none => exact bare_answer h

theorem bare_status {clientId clientId' : String}
    (hknown : (p.orders.lookup clientId).map Order.Outcome.bare =
      (p'.orders.lookup clientId').map Order.Outcome.bare) :
    (p.status clientId).bare = (p'.status clientId').bare := by
  have hstatus : ∀ o : Option Order.Outcome,
      (o.getD .unknown).bare = (o.map Order.Outcome.bare).getD .unknown := by
    intro o
    cases o <;> rfl
  rw [status, status, hstatus, hstatus, hknown]

/-! ### Fills in full -/

variable {orders orders' : List Order} {outcome : Order.Outcome}

/-- A fill is of the whole order, at its limit. -/
def Fulfils (order : Order) (outcome : Order.Outcome) : Prop :=
  ∀ fill, outcome = .filled fill →
    fill.Valid ∧ fill.size = order.size ∧ order.limit = some fill.price

/-- What the desk knows, it knows of one of these orders. -/
def Honest (orders : List Order) (p : Paper) : Prop :=
  ∀ clientId outcome, p.orders.lookup clientId = some outcome →
    ∃ order ∈ orders, order.clientId = clientId ∧ Fulfils order outcome

theorem fulfils_answer (p : Paper) (order : Order) {now : Instant} (hnow : now.Valid) :
    Fulfils order (p.answer order now).1 := by
  intro fill hfill
  unfold answer at hfill
  cases hlimit : order.limit with
  | none =>
      rw [hlimit] at hfill
      cases hfill
  | some price =>
      rw [hlimit] at hfill
      cases hfill
      exact ⟨hnow, rfl, rfl⟩

theorem honest_new (orders : List Order) : ({} : Paper).Honest orders := by
  rintro clientId outcome ⟨⟩

namespace Honest

theorem mono (h : p.Honest orders) (hsub : orders ⊆ orders') : p.Honest orders' := by
  intro clientId outcome hknown
  obtain ⟨order, hmem, hname, hfulfils⟩ := h clientId outcome hknown
  exact ⟨order, hsub hmem, hname, hfulfils⟩

/-- Of orders with names of their own, what is known under the name of one is about that one. -/
theorem fulfils (h : p.Honest orders) (hnames : (orders.map (·.clientId)).Nodup)
    (hmem : order ∈ orders) (hknown : p.orders.lookup order.clientId = some outcome) :
    Fulfils order outcome := by
  obtain ⟨order', hmem', hname, hfulfils⟩ := h _ outcome hknown
  rwa [List.inj_on_of_nodup_map hnames hmem' hmem hname] at hfulfils

theorem fulfils_submit (h : p.Honest orders) (hnames : (orders.map (·.clientId)).Nodup)
    (hmem : order ∈ orders) (hnow : now.Valid) : Fulfils order (p.submit order now).1 := by
  unfold submit
  cases hknown : p.orders.lookup order.clientId with
  | some outcome => exact h.fulfils hnames hmem hknown
  | none => exact p.fulfils_answer order hnow

theorem fulfils_status (h : p.Honest orders) (hnames : (orders.map (·.clientId)).Nodup)
    (hmem : order ∈ orders) : Fulfils order (p.status order.clientId) := by
  unfold status
  cases hknown : p.orders.lookup order.clientId with
  | some outcome => exact h.fulfils hnames hmem hknown
  | none => rintro fill ⟨⟩

theorem submit (h : p.Honest orders) (hnames : (orders.map (·.clientId)).Nodup)
    (hmem : order ∈ orders) (hnow : now.Valid) : (p.submit order now).2.Honest orders := by
  intro clientId outcome hknown
  rw [lookup_submit] at hknown
  split at hknown
  · next hname =>
    cases hknown
    exact ⟨order, hmem, hname.symm, h.fulfils_submit hnames hmem hnow⟩
  · exact h clientId outcome hknown

end Honest

end Paper

end TradingDesk

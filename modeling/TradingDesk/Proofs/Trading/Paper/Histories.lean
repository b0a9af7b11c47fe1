import Mathlib
import TradingDesk.Proofs.Trading.Paper
/-!
# Histories of a paper desk

Orders are handed in and asked about in any sequence, also several under one name. The first order
of a name settles what is answered about it from then on. The fills are numbered in turn, so that no
two orders have one exchange id, and the desk has seen just as many orders as names.
-/

namespace TradingDesk
namespace Paper

/-- What a desk is asked. -/
inductive Call where
  | submit (order : Order) (now : Instant)
  | status (clientId : String)

/-- The name of the order that a call is about. -/
def Call.clientId : Call → String
  | submit order _ => order.clientId
  | status clientId => clientId

/-- The name of the order that a call hands in. -/
def Call.submitted? : Call → Option String
  | submit order _ => some order.clientId
  | status _ => none

def perform (p : Paper) : Call → Order.Outcome × Paper
  | .submit order now => p.submit order now
  | .status clientId => (p.status clientId, p)

/-- The desk after some calls. -/
def after (p : Paper) (calls : List Call) : Paper := calls.foldl (fun p c => (p.perform c).2) p

/-- The names under which orders were handed in. -/
def submitted (calls : List Call) : List String := calls.filterMap (·.submitted?)

/-- What the desk says of an order whose name is new: it is filled in full at its limit, or refused
if it has none. -/
def Settles (order : Order) (now : Instant) : Order.Outcome → Prop
  | .filled fill =>
    fill.size = order.size ∧ order.limit = some fill.price ∧ fill.filledAt = now
  | .rejected _ => order.limit = none
  | .resting _ | .unknown => False

variable {p : Paper} {calls : List Call} {c : Call} {order : Order} {now : Instant}
  {clientId : String} {outcome : Order.Outcome}

theorem after_concat : p.after (calls ++ [c]) = ((p.after calls).perform c).2 :=
  List.foldl_concat ..

theorem after_append (before later : List Call) :
    p.after (before ++ later) = (p.after before).after later :=
  List.foldl_append

/-! ### Answers that stand -/

theorem settles_answer (p : Paper) (order : Order) (now : Instant) :
    Settles order now (p.answer order now).1 := by
  unfold answer
  cases hlimit : order.limit with
  | none => exact hlimit
  | some price => exact ⟨rfl, hlimit, rfl⟩

theorem submit_of_known (hknown : p.orders.lookup order.clientId = some outcome) :
    p.submit order now = (outcome, p) := by
  rw [submit, hknown]

theorem submit_of_new (hnew : p.orders.lookup order.clientId = none) :
    p.submit order now = ((p.answer order now).1,
      ⟨(order.clientId, (p.answer order now).1) :: p.orders, (p.answer order now).2⟩) := by
  rw [submit, hnew]

/-- A call about an order that is known tells what is known of it, and changes nothing. -/
theorem perform_of_known (hknown : p.orders.lookup c.clientId = some outcome) :
    p.perform c = (outcome, p) := by
  cases c with
  | submit order now => exact submit_of_known hknown
  | status clientId =>
      have hlookup : p.orders.lookup clientId = some outcome := hknown
      rw [perform, status, hlookup, Option.getD_some]

/-- What is known of an order stays known. -/
theorem lookup_perform_of_known (hknown : p.orders.lookup clientId = some outcome) (c : Call) :
    (p.perform c).2.orders.lookup clientId = some outcome := by
  cases c with
  | status asked => exact hknown
  | submit order now =>
      rw [perform, lookup_submit]
      split
      · next heq =>
        rw [submit_of_known (heq ▸ hknown)]
      · exact hknown

theorem lookup_after_of_known (hknown : p.orders.lookup clientId = some outcome)
    (calls : List Call) : (p.after calls).orders.lookup clientId = some outcome := by
  induction calls using List.reverseRecOn with
  | nil => exact hknown
  | append_singleton calls c ih =>
      rw [after_concat]
      exact lookup_perform_of_known ih c

/-- Whatever an order was answered, calls about it are answered from then on. -/
theorem perform_after_submit (p : Paper) (order : Order) (now : Instant) (later : List Call)
    (hname : c.clientId = order.clientId) :
    (((p.submit order now).2.after later).perform c).1 = (p.submit order now).1 := by
  have hknown : (p.submit order now).2.orders.lookup c.clientId = some (p.submit order now).1 := by
    rw [lookup_submit, if_pos hname]
  rw [perform_of_known (lookup_after_of_known hknown later)]

theorem lookup_of_status {fill : Fill} (h : p.status clientId = .filled fill) :
    p.orders.lookup clientId = some (.filled fill) := by
  unfold status at h
  cases hknown : p.orders.lookup clientId with
  | none =>
      rw [hknown] at h
      cases h
  | some outcome =>
      rw [hknown] at h
      exact congrArg some h

/-! ### Orders and their names -/

/-- The names of the orders seen, the latest first. -/
def names (p : Paper) : List String := p.orders.map (·.1)

theorem lookup_eq_none_iff : p.orders.lookup clientId = none ↔ clientId ∉ p.names := by
  rw [List.lookup_eq_none_iff, names, List.mem_map]
  constructor
  · rintro hne ⟨pair, hmem, rfl⟩
    simpa using hne pair hmem
  · intro hnot pair hmem
    rw [bne_iff_ne]
    rintro rfl
    exact hnot ⟨pair, hmem, rfl⟩

theorem mem_names_perform :
    clientId ∈ (p.perform c).2.names ↔ clientId ∈ p.names ∨ c.submitted? = some clientId := by
  cases c with
  | status asked => simp [perform, Call.submitted?]
  | submit order now =>
      cases hknown : p.orders.lookup order.clientId with
      | some outcome =>
          have hmem : order.clientId ∈ p.names := by
            by_contra hnot
            rw [lookup_eq_none_iff.mpr hnot] at hknown
            cases hknown
          rw [perform, submit_of_known hknown, Call.submitted?, Option.some.injEq]
          refine ⟨.inl, ?_⟩
          rintro (hbefore | rfl)
          · exact hbefore
          · exact hmem
      | none =>
          rw [perform, submit_of_new hknown, Call.submitted?, Option.some.injEq]
          simp [names, or_comm, eq_comm]

theorem mem_names_after :
    clientId ∈ (p.after calls).names ↔ clientId ∈ p.names ∨ clientId ∈ submitted calls := by
  induction calls using List.reverseRecOn with
  | nil => simp [after, submitted]
  | append_singleton calls c ih =>
      have hlast : clientId ∈ submitted [c] ↔ c.submitted? = some clientId := by simp [submitted]
      rw [after_concat, mem_names_perform, ih, ← hlast, or_assoc, ← List.mem_append, submitted,
        submitted, submitted, List.filterMap_append]

/-! ### Fills and their numbers -/

/-- What the exchange would call an order that is filled. -/
def exchangeId? : Order.Outcome → Option String
  | .filled fill => some fill.exchangeId
  | _ => none

/-- The exchange ids of the fills, the latest first. -/
def exchangeIds (p : Paper) : List String := p.orders.filterMap (exchangeId? ·.2)

/-- Each name is there once, and the fills are numbered in turn. -/
structure Orderly (p : Paper) : Prop where
  names : p.names.Nodup
  numbered : p.exchangeIds = (List.range p.filled).reverse.map fun n => "paper-" ++ toString (n + 1)

namespace Orderly

theorem new : ({} : Paper).Orderly where
  names := List.nodup_nil
  numbered := rfl

theorem submit (h : p.Orderly) (order : Order) (now : Instant) :
    (p.submit order now).2.Orderly := by
  cases hknown : p.orders.lookup order.clientId with
  | some outcome => rwa [submit_of_known hknown]
  | none =>
      rw [submit_of_new hknown]
      constructor
      case names => exact List.nodup_cons.mpr ⟨lookup_eq_none_iff.mp hknown, h.names⟩
      case numbered =>
        have hnumbered := h.numbered
        unfold exchangeIds at hnumbered ⊢
        unfold answer
        cases hlimit : order.limit with
        | none => simpa [exchangeId?] using hnumbered
        | some price =>
            -- the new fill has the next number, and stands before those of the older ones
            simp only [List.range_succ, List.reverse_append, List.reverse_singleton,
              List.singleton_append, List.map_cons, ← hnumbered]
            rfl

theorem after (h : p.Orderly) (calls : List Call) : (p.after calls).Orderly := by
  induction calls using List.reverseRecOn with
  | nil => exact h
  | append_singleton calls c ih =>
      rw [after_concat]
      cases c with
      | submit order now => exact ih.submit order now
      | status clientId => exact ih

theorem nodup_exchangeIds (h : p.Orderly) : p.exchangeIds.Nodup := by
  rw [h.numbered]
  refine List.Nodup.map ?_ (List.nodup_reverse.mpr List.nodup_range)
  intro m n heq
  exact Nat.succ_injective (Nat.repr_injective ((String.append_right_inj _).mp heq))

/-- Two orders that were filled have exchange ids of their own. -/
theorem exchangeId_ne {clientId' : String} {fill fill' : Fill} (h : p.Orderly)
    (hfilled : p.orders.lookup clientId = some (.filled fill))
    (hfilled' : p.orders.lookup clientId' = some (.filled fill')) (hne : clientId ≠ clientId') :
    fill.exchangeId ≠ fill'.exchangeId := by
  have hmem := (KeyMap.lookup_eq_some_iff h.names).mp hfilled
  have hmem' := (KeyMap.lookup_eq_some_iff h.names).mp hfilled'
  have hdistinct := List.pairwise_filterMap.mp h.nodup_exchangeIds
  have hsymm : Std.Symm fun pair pair' : String × Order.Outcome =>
      ∀ id, exchangeId? pair.2 = some id → ∀ id', exchangeId? pair'.2 = some id' → id ≠ id' :=
    ⟨fun _ _ h id hid id' hid' => (h id' hid' id hid).symm⟩
  have hpairs : (clientId, Order.Outcome.filled fill) ≠ (clientId', .filled fill') := by
    simp [hne]
  exact hdistinct.forall hmem hmem' hpairs _ rfl _ rfl

end Orderly

theorem size_after (calls : List Call) :
    (({} : Paper).after calls).size = (submitted calls).toFinset.card := by
  have hnames := (Orderly.new.after calls).names
  have hsame : (({} : Paper).after calls).names.toFinset = (submitted calls).toFinset := by
    ext clientId
    rw [List.mem_toFinset, List.mem_toFinset, mem_names_after]
    simp [names]
  rw [← hsame, List.toFinset_card_of_nodup hnames, names, List.length_map, size]

theorem lookup_after_of_new (hnew : clientId ∉ submitted calls) :
    (({} : Paper).after calls).orders.lookup clientId = none := by
  rw [lookup_eq_none_iff, mem_names_after]
  simpa [names] using hnew

/-- However a new desk was called so far, an order whose name is new is filled in full at its limit,
or refused if it has none. What the desk has answered about an order, it answers to every later call
about one of that name, whatever else that says. Of a name under which nothing was handed in it
knows nothing. Orders that were filled have exchange ids of their own, and there are as many orders
as names. -/
theorem first_answers_stand (calls : List Call) :
    (∀ order now,
      (order.clientId ∉ submitted calls →
        Settles order now ((({} : Paper).after calls).submit order now).1) ∧
      ∀ later c, c.clientId = order.clientId →
        ((({} : Paper).after (calls ++ .submit order now :: later)).perform c).1 =
          ((({} : Paper).after calls).submit order now).1) ∧
    (∀ clientId, clientId ∉ submitted calls →
      (({} : Paper).after calls).status clientId = .unknown) ∧
    (∀ clientId clientId' fill fill', clientId ≠ clientId' →
      (({} : Paper).after calls).status clientId = .filled fill →
        (({} : Paper).after calls).status clientId' = .filled fill' →
          fill.exchangeId ≠ fill'.exchangeId) ∧
    (({} : Paper).after calls).size = (submitted calls).toFinset.card := by
  refine ⟨fun order now => ⟨?first, ?later⟩, ?unknown, ?distinct, size_after calls⟩
  case first =>
    intro hnew
    rw [submit_of_new (lookup_after_of_new hnew)]
    exact settles_answer _ order now
  case later =>
    intro later c hname
    rw [after_append]
    exact perform_after_submit _ order now later hname
  case unknown =>
    intro clientId hnew
    rw [status, lookup_after_of_new hnew, Option.getD_none]
  case distinct =>
    intro clientId clientId' fill fill' hne hfilled hfilled'
    exact (Orderly.new.after calls).exchangeId_ne (lookup_of_status hfilled)
      (lookup_of_status hfilled') hne

def unitPurchase (clientId : String) (limit : Option Decimal) : Order :=
  { clientId, portfolio := "alpha", asset := "btc", side := .buy, size := .one, limit, reason := ""
    createdAt := default }

/-- An order that was filled keeps its fill when another is handed in under its name, without a
limit. -/
theorem resubmitted_order_keeps_fill :
    let calls : List Call := [.submit (unitPurchase "a" (some .one)) default,
      .submit (unitPurchase "b" none) default, .submit (unitPurchase "c" (some .two)) default,
      .status "d", .submit (unitPurchase "c" none) default]
    let desk := ({} : Paper).after calls
    ∃ fill fill', (desk.submit (unitPurchase "a" none) default).1 = .filled fill ∧
      fill.price = .one ∧ desk.status "c" = .filled fill' ∧ fill.exchangeId ≠ fill'.exchangeId ∧
      desk.status "d" = .unknown ∧ desk.size = 3 := by
  intro calls desk
  obtain ⟨-, hunknown, hdistinct, hsize⟩ := first_answers_stand calls
  have hkept : (desk.submit (unitPurchase "a" none) default).1 =
      (({} : Paper).submit (unitPurchase "a" (some .one)) default).1 :=
    ((first_answers_stand []).1 (unitPurchase "a" (some .one)) default).2 calls.tail
      (.submit (unitPurchase "a" none) default) rfl
  have hthird : desk.status "c" = .filled ⟨"paper-2", .one, .two, default⟩ := by decide
  refine ⟨_, _, hkept, rfl, hthird, ?_, hunknown "d" (by decide), hsize.trans (by decide)⟩
  exact hdistinct "a" "c" _ _ (by decide) (by decide) hthird

end Paper
end TradingDesk

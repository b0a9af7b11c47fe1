import TradingDesk.Exchange.Gateway
import TradingDesk.Proofs.Trading.Tracing
import Mathlib
/-!
# Replies of the exchange to a call about an order

A reply with a success status comes from an exchange that has dealt with the call. If its body
states the order, the call answers what became of the order. If the body cannot be read, the order
may be live all the same, but the gateway's fault is not one after which the order is asked for: the
portfolio fails with the order pending.
-/

namespace TradingDesk

namespace Executor

variable {σ : Type} {x : Executor σ} {m : Moment} {order : Order}

/-- A fault that is not recoverable fails the portfolio. The pending order stays in its state. -/
theorem resume_unrecoverable (hawaits : x.Awaits order) (hphase : x.state.phase = .orderPending)
    (detail : String) :
    (x.resume (.answered (.error (.gateway detail false))) m).state =
      { x.state with
        failure := some ("gateway error: " ++ (Fault.gateway detail false).message)
        phase := .failed
        updatedAt := m.now } := by
  have hfail : ∀ s : Settling, (x.settle s (.error (.gateway detail false)) m).state =
      { x.state with
        failure := some ("gateway error: " ++ (Fault.gateway detail false).message)
        phase := .failed
        updatedAt := m.now } := by
    intro s
    have hsettle : x.settle s (.error (.gateway detail false)) m =
        x.fail ("gateway error: " ++ (Fault.gateway detail false).message) s.waiting m := rfl
    rw [hsettle, fail_eq hphase]
  unfold Executor.resume
  rcases hawaits with hstage | ⟨waiting, hstage⟩ | ⟨s, hstage, -⟩
  · simp only [hstage]
    exact hfail _
  · simp only [hstage]
    exact hfail _
  · simp only [hstage]
    exact hfail s

end Executor

namespace Exchange

/-- What the body of a response says of an order. -/
def stated? (r : Http.Response) : Option OrderRecord :=
  Json.read? r.content >>= OrderRecord.read?

/-- The result of a call tells what the body of its response states, or is a fault after which the
order is asked for. -/
def Reconciled (r : Http.Response) (now : Instant)
    (result : Except Fault (Option Order.Outcome)) : Prop :=
  (∃ record outcome, stated? r = some record ∧ record.outcome? now = some outcome ∧
    result = .ok (some outcome)) ∨
  ∃ detail, result = .error (.gateway detail true)

def unreadableFault : Fault := .gateway "HTTP request error: error decoding response body" false

variable {g : Gateway} {order : Order} {now : Instant}
  {call : Http.Call (Option Order.Outcome)} {r : Http.Response}

theorem readRecord_of_success (h : r.status.isSuccess = true) :
    Client.readRecord OrderRecord.read? r =
      match stated? r with
      | some record => .ok record
      | none => .error (.http .unreadable) := by
  unfold Client.readRecord stated?
  rw [if_pos h]
  cases Json.read? r.content >>= OrderRecord.read? <;> rfl

theorem submit_eq_ok (h : g.submit order now = .ok call) :
    ∃ request, call = (Http.Call.of request (Client.readRecord OrderRecord.read?)).map
      (Gateway.readSubmitted now) := by
  unfold Gateway.submit Client.place at h
  cases hsigned :
    g.client.signed .post "/orders" (OrderRequest.ofOrder order).toJson.toText now with
  | error fault =>
      rw [hsigned] at h
      cases h
  | ok request =>
      rw [hsigned] at h
      cases h
      exact ⟨request, rfl⟩

/-- An order is asked for with a call that reads its record, unless the exchange has none. -/
theorem status_eq_ok {clientId : String} (h : g.status clientId now = .ok call) :
    ∃ request, call = (Http.Call.of request fun r =>
      if r.status.code = 404 then .ok none
      else (Client.readRecord OrderRecord.read? r).map some).map (Gateway.readStatus now) := by
  unfold Gateway.status Client.order at h
  cases hsigned : g.client.signed .get (Client.orderPath clientId) "" now with
  | error fault =>
      rw [hsigned] at h
      cases h
  | ok request =>
      rw [hsigned] at h
      cases h
      exact ⟨request, rfl⟩

theorem code_ne_of_success (h : r.status.isSuccess = true) : r.status.code ≠ 404 := by
  intro hcode
  simp [Http.Status.isSuccess, hcode] at h

theorem read_of_success
    (hcall : g.submit order now = .ok call ∨ g.status order.clientId now = .ok call)
    (hsuccess : r.status.isSuccess = true) :
    call.read (.ok r) =
      match stated? r with
      | some record => .ok (record.outcome? now)
      | none => .error unreadableFault := by
  have hrecord := readRecord_of_success hsuccess
  rcases hcall with hcall | hcall
  · obtain ⟨request, rfl⟩ := submit_eq_ok hcall
    simp only [Http.Call.map, Http.Call.of, hrecord]
    cases stated? r with
    | none => rfl
    | some record => rfl
  · obtain ⟨request, rfl⟩ := status_eq_ok hcall
    simp only [Http.Call.map, Http.Call.of, if_neg (code_ne_of_success hsuccess), hrecord]
    cases stated? r with
    | none => rfl
    | some record => rfl

theorem read_unreadable
    (hcall : g.submit order now = .ok call ∨ g.status order.clientId now = .ok call) :
    call.read (.error .unreadable) = .error unreadableFault := by
  rcases hcall with hcall | hcall
  · obtain ⟨request, rfl⟩ := submit_eq_ok hcall
    rfl
  · obtain ⟨request, rfl⟩ := status_eq_ok hcall
    rfl

/-- A reply with success comes to what its body states just when the body can be read and the price
of the order is not too large. Of all other bodies the unreadable ones give a fault that is not
recoverable, as does a reply that breaks off, and whoever waits for the answer fails with the order
pending. -/
theorem success_reply_reconciled_iff
    (hcall : g.submit order now = .ok call ∨ g.status order.clientId now = .ok call)
    (hsuccess : r.status.isSuccess = true) :
    (Reconciled r now (call.read (.ok r)) ↔
      ∃ record outcome, stated? r = some record ∧ record.outcome? now = some outcome) ∧
    (stated? r = none → call.read (.ok r) = .error unreadableFault) ∧
    call.read (.error .unreadable) = .error unreadableFault ∧
    ∀ (σ : Type) (x : Executor σ) (m : Moment), x.Awaits order →
      x.state.phase = .orderPending →
      (x.resume (.answered (.error unreadableFault)) m).state.phase = .failed ∧
      (x.resume (.answered (.error unreadableFault)) m).state.pending = x.state.pending := by
  have hread := read_of_success hcall hsuccess
  refine ⟨⟨?_, ?_⟩, ?_, read_unreadable hcall, ?_⟩
  · rintro (⟨record, outcome, hstated, houtcome, -⟩ | ⟨detail, hfault⟩)
    · exact ⟨record, outcome, hstated, houtcome⟩
    · -- no body gives a recoverable fault
      rw [hread] at hfault
      cases hstated : stated? r with
      | none =>
          rw [hstated] at hfault
          simp [unreadableFault] at hfault
      | some record =>
          rw [hstated] at hfault
          contradiction
  · rintro ⟨record, outcome, hstated, houtcome⟩
    refine .inl ⟨record, outcome, hstated, houtcome, ?_⟩
    rw [hread, hstated]
    simp only [houtcome]
  · intro hnone
    rw [hread, hnone]
  · intro σ x m hawaits hphase
    have hstate := Executor.resume_unrecoverable (m := m) hawaits hphase
      "HTTP request error: error decoding response body"
    unfold unreadableFault
    rw [hstate]
    exact ⟨rfl, rfl⟩

theorem exists_submit {credentials : Credentials} {key : List UInt8}
    (hcredentials : g.client.credentials = some credentials)
    (hkey : Base64.decode? credentials.secret = some key) (order : Order) (now : Instant) :
    ∃ call, g.submit order now = .ok call := by
  have hsigned : ∃ request, g.client.signed .post "/orders"
      (OrderRequest.ofOrder order).toJson.toText now = .ok request := by
    unfold Client.signed sign
    simp only [hcredentials, hkey]
    exact ⟨_, rfl⟩
  obtain ⟨request, hsigned⟩ := hsigned
  unfold Gateway.submit Client.place
  rw [hsigned]
  exact ⟨_, rfl⟩

/-! A reply that states an order, and one that breaks off within it. -/

def exampleGateway : Gateway :=
  let credentials := { key := "key", secret := "c2VjcmV0", passphrase := "phrase" }
  { client := { base := "https://exchange", credentials := some credentials }, credentials }

def exampleOrder : Order :=
  { clientId := "c-1", portfolio := "alpha", asset := "BTC-USD", side := .buy, size := Decimal.one
    limit := none, reason := "change", createdAt := ⟨0, 0⟩ }

def statingReply : Http.Response :=
  { status := ⟨200⟩, body := "\x7b\"id\": \"x\", \"status\": \"open\"\x7d" }

def truncatedReply : Http.Response :=
  { status := ⟨200⟩, body := "\x7b\"id\": \"x\", \"status\":" }

theorem exists_exampleCall : ∃ call, exampleGateway.submit exampleOrder ⟨0, 0⟩ = .ok call := by
  obtain ⟨key, hkey⟩ : ∃ key, Base64.decode? "c2VjcmV0" = some key := ⟨_, by rfl⟩
  exact exists_submit rfl hkey exampleOrder ⟨0, 0⟩

theorem stating_reply_reconciled :
    ∃ call, exampleGateway.submit exampleOrder ⟨0, 0⟩ = .ok call ∧
      statingReply.status.isSuccess = true ∧
      Reconciled statingReply ⟨0, 0⟩ (call.read (.ok statingReply)) := by
  obtain ⟨call, hcall⟩ := exists_exampleCall
  have hsuccess : statingReply.status.isSuccess = true := by decide
  have hstated : stated? statingReply =
      some ⟨"x", none, none, "open", none, none, none, none, false⟩ := by cbv
  refine ⟨call, hcall, hsuccess, (success_reply_reconciled_iff (.inl hcall) hsuccess).1.mpr ?_⟩
  exact ⟨_, .resting "x", hstated, by simp [OrderRecord.outcome?]⟩

/-- An order whose record breaks off is handed in with success and is not asked for. -/
theorem truncated_reply_not_reconciled :
    ∃ call, exampleGateway.submit exampleOrder ⟨0, 0⟩ = .ok call ∧
      truncatedReply.status.isSuccess = true ∧
      call.read (.ok truncatedReply) = .error unreadableFault ∧
      ¬ Reconciled truncatedReply ⟨0, 0⟩ (call.read (.ok truncatedReply)) := by
  obtain ⟨call, hcall⟩ := exists_exampleCall
  have hsuccess : truncatedReply.status.isSuccess = true := by decide
  have hstated : stated? truncatedReply = none := by cbv
  have hread := read_of_success (.inl hcall) hsuccess
  rw [hstated] at hread
  refine ⟨call, hcall, hsuccess, hread, ?_⟩
  rw [hread]
  rintro (⟨record, outcome, -, -, hok⟩ | ⟨detail, hfault⟩)
  · cases hok
  · simp [unreadableFault] at hfault

end Exchange
end TradingDesk

import TradingDesk.Proofs.Market.Documents
import TradingDesk.Proofs.Store.AppendOnly
import TradingDesk.Proofs.Trading.Runs
/-!
# Records in the store

A record that was written, however many attempts that took, is read back as it was. So an executor
that starts from a stored state goes on from just that state.
-/

namespace TradingDesk
namespace Store

variable {s s' : Store}

/-! ### Writes that landed -/

theorem failNext_zero (h : s.failures = 0) : s.failNext 0 = s := by
  rw [failNext, ← h]

theorem attempt_eq_done {w : Write} {schedule : Backoff} {now : Instant} {sequence : Nat}
    (h : s.attempt w schedule now = (.done sequence, s')) :
    s.failures = 0 ∧ s.perform w now = (.ok sequence, s') := by
  by_cases hfailing : 0 < s.failures
  · rw [attempt, perform_of_failing hfailing] at h
    cases hnext : schedule.next? <;> simp [hnext] at h
  · refine ⟨by omega, ?_⟩
    unfold attempt at h
    split at h
    · next hperform =>
        cases h
        exact hperform
    · split at h <;> cases h

theorem perform_of_writable (h : s.failures = 0) (w : Write) (now : Instant) :
    ∃ sequence s', s.perform w now = (.ok sequence, s') := by
  cases w with
  | append collection id body =>
      rw [perform, append_eq, if_neg (by omega)]
      split <;> exact ⟨_, _, rfl⟩
  | upsert collection id body =>
      rw [perform, upsert_eq, if_neg (by omega)]
      exact ⟨_, _, rfl⟩

/-- An attempt that is to be repeated has only used up one of the failures to come. -/
theorem attempt_eq_waiting {w : Write} {schedule schedule' : Backoff} {now : Instant} {delay : Nat}
    (h : s.attempt w schedule now = (.waiting delay schedule', s')) :
    s'.failNext 0 = s.failNext 0 := by
  by_cases hfailing : 0 < s.failures
  · rw [attempt, perform_of_failing hfailing] at h
    cases hnext : schedule.next? with
    | none => simp [hnext] at h
    | some next =>
        simp only [hnext, Prod.mk.injEq] at h
        rw [← h.2]
        rfl
  · obtain ⟨sequence, s'', hperform⟩ := perform_of_writable (Nat.eq_zero_of_not_pos hfailing) w now
    simp [attempt, hperform] at h

/-- A write that landed in the end did so in the store as it was. -/
theorem persist_eq_ok {w : Write} {retry : BackoffSettings} {clock : Nat → Instant}
    {sequence elapsed : Nat} (h : s.persist w retry clock = (.ok sequence, elapsed, s')) :
    ∃ now, (s.failNext 0).perform w now = (.ok sequence, s') := by
  suffices hgo : ∀ fuel (s : Store) schedule start,
      persist.go w clock fuel s schedule start = (.ok sequence, elapsed, s') →
        ∃ now, (s.failNext 0).perform w now = (.ok sequence, s') from hgo _ s _ _ h
  intro fuel
  induction fuel with
  | zero =>
      intro s schedule start hgo
      simp [persist.go] at hgo
  | succ fuel ih =>
      intro s schedule start hgo
      rw [persist.go] at hgo
      split at hgo
      · next hattempt =>
          cases hgo
          obtain ⟨hfailures, hperform⟩ := attempt_eq_done hattempt
          exact ⟨clock elapsed, by rw [failNext_zero hfailures, hperform]⟩
      · cases hgo
      · next hattempt =>
          rw [← attempt_eq_waiting hattempt]
          exact ih _ _ _ hgo

theorem attempt_eq_givenUp {w : Write} {schedule : Backoff} {now : Instant} {fault : Fault}
    (h : s.attempt w schedule now = (.givenUp fault, s')) : s'.failNext 0 = s.failNext 0 := by
  by_cases hfailing : 0 < s.failures
  · rw [attempt, perform_of_failing hfailing] at h
    cases hnext : schedule.next? with
    | none =>
        simp only [hnext, Prod.mk.injEq] at h
        rw [← h.2]
        rfl
    | some next => simp [hnext] at h
  · obtain ⟨sequence, s'', hperform⟩ := perform_of_writable (Nat.eq_zero_of_not_pos hfailing) w now
    simp [attempt, hperform] at h

/-- A write that was given up has only used up failures to come. -/
theorem persist_eq_error {w : Write} {retry : BackoffSettings} {clock : Nat → Instant}
    {fault : Fault} {elapsed : Nat} (h : s.persist w retry clock = (.error fault, elapsed, s')) :
    s'.failNext 0 = s.failNext 0 := by
  suffices hgo : ∀ fuel (s : Store) schedule start,
      persist.go w clock fuel s schedule start = (.error fault, elapsed, s') →
        s'.failNext 0 = s.failNext 0 from hgo _ s _ _ h
  intro fuel
  induction fuel with
  | zero =>
      intro s schedule start hgo
      rw [persist.go] at hgo
      cases hgo
      rfl
  | succ fuel ih =>
      intro s schedule start hgo
      rw [persist.go] at hgo
      split at hgo
      · cases hgo
      · next hattempt =>
          cases hgo
          exact attempt_eq_givenUp hattempt
      · next hattempt =>
          rw [← attempt_eq_waiting hattempt]
          exact ih _ _ _ hgo

/-! ### Reading a record that was written -/

section

variable {α : Type} {read : Json → Option α} {a : α} {collection id : String} {document : Json}
  {retry : BackoffSettings} {clock : Nat → Instant} {sequence elapsed : Nat}

theorem append_of_unknown (hfailures : s.failures = 0) (hnew : s.sequenceOf? collection id = none)
    (now : Instant) : s.append collection id document now =
      (.ok (s.head collection + 1),
        s.commit ⟨collection, s.head collection + 1, id, document, now⟩) := by
  rw [append_eq, if_neg (by omega), hnew]

/-- A document of a new name that was appended is the latest one. -/
theorem latest?_of_persist_append (hnew : s.sequenceOf? collection id = none)
    (h : s.persist (.append collection id document) retry clock = (.ok sequence, elapsed, s')) :
    ∃ d, s'.latest? collection = some d ∧ d.sequence = sequence ∧ d.id = id ∧
      d.body = document := by
  obtain ⟨now, hperform⟩ := persist_eq_ok h
  have hunknown : (s.failNext 0).sequenceOf? collection id = none := hnew
  rw [perform, append_of_unknown rfl hunknown] at hperform
  cases hperform
  refine ⟨⟨collection, s.head collection + 1, id, document, now⟩, ?_, rfl, rfl, rfl⟩
  rw [latest?, documents_commit, if_pos rfl, List.getLast?_concat]
  rfl

theorem fetch?_of_persist_upsert
    (h : s.persist (.upsert collection id document) retry clock = (.ok sequence, elapsed, s')) :
    s'.fetch? collection id = some document := by
  obtain ⟨now, hperform⟩ := persist_eq_ok h
  have hstore : ((s.failNext 0).upsert collection id document).2 = s' := congrArg Prod.snd hperform
  rw [← hstore, fetch?_upsert rfl, if_pos ⟨rfl, rfl⟩]

/-- Whoever writes the document of a value reads the value, whether the document is appended under a
new name or stored by key. -/
structure Keeps (document : Json) (read : Json → Option α) (a : α) : Prop where
  appended : ∀ (s s' : Store) collection id retry clock sequence elapsed,
    s.sequenceOf? collection id = none →
    s.persist (.append collection id document) retry clock = (.ok sequence, elapsed, s') →
      s'.latestRecord collection read = .ok (some a)
  upserted : ∀ (s s' : Store) collection id retry clock sequence elapsed,
    s.persist (.upsert collection id document) retry clock = (.ok sequence, elapsed, s') →
      ∃ body, s'.fetch? collection id = some body ∧ read body = some a

theorem keeps_of_read (h : read document = some a) : Keeps document read a where
  appended s s' collection id retry clock sequence elapsed hnew hpersist := by
    obtain ⟨d, hlatest, -, -, hbody⟩ := latest?_of_persist_append hnew hpersist
    rw [latestRecord, hlatest]
    simp only [hbody, h]
  upserted s s' collection id retry clock sequence elapsed hpersist :=
    ⟨document, fetch?_of_persist_upsert hpersist, h⟩

end

/-- An executor that starts from the state that another one stored has the state of that one. -/
theorem restore_of_persist {σ : Type} {x : Executor σ} (hvalid : x.state.Valid)
    {retry : BackoffSettings} {clock : Nat → Instant} {sequence elapsed : Nat} (memory : σ)
    (now : Instant)
    (h : s.persist (.upsert Collection.states x.setup.portfolio x.document) retry clock =
      (.ok sequence, elapsed, s')) :
    Executor.restore x.setup x.strategy memory
        (s'.fetch? Collection.states x.setup.portfolio) now =
      .ok { x with memory, stage := .ready (.ok ()), announced := [] } := by
  have hread : Portfolio.read? x.document = some x.state := Portfolio.read?_document hvalid
  rw [fetch?_of_persist_upsert h]
  simp only [Executor.restore, Executor.restoreState, hread]
  rfl

/-- What was written is read back as it was, and an executor restored from a stored state has just
that state. -/
theorem records_are_kept :
    (∀ q : Quote, q.Valid → Keeps q.toJson.settled Quote.read? q) ∧
      (∀ b : Book, b.Valid → Keeps b.toJson.settled Book.read? b) ∧
      (∀ p : Portfolio, p.Valid → Keeps p.toJson.settled Portfolio.read? p) ∧
      ∀ (σ : Type) (x : Executor σ) (s s' : Store) retry clock sequence elapsed memory now,
        x.state.Valid →
        s.persist (.upsert Collection.states x.setup.portfolio x.document) retry clock =
          (.ok sequence, elapsed, s') →
        Executor.restore x.setup x.strategy memory
            (s'.fetch? Collection.states x.setup.portfolio) now =
          .ok { x with memory, stage := .ready (.ok ()), announced := [] } := by
  refine ⟨fun q hq => ?_, fun b hb => ?_, fun p hp => ?_, ?_⟩
  · exact keeps_of_read (Quote.read?_document hq)
  · exact keeps_of_read (Book.read?_document hb)
  · exact keeps_of_read (Portfolio.read?_document hp)
  · intro σ x s s' retry clock sequence elapsed memory now hvalid h
    exact restore_of_persist hvalid memory now h

/-! ### A full state behind a failed write -/

/-- The leap second at the end of 2016. -/
def leapSecond : Instant := ⟨1483228799, 1999999999⟩

/-- The least decimal above zero. -/
def finest : Decimal := { Decimal.one with scale := 28, scale_le := by decide }

/-- One, written with three digits after the point. -/
def padded : Decimal :=
  { Decimal.thousandth with coefficient := 1000, coefficient_lt := by decide }

/-- A book with a row of several orders and a row of one. -/
def mixedBook : Book where
  asset := "BTC-USD"
  level := .full
  bids := [{ price := finest, size := .one, orderCount := some 3 }]
  asks := [{ price := .two, size := .zero, orderId := some "m-1" }]
  exchangeSequence := pow2 64 - 1
  exchangeTime := leapSecond
  receivedTime := leapSecond

/-- A portfolio that failed while a lot was open and an order pending. -/
def stuckPortfolio : Portfolio where
  id := "alpha"
  phase := .failed
  lots := [⟨"c-1", "x-1", padded, .two, leapSecond⟩]
  evaluated := { pairs := [("quotes-btc-usd", pow2 64 - 1)] }
  pending := some
    { clientId := "c-2", portfolio := "alpha", asset := "BTC-USD", side := .sell, size := .one
      limit := none, reason := "target", createdAt := leapSecond }
  lastExit := some .thousandth
  failure := some "gateway error"
  updatedAt := leapSecond

theorem leapSecond_valid : leapSecond.Valid := by
  constructor <;> decide

theorem mixedBook_valid : mixedBook.Valid where
  bids := by simp [mixedBook, Book.Entry.Valid, pow2]
  asks := by simp [mixedBook, Book.Entry.Valid]
  exchangeSequence := by decide
  exchangeTime := leapSecond_valid
  receivedTime := leapSecond_valid

theorem stuckPortfolio_valid : stuckPortfolio.Valid where
  lots := by simp [stuckPortfolio, Lot.Valid, leapSecond_valid]
  evaluated := by simp [stuckPortfolio, pow2]
  pending := by simp [stuckPortfolio, Order.Valid, leapSecond_valid]
  updatedAt := leapSecond_valid

def stuckExecutor : Executor Unit :=
  ⟨⟨"alpha", "BTC-USD", {}⟩, Executor.World.eager, (), stuckPortfolio, .ready (.ok ()), []⟩

/-- The first attempt of each write fails. -/
def busyStore : Store := { failures := 1 }

theorem stuck_executor_is_restored :
    (∃ elapsed s', busyStore.persist (.append (Collection.books "BTC-USD" .full)
        mixedBook.documentId mixedBook.toJson.settled) {} (fun _ => leapSecond) =
          (.ok 1, elapsed, s') ∧
      s'.latestRecord (Collection.books "BTC-USD" .full) Book.read? = .ok (some mixedBook)) ∧
    ∃ elapsed s', busyStore.persist (.upsert Collection.states "alpha" stuckExecutor.document)
        {} (fun _ => leapSecond) = (.ok 0, elapsed, s') ∧
      Executor.restore stuckExecutor.setup stuckExecutor.strategy ()
        (s'.fetch? Collection.states "alpha") leapSecond = .ok stuckExecutor := by
  obtain ⟨-, hbooks, -, hrestored⟩ := records_are_kept
  constructor
  · have hwritten : ∃ elapsed s', busyStore.persist (.append (Collection.books "BTC-USD" .full)
        mixedBook.documentId mixedBook.toJson.settled) {} (fun _ => leapSecond) =
          (.ok 1, elapsed, s') := ⟨_, _, rfl⟩
    obtain ⟨elapsed, s', h⟩ := hwritten
    exact ⟨elapsed, s', h,
      (hbooks mixedBook mixedBook_valid).appended _ _ _ _ _ _ _ _ rfl h⟩
  · have hwritten : ∃ elapsed s', busyStore.persist
        (.upsert Collection.states "alpha" stuckExecutor.document) {} (fun _ => leapSecond) =
          (.ok 0, elapsed, s') := ⟨_, _, rfl⟩
    obtain ⟨elapsed, s', h⟩ := hwritten
    exact ⟨elapsed, s', h,
      hrestored Unit stuckExecutor _ _ _ _ _ _ () leapSecond stuckPortfolio_valid h⟩

end Store
end TradingDesk

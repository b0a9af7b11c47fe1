import TradingDesk.Proofs.Collector.RetryAfter
/-!
# What comes of a tick

A tick that the gate lets pass is worked on until a fetch brings a book or no attempt is left, and
the book is handed to the store until it has landed or is given up. The pairs of a collector do so
side by side, share their counters, and may be stopped in any wait.

The counters add up at every moment: failed fetches, refused ticks, and books that were stored or
lost or are still being stored.
-/

namespace TradingDesk
namespace PollPair

/-! ### What a pair does -/

inductive Deed where
  /-- A tick was taken, and the gate let it pass or not. -/
  | ticked (admitted : Bool)
  | begun
  | failed
  | brought (book : Book)
  /-- The store was asked to take a book. -/
  | handed (book : Book)
deriving DecidableEq, Repr

@[simp] def Deed.isBook : Deed → Bool
  | .brought _ => true
  | _ => false

/-- What a pair does that goes from one stage to another. -/
def deeds (before : Stage) (reply : Reply) (after : Stage) : List Deed :=
  match before, reply, after with
  | .waiting, .woke, .fetching .. => [.ticked true, .begun]
  | .waiting, .woke, _ => [.ticked false]
  | .pausing .., .woke, _ => [.begun]
  | .fetching .., .fetched (.error _), _ => [.failed]
  | .fetching .., .fetched (.ok book), _ => [.brought book]
  | .writing book .., .ready, _ => [.handed book]
  | _, _, _ => []

theorem handed_mem_deeds_iff {before after : Stage} {reply : Reply} {book : Book} :
    .handed book ∈ deeds before reply after ↔
      reply = .ready ∧ ∃ moved schedule, before = .writing book moved schedule := by
  unfold deeds
  constructor
  · intro h
    split at h
    case h_6 held moved schedule =>
      obtain rfl : book = held := Deed.handed.inj (List.mem_singleton.mp h)
      exact ⟨rfl, moved, schedule, rfl⟩
    all_goals simp at h
  · rintro ⟨rfl, moved, schedule, rfl⟩
    exact List.mem_singleton_self _

/-- The write that appends a book to a collection. -/
def bookWrite (collection : String) (book : Book) : Write :=
  .append collection book.documentId book.toJson.settled

/-- To write a book is to attempt to append it to the collection of the pair. -/
theorem store_of_writing {p : PollPair} {book : Book} {moved : Bool} {schedule : Backoff}
    (hstage : p.stage = .writing book moved schedule) (c : PollCollector) (s : Store) (time : Nat)
    (now : Instant) :
    (p.next .ready c s time now).2.2 =
      (s.attempt (bookWrite p.key.collection book) schedule now).2 := by
  simp only [next, hstage, bookWrite]
  split
  all_goals
    next hattempt => rw [hattempt]

/-- A book that is handed over is just what the store is asked to append. With any other step the
store is left alone. -/
theorem store_next (p : PollPair) (reply : Reply) (c : PollCollector) (s : Store) (time : Nat)
    (now : Instant) :
    (∀ book, .handed book ∈ deeds p.stage reply (p.next reply c s time now).1.stage →
      ∃ schedule, (p.next reply c s time now).2.2 =
        (s.attempt (bookWrite p.key.collection book) schedule now).2) ∧
    ((∀ book, .handed book ∉ deeds p.stage reply (p.next reply c s time now).1.stage) →
      (p.next reply c s time now).2.2 = s) := by
  constructor
  · intro book hhanded
    obtain ⟨rfl, moved, schedule, hstage⟩ := handed_mem_deeds_iff.mp hhanded
    exact ⟨schedule, store_of_writing hstage c s time now⟩
  · intro hnone
    unfold next
    split
    case h_6 book moved schedule hstage =>
      exact absurd (handed_mem_deeds_iff.mpr ⟨rfl, moved, schedule, hstage⟩) (hnone book)
    all_goals rfl

/-- A tick and what was done for it. -/
structure Tick where
  admitted : Bool
  deeds : List Deed

/-- Notes a deed, under the last tick unless it is one; the newest tick comes first. -/
def note : List Tick → Deed → List Tick
  | ticks, .ticked admitted => ⟨admitted, []⟩ :: ticks
  | tick :: ticks, deed => { tick with deeds := tick.deeds ++ [deed] } :: ticks
  | [], _ => []

namespace Tick

def fetches (t : Tick) : Nat := t.deeds.count .begun

def failures (t : Tick) : Nat := t.deeds.count .failed

def hasBook (t : Tick) : Bool := t.deeds.any Deed.isBook

/-- Once a book has come, nothing is done but hand it over. -/
def Follows : Deed → Deed → Prop
  | .brought book, later | .handed book, later => later = .handed book
  | _, _ => True

structure Accounted (retry : BackoffSettings) (t : Tick) : Prop where
  /-- For a tick that was refused nothing is done. -/
  refused : t.admitted = false → t.deeds = []
  fetches : 0 < retry.maxAttempts → t.fetches ≤ retry.maxAttempts + 1
  order : t.deeds.Pairwise Follows
  /-- The one book that is handed over is what a fetch brought. -/
  handed : ∀ book, .handed book ∈ t.deeds → .brought book ∈ t.deeds
  single : ∀ book other, .handed book ∈ t.deeds → .handed other ∈ t.deeds → book = other

/-! ### The course of a tick -/

/-- So many fetches that failed. -/
def failing (n : Nat) : List Deed := (List.replicate n [.begun, .failed]).flatten

theorem failing_succ (n : Nat) : failing (n + 1) = failing n ++ [.begun, .failed] := by
  simp [failing, List.replicate_succ']

theorem mem_failing {n : Nat} {deed : Deed} (h : deed ∈ failing n) :
    deed = .begun ∨ deed = .failed := by
  have hmem : n ≠ 0 ∧ (deed = .begun ∨ deed = .failed) := by simpa [failing] using h
  exact hmem.2

theorem count_begun_failing (n : Nat) : (failing n).count .begun = n := by
  induction n with
  | zero => rfl
  | succ n ih => rw [failing_succ, List.count_append, ih]; rfl

theorem count_failed_failing (n : Nat) : (failing n).count .failed = n := by
  induction n with
  | zero => rfl
  | succ n ih => rw [failing_succ, List.count_append, ih]; rfl

theorem any_isBook_failing (n : Nat) : (failing n).any Deed.isBook = false := by
  rw [List.any_eq_false]
  intro deed hdeed
  rcases mem_failing hdeed with rfl | rfl <;> exact Bool.false_ne_true

theorem mem_rest_of_handed {n : Nat} {rest : List Deed} {book : Book}
    (h : .handed book ∈ failing n ++ rest) : .handed book ∈ rest := by
  rcases List.mem_append.mp h with hfailed | hrest
  · rcases mem_failing hfailed with h | h <;> contradiction
  · exact hrest

/-- A tick that was let pass, with some fetches that failed and what came after. -/
theorem accounted_of_course {retry : BackoffSettings} {n : Nat} {rest : List Deed}
    (hfetches : 0 < retry.maxAttempts → n + rest.count .begun ≤ retry.maxAttempts + 1)
    (horder : rest.Pairwise Follows)
    (hhanded : ∀ book, .handed book ∈ rest → .brought book ∈ rest)
    (hsingle : ∀ book other, .handed book ∈ rest → .handed other ∈ rest → book = other) :
    Accounted retry ⟨true, failing n ++ rest⟩ where
  refused h := by contradiction
  fetches hlimited := by
    rw [Tick.fetches, List.count_append, count_begun_failing]
    exact hfetches hlimited
  order := by
    refine List.pairwise_append.mpr ⟨?_, horder, ?_⟩
    · apply List.pairwise_of_forall_mem_list
      intro earlier hearlier later _
      rcases mem_failing hearlier with rfl | rfl <;> trivial
    · intro earlier hearlier later _
      rcases mem_failing hearlier with rfl | rfl <;> trivial
  handed book hbook :=
    List.mem_append_right _ (hhanded book (mem_rest_of_handed hbook))
  single book other hbook hother :=
    hsingle book other (mem_rest_of_handed hbook) (mem_rest_of_handed hother)

/-- A tick that brought a book, which was handed over so many times. -/
def withBook (n : Nat) (book : Book) (tries : Nat) : Tick :=
  ⟨true, failing n ++ .begun :: .brought book :: List.replicate tries (.handed book)⟩

theorem note_handed (n : Nat) (book : Book) (tries : Nat) (earlier : List Tick) :
    note (withBook n book tries :: earlier) (.handed book) =
      withBook n book (tries + 1) :: earlier := by
  simp [note, withBook, List.replicate_succ']

theorem failures_withBook (n : Nat) (book : Book) (tries : Nat) :
    (withBook n book tries).failures = n := by
  simp [failures, withBook, count_failed_failing, List.count_replicate]

theorem hasBook_withBook (n : Nat) (book : Book) (tries : Nat) :
    (withBook n book tries).hasBook = true := by
  simp [hasBook, withBook]

theorem accounted_withBook {retry : BackoffSettings} {n : Nat}
    (hwithin : 0 < retry.maxAttempts → n ≤ retry.maxAttempts) (book : Book) (tries : Nat) :
    (withBook n book tries).Accounted retry := by
  apply accounted_of_course
  case hfetches =>
    intro hlimited
    have hcount : (List.replicate tries (Deed.handed book)).count .begun = 0 := by
      simp [List.count_replicate]
    simp only [List.count_cons, hcount]
    exact Nat.add_le_add_right (hwithin hlimited) 1
  case horder => simp [Follows, List.pairwise_replicate]
  case hhanded => simp
  case hsingle =>
    intro first second hfirst hsecond
    simp only [List.mem_cons, List.mem_replicate, reduceCtorEq, false_or, Deed.handed.injEq]
      at hfirst hsecond
    exact hfirst.2.trans hsecond.2.symm

end Tick

/-! ### Steps of a pair -/

/-- A pair at work and the ticks that it took, the newest first. -/
structure Poller where
  pair : PollPair
  ticks : List Tick

namespace Poller

def next (x : Poller) (reply : Reply) (c : PollCollector) (s : Store) (time : Nat)
    (now : Instant) : Poller × PollCollector × Store :=
  let r := x.pair.next reply c s time now
  ({ pair := r.1, ticks := (deeds x.pair.stage reply r.1.stage).foldl note x.ticks }, r.2)

def failures (x : Poller) : Nat := (x.ticks.map Tick.failures).sum

def refusals (x : Poller) : Nat := x.ticks.countP (!·.admitted)

/-- How many ticks brought a book. -/
def books (x : Poller) : Nat := x.ticks.countP Tick.hasBook

/-- How many books are being stored. -/
def storing (x : Poller) : Nat :=
  match x.pair.stage with
  | .writing .. | .retrying .. => 1
  | _ => 0

/-- After so many retries a fetch may be under way. -/
def Within (retry : BackoffSettings) (retries : Nat) : Prop :=
  retry.maxAttempts = 0 ∨ retries ≤ retry.maxAttempts

theorem Within.le {retry : BackoffSettings} {retries : Nat} (h : Within retry retries)
    (hlimited : 0 < retry.maxAttempts) : retries ≤ retry.maxAttempts :=
  h.resolve_left (Nat.pos_iff_ne_zero.mp hlimited)

/-- What was done so far for the last tick, by the stage that the pair is in. -/
def Underway (retry : BackoffSettings) (x : Poller) : Prop :=
  match x.pair.stage with
  | .waiting | .stopped => True
  | .fetching _ _ backoff =>
    backoff.settings = retry ∧ Within retry backoff.attempts ∧
      ∃ earlier, x.ticks = ⟨true, Tick.failing backoff.attempts ++ [.begun]⟩ :: earlier
  | .pausing _ _ backoff =>
    backoff.settings = retry ∧ Within retry backoff.attempts ∧
      ∃ earlier, x.ticks = ⟨true, Tick.failing backoff.attempts⟩ :: earlier
  | .writing book .. | .retrying _ book .. =>
    ∃ n tries earlier, Within retry n ∧ x.ticks = Tick.withBook n book tries :: earlier

structure Sound (retry : BackoffSettings) (x : Poller) : Prop where
  underway : x.Underway retry
  ticks : ∀ t ∈ x.ticks, t.Accounted retry

/-- How a step leaves a pair, and what it adds to the counters. -/
structure Adds (retry : BackoffSettings) (x : Poller) (c : PollCollector)
    (r : Poller × PollCollector × Store) : Prop where
  sound : r.1.Sound retry
  retry : r.2.1.retry = c.retry
  failures : r.2.1.stats.fetchFailures + x.failures = c.stats.fetchFailures + r.1.failures
  refusals : r.2.1.stats.throttled + x.refusals = c.stats.throttled + r.1.refusals
  books : r.2.1.stats.persisted + r.2.1.stats.storeFailures + r.1.storing + x.books =
    c.stats.persisted + c.stats.storeFailures + x.storing + r.1.books

variable {retry : BackoffSettings} {x : Poller} {c : PollCollector} {s : Store} {time : Nat}
  {now : Instant}

theorem failures_of_ticks {t : Tick} {earlier : List Tick} (h : x.ticks = t :: earlier) :
    x.failures = t.failures + (earlier.map Tick.failures).sum := by
  simp [failures, h]

theorem refusals_of_ticks {t : Tick} {earlier : List Tick} (h : x.ticks = t :: earlier) :
    x.refusals = (!t.admitted).toNat + earlier.countP (!·.admitted) := by
  rw [refusals, h, List.countP_cons, Nat.add_comm]
  cases t.admitted <;> rfl

theorem books_of_ticks {t : Tick} {earlier : List Tick} (h : x.ticks = t :: earlier) :
    x.books = t.hasBook.toNat + earlier.countP Tick.hasBook := by
  rw [books, h, List.countP_cons, Nat.add_comm]
  cases t.hasBook <;> rfl

/-- A step that works on the last tick only. -/
theorem Sound.revise (h : x.Sound retry) {t : Tick} (t' : Tick) {earlier : List Tick}
    {r : Poller × PollCollector × Store} (hbefore : x.ticks = t :: earlier)
    (hafter : r.1.ticks = t' :: earlier) (hadmitted : t'.admitted = t.admitted)
    (haccounted : t'.Accounted retry) (hunderway : r.1.Underway retry)
    (hretry : r.2.1.retry = c.retry) (hthrottled : r.2.1.stats.throttled = c.stats.throttled)
    (hfailures : r.2.1.stats.fetchFailures + t.failures = c.stats.fetchFailures + t'.failures)
    (hbooks : r.2.1.stats.persisted + r.2.1.stats.storeFailures + r.1.storing + t.hasBook.toNat =
      c.stats.persisted + c.stats.storeFailures + x.storing + t'.hasBook.toNat) :
    Adds retry x c r where
  sound :=
    { underway := hunderway
      ticks := by
        rw [hafter]
        refine List.forall_mem_cons.mpr ⟨haccounted, fun old hold => h.ticks old ?_⟩
        rw [hbefore]
        exact List.mem_cons_of_mem t hold }
  retry := hretry
  failures := by
    rw [failures_of_ticks hbefore, failures_of_ticks hafter]
    omega
  refusals := by
    rw [refusals_of_ticks hbefore, refusals_of_ticks hafter, hadmitted, hthrottled]
  books := by
    rw [books_of_ticks hbefore, books_of_ticks hafter]
    omega

/-- A step with which a tick is taken. -/
theorem Sound.take (h : x.Sound retry) (t : Tick) {r : Poller × PollCollector × Store}
    (hafter : r.1.ticks = t :: x.ticks) (haccounted : t.Accounted retry)
    (hunderway : r.1.Underway retry) (hretry : r.2.1.retry = c.retry)
    (hfailures : r.2.1.stats.fetchFailures = c.stats.fetchFailures + t.failures)
    (hthrottled : r.2.1.stats.throttled = c.stats.throttled + (!t.admitted).toNat)
    (hbooks : r.2.1.stats.persisted + r.2.1.stats.storeFailures + r.1.storing =
      c.stats.persisted + c.stats.storeFailures + x.storing + t.hasBook.toNat) :
    Adds retry x c r where
  sound :=
    { underway := hunderway
      ticks := by
        rw [hafter]
        exact List.forall_mem_cons.mpr ⟨haccounted, h.ticks⟩ }
  retry := hretry
  failures := by
    rw [failures_of_ticks hafter, failures]
    omega
  refusals := by
    rw [refusals_of_ticks hafter, refusals]
    omega
  books := by
    rw [books_of_ticks hafter, books]
    omega

/-- A tick that the gate lets pass begins a fetch, and one that it refuses comes to nothing. -/
theorem Sound.tick (h : x.Sound retry) (hretry : c.retry = retry) (s : Store) (time : Nat)
    (now : Instant) (hstage : x.pair.stage = .waiting) :
    Adds retry x c (x.next .woke c s time now) := by
  obtain ⟨admitted, gate, hpass⟩ : ∃ admitted gate,
      c.gate.pass x.pair.key x.pair.ticker.due = (admitted, gate) := ⟨_, _, rfl⟩
  cases admitted with
  | true =>
      have hnext : x.next .woke c s time now =
          ({ pair := { x.pair with
              ticker := x.pair.ticker.advance time
              stage := .fetching x.pair.ticker.due x.pair.ticker.due (Backoff.start c.retry) }
             ticks := ⟨true, [.begun]⟩ :: x.ticks }, { c with gate }, s) := by
        simp only [next, PollPair.next, hstage, PollPair.tick, hpass]
        rfl
      have haccounted : Tick.Accounted retry ⟨true, Tick.failing 0 ++ [.begun]⟩ :=
        Tick.accounted_of_course (fun _ => Nat.le_add_left _ _) (List.pairwise_singleton _ _)
          (by simp) (by simp)
      rw [hnext]
      apply h.take ⟨true, [.begun]⟩
      case haccounted => exact haccounted
      case hunderway => exact ⟨hretry, .inr (Nat.zero_le _), x.ticks, rfl⟩
      case hbooks => simp [storing, hstage, Tick.hasBook]
      all_goals rfl
  | false =>
      have hnext : x.next .woke c s time now =
          ({ pair := { x.pair with ticker := x.pair.ticker.advance time }
             ticks := ⟨false, []⟩ :: x.ticks },
            { c with stats := c.stats.countThrottled }, s) := by
        simp only [next, PollPair.next, hstage, PollPair.tick, hpass]
        rfl
      rw [hnext]
      apply h.take ⟨false, []⟩
      case haccounted => exact ⟨fun _ => rfl, fun _ => Nat.zero_le _, .nil, by simp, by simp⟩
      case hunderway => simp [Underway, hstage]
      case hbooks => simp [storing, hstage, Tick.hasBook, Stats.countThrottled]
      all_goals rfl

/-- A later attempt for the same tick. -/
theorem Sound.again (h : x.Sound retry) {delay tick : Nat} {backoff : Backoff} (c : PollCollector)
    (s : Store) (time : Nat) (now : Instant)
    (hstage : x.pair.stage = .pausing delay tick backoff) :
    Adds retry x c (x.next .woke c s time now) := by
  have hunderway := h.underway
  simp only [Underway, hstage] at hunderway
  obtain ⟨hsettings, hwithin, earlier, hticks⟩ := hunderway
  have hnext : x.next .woke c s time now =
      ({ pair := { x.pair with stage := .fetching tick time backoff }
         ticks := ⟨true, Tick.failing backoff.attempts ++ [.begun]⟩ :: earlier }, c, s) := by
    simp only [next, PollPair.next, hstage, hticks]
    rfl
  rw [hnext]
  apply h.revise ⟨true, Tick.failing backoff.attempts ++ [.begun]⟩ hticks
  case haccounted =>
    apply Tick.accounted_of_course _ (List.pairwise_singleton _ _) (by simp) (by simp)
    intro hlimited
    exact Nat.add_le_add_right (hwithin.le hlimited) 1
  case hunderway => exact ⟨hsettings, hwithin, earlier, rfl⟩
  case hfailures => simp [Tick.failures]
  case hbooks => simp [storing, hstage, Tick.hasBook]
  all_goals rfl

/-- A failed fetch is counted, and tried again if an attempt is left. -/
theorem Sound.fail (h : x.Sound retry) {tick started : Nat} {backoff : Backoff} (e : Fault)
    (c : PollCollector) (s : Store) (time : Nat) (now : Instant)
    (hstage : x.pair.stage = .fetching tick started backoff) :
    Adds retry x c (x.next (.fetched (.error e)) c s time now) := by
  have hunderway := h.underway
  simp only [Underway, hstage] at hunderway
  obtain ⟨hsettings, hwithin, earlier, hticks⟩ := hunderway
  have hfailing : Tick.failing backoff.attempts ++ [.begun] ++ [.failed] =
      Tick.failing (backoff.attempts + 1) := by
    rw [Tick.failing_succ, List.append_assoc]
    rfl
  have haccounted : Tick.Accounted retry ⟨true, Tick.failing (backoff.attempts + 1) ++ []⟩ := by
    apply Tick.accounted_of_course _ .nil (by simp) (by simp)
    intro hlimited
    exact Nat.add_le_add_right (hwithin.le hlimited) 1
  rw [List.append_nil] at haccounted
  have hcounted : (Tick.mk true (Tick.failing (backoff.attempts + 1))).failures =
      (Tick.mk true (Tick.failing backoff.attempts ++ [.begun])).failures + 1 := by
    rw [← hfailing]
    simp [Tick.failures]
  have hbookless : (Tick.mk true (Tick.failing (backoff.attempts + 1))).hasBook =
      (Tick.mk true (Tick.failing backoff.attempts ++ [.begun])).hasBook := by
    rw [← hfailing]
    simp [Tick.hasBook]
  obtain ⟨y, hnext, hafter, hunderway, hstoring⟩ : ∃ y : Poller,
      x.next (.fetched (.error e)) c s time now =
        (y, { c with stats := c.stats.countFetchFailure }, s) ∧
      y.ticks = ⟨true, Tick.failing (backoff.attempts + 1)⟩ :: earlier ∧
      y.Underway retry ∧ y.storing = 0 := by
    simp only [next, PollPair.next, hstage, afterFetch, hticks, ← hfailing]
    by_cases hallowed : Allows backoff.settings backoff.attempts
    · obtain ⟨delay, -, hwait⟩ :=
        waitAfter?_of_allows { c with stats := c.stats.countFetchFailure } e hallowed
      rw [hwait]
      rw [hsettings] at hallowed
      refine ⟨_, rfl, rfl, ⟨hsettings, hallowed, earlier, ?_⟩, rfl⟩
      rw [← hfailing]
      rfl
    · rw [waitAfter?_of_not_allows e hallowed]
      exact ⟨_, rfl, rfl, trivial, rfl⟩
  rw [hnext]
  apply h.revise ⟨true, Tick.failing (backoff.attempts + 1)⟩ hticks hafter
  case haccounted => exact haccounted
  case hunderway => exact hunderway
  case hfailures =>
    rw [hcounted]
    simp only [Stats.countFetchFailure]
    omega
  case hbooks =>
    rw [hbookless, hstoring]
    simp [storing, hstage, Stats.countFetchFailure]
  all_goals rfl

/-- A book that a fetch brought is handed over next. -/
theorem Sound.fetch (h : x.Sound retry) {tick started : Nat} {backoff : Backoff} (book : Book)
    (c : PollCollector) (s : Store) (time : Nat) (now : Instant)
    (hstage : x.pair.stage = .fetching tick started backoff) :
    Adds retry x c (x.next (.fetched (.ok book)) c s time now) := by
  have hunderway := h.underway
  simp only [Underway, hstage] at hunderway
  obtain ⟨hsettings, hwithin, earlier, hticks⟩ := hunderway
  obtain ⟨c', hnext, hretry, hstats⟩ : ∃ c' : PollCollector,
      x.next (.fetched (.ok book)) c s time now =
        ({ pair := { x.pair with
            stage := .writing book (tick < started) (Backoff.start c'.storeRetry) }
           ticks := Tick.withBook backoff.attempts book 0 :: earlier }, c', s) ∧
      c'.retry = c.retry ∧ c'.stats = c.stats := by
    simp only [next, PollPair.next, hstage, afterFetch, hticks]
    by_cases hmoved : tick < started <;> simp [hmoved, deeds, note, Tick.withBook]
  rw [hnext]
  apply h.revise (Tick.withBook backoff.attempts book 0) hticks
  case haccounted => exact Tick.accounted_withBook hwithin.le book 0
  case hunderway => exact ⟨backoff.attempts, 0, earlier, hwithin, rfl⟩
  case hretry => exact hretry
  case hthrottled => rw [hstats]
  case hfailures =>
    rw [hstats, Tick.failures_withBook]
    simp [Tick.failures, Tick.count_failed_failing]
  case hbooks =>
    rw [hstats, Tick.hasBook_withBook]
    simp [storing, hstage, Tick.hasBook, Tick.any_isBook_failing]
  all_goals rfl

/-- A book that is handed over once more. -/
theorem Sound.hand (h : x.Sound retry) {n tries : Nat} {book : Book} {earlier : List Tick}
    {r : Poller × PollCollector × Store} (hwithin : Within retry n)
    (hbefore : x.ticks = Tick.withBook n book tries :: earlier)
    (hafter : r.1.ticks = note x.ticks (.handed book)) (hunderway : r.1.Underway retry)
    (hretry : r.2.1.retry = c.retry) (hthrottled : r.2.1.stats.throttled = c.stats.throttled)
    (hfetches : r.2.1.stats.fetchFailures = c.stats.fetchFailures)
    (hbooks : r.2.1.stats.persisted + r.2.1.stats.storeFailures + r.1.storing =
      c.stats.persisted + c.stats.storeFailures + x.storing) : Adds retry x c r := by
  rw [hbefore, Tick.note_handed] at hafter
  apply h.revise _ hbefore hafter rfl (Tick.accounted_withBook hwithin.le book _) hunderway hretry
    hthrottled
  · rw [hfetches, Tick.failures_withBook, Tick.failures_withBook]
  · rw [hbooks, Tick.hasBook_withBook, Tick.hasBook_withBook]

/-- A book lands, is to be handed over again, or is given up. -/
theorem Sound.write (h : x.Sound retry) {book : Book} {moved : Bool} {schedule : Backoff}
    (c : PollCollector) (s : Store) (time : Nat) (now : Instant)
    (hstage : x.pair.stage = .writing book moved schedule) :
    Adds retry x c (x.next .ready c s time now) := by
  have hunderway := h.underway
  simp only [Underway, hstage] at hunderway
  obtain ⟨n, tries, earlier, hwithin, hticks⟩ := hunderway
  obtain ⟨result, s', hattempt⟩ : ∃ result s',
      s.attempt (.append x.pair.key.collection book.documentId book.toJson.settled) schedule now =
        (result, s') := ⟨_, _, rfl⟩
  have hstoring : x.storing = 1 := by rw [storing, hstage]
  have hafter : (x.next .ready c s time now).1.ticks = note x.ticks (.handed book) := by
    simp only [next, hstage]
    rfl
  have hnoted : note x.ticks (.handed book) = Tick.withBook n book (tries + 1) :: earlier := by
    rw [hticks, Tick.note_handed]
  apply h.hand hwithin hticks hafter
  all_goals simp only [next, PollPair.next, hstage, hattempt]
  case hunderway =>
    cases result with
    | waiting delay schedule => exact ⟨n, tries + 1, earlier, hwithin, hnoted⟩
    | _ => trivial
  case hbooks =>
    rw [hstoring]
    cases result with
    | done sequence =>
        change c.stats.persisted + 1 + c.stats.storeFailures + 0 = _
        omega
    | givenUp e =>
        change c.stats.persisted + (c.stats.storeFailures + 1) + 0 = _
        omega
    | waiting delay schedule => rfl
  all_goals cases result <;> rfl

/-- A step after which nothing has been done. -/
theorem Sound.quiet (h : x.Sound retry) {r : Poller × PollCollector × Store}
    (hticks : r.1.ticks = x.ticks) (hunderway : r.1.Underway retry)
    (hretry : r.2.1.retry = c.retry) (hstats : r.2.1.stats = c.stats)
    (hstoring : r.1.storing = x.storing) : Adds retry x c r where
  sound := ⟨hunderway, by rw [hticks]; exact h.ticks⟩
  retry := hretry
  failures := by rw [hstats, failures, failures, hticks]
  refusals := by rw [hstats, refusals, refusals, hticks]
  books := by rw [hstats, hstoring, books, books, hticks]

theorem Sound.stay (h : x.Sound retry) (c : PollCollector) (s : Store) : Adds retry x c (x, c, s) :=
  h.quiet rfl h.underway rfl rfl rfl

/-- A pair is stopped while it has no book to store. -/
theorem Sound.stop (h : x.Sound retry) (c : PollCollector) (s : Store) (hnone : x.storing = 0) :
    Adds retry x c ({ x with pair := { x.pair with stage := .stopped } }, c, s) :=
  h.quiet rfl trivial rfl rfl hnone.symm

/-- Whatever a pair goes on with, it is told by the counters. -/
theorem Sound.next (h : x.Sound retry) (hretry : c.retry = retry) (reply : Reply) (s : Store)
    (time : Nat) (now : Instant) : Adds retry x c (x.next reply c s time now) := by
  cases hstage : x.pair.stage with
  | waiting =>
      cases reply with
      | woke => exact h.tick hretry s time now hstage
      | shutdown =>
          simp only [Poller.next, PollPair.next, hstage]
          exact h.stop c s (by simp [storing, hstage])
      | _ =>
          simp only [Poller.next, PollPair.next, hstage]
          exact h.stay c s
  | fetching tick started backoff =>
      cases reply with
      | fetched result =>
          cases result with
          | ok book => exact h.fetch book c s time now hstage
          | error e => exact h.fail e c s time now hstage
      | _ =>
          simp only [Poller.next, PollPair.next, hstage]
          exact h.stay c s
  | pausing delay tick backoff =>
      cases reply with
      | woke => exact h.again c s time now hstage
      | shutdown =>
          simp only [Poller.next, PollPair.next, hstage]
          exact h.stop c s (by simp [storing, hstage])
      | _ =>
          simp only [Poller.next, PollPair.next, hstage]
          exact h.stay c s
  | writing book moved schedule =>
      cases reply with
      | ready => exact h.write c s time now hstage
      | _ =>
          simp only [Poller.next, PollPair.next, hstage]
          exact h.stay c s
  | retrying delay book moved schedule =>
      cases reply with
      | woke =>
          have hunderway := h.underway
          simp only [Underway, hstage] at hunderway
          simp only [Poller.next, PollPair.next, hstage]
          refine h.quiet rfl hunderway rfl rfl ?_
          simp [storing, hstage]
      | _ =>
          simp only [Poller.next, PollPair.next, hstage]
          exact h.stay c s
  | stopped =>
      simp only [Poller.next, PollPair.next, hstage]
      exact h.stay c s

end Poller
end PollPair

namespace PollCollector

open PollPair (Poller Deed Tick)

/-! ### Runs -/

/-- A sum of which one term is replaced. -/
theorem sum_map_set {α : Type} {l : List α} {i : Nat} {a b : α} (h : l[i]? = some a)
    (f : α → Nat) : ((l.set i b).map f).sum + f a = (l.map f).sum + f b := by
  induction l generalizing i with
  | nil => contradiction
  | cons first rest ih =>
      cases i with
      | zero =>
          obtain rfl : first = a := Option.some.inj h
          simp only [List.set_cons_zero, List.map_cons, List.sum_cons]
          omega
      | succ i =>
          have hrest := ih h
          simp only [List.set_cons_succ, List.map_cons, List.sum_cons]
          omega

/-- Pairs that poll side by side, what they share, and what each of them did. -/
structure Crew where
  collector : PollCollector
  pollers : List Poller
  store : Store

namespace Crew

/-- A collector that was started, each of whose pairs begins at a time of its own. -/
def initial (c : Settings.Poll) (alerts : Alerts) (begins : PollKey → Nat) (s : Store) : Crew :=
  let (collector, pairs) := (ofSettings c alerts).start
  { collector
    pollers := pairs.map fun p =>
      { pair := { p with ticker := { p.ticker with due := begins p.key } }, ticks := [] }
    store := s }

/-- A step of the pair that stands at a place, which leaves it as `r` says. -/
def put (w : Crew) (i : Nat) (r : Poller × PollCollector × Store) : Crew :=
  { collector := r.2.1, pollers := w.pollers.set i r.1, store := r.2.2 }

/-- The pairs go on at any time, in any order, with any replies; others write to the store too. -/
inductive Reachable (c : Settings.Poll) : Crew → Prop
  | initial (alerts : Alerts) (begins : PollKey → Nat) (s : Store) :
      Reachable c (initial c alerts begins s)
  | turn {w : Crew} {i : Nat} {x : Poller} (reply : PollPair.Reply) (time : Nat) (now : Instant)
      (hreach : Reachable c w) (hpoller : w.pollers[i]? = some x) :
      Reachable c (w.put i (x.next reply w.collector w.store time now))
  | elsewhere {w : Crew} (s : Store) (hreach : Reachable c w) : Reachable c { w with store := s }

/-- The sum of what all pairs did. -/
def total (w : Crew) (count : Poller → Nat) : Nat := (w.pollers.map count).sum

theorem total_put {w : Crew} {i : Nat} {x : Poller} (h : w.pollers[i]? = some x)
    (r : Poller × PollCollector × Store) (count : Poller → Nat) :
    (w.put i r).total count + count x = w.total count + count r.1 :=
  sum_map_set h count

structure Sound (c : Settings.Poll) (w : Crew) : Prop where
  retry : w.collector.retry = c.retry
  pollers : ∀ x ∈ w.pollers, x.Sound c.retry
  failures : w.collector.stats.fetchFailures = w.total Poller.failures
  refusals : w.collector.stats.throttled = w.total Poller.refusals
  books : w.collector.stats.persisted + w.collector.stats.storeFailures + w.total Poller.storing =
    w.total Poller.books

variable {c : Settings.Poll} {w : Crew}

theorem sound_initial (c : Settings.Poll) (alerts : Alerts) (begins : PollKey → Nat) (s : Store) :
    Sound c (initial c alerts begins s) := by
  have hpollers : ∀ x ∈ (initial c alerts begins s).pollers,
      x.pair.stage = .waiting ∧ x.ticks = [] := by
    simp [initial, start, PollPair.ofCollector]
  have htotal : ∀ count : Poller → Nat,
      (∀ x : Poller, x.pair.stage = .waiting → x.ticks = [] → count x = 0) →
      (initial c alerts begins s).total count = 0 := by
    intro count hcount
    rw [total, List.sum_eq_zero_iff]
    intro n hn
    obtain ⟨x, hx, rfl⟩ := List.mem_map.mp hn
    obtain ⟨hstage, hticks⟩ := hpollers x hx
    exact hcount x hstage hticks
  constructor
  case retry => rfl
  case pollers =>
    intro x hx
    obtain ⟨hstage, hticks⟩ := hpollers x hx
    refine ⟨?_, by simp [hticks]⟩
    rw [Poller.Underway, hstage]
    trivial
  case failures =>
    rw [htotal]
    · rfl
    · intro x _ hticks
      simp [Poller.failures, hticks]
  case refusals =>
    rw [htotal]
    · rfl
    · intro x _ hticks
      simp [Poller.refusals, hticks]
  case books =>
    rw [htotal, htotal]
    · rfl
    · intro x _ hticks
      simp [Poller.books, hticks]
    · intro x hstage _
      simp [Poller.storing, hstage]

theorem Sound.put (h : Sound c w) {i : Nat} {x : Poller} {r : Poller × PollCollector × Store}
    (hpoller : w.pollers[i]? = some x) (hadds : x.Adds c.retry w.collector r) :
    Sound c (w.put i r) where
  retry := hadds.retry.trans h.retry
  pollers y hy := by
    rcases List.mem_or_eq_of_mem_set hy with hold | rfl
    · exact h.pollers y hold
    · exact hadds.sound
  failures := by
    have hsum := total_put hpoller r Poller.failures
    have hadded := hadds.failures
    have hbefore := h.failures
    change r.2.1.stats.fetchFailures = _
    omega
  refusals := by
    have hsum := total_put hpoller r Poller.refusals
    have hadded := hadds.refusals
    have hbefore := h.refusals
    change r.2.1.stats.throttled = _
    omega
  books := by
    have hstoring := total_put hpoller r Poller.storing
    have hsum := total_put hpoller r Poller.books
    have hadded := hadds.books
    have hbefore := h.books
    change r.2.1.stats.persisted + r.2.1.stats.storeFailures + _ = _
    omega

theorem Reachable.sound (h : Reachable c w) : Sound c w := by
  induction h with
  | initial alerts begins s => exact sound_initial c alerts begins s
  | turn reply time now _ hpoller ih =>
      have hx := ih.pollers _ (List.mem_of_getElem? hpoller)
      exact ih.put hpoller (hx.next ih.retry reply _ time now)
  | elsewhere s _ ih => exact { ih with }

end Crew

/-- At every moment of a run, of each tick no more fetches were made than are allowed, none of them
after the first that succeeded, whose book alone was handed to the store; the counters tell how many
fetches failed, how many ticks were refused, and how many of the books that came were stored or
given up, which is all of them when the pairs have stopped. -/
theorem fetches_are_accounted {c : Settings.Poll} {w : Crew} (hreach : Crew.Reachable c w) :
    (∀ x ∈ w.pollers, ∀ t ∈ x.ticks, t.Accounted c.retry) ∧
    w.collector.stats.fetchFailures = w.total Poller.failures ∧
    w.collector.stats.throttled = w.total Poller.refusals ∧
    w.collector.stats.persisted + w.collector.stats.storeFailures + w.total Poller.storing =
      w.total Poller.books ∧
    ((∀ x ∈ w.pollers, x.pair.stage = .stopped) →
      w.collector.stats.persisted + w.collector.stats.storeFailures = w.total Poller.books) := by
  have hsound := hreach.sound
  refine ⟨fun x hx => (hsound.pollers x hx).ticks, hsound.failures, hsound.refusals, hsound.books,
    fun hstopped => ?_⟩
  have hnone : w.total Poller.storing = 0 := by
    rw [Crew.total, List.sum_eq_zero_iff]
    intro n hn
    obtain ⟨x, hx, rfl⟩ := List.mem_map.mp hn
    rw [Poller.storing, hstopped x hx]
  have hbooks := hsound.books
  rwa [hnone, Nat.add_zero] at hbooks

/-- A fetch fails, and its retry brings a book that is stored before the pair is stopped. -/
theorem retried_fetch_is_accounted :
    ∃ w, Crew.Reachable PollPair.curt w ∧ (∀ x ∈ w.pollers, x.pair.stage = .stopped) ∧
      w.pollers.map (·.ticks.map (·.deeds)) =
        [[[.begun, .failed, .begun, .brought emptyBook, .handed emptyBook]]] ∧
      w.collector.stats.fetchFailures = w.total Poller.failures ∧
      w.collector.stats.persisted + w.collector.stats.storeFailures = w.total Poller.books ∧
      w.total Poller.failures = 1 ∧ w.total Poller.books = 1 := by
  have hbegun : Crew.Reachable PollPair.curt (.initial PollPair.curt {} (fun _ => 0) {}) :=
    .initial _ _ _
  have hticked := hbegun.turn (i := 0) .woke 0 default rfl
  have hfailed := hticked.turn (i := 0) (.fetched (.error (.network "down"))) 5 default rfl
  have hagain := hfailed.turn (i := 0) .woke 15 default rfl
  have hfetched := hagain.turn (i := 0) (.fetched (.ok emptyBook)) 20 default rfl
  have hstored := hfetched.turn (i := 0) .ready 20 default rfl
  have hstopped := hstored.turn (i := 0) .shutdown 30 default rfl
  obtain ⟨-, hfailures, -, -, hbooks⟩ := fetches_are_accounted hstopped
  exact ⟨_, hstopped, List.forall_mem_singleton.mpr rfl, rfl, hfailures,
    hbooks (List.forall_mem_singleton.mpr rfl), rfl, rfl⟩

end PollCollector
end TradingDesk

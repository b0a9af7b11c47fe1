import TradingDesk.Proofs.Backoff
import TradingDesk.Proofs.Collector.Polls
/-!
# Waits that a server asks for

A server that refuses a fetch may ask for a wait. A pair that may try again for the same tick waits
at least as long as it was asked to. A pair that has no attempt left forgets what it was asked for
and goes back to its ticks, the next of which may be overdue after the waits before.

So a pair honours all that it is asked for just if its attempts are not limited.
-/

namespace TradingDesk
namespace PollPair

/-! ### What is seen of fetches -/

inductive Sighting where
  | begun (time : Nat)
  /-- A fetch for the tick that was due at `tick` failed, after `retries` that failed before. -/
  | failed (tick retries time : Nat) (fault : Fault)

/-- What is seen of a pair that goes from one stage to another. -/
def sighted? (before : Stage) (reply : Reply) (after : Stage) (time : Nat) : Option Sighting :=
  match before, reply, after with
  | .fetching tick _ backoff, .fetched (.error e), _ => some (.failed tick backoff.attempts time e)
  | .waiting, _, .fetching .. | .pausing .., _, .fetching .. => some (.begun time)
  | _, _, _ => none

/-- Whether a fetch may be tried again after this many retries. -/
def Allows (retry : BackoffSettings) (retries : Nat) : Prop :=
  retry.maxAttempts = 0 ∨ retries < retry.maxAttempts

instance (retry : BackoffSettings) (retries : Nat) : Decidable (Allows retry retries) :=
  inferInstanceAs (Decidable (_ ∨ _))

/-- No fetch begins before the end of a wait that was asked for. -/
def Honoured (seen : List Sighting) : Prop :=
  ∀ before tick retries time fault after,
    seen = before ++ .failed tick retries time fault :: after →
      ∀ asked, fault.retryAfter? = some asked →
        ∀ later, .begun later ∈ after → time + asked ≤ later

/-- What a failed fetch is followed by: by an attempt after the wait that was asked for, or by
those of later ticks. -/
def Kept (retry : BackoffSettings) (interval : Nat) (seen : List Sighting) : Prop :=
  ∀ before tick retries time fault after,
    seen = before ++ .failed tick retries time fault :: after →
      ∀ later, .begun later ∈ after →
        if Allows retry retries then time + fault.retryAfter?.getD 0 ≤ later
        else time ≤ later ∧ tick + interval ≤ later

/-- What is kept is honoured where each failed fetch may be tried again. -/
theorem Kept.honoured {retry : BackoffSettings} {interval : Nat} {seen : List Sighting}
    (h : Kept retry interval seen) (hunlimited : retry.maxAttempts = 0) : Honoured seen := by
  intro before tick retries time fault after hseen asked hasked later hlater
  have hkept := h before tick retries time fault after hseen later hlater
  rwa [if_pos (.inl hunlimited), hasked, Option.getD_some] at hkept

/-- The time before which no fetch begins after this. -/
def Sighting.holdsUntil (retry : BackoffSettings) (interval : Nat) : Sighting → Nat
  | .begun _ => 0
  | .failed tick retries time fault =>
    if Allows retry retries then time + fault.retryAfter?.getD 0 else max time (tick + interval)

theorem kept_of_pairwise {retry : BackoffSettings} {interval : Nat} {seen : List Sighting}
    (h : seen.Pairwise fun a b => ∀ time, b = .begun time → a.holdsUntil retry interval ≤ time) :
    Kept retry interval seen := by
  intro before tick retries time fault after hseen later hlater
  rw [hseen] at h
  have hafter := (List.pairwise_append.mp h).2.1
  have hheld := List.rel_of_pairwise_cons hafter hlater later rfl
  simp only [Sighting.holdsUntil] at hheld
  by_cases hallowed : Allows retry retries
  · rwa [if_pos hallowed] at hheld ⊢
  · rw [if_neg hallowed] at hheld ⊢
    exact max_le_iff.mp hheld

/-! ### Waits after a failed fetch -/

theorem waitAfter?_of_not_allows {c : PollCollector} {b : Backoff} (e : Fault)
    (h : ¬ Allows b.settings b.attempts) : waitAfter? c e b = none := by
  have hspent : b.mayRetry = false :=
    Bool.eq_false_of_not_eq_true (mt Backoff.mayRetry_iff.mp h)
  simp [waitAfter?, Backoff.nextAtLeast?, Backoff.next?, hspent]

/-- A wait is no shorter than the server asked for. -/
theorem waitAfter?_of_allows (c : PollCollector) {b : Backoff} (e : Fault)
    (h : Allows b.settings b.attempts) :
    ∃ delay, e.retryAfter?.getD 0 ≤ delay ∧ waitAfter? c e b = some (delay,
      { b with current := b.settings.grow b.current, attempts := b.attempts + 1 }) := by
  have hmay : b.mayRetry = true := Backoff.mayRetry_iff.mpr h
  simp only [waitAfter?, Backoff.nextAtLeast?, Backoff.next?, hmay, if_true, Option.map_some]
  by_cases hlimit : e.isRateLimit = true
  · rw [if_pos hlimit]
    refine ⟨_, ?_, rfl⟩
    cases e.retryAfter? with
    | none => exact Nat.zero_le _
    | some asked => exact le_max_right _ _
  · have hasked : e.retryAfter? = none := by
      cases e <;> first | rfl | exact absurd rfl hlimit
    rw [if_neg hlimit, hasked]
    exact ⟨_, Nat.zero_le _, rfl⟩

/-! ### Runs of a pair -/

/-- A pair at work: what it shares, since when it has been in its stage, and what was seen. -/
structure Course where
  time : Nat
  since : Nat
  pair : PollPair
  collector : PollCollector
  store : Store
  seen : List Sighting

namespace Course

/-- The pair of a schedule, whose first tick is due when it begins. -/
def initial (c : Settings.Poll) (s : Settings.Schedule) (alerts : Alerts) (begins : Nat)
    (store : Store) : Course where
  time := begins
  since := begins
  pair := { key := PollCollector.keyOf s, ticker := { period := s.interval, due := begins } }
  collector := .ofSettings c alerts
  store := store
  seen := []

def turn (w : Course) (reply : Reply) (now : Instant) : Course :=
  let r := w.pair.next reply w.collector w.store w.time now
  { time := w.time
    since := w.time
    pair := r.1
    collector := r.2.1
    store := r.2.2
    seen := w.seen ++ (sighted? w.pair.stage reply r.1.stage w.time).toList }

/-- What a pair goes on with in its stage; ticks are not early and waits not cut short. -/
def Ready (w : Course) (reply : Reply) : Prop :=
  match w.pair.stage, reply with
  | .waiting, .woke => w.pair.ticker.due ≤ w.time
  | .pausing delay .., .woke | .retrying delay .., .woke => w.since + delay ≤ w.time
  | .fetching .., .fetched _ | .writing .., .ready => True
  | .waiting, .shutdown | .pausing .., .shutdown => True
  | _, _ => False

/-- The other pairs work on what all share, but not on the passages of this one. -/
inductive Reachable (c : Settings.Poll) (s : Settings.Schedule) : Course → Prop
  | initial (alerts : Alerts) (begins : Nat) (store : Store) :
      Reachable c s (initial c s alerts begins store)
  | turn {w : Course} (reply : Reply) (now : Instant) (hreach : Reachable c s w)
      (hready : w.Ready reply) : Reachable c s (w.turn reply now)
  | wait {w : Course} (later : Nat) (hreach : Reachable c s w) (hle : w.time ≤ later) :
      Reachable c s { w with time := later }
  | elsewhere {w : Course} (shared : PollCollector) (store : Store) (hreach : Reachable c s w)
      (hretry : shared.retry = w.collector.retry)
      (hintervals : ∀ key, shared.gate.intervalOf key = w.collector.gate.intervalOf key)
      (hpassed : shared.gate.last? w.pair.key = w.collector.gate.last? w.pair.key) :
      Reachable c s { w with collector := shared, store }
  /-- With jitter the next wait may turn out to be any. -/
  | jitter {w : Course} {tick started : Nat} {backoff : Backoff} (delay : Nat)
      (hreach : Reachable c s w) (hstage : w.pair.stage = .fetching tick started backoff)
      (hjitter : ¬ backoff.settings.jitter ≤ 0.0) :
      Reachable c s { w with pair := { w.pair with
        stage := .fetching tick started { backoff with current := delay } } }

/-- No fetch begins before a time from now on. -/
def Holds (w : Course) (time : Nat) : Prop :=
  match w.pair.stage with
  | .waiting => time ≤ max w.time w.pair.ticker.due
  | .pausing delay .. => time ≤ max w.time (w.since + delay)
  | .stopped => True
  | _ => time ≤ w.time

/-- The ticks of a pair that fetches are past the one the fetch is for. -/
def Punctual (retry : BackoffSettings) (p : PollPair) : Prop :=
  match p.stage with
  | .fetching tick _ backoff | .pausing _ tick backoff =>
    backoff.settings = retry ∧ tick + p.ticker.period ≤ p.ticker.due
  | _ => True

structure Sound (retry : BackoffSettings) (interval : Nat) (w : Course) : Prop where
  settings : w.collector.retry = retry
  period : w.pair.ticker.period = interval
  punctual : Punctual retry w.pair
  holds : ∀ o ∈ w.seen, w.Holds (o.holdsUntil retry interval)
  spaced : w.seen.Pairwise fun a b =>
    ∀ time, b = .begun time → a.holdsUntil retry interval ≤ time

variable {c : Settings.Poll} {s : Settings.Schedule} {retry : BackoffSettings} {interval : Nat}
  {w : Course}

theorem holds_of_le {time : Nat} (h : time ≤ w.time) : w.Holds time := by
  unfold Holds
  split
  · exact h.trans (le_max_left _ _)
  · exact h.trans (le_max_left _ _)
  · trivial
  · exact h

/-- A pair whose wait is over holds no fetch back any longer. -/
theorem Ready.over {reply : Reply} (h : w.Ready reply) (hgoes : reply ≠ .shutdown) {time : Nat}
    (hholds : w.Holds time) : time ≤ w.time := by
  unfold Holds at hholds
  unfold Ready at h
  split at hholds
  case h_1 hstage =>
    rw [hstage] at h
    cases reply with
    | woke => exact hholds.trans_eq (max_eq_left h)
    | shutdown => contradiction
    | _ => exact h.elim
  case h_2 hstage =>
    rw [hstage] at h
    cases reply with
    | woke => exact hholds.trans_eq (max_eq_left h)
    | shutdown => contradiction
    | _ => exact h.elim
  case h_3 hstage =>
    rw [hstage] at h
    exact h.elim
  case h_4 => exact hholds

/-- A step that makes no fetch begin earlier; one may begin at it if none was held back. -/
theorem Sound.advance (h : Sound retry interval w) {w' : Course} (new : Option Sighting)
    (hseen : w'.seen = w.seen ++ new.toList) (hsettings : w'.collector.retry = w.collector.retry)
    (hperiod : w'.pair.ticker.period = w.pair.ticker.period) (hpunctual : Punctual retry w'.pair)
    (hholds : ∀ time, w.Holds time → w'.Holds time)
    (hnew : ∀ o ∈ new, w'.Holds (o.holdsUntil retry interval))
    (hbegun : ∀ began, new = some (.begun began) → ∀ time, w.Holds time → time ≤ began) :
    Sound retry interval w' where
  settings := hsettings.trans h.settings
  period := hperiod.trans h.period
  punctual := hpunctual
  holds := by
    intro o ho
    rw [hseen] at ho
    rcases List.mem_append.mp ho with hold | hlast
    · exact hholds _ (h.holds o hold)
    · exact hnew o (Option.mem_toList.mp hlast)
  spaced := by
    rw [hseen]
    apply List.pairwise_append.mpr
    refine ⟨h.spaced, ?_, ?_⟩
    · cases new <;> simp
    · intro old hold o ho began heq
      subst heq
      exact hbegun began (Option.mem_toList.mp ho) _ (h.holds old hold)

/-- A step at which nothing is seen. -/
theorem Sound.quiet (h : Sound retry interval w) {w' : Course} (hseen : w'.seen = w.seen)
    (hsettings : w'.collector.retry = w.collector.retry)
    (hperiod : w'.pair.ticker.period = w.pair.ticker.period) (hpunctual : Punctual retry w'.pair)
    (hholds : ∀ time, w.Holds time → w'.Holds time) : Sound retry interval w' :=
  h.advance none (by simpa using hseen) hsettings hperiod hpunctual hholds
    (fun _ ho => nomatch ho) (fun _ ho => nomatch ho)

/-- A step with which a fetch begins. -/
theorem Sound.begin (h : Sound retry interval w) (hover : ∀ {time}, w.Holds time → time ≤ w.time)
    {w' : Course} (hseen : w'.seen = w.seen ++ [.begun w.time]) (htime : w'.time = w.time)
    (hsettings : w'.collector.retry = w.collector.retry)
    (hperiod : w'.pair.ticker.period = w.pair.ticker.period)
    (hpunctual : Punctual retry w'.pair) : Sound retry interval w' := by
  apply h.advance (some (.begun w.time)) hseen hsettings hperiod hpunctual
  case hholds =>
    intro time hholds
    apply holds_of_le
    rw [htime]
    exact hover hholds
  case hnew =>
    intro o ho
    obtain rfl := Option.some.inj ho
    exact holds_of_le (Nat.zero_le _)
  case hbegun =>
    intro began hbegan time hholds
    obtain rfl : w.time = began := Sighting.begun.inj (Option.some.inj hbegan)
    exact hover hholds

theorem sound_initial (c : Settings.Poll) (s : Settings.Schedule) (alerts : Alerts) (begins : Nat)
    (store : Store) : Sound c.retry s.interval (initial c s alerts begins store) where
  settings := rfl
  period := rfl
  punctual := trivial
  holds _ ho := nomatch ho
  spaced := .nil

/-! ### Turns -/

theorem turn_tick (now : Instant) (hstage : w.pair.stage = .waiting)
    (hopen : w.collector.gate.isOpen w.pair.key w.pair.ticker.due = true) :
    w.turn .woke now =
      { w with
        since := w.time
        pair := { w.pair with
          ticker := w.pair.ticker.advance w.time
          stage := .fetching w.pair.ticker.due w.pair.ticker.due (Backoff.start w.collector.retry) }
        collector := { w.collector with
          gate := w.collector.gate.setLast w.pair.key w.pair.ticker.due }
        seen := w.seen ++ [.begun w.time] } := by
  simp only [turn, PollPair.next, hstage, PollPair.tick, RateGate.pass_of_isOpen hopen]
  rfl

theorem turn_again (now : Instant) {delay tick : Nat} {backoff : Backoff}
    (hstage : w.pair.stage = .pausing delay tick backoff) :
    w.turn .woke now =
      { w with
        since := w.time
        pair := { w.pair with stage := .fetching tick w.time backoff }
        seen := w.seen ++ [.begun w.time] } := by
  simp only [turn, PollPair.next, hstage]
  rfl

theorem turn_fail_of_allows (e : Fault) (now : Instant) {tick started : Nat} {backoff : Backoff}
    (hstage : w.pair.stage = .fetching tick started backoff)
    (hallowed : Allows backoff.settings backoff.attempts) :
    ∃ delay, e.retryAfter?.getD 0 ≤ delay ∧ w.turn (.fetched (.error e)) now =
      { w with
        since := w.time
        pair := { w.pair with
          stage := .pausing delay tick
            { backoff with
              current := backoff.settings.grow backoff.current
              attempts := backoff.attempts + 1 } }
        collector := { w.collector with stats := w.collector.stats.countFetchFailure }
        seen := w.seen ++ [.failed tick backoff.attempts w.time e] } := by
  obtain ⟨delay, hasked, hwait⟩ := waitAfter?_of_allows
    { w.collector with stats := w.collector.stats.countFetchFailure } e hallowed
  refine ⟨delay, hasked, ?_⟩
  simp only [turn, PollPair.next, hstage, afterFetch, hwait]
  rfl

theorem turn_fail_of_not_allows (e : Fault) (now : Instant) {tick started : Nat}
    {backoff : Backoff} (hstage : w.pair.stage = .fetching tick started backoff)
    (hspent : ¬ Allows backoff.settings backoff.attempts) :
    w.turn (.fetched (.error e)) now =
      { w with
        since := w.time
        pair := { w.pair with stage := .waiting }
        collector := { w.collector with stats := w.collector.stats.countFetchFailure }
        seen := w.seen ++ [.failed tick backoff.attempts w.time e] } := by
  simp only [turn, PollPair.next, hstage, afterFetch, waitAfter?_of_not_allows e hspent]
  rfl

/-! ### Steps of a run -/

/-- A tick that comes when it is due begins a fetch, unless the gate refuses it. -/
theorem Sound.tick (h : Sound retry interval w) (now : Instant) (hready : w.Ready .woke)
    (hstage : w.pair.stage = .waiting) : Sound retry interval (w.turn .woke now) := by
  have hahead := due_le_due_advance w.pair.ticker w.time
  have hover : ∀ {time}, w.Holds time → time ≤ w.time := hready.over (by simp)
  by_cases hopen : w.collector.gate.isOpen w.pair.key w.pair.ticker.due = true
  · rw [turn_tick now hstage hopen]
    exact h.begin hover rfl rfl rfl rfl ⟨h.settings, hahead⟩
  · have hpass := RateGate.pass_of_not_isOpen (Bool.eq_false_of_not_eq_true hopen)
    simp only [Course.turn, PollPair.next, hstage, PollPair.tick, hpass]
    exact h.quiet (List.append_nil _) rfl rfl trivial fun _ hholds => holds_of_le (hover hholds)

/-- A later attempt for the same tick. -/
theorem Sound.again (h : Sound retry interval w) {delay tick : Nat} {backoff : Backoff}
    (now : Instant) (hready : w.Ready .woke)
    (hstage : w.pair.stage = .pausing delay tick backoff) :
    Sound retry interval (w.turn .woke now) := by
  have hpunctual : backoff.settings = retry ∧ tick + w.pair.ticker.period ≤ w.pair.ticker.due := by
    simpa only [Punctual, hstage] using h.punctual
  rw [turn_again now hstage]
  exact h.begin (hready.over (by simp)) rfl rfl rfl rfl hpunctual

/-- A failed fetch is followed by a wait, which is as long as was asked for, or by the ticks. -/
theorem Sound.fail (h : Sound retry interval w) {tick started : Nat} {backoff : Backoff}
    (e : Fault) (now : Instant) (hready : w.Ready (.fetched (.error e)))
    (hstage : w.pair.stage = .fetching tick started backoff) :
    Sound retry interval (w.turn (.fetched (.error e)) now) := by
  obtain ⟨hsettings, hdue⟩ :
      backoff.settings = retry ∧ tick + w.pair.ticker.period ≤ w.pair.ticker.due := by
    simpa only [Punctual, hstage] using h.punctual
  have hover : ∀ {time}, w.Holds time → time ≤ w.time := hready.over (by simp)
  by_cases hallowed : Allows backoff.settings backoff.attempts
  · obtain ⟨delay, hasked, hturn⟩ := turn_fail_of_allows e now hstage hallowed
    rw [hturn]
    apply h.advance (some (.failed tick backoff.attempts w.time e))
    case hpunctual => exact ⟨hsettings, hdue⟩
    case hholds => exact fun _ hholds => holds_of_le (hover hholds)
    case hnew =>
      intro o ho
      obtain rfl := Option.some.inj ho
      rw [hsettings] at hallowed
      simp only [Holds, Sighting.holdsUntil, if_pos hallowed]
      exact (Nat.add_le_add_left hasked _).trans (le_max_right _ _)
    case hbegun => exact fun _ hbegan => nomatch hbegan
    all_goals rfl
  · rw [turn_fail_of_not_allows e now hstage hallowed]
    apply h.advance (some (.failed tick backoff.attempts w.time e))
    case hpunctual => trivial
    case hholds => exact fun _ hholds => holds_of_le (hover hholds)
    case hnew =>
      intro o ho
      obtain rfl := Option.some.inj ho
      rw [hsettings] at hallowed
      rw [h.period] at hdue
      simp only [Holds, Sighting.holdsUntil, if_neg hallowed]
      exact max_le_max le_rfl hdue
    case hbegun => exact fun _ hbegan => nomatch hbegan
    all_goals rfl

theorem Sound.fetch (h : Sound retry interval w) {tick started : Nat} {backoff : Backoff}
    (book : Book) (now : Instant) (hready : w.Ready (.fetched (.ok book)))
    (hstage : w.pair.stage = .fetching tick started backoff) :
    Sound retry interval (w.turn (.fetched (.ok book)) now) := by
  unfold turn
  simp only [PollPair.next, hstage, afterFetch]
  apply h.quiet
  case hseen => exact List.append_nil _
  case hsettings => split <;> rfl
  case hperiod => rfl
  case hpunctual => trivial
  case hholds => exact fun _ hholds => holds_of_le (hready.over (by simp) hholds)

/-- A write that has landed or was given up lets the pair wait for its next tick. -/
theorem Sound.write (h : Sound retry interval w) {book : Book} {moved : Bool} {schedule : Backoff}
    (now : Instant) (hready : w.Ready .ready)
    (hstage : w.pair.stage = .writing book moved schedule) :
    Sound retry interval (w.turn .ready now) := by
  have hperiod : (w.pair.rest moved w.time).ticker.period = w.pair.ticker.period := by
    cases moved <;> rfl
  have hover : ∀ {time}, w.Holds time → time ≤ w.time := hready.over (by simp)
  unfold turn
  simp only [PollPair.next, hstage]
  rcases w.store.attempt _ schedule now with ⟨result, store⟩
  apply h.quiet
  case hseen => exact List.append_nil _
  case hsettings => cases result <;> rfl
  case hperiod =>
    cases result with
    | waiting delay schedule => rfl
    | _ => exact hperiod
  case hpunctual => cases result <;> trivial
  case hholds => exact fun _ hholds => holds_of_le (hover hholds)

theorem Sound.turn (h : Sound retry interval w) (reply : Reply) (now : Instant)
    (hready : w.Ready reply) : Sound retry interval (w.turn reply now) := by
  have hcases := hready
  unfold Ready at hcases
  split at hcases
  case h_1 hstage => exact h.tick now hready hstage
  case h_2 hstage => exact h.again now hready hstage
  case h_3 hstage =>
      unfold Course.turn
      simp only [PollPair.next, hstage]
      exact h.quiet (List.append_nil _) rfl rfl trivial
        fun _ hholds => holds_of_le (hready.over (by simp) hholds)
  case h_4 result hstage =>
      cases result with
      | ok book => exact h.fetch book now hready hstage
      | error e => exact h.fail e now hready hstage
  case h_5 hstage => exact h.write now hready hstage
  case h_8 => exact hcases.elim
  all_goals
    next hstage =>
      unfold Course.turn
      simp only [PollPair.next, hstage]
      exact h.quiet (List.append_nil _) rfl rfl trivial fun _ _ => trivial

theorem Holds.mono {time later : Nat} (h : w.Holds time) (hle : w.time ≤ later) :
    { w with time := later }.Holds time := by
  unfold Holds at h ⊢
  cases hstage : w.pair.stage with
  | waiting =>
      simp only [hstage] at h ⊢
      exact h.trans (max_le_max hle le_rfl)
  | pausing delay tick backoff =>
      simp only [hstage] at h ⊢
      exact h.trans (max_le_max hle le_rfl)
  | stopped => trivial
  | _ =>
      simp only [hstage] at h ⊢
      exact h.trans hle

theorem Reachable.sound (h : Reachable c s w) : Sound c.retry s.interval w := by
  induction h with
  | initial alerts begins store => exact sound_initial c s alerts begins store
  | turn reply now _ hready ih => exact ih.turn reply now hready
  | wait later _ hle ih =>
      exact ih.quiet rfl rfl rfl ih.punctual fun _ hholds => hholds.mono hle
  | elsewhere shared store _ hretry _ _ ih =>
      exact ih.quiet rfl hretry rfl ih.punctual fun _ hholds => hholds
  | @jitter w tick started backoff delay _ hstage _ ih =>
      have hpunctual := ih.punctual
      simp only [Punctual, hstage] at hpunctual
      refine ih.quiet rfl rfl rfl hpunctual fun time hholds => ?_
      simpa only [Holds, hstage] using hholds

/-! ### Attempts that are spent -/

/-- A pair that fetches for its first tick after some retries. -/
structure Trying (c : Settings.Poll) (s : Settings.Schedule) (retries : Nat) (w : Course) :
    Prop where
  reach : Reachable c s w
  stage : ∃ started backoff, w.pair.stage = .fetching 0 started backoff ∧
    backoff.settings = c.retry ∧ backoff.attempts = retries
  due : w.pair.ticker.due = s.interval
  passed : w.collector.gate.last? w.pair.key = some 0
  interval : w.collector.gate.intervalOf w.pair.key = s.interval

theorem exists_trying_zero (hkeys : (c.schedules.map PollCollector.keyOf).Nodup)
    (hs : s ∈ c.schedules) : ∃ w, Trying c s 0 w := by
  have hinterval : (PollCollector.ofSettings c {}).gate.intervalOf (PollCollector.keyOf s) =
      s.interval := by
    apply RateGate.intervalOf_of_mem
    · simpa [PollCollector.ofSettings, Function.comp_def] using hkeys
    · exact List.mem_map.mpr ⟨s, hs, rfl⟩
  have hreach : Reachable c s (initial c s {} 0 {}) := .initial _ _ _
  have hbegun := hreach.turn .woke default (Nat.le_refl 0)
  rw [turn_tick default rfl rfl] at hbegun
  refine ⟨_, hbegun, ⟨0, Backoff.start c.retry, rfl, rfl, rfl⟩, Nat.zero_add _, ?_, ?_⟩
  · rw [RateGate.last?_setLast, if_pos (beq_self_eq_true _)]
    rfl
  · rw [RateGate.intervalOf_setLast]
    exact hinterval

/-- One more failure, of the network. -/
theorem Trying.succ {retries : Nat} (h : Trying c s retries w)
    (hallowed : Allows c.retry retries) : ∃ w, Trying c s (retries + 1) w := by
  obtain ⟨started, backoff, hstage, hsettings, rfl⟩ := h.stage
  rw [← hsettings] at hallowed
  obtain ⟨delay, -, hturn⟩ := turn_fail_of_allows (.network "") default hstage hallowed
  have hfailed := h.reach.turn (.fetched (.error (.network ""))) default (by simp [Ready, hstage])
  rw [hturn] at hfailed
  have hagain := (hfailed.wait (w.time + delay) (Nat.le_add_right _ _)).turn .woke default
    (Nat.le_refl _)
  rw [turn_again default rfl] at hagain
  exact ⟨_, hagain, ⟨_, _, rfl, hsettings, rfl⟩, h.due, h.passed, h.interval⟩

theorem exists_trying (hkeys : (c.schedules.map PollCollector.keyOf).Nodup)
    (hs : s ∈ c.schedules) {retries : Nat} (hle : retries ≤ c.retry.maxAttempts) :
    ∃ w, Trying c s retries w := by
  induction retries with
  | zero => exact exists_trying_zero hkeys hs
  | succ retries ih =>
      obtain ⟨w, htrying⟩ := ih (Nat.le_of_succ_le hle)
      exact htrying.succ (.inr hle)

/-- The last attempt is refused with a wait that reaches beyond the next tick. -/
theorem exists_not_honoured (hkeys : (c.schedules.map PollCollector.keyOf).Nodup)
    (hs : s ∈ c.schedules) (hlimited : c.retry.maxAttempts ≠ 0) :
    ∃ w, Reachable c s w ∧ ¬ Honoured w.seen := by
  obtain ⟨w, htrying⟩ := exists_trying hkeys hs le_rfl
  obtain ⟨started, backoff, hstage, hsettings, hspent⟩ := htrying.stage
  have hnone : ¬ Allows backoff.settings backoff.attempts := by
    rw [hsettings, hspent]
    rintro (hunlimited | hless)
    · exact hlimited hunlimited
    · exact absurd hless (Nat.lt_irrefl _)
  -- so many seconds outlast as many milliseconds, by which the next tick is due
  let e := Fault.rateLimit "" (some (s.interval + 1))
  have hrefused := htrying.reach.turn (.fetched (.error e)) default (by simp [Ready, hstage])
  rw [turn_fail_of_not_allows e default hstage hnone] at hrefused
  have hnext := (hrefused.wait (max w.time w.pair.ticker.due) (le_max_left _ _)).turn .woke default
    (le_max_right _ _)
  have hopen : w.collector.gate.isOpen w.pair.key w.pair.ticker.due = true := by
    rw [RateGate.isOpen_iff, htrying.passed, htrying.interval, htrying.due]
    intro last hlast
    rw [← Option.some.inj hlast, Nat.zero_add]
  rw [turn_tick default rfl (by exact hopen)] at hnext
  refine ⟨_, hnext, fun hhonoured => ?_⟩
  have hlate := hhonoured w.seen 0 backoff.attempts w.time e
    [.begun (max w.time w.pair.ticker.due)] (by simp) _ rfl _ List.mem_cons_self
  rw [htrying.due] at hlate
  omega

end Course

theorem retry_after_honoured_iff {c : Settings.Poll} {s : Settings.Schedule}
    (hkeys : (c.schedules.map PollCollector.keyOf).Nodup) (hs : s ∈ c.schedules) :
    (∀ w, Course.Reachable c s w → Kept c.retry s.interval w.seen) ∧
      ((∀ w, Course.Reachable c s w → Honoured w.seen) ↔ c.retry.maxAttempts = 0) := by
  have hkept : ∀ w, Course.Reachable c s w → Kept c.retry s.interval w.seen :=
    fun w hreach => kept_of_pairwise hreach.sound.spaced
  refine ⟨hkept, ?_, ?_⟩
  · intro hhonoured
    by_contra hlimited
    obtain ⟨w, hreach, hnot⟩ := Course.exists_not_honoured hkeys hs hlimited
    exact hnot (hhonoured w hreach)
  · exact fun hunlimited w hreach => (hkept w hreach).honoured hunlimited

def eachSecond : Settings.Schedule := ⟨"BTC-USD", .best, 1000⟩

/-- One retry for a book that is fetched each second. -/
def curt : Settings.Poll where
  schedules := [eachSecond]
  retry :=
    { initialDelay := 10, maxDelay := 10, multiplier := 2.0, jitter := 0.0, maxAttempts := 1 }

/-- A fetch and its retry are both refused with a wait of two seconds. The first wait is kept; after
the second refusal a tick is overdue, and a fetch begins at once. -/
def refusedTwice : List Sighting :=
  [.begun 0, .failed 0 0 0 (.rateLimit "slow down" (some 2)),
    .begun 2000, .failed 0 1 2000 (.rateLimit "slow down" (some 2)), .begun 2000]

theorem exists_refused_twice : ∃ w, Course.Reachable curt eachSecond w ∧ w.seen = refusedTwice := by
  have hinitial : Course.Reachable curt eachSecond (.initial curt eachSecond {} 0 {}) :=
    .initial _ _ _
  have hbegun := hinitial.turn .woke default (Nat.le_refl 0)
  have hrefused := hbegun.turn (.fetched (.error (.rateLimit "slow down" (some 2)))) default trivial
  have hwait : 0 + max (curt.retry.spread 10) 2000 ≤ 2000 := by
    unfold BackoffSettings.spread
    split <;> decide
  have hagain := (hrefused.wait 2000 (Nat.zero_le _)).turn .woke default hwait
  have hlast := hagain.turn (.fetched (.error (.rateLimit "slow down" (some 2)))) default trivial
  have hdue : 1000 ≤ 2000 := by decide
  exact ⟨_, hlast.turn .woke default hdue, rfl⟩

/-- The second wait is not honoured. -/
theorem overdue_tick_forgets_wait :
    ∃ w, Course.Reachable curt eachSecond w ∧ w.seen = refusedTwice ∧ ¬ Honoured w.seen := by
  obtain ⟨w, hreach, hseen⟩ := exists_refused_twice
  refine ⟨w, hreach, hseen, fun hhonoured => ?_⟩
  have hlate := hhonoured [.begun 0, .failed 0 0 0 (.rateLimit "slow down" (some 2)), .begun 2000]
    0 1 2000 (.rateLimit "slow down" (some 2)) [.begun 2000] hseen 2000 rfl 2000 List.mem_cons_self
  omega

/-- The first one is kept, and that not all are honoured comes of the limit. -/
theorem curt_pair_keeps_wait :
    (curt.schedules.map PollCollector.keyOf).Nodup ∧ eachSecond ∈ curt.schedules ∧
      (∃ w, Course.Reachable curt eachSecond w ∧ w.seen = refusedTwice ∧
        Kept curt.retry eachSecond.interval w.seen) ∧
      ((∀ w, Course.Reachable curt eachSecond w → Honoured w.seen) ↔
        curt.retry.maxAttempts = 0) := by
  have hkeys : (curt.schedules.map PollCollector.keyOf).Nodup := List.nodup_singleton _
  have hs : eachSecond ∈ curt.schedules := List.mem_cons_self
  obtain ⟨w, hreach, hseen⟩ := exists_refused_twice
  obtain ⟨hkept, hiff⟩ := retry_after_honoured_iff hkeys hs
  exact ⟨hkeys, hs, ⟨w, hreach, hseen, hkept w hreach⟩, hiff⟩

end PollPair
end TradingDesk

import TradingDesk.Collector.Poll
import TradingDesk.Proofs.RateGate
import TradingDesk.Proofs.Settings
/-!
# Polls that keep their distance

The pairs of a collector poll side by side, over a store that others write as well. Fetches take as
long as they like, fail and are tried again, and writes fail; a tick is taken when it is due or
later.

A tick that comes next is always an interval after all that its pair did before: after the last
passage of the gate, and after each book that was handed to the store. So the gate refuses no tick.
The time at which a book came counts as well if its attempt began later than its tick was due. An
attempt that is made again at once does not.
-/

namespace TradingDesk
namespace PollPair

/-! ### What is seen of a pair -/

inductive Observation where
  | attempted (time : Nat)
  /-- A book was handed to the store: how often its tick had been tried again, when the tick was
  due, and when the attempt that brought the book began and ended. -/
  | handed (retries tick started arrival : Nat)
deriving DecidableEq, Repr

/-- When a book is fetched for: its tick if the first attempt brought it, else when that attempt
began. -/
def admission (retries tick started : Nat) : Nat := if retries = 0 then tick else started

theorem admission_eq {retries tick started : Nat} (h : retries = 0 → started = tick) :
    admission retries tick started = started := by
  unfold admission
  split
  · next hfirst => exact (h hfirst).symm
  · rfl

namespace Observation

def time : Observation → Nat
  | attempted time => time
  | handed retries tick started _ => admission retries tick started

/-- Whether nothing seen forbids an attempt at a time. -/
def Clears (interval : Nat) : Observation → Nat → Prop
  | attempted _, _ => True
  | handed retries tick started arrival, time =>
    admission retries tick started + interval ≤ time ∧
      (tick < started → arrival + interval ≤ time)

theorem Clears.mono {interval time later : Nat} {o : Observation} (h : o.Clears interval time)
    (hle : time ≤ later) : o.Clears interval later := by
  cases o with
  | attempted _ => trivial
  | handed retries tick started arrival =>
      obtain ⟨hadmission, harrival⟩ := h
      exact ⟨hadmission.trans hle, fun hlate => (harrival hlate).trans hle⟩

theorem clears_concat {interval time : Nat} {seen : List Observation} {new : Observation}
    (h : ∀ o ∈ seen, o.Clears interval time) (hnew : new.Clears interval time) :
    ∀ o ∈ seen ++ [new], o.Clears interval time := by
  intro o ho
  rcases List.mem_append.mp ho with hold | hlast
  · exact h o hold
  · rw [List.mem_singleton.mp hlast]
    exact hnew

end Observation

/-- What is seen of a pair that goes from one stage to another. -/
def observed? (before after : Stage) (time : Nat) : Option Observation :=
  match before, after with
  | .fetching tick started backoff, .writing .. =>
    some (.handed backoff.attempts tick started time)
  | .fetching .., _ => none
  | _, .fetching .. => some (.attempted time)
  | _, _ => none

/-! ### Steps of a pair -/

/-- A tick due at `time` is an interval after all that was. -/
structure Free (g : RateGate PollKey) (key : PollKey) (interval : Nat) (seen : List Observation)
    (time : Nat) : Prop where
  passed : ∀ last, g.last? key = some last → last + interval ≤ time
  seen : ∀ o ∈ seen, o.Clears interval time

/-- What is known of a pair at a time, by its stage. -/
def Timely (g : RateGate PollKey) (seen : List Observation) (time : Nat) (p : PollPair) : Prop :=
  match p.stage with
  | .waiting => Free g p.key p.ticker.period seen p.ticker.due
  | .fetching tick started backoff =>
    g.last? p.key = some tick ∧ (∀ o ∈ seen, o.Clears p.ticker.period tick) ∧
      (backoff.attempts = 0 → started = tick) ∧ tick ≤ started ∧ started ≤ time ∧
      tick + p.ticker.period ≤ p.ticker.due
  | .pausing _ tick backoff =>
    g.last? p.key = some tick ∧ (∀ o ∈ seen, o.Clears p.ticker.period tick) ∧
      0 < backoff.attempts ∧ tick ≤ time ∧ tick + p.ticker.period ≤ p.ticker.due
  | .writing _ moved _ | .retrying _ _ moved _ =>
    -- the tick that comes next if the write ends now
    Free g p.key p.ticker.period seen (p.rest moved time).ticker.due
  | .stopped => True

/-- How a step leaves a pair and what the pairs share. -/
structure Stays (p : PollPair) (c : PollCollector) (seen : List Observation) (time : Nat)
    (r : PollPair × PollCollector × Store) : Prop where
  key : r.1.key = p.key
  period : r.1.ticker.period = p.ticker.period
  intervals : ∀ k, r.2.1.gate.intervalOf k = c.gate.intervalOf k
  others : ∀ k, k ≠ p.key → r.2.1.gate.last? k = c.gate.last? k
  throttled : r.2.1.stats.throttled = c.stats.throttled
  timely : r.1.Timely r.2.1.gate (seen ++ (observed? p.stage r.1.stage time).toList) time
  clears : ∀ new ∈ observed? p.stage r.1.stage time, ∀ old ∈ seen,
    old.Clears p.ticker.period new.time

variable {p : PollPair} {c : PollCollector} {s : Store} {seen : List Observation} {time : Nat}

theorem Free.mono {g : RateGate PollKey} {key : PollKey} {interval later : Nat}
    (h : Free g key interval seen time) (hle : time ≤ later) :
    Free g key interval seen later where
  passed last hlast := (h.passed last hlast).trans hle
  seen o ho := (h.seen o ho).mono hle

/-- A step that nothing is seen of leaves the gate alone. -/
theorem Stays.unseen {r : PollPair × PollCollector × Store}
    (hseen : observed? p.stage r.1.stage time = none) (hkey : r.1.key = p.key)
    (hperiod : r.1.ticker.period = p.ticker.period) (hgate : r.2.1.gate = c.gate)
    (hthrottled : r.2.1.stats.throttled = c.stats.throttled)
    (htimely : r.1.Timely c.gate seen time) : Stays p c seen time r where
  key := hkey
  period := hperiod
  intervals _ := by rw [hgate]
  others _ _ := by rw [hgate]
  throttled := hthrottled
  timely := by
    rw [hseen, hgate]
    simpa using htimely
  clears new hnew := by
    rw [hseen] at hnew
    contradiction

theorem Timely.wait {g : RateGate PollKey} {later : Nat} (h : p.Timely g seen time)
    (hle : time ≤ later) : p.Timely g seen later := by
  have hrest : ∀ moved, (p.rest moved time).ticker.due ≤ (p.rest moved later).ticker.due := by
    intro moved
    cases moved with
    | true => exact Nat.add_le_add_right hle _
    | false => exact Nat.le_refl _
  unfold Timely at h ⊢
  cases hstage : p.stage with
  | waiting => simpa only [hstage] using h
  | stopped => trivial
  | fetching tick started backoff =>
      simp only [hstage] at h ⊢
      obtain ⟨hpassed, hseen, hfirst, hstarted, htime, hdue⟩ := h
      exact ⟨hpassed, hseen, hfirst, hstarted, htime.trans hle, hdue⟩
  | pausing delay tick backoff =>
      simp only [hstage] at h ⊢
      obtain ⟨hpassed, hseen, hlater, htick, hdue⟩ := h
      exact ⟨hpassed, hseen, hlater, htick.trans hle, hdue⟩
  | writing book moved schedule =>
      simp only [hstage] at h ⊢
      exact h.mono (hrest moved)
  | retrying delay book moved schedule =>
      simp only [hstage] at h ⊢
      exact h.mono (hrest moved)

/-- Of the gate only the last passage of its own key concerns a pair. -/
theorem Timely.congr {g g' : RateGate PollKey} (h : p.Timely g seen time)
    (hlast : g'.last? p.key = g.last? p.key) : p.Timely g' seen time := by
  unfold Timely at h ⊢
  split at h
  case h_1 => exact ⟨fun last hpassed => h.passed last (hlast ▸ hpassed), h.seen⟩
  case h_2 => rwa [hlast]
  case h_3 => rwa [hlast]
  case h_4 => exact ⟨fun last hpassed => h.passed last (hlast ▸ hpassed), h.seen⟩
  case h_5 => exact ⟨fun last hpassed => h.passed last (hlast ▸ hpassed), h.seen⟩
  case h_6 => trivial

theorem due_le_due_advance (t : Ticker) (time : Nat) :
    t.due + t.period ≤ (t.advance time).due := by
  simp only [Ticker.advance]
  split <;> omega

theorem Free.concat {g : RateGate PollKey} {key : PollKey} {interval : Nat} {new : Observation}
    (h : Free g key interval seen time) (hnew : new.Clears interval time) :
    Free g key interval (seen ++ [new]) time where
  passed := h.passed
  seen := Observation.clears_concat h.seen hnew

theorem Timely.of_waiting {g : RateGate PollKey} (h : p.Timely g seen time)
    (hstage : p.stage = .waiting) : Free g p.key p.ticker.period seen p.ticker.due := by
  simpa only [Timely, hstage] using h

/-- A tick passes the gate, and a fetch begins with it. -/
theorem Timely.next_woke (h : p.Timely c.gate seen time) (s : Store) (now : Instant)
    (hstage : p.stage = .waiting) (hinterval : c.gate.intervalOf p.key = p.ticker.period) :
    p.next .woke c s time now =
      ({ p with
          stage := .fetching p.ticker.due p.ticker.due (Backoff.start c.retry)
          ticker := p.ticker.advance time },
        { c with gate := c.gate.setLast p.key p.ticker.due }, s) := by
  have hopen : c.gate.isOpen p.key p.ticker.due = true := by
    rw [RateGate.isOpen_iff, hinterval]
    exact (h.of_waiting hstage).passed
  simp only [PollPair.next, hstage, PollPair.tick, RateGate.pass_of_isOpen hopen]

/-- The tick that comes after one that was due is an interval later at least. -/
theorem Timely.tick (h : p.Timely c.gate seen time) (s : Store) (now : Instant)
    (hstage : p.stage = .waiting) (hinterval : c.gate.intervalOf p.key = p.ticker.period)
    (hdue : p.ticker.due ≤ time) : Stays p c seen time (p.next .woke c s time now) := by
  have hfree := h.of_waiting hstage
  have hpassed : (c.gate.setLast p.key p.ticker.due).last? p.key = some p.ticker.due := by
    rw [RateGate.last?_setLast, if_pos (beq_self_eq_true p.key)]
  rw [h.next_woke s now hstage hinterval]
  constructor
  case key => rfl
  case period => rfl
  case intervals => exact fun k => c.gate.intervalOf_setLast _ _ _
  case others =>
    intro k hk
    rw [RateGate.last?_setLast, if_neg (by simpa using hk)]
  case throttled => rfl
  case timely =>
    have hahead := due_le_due_advance p.ticker time
    rw [hstage]
    exact ⟨hpassed, Observation.clears_concat hfree.seen trivial, fun _ => rfl, Nat.le_refl _,
      hdue, hahead⟩
  case clears =>
    rw [hstage]
    intro new hnew old hold
    rw [← Option.some.inj hnew]
    exact (hfree.seen old hold).mono hdue

/-- What is known while the fetch of a tick goes on. -/
theorem Timely.of_fetching {tick started : Nat} {backoff : Backoff}
    (h : p.Timely c.gate seen time) (hstage : p.stage = .fetching tick started backoff) :
    c.gate.last? p.key = some tick ∧ (∀ o ∈ seen, o.Clears p.ticker.period tick) ∧
      (backoff.attempts = 0 → started = tick) ∧ tick ≤ started ∧ started ≤ time ∧
      Free c.gate p.key p.ticker.period seen p.ticker.due := by
  obtain ⟨hpassed, hseen, hfirst, hstarted, htime, hdue⟩ : c.gate.last? p.key = some tick ∧
      (∀ o ∈ seen, o.Clears p.ticker.period tick) ∧ (backoff.attempts = 0 → started = tick) ∧
      tick ≤ started ∧ started ≤ time ∧ tick + p.ticker.period ≤ p.ticker.due := by
    simpa only [Timely, hstage] using h
  refine ⟨hpassed, hseen, hfirst, hstarted, htime, ?_, fun o ho => (hseen o ho).mono (by omega)⟩
  intro last hlast
  rw [hpassed, Option.some.injEq] at hlast
  omega

theorem attempts_of_waitAfter? {e : Fault} {backoff : Backoff} {wait : Nat × Backoff}
    (h : waitAfter? c e backoff = some wait) : wait.2.attempts = backoff.attempts + 1 := by
  have hnext : ∀ wait, backoff.next? = some wait → wait.2.attempts = backoff.attempts + 1 := by
    intro wait hwait
    unfold Backoff.next? at hwait
    split at hwait
    · exact Option.some.inj hwait ▸ rfl
    · contradiction
  unfold waitAfter? at h
  split at h
  · obtain ⟨scheduled, hscheduled, rfl⟩ := Option.map_eq_some_iff.mp h
    exact hnext scheduled hscheduled
  · exact hnext wait h

/-- A fetch that failed for good leaves the next tick where it was. -/
theorem Timely.failFetch {tick started : Nat} {backoff : Backoff}
    (h : p.Timely c.gate seen time) (e : Fault) (s : Store) (now : Instant)
    (hstage : p.stage = .fetching tick started backoff) :
    Stays p c seen time (p.next (.fetched (.error e)) c s time now) := by
  obtain ⟨hpassed, hseen, -, hstarted, htime, hfree⟩ := h.of_fetching hstage
  simp only [PollPair.next, hstage, afterFetch]
  cases hwait : waitAfter? { c with stats := c.stats.countFetchFailure } e backoff with
  | none =>
      apply Stays.unseen (by rw [hstage]; rfl)
      case htimely => exact hfree
      all_goals rfl
  | some wait =>
      have hlater : 0 < wait.2.attempts := by
        rw [attempts_of_waitAfter? hwait]
        exact Nat.succ_pos _
      apply Stays.unseen (by rw [hstage]; rfl)
      case htimely =>
        exact ⟨hpassed, hseen, hlater, hstarted.trans htime, hfree.passed tick hpassed⟩
      all_goals rfl

/-- A book moves the ticks if its attempt began later than it was due. -/
theorem Timely.endFetch {tick started : Nat} {backoff : Backoff}
    (h : p.Timely c.gate seen time) (book : Book) (s : Store) (now : Instant)
    (hstage : p.stage = .fetching tick started backoff) :
    Stays p c seen time (p.next (.fetched (.ok book)) c s time now) := by
  obtain ⟨hpassed, hseen, hfirst, hstarted, htime, hfree⟩ := h.of_fetching hstage
  have hdue : tick + p.ticker.period ≤ p.ticker.due := hfree.passed tick hpassed
  have hadmission : admission backoff.attempts tick started = started := admission_eq hfirst
  have hobserved : ∀ moved schedule, observed? p.stage (.writing book moved schedule) time =
      some (.handed backoff.attempts tick started time) := by
    intro moved schedule
    rw [hstage]
    rfl
  by_cases hmoved : tick < started
  · have hgate : (c.gate.record p.key started).last? p.key = some started := by
      rw [RateGate.last?_record, if_pos (beq_self_eq_true p.key), hpassed, Option.getD_some,
        Nat.max_eq_right hstarted]
    simp only [PollPair.next, hstage, afterFetch, hmoved, decide_true, if_true]
    constructor
    case key => rfl
    case period => rfl
    case intervals => exact fun k => c.gate.intervalOf_setLast _ _ _
    case others =>
      intro k hk
      rw [RateGate.last?_record, if_neg (by simpa using hk)]
    case throttled => rfl
    case timely =>
      rw [hobserved]
      apply Free.concat
      · constructor
        case passed =>
          intro last hlast
          obtain rfl : started = last := Option.some.inj (hgate.symm.trans hlast)
          exact Nat.add_le_add_right htime _
        case seen =>
          intro o ho
          apply (hseen o ho).mono
          simp only [rest, if_true, Ticker.restart]
          omega
      · rw [Observation.Clears, hadmission]
        exact ⟨Nat.add_le_add_right htime _, fun _ => Nat.le_refl _⟩
    case clears =>
      rw [hobserved]
      intro new hnew old hold
      rw [← Option.some.inj hnew, Observation.time, hadmission]
      exact (hseen old hold).mono hstarted
  · obtain rfl : started = tick := by omega
    simp only [PollPair.next, hstage, afterFetch, hmoved, decide_false, if_false,
      Bool.false_eq_true]
    constructor
    case timely =>
      rw [hobserved]
      apply hfree.concat
      rw [Observation.Clears, hadmission]
      exact ⟨hdue, fun hlate => absurd hlate hmoved⟩
    case clears =>
      rw [hobserved]
      intro new hnew old hold
      rw [← Option.some.inj hnew, Observation.time, hadmission]
      exact hseen old hold
    all_goals intros; rfl

/-- A write that has landed or was given up lets the pair wait for its next tick. -/
theorem Timely.write {book : Book} {moved : Bool} {schedule : Backoff}
    (h : p.Timely c.gate seen time) (s : Store) (now : Instant)
    (hstage : p.stage = .writing book moved schedule) :
    Stays p c seen time (p.next .ready c s time now) := by
  have hfree : Free c.gate p.key p.ticker.period seen (p.rest moved time).ticker.due := by
    simpa only [Timely, hstage] using h
  have hperiod : (p.rest moved time).ticker.period = p.ticker.period := by
    cases moved <;> rfl
  have hrest : (p.rest moved time).Timely c.gate seen time := by
    rw [← hperiod] at hfree
    exact hfree
  simp only [PollPair.next, hstage]
  rcases s.attempt _ schedule now with ⟨result, s'⟩
  cases result with
  | done sequence => exact .unseen (by rw [hstage]; rfl) rfl hperiod rfl rfl hrest
  | waiting delay schedule =>
      apply Stays.unseen (by rw [hstage]; rfl)
      case htimely => exact hfree
      all_goals rfl
  | givenUp e => exact .unseen (by rw [hstage]; rfl) rfl hperiod rfl rfl hrest

/-- A later attempt for the same tick. -/
theorem Timely.retry {delay tick : Nat} {backoff : Backoff} (h : p.Timely c.gate seen time)
    (s : Store) (now : Instant) (hstage : p.stage = .pausing delay tick backoff) :
    Stays p c seen time (p.next .woke c s time now) := by
  obtain ⟨hpassed, hseen, hlater, htick, hdue⟩ : c.gate.last? p.key = some tick ∧
      (∀ o ∈ seen, o.Clears p.ticker.period tick) ∧ 0 < backoff.attempts ∧ tick ≤ time ∧
      tick + p.ticker.period ≤ p.ticker.due := by
    simpa only [Timely, hstage] using h
  simp only [PollPair.next, hstage]
  constructor
  case timely =>
    rw [hstage]
    exact ⟨hpassed, Observation.clears_concat hseen trivial,
      fun hfirst => absurd hfirst hlater.ne', htick, Nat.le_refl _, hdue⟩
  case clears =>
    rw [hstage]
    intro new hnew old hold
    rw [← Option.some.inj hnew]
    exact (hseen old hold).mono htick
  all_goals intros; rfl

/-- A step of a pair, whatever the reply; a tick is taken when it is due or later. -/
theorem Timely.next (h : p.Timely c.gate seen time) (reply : Reply) (s : Store) (now : Instant)
    (hinterval : c.gate.intervalOf p.key = p.ticker.period)
    (hdue : p.stage = .waiting → reply = .woke → p.ticker.due ≤ time) :
    Stays p c seen time (p.next reply c s time now) := by
  have hstay : Stays p c seen time (p, c, s) := by
    refine .unseen ?_ rfl rfl rfl rfl h
    cases p.stage <;> rfl
  have hstop : Stays p c seen time ({ p with stage := .stopped }, c, s) := by
    refine .unseen ?_ rfl rfl rfl rfl trivial
    cases p.stage <;> rfl
  cases hstage : p.stage with
  | waiting =>
      cases reply with
      | woke => exact h.tick s now hstage hinterval (hdue hstage rfl)
      | shutdown => simpa only [PollPair.next, hstage] using hstop
      | _ => simpa only [PollPair.next, hstage] using hstay
  | fetching tick started backoff =>
      cases reply with
      | fetched result =>
          cases result with
          | ok book => exact h.endFetch book s now hstage
          | error e => exact h.failFetch e s now hstage
      | _ => simpa only [PollPair.next, hstage] using hstay
  | pausing delay tick backoff =>
      cases reply with
      | woke => exact h.retry s now hstage
      | shutdown => simpa only [PollPair.next, hstage] using hstop
      | _ => simpa only [PollPair.next, hstage] using hstay
  | writing book moved schedule =>
      cases reply with
      | ready => exact h.write s now hstage
      | _ => simpa only [PollPair.next, hstage] using hstay
  | retrying delay book moved schedule =>
      cases reply with
      | woke =>
          simp only [PollPair.next, hstage]
          refine .unseen (by rw [hstage]; rfl) rfl rfl rfl rfl ?_
          simp only [Timely, hstage] at h
          exact h
      | _ => simpa only [PollPair.next, hstage] using hstay
  | stopped => simpa only [PollPair.next, hstage] using hstay

end PollPair

namespace PollCollector

open PollPair (Observation observed?)

/-! ### Runs -/

/-- Pairs that poll side by side, what they share, and what was seen of each. -/
structure World where
  time : Nat
  collector : PollCollector
  pairs : List PollPair
  store : Store
  transcript : List (PollKey × Observation)

namespace World

/-- A collector that was started, each of whose pairs begins at a time of its own. -/
def initial (c : Settings.Poll) (alerts : Alerts) (begins : PollKey → Nat) (s : Store) : World :=
  let (collector, pairs) := (ofSettings c alerts).start
  { time := 0
    collector
    pairs := pairs.map fun p => { p with ticker := { p.ticker with due := begins p.key } }
    store := s
    transcript := [] }

/-- A step of the pair that stands at a place, which leaves it as `r` says. -/
def put (w : World) (i : Nat) (p : PollPair) (r : PollPair × PollCollector × Store) : World :=
  { w with
    collector := r.2.1
    pairs := w.pairs.set i r.1
    store := r.2.2
    transcript := w.transcript ++
      (observed? p.stage r.1.stage w.time).toList.map fun o => (p.key, o) }

/-- No tick comes before it is due; anything may become of the store at any time. -/
inductive Reachable (c : Settings.Poll) (alerts : Alerts) : World → Prop
  | initial (begins : PollKey → Nat) (s : Store) :
      Reachable c alerts (initial c alerts begins s)
  | turn {w : World} {i : Nat} {p : PollPair} (reply : PollPair.Reply) (now : Instant)
      (hreach : Reachable c alerts w) (hpair : w.pairs[i]? = some p)
      (hdue : p.stage = .waiting → reply = .woke → p.ticker.due ≤ w.time) :
      Reachable c alerts (w.put i p (p.next reply w.collector w.store w.time now))
  | wait {w : World} (later : Nat) (hreach : Reachable c alerts w) (hle : w.time ≤ later) :
      Reachable c alerts { w with time := later }
  | elsewhere {w : World} (s : Store) (hreach : Reachable c alerts w) :
      Reachable c alerts { w with store := s }

/-- What was seen of a pair. -/
def seen (w : World) (key : PollKey) : List Observation :=
  (w.transcript.filter (·.1 = key)).map (·.2)

theorem seen_put (w : World) (i : Nat) (p : PollPair) (r : PollPair × PollCollector × Store)
    (key : PollKey) :
    (w.put i p r).seen key =
      w.seen key ++
        if p.key = key then (observed? p.stage r.1.stage w.time).toList else [] := by
  unfold seen put
  rw [List.filter_append, List.map_append, List.filter_map]
  split
  · next heq => simp [heq, Function.comp_def]
  · next hne => simp [hne, Function.comp_def]

structure Sound (c : Settings.Poll) (w : World) : Prop where
  schedules : w.pairs.map (fun p => (p.key, p.ticker.period)) =
    c.schedules.map fun s => (keyOf s, s.interval)
  intervals : ∀ p ∈ w.pairs, w.collector.gate.intervalOf p.key = p.ticker.period
  timely : ∀ p ∈ w.pairs, p.Timely w.collector.gate (w.seen p.key) w.time
  spaced : ∀ p ∈ w.pairs, (w.seen p.key).Pairwise fun a b => a.Clears p.ticker.period b.time
  throttled : w.collector.stats.throttled = 0

variable {c : Settings.Poll} {alerts : Alerts} {w : World}

/-- Of pairs with keys of their own only one is changed. -/
theorem mem_set_pairs {pairs : List PollPair} (hkeys : (pairs.map (·.key)).Nodup) {i : Nat}
    {p p' q : PollPair} (hpair : pairs[i]? = some p) (hq : q ∈ pairs.set i p') :
    q = p' ∨ q ∈ pairs ∧ q.key ≠ p.key := by
  obtain ⟨j, hj⟩ := List.mem_iff_getElem?.mp hq
  rw [List.getElem?_set] at hj
  by_cases hij : i = j
  · left
    rw [if_pos hij] at hj
    split at hj
    · exact (Option.some.inj hj).symm
    · contradiction
  · right
    rw [if_neg hij] at hj
    refine ⟨List.mem_of_getElem? hj, fun heq => hij ?_⟩
    have hi : (pairs.map (·.key))[i]? = some p.key := by rw [List.getElem?_map, hpair]; rfl
    have hj' : (pairs.map (·.key))[j]? = some p.key := by rw [List.getElem?_map, hj, ← heq]; rfl
    have hlt := (List.getElem?_eq_some_iff.mp hi).1
    exact List.getElem?_inj hlt hkeys |>.mp (hi.trans hj'.symm)

theorem sound_initial (hkeys : (c.schedules.map keyOf).Nodup) (alerts : Alerts)
    (begins : PollKey → Nat) (s : Store) : Sound c (initial c alerts begins s) := by
  have hpairs : ∀ p ∈ (initial c alerts begins s).pairs, ∃ schedule ∈ c.schedules,
      p = { key := keyOf schedule
            ticker := { period := schedule.interval, due := begins (keyOf schedule) } } := by
    simp [initial, start, PollPair.ofCollector, ofSettings, eq_comm]
  constructor
  case schedules =>
    simp [initial, start, PollPair.ofCollector, ofSettings]
  case intervals =>
    intro p hp
    obtain ⟨schedule, hschedule, rfl⟩ := hpairs p hp
    apply RateGate.intervalOf_of_mem
    · simpa [initial, start, ofSettings, Function.comp_def] using hkeys
    · exact List.mem_map.mpr ⟨schedule, hschedule, rfl⟩
  case timely =>
    intro p hp
    obtain ⟨schedule, hschedule, rfl⟩ := hpairs p hp
    exact ⟨fun last hlast => by contradiction, fun o ho => by contradiction⟩
  case spaced => exact fun _ _ => List.Pairwise.nil
  case throttled => rfl

theorem Sound.keys_eq (h : Sound c w) : w.pairs.map (·.key) = c.schedules.map keyOf := by
  have hsame := congrArg (List.map (·.1)) h.schedules
  simpa only [List.map_map, Function.comp_def] using hsame

theorem Sound.keys_nodup (h : Sound c w) (hkeys : (c.schedules.map keyOf).Nodup) :
    (w.pairs.map (·.key)).Nodup := by
  rwa [h.keys_eq]

/-- A step of one pair leaves what is known of all of them. -/
theorem Sound.put (h : Sound c w) (hkeys : (c.schedules.map keyOf).Nodup) {i : Nat}
    {p : PollPair} {r : PollPair × PollCollector × Store} (hpair : w.pairs[i]? = some p)
    (hstays : p.Stays w.collector (w.seen p.key) w.time r) : Sound c (w.put i p r) := by
  have hmem := List.mem_of_getElem? hpair
  have hcases : ∀ q ∈ (w.put i p r).pairs, q = r.1 ∨ q ∈ w.pairs ∧ q.key ≠ p.key :=
    fun q hq => mem_set_pairs (h.keys_nodup hkeys) hpair hq
  constructor
  case schedules =>
    obtain ⟨hlt, rfl⟩ := List.getElem?_eq_some_iff.mp hpair
    rw [← h.schedules, World.put, List.map_set, hstays.key, hstays.period, ← List.map_set,
      List.set_getElem_self hlt]
  case intervals =>
    intro q hq
    rcases hcases q hq with rfl | ⟨hold, -⟩
    · rw [hstays.period, hstays.key]
      exact (hstays.intervals p.key).trans (h.intervals p hmem)
    · exact (hstays.intervals q.key).trans (h.intervals q hold)
  case timely =>
    intro q hq
    rw [seen_put]
    rcases hcases q hq with rfl | ⟨hold, hne⟩
    · rw [hstays.key, if_pos rfl]
      exact hstays.timely
    · rw [if_neg hne.symm, List.append_nil]
      exact (h.timely q hold).congr (hstays.others q.key hne)
  case spaced =>
    intro q hq
    rw [seen_put]
    rcases hcases q hq with rfl | ⟨hold, hne⟩
    · rw [hstays.key, if_pos rfl, hstays.period]
      apply List.pairwise_append.mpr
      refine ⟨h.spaced p hmem, ?_, ?_⟩
      · cases observed? p.stage r.1.stage w.time <;> simp
      · intro old hold new hnew
        exact hstays.clears new (Option.mem_toList.mp hnew) old hold
    · rw [if_neg hne.symm, List.append_nil]
      exact h.spaced q hold
  case throttled => exact hstays.throttled.trans h.throttled

theorem Reachable.sound (hreach : Reachable c alerts w) (hkeys : (c.schedules.map keyOf).Nodup) :
    Sound c w := by
  induction hreach with
  | initial begins s => exact sound_initial hkeys alerts begins s
  | @turn w i p reply now _ hpair hdue ih =>
      have hmem := List.mem_of_getElem? hpair
      exact ih.put hkeys hpair
        ((ih.timely p hmem).next reply w.store now (ih.intervals p hmem) hdue)
  | wait later _ hle ih => exact { ih with timely := fun p hp => (ih.timely p hp).wait hle }
  | elsewhere s _ ih => exact { ih with }

end World

/-! ### The distance -/

/-- When the books were due or fetched that were handed to the store. -/
def admissions (seen : List Observation) : List Nat :=
  seen.filterMap fun
    | .handed retries tick started _ => some (PollPair.admission retries tick started)
    | .attempted _ => none

/-- After a book a pair waits for an interval: from when it was fetched for on, and from when it
came on if its attempt began later than its tick. -/
def Rests (interval : Nat) (seen : List Observation) : Prop :=
  ∀ before retries tick started arrival after,
    seen = before ++ .handed retries tick started arrival :: after →
      ∀ time, .attempted time ∈ after →
        PollPair.admission retries tick started + interval ≤ time ∧
          (tick < started → arrival + interval ≤ time)

/-- After each book that a later attempt brought a pair waits for an interval. -/
def AwaitsRetries (interval : Nat) (seen : List Observation) : Prop :=
  ∀ before retries tick started arrival after,
    seen = before ++ .handed retries tick started arrival :: after → 0 < retries →
      ∀ time, .attempted time ∈ after → arrival + interval ≤ time

theorem spaced_admissions {interval : Nat} {seen : List Observation}
    (h : seen.Pairwise fun a b => a.Clears interval b.time) :
    Spaced interval (admissions seen) := by
  apply List.Pairwise.filterMap _ _ h
  intro a b hclears x hx y hy
  cases a with
  | attempted _ => contradiction
  | handed retries tick started arrival =>
      cases b with
      | attempted _ => contradiction
      | handed retries' tick' started' arrival' =>
          rw [← Option.some.inj hx, ← Option.some.inj hy]
          exact hclears.1

theorem rests_of_pairwise {interval : Nat} {seen : List Observation}
    (h : seen.Pairwise fun a b => a.Clears interval b.time) : Rests interval seen := by
  intro before retries tick started arrival after hseen time hlater
  rw [hseen] at h
  have hafter := (List.pairwise_append.mp h).2.1
  exact List.rel_of_pairwise_cons hafter hlater

theorem polls_keep_their_distance {c : Settings} {alerts : Alerts} {w : World}
    (hvalid : c.validate = .ok ()) (hreach : World.Reachable c.poll alerts w) :
    w.collector.stats.throttled = 0 ∧ ∀ s ∈ c.poll.schedules,
      Spaced s.interval (admissions (w.seen (keyOf s))) ∧
      Rests s.interval (w.seen (keyOf s)) := by
  have hsound := hreach.sound (Settings.paced_of_validate hvalid).schedules
  refine ⟨hsound.throttled, fun s hs => ?_⟩
  have hpair : (keyOf s, s.interval) ∈ w.pairs.map fun p => (p.key, p.ticker.period) := by
    rw [hsound.schedules]
    exact List.mem_map.mpr ⟨s, hs, rfl⟩
  obtain ⟨p, hp, heq⟩ := List.mem_map.mp hpair
  obtain ⟨hkey, hperiod⟩ := Prod.mk.inj heq
  have hspaced := hsound.spaced p hp
  rw [hkey, hperiod] at hspaced
  exact ⟨spaced_admissions hspaced, rests_of_pairwise hspaced⟩

/-- One book a second. -/
def polled : Settings :=
  { Settings.plain with poll := { schedules := [⟨"BTC-USD", .best, 1000⟩] } }

def emptyBook : Book :=
  { asset := "BTC-USD", level := .best, bids := [], asks := [], exchangeSequence := 1
    exchangeTime := default, receivedTime := default }

/-- A fetch fails and is tried again 250 ms later; its book comes after 50 ms more, and the next
tick a second after that. -/
theorem retried_polls_keep_their_distance :
    polled.validate = .ok () ∧ ∃ w, World.Reachable polled.poll {} w ∧
      w.seen ⟨"BTC-USD", .best⟩ =
        [.attempted 0, .attempted 250, .handed 1 0 250 300, .attempted 1300] ∧
      w.collector.stats.throttled = 0 ∧ ∀ s ∈ polled.poll.schedules,
        Spaced s.interval (admissions (w.seen (keyOf s))) ∧
        Rests s.interval (w.seen (keyOf s)) := by
  have hvalid : polled.validate = .ok () := Settings.validate_eq_ok_iff.mpr (by decide +kernel)
  have hbegun : World.Reachable polled.poll {} (.initial polled.poll {} (fun _ => 0) {}) :=
    .initial _ _
  have hticked := hbegun.turn (i := 0) .woke default rfl fun _ _ => Nat.le_refl 0
  have hfailed := hticked.turn (i := 0) (.fetched (.error (.network "down"))) default rfl
    fun _ h => by contradiction
  have htried := (hfailed.wait 250 (Nat.zero_le _)).turn (i := 0) .woke default rfl
    fun h _ => nomatch h
  have hfetched := (htried.wait 300 (by decide)).turn (i := 0) (.fetched (.ok emptyBook)) default
    rfl fun _ h => by contradiction
  have hstored := hfetched.turn (i := 0) .ready default rfl fun _ h => by contradiction
  have hnext := (hstored.wait 1300 (by decide)).turn (i := 0) .woke default rfl
    fun _ _ => Nat.le_refl _
  exact ⟨hvalid, _, hnext, by decide +kernel, polls_keep_their_distance hvalid hnext⟩

/-- The same, but a fetch that fails is tried again at once. -/
def impatient : Settings :=
  { polled with
    poll := { polled.poll with retry := { initialDelay := 0, maxDelay := 0, jitter := 0.0 } } }

/-- A fetch fails and is tried again at once. Its book comes after half a second, and the next fetch
begins half a second after that. -/
theorem immediate_retry_is_not_awaited :
    impatient.validate = .ok () ∧ ∃ w, World.Reachable impatient.poll {} w ∧
      w.seen ⟨"BTC-USD", .best⟩ =
        [.attempted 0, .attempted 0, .handed 1 0 0 500, .attempted 1000] ∧
      ¬ AwaitsRetries 1000 (w.seen ⟨"BTC-USD", .best⟩) := by
  have hvalid : impatient.validate = .ok () := Settings.validate_eq_ok_iff.mpr (by decide +kernel)
  have hbegun : World.Reachable impatient.poll {} (.initial impatient.poll {} (fun _ => 0) {}) :=
    .initial _ _
  have hticked := hbegun.turn (i := 0) .woke default rfl fun _ _ => Nat.le_refl 0
  have hfailed := hticked.turn (i := 0) (.fetched (.error (.network "down"))) default rfl
    fun _ h => by contradiction
  have htried := hfailed.turn (i := 0) .woke default rfl fun h _ => nomatch h
  have hfetched := (htried.wait 500 (Nat.zero_le _)).turn (i := 0) (.fetched (.ok emptyBook))
    default rfl fun _ h => by contradiction
  have hstored := hfetched.turn (i := 0) .ready default rfl fun _ h => by contradiction
  have hnext := (hstored.wait 1000 (by decide)).turn (i := 0) .woke default rfl
    fun _ _ => Nat.le_refl _
  refine ⟨hvalid, _, hnext, by decide +kernel, fun hawaits => ?_⟩
  have hlate := hawaits [.attempted 0, .attempted 0] 1 0 0 500 [.attempted 1000]
    (by decide +kernel) Nat.one_pos 1000 List.mem_cons_self
  omega

end PollCollector
end TradingDesk

import TradingDesk.Collector.Stream
import TradingDesk.Proofs.RateGate
import TradingDesk.Proofs.Settings
import TradingDesk.Proofs.Store
import TradingDesk.Trading.Executor
/-!
# Settings that can be run

What a desk builds from its settings runs if there are no quotes or books without distance, no polls
of a store without a pause or with room for no document, and no order that rests and is asked for
again and again at one time, or that is given more time than can be measured. The waits of schedules
after calls that failed are not looked at; they may be of no time.

The rules that settings are held to see to the quotes and the books. They leave the rest open.
-/

namespace TradingDesk

/-! ### Quotes and books -/

theorem StreamCollector.intervalOf_pos {c : Settings.Stream} (hinterval : 0 < c.interval)
    (hoverrides : ∀ o ∈ c.overrides, 0 < o.2) (alerts : Alerts) (asset : String) :
    0 < (ofSettings c alerts).gate.intervalOf asset := by
  unfold RateGate.intervalOf
  cases hlookup : (ofSettings c alerts).gate.overrides.reverse.lookup asset with
  | none => exact hinterval
  | some interval =>
      obtain ⟨before, after, hsplit, -⟩ := List.lookup_eq_some_iff.mp hlookup
      have hmem : (asset, interval) ∈ (ofSettings c alerts).gate.overrides := by
        rw [← List.mem_reverse, hsplit]
        simp
      obtain ⟨o, ho, heq⟩ := List.mem_map.mp hmem
      rw [Option.getD_some, ← (Prod.mk.inj heq).2]
      exact hoverrides o ho

theorem PollPair.period_pos {c : Settings.Poll} (hbooks : ∀ s ∈ c.schedules, 0 < s.interval)
    (alerts : Alerts) : ∀ p ∈ ofCollector (.ofSettings c alerts), 0 < p.ticker.period := by
  intro p hp
  obtain ⟨s, hs, rfl⟩ := List.mem_map.mp hp
  exact hbooks s hs

/-! ### Watchers -/

/-- The lookup of documents in a store that stays as it is. -/
def Store.lookup (s : Store) (collection : String) : Watcher.Lookup Unit := fun _ after limit =>
  (.ok (s.after collection after limit), ())

namespace Watcher

/-- A subscriber whom a document waits for, and who has room for it, is told of one by each poll. -/
def Delivers (batch : Nat) : Prop :=
  ∀ (w : Watcher) (s : Store) (queues : Queues), w.batch = batch → s.Numbered →
    (w.subscribers.map (·.queue)).Nodup → ∀ x ∈ w.subscribers, x.cursor < s.head w.collection →
      (Queues.get queues x.queue).closed = false → 0 < free (Queues.get queues x.queue) →
        ∃ y ∈ (w.poll (s.lookup w.collection) queues ()).1.subscribers,
          y.queue = x.queue ∧ x.cursor < y.cursor

theorem delivers_of_pos {batch : Nat} (hbatch : 0 < batch) : Delivers batch := by
  intro w s queues heq hnumbered hnodup x hx hbehind hopen hroom
  have hlookup : ∀ (source : Unit) after, ∃ answer source',
      s.lookup w.collection source after w.batch = (.ok answer, source') ∧
      FirstAnswers (s.documents w.collection) after w.batch answer := fun _ after =>
    ⟨_, (), rfl, hnumbered.firstAnswers_after w.collection after w.batch⟩
  have hrun : 0 < run (s.documents w.collection) x.cursor := by
    apply le_run
    intro i hi
    rw [hnumbered.sequences, List.mem_range'_1]
    omega
  have hadvance : 0 < advance (s.documents w.collection) w.batch queues x := by
    unfold advance
    rw [hopen, if_neg Bool.false_ne_true]
    omega
  have hkept : isLost (s.documents w.collection) w.batch queues x = false := by
    rw [isLost, hopen, Bool.false_and]
  refine ⟨{ x with cursor := x.cursor + advance (s.documents w.collection) w.batch queues x },
    ?_, rfl, Nat.lt_add_of_pos_right hadvance⟩
  rw [poll, (pollEach_eq hlookup hnodup queues () 0).2, advanced]
  exact List.mem_map.mpr ⟨x, List.mem_filter.mpr ⟨hx, by rw [hkept]; rfl⟩, rfl⟩

/-- A watcher that takes no documents at once never tells of any. -/
theorem not_delivers_zero : ¬ Delivers 0 := by
  intro hdelivers
  let s : Store := (({} : Store).append "c" "d" .null default).2
  obtain ⟨y, hy, -, hlt⟩ := hdelivers ⟨"c", 0, 0, [⟨0, 0⟩]⟩ s [.ofSize 1] rfl
    (Store.numbered_empty.append _ _ _ _) (List.nodup_singleton _) ⟨0, 0⟩ List.mem_cons_self
    (by decide) rfl (by decide)
  obtain rfl : y = ⟨0, 0⟩ := List.mem_singleton.mp hy
  contradiction

theorem delivers_iff {batch : Nat} : Delivers batch ↔ 0 < batch := by
  refine ⟨fun h => Nat.pos_of_ne_zero ?_, delivers_of_pos⟩
  rintro rfl
  exact not_delivers_zero h

end Watcher

/-! ### Executors -/

namespace Executor

/-- That an order rests can be told from its having rested too long. -/
def Measures (settings : Settings.Execution) : Prop :=
  ∀ (σ : Type) (x : Executor σ), x.setup.settings = settings → ∀ s id m,
    (x.settle s (.ok (.resting id)) m).stage ≠ .overflown

/-- A resting order, or one that was to be cancelled, is asked for again after some time only. An
order whose status could not be told is asked for by a schedule instead. -/
def Dwells (settings : Settings.Execution) : Prop :=
  ∀ (σ : Type) (x : Executor σ), x.setup.settings = settings → ∀ s m delay s',
    (∀ id, (x.settle s (.ok (.resting id)) m).stage = .pausing delay s' → 0 < delay) ∧
    (∀ result, x.stage = .cancelling s →
      (x.resume (.cancelled result) m).stage = .pausing delay s' → 0 < delay)

variable {σ : Type} (x : Executor σ) (s : Settling) (id : String) (m : Moment)

/-- Where an executor may stand that has heard of an order that rests. -/
def Stage.FollowsResting (settings : Settings.Execution) : Stage → Prop
  | .overflown => longestSpan ≤ 2 * settings.orderTimeout
  | .pausing delay _ => delay = settings.statusInterval
  | _ => True

theorem followsResting_fail (reason : String) (waiting : Option ChangeEvent) :
    (x.fail reason waiting m).stage.FollowsResting x.setup.settings := by
  by_cases hfail : x.state.phase.mayBecome .failed = true
  · simp only [fail, enter, hfail, if_true, Stage.FollowsResting]
  · simp only [fail, enter, hfail, Bool.false_eq_true, if_false, Stage.FollowsResting]

theorem followsResting_settle :
    (x.settle s (.ok (.resting id)) m).stage.FollowsResting x.setup.settings := by
  simp only [settle]
  split
  · next hlong => exact hlong
  · split
    · exact x.followsResting_fail m _ s.waiting
    · split
      · exact trivial
      · exact rfl

theorem settle_resting_of_long (hlong : longestSpan ≤ 2 * x.setup.settings.orderTimeout) :
    (x.settle s (.ok (.resting id)) m).stage = .overflown := by
  simp only [settle, if_pos hlong]

/-- An executor with these settings that waits for the answer to a cancellation. -/
def cancellingFor (settings : Settings.Execution) (s : Settling) : Executor Unit :=
  { setup := ⟨"main", "BTC-USD", settings⟩
    strategy := ⟨"none", fun _ _ _ => none⟩
    memory := ()
    state := Portfolio.new "main" default
    stage := .cancelling s
    announced := [] }

def someSettling : Settling :=
  { order := .ofTrade "main" "BTC-USD" "c-1" ⟨.buy, .one, none, ""⟩ default
    started := 0
    reconcile := .start {}
    cancelRequested := true
    waiting := none }

theorem measures_iff {settings : Settings.Execution} :
    Measures settings ↔ 2 * settings.orderTimeout < longestSpan := by
  constructor
  · intro h
    apply Nat.lt_of_not_le
    intro hlong
    let x := cancellingFor settings someSettling
    exact h Unit x rfl someSettling "x" default (x.settle_resting_of_long _ _ _ hlong)
  · intro hshort σ x hsettings s id m hbroken
    have hfollows := x.followsResting_settle s id m
    rw [hbroken, hsettings] at hfollows
    exact Nat.not_le_of_lt hshort hfollows

theorem dwells_iff {settings : Settings.Execution} :
    Dwells settings ↔ 0 < settings.statusInterval := by
  constructor
  · intro h
    have hpauses := h Unit (cancellingFor settings someSettling) rfl someSettling default
      settings.statusInterval someSettling
    exact hpauses.2 (.ok ()) rfl rfl
  · intro hpositive σ x hsettings s m delay s'
    constructor
    · intro id hpause
      have hfollows := x.followsResting_settle s id m
      rw [hpause, hsettings] at hfollows
      obtain rfl : delay = settings.statusInterval := hfollows
      exact hpositive
    · intro result hstage hpause
      simp only [resume, hstage] at hpause
      rw [← (Stage.pausing.inj hpause).1, hsettings]
      exact hpositive

end Executor

/-! ### The desk -/

namespace Settings

structure Runnable (c : Settings) : Prop where
  quotes : ∀ alerts asset, 0 < (StreamCollector.ofSettings c.stream alerts).gate.intervalOf asset
  books : ∀ alerts, ∀ p ∈ PollPair.ofCollector (.ofSettings c.poll alerts), 0 < p.ticker.period
  watches : 0 < c.watch.interval
  delivers : Watcher.Delivers c.watch.batch
  measures : Executor.Measures c.execution
  dwells : Executor.Dwells c.execution

theorem runnable_iff {c : Settings} (hvalid : c.validate = .ok ()) :
    c.Runnable ↔ 0 < c.watch.interval ∧ 0 < c.watch.batch ∧
      0 < c.execution.statusInterval ∧ 2 * c.execution.orderTimeout < Executor.longestSpan := by
  have hpaced := paced_of_validate hvalid
  constructor
  · intro h
    exact ⟨h.watches, Watcher.delivers_iff.mp h.delivers, Executor.dwells_iff.mp h.dwells,
      Executor.measures_iff.mp h.measures⟩
  · rintro ⟨hinterval, hbatch, hstatus, htimeout⟩
    constructor
    case quotes => exact StreamCollector.intervalOf_pos hpaced.quotes hpaced.overrides
    case books => exact PollPair.period_pos hpaced.books
    case watches => exact hinterval
    case delivers => exact Watcher.delivers_iff.mpr hbatch
    case measures => exact Executor.measures_iff.mpr htimeout
    case dwells => exact Executor.dwells_iff.mpr hstatus

theorem plain_runnable : plain.validate = .ok () ∧ plain.Runnable := by
  have hvalid : plain.validate = .ok () := validate_eq_ok_iff.mpr (by decide +kernel)
  exact ⟨hvalid, (runnable_iff hvalid).mpr (by decide)⟩

/-- Settings that keep all rules, and with which a watcher has no pause or no room, an order is
asked for all the time, or its time cannot be measured. -/
def degenerate : List Settings :=
  [{ plain with watch := { interval := 0 } }, { plain with watch := { batch := 0 } },
    { plain with execution := { statusInterval := 0 } },
    { plain with execution := { orderTimeout := pow2 63 } }]

theorem degenerate_accepted : degenerate.Forall fun c => c.validate = .ok () ∧ ¬ c.Runnable := by
  have hflaws : ∀ c ∈ degenerate, c.flaw? = none := by decide +kernel
  apply List.forall_iff_forall_mem.mpr
  intro c hc
  refine ⟨validate_eq_ok_iff.mpr (hflaws c hc), fun hrunnable => ?_⟩
  have hbatch := Watcher.delivers_iff.mp hrunnable.delivers
  have hstatus := Executor.dwells_iff.mp hrunnable.dwells
  have htimeout := Executor.measures_iff.mp hrunnable.measures
  have hwatches := hrunnable.watches
  fin_cases hc
  · exact absurd hwatches (by decide)
  · exact absurd hbatch (by decide)
  · exact absurd hstatus (by decide)
  · exact absurd htimeout (by decide)

end Settings

end TradingDesk

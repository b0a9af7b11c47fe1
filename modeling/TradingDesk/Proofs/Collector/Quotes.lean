import TradingDesk.Collector.Stream
import TradingDesk.Proofs.Collector.Pairing
import TradingDesk.Proofs.RateGate
/-!
# Quotes that a stream collector keeps

Frames come at any times, whatever they say, and the store may be written by others and fail between
them. Of each asset the collector hands the quotes to the store that are far enough apart, and no
other pair is dropped; a quote joins the latest halves since the last pair, also when that one was
dropped. The counters account for every pair.
-/

namespace TradingDesk

/-- The interval of an asset: that of the name it goes by among the exceptions, if there is one. -/
def Settings.Stream.intervalBy (c : Settings.Stream) (same : String → String → Bool)
    (name : String) : Nat :=
  ((c.overrides.find? fun o => same o.1 name).map (·.2)).getD c.interval

def Text.sameLetters (s t : String) : Bool := Text.upper s == Text.upper t

def Stats.pairs (s : Stats) : Nat := s.persisted + s.throttled + s.storeFailures

namespace StreamCollector

/-! ### Sightings -/

/-- What a frame with a half of a collected asset came to: the quote that it completed, if it did,
and whether that was let pass. -/
structure Sighting where
  half : QuoteHalf
  time : Nat
  pair? : Option Quote
  passed : Bool

/-- The quote that was handed to the store. -/
def Sighting.handed? (x : Sighting) : Option Quote := if x.passed then x.pair? else none

theorem Sighting.handed?_eq_some {x : Sighting} {q : Quote} :
    x.handed? = some q ↔ x.passed = true ∧ x.pair? = some q := by
  unfold handed?
  split <;> simp_all

/-- The half of a collected asset that a frame tells of. -/
def told? (c : StreamCollector) (text : String) : Option QuoteHalf :=
  match Feed.Message.ofText text with
  | .ok (.half half) => if c.assets.contains half.asset then some half else none
  | _ => none

def sighted (c : StreamCollector) (half : QuoteHalf) (time : Nat) (received : Instant) : Sighting :=
  let pair? := (c.pairing.push half received).1
  { half, time, pair?, passed := pair?.any fun q => c.gate.isOpen q.asset time }

/-- The halves of an asset since its last pair. -/
def openHalves (asset : String) (xs : List Sighting) : List QuoteHalf :=
  xs.foldl (fun halves x =>
    if x.half.asset = asset then (if x.pair?.isSome then [] else halves ++ [x.half])
    else halves) []

/-- When quotes of an asset were handed to the store. -/
def admissions (asset : String) (xs : List Sighting) : List Nat :=
  (xs.filter fun x => x.half.asset = asset ∧ x.handed?.isSome).map (·.time)

def pairs (xs : List Sighting) : List Sighting := xs.filter (·.pair?.isSome)

theorem openHalves_concat (asset : String) (xs : List Sighting) (x : Sighting) :
    openHalves asset (xs ++ [x]) =
      if x.half.asset = asset then
        (if x.pair?.isSome then [] else openHalves asset xs ++ [x.half])
      else openHalves asset xs := by
  unfold openHalves
  rw [List.foldl_append]
  rfl

theorem asset_of_mem_openHalves {asset : String} {xs : List Sighting} :
    ∀ g ∈ openHalves asset xs, g.asset = asset := by
  induction xs using List.reverseRecOn with
  | nil => simp [openHalves]
  | append_singleton xs x ih =>
      rw [openHalves_concat]
      split
      · next hasset =>
        split
        · simp
        · simpa [or_imp, forall_and, hasset] using ih
      · exact ih

theorem admissions_concat (asset : String) (xs : List Sighting) (x : Sighting) :
    admissions asset (xs ++ [x]) =
      if x.half.asset = asset ∧ x.handed?.isSome then admissions asset xs ++ [x.time]
      else admissions asset xs := by
  unfold admissions
  rw [List.filter_append]
  by_cases hadmitted : x.half.asset = asset ∧ x.handed?.isSome
  · simp [hadmitted]
  · rw [if_neg hadmitted]
    simp [hadmitted]

/-! ### Frames -/

def quoteWrite (q : Quote) : Write :=
  .append (Collection.quotes q.asset) q.documentId q.toJson.settled

/-- The store after a quote was handed to it, if one was, and the sequence that it was given. -/
def written (retry : BackoffSettings) (s : Store) (clock : Nat → Instant) :
    Option Quote → Store × Option Nat
  | none => (s, none)
  | some q =>
    let (answer, _, s) := s.persist (quoteWrite q) retry clock
    (s, answer.toOption)

/-- All that a frame with a half does. -/
structure Takes (c : StreamCollector) (s : Store) (clock : Nat → Instant) (x : Sighting)
    (r : Handled) : Prop where
  assets : r.collector.assets = c.assets
  storeRetry : r.collector.storeRetry = c.storeRetry
  pairing : r.collector.pairing = (c.pairing.push x.half (clock 0)).2
  gate : r.collector.gate = x.handed?.elim c.gate fun q => c.gate.setLast q.asset x.time
  written : (r.store, r.sequence) = written c.storeRetry s clock x.handed?
  counted : r.collector.stats.pairs = c.stats.pairs + (pairs [x]).length

variable {c : StreamCollector} {s : Store} {text : String} {half : QuoteHalf} {time : Nat}
  {clock : Nat → Instant}

theorem persist_eq (c : StreamCollector) (s : Store) (q : Quote) (clock : Nat → Instant) :
    ∃ stats alerts, (c.persist s q clock).collector = { c with stats, alerts } ∧
      stats.pairs = c.stats.pairs + 1 ∧
      ((c.persist s q clock).store, (c.persist s q clock).sequence) =
        written c.storeRetry s clock (some q) := by
  simp only [persist, written, quoteWrite]
  rcases s.persist _ c.storeRetry clock with ⟨answer, elapsed, s'⟩
  cases answer with
  | ok sequence =>
      refine ⟨c.stats.countPersisted, c.alerts, rfl, ?_, rfl⟩
      simp only [Stats.pairs, Stats.countPersisted]
      omega
  | error e =>
      refine ⟨c.stats.countStoreFailure.2, _, rfl, ?_, rfl⟩
      simp only [Stats.pairs, Stats.countStoreFailure]
      omega

theorem handleFrame_of_not_told (s : Store) (time : Nat) (clock : Nat → Instant)
    (htold : c.told? text = none) :
    ∃ stats, c.handleFrame s text time clock = { collector := { c with stats }, store := s } ∧
      stats.pairs = c.stats.pairs := by
  unfold told? at htold
  unfold handleFrame
  cases hmessage : Feed.Message.ofText text with
  | error e => exact ⟨c.stats.countMalformed, rfl, rfl⟩
  | ok message =>
      simp only [hmessage] at htold
      cases message with
      | half half =>
          have hforeign : c.assets.contains half.asset = false := by
            simpa using htold
          refine ⟨c.stats, ?_, rfl⟩
          simp only [takeHalf, hforeign, Bool.not_false, if_true]
      | _ => exact ⟨c.stats, rfl, rfl⟩

theorem handleFrame_of_told (s : Store) (time : Nat) (clock : Nat → Instant)
    (htold : c.told? text = some half) :
    c.handleFrame s text time clock = c.takeHalf s half time clock ∧
      c.assets.contains half.asset = true := by
  unfold told? at htold
  unfold handleFrame
  cases hmessage : Feed.Message.ofText text with
  | error e => simp [hmessage] at htold
  | ok message =>
      simp only [hmessage] at htold
      cases message with
      | half other =>
          obtain ⟨hcontains, rfl⟩ : c.assets.contains other.asset = true ∧ other = half := by
            simpa using htold
          exact ⟨rfl, hcontains⟩
      | _ => simp at htold

theorem takes_sighted (s : Store) (time : Nat) (clock : Nat → Instant)
    (htold : c.told? text = some half) :
    c.Takes s clock (c.sighted half time (clock 0)) (c.handleFrame s text time clock) := by
  obtain ⟨hframe, hcontains⟩ := handleFrame_of_told s time clock htold
  rw [hframe]
  unfold takeHalf sighted
  rw [hcontains, Bool.not_true, if_neg Bool.false_ne_true]
  rcases hpush : c.pairing.push half (clock 0) with ⟨pair?, pairing⟩
  cases pair? with
  | none =>
      constructor
      case pairing => simp only [hpush]
      all_goals rfl
  | some q =>
      cases hopen : c.gate.isOpen q.asset time with
      | true =>
          obtain ⟨stats, alerts, hcollector, hstats, hwritten⟩ := persist_eq
            { c with pairing, gate := c.gate.setLast q.asset time } s q clock
          simp only [RateGate.pass_of_isOpen hopen]
          constructor
          case pairing => simp only [hcollector, hpush]
          case gate => simp only [hcollector, Option.any_some, hopen, Sighting.handed?]; rfl
          case written => simp only [hwritten, Option.any_some, hopen, Sighting.handed?]; rfl
          case counted => simp only [hcollector, hstats]; rfl
          all_goals rw [hcollector]
      | false =>
          simp only [RateGate.pass_of_not_isOpen hopen]
          constructor
          case pairing => simp only [hpush]
          case gate => simp only [Option.any_some, hopen, Sighting.handed?]; rfl
          case written => simp only [Option.any_some, hopen, Sighting.handed?]; rfl
          case counted =>
            simp only [Stats.pairs, Stats.countThrottled, pairs, List.filter_singleton,
              Option.isSome_some, cond_true, List.length_singleton]
            omega
          all_goals rfl

theorem Takes.intervalOf {x : Sighting} {r : Handled} (h : c.Takes s clock x r)
    (asset : String) : r.collector.gate.intervalOf asset = c.gate.intervalOf asset := by
  rw [h.gate]
  cases x.handed? with
  | none => rfl
  | some q => exact c.gate.intervalOf_setLast _ _ _

/-! ### Sequences of frames -/

/-- A collector with its store, and what it has seen. -/
structure World where
  collector : StreamCollector
  store : Store
  sightings : List Sighting := []

namespace World

def frame (w : World) (text : String) (time : Nat) (clock : Nat → Instant) : World :=
  let r := w.collector.handleFrame w.store text time clock
  { collector := r.collector
    store := r.store
    sightings := w.sightings ++
      ((w.collector.told? text).map fun half => w.collector.sighted half time (clock 0)).toList }

/-- The worlds of a collector. Between frames anything may become of the store, and any of the
writes to come may be about to fail. -/
inductive Reachable (c : Settings.Stream) (alerts : Alerts) : World → Prop
  | initial (s : Store) : Reachable c alerts { collector := ofSettings c alerts, store := s }
  | frame {w : World} (text : String) (time : Nat) (clock : Nat → Instant) :
      Reachable c alerts w → Reachable c alerts (w.frame text time clock)
  | elsewhere {w : World} (s : Store) :
      Reachable c alerts w → Reachable c alerts { w with store := s }

end World

/-- What a half comes to is settled by what its asset's halves came to before it. -/
structure Follows (interval : Nat) (before : List Sighting) (x : Sighting) : Prop where
  completes : x.pair?.isSome ↔ ∃ g ∈ openHalves x.half.asset before, g.side ≠ x.half.side
  joins : ∀ q, x.pair? = some q → q.asset = x.half.asset ∧ ∃ bid ask, q.Joins bid ask ∧
    latestOf .buy (openHalves x.half.asset before ++ [x.half]) = some bid ∧
    latestOf .sell (openHalves x.half.asset before ++ [x.half]) = some ask
  passes : x.pair?.isSome → (x.passed = true ↔
    ∀ last, (admissions x.half.asset before).getLast? = some last → last + interval ≤ x.time)

namespace World

structure Sound (w : World) : Prop where
  held : ∀ asset, (w.collector.pairing.held asset).StandsFor (openHalves asset w.sightings)
  last : ∀ asset, w.collector.gate.last? asset = (admissions asset w.sightings).getLast?
  spaced : ∀ asset, Spaced (w.collector.gate.intervalOf asset) (admissions asset w.sightings)
  follows : ∀ before x, before ++ [x] <+: w.sightings →
    Follows (w.collector.gate.intervalOf x.half.asset) before x
  counted : w.collector.stats.pairs = (pairs w.sightings).length

theorem Sound.pair_sighted {w : World} (h : w.Sound) {half : QuoteHalf} (time : Nat)
    (received : Instant) {q : Quote}
    (hpair : (w.collector.sighted half time received).pair? = some q) :
    q.asset = half.asset ∧ ∃ bid ask, q.Joins bid ask ∧
      latestOf .buy (openHalves half.asset w.sightings ++ [half]) = some bid ∧
      latestOf .sell (openHalves half.asset w.sightings ++ [half]) = some ask := by
  have hadd : ((w.collector.pairing.held half.asset).add half received).1 = some q := hpair
  have hside := ((h.held half.asset).completes_iff half received).mp (by rw [hadd]; rfl)
  obtain ⟨q', bid, ask, hadd', hjoins, hbid, hask⟩ := (h.held half.asset).complete received hside
  rw [hadd', Option.some.injEq] at hadd
  subst q'
  have hasset : bid.asset = half.asset := by
    have hmem := (List.mem_filter.mp (List.mem_of_getLast? hbid)).1
    rcases List.mem_append.mp hmem with hopen | hlast
    · exact asset_of_mem_openHalves bid hopen
    · rw [List.mem_singleton.mp hlast]
  exact ⟨hjoins.asset.trans hasset, bid, ask, hjoins, hbid, hask⟩

theorem Sound.asset_of_handed {w : World} (h : w.Sound) {half : QuoteHalf} {time : Nat}
    {received : Instant} {q : Quote}
    (hhanded : (w.collector.sighted half time received).handed? = some q) :
    q.asset = half.asset :=
  (h.pair_sighted time received (Sighting.handed?_eq_some.mp hhanded).2).1

theorem Sound.follows_sighted {w : World} (h : w.Sound) (half : QuoteHalf) (time : Nat)
    (received : Instant) :
    Follows (w.collector.gate.intervalOf half.asset) w.sightings
      (w.collector.sighted half time received) where
  completes := (h.held half.asset).completes_iff half received
  joins q hpair := h.pair_sighted time received hpair
  passes hsome := by
    obtain ⟨q, hpair⟩ := Option.isSome_iff_exists.mp hsome
    have hpush : (w.collector.pairing.push half received).1 = some q := hpair
    have hasset := (h.pair_sighted time received hpair).1
    have hpassed : (w.collector.sighted half time received).passed =
        w.collector.gate.isOpen half.asset time := by
      rw [sighted, hpush, Option.any_some, hasset]
    rw [hpassed, RateGate.isOpen_iff, h.last]
    rfl

theorem Sound.take {w : World} (h : w.Sound) {half : QuoteHalf} {time : Nat}
    {clock : Nat → Instant} {r : Handled}
    (htakes : w.collector.Takes w.store clock (w.collector.sighted half time (clock 0)) r) :
    Sound { collector := r.collector, store := r.store,
            sightings := w.sightings ++ [w.collector.sighted half time (clock 0)] } := by
  have hfollows := h.follows_sighted half time (clock 0)
  set x := w.collector.sighted half time (clock 0)
  have hhalf : x.half = half := rfl
  -- the gate is moved by what is handed on, and that is a quote of this asset
  have hinterval := htakes.intervalOf
  have hlast : ∀ asset, r.collector.gate.last? asset =
      (admissions asset (w.sightings ++ [x])).getLast? := by
    intro asset
    rw [htakes.gate, admissions_concat]
    cases hhanded : x.handed? with
    | none => simpa using h.last asset
    | some q =>
        have hasset := h.asset_of_handed hhanded
        rw [Option.elim_some, RateGate.last?_setLast, hasset, h.last]
        by_cases heq : half.asset = asset
        · rw [if_pos (by simpa using heq.symm), if_pos ⟨heq, rfl⟩, List.getLast?_concat]
        · rw [if_neg (by simpa using Ne.symm heq), if_neg (fun hboth => heq hboth.1)]
  constructor
  case held =>
    intro asset
    rw [htakes.pairing, Pairing.push_eq, Pairing.held_setHeld, openHalves_concat, hhalf]
    by_cases heq : asset = half.asset
    · subst heq
      rw [if_pos rfl, if_pos rfl]
      exact (h.held half.asset).add half (clock 0)
    · rw [if_neg heq, if_neg (Ne.symm heq)]
      exact h.held asset
  case last => exact hlast
  case spaced =>
    intro asset
    rw [hinterval, admissions_concat]
    split
    · next hadmitted =>
      obtain ⟨rfl, hhanded⟩ := hadmitted
      obtain ⟨q, hq⟩ := Option.isSome_iff_exists.mp hhanded
      obtain ⟨hpassed, hpair⟩ := Sighting.handed?_eq_some.mp hq
      apply (h.spaced half.asset).concat
      exact (hfollows.passes (by rw [hpair]; rfl)).mp hpassed
    · exact h.spaced asset
  case follows =>
    intro before y hprefix
    rw [hinterval]
    rcases List.prefix_concat_iff.mp hprefix with heq | hearlier
    · obtain ⟨rfl, rfl⟩ := List.append_singleton_inj.mp heq
      exact hfollows
    · exact h.follows before y hearlier
  case counted =>
    rw [htakes.counted, h.counted, pairs, pairs, pairs, List.filter_append, List.length_append]

theorem Sound.frame {w : World} (h : w.Sound) (text : String) (time : Nat)
    (clock : Nat → Instant) : (w.frame text time clock).Sound := by
  unfold World.frame
  cases htold : w.collector.told? text with
  | none =>
      obtain ⟨stats, hframe, hstats⟩ := handleFrame_of_not_told w.store time clock htold
      rw [hframe]
      simpa using { h with counted := hstats.trans h.counted }
  | some half => exact h.take (takes_sighted w.store time clock htold)

theorem Reachable.sound {c : Settings.Stream} {alerts : Alerts} {w : World}
    (h : Reachable c alerts w) : w.Sound := by
  induction h with
  | initial s =>
      -- nothing was seen yet, and the gate is new
      constructor
      case held => exact fun _ => rfl
      case last => exact fun _ => rfl
      case spaced => exact fun _ => List.Pairwise.nil
      case follows =>
        intro before x hprefix
        have hnil := List.prefix_nil.mp hprefix
        simp at hnil
      case counted => rfl
  | frame text time clock _ ih => exact ih.frame text time clock
  | elsewhere s _ ih => exact { ih with }

end World

/-! ### What is kept -/

theorem intervalOf_ofSettings (c : Settings.Stream) (alerts : Alerts)
    (hkeys : (c.overrides.map fun o => Text.upper o.1).Nodup) (name : String) :
    (ofSettings c alerts).gate.intervalOf (Text.upper name) =
      c.intervalBy Text.sameLetters name := by
  have hnodup : ((ofSettings c alerts).gate.overrides.map (·.1)).Nodup := by
    simpa [ofSettings, Function.comp_def] using hkeys
  unfold Settings.Stream.intervalBy
  cases hfind : c.overrides.find? fun o => Text.sameLetters o.1 name with
  | none =>
      apply RateGate.intervalOf_of_not_mem
      intro o ho heq
      obtain ⟨given, hgiven, rfl⟩ := List.mem_map.mp ho
      have hother := List.find?_eq_none.mp hfind given hgiven
      exact hother (beq_iff_eq.mpr heq)
  | some o =>
      have hname : Text.upper o.1 = Text.upper name := by
        simpa [Text.sameLetters] using List.find?_some hfind
      apply RateGate.intervalOf_of_mem hnodup
      apply List.mem_map.mpr
      exact ⟨o, List.mem_of_find?_eq_some hfind, Prod.ext hname rfl⟩

namespace World

/-- No frame changes the settings of a collector. -/
theorem Reachable.settings {c : Settings.Stream} {alerts : Alerts} {w : World}
    (h : Reachable c alerts w) :
    w.collector.assets = c.assets.map Text.upper ∧ w.collector.storeRetry = c.storeRetry ∧
      ∀ asset, w.collector.gate.intervalOf asset = (ofSettings c alerts).gate.intervalOf asset := by
  induction h with
  | initial s => exact ⟨rfl, rfl, fun _ => rfl⟩
  | @frame w text time clock _ ih =>
      cases htold : w.collector.told? text with
      | none =>
          obtain ⟨stats, hframe, -⟩ := handleFrame_of_not_told w.store time clock htold
          simpa only [World.frame, hframe] using ih
      | some half =>
          have htakes := takes_sighted w.store time clock htold
          refine ⟨htakes.assets.trans ih.1, htakes.storeRetry.trans ih.2.1, fun asset => ?_⟩
          exact (htakes.intervalOf asset).trans (ih.2.2 asset)
  | elsewhere s _ ih => exact ih

/-- The quote that a frame hands to the store. -/
def handed? (w : World) (text : String) (time : Nat) (received : Instant) : Option Quote :=
  (w.collector.told? text).bind fun half => (w.collector.sighted half time received).handed?

/-- The collector keeps to its settings, where the names of assets are matched by `same`. -/
structure Keeps (c : Settings.Stream) (same : String → String → Bool) (w : World) : Prop where
  assets : w.collector.assets = c.assets.map Text.upper
  spaced : ∀ name ∈ c.assets,
    Spaced (c.intervalBy same name) (admissions (Text.upper name) w.sightings)
  follows : ∀ name ∈ c.assets, ∀ before x, before ++ [x] <+: w.sightings →
    x.half.asset = Text.upper name → Follows (c.intervalBy same name) before x
  counted : w.collector.stats.pairs = (pairs w.sightings).length
  written : ∀ text time clock,
    let r := w.collector.handleFrame w.store text time clock
    (r.store, r.sequence) = written c.storeRetry w.store clock (w.handed? text time (clock 0))

theorem quotes_are_spaced_and_fresh {c : Settings.Stream} {alerts : Alerts} {w : World}
    (hreach : Reachable c alerts w) (hkeys : (c.overrides.map fun o => Text.upper o.1).Nodup) :
    w.Keeps c Text.sameLetters := by
  obtain ⟨hassets, hretry, hintervals⟩ := hreach.settings
  have hsound := hreach.sound
  have hinterval : ∀ name, w.collector.gate.intervalOf (Text.upper name) =
      c.intervalBy Text.sameLetters name := fun name =>
    (hintervals _).trans (intervalOf_ofSettings c alerts hkeys name)
  constructor
  case assets => exact hassets
  case spaced =>
    intro name _
    rw [← hinterval]
    exact hsound.spaced (Text.upper name)
  case follows =>
    intro name _ before x hprefix hasset
    rw [← hinterval, ← hasset]
    exact hsound.follows before x hprefix
  case counted => exact hsound.counted
  case written =>
    intro text time clock
    cases htold : w.collector.told? text with
    | none =>
        obtain ⟨stats, hframe, -⟩ := handleFrame_of_not_told w.store time clock htold
        simp only [hframe, handed?, htold]
        rfl
    | some half =>
        have htakes := takes_sighted w.store time clock htold
        simp only [handed?, htold, Option.bind_some, ← hretry]
        exact htakes.written

/-! ### An asset that is no ASCII text -/

def accented : Settings.Stream := { assets := ["É"], overrides := [("é", 500)] }

def accentedTicker (side : Side) : String :=
  "\x7b\"type\": \"ticker\", \"product_id\": \"É\", \"price\": \"1\", \"last_size\": \"1\", " ++
    "\"side\": \"" ++ side.name ++ "\", \"time\": \"2024-01-01T00:00:00Z\"\x7d"

def framePair (w : World) (time : Nat) : World :=
  (w.frame (accentedTicker .buy) time fun _ => default).frame (accentedTicker .sell) time
    fun _ => default

theorem Reachable.framePair {c : Settings.Stream} {alerts : Alerts} {w : World}
    (h : Reachable c alerts w) (time : Nat) : Reachable c alerts (w.framePair time) :=
  (h.frame _ time _).frame _ time _

/-- Two pairs, half a second apart. -/
def accentedWorld : World :=
  (({ collector := ofSettings accented {}, store := {} } : World).framePair 0).framePair 500

theorem accentedWorld_reachable : Reachable accented {} accentedWorld :=
  ((Reachable.initial {}).framePair 0).framePair 500

theorem accentedWorld_admissions :
    admissions (Text.upper "É") accentedWorld.sightings = [0, 500] := by decide +kernel

theorem accented_quotes_are_spaced :
    (accented.overrides.map fun o => Text.upper o.1).Nodup ∧
      Reachable accented {} accentedWorld ∧
      admissions (Text.upper "É") accentedWorld.sightings = [0, 500] ∧
      accentedWorld.Keeps accented Text.sameLetters := by
  have hkeys : (accented.overrides.map fun o => Text.upper o.1).Nodup := List.nodup_singleton _
  exact ⟨hkeys, accentedWorld_reachable, accentedWorld_admissions,
    quotes_are_spaced_and_fresh accentedWorld_reachable hkeys⟩

/-- Such an asset takes an exception that differs from it in the case of a letter. -/
theorem accented_asset_takes_override :
    (accented.overrides.map fun o => Text.upper o.1).Nodup ∧
      Reachable accented {} accentedWorld ∧ ¬ accentedWorld.Keeps accented Text.sameAscii := by
  refine ⟨List.nodup_singleton _, accentedWorld_reachable, fun hkeeps => ?_⟩
  have hinterval : accented.intervalBy Text.sameAscii "É" = 1000 := by decide +kernel
  have hspaced := hkeeps.spaced "É" List.mem_cons_self
  rw [accentedWorld_admissions, hinterval] at hspaced
  have hapart := List.rel_of_pairwise_cons hspaced (List.mem_cons_self (a := 500))
  omega

end World

end StreamCollector
end TradingDesk

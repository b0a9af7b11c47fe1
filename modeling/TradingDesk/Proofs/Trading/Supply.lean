import TradingDesk.Proofs.Collector.Fetches
import TradingDesk.Proofs.Collector.Persisted
import TradingDesk.Proofs.Market.Collections
import TradingDesk.Proofs.Settings
import TradingDesk.Trading.Executor
/-!
# Market data where it is looked for

The collectors name assets in capital letters, collections are named in small ones, and settings and
tickers write them in any case. As long as all names are ASCII, the quotes and the books of a
portfolio's asset are stored where its executor looks for them, and those of other assets elsewhere;
and an interval of an asset's own is that of the asset that is meant.
-/

namespace TradingDesk

/-! ### Quotes -/

namespace StreamCollector.World

variable {c : Settings.Stream} {alerts : Alerts} {w : World} {asset : String}

/-- A collector takes each ticker of an asset, whatever the case of its letters. All that its frames
do to the store is to write quotes of configured assets, and those of this asset, and no others, are
written into the asset's collection. There is one to write once both sides of the market were told,
unless it comes too early. -/
structure Supplies (c : Settings.Stream) (w : World) (asset : String) : Prop where
  takes : ∀ text v t half, Json.readGeneric? text = some v → Feed.Ticker.read? v = some t →
    Feed.Message.ofText text = .ok (.half half) → Text.sameAscii t.product asset = true →
    w.collector.told? text = some half
  writes : ∀ text time clock,
    ((w.collector.handleFrame w.store text time clock).store,
      (w.collector.handleFrame w.store text time clock).sequence) =
        written c.storeRetry w.store clock (w.handed? text time (clock 0))
  stores : ∀ text time received q, w.handed? text time received = some q →
    (∃ a ∈ c.assets, q.asset = Text.upper a) ∧
      ((quoteWrite q).collection = Collection.quotes asset ↔ Text.sameAscii q.asset asset = true)
  hands : ∀ text time received half, w.collector.told? text = some half →
    Text.sameAscii half.asset asset = true →
    (∃ g ∈ openHalves half.asset w.sightings, g.side ≠ half.side) →
    (∀ last, (admissions half.asset w.sightings).getLast? = some last →
      last + w.collector.gate.intervalOf half.asset ≤ time) →
    ∃ q, w.handed? text time received = some q ∧ q.asset = half.asset

/-- The asset of a half is the product of its ticker, in capital letters. -/
theorem asset_of_ticker {text : String} {v : Json} {t : Feed.Ticker} {half : QuoteHalf}
    (hv : Json.readGeneric? text = some v) (ht : Feed.Ticker.read? v = some t)
    (hhalf : Feed.Message.ofText text = .ok (.half half)) : half.asset = Text.upper t.product := by
  obtain ⟨v', t', side, hv', ht', htold⟩ := Feed.Message.ticker_of_half hhalf
  obtain rfl : v' = v := Option.some.inj (hv'.symm.trans hv)
  obtain rfl : t' = t := Option.some.inj (ht'.symm.trans ht)
  exact (Feed.Ticker.of_toHalf htold).2

theorem told?_of_half {text : String} {half : QuoteHalf}
    (hhalf : Feed.Message.ofText text = .ok (.half half)) (hmem : half.asset ∈ w.collector.assets) :
    w.collector.told? text = some half := by
  unfold told?
  rw [hhalf]
  simp only [List.contains_iff_mem, hmem, if_true]

theorem Reachable.asset_of_handed (h : Reachable c alerts w) {text : String} {time : Nat}
    {received : Instant} {q : Quote} (hq : w.handed? text time received = some q) :
    ∃ a ∈ c.assets, q.asset = Text.upper a := by
  obtain ⟨half, htold, hhanded⟩ := Option.bind_eq_some_iff.mp hq
  have hmem := (of_told? htold).1
  rw [h.settings.1] at hmem
  obtain ⟨a, ha, heq⟩ := List.mem_map.mp hmem
  exact ⟨a, ha, (h.sound.asset_of_handed hhanded).trans heq.symm⟩

theorem Sound.exists_handed (h : w.Sound) {text : String} {time : Nat} {half : QuoteHalf}
    (htold : w.collector.told? text = some half) (received : Instant)
    (hopen : ∃ g ∈ openHalves half.asset w.sightings, g.side ≠ half.side)
    (htime : ∀ last, (admissions half.asset w.sightings).getLast? = some last →
      last + w.collector.gate.intervalOf half.asset ≤ time) :
    ∃ q, w.handed? text time received = some q ∧ q.asset = half.asset := by
  have hfollows := h.follows_sighted half time received
  have hpair := hfollows.completes.mpr hopen
  have hpassed := (hfollows.passes hpair).mpr htime
  obtain ⟨q, hq⟩ := Option.isSome_iff_exists.mp hpair
  have hhanded := Sighting.handed?_eq_some.mpr ⟨hpassed, hq⟩
  refine ⟨q, ?_, h.asset_of_handed hhanded⟩
  rw [handed?, htold]
  exact hhanded

theorem Reachable.supplies (h : Reachable c alerts w) (hascii : ∀ a ∈ c.assets, Text.IsAscii a)
    {a : String} (ha : a ∈ c.assets) (hsame : Text.sameAscii a asset = true) :
    w.Supplies c asset := by
  have hasset : Text.IsAscii asset := Text.isAscii_of_sameAscii hsame (hascii a ha)
  obtain ⟨hassets, hretry, -⟩ := h.settings
  constructor
  case takes =>
    intro text v t half hv ht hhalf hproduct
    apply told?_of_half hhalf
    have hupper : Text.upper t.product = Text.upper a := by
      have hascii' := Text.isAscii_of_sameAscii (Text.sameAscii_symm hproduct) hasset
      rw [(Text.upper_eq_upper_iff hascii' hasset).mpr hproduct,
        (Text.upper_eq_upper_iff (hascii a ha) hasset).mpr hsame]
    rw [asset_of_ticker hv ht hhalf, hassets, hupper]
    exact List.mem_map_of_mem ha
  case writes =>
    intro text time clock
    rw [← hretry]
    exact w.written_frame text time clock
  case stores =>
    intro text time received q hq
    obtain ⟨a', ha', heq⟩ := h.asset_of_handed hq
    refine ⟨⟨a', ha', heq⟩, ?_⟩
    have hquote : Text.IsAscii q.asset := heq ▸ Text.isAscii_upper (hascii a' ha')
    change Collection.of .quotes q.asset = Collection.of .quotes asset ↔ _
    rw [Collection.of_eq_of_iff hquote hasset, and_iff_right rfl]
  case hands =>
    exact fun _ _ received _ htold _ hopen htime => h.sound.exists_handed htold received hopen htime

end StreamCollector.World

/-! ### Books -/

/-- The books of a pair go to a collection. One that was fetched is written next; to write it is to
attempt to append it there, and again after each wait; and nothing else is done to a store. -/
structure PollPair.AppendsTo (p : PollPair) (collection : String) : Prop where
  fetched : ∀ tick started backoff, p.stage = .fetching tick started backoff →
    ∀ book c s time now, ∃ moved schedule,
      (p.next (.fetched (.ok book)) c s time now).1.stage = .writing book moved schedule
  written : ∀ book moved schedule, p.stage = .writing book moved schedule →
    ∀ c s time now, (p.next .ready c s time now).2.2 =
      (s.attempt (bookWrite collection book) schedule now).2
  refused : ∀ book moved schedule, p.stage = .writing book moved schedule →
    ∀ c s s' time now delay schedule',
      s.attempt (bookWrite collection book) schedule now = (.waiting delay schedule', s') →
      (p.next .ready c s time now).1.stage = .retrying delay book moved schedule'
  retried : ∀ delay book moved schedule, p.stage = .retrying delay book moved schedule →
    ∀ c s time now, (p.next .woke c s time now).1.stage = .writing book moved schedule
  spared : ∀ reply c s time now,
    (reply = .ready → ∀ book moved schedule, p.stage ≠ .writing book moved schedule) →
    (p.next reply c s time now).2.2 = s

theorem PollPair.appendsTo_collection (p : PollPair) : p.AppendsTo p.key.collection := by
  constructor
  case fetched =>
    intro tick started backoff hstage book c s time now
    simp only [next, hstage, afterFetch]
    exact ⟨_, _, rfl⟩
  case written =>
    exact fun book moved schedule hstage c s time now => store_of_writing hstage c s time now
  case refused =>
    intro book moved schedule hstage c s s' time now delay schedule' hattempt
    unfold bookWrite at hattempt
    simp only [next, hstage, hattempt]
  case retried =>
    intro delay book moved schedule hstage c s time now
    simp only [next, hstage]
  case spared =>
    intro reply c s time now hother
    refine (p.store_next reply c s time now).2 fun book hhanded => ?_
    obtain ⟨hready, moved, schedule, hstage⟩ := handed_mem_deeds_iff.mp hhanded
    exact hother hready book moved schedule hstage

/-- A pair that waits begins a fetch with its tick, and one that failed is begun again after the
wait. -/
structure PollPair.Fetches (p : PollPair) (c : PollCollector) (s : Store) (time : Nat) : Prop where
  ticked : p.stage = .waiting → ∀ now,
    (p.next .woke c s time now).1.stage =
      .fetching p.ticker.due p.ticker.due (Backoff.start c.retry)
  again : ∀ delay tick backoff, p.stage = .pausing delay tick backoff → ∀ now,
    (p.next .woke c s time now).1.stage = .fetching tick time backoff

theorem PollPair.Timely.fetches {p : PollPair} {c : PollCollector}
    {seen : List PollPair.Observation} {time : Nat} (h : p.Timely c.gate seen time)
    (hinterval : c.gate.intervalOf p.key = p.ticker.period) (s : Store) :
    p.Fetches c s time where
  ticked hstage now := by rw [h.next_woke s now hstage hinterval]
  again delay tick backoff hstage now := by simp only [PollPair.next, hstage]

namespace PollCollector.World

variable {c : Settings.Poll} {alerts : Alerts} {w : World} {asset : String}

/-- Each schedule of an asset, whatever the case of its letters, has a pair that fetches books and
stores them in the asset's collection for its level. All pairs store their books in the collections
of their own keys, and no pair but those has one of the asset's. -/
structure Supplies (c : Settings.Poll) (w : World) (asset : String) : Prop where
  scheduled : ∀ s ∈ c.schedules, Text.sameAscii s.asset asset = true →
    ∃ p ∈ w.pairs, p.key = keyOf s ∧ p.Fetches w.collector w.store w.time ∧
      p.AppendsTo (Collection.books asset s.level)
  others : ∀ p ∈ w.pairs, p.AppendsTo p.key.collection
  only : ∀ p ∈ w.pairs, ∀ level, p.key.collection = Collection.books asset level →
    ∃ s ∈ c.schedules, p.key = keyOf s ∧ s.level = level ∧ Text.sameAscii s.asset asset = true

theorem collection_keyOf_iff {s : Settings.Schedule} {level : Book.Level}
    (hs : Text.IsAscii s.asset) (hasset : Text.IsAscii asset) :
    (keyOf s).collection = Collection.books asset level ↔
      s.level = level ∧ Text.sameAscii s.asset asset = true := by
  change
    Collection.of (.books s.level) (Text.upper s.asset) = Collection.of (.books level) asset ↔ _
  rw [Collection.of_upper _ hs, Collection.of_eq_of_iff hs hasset, Collection.Kind.books.injEq]

theorem Reachable.supplies (h : Reachable c alerts w) (hkeys : (c.schedules.map keyOf).Nodup)
    (hascii : ∀ s ∈ c.schedules, Text.IsAscii s.asset) (hasset : Text.IsAscii asset) :
    w.Supplies c asset := by
  have hsound := h.sound hkeys
  have hpairs := hsound.keys_eq
  constructor
  case scheduled =>
    intro s hs hsame
    have hmem : keyOf s ∈ w.pairs.map (·.key) := hpairs ▸ List.mem_map_of_mem hs
    obtain ⟨p, hp, hkey⟩ := List.mem_map.mp hmem
    have hcollection := (collection_keyOf_iff (hascii s hs) hasset).mpr ⟨rfl, hsame⟩
    have hfetches := (hsound.timely p hp).fetches (hsound.intervals p hp) w.store
    exact ⟨p, hp, hkey, hfetches, hcollection ▸ hkey ▸ p.appendsTo_collection⟩
  case others => exact fun p _ => p.appendsTo_collection
  case only =>
    intro p hp level hcollection
    have hmem : p.key ∈ c.schedules.map keyOf := hpairs ▸ List.mem_map_of_mem hp
    obtain ⟨s, hs, hkey⟩ := List.mem_map.mp hmem
    rw [← hkey, collection_keyOf_iff (hascii s hs) hasset] at hcollection
    exact ⟨s, hs, hkey.symm, hcollection⟩

end PollCollector.World

/-! ### Portfolios -/

theorem Executor.Setup.mem_watched_iff (s : Executor.Setup) {collection : String} :
    collection ∈ s.watched ↔ ∃ k, collection = Collection.of k s.asset := by
  have hwatched : s.watched = Collection.Kind.all.map fun k => Collection.of k s.asset := rfl
  rw [hwatched, List.mem_map]
  constructor
  · rintro ⟨k, -, rfl⟩
    exact ⟨k, rfl⟩
  · rintro ⟨k, rfl⟩
    exact ⟨k, k.mem_all, rfl⟩

namespace Settings

/-- Whom the executor of a portfolio trades for. -/
def setupOf (c : Settings) (b : Binding) : Executor.Setup :=
  { portfolio := b.id, asset := b.asset, settings := c.execution }

/-- All names of assets in the settings are ASCII; those of the portfolios need not be looked at. -/
structure NamesAscii (c : Settings) : Prop where
  assets : ∀ a ∈ c.stream.assets, Text.IsAscii a
  overrides : ∀ o ∈ c.stream.overrides, Text.IsAscii o.1
  schedules : ∀ s ∈ c.poll.schedules, Text.IsAscii s.asset

/-- What the executor of a portfolio watches, and that the collectors supply it. -/
structure Supplies (c : Settings) (b : Binding) : Prop where
  asset : ∃ a ∈ c.stream.assets, Text.sameAscii a b.asset = true
  watched : ∀ collection, collection ∈ (c.setupOf b).watched ↔
    ∃ k, collection = Collection.of k b.asset
  quotes : ∀ alerts w, StreamCollector.World.Reachable c.stream alerts w →
    w.Supplies c.stream b.asset
  books : ∀ alerts w, PollCollector.World.Reachable c.poll alerts w → w.Supplies c.poll b.asset

variable {c : Settings}

theorem supplies_of_validate (hvalid : c.validate = .ok ()) (hnames : c.NamesAscii) {b : Binding}
    (hb : b ∈ c.portfolios) : c.Supplies b := by
  obtain ⟨a, ha, hsame⟩ := (provides_of_validate hvalid hb).quotes
  have hasset := Text.isAscii_of_sameAscii hsame (hnames.assets a ha)
  constructor
  case asset => exact ⟨a, ha, hsame⟩
  case watched => exact fun _ => (c.setupOf b).mem_watched_iff
  case quotes => exact fun _ _ hreach => hreach.supplies hnames.assets ha hsame
  case books =>
    exact fun _ _ hreach =>
      hreach.supplies (paced_of_validate hvalid).schedules hnames.schedules hasset

/-- A collector keeps for an asset the interval of the exception that is equal to it up to case, or
else that of all assets. -/
structure Paces (c : Settings) (w : StreamCollector.World) (asset : String) : Prop where
  own : ∀ o ∈ c.stream.overrides, Text.sameAscii o.1 asset = true →
    w.collector.gate.intervalOf (Text.upper asset) = o.2
  other : (∀ o ∈ c.stream.overrides, Text.sameAscii o.1 asset = false) →
    w.collector.gate.intervalOf (Text.upper asset) = c.stream.interval

/-- The names of the exceptions differ by more than the case of their letters. -/
def NamesApart (c : Settings) : Prop :=
  c.stream.overrides.Pairwise fun o o' => Text.sameAscii o.1 o'.1 = false

instance (c : Settings) : Decidable c.NamesApart :=
  inferInstanceAs (Decidable (c.stream.overrides.Pairwise fun o o' =>
    Text.sameAscii o.1 o'.1 = false))

theorem overrides_nodup (hnames : c.NamesAscii) (hapart : c.NamesApart)
    (alerts : TradingDesk.Alerts) :
    ((StreamCollector.ofSettings c.stream alerts).gate.overrides.map (·.1)).Nodup := by
  simp only [StreamCollector.ofSettings, List.map_map]
  rw [List.Nodup, List.pairwise_map]
  apply hapart.imp_of_mem
  intro o o' ho ho' hsame heq
  have hiff := Text.upper_eq_upper_iff (hnames.overrides o ho) (hnames.overrides o' ho')
  rw [hiff.mp heq] at hsame
  contradiction

theorem paces_of_reachable (hnames : c.NamesAscii) (hapart : c.NamesApart)
    {alerts : TradingDesk.Alerts} {w : StreamCollector.World}
    (hreach : StreamCollector.World.Reachable c.stream alerts w) {a : String}
    (ha : a ∈ c.stream.assets) : c.Paces w a := by
  have hupper : ∀ o ∈ c.stream.overrides, Text.upper o.1 = Text.upper a ↔
      Text.sameAscii o.1 a = true := fun o ho =>
    Text.upper_eq_upper_iff (hnames.overrides o ho) (hnames.assets a ha)
  constructor
  case own =>
    intro o ho hsame
    rw [hreach.settings.2.2]
    exact RateGate.intervalOf_of_mem (overrides_nodup hnames hapart alerts)
      (List.mem_map.mpr ⟨o, ho, Prod.ext ((hupper o ho).mpr hsame) rfl⟩)
  case other =>
    intro hnone
    rw [hreach.settings.2.2]
    apply RateGate.intervalOf_of_not_mem
    intro o' ho' heq
    obtain ⟨o, ho, rfl⟩ := List.mem_map.mp ho'
    have hsame := (hupper o ho).mp heq
    rw [hnone o ho] at hsame
    contradiction

/-- With accepted settings whose assets have ASCII names, every portfolio is supplied with what its
executor watches. What two executors watch is one collection exactly if it is of one kind, and of
assets that are equal up to case. The intervals of their own that assets have are told in the same
way. -/
theorem collectors_supply_portfolios (hvalid : c.validate = .ok ()) (hnames : c.NamesAscii) :
    (∀ b ∈ c.portfolios, c.Supplies b) ∧
    (∀ b ∈ c.portfolios, ∀ b' ∈ c.portfolios, ∀ k k',
      Collection.of k b.asset = Collection.of k' b'.asset ↔
        k = k' ∧ Text.sameAscii b.asset b'.asset = true) ∧
    (c.NamesApart → ∀ alerts w, StreamCollector.World.Reachable c.stream alerts w →
      ∀ a ∈ c.stream.assets, c.Paces w a) := by
  have hascii : ∀ b ∈ c.portfolios, Text.IsAscii b.asset := by
    intro b hb
    obtain ⟨a, ha, hsame⟩ := (provides_of_validate hvalid hb).quotes
    exact Text.isAscii_of_sameAscii hsame (hnames.assets a ha)
  refine ⟨fun b hb => supplies_of_validate hvalid hnames hb, ?_, ?_⟩
  · intro b hb b' hb' k k'
    exact Collection.of_eq_of_iff (hascii b hb) (hascii b' hb')
  · intro hapart alerts w hreach a ha
    exact paces_of_reachable hnames hapart hreach ha

/-- One asset written in three ways, with an interval of its own, beside another. -/
def mixedCase : Settings where
  stream := { assets := ["BTC-USD", "eth-usd"], overrides := [("btc-usd", 500)] }
  poll := { schedules := [{ asset := "btc-USD", level := .fifty, interval := 1000 }] }
  portfolios :=
    [{ id := "main", asset := "Btc-Usd", strategy := { size := .one } },
      { id := "other", asset := "ETH-usd", strategy := { size := .one } }]

theorem mixedCase_supplied : mixedCase.validate = .ok () ∧
    (∀ b ∈ mixedCase.portfolios, mixedCase.Supplies b) ∧
    ∀ alerts w, StreamCollector.World.Reachable mixedCase.stream alerts w →
      w.collector.gate.intervalOf "BTC-USD" = 500 := by
  have hvalid : mixedCase.validate = .ok () := validate_eq_ok_iff.mpr (by decide +kernel)
  have hnames : mixedCase.NamesAscii := ⟨by decide +kernel, by decide +kernel, by decide +kernel⟩
  obtain ⟨hsupplies, -, hpaces⟩ := collectors_supply_portfolios hvalid hnames
  refine ⟨hvalid, hsupplies, fun alerts w hreach => ?_⟩
  have hown := (hpaces (by decide +kernel) alerts w hreach "BTC-USD" (by decide +kernel)).own
    ("btc-usd", 500) (by decide +kernel) (by decide +kernel)
  have hname : Text.upper "BTC-USD" = "BTC-USD" := by decide +kernel
  rwa [hname] at hown

end Settings

end TradingDesk

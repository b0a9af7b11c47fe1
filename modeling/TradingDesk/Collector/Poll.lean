import TradingDesk.Alerts
import TradingDesk.Collector.Stats
import TradingDesk.Market.Codec
import TradingDesk.Market.Collection
import TradingDesk.RateGate
import TradingDesk.Settings
import TradingDesk.Store
/-!
# The poll collector

The books of each pair of an asset and a level are fetched at the pair's interval. A fetch that
fails is tried again after the waits of a backoff schedule, and at the latest with the next tick; a
book that came from a later attempt moves the ticks, so that books of a pair stay an interval apart.

Every pair is a machine of its own. The pairs share the gate, the counters and the store.
-/

namespace TradingDesk

/-- What is polled: an asset, in capital letters, at a level. -/
structure PollKey where
  asset : String
  level : Book.Level
deriving DecidableEq, Repr, Inhabited

def PollKey.of (asset : String) (level : Book.Level) : PollKey :=
  { asset := Text.upper asset, level }

def PollKey.collection (k : PollKey) : String := Collection.books k.asset k.level

structure PollCollector where
  schedules : List Settings.Schedule
  gate : RateGate PollKey
  retry : BackoffSettings
  storeRetry : BackoffSettings
  stats : Stats := {}
  alerts : Alerts := {}
deriving Inhabited

namespace PollCollector

def keyOf (s : Settings.Schedule) : PollKey := PollKey.of s.asset s.level

/-- A collector whose gate keeps the interval of each schedule. -/
def ofSettings (c : Settings.Poll) (alerts : Alerts) : PollCollector :=
  { schedules := c.schedules
    gate := { interval := 0, overrides := c.schedules.map fun s => (keyOf s, s.interval) }
    retry := c.retry
    storeRetry := c.storeRetry
    alerts }

end PollCollector

/-- The ticks of a pair. A tick that comes too late moves those after it. -/
structure Ticker where
  period : Nat
  /-- When the next tick is due. -/
  due : Nat
deriving DecidableEq, Repr, Inhabited

namespace Ticker

/-- How late a tick may come without moving the next one. -/
def tolerance : Nat := 5

/-- The ticker after the tick that was due, taken at `time`. -/
def advance (t : Ticker) (time : Nat) : Ticker :=
  { t with due := (if t.due + tolerance < time then time else t.due) + t.period }

def restart (t : Ticker) (time : Nat) : Ticker := { t with due := time + t.period }

end Ticker

namespace PollPair

inductive Stage where
  | waiting
  /-- Fetching for the tick that was due at `tick`; this attempt began at `started`. -/
  | fetching (tick started : Nat) (backoff : Backoff)
  | pausing (delay tick : Nat) (backoff : Backoff)
  /-- Storing a book; `moved` says that it moves the ticks. -/
  | writing (book : Book) (moved : Bool) (schedule : Backoff)
  | retrying (delay : Nat) (book : Book) (moved : Bool) (schedule : Backoff)
  | stopped

inductive Reply where
  /-- A wait is over. -/
  | woke
  | fetched (result : Except Fault Book)
  /-- The store was ready for a write. -/
  | ready
  | shutdown

end PollPair

structure PollPair where
  key : PollKey
  ticker : Ticker
  stage : PollPair.Stage := .waiting

namespace PollPair

/-- The pollers of a collector, which all begin with a tick at once. -/
def ofCollector (c : PollCollector) : List PollPair :=
  c.schedules.map fun s =>
    { key := PollCollector.keyOf s, ticker := { period := s.interval, due := 0 } }

/-- Takes the tick that is due; the gate may refuse it. -/
def tick (p : PollPair) (c : PollCollector) (time : Nat) : PollPair × PollCollector :=
  let due := p.ticker.due
  let p := { p with ticker := p.ticker.advance time }
  match c.gate.pass p.key due with
  | (true, gate) =>
    ({ p with stage := .fetching due due (Backoff.start c.retry) }, { c with gate })
  | (false, _) => (p, { c with stats := c.stats.countThrottled })

/-- The wait after a failed fetch: as long as the server asks for, if it does. -/
def waitAfter? (c : PollCollector) (e : Fault) (backoff : Backoff) : Option (Nat × Backoff) :=
  if e.isRateLimit then backoff.nextAtLeast? (e.retryAfter?.getD (c.retry.initialDelay * 2))
  else backoff.next?

def afterFetch (p : PollPair) (c : PollCollector) (tick started : Nat) (backoff : Backoff)
    (result : Except Fault Book) : PollPair × PollCollector :=
  match result with
  | .ok book =>
    let moved : Bool := tick < started
    let c := if moved then { c with gate := c.gate.record p.key started } else c
    ({ p with stage := .writing book moved (Backoff.start c.storeRetry) }, c)
  | .error e =>
    let c := { c with stats := c.stats.countFetchFailure }
    match waitAfter? c e backoff with
    | some (delay, backoff) => ({ p with stage := .pausing delay tick backoff }, c)
    | none => ({ p with stage := .waiting }, c)

/-- Waits for the next tick, from now on if the ticks were moved. -/
def rest (p : PollPair) (moved : Bool) (time : Nat) : PollPair :=
  { p with
    stage := .waiting
    ticker := if moved then p.ticker.restart time else p.ticker }

/-- Goes on with a reply; also what the pairs share and the store after it. -/
def next (p : PollPair) (reply : Reply) (c : PollCollector) (s : Store) (time : Nat)
    (now : Instant) : PollPair × PollCollector × Store :=
  match p.stage, reply with
  | .waiting, .woke => let (p, c) := p.tick c time; (p, c, s)
  | .waiting, .shutdown => ({ p with stage := .stopped }, c, s)
  | .fetching tick started backoff, .fetched result =>
    let (p, c) := p.afterFetch c tick started backoff result
    (p, c, s)
  | .pausing _ tick backoff, .woke => ({ p with stage := .fetching tick time backoff }, c, s)
  | .pausing .., .shutdown => ({ p with stage := .stopped }, c, s)
  | .writing book moved schedule, .ready =>
    let write := Write.append p.key.collection book.documentId book.toJson.settled
    match s.attempt write schedule now with
    | (.done _, s) => (p.rest moved time, { c with stats := c.stats.countPersisted }, s)
    | (.waiting delay schedule, s) =>
      ({ p with stage := .retrying delay book moved schedule }, c, s)
    | (.givenUp e, s) =>
      let (turned, stats) := c.stats.countStoreFailure
      let detail := p.key.collection ++ " snapshot not persisted: " ++ e.message
      let alerts := if turned then c.alerts.send "Poll collector degraded" detail else c.alerts
      (p.rest moved time, { c with stats, alerts }, s)
  | .retrying _ book moved schedule, .woke =>
    ({ p with stage := .writing book moved schedule }, c, s)
  | _, _ => (p, c, s)

end PollPair

namespace PollCollector

def start (c : PollCollector) : PollCollector × List PollPair :=
  let detail := toString c.schedules.length ++ " (asset, level) pairs"
  ({ c with alerts := c.alerts.send "Poll collector started" detail }, PollPair.ofCollector c)

end PollCollector

end TradingDesk

import TradingDesk.Alerts
import TradingDesk.Collector.Pairing
import TradingDesk.Collector.Stats
import TradingDesk.Feed.Message
import TradingDesk.Market.Collection
import TradingDesk.RateGate
import TradingDesk.Settings
import TradingDesk.Store
/-!
# The stream collector

The collector joins the halves that the feed sends into quotes, and appends those that its gate lets
pass to the collections of their assets; the others are dropped. It connects again whenever the feed
is lost, after the waits of a backoff schedule that begins anew with each frame, and nothing held
from one connection is joined with anything from another.
-/

namespace TradingDesk

structure StreamCollector where
  assets : List String
  gate : RateGate String
  pairing : Pairing := {}
  reconnect : BackoffSettings
  storeRetry : BackoffSettings
  stats : Stats := {}
  alerts : Alerts := {}
deriving Inhabited

namespace StreamCollector

/-- A collector of the assets that the settings name, in capital letters. -/
def ofSettings (c : Settings.Stream) (alerts : Alerts) : StreamCollector :=
  { assets := c.assets.map Text.upper
    gate :=
      { interval := c.interval
        overrides := c.overrides.map fun (asset, interval) => (Text.upper asset, interval) }
    reconnect := c.reconnect
    storeRetry := c.storeRetry
    alerts }

/-- What a collector and its store are after a frame, and how long it took. -/
structure Handled where
  collector : StreamCollector
  store : Store
  sequence : Option Nat := none
  elapsed : Nat := 0

def persist (c : StreamCollector) (s : Store) (q : Quote) (clock : Nat → Instant) : Handled :=
  let write := Write.append (Collection.quotes q.asset) q.documentId q.toJson.settled
  match s.persist write c.storeRetry clock with
  | (.ok sequence, elapsed, store) =>
    { collector := { c with stats := c.stats.countPersisted }, store, sequence := some sequence
      elapsed }
  | (.error e, elapsed, store) =>
    let (turned, stats) := c.stats.countStoreFailure
    let detail := "quote for " ++ q.asset ++ " not persisted: " ++ e.message
    let alerts := if turned then c.alerts.send "Stream collector degraded" detail else c.alerts
    { collector := { c with stats, alerts }, store, elapsed }

def takeHalf (c : StreamCollector) (s : Store) (half : QuoteHalf) (time : Nat)
    (clock : Nat → Instant) : Handled :=
  if !c.assets.contains half.asset then { collector := c, store := s }
  else
    match c.pairing.push half (clock 0) with
    | (none, pairing) => { collector := { c with pairing }, store := s }
    | (some quote, pairing) =>
      let c := { c with pairing }
      match c.gate.pass quote.asset time with
      | (true, gate) => { c with gate }.persist s quote clock
      | (false, _) => { collector := { c with stats := c.stats.countThrottled }, store := s }

/-- Takes a text frame that arrived at `time`. `clock` tells the wall clock some milliseconds
later. -/
def handleFrame (c : StreamCollector) (s : Store) (text : String) (time : Nat)
    (clock : Nat → Instant) : Handled :=
  match Feed.Message.ofText text with
  | .error _ => { collector := { c with stats := c.stats.countMalformed }, store := s }
  | .ok (.half half) => c.takeHalf s half time clock
  | .ok _ => { collector := c, store := s }

/-! ### Connections -/

inductive Stage where
  | connecting
  | reading
  | pausing (delay : Nat)
  | ended (result : Except Fault Unit)

structure Run where
  collector : StreamCollector
  backoff : Backoff
  stage : Stage

inductive Happening where
  | connected (result : Except Fault Unit)
  /-- A text frame, the end of the stream, or its loss. -/
  | frame (result : Except Fault (Option String))
  | woke
  | shutdown

def lostAlert : String := "Feed connection lost"

def start (c : StreamCollector) : Run :=
  let assets := String.intercalate ", " c.assets
  { collector := { c with alerts := c.alerts.send "Stream collector started" assets }
    backoff := Backoff.start c.reconnect
    stage := .connecting }

namespace Run

def alert (r : Run) (title message : String) : Run :=
  { r with collector :=
      { r.collector with alerts := r.collector.alerts.send title message } }

/-- Waits for the next attempt to connect, or gives up when the schedule is used up. -/
def backOff (r : Run) : Run :=
  match r.backoff.next? with
  | some (delay, backoff) => { r with backoff, stage := .pausing delay }
  | none =>
    let r := r.alert "Stream collector stopped"
      ("gave up after " ++ toString r.backoff.attempts ++ " reconnect attempts")
    { r with stage := .ended (.error (.network "feed reconnect attempts exhausted")) }

/-- Goes on after a happening; also the store after it, and the time it took. A connection that is
made begins with nothing held. -/
def next (r : Run) (h : Happening) (s : Store) (time : Nat) (clock : Nat → Instant) :
    Run × Store × Nat :=
  match r.stage, h with
  | .ended _, _ => (r, s, 0)
  | _, .shutdown => ({ r with stage := .ended (.ok ()) }, s, 0)
  | .connecting, .connected (.ok ()) =>
    ({ r with collector := { r.collector with pairing := .clear }, stage := .reading }, s, 0)
  | .connecting, .connected (.error _) => (r.backOff, s, 0)
  | .reading, .frame (.ok (some text)) =>
    let handled := r.collector.handleFrame s text time clock
    ({ r with collector := handled.collector, backoff := r.backoff.reset }, handled.store,
      handled.elapsed)
  | .reading, .frame (.ok none) => ((r.alert lostAlert "closed by server").backOff, s, 0)
  | .reading, .frame (.error e) => ((r.alert lostAlert e.message).backOff, s, 0)
  | .pausing _, .woke => ({ r with stage := .connecting }, s, 0)
  | _, _ => (r, s, 0)

end Run

end StreamCollector

end TradingDesk

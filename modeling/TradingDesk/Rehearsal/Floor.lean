import TradingDesk.Rehearsal.Command
import TradingDesk.Trading.Wiring
/-!
# Rehearsing a trading floor

All executors and watchers of a desk run side by side on a clock that jumps from one happening to
the next. What happens at one time happens in this order: the watchers look at the store, then each
executor goes on for as long as it need not wait.
-/

namespace TradingDesk.Rehearsal

structure Premises where
  store : Store
  queues : Watcher.Queues
  paper : Venue
  live : Venue
  time : Nat := 0
  /-- How many names have been given out. -/
  names : Nat := 0

/-- An executor at work: its queue, and the reply that is on its way to it, with its time. -/
structure Worker where
  trader : Trader TargetPrice
  queue : Nat
  awaited : Option (Nat × Executor.Reply) := none

namespace Premises

def moment (p : Premises) (out : Session.Outside) : Moment :=
  { time := p.time, now := out.wall p.time, freshId := out.name p.names }

def venue (p : Premises) (mode : Settings.TradeMode) : Venue :=
  match mode with
  | .paper => p.paper
  | .live => p.live

def withVenue (p : Premises) (mode : Settings.TradeMode) (v : Venue) : Premises :=
  match mode with
  | .paper => { p with paper := v }
  | .live => { p with live := v }

end Premises

namespace Worker

def withExecutor (w : Worker) (x : Executor TargetPrice) : Worker :=
  { w with trader := { w.trader with executor := x } }

/-- Serves what the executor asks for; the reply is on its way then. An executor that broke off
takes no more events. -/
def ask (out : Session.Outside) (p : Premises) (w : Worker) : Premises × Worker :=
  let x := w.trader.executor
  match x.request?, x.stage with
  | some request, _ =>
    let mode := w.trader.mode
    let served := serve x.setup p.store (p.venue mode) none p.time (out.wall p.time) request
    let p := { p.withVenue mode served.venue with store := served.store, names := p.names + 1 }
    (p, { w with awaited := some (p.time + served.delay, served.reply) })
  | none, .overflown =>
    ({ p with queues := p.queues.set w.queue (p.queues.get w.queue).close },
      { w with awaited := none })
  | none, _ => (p, { w with awaited := none })

def start (out : Session.Outside) (p : Premises) (w : Worker) : Premises × Worker :=
  ask out { p with names := p.names + 1 }
    (w.withExecutor (w.trader.executor.recover (p.moment out)))

/-- Goes on with a reply that has arrived or with the next event. -/
def step? (out : Session.Outside) (p : Premises) (w : Worker) : Option (Premises × Worker) :=
  let x := w.trader.executor
  match w.awaited with
  | some (due, reply) =>
    if due ≤ p.time then
      some
        (ask out { p with names := p.names + 1 } (w.withExecutor (x.resume reply (p.moment out))))
    else none
  | none => do
    let (event, queue) ← (p.queues.get w.queue).pop?
    let queues := p.queues.set w.queue queue
    pure (ask out { p with queues, names := p.names + 1 }
      (w.withExecutor (x.handle event (p.moment out))))

/-- Goes on for as long as the executor need not wait, at most `fuel` steps. -/
def work (out : Session.Outside) : (fuel : Nat) → Premises → Worker → Premises × Worker
  | 0, p, w => (p, w)
  | fuel + 1, p, w =>
    match w.step? out p with
    | some (p, w) => work out fuel p w
    | none => (p, w)

def each (act : Premises → Worker → Premises × Worker) :
    Premises → List Worker → Premises × List Worker
  | p, [] => (p, [])
  | p, w :: rest =>
    let (p, w) := act p w
    let (p, rest) := each act p rest
    (p, w :: rest)

end Worker

/-- A watcher and when it looks next; it stops when nobody listens any more. -/
structure Lookout where
  watcher : Watcher
  next : Nat := 0
  stopped : Bool := false

namespace Lookout

def lookup (collection : String) : Watcher.Lookup Store := fun s after limit =>
  (.ok (s.after collection after limit), s)

def look (interval : Nat) (p : Premises) (l : Lookout) : Premises × Lookout :=
  if l.stopped || p.time < l.next then (p, l)
  else
    let (watcher, polled) := l.watcher.poll (lookup l.watcher.collection) p.queues p.store
    ({ p with queues := polled.queues },
      { watcher, next := p.time + interval, stopped := watcher.subscribers.isEmpty })

def each (interval : Nat) : Premises → List Lookout → Premises × List Lookout
  | p, [] => (p, [])
  | p, l :: rest =>
    let (p, l) := look interval p l
    let (p, rest) := each interval p rest
    (p, l :: rest)

end Lookout

structure Floor where
  premises : Premises
  workers : List Worker
  lookouts : List Lookout
  interval : Nat

namespace Floor

def of (c : Settings) (traders : List (Trader TargetPrice)) (store : Store) (paper live : Venue) :
    Floor :=
  { premises := { store, paper, live, queues := queuesFor c.execution traders }
    workers := traders.zipIdx.map fun (trader, queue) => { trader, queue }
    lookouts :=
      (Watchers.wire store c.watch.batch traders).pairs.map fun (_, watcher) => { watcher }
    interval := c.watch.interval }

def settle (out : Session.Outside) (fuel : Nat) (f : Floor) : Floor :=
  let (premises, lookouts) := Lookout.each f.interval f.premises f.lookouts
  let (premises, workers) := Worker.each (Worker.work out fuel) premises f.workers
  { f with premises, lookouts, workers }

def start (out : Session.Outside) (f : Floor) : Floor :=
  let (premises, workers) := Worker.each (Worker.start out) f.premises f.workers
  { f with premises, workers }

def nextTime? (f : Floor) : Option Nat :=
  let looks := f.lookouts.filterMap fun l => if l.stopped then none else some l.next
  let replies := f.workers.filterMap fun w => w.awaited.map (·.1)
  (looks ++ replies).min?

/-- Lets happen what happens before a time, at most `fuel` times. -/
def runUntil (out : Session.Outside) (limit : Nat) : (fuel : Nat) → Floor → Floor
  | 0, f => f
  | fuel + 1, f =>
    match f.nextTime? with
    | some time =>
      if time < limit then
        runUntil out limit fuel (settle out fuel { f with premises := { f.premises with time } })
      else { f with premises := { f.premises with time := max f.premises.time limit } }
    | none => { f with premises := { f.premises with time := max f.premises.time limit } }

def commit (out : Session.Outside) (f : Floor) (d : Posting) : Floor :=
  let p := f.premises
  let (_, store) := p.store.append d.collection d.id d.body (out.wall p.time)
  { f with premises := { p with store } }

def states (f : Floor) : List (String × Option Json) :=
  f.workers.map fun w =>
    let id := w.trader.executor.setup.portfolio
    (id, f.premises.store.fetch? Collection.states id)

/-- What there is to tell of a floor: the changes of phase of each portfolio in turn, and the calls
of the venues. -/
structure News where
  transitions : List Transition
  live : List (Nat × Call)
  paper : List (Nat × Call)

/-- Tells what has happened since the last time, which is forgotten then. -/
def tell (f : Floor) : News × Floor :=
  let news : News :=
    { transitions := f.workers.flatMap fun w => w.trader.executor.announced.reverse
      live := f.premises.live.calls.reverse
      paper := f.premises.paper.calls.reverse }
  let p := f.premises
  let quiet (w : Worker) : Worker := w.withExecutor { w.trader.executor with announced := [] }
  (news, { f with
    premises :=
      { p with live := { p.live with calls := [] }, paper := { p.paper with calls := [] } }
    workers := f.workers.map quiet })

end Floor

end TradingDesk.Rehearsal

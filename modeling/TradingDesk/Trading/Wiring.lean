import TradingDesk.Trading.TargetPrice
import TradingDesk.Watcher
/-!
# Wiring executors to the store

Every portfolio gets an executor, which is restored from its stored state, and every executor one
queue. Each collection that some executor follows gets one watcher, which fills the queues of all
who follow it: from the sequence on that the executor has evaluated last, or from the head of the
collection if it has evaluated none.
-/

namespace TradingDesk

structure Trader (σ : Type) where
  executor : Executor σ
  mode : Settings.TradeMode

namespace Trader

/-- Where the orders of a portfolio go; live trading needs a gateway to the exchange. -/
def modeFor (binding : Settings.Binding) (hasLive : Bool) : Except Fault Settings.TradeMode :=
  if binding.mode = .live ∧ !hasLive then
    .error (.configuration
      ("portfolio '" ++ binding.id ++ "' trades live but no live gateway is configured"))
  else .ok binding.mode

/-- The executor of a portfolio, restored from the store. -/
def build (settings : Settings.Execution) (hasLive : Bool) (store : Store) (now : Instant)
    (binding : Settings.Binding) : Except Fault (Trader TargetPrice) := do
  let mode ← modeFor binding hasLive
  let executor ← Executor.restore { portfolio := binding.id, asset := binding.asset, settings }
    TargetPrice.strategy { target := binding.strategy }
    (store.fetch? Collection.states binding.id) now
  pure { executor, mode }

/-- One executor for every portfolio, if each can be restored. -/
def buildAll (c : Settings) (hasLive : Bool) (store : Store) (now : Instant) :
    Except Fault (List (Trader TargetPrice)) :=
  c.portfolios.mapM (build c.execution hasLive store now)

/-- The sequence after which an executor takes the changes of a collection. -/
def startIn {σ : Type} (t : Trader σ) (store : Store) (collection : String) : Nat :=
  (t.executor.resumeSequence? collection).getD (store.head collection)

end Trader

/-- The watchers by the collection that each watches. -/
abbrev Watchers := KeyMap Watcher

namespace Watchers

variable {σ : Type}

/-- Lets a queue take the changes of a collection after a sequence. -/
def subscribe (ws : Watchers) (batch : Nat) (collection : String) (queue start : Nat) : Watchers :=
  let w := (ws.get? collection).getD { collection, startAfter := start, batch }
  ws.insert collection (w.subscribeAfter queue start)

/-- Lets an executor with a queue follow its collections. -/
def follow (store : Store) (batch : Nat) (ws : Watchers) (trader : Trader σ × Nat) : Watchers :=
  trader.1.executor.setup.watched.foldl
    (fun ws collection =>
      ws.subscribe batch collection trader.2 (trader.1.startIn store collection)) ws

/-- The watchers of some executors, whose queues are numbered in the order of the executors. -/
def wire (store : Store) (batch : Nat) (traders : List (Trader σ)) : Watchers :=
  traders.zipIdx.foldl (follow store batch) KeyMap.empty

end Watchers

def queuesFor {σ : Type} (settings : Settings.Execution) (traders : List (Trader σ)) :
    Watcher.Queues :=
  traders.map fun _ => Queue.ofSize settings.queueSize

end TradingDesk

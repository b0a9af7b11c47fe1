import TradingDesk.Store
/-!
# Queues of events

A queue holds up to a number of events between the watchers that fill it and the one who takes them.
Once nobody takes from it any more it is closed.
-/

namespace TradingDesk

structure Queue where
  capacity : Nat
  events : List ChangeEvent := []
  closed : Bool := false
deriving DecidableEq, Repr, Inhabited

namespace Queue

/-- An empty queue, which holds at least one event. -/
def ofSize (size : Nat) : Queue := { capacity := max size 1 }

inductive Push where
  | pushed (q : Queue)
  | full
  | closed

/-- Puts an event at the end, if there is room and somebody to take it. -/
def push (q : Queue) (e : ChangeEvent) : Push :=
  if q.closed then .closed
  else if q.capacity ≤ q.events.length then .full
  else .pushed { q with events := q.events ++ [e] }

def pop? (q : Queue) : Option (ChangeEvent × Queue) :=
  match q.events with
  | [] => none
  | e :: rest => some (e, { q with events := rest })

/-- Nobody takes from the queue any more. -/
def close (q : Queue) : Queue := { q with closed := true, events := [] }

end Queue

end TradingDesk

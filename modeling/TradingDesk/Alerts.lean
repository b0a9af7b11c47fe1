/-!
# Alerts

Alerts tell an operator of starts, losses and failures. Sending one never fails and never waits;
what becomes of it concerns nobody. Without a notifier alerts go nowhere.
-/

namespace TradingDesk

structure Alert where
  title : String
  message : String
deriving DecidableEq, Repr

/-- The alerts handed to the notifier, the last one first. -/
structure Alerts where
  enabled : Bool := false
  sent : List Alert := []
deriving DecidableEq, Repr, Inhabited

namespace Alerts

def send (a : Alerts) (title message : String) : Alerts :=
  if a.enabled then { a with sent := { title, message } :: a.sent } else a

def delivered (a : Alerts) : List Alert := a.sent.reverse

end Alerts

end TradingDesk

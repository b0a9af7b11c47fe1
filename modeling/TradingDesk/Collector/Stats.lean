/-!
# Counters of a collector
-/

namespace TradingDesk

/-- What a collector has done. It is degraded from a write that was given up until the next write
that lands. -/
structure Stats where
  persisted : Nat := 0
  throttled : Nat := 0
  malformed : Nat := 0
  fetchFailures : Nat := 0
  storeFailures : Nat := 0
  degraded : Bool := false
deriving DecidableEq, Repr, Inhabited

namespace Stats

def countPersisted (s : Stats) : Stats := { s with persisted := s.persisted + 1, degraded := false }

def countThrottled (s : Stats) : Stats := { s with throttled := s.throttled + 1 }

def countMalformed (s : Stats) : Stats := { s with malformed := s.malformed + 1 }

def countFetchFailure (s : Stats) : Stats := { s with fetchFailures := s.fetchFailures + 1 }

/-- Counts a write that was given up; also says whether it turned a healthy collector degraded. -/
def countStoreFailure (s : Stats) : Bool × Stats :=
  (!s.degraded, { s with storeFailures := s.storeFailures + 1, degraded := true })

end Stats

end TradingDesk

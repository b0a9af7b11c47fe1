import TradingDesk.Json.Record
/-!
# Backoff

The waits between the attempts of a call that failed. They grow by a factor up to a bound, and a
schedule may allow a limited number of them. All waits are in milliseconds.
-/

namespace TradingDesk

/-- The settings of a schedule; zero allowed attempts stand for any number. -/
structure BackoffSettings where
  initialDelay : Nat := 500
  maxDelay : Nat := 30000
  multiplier : Float := 2.0
  jitter : Float := 0.1
  maxAttempts : Nat := 0
deriving DecidableEq, Repr, Inhabited

namespace BackoffSettings

def read? {σ : Type} [Source σ] (v : σ) : Option BackoffSettings := do
  let s ← Slots.of? ["initial_delay_ms", "max_delay_ms", "multiplier", "jitter_factor",
    "max_attempts"] v
  pure
    { initialDelay := ← s.withDefault "initial_delay_ms" Source.word? 500
      maxDelay := ← s.withDefault "max_delay_ms" Source.word? 30000
      multiplier := ← s.withDefault "multiplier" Source.float? 2.0
      jitter := ← s.withDefault "jitter_factor" Source.float? 0.1
      maxAttempts := ← s.withDefault "max_attempts" (Source.natBelow? (pow2 32)) 0 }

def toJson (c : BackoffSettings) : Json := .obj
  [("initial_delay_ms", .ofNat c.initialDelay),
   ("max_delay_ms", .ofNat c.maxDelay),
   ("multiplier", .ofFloat c.multiplier),
   ("jitter_factor", .ofFloat c.jitter),
   ("max_attempts", .ofNat c.maxAttempts)]

def withoutJitter (c : BackoffSettings) : BackoffSettings := { c with jitter := 0.0 }

/-- The wait that follows a wait of `delay`: grown by the factor, cut at the bound. A factor that
gives no positive number gives no wait. -/
def grow (c : BackoffSettings) (delay : Nat) : Nat :=
  let scaled := Float.ofNat delay * c.multiplier
  let next := if scaled.isFinite && scaled > 0.0 then scaled.toUInt64.toNat else 0
  min next c.maxDelay

/-- A wait as it is taken. With jitter waits are spread evenly around the scheduled one and last at
least a millisecond. The middle of the spread stands for them; what is said of runs with jitter has
to hold of any other wait as well. -/
def spread (c : BackoffSettings) (delay : Nat) : Nat :=
  if c.jitter ≤ 0.0 then delay else max delay 1

end BackoffSettings

/-- A schedule in use: the wait that comes next and how many have been taken. -/
structure Backoff where
  settings : BackoffSettings
  current : Nat
  attempts : Nat
deriving DecidableEq, Repr, Inhabited

namespace Backoff

def start (c : BackoffSettings) : Backoff :=
  { settings := c, current := c.initialDelay, attempts := 0 }

def mayRetry (b : Backoff) : Bool :=
  b.settings.maxAttempts == 0 || b.attempts < b.settings.maxAttempts

/-- The next wait, unless all allowed ones have been taken. -/
def next? (b : Backoff) : Option (Nat × Backoff) :=
  if b.mayRetry then
    some (b.settings.spread b.current,
      { b with current := b.settings.grow b.current, attempts := b.attempts + 1 })
  else none

/-- The next wait, made at least `floor` long. -/
def nextAtLeast? (b : Backoff) (floor : Nat) : Option (Nat × Backoff) :=
  b.next?.map fun (delay, b) => (max delay floor, b)

def reset (b : Backoff) : Backoff := start b.settings

end Backoff

end TradingDesk

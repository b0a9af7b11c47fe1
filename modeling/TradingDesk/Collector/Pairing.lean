import TradingDesk.Market.Quote
/-!
# Pairing halves into quotes

Halves are held per asset until the other side arrives. A half of the side that is held takes its
place; the other side completes a quote and leaves nothing held.
-/

namespace TradingDesk

inductive Held where
  | nothing
  | bid (half : QuoteHalf)
  | ask (half : QuoteHalf)
deriving DecidableEq, Repr, Inhabited

/-- Adds a half to what is held; also the quote that it completes. -/
def Held.add (held : Held) (half : QuoteHalf) (received : Instant) : Option Quote × Held :=
  match held, half.side with
  | .ask other, .buy => (some (Quote.ofHalves half other received), .nothing)
  | .bid other, .sell => (some (Quote.ofHalves other half received), .nothing)
  | _, .buy => (none, .bid half)
  | _, .sell => (none, .ask half)

structure Pairing where
  slots : List (String × Held) := []
deriving DecidableEq, Repr, Inhabited

namespace Pairing

def held (p : Pairing) (asset : String) : Held := (p.slots.lookup asset).getD .nothing

def setHeld (p : Pairing) (asset : String) (held : Held) : Pairing :=
  { slots := (asset, held) :: p.slots.filter (·.1 != asset) }

/-- Adds a half; also the quote that it completes. -/
def push (p : Pairing) (half : QuoteHalf) (received : Instant) : Option Quote × Pairing :=
  let (quote, held) := (p.held half.asset).add half received
  (quote, p.setHeld half.asset held)

def clear : Pairing := {}

end Pairing

end TradingDesk

/-!
# Powers of two and ten
-/

namespace TradingDesk

abbrev pow2 (n : Nat) : Nat := Nat.pow 2 n

abbrev pow10 (n : Nat) : Nat := Nat.pow 10 n

end TradingDesk

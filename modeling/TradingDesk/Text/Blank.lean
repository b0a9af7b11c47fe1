/-!
# Blanks

The white space of all scripts, and texts with it taken off their ends.
-/

namespace TradingDesk.Text

/-- White space: the ASCII blanks, the next line, and the spaces and separators of all scripts. -/
def isBlank (c : Char) : Bool :=
  let n := c.toNat
  (9 ≤ n && n ≤ 13) || n == 0x20 || n == 0x85 || n == 0xA0 || n == 0x1680 ||
    (0x2000 ≤ n && n ≤ 0x200A) || n == 0x2028 || n == 0x2029 || n == 0x202F || n == 0x205F ||
    n == 0x3000

def skipBlanks (cs : List Char) : List Char := cs.dropWhile isBlank

def trimmed (cs : List Char) : List Char := (skipBlanks (skipBlanks cs).reverse).reverse

def isBlankText (s : String) : Bool := s.toList.all isBlank

end TradingDesk.Text

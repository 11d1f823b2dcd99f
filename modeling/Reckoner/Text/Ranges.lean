/-!
# Sets of characters as ranges

A property of characters is given as a list of closed ranges of code points, ascending and apart.
-/

namespace Reckoner.Text

/-- The code point `n` lies in one of the closed ranges. -/
def inRanges (ranges : List (Nat × Nat)) (n : Nat) : Bool :=
  ranges.any fun r => r.1 ≤ n && n ≤ r.2

end Reckoner.Text

/-!
# Ranges of characters

A set of characters is a table of ranges of code points, in order and without overlaps.
-/

namespace Monkey.Text

/-- The code point lies in one of the ranges, which are in order. -/
def inRanges (n : Nat) : List (Nat × Nat) → Bool
  | [] => false
  | (first, last) :: ranges => first ≤ n && (n ≤ last || inRanges n ranges)

end Monkey.Text

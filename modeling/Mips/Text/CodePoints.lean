/-!
Sets of characters given by ranges of code points.
-/

namespace Mips.Text

/-- Whether `point` lies in one of the ranges, each given by its first and last number, in ascending order. -/
def inRanges : List (Nat × Nat) → Nat → Bool
  | [], _ => false
  | (first, last) :: rest, point =>
    if point < first then false else point ≤ last || inRanges rest point

end Mips.Text

/-!
# Ranges of characters

A set of characters given by the inclusive ranges of its code points, in ascending order.
-/

namespace AsciiMath.Text

def inRanges : List (Nat × Nat) → Nat → Bool
  | [], _ => false
  | (low, high) :: ranges, code =>
    if code < low then false else decide (code ≤ high) || inRanges ranges code

end AsciiMath.Text

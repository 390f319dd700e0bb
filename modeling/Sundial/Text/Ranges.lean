/-!
# Ranges of code points

A class of characters is a list of half-open ranges of code points in increasing order. The classes
of this library are those of Unicode 17.
-/

set_option autoImplicit false

namespace Sundial.Text

/-- The code point lies in one of the ranges. -/
def inRanges (ranges : List (Nat × Nat)) (n : Nat) : Bool :=
  ranges.any fun r => r.1 ≤ n && n < r.2

end Sundial.Text

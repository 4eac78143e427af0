/-!
# Ranges of code points

A class of characters is given by the ranges of their code points.
-/

namespace Overlay.Text

/-- Whether a code point lies in one of the ranges, each given by its first and last
code point. -/
def inRanges (ranges : List (Nat × Nat)) (code : Nat) : Bool :=
  ranges.any fun range => range.1 ≤ code && code ≤ range.2

end Overlay.Text

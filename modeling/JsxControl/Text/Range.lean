/-!
# Ranges of code points

Sets of characters given as lists of inclusive ranges of code points.
-/

namespace JsxControl.Text

/-- Whether the code point of `c` lies in one of the inclusive ranges. -/
def inRanges (ranges : List (Nat × Nat)) (c : Char) : Bool :=
  ranges.any fun range => range.1 ≤ c.toNat && c.toNat ≤ range.2

end JsxControl.Text

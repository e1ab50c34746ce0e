/-!
# Sets of characters given by ranges

A property of characters that a standard lists as code point ranges is kept here as such a list.

Main definitions:

* `ImportAtlas.Text.inRanges` — whether a character lies in one of the ranges.
-/

set_option autoImplicit false

namespace ImportAtlas.Text

/-- Whether the code point of `c` lies in one of the closed ranges. -/
def inRanges (ranges : List (Nat × Nat)) (c : Char) : Bool :=
  ranges.any fun r => r.1 ≤ c.toNat && c.toNat ≤ r.2

end ImportAtlas.Text

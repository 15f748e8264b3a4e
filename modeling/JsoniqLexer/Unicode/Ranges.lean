/-!
# Range tables of code points

A property of characters is a sorted list of inclusive ranges of code points. `inRanges` reads
such a table.
-/

set_option autoImplicit false

namespace JsoniqLexer.Unicode

/-- Inclusive ranges of code points, in ascending order. -/
abbrev RangeTable := List (Nat × Nat)

/-- The code point of `c` lies in one of the ranges of `table`. -/
def inRanges (table : RangeTable) (c : Char) : Bool :=
  table.any fun range => range.1 ≤ c.toNat && c.toNat ≤ range.2

end JsoniqLexer.Unicode

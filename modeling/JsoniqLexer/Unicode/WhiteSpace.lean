import JsoniqLexer.Unicode.Ranges

/-!
# White space

The twenty-five characters of the property White_Space, more than the ASCII blanks.
-/

set_option autoImplicit false

namespace JsoniqLexer.Unicode

/-- The ranges of White_Space. -/
def whiteSpaceRanges : RangeTable :=
  [ (0x9, 0xD), (0x20, 0x20), (0x85, 0x85), (0xA0, 0xA0), (0x1680, 0x1680), (0x2000, 0x200A),
    (0x2028, 0x2029), (0x202F, 0x202F), (0x205F, 0x205F), (0x3000, 0x3000) ]

/-- `c` is white space. -/
def isWhiteSpace (c : Char) : Bool := inRanges whiteSpaceRanges c

end JsoniqLexer.Unicode

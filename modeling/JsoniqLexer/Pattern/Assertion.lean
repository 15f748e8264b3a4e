/-!
# Assertions about a place in a text

An assertion takes up no characters. Whether it holds depends only on the character before the
place and the one after it, `none` standing for the ends of the text.
-/

set_option autoImplicit false

namespace JsoniqLexer.Pattern

/-- What an assertion asks of the word characters around a place. -/
inductive WordEdge where
  /-- A word character on exactly one side. -/
  | boundary
  /-- A word character on both sides or on neither. -/
  | noBoundary
  /-- A word starts here. -/
  | wordStart
  /-- A word ends here. -/
  | wordEnd
  /-- No word character before. -/
  | halfStart
  /-- No word character after. -/
  | halfEnd
deriving DecidableEq, Repr

/-- The alphabet that word characters are taken from. -/
inductive WordAlphabet where
  | ascii
  | unicode
deriving DecidableEq, Repr

/-- A condition on a place in a text. -/
inductive Assertion where
  | textStart
  | textEnd
  | lineStart
  | lineEnd
  /-- Start of a line where `\r\n` counts as one line break, and `\r` alone as one too. -/
  | crlfLineStart
  /-- End of a line where `\r\n` counts as one line break, and `\r` alone as one too. -/
  | crlfLineEnd
  | word (edge : WordEdge) (alphabet : WordAlphabet)
deriving DecidableEq, Repr

/-- An ASCII letter, an ASCII digit or the underscore. -/
def isAsciiWord (c : Char) : Bool := c.isAlphanum || c = '_'

/-- The edge condition, given whether there is a word character before and after. -/
def WordEdge.holds (edge : WordEdge) (before after : Bool) : Bool :=
  match edge with
  | .boundary => before != after
  | .noBoundary => before == after
  | .wordStart => !before && after
  | .wordEnd => before && !after
  | .halfStart => !before
  | .halfEnd => !after

/-- The assertion holds between `before` and `after`. Word characters are the ASCII ones: an
assertion over all of Unicode is refused before anything is matched. -/
def Assertion.holds (a : Assertion) (before after : Option Char) : Bool :=
  match a with
  | .textStart => before.isNone
  | .textEnd => after.isNone
  | .lineStart => before.isNone || before = some '\n'
  | .lineEnd => after.isNone || after = some '\n'
  | .crlfLineStart =>
      before.isNone || before = some '\n' || (before = some '\r' && after != some '\n')
  | .crlfLineEnd =>
      after.isNone || after = some '\r' || (after = some '\n' && before != some '\r')
  | .word edge _ => edge.holds (before.any isAsciiWord) (after.any isAsciiWord)

end JsoniqLexer.Pattern

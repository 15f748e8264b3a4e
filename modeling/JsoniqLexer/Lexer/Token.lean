import JsoniqLexer.Category
import JsoniqLexer.Text.Utf8

/-!
# Tokens

A token is a category and a piece of the source, with the byte offsets of its two ends.
-/

set_option autoImplicit false

namespace JsoniqLexer

/-- A classified piece of the source. -/
structure Token where
  category : Category
  lexeme : Text
  start : Nat
  stop : Nat
deriving DecidableEq, Repr

namespace Token

/-- The token for a lexeme that starts at `start`. -/
def ofLexeme (category : Category) (lexeme : Text) (start : Nat) : Token :=
  ⟨category, lexeme, start, start + lexeme.byteLength⟩

/-- The number of bytes between the ends. -/
def length (t : Token) : Nat := t.stop - t.start

/-- The ends coincide. -/
def isEmpty (t : Token) : Bool := t.start = t.stop

/-- The token for the piece of the source between two offsets, if there is one. -/
def ofSlice? (source : Text) (category : Category) (start stop : Nat) : Option Token :=
  (source.slice? start stop).map fun lexeme => ofLexeme category lexeme start

end Token

end JsoniqLexer

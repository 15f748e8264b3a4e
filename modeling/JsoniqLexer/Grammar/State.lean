/-!
# Lexer states

A state selects the rules that apply: outside of everything, inside a comment, or inside a string.
-/

set_option autoImplicit false

namespace JsoniqLexer

/-- The construct that the lexer is inside of. -/
inductive State where
  | root
  /-- Inside `(: … :)`; comments nest, one frame per level. -/
  | comment
  | doubleQuoted
  | singleQuoted
deriving DecidableEq, Repr

namespace State

/-- The states in declaration order. -/
def all : List State := [root, comment, doubleQuoted, singleQuoted]

/-- The name of a state in messages. -/
def name : State → String
  | root => "root"
  | comment => "comment"
  | doubleQuoted => "double-quoted string"
  | singleQuoted => "single-quoted string"

/-- The name of a state in data. -/
def label : State → String
  | root => "Root"
  | comment => "Comment"
  | doubleQuoted => "DoubleQuotedString"
  | singleQuoted => "SingleQuotedString"

theorem mem_all (s : State) : s ∈ all := by cases s <;> decide

end State

end JsoniqLexer

import JsoniqLexer.Text.Utf8

/-!
# Lines and columns

A position is a line and a column, both counted from one; columns count characters. `Position.ofOffset?`
walks the text before a byte offset, one character at a time: a newline opens the next line, any
other character moves one column on.
-/

set_option autoImplicit false

namespace JsoniqLexer

/-- A place in a text, counted from line one, column one. -/
structure Position where
  line : Nat
  column : Nat
deriving DecidableEq, Repr

namespace Position

/-- The place before the first character. -/
def start : Position := ⟨1, 1⟩

/-- The place after `c`, from the place before it. -/
def advance (p : Position) (c : Char) : Position :=
  if c = '\n' then ⟨p.line + 1, 1⟩ else ⟨p.line, p.column + 1⟩

/-- The place after a whole text. -/
def after (text : Text) : Position := text.foldl advance start

/-- The place at a byte offset; `none` inside a character and past the end. -/
def ofOffset? (source : Text) (offset : Nat) : Option Position :=
  (source.splitAt? offset).map fun halves => after halves.1

/-- The form `line:column`. -/
def render (p : Position) : String := s!"{p.line}:{p.column}"

@[simp] theorem after_nil : after [] = start := rfl

theorem after_append (s t : Text) : after (s ++ t) = t.foldl advance (after s) := by
  simp [after, List.foldl_append]

end Position

end JsoniqLexer

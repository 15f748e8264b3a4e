import JsoniqLexer.Lexer.Token

/-!
# Terminal colors

A palette has a code for each of three colors and one that resets. A token is written between the
code of its color and the reset code; where its category has no color, or the palette no code for
it, the lexeme is written alone.
-/

set_option autoImplicit false

namespace JsoniqLexer.Ansi

/-- Escape codes of the colors. -/
structure Palette where
  blue : Text
  green : Text
  dim : Text
  reset : Text
deriving DecidableEq, Repr

/-- The colors that categories have. -/
inductive Color where
  | blue
  | green
  | dim
deriving DecidableEq, Repr

/-- The color of a category: words that mean something are blue, literals green, comments and
punctuation dim. -/
def Color.of? : Category → Option Color
  | .keyword | .builtin | .functionName => some .blue
  | .stringDouble | .stringSingle | .floatNumber | .integerNumber => some .green
  | .comment | .punctuation | .predicateOpen => some .dim
  | .whitespace | .contextItem | .variableName | .identifier | .operator | .error => none

namespace Palette

/-- The standard codes. -/
def on : Palette where
  blue := "\x1b[34m".toList
  green := "\x1b[32m".toList
  dim := "\x1b[2m".toList
  reset := "\x1b[0m".toList

/-- No codes at all. -/
def off : Palette := ⟨[], [], [], []⟩

/-- The standard codes if colors are wanted. -/
def ofEnabled (enabled : Bool) : Palette := if enabled then on else off

/-- The palette colors something. -/
def isEnabled (p : Palette) : Bool := !p.blue.isEmpty

/-- The code of a color. -/
def code (p : Palette) : Color → Text
  | .blue => p.blue
  | .green => p.green
  | .dim => p.dim

/-- The code of a category, empty for one without a color. -/
def codeOf (p : Palette) (category : Category) : Text :=
  match Color.of? category with
  | some color => p.code color
  | none => []

end Palette

/-- A token in its color. -/
def renderToken (p : Palette) (t : Token) : Text :=
  let code := p.codeOf t.category
  if code = [] then t.lexeme else code ++ t.lexeme ++ p.reset

/-- The tokens in their colors. -/
def render (tokens : List Token) (p : Palette) : Text := tokens.flatMap (renderToken p)

end JsoniqLexer.Ansi

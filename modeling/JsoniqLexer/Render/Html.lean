import JsoniqLexer.Lexer.Token

/-!
# Highlighted markup

Each token becomes a `span` of its category's class, whitespace stays bare, and a token that spans
lines is split at its line breaks, so that every line of the output opens and closes its own spans.
Lines can be numbered; a line gets its number when something, or its line break, is first written on
it.
-/

set_option autoImplicit false

namespace JsoniqLexer.Html

/-- How tokens are written as markup. -/
structure Config where
  /-- The output is enclosed in `pre` and `code`. -/
  wrap : Bool := true
  /-- The class of the `pre`. -/
  cssClass : Text := "highlight".toList
  /-- Every line begins with its number. -/
  lineNumbers : Bool := false
deriving DecidableEq, Repr

/-- A character as it stands in text and in attributes. -/
def escapeChar (c : Char) : Text :=
  match c with
  | '&' => "&amp;".toList
  | '<' => "&lt;".toList
  | '>' => "&gt;".toList
  | '"' => "&quot;".toList
  | '\'' => "&#39;".toList
  | c => [c]

/-- A text as it stands in text and in attributes. -/
def escape (text : Text) : Text := text.flatMap escapeChar

/-- The number at the beginning of a line. -/
def gutter (line : Nat) : Text :=
  "<span class=\"lineno\">".toList ++ Nat.toDigits 10 line ++ "</span>".toList

/-- A text in a span of a class. -/
def spanOf (cssClass : Text) (text : Text) : Text :=
  "<span class=\"".toList ++ cssClass ++ "\">".toList ++ escape text ++ "</span>".toList

/-- A piece of a token without line breaks. -/
def piece (category : Category) (text : Text) : Text :=
  if category = .whitespace then escape text else spanOf category.cssClass.toList text

/-- How many lines have been begun, and whether nothing has been written since the last line
break. -/
structure Margin where
  line : Nat
  atLineStart : Bool
deriving DecidableEq, Repr

/-- Before anything has been written. -/
def Margin.start : Margin := ⟨0, true⟩

/-- Begins a line if nothing has been written on it, with its number if lines are numbered. -/
def Margin.enter (m : Margin) (numbered : Bool) : Text × Margin :=
  if m.atLineStart then
    (if numbered then gutter (m.line + 1) else [], ⟨m.line + 1, false⟩)
  else ([], m)

/-- The parts of a text between its line breaks; there is always one more than there are breaks. -/
def splitLines : Text → List Text
  | [] => [[]]
  | c :: rest =>
      if c = '\n' then [] :: splitLines rest
      else
        match splitLines rest with
        | [] => [[c]]
        | line :: lines => (c :: line) :: lines

/-- Writes a part of a token, nothing if it is empty. -/
def writePart (numbered : Bool) (category : Category) (text : Text) (m : Margin) : Text × Margin :=
  if text = [] then ([], m)
  else
    let (number, m) := m.enter numbered
    (number ++ piece category text, m)

/-- Writes a line break. -/
def writeBreak (numbered : Bool) (m : Margin) : Text × Margin :=
  let (number, m) := m.enter numbered
  (number ++ ['\n'], { m with atLineStart := true })

/-- Writes the parts of a token with line breaks between them. -/
def writeParts (numbered : Bool) (category : Category) : List Text → Margin → Text × Margin
  | [], m => ([], m)
  | [text], m => writePart numbered category text m
  | text :: others, m =>
      let (part, m) := writePart numbered category text m
      let (lineBreak, m) := writeBreak numbered m
      let (rest, m) := writeParts numbered category others m
      (part ++ lineBreak ++ rest, m)

/-- Writes tokens one after the other. -/
def writeTokens (numbered : Bool) : List Token → Margin → Text × Margin
  | [], m => ([], m)
  | t :: ts, m =>
      let (first, m) := writeParts numbered t.category (splitLines t.lexeme) m
      let (rest, m) := writeTokens numbered ts m
      (first ++ rest, m)

/-- The tokens as markup. -/
def render (tokens : List Token) (config : Config) : Text :=
  let body := (writeTokens config.lineNumbers tokens .start).1
  if config.wrap then
    "<pre class=\"".toList ++ escape config.cssClass ++ "\"><code>".toList ++ body ++
      "</code></pre>".toList
  else body

end JsoniqLexer.Html

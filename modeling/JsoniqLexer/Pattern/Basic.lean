import JsoniqLexer.Pattern.Program
import JsoniqLexer.Pattern.Reader

/-!
# Patterns

A pattern is a text with the program that it stands for. Matching is anchored: `matchLength?` gives
the length of the preferred match at the start of a text, and nothing is found anywhere else.
`of_matchLength?` says that this length is the length of a beginning of the text.
-/

set_option autoImplicit false

namespace JsoniqLexer

namespace Pattern

/-- Why a text is not a pattern. -/
inductive PatternError where
  /-- It does not follow the syntax of patterns. -/
  | malformed
  /-- It asserts something about Unicode word characters, which programs cannot decide. -/
  | unicodeWords
deriving DecidableEq, Repr

/-- The wording of a cause. -/
def PatternError.message : PatternError → String
  | .malformed => "error building NFA"
  | .unicodeWords =>
      "unsupported regex feature for DFAs: cannot build DFAs for regexes with Unicode word " ++
      "boundaries; switch to ASCII word boundaries, or heuristically enable Unicode word " ++
      "boundaries or use a different regex engine"

end Pattern

open Pattern (PatternError)

/-- A pattern: its text and its program. -/
structure Pattern where
  source : Text
  program : Pattern.Block
deriving DecidableEq, Repr

namespace Pattern

/-- A way to make patterns of texts. -/
abbrev Compiler := Text → Except PatternError Pattern

/-- The pattern that a text stands for, given the named classes. -/
def Classes.compile (classes : Classes) : Compiler := fun source =>
  match classes.parse? source with
  | none => .error .malformed
  | some e =>
      if e.usesUnicodeWords then .error .unicodeWords else .ok ⟨source, e.expand.program⟩

/-- The pattern that a text stands for. -/
def compile : Compiler := Classes.unicode.compile

/-- A text with its punctuation escaped, so that as a pattern it stands for itself. -/
def escape (text : Text) : Text :=
  text.flatMap fun c => if Escape.isMeta c then ['\\', c] else [c]

/-- The pattern that matches a text and nothing else. -/
def literal (text : Text) (compiler : Compiler := compile) : Except PatternError Pattern :=
  compiler (escape text)

/-- The length in bytes of the match at the start of `text`; zero for an empty match. -/
def matchLength? (p : Pattern) (text : Text) : Option Nat := p.program.matchLength? text

/-- The pattern matches at the start of `text`. -/
def isMatch (p : Pattern) (text : Text) : Bool := (p.matchLength? text).isSome

/-- The pattern matches the empty text. -/
def matchesEmpty (p : Pattern) : Bool := p.matchLength? [] = some 0

/-- A match is as long as some beginning of the text. -/
theorem of_matchLength? {p : Pattern} {text : Text} {n : Nat} (h : p.matchLength? text = some n) :
    ∃ read rest, text = read ++ rest ∧ read.byteLength = n :=
  Block.of_matchLength? h

end Pattern

end JsoniqLexer

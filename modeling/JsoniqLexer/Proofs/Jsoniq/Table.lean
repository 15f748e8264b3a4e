import JsoniqLexer.Proofs.Grammar.Build
import JsoniqLexer.Proofs.Pattern.Extent

/-!
# The JSONiq table in regular expressions

The rules of the JSONiq grammar, written with the regular expressions that their patterns stand for
instead of their programs. A `Form` carries the proof that its source reads as its expression, that
the expression asserts nothing and that its program is deterministic; a `Line` carries the proof that
its lookahead cannot begin with a character of the lexeme before it. The two kinds of strings differ
only in their mark, which is a parameter (`Quote`).

`jsoniq_eq` says that the grammar is the one that these lines make up, and `rules_eq` that they are
its rules.
-/

set_option autoImplicit false

namespace JsoniqLexer.Jsoniq

open Pattern

/-- The source of a pattern, with the regular expression that it stands for. -/
structure Form where
  source : Text
  regex : Regex
  reads : (parse? source).map Expr.expand = some regex := by decide +kernel
  plain : regex.isPlain = true := by decide +kernel
  deterministic : regex.program.isDeterministic = true := by decide +kernel

namespace Form

/-- The pattern with this source. -/
def pattern (f : Form) : Pattern := ⟨f.source, f.regex.program⟩

/-- The language of the pattern is the language of the regular expression. -/
theorem matches_pattern_iff (f : Form) {x : Text} :
    f.pattern.Matches x ↔ f.regex.Matches none x [] := by
  obtain ⟨e, he, hexpand⟩ := Option.map_eq_some_iff.1 f.reads
  constructor
  · rintro ⟨e', he', hx⟩
    obtain rfl : e = e' := Option.some.inj (he.symm.trans he')
    rwa [← hexpand, Expr.matches_expand]
  · intro hx
    rw [← hexpand, Expr.matches_expand] at hx
    exact ⟨e, he, hx⟩

/-- What the regular expression matches does not depend on the surroundings. -/
theorem matches_iff (f : Form) {before : Option Char} {x rest : Text} :
    f.regex.Matches before x rest ↔ f.pattern.Matches x := by
  rw [matches_pattern_iff]
  constructor
  · exact fun hx => Regex.isPlain_matches f.plain hx
  · exact fun hx => Regex.isPlain_matches f.plain hx

/-- No text begins with a character of the other form and matches this one. -/
def isFencedFrom (f other : Form) : Bool :=
  !f.regex.isNullable && other.regex.letters.isDisjoint f.regex.firsts

end Form

/-- A rule, its patterns given as forms. -/
structure Line where
  form : Form
  lookahead : Option Form
  action : Action
  fenced : (lookahead.all fun f => f.isFencedFrom form) = true := by decide +kernel

namespace Line

/-- A line without a lookahead. -/
def plain (form : Form) (action : Action) : Line := ⟨form, none, action, rfl⟩

/-- The rule of a line. -/
def rule (line : Line) : Rule :=
  ⟨line.form.pattern, line.lookahead.map Form.pattern, line.action⟩

end Line

/-! ## Sets of characters -/

def blank : CharSet := .ofRanges [('\t', '\r'), (' ', ' ')]

def digit : CharSet := .range '0' '9'

def letter : CharSet := .ofRanges [('A', 'Z'), ('a', 'z')]

/-- What a variable and a plain word begin with. -/
def wordFirst : CharSet := letter.union (.single '_')

/-- What a variable goes on with. -/
def variableRest : CharSet := wordFirst.union digit

/-- What a plain word and each half of a name with a namespace go on with. -/
def wordRest : CharSet := variableRest.union (.single '-')

/-- The characters that comment marks are made of. -/
def commentMark : CharSet := ((CharSet.single '(').union (.single ')')).union (.single ':')

def punctuationMark : CharSet :=
  .ofRanges [('.', '.'), (',', ','), (';', ';'), ('!', '!'), ('?', '@'), ('#', '#'), ('[', '['),
    (']', ']'), ('(', ')'), ('\x7b', '\x7b'), ('\x7d', '\x7d')]

def operatorMark : CharSet :=
  .ofRanges [(':', ':'), ('*', '+'), ('-', '-'), ('/', '/'), ('<', '>'), ('|', '|')]

/-! ## Expressions -/

/-- Any number of characters of a set. -/
def many (set : CharSet) : Regex := .star (.char set) true

/-- One or more characters of a set. -/
def some1 (set : CharSet) : Regex := .plus (.char set) true

/-- The expression or nothing. -/
def maybe (r : Regex) : Regex := .seq .empty (.optional r true)

/-- An exponent after its mark. -/
def exponent : Regex :=
  .seq (maybe (.char (.ofRanges [('+', '+'), ('-', '-')]))) (some1 digit)

def exponentMark : Regex := .char (.ofRanges [('e', 'e'), ('E', 'E')])

/-- Digits after a point, or none, and an exponent or none. -/
def fraction (digits : Regex) : Regex := .seq digits (maybe (.seq exponentMark exponent))

def point : Regex := .char (.single '.')

/-! ## Forms -/

namespace Form

/-- The form of a text that stands for itself. -/
def fixed (text : Text)
    (reads : (parse? (escape text)).map Expr.expand = some (.ofText text) := by decide +kernel)
    (plain : (Regex.ofText text).isPlain = true := by decide +kernel)
    (deterministic : (Regex.ofText text).program.isDeterministic = true := by decide +kernel) :
    Form :=
  ⟨escape text, .ofText text, reads, plain, deterministic⟩

def blanks : Form where
  source := whitespace
  regex := some1 blank

def variableName : Form where
  source := "\\$[a-zA-Z_][a-zA-Z0-9_]*".toList
  regex := .seq (.char (.single '$')) (.seq (.char wordFirst) (many variableRest))

/-- A name with a namespace. -/
def qualifiedName : Form where
  source := "[a-zA-Z][a-zA-Z0-9_\\-]*:[a-zA-Z][a-zA-Z0-9_\\-]*".toList
  regex :=
    .seq (.char letter) (.seq (many wordRest)
      (.seq (.char (.single ':')) (.seq (.char letter) (many wordRest))))

/-- What follows the name of a function that is called. -/
def openingBracket : Form where
  source := "[ \\t\\n\\r\\f\\v]*\\(".toList
  regex := .seq (many blank) (.char (.single '('))

def floatWithDigits : Form where
  source := "[0-9]+\\.[0-9]*(?:[eE][+\\-]?[0-9]+)?".toList
  regex := .seq (some1 digit) (.seq point (fraction (many digit)))

def floatWithoutDigits : Form where
  source := "\\.[0-9]+(?:[eE][+\\-]?[0-9]+)?".toList
  regex := .seq point (fraction (some1 digit))

def floatWithoutPoint : Form where
  source := "[0-9]+[eE][+\\-]?[0-9]+".toList
  regex := .seq (some1 digit) (.seq exponentMark exponent)

def integer : Form where
  source := "[0-9]+".toList
  regex := some1 digit

def word : Form where
  source := "[a-zA-Z_][a-zA-Z0-9_\\-]*".toList
  regex := .seq (.char wordFirst) (many wordRest)

def punctuation : Form where
  source := "[.,;!?@#\\[\\]()\x7b\x7d]".toList
  regex := .char punctuationMark

def operator : Form where
  source := "[:+\\-*/=<>|]".toList
  regex := .char operatorMark

def commentText : Form where
  source := "[^(:)]+".toList
  regex := some1 commentMark.compl

def commentBracket : Form where
  source := "[(:)]".toList
  regex := .char commentMark

def anything : Form where
  source := anyChar
  regex := .char .all

end Form

/-! ## Lines -/

/-- The two kinds of strings. -/
inductive Quote where
  | double
  | single
deriving DecidableEq, Repr

namespace Quote

/-- The character at both ends of a string. -/
def mark : Quote → Char
  | double => '"'
  | single => '\''

def state : Quote → State
  | double => .doubleQuoted
  | single => .singleQuoted

def category : Quote → Category
  | double => .stringDouble
  | single => .stringSingle

/-- The form of everything up to the next mark. -/
def body (q : Quote) : Form where
  source := ['[', '^', q.mark, ']', '+']
  regex := some1 (CharSet.single q.mark).compl
  reads := by cases q <;> decide +kernel
  plain := rfl
  deterministic := by cases q <;> decide +kernel

/-- The form of one mark, at either end. -/
def once (q : Quote) : Form :=
  .fixed [q.mark] (by cases q <;> decide +kernel) rfl (by cases q <;> decide +kernel)

/-- The form of a mark inside of a string, which is written twice. -/
def twice (q : Quote) : Form :=
  .fixed [q.mark, q.mark] (by cases q <;> decide +kernel) rfl (by cases q <;> decide +kernel)

/-- The line that enters a string. -/
def opening (q : Quote) : Line := .plain q.once (.push q.category q.state)

/-- The lines inside of a string. -/
def lines (q : Quote) : List Line :=
  [ .plain q.body (.plain q.category),
    .plain q.twice (.plain q.category),
    .plain q.once (.pop q.category),
    .plain .anything (.plain q.category) ]

end Quote

/-- The line that enters a comment, from outside or from another comment. -/
def commentOpening : Line := .plain (.fixed ['(', ':']) (.push .comment .comment)

/-- The line that leaves a comment. -/
def commentClosing : Line := .plain (.fixed [':', ')']) (.pop .comment)

/-- The lines outside of comments and strings. -/
def rootLines : List Line :=
  [ .plain .blanks (.plain .whitespace),
    commentOpening,
    Quote.double.opening,
    Quote.single.opening,
    .plain (.fixed ['[', '?']) (.plain .predicateOpen),
    .plain (.fixed ['$', '$']) (.plain .contextItem),
    .plain .variableName (.plain .variableName),
    { form := .qualifiedName, lookahead := some .openingBracket, action := .plain .functionName },
    .plain .floatWithDigits (.plain .floatNumber),
    .plain .floatWithoutDigits (.plain .floatNumber),
    .plain .floatWithoutPoint (.plain .floatNumber),
    .plain .integer (.plain .integerNumber),
    .plain .word .classified,
    .plain (.fixed [':', '=']) (.plain .operator),
    .plain (.fixed ['.', '.']) (.plain .operator),
    .plain .punctuation (.plain .punctuation),
    .plain .operator (.plain .operator),
    .plain .anything (.plain .error) ]

/-- The lines inside of a comment. -/
def commentLines : List Line :=
  [ .plain .commentText (.plain .comment),
    commentOpening,
    commentClosing,
    .plain .commentBracket (.plain .comment),
    .plain .anything (.plain .comment) ]

/-- The lines of a state, in order. -/
def lines : State → List Line
  | .root => rootLines
  | .comment => commentLines
  | .doubleQuoted => Quote.double.lines
  | .singleQuoted => Quote.single.lines

/-- The grammar that the lines are written for, without anything to be read or checked. -/
def lineGrammar : Grammar where
  table := State.all.flatMap fun state => (lines state).map fun line => (state, line.rule)
  classifier := ⟨keywords.map String.toList, builtins.map String.toList⟩

theorem build_classifier :
    Classifier.build builder.keywords builder.builtins = .ok lineGrammar.classifier := by
  decide +kernel

theorem checkAll_drafts :
    RuleDraft.checkAll Pattern.compile builder.drafts = .ok lineGrammar.table := by
  decide +kernel

/-- The grammar is the grammar of the lines. What runs on fixed texts is computed with these: the
grammar itself would be built again each time. -/
theorem jsoniq_eq : Grammar.jsoniq = lineGrammar :=
  GrammarBuilder.eq_of_build Grammar.build_builder build_classifier checkAll_drafts

example : (lineGrammar.select .root "$a-1".toList).map Selection.length = some 2 := by
  decide +kernel

/-- The lines are the rules of the grammar. -/
theorem rules_eq (state : State) : Grammar.jsoniq.rules state = (lines state).map Line.rule := by
  rw [jsoniq_eq]
  cases state <;> rfl

end JsoniqLexer.Jsoniq

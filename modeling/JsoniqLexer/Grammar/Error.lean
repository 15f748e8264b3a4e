import JsoniqLexer.Grammar.State
import JsoniqLexer.Pattern.Basic

/-!
# Errors in the definition of a grammar
-/

set_option autoImplicit false

namespace JsoniqLexer

/-- One of the two word sets. -/
inductive WordSet where
  | keywords
  | builtins
deriving DecidableEq, Repr

/-- The name of a word set in messages. -/
def WordSet.name : WordSet → String
  | .keywords => "keyword"
  | .builtins => "builtin"

/-- Why a grammar cannot be built. -/
inductive GrammarError where
  /-- A text is not a pattern. -/
  | invalidPattern (source : Text) (cause : Pattern.PatternError)
  /-- A rule would match the empty text. -/
  | emptyMatch (source : Text)
  /-- A state that the lexer can be in has no rules. -/
  | noRules (state : State)
  /-- A rule of the root state leaves it. -/
  | popInRoot (source : Text)
  /-- A word set holds the empty word. -/
  | emptyWord (set : WordSet)
  /-- A word is in both sets. -/
  | overlappingWord (word : Text)
deriving DecidableEq, Repr

/-- The wording of an error. -/
def GrammarError.message : GrammarError → String
  | .invalidPattern source cause =>
      "invalid pattern \x60" ++ String.ofList source ++ "\x60: " ++ cause.message
  | .emptyMatch source => "pattern \x60" ++ String.ofList source ++ "\x60 matches the empty string"
  | .noRules state => state.name ++ " state has no rules"
  | .popInRoot source => "pop rule \x60" ++ String.ofList source ++ "\x60 in the root state"
  | .emptyWord set => "empty word in the " ++ set.name ++ " set"
  | .overlappingWord word =>
      "\x60" ++ String.ofList word ++ "\x60 is both a keyword and a builtin"

end JsoniqLexer

import JsoniqLexer.Grammar.Jsoniq
import JsoniqLexer.Lexer.Coalescer
import JsoniqLexer.Text.Position

/-!
# Tokens of a JSONiq text

`tokenize` gives the tokens of a text with neighbours of one category merged. `Scan.of` gives the
same tokens, or the unmerged ones, and says in addition whether the text ends inside a comment or a
string.
-/

set_option autoImplicit false

namespace JsoniqLexer

/-- The tokens of a JSONiq text, neighbours of one category merged. -/
def tokenize (source : Text) : Except Fault (List Token) :=
  (TokenStream.drain (Grammar.jsoniq.lex source).coalesce).result

/-- The tokens of a text and how the text ends. -/
structure Scan where
  tokens : List Token
  termination : Termination
deriving DecidableEq, Repr

/-- Scans a JSONiq text to its end; unless `raw`, neighbours of one category are merged
afterwards. -/
def Scan.of (source : Text) (raw : Bool) : Except Fault Scan :=
  let steps := TokenStream.drain (Grammar.jsoniq.lex source)
  match steps.result with
  | .error f => .error f
  | .ok tokens =>
      if raw then .ok ⟨tokens, steps.rest.termination⟩
      else
        match (TokenStream.drain (Coalescer.start source tokens)).result with
        | .error f => .error f
        | .ok merged => .ok ⟨merged, steps.rest.termination⟩

/-- What to say about a text that ends inside a comment or a string: which one is open, and the line
and column where it was opened. -/
def Termination.warning? (source : Text) : Termination → Except Fault (Option String)
  | .complete => .ok none
  | .unterminated state openedAt =>
      match Position.ofOffset? source openedAt with
      | none => .error .badSlice
      | some p => .ok (some ("unterminated " ++ state.name ++ " opened at " ++ p.render))

end JsoniqLexer

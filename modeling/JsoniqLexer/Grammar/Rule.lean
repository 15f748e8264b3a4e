import JsoniqLexer.Category
import JsoniqLexer.Grammar.State
import JsoniqLexer.Pattern.Basic

/-!
# Lexer rules

A rule says what a lexeme looks like, what may follow it, and what happens when it is found.
`matchLength?` gives the length of the lexeme; an empty match does not count.
-/

set_option autoImplicit false

namespace JsoniqLexer

/-- What a rule does with its lexeme. -/
inductive Action where
  /-- Emits a fixed category. -/
  | plain (category : Category)
  /-- Emits the category of the word. -/
  | classified
  /-- Emits a category and enters a state. -/
  | push (category : Category) (target : State)
  /-- Emits a category and goes back to the enclosing state. -/
  | pop (category : Category)
deriving DecidableEq, Repr

/-- The state that an action enters. -/
def Action.target? : Action → Option State
  | .push _ target => some target
  | _ => none

/-- The action leaves the current state. -/
def Action.isPop : Action → Bool
  | .pop _ => true
  | _ => false

/-- A rule of a state. -/
structure Rule where
  pattern : Pattern
  /-- What has to follow the lexeme, without being part of it. -/
  lookahead : Option Pattern
  action : Action
deriving DecidableEq, Repr

namespace Rule

/-- The text after the lexeme is as the rule wants it. -/
def allowsAfter (rule : Rule) (rest : Text) : Bool :=
  match rule.lookahead with
  | none => true
  | some lookahead => lookahead.isMatch rest

/-- The length in bytes of the lexeme at the start of `text`. -/
def matchLength? (rule : Rule) (text : Text) : Option Nat :=
  match rule.pattern.matchLength? text with
  | none => none
  | some length =>
      if length = 0 then none
      else
        match text.splitAt? length with
        | none => none
        | some (_, rest) => if rule.allowsAfter rest then some length else none

/-- A lexeme is a beginning of the text that is not empty. -/
theorem of_matchLength? {rule : Rule} {text : Text} {n : Nat}
    (h : rule.matchLength? text = some n) :
    ∃ lexeme rest, text = lexeme ++ rest ∧ lexeme ≠ [] ∧ lexeme.byteLength = n := by
  simp only [matchLength?] at h
  split at h
  · cases h
  · next length hlength =>
    split at h
    · cases h
    · next hzero =>
      split at h
      · cases h
      · next lexeme rest hsplit =>
        split at h
        · obtain rfl := Option.some.inj h
          obtain ⟨htext, hbytes⟩ := Text.of_splitAt? hsplit
          refine ⟨lexeme, rest, htext, ?_, hbytes⟩
          rintro rfl
          exact hzero hbytes.symm
        · cases h

end Rule

end JsoniqLexer

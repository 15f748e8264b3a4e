import JsoniqLexer.Grammar.State

/-!
# Faults of a scan

A fault is a broken promise of the program, not a property of the text that is scanned.
-/

set_option autoImplicit false

namespace JsoniqLexer

/-- What can go wrong in a scan. -/
inductive Fault where
  /-- A cursor was told to move by nothing. -/
  | zeroWidth (offset : Nat)
  /-- A cursor was told to move to an offset that is too large to be counted. -/
  | uncountable
  /-- A cursor was told to move past the end. -/
  | pastEnd (offset width size : Nat)
  /-- A cursor was told to stop inside a character. -/
  | insideCharacter (target : Nat)
  /-- No rule of the state matches. -/
  | noRule (state : State) (offset : Nat)
  /-- A piece of the source was asked for that does not exist. -/
  | badSlice
deriving DecidableEq, Repr

/-- The wording of a fault, where it has one. -/
def Fault.message? : Fault → Option String
  | .zeroWidth offset => some s!"Cursor: zero-width advance at offset {offset}"
  | .pastEnd offset width size =>
      some <| s!"Cursor: advance by {width} from offset {offset} goes past end of input " ++
        s!"({size} bytes)"
  | .insideCharacter target => some s!"Cursor: offset {target} is not on a character boundary"
  | .noRule state offset =>
      some <| "Lexer: no rule matched in " ++ state.name ++ s!" state at offset {offset} " ++
        "(every state must end with a one-character catch-all rule)"
  | .uncountable | .badSlice => none

end JsoniqLexer

import JsoniqLexer.Grammar.Basic
import JsoniqLexer.Lexer.Cursor
import JsoniqLexer.Lexer.Stream

/-!
# The lexer

A lexer is a grammar, a place in a source, and a stack of open constructs that is never empty. One
`step` applies the first rule of the current state that matches: it emits a token, enters or leaves
a construct, and moves on. As a stream of tokens a lexer never gives more tokens than characters are
left.
-/

set_option autoImplicit false

namespace JsoniqLexer

/-- An open construct, and the offset where it was opened. -/
structure Frame where
  state : State
  openedAt : Nat
deriving DecidableEq, Repr

/-- How a scan ended, or how it would end here. -/
inductive Termination where
  /-- Nothing is open. -/
  | complete
  /-- The outermost open construct, and where it was opened. -/
  | unterminated (state : State) (openedAt : Nat)
deriving DecidableEq, Repr

/-- A scan of one source. -/
structure Lexer where
  grammar : Grammar
  cursor : Cursor
  /-- The innermost open construct. -/
  top : Frame
  /-- The constructs around it, innermost first. -/
  below : List Frame

namespace Lexer

/-- A scan from the beginning, in the root state. -/
def start (g : Grammar) (source : Text) : Lexer := ⟨g, .start source, ⟨.root, 0⟩, []⟩

/-- The current state. -/
def state (l : Lexer) : State := l.top.state

/-- The open constructs, outermost first; the first is the root. -/
def frames (l : Lexer) : List Frame := (l.top :: l.below).reverse

/-- The number of open constructs, the root included. -/
def depth (l : Lexer) : Nat := l.below.length + 1

/-- The byte offset of the next token. -/
def position (l : Lexer) : Nat := l.cursor.position

/-- Nothing is left to read. -/
def isFinished (l : Lexer) : Bool := l.cursor.isAtEnd

/-- Whether every construct opened so far has been closed; if not, the outermost open one, which is
the second frame. -/
def termination (l : Lexer) : Termination :=
  match l.frames[1]? with
  | none => .complete
  | some frame => .unterminated frame.state frame.openedAt

/-- Bounds on the number of tokens still to come. -/
def sizeHint (l : Lexer) : Nat × Nat :=
  (if l.cursor.isAtEnd then 0 else 1, l.cursor.remaining.byteLength)

/-- Enters or leaves a construct. The root is never left. -/
def transition (l : Lexer) (action : Action) : Lexer :=
  match action with
  | .push _ target => { l with top := ⟨target, l.position⟩, below := l.top :: l.below }
  | .pop _ =>
      match l.below with
      | [] => l
      | frame :: below => { l with top := frame, below }
  | .plain _ | .classified => l

/-- Applies the first rule of the current state that matches. -/
def step (l : Lexer) : Pull × Lexer :=
  if l.isFinished then (.ok none, l)
  else
    match l.grammar.select l.state l.cursor.remaining with
    | none => (.error (.noRule l.state l.position), l)
    | some selected =>
        let entered := l.transition selected.rule.action
        match l.cursor.advance selected.length with
        | .error f => (.error f, entered)
        | .ok (lexeme, cursor) =>
            let category := l.grammar.categoryOf selected.rule.action lexeme
            (.ok (some (.ofLexeme category lexeme l.position)), { entered with cursor })

/-- Every token is at least one character long. -/
theorem length_lt_of_step {l next : Lexer} {t : Token} (h : l.step = (.ok (some t), next)) :
    next.cursor.remaining.length < l.cursor.remaining.length := by
  rw [step] at h
  split at h
  · cases h
  · split at h
    · cases h
    · next selected hselect =>
      simp only at h
      split at h
      · cases h
      · next lexeme cursor hadvance =>
        simp only [Prod.mk.injEq] at h
        rw [← h.2]
        exact Cursor.length_lt_of_advance hadvance

@[simp] theorem transition_cursor (l : Lexer) (action : Action) :
    (l.transition action).cursor = l.cursor := by
  cases action with
  | plain category => rfl
  | classified => rfl
  | push category target => rfl
  | pop category =>
      rw [transition]
      split <;> rfl

/-- No step gives back what has been read. -/
theorem length_le_of_step {l next : Lexer} {p : Pull} (h : l.step = (p, next)) :
    next.cursor.remaining.length ≤ l.cursor.remaining.length := by
  match p with
  | .ok (some t) => exact Nat.le_of_lt (length_lt_of_step h)
  | .ok none | .error f =>
      rw [step] at h
      split at h
      · cases h
        all_goals exact Nat.le_refl _
      · split at h
        · cases h
          all_goals exact Nat.le_refl _
        · simp only at h
          split at h
          · simp only [Prod.mk.injEq] at h
            exact Nat.le_of_eq (by rw [← h.2, transition_cursor])
          · cases h

instance : TokenStream Lexer where
  next := step
  supply l := l.cursor.remaining.length
  supply_le := length_le_of_step
  supply_lt := length_lt_of_step

end Lexer

/-- A scan of `source` from the beginning. -/
def Grammar.lex (g : Grammar) (source : Text) : Lexer := Lexer.start g source

end JsoniqLexer

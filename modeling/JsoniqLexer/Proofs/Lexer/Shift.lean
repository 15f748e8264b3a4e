import JsoniqLexer.Proofs.Lexer.Merge

/-!
# Lexers that differ by where they stand

What a lexer does depends on the states on its stack and on the text that is left, not on what it
has read. Lexers that agree in these are `Alike`, wherever they stand. A lexer that `Mirrors` another,
`d` bytes further on, gives the same tokens, `d` bytes further on; merging neighbours keeps that.
-/

set_option autoImplicit false

namespace JsoniqLexer

open TokenStream

namespace Token

/-- The token, further on by `d` bytes. -/
def shift (d : Nat) (t : Token) : Token := { t with start := t.start + d, stop := t.stop + d }

theorem ofLexeme_shift (d : Nat) (category : Category) (lexeme : Text) (start : Nat) :
    (ofLexeme category lexeme start).shift d = ofLexeme category lexeme (start + d) := by
  simp only [shift, ofLexeme, Nat.add_right_comm]

theorem merge_map_shift (d : Nat) (ts : List Token) :
    merge (ts.map (shift d)) = (merge ts).map (shift d) := by
  apply merge_map
  · intro t u
    rw [Bool.eq_iff_iff, continues_iff, continues_iff]
    simp only [shift, Nat.add_right_cancel_iff]
  · exact fun _ _ => rfl

end Token

namespace Lexer

/-- The states of the open constructs, the innermost first. -/
def states (l : Lexer) : List State := (l.top :: l.below).map Frame.state

/-- The lexers have the same grammar, the same text left and the same states on their stacks. -/
structure Alike (l m : Lexer) : Prop where
  grammar : m.grammar = l.grammar
  remaining : m.cursor.remaining = l.cursor.remaining
  states : m.states = l.states

theorem Alike.state_eq {l m : Lexer} (h : l.Alike m) : m.state = l.state :=
  (List.cons.inj h.states).1

/-- The states after a transition depend on the states before. -/
theorem states_transition {l m : Lexer} (h : m.states = l.states) (action : Action) :
    (m.transition action).states = (l.transition action).states := by
  cases action with
  | plain category => exact h
  | classified => exact h
  | push category target => exact congrArg (List.cons target) h
  | pop category =>
      -- both stacks hold a frame to go back to, or neither does
      obtain ⟨htop, hbelow⟩ := List.cons.inj h
      rw [transition, transition]
      cases hm : m.below with
      | nil =>
          rw [hm, List.map_nil] at hbelow
          rw [List.map_eq_nil_iff.1 hbelow.symm]
          exact h
      | cons frame below =>
          rw [hm] at hbelow
          obtain ⟨frame', below', hl, hframe, hrest⟩ := List.map_eq_cons_iff.1 hbelow.symm
          rw [hl]
          simp only [states, List.map_cons, hframe, hrest]

/-- Lexers that are alike go on over the same lexeme, and are alike after it. -/
theorem Alike.advances {l m next : Lexer} {s : Selection} {lexeme : Text} (h : l.Alike m)
    (hadvances : l.Advances s lexeme next) :
    ∃ next', m.Advances s lexeme next' ∧ next.Alike next' := by
  have hselect := hadvances.selected
  rw [← h.grammar, ← h.state_eq, ← h.remaining] at hselect
  obtain ⟨lexeme', next', hadvances'⟩ := exists_advances hselect
  -- the same rule takes the same number of bytes of the same text
  have htext : lexeme ++ next.cursor.remaining = lexeme' ++ next'.cursor.remaining := by
    rw [← hadvances.remaining, ← hadvances'.remaining, h.remaining]
  have hlength := hadvances.length.trans hadvances'.length.symm
  obtain ⟨rfl, hrest⟩ := Text.append_inj_of_byteLength htext hlength
  refine ⟨next', hadvances', ?_, hrest.symm, ?_⟩
  · rw [hadvances'.grammar, hadvances.grammar, h.grammar]
  · rw [Lexer.states, Lexer.states, hadvances'.top, hadvances'.below, hadvances.top,
      hadvances.below]
    exact states_transition h.states s.rule.action

/-- The second lexer has the same to read as the first, `d` bytes further on, and the same states on
its stack. -/
structure Mirrors (d : Nat) (l m : Lexer) : Prop where
  grammar : m.grammar = l.grammar
  remaining : m.cursor.remaining = l.cursor.remaining
  position : m.position = l.position + d
  states : m.states = l.states

theorem Mirrors.alike {d : Nat} {l m : Lexer} (h : l.Mirrors d m) : l.Alike m :=
  ⟨h.grammar, h.remaining, h.states⟩

theorem Mirrors.state_eq {d : Nat} {l m : Lexer} (h : l.Mirrors d m) : m.state = l.state :=
  h.alike.state_eq

/-- Lexers that mirror each other go on over the same lexeme. -/
theorem Mirrors.advances {d : Nat} {l m next : Lexer} {s : Selection} {lexeme : Text}
    (h : l.Mirrors d m) (hadvances : l.Advances s lexeme next) :
    ∃ next', m.Advances s lexeme next' ∧ next.Mirrors d next' := by
  obtain ⟨next', hadvances', halike⟩ := h.alike.advances hadvances
  refine ⟨next', hadvances', halike.grammar, halike.remaining, ?_, halike.states⟩
  rw [hadvances'.position, hadvances.position, h.position, Nat.add_right_comm]

theorem Mirrors.tokenFor {d : Nat} {l m : Lexer} (h : l.Mirrors d m) (s : Selection)
    (lexeme : Text) : m.tokenFor s lexeme = (l.tokenFor s lexeme).shift d := by
  rw [Lexer.tokenFor, Lexer.tokenFor, Token.ofLexeme_shift, h.grammar, h.position]

theorem Mirrors.step {d : Nat} {l m next : Lexer} {t : Token} (h : l.Mirrors d m)
    (hstep : l.step = (.ok (some t), next)) :
    ∃ next', m.step = (.ok (some (t.shift d)), next') ∧ next.Mirrors d next' := by
  obtain ⟨s, lexeme, hadvances, rfl⟩ := step_eq_token_iff.1 hstep
  obtain ⟨next', hadvances', hmirrors⟩ := h.advances hadvances
  have htoken := (h.tokenFor s lexeme).symm
  exact ⟨next', step_eq_token_iff.2 ⟨s, lexeme, hadvances', htoken⟩, hmirrors⟩

/-- Lexers that mirror each other give the same tokens, each at its place. -/
theorem Mirrors.yields {d : Nat} {l m l' : Lexer} {ts : List Token} (h : l.Mirrors d m)
    (hrun : Yields l ts l') :
    ∃ m', Yields m (ts.map (Token.shift d)) m' ∧ l'.Mirrors d m' :=
  hrun.exists_of_simulates Mirrors.step h

theorem Mirrors.ended {d : Nat} {l m : Lexer} (h : l.Mirrors d m) (hend : Ended l) : Ended m := by
  rw [ended_iff, h.remaining]
  exact ended_iff.1 hend

end Lexer

end JsoniqLexer

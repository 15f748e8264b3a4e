import JsoniqLexer.Lexer.Basic
import JsoniqLexer.Proofs.Lexer.Run

/-!
# What one step of a lexer does

A step emits a token, finds the end, or finds no rule; nothing else happens. `Advances` says all that
a step with a token does, so that no later proof has to open the step function.
-/

set_option autoImplicit false

namespace JsoniqLexer.Lexer

open TokenStream

/-- The lexer goes on to `next` over the lexeme of a selected rule. -/
structure Advances (l : Lexer) (s : Selection) (lexeme : Text) (next : Lexer) : Prop where
  selected : l.grammar.select l.state l.cursor.remaining = some s
  length : lexeme.byteLength = s.length
  remaining : l.cursor.remaining = lexeme ++ next.cursor.remaining
  position : next.position = l.position + lexeme.byteLength
  source : next.cursor.source = l.cursor.source
  grammar : next.grammar = l.grammar
  top : next.top = (l.transition s.rule.action).top
  below : next.below = (l.transition s.rule.action).below

/-- The token that a lexer emits for a lexeme of a selected rule. -/
def tokenFor (l : Lexer) (s : Selection) (lexeme : Text) : Token :=
  .ofLexeme (l.grammar.categoryOf s.rule.action lexeme) lexeme l.position

@[simp] theorem transition_grammar (l : Lexer) (action : Action) :
    (l.transition action).grammar = l.grammar := by
  cases action with
  | plain category => rfl
  | classified => rfl
  | push category target => rfl
  | pop category =>
      rw [transition]
      split <;> rfl

theorem isFinished_iff {l : Lexer} : l.isFinished = true ↔ l.cursor.remaining = [] := by
  rw [isFinished, Cursor.isAtEnd, List.isEmpty_iff]

theorem Advances.lexeme_ne_nil {l next : Lexer} {s : Selection} {lexeme : Text}
    (h : l.Advances s lexeme next) : lexeme ≠ [] := by
  obtain ⟨x, _, _, hne, hlength⟩ := Grammar.of_select h.selected
  rintro rfl
  rw [← h.length, Text.byteLength_nil] at hlength
  exact hne ((Text.byteLength_eq_zero_iff x).1 hlength)

theorem Advances.not_isFinished {l next : Lexer} {s : Selection} {lexeme : Text}
    (h : l.Advances s lexeme next) : ¬ l.isFinished = true := by
  rw [isFinished_iff, h.remaining]
  intro hnil
  exact h.lexeme_ne_nil (List.append_eq_nil_iff.1 hnil).1

/-- A step emits a token exactly where a rule is selected, for the lexeme of that rule. -/
theorem step_eq_token_iff {l next : Lexer} {t : Token} :
    l.step = (.ok (some t), next) ↔
      ∃ s lexeme, l.Advances s lexeme next ∧ t = l.tokenFor s lexeme := by
  constructor
  · intro h
    rw [step] at h
    split at h
    · cases h
    · split at h
      · cases h
      · next s hselect =>
        simp only at h
        split at h
        · cases h
        · next lexeme cursor hadvance =>
          obtain ⟨_, hlength, hremaining, hsource, hposition⟩ :=
            Cursor.advance_eq_ok_iff.1 hadvance
          cases h
          refine ⟨s, lexeme, ?_, rfl⟩
          exact {
            selected := hselect
            length := hlength
            remaining := hremaining
            position := by rw [hlength]; exact hposition
            source := hsource
            grammar := transition_grammar l s.rule.action
            top := rfl
            below := rfl }
  · rintro ⟨s, lexeme, h, rfl⟩
    -- the fields of `Advances` determine what the cursor gives and the whole of `next`
    have hadvance : l.cursor.advance s.length = .ok (lexeme, next.cursor) := by
      refine Cursor.advance_eq_ok_iff.2 ⟨h.lexeme_ne_nil, h.length, h.remaining, h.source, ?_⟩
      rw [← h.length]
      exact h.position
    rw [step, if_neg h.not_isFinished, h.selected]
    simp only [hadvance]
    congr 1
    obtain ⟨grammar, cursor, top, below⟩ := next
    have hgrammar := h.grammar
    have htop := h.top
    have hbelow := h.below
    simp only at hgrammar htop hbelow
    rw [hgrammar, htop, hbelow, transition_grammar]

/-- A step finds the end exactly where nothing is left. -/
theorem step_eq_end_iff {l next : Lexer} :
    l.step = (.ok none, next) ↔ l.cursor.remaining = [] ∧ next = l := by
  rw [← isFinished_iff]
  constructor
  · intro h
    rw [step] at h
    split at h
    · next hfinished =>
      cases h
      exact ⟨hfinished, rfl⟩
    · split at h
      · cases h
      · simp only at h
        split at h <;> cases h
  · rintro ⟨hfinished, rfl⟩
    rw [step, if_pos hfinished]

/-- Wherever a rule is selected the lexer goes on. -/
theorem exists_advances {l : Lexer} {s : Selection}
    (h : l.grammar.select l.state l.cursor.remaining = some s) :
    ∃ lexeme next, l.Advances s lexeme next := by
  obtain ⟨lexeme, rest, hremaining, hne, hlength⟩ := Grammar.of_select h
  refine ⟨lexeme, { l.transition s.rule.action with
    cursor := l.cursor.skip lexeme rest hremaining }, ?_⟩
  exact {
    selected := h
    length := hlength
    remaining := hremaining
    position := rfl
    source := rfl
    grammar := transition_grammar l s.rule.action
    top := rfl
    below := rfl }

/-- A step goes wrong exactly where text is left and no rule is selected. -/
theorem step_eq_fault_iff {l next : Lexer} {f : Fault} :
    l.step = (.error f, next) ↔
      l.cursor.remaining ≠ [] ∧ l.grammar.select l.state l.cursor.remaining = none ∧
        f = .noRule l.state l.position ∧ next = l := by
  rw [Ne, ← isFinished_iff]
  constructor
  · intro h
    cases hselect : l.grammar.select l.state l.cursor.remaining with
    | none =>
        rw [step, hselect] at h
        split at h
        · cases h
        · next hfinished =>
          cases h
          exact ⟨hfinished, rfl, rfl, rfl⟩
    | some s =>
        obtain ⟨lexeme, after, hadvances⟩ := exists_advances hselect
        rw [step_eq_token_iff.2 ⟨s, lexeme, hadvances, rfl⟩] at h
        cases h
  · rintro ⟨hfinished, hselect, rfl, rfl⟩
    rw [step, if_neg hfinished, hselect]

theorem ended_iff {l : Lexer} : Ended l ↔ l.cursor.remaining = [] := by
  have h := @step_eq_end_iff l l
  constructor
  · exact fun hend => (h.1 hend).1
  · exact fun hnil => h.2 ⟨hnil, rfl⟩

theorem next_eq (l : Lexer) : TokenStream.next l = l.step := rfl

/-- A new lexer has the grammar it was made from. -/
theorem grammar_lex (g : Grammar) (source : Text) : (g.lex source).grammar = g := rfl

end JsoniqLexer.Lexer

import JsoniqLexer.Proofs.Lexer.Memoryless

/-!
# The only way a scan can fail

Short of the end of its source, a lexer applies the first rule of its state that takes anything
there (`Grammar.AppliesFirst`), and it gets stuck only where no rule does (`Grammar.LacksRule`).
Nothing else goes wrong, whatever the rules are: what a pattern finds ends between two characters,
so it can be cut off and stepped over (`Lexer.FollowsRules`). A lexer that gets stuck stays as it
is, and the tokens up to then tile what it has read (`Lexer.HasRead`).
-/

set_option autoImplicit false

namespace JsoniqLexer

open TokenStream Token

namespace Rule

variable {rule : Rule} {lexeme rest text : Text}

/-- The rule takes `lexeme`, where `rest` follows: its pattern finds it, it is not empty, and what
has to follow it is found right after it. -/
structure Takes (rule : Rule) (lexeme rest : Text) : Prop where
  nonempty : lexeme ≠ []
  found : rule.pattern.matchLength? (lexeme ++ rest) = some lexeme.byteLength
  followed : ∀ p ∈ rule.lookahead, p.isMatch rest = true

theorem takes_iff :
    rule.Takes lexeme rest ↔ rule.matchLength? (lexeme ++ rest) = some lexeme.byteLength := by
  have hafter : rule.allowsAfter rest = true ↔ ∀ p ∈ rule.lookahead, p.isMatch rest = true := by
    rw [allowsAfter]
    cases rule.lookahead with
    | none => simp
    | some p => simp
  rw [matchLength?_append_iff, hafter]
  constructor
  · exact fun h => ⟨h.nonempty, h.found, h.followed⟩
  · rintro ⟨hne, hfound, hfollowed⟩
    exact ⟨hne, hfound, hfollowed⟩

/-- A rule finds nothing exactly where it takes nothing. -/
theorem matchLength?_eq_none_iff :
    rule.matchLength? text = none ↔ ∀ x y, text = x ++ y → ¬ rule.Takes x y := by
  constructor
  · rintro hnone x y rfl htakes
    rw [takes_iff.1 htakes] at hnone
    cases hnone
  · intro h
    cases hn : rule.matchLength? text with
    | none => rfl
    | some n =>
        obtain ⟨x, y, rfl, -, rfl⟩ := of_matchLength? hn
        exact absurd (takes_iff.2 hn) (h x y rfl)

end Rule

namespace Grammar

variable {g : Grammar} {state : State} {rule : Rule} {lexeme rest text : Text}

/-- No rule of the state takes anything at the start of the text. -/
def LacksRule (g : Grammar) (state : State) (text : Text) : Prop :=
  ∀ rule ∈ g.rules state, ∀ x y, text = x ++ y → ¬ rule.Takes x y

/-- The rule takes the lexeme, and no rule before it in the state takes anything there. -/
def AppliesFirst (g : Grammar) (state : State) (rule : Rule) (lexeme rest : Text) : Prop :=
  rule.Takes lexeme rest ∧ ∃ before after, g.rules state = before ++ rule :: after ∧
    ∀ r ∈ before, ∀ x y, lexeme ++ rest = x ++ y → ¬ r.Takes x y

theorem lacksRule_iff : g.LacksRule state text ↔ g.select state text = none := by
  rw [select_eq_none_iff]
  exact forall₂_congr fun rule _ => Rule.matchLength?_eq_none_iff.symm

theorem appliesFirst_iff :
    g.AppliesFirst state rule lexeme rest ↔
      ∃ s, g.select state (lexeme ++ rest) = some s ∧ s.rule = rule ∧
        s.length = lexeme.byteLength := by
  constructor
  · rintro ⟨htakes, before, after, hrules, hbefore⟩
    refine ⟨⟨before.length, rule, lexeme.byteLength⟩, ?_, rfl, rfl⟩
    apply select_eq_some_iff.2
    refine ⟨before, after, hrules, rfl, ?_, Rule.takes_iff.1 htakes⟩
    intro r hr
    exact Rule.matchLength?_eq_none_iff.2 (hbefore r hr)
  · rintro ⟨s, hselect, rfl, hlength⟩
    obtain ⟨before, after, hrules, -, hbefore, hmatch⟩ := select_eq_some_iff.1 hselect
    rw [hlength] at hmatch
    refine ⟨Rule.takes_iff.2 hmatch, before, after, hrules, fun r hr => ?_⟩
    exact Rule.matchLength?_eq_none_iff.1 (hbefore r hr)

end Grammar

namespace Lexer

/-- The lexer is short of the end exactly where its position is not the length of the source. -/
theorem position_eq_byteLength_iff {l : Lexer} :
    l.position = l.cursor.source.byteLength ↔ l.cursor.remaining = [] :=
  Cursor.position_eq_size_iff

/-- What a step of the lexer does. -/
structure FollowsRules (l : Lexer) (g : Grammar) (source : Text) : Prop where
  /-- Whatever a pattern of the state finds can be cut off, and it is the slice of the source from
  the position on. -/
  cuts : ∀ rule ∈ g.rules l.state, ∀ n, rule.pattern.matchLength? l.cursor.remaining = some n →
    ∃ lexeme rest, l.cursor.remaining.splitAt? n = some (lexeme, rest) ∧
      source.slice? l.position (l.position + n) = some lexeme
  ends : l.step.1 = .ok none ↔ l.position = source.byteLength
  fails : ∀ f, l.step.1 = .error f ↔ l.position ≠ source.byteLength ∧
    g.LacksRule l.state l.cursor.remaining ∧ f = .noRule l.state l.position
  names : ∀ f, l.step.1 = .error f → f.message? = some
    ("Lexer: no rule matched in " ++ l.state.name ++ " state at offset " ++ toString l.position ++
      " (every state must end with a one-character catch-all rule)")
  emits : ∀ t, l.step.1 = .ok (some t) ↔ ∃ rule lexeme rest, l.cursor.remaining = lexeme ++ rest ∧
    g.AppliesFirst l.state rule lexeme rest ∧
      t = .ofLexeme (g.categoryOf rule.action lexeme) lexeme l.position
  /-- Without a token nothing is changed. -/
  stays : (∀ t, l.step.1 ≠ .ok (some t)) → l.step.2 = l

theorem followsRules (l : Lexer) : l.FollowsRules l.grammar l.cursor.source := by
  have hstep {p : Pull} : l.step.1 = p ↔ ∃ next, l.step = (p, next) := by
    constructor
    · rintro rfl
      exact ⟨l.step.2, rfl⟩
    · rintro ⟨next, h⟩
      rw [h]
  have hends : l.step.1 = .ok none ↔ l.cursor.remaining = [] := by
    rw [hstep]
    simp only [step_eq_end_iff, exists_and_left, exists_eq, and_true]
  have hfails (f : Fault) : l.step.1 = .error f ↔ l.cursor.remaining ≠ [] ∧
      l.grammar.LacksRule l.state l.cursor.remaining ∧ f = .noRule l.state l.position := by
    rw [hstep, Grammar.lacksRule_iff]
    simp only [step_eq_fault_iff, exists_and_left, exists_eq, and_true]
  constructor
  · intro rule _ n hn
    obtain ⟨lexeme, rest, hremaining, hlength⟩ := Pattern.of_matchLength? hn
    obtain ⟨read, hsource, hposition⟩ := l.cursor.valid
    refine ⟨lexeme, rest, Text.splitAt?_eq_some_iff.2 ⟨hremaining, hlength⟩, ?_⟩
    refine Text.slice?_eq_some_iff.2 ⟨read, rest, ?_, hposition, ?_⟩
    · rw [hsource, hremaining]
    · rw [hlength]
  · rw [hends, position_eq_byteLength_iff]
  · intro f
    rw [hfails, Ne, Ne, position_eq_byteLength_iff]
  · intro f hf
    obtain ⟨-, -, rfl⟩ := (hfails f).1 hf
    have hspace : " " ++ "(every state must end with a one-character catch-all rule)" =
        " (every state must end with a one-character catch-all rule)" := rfl
    rw [← hspace]
    simp only [Fault.message?, String.append_assoc, toString]
  · intro t
    rw [hstep]
    constructor
    · rintro ⟨next, h⟩
      obtain ⟨s, lexeme, hadvances, rfl⟩ := step_eq_token_iff.1 h
      refine ⟨s.rule, lexeme, next.cursor.remaining, hadvances.remaining, ?_, rfl⟩
      refine Grammar.appliesFirst_iff.2 ⟨s, ?_, rfl, hadvances.length.symm⟩
      rw [← hadvances.remaining]
      exact hadvances.selected
    · rintro ⟨rule, lexeme, rest, hremaining, hfirst, rfl⟩
      obtain ⟨s, hselect, rfl, hlength⟩ := Grammar.appliesFirst_iff.1 hfirst
      rw [← hremaining] at hselect
      -- the lexer goes on over some lexeme of the rule, and it has the length of this one
      obtain ⟨x, next, hadvances⟩ := exists_advances hselect
      have hx : x = lexeme := by
        have hsame := hadvances.remaining.symm.trans hremaining
        exact (Text.append_inj_of_byteLength hsame (hadvances.length.trans hlength)).1
      rw [hx] at hadvances
      exact ⟨next, step_eq_token_iff.2 ⟨s, lexeme, hadvances, rfl⟩⟩
  · intro hnone
    obtain ⟨next, hnext⟩ := hstep.1 (rfl : l.step.1 = l.step.1)
    rw [hnext]
    cases hp : l.step.1 with
    | error f =>
        rw [hp] at hnext
        exact (step_eq_fault_iff.1 hnext).2.2.2
    | ok found =>
        cases found with
        | none =>
            rw [hp] at hnext
            exact (step_eq_end_iff.1 hnext).2
        | some t => exact absurd hp (hnone t)

/-- The position is between two characters of the source, and the tokens tile what stands before it.
-/
def HasRead (l : Lexer) (source : Text) (tokens : List Token) : Prop :=
  ∃ before, source.splitAt? l.position = some (before, l.cursor.remaining) ∧ Tiling before tokens

theorem hasRead_of_yields {g : Grammar} {source : Text} {tokens : List Token} {l : Lexer}
    (hrun : Yields (g.lex source) tokens l) : l.HasRead source tokens := by
  have hcovers := covers_of_yields hrun
  refine ⟨textOf tokens, Text.splitAt?_eq_some_iff.2 ⟨hcovers.remaining, ?_⟩, hcovers.tiles.tiling⟩
  rw [hcovers.position]
  exact (Nat.zero_add _).symm

/-- The fault that stops a run is a fault of the lexer that is left. -/
theorem step_rest_of_fault {l : Lexer} {n : Nat} {f : Fault} (h : (take n l).fault = some f) :
    (take n l).rest.step.1 = .error f := by
  induction n generalizing l with
  | zero => cases h
  | succ n ih =>
      rw [take] at h ⊢
      cases hnext : next l with
      | mk p l' =>
      rw [hnext] at h
      cases p with
      | error f' =>
          obtain ⟨-, -, -, rfl⟩ := step_eq_fault_iff.1 hnext
          cases h
          rw [next_eq] at hnext
          rw [hnext]
      | ok found =>
          cases found with
          | none => cases h
          | some t => exact ih h

/-- How a scan as a whole stops: at the end of the source, or where no rule of the state takes
anything. -/
structure StopsAt (g : Grammar) (source : Text) (taken : Taken Lexer) : Prop where
  read : taken.rest.HasRead source taken.tokens
  outcome :
    (taken.fault = none ∧ taken.rest.position = source.byteLength) ∨
      (taken.fault = some (.noRule taken.rest.state taken.rest.position) ∧
        taken.rest.position < source.byteLength ∧
        g.LacksRule taken.rest.state taken.rest.cursor.remaining)

theorem stopsAt_drain (g : Grammar) (source : Text) : StopsAt g source (drain (g.lex source)) := by
  have hrun := yields_take (g.lex source) (supply (g.lex source) + 1)
  have hcovers := covers_of_yields hrun
  have hgrammar : (drain (g.lex source)).rest.grammar = g := hcovers.grammar
  have hsource : (drain (g.lex source)).rest.cursor.source = source := hcovers.source
  have hfollows := followsRules (drain (g.lex source)).rest
  rw [hgrammar, hsource] at hfollows
  refine ⟨hasRead_of_yields hrun, ?_⟩
  rcases take_stops (g.lex source) (Nat.lt_succ_self _) with ⟨hnone, hfinished⟩ | hfault
  · refine .inl ⟨hnone, ?_⟩
    rw [isFinished_iff, ← position_eq_byteLength_iff] at hfinished
    exact hfinished.trans (congrArg Text.byteLength hsource)
  · obtain ⟨hne, hlacks, -⟩ := (hfollows.fails _).1 (step_rest_of_fault hfault)
    refine .inr ⟨hfault, ?_, hlacks⟩
    obtain ⟨before, hsplit, -⟩ := hasRead_of_yields hrun
    have hle := congrArg Text.byteLength (Text.of_splitAt? hsplit).1
    have hposition := (Text.of_splitAt? hsplit).2
    rw [Text.byteLength_append] at hle
    have hle : (drain (g.lex source)).rest.position ≤ source.byteLength := by
      rw [drain]
      omega
    omega

end Lexer

open Lexer

/-- Whatever the grammar, every lexer on its way through a source follows the rules and has tokens
for all that it has read. A scan as a whole stops at the end of the source or where no rule of the
state takes anything, and there is no other fault. -/
theorem fails_only_without_rule (g : Grammar) (source : Text) :
    (∀ {tokens : List Token} {l : Lexer}, Yields (g.lex source) tokens l →
      l.FollowsRules g source ∧ l.HasRead source tokens) ∧
    StopsAt g source (drain (g.lex source)) := by
  refine ⟨?_, stopsAt_drain g source⟩
  intro tokens l hrun
  have hcovers := covers_of_yields hrun
  have hgrammar : l.grammar = g := hcovers.grammar
  have hsource : l.cursor.source = source := hcovers.source
  have hfollows := l.followsRules
  rw [hgrammar, hsource] at hfollows
  exact ⟨hfollows, hasRead_of_yields hrun⟩

/-- Rules for some characters only. The second one finds the empty text before other letters, and
takes nothing there. -/
def unguarded : GrammarBuilder :=
  GrammarBuilder.empty
    |>.rule .root "é+".toList (.plain .identifier)
    |>.rule .root "a|(?-u:\\b)".toList (.plain .operator)

/-- Two tokens are read, and then no rule takes anything. -/
theorem fails_only_without_rule_letter :
    ∃ g, unguarded.build = .ok g ∧ ∃ tokens l, Yields (g.lex "éab".toList) tokens l ∧
      l.FollowsRules g "éab".toList ∧ l.HasRead "éab".toList tokens ∧
      tokens.map Token.lexeme = ["é".toList, "a".toList] ∧
      l.step.1 = .error (.noRule .root 3) ∧ g.LacksRule l.state l.cursor.remaining := by
  have hread : unguarded.build.toOption.map (fun g =>
      ((take 2 (g.lex "éab".toList)).tokens.map Token.lexeme,
        (take 2 (g.lex "éab".toList)).rest.step.1)) =
          some (["é".toList, "a".toList], .error (.noRule .root 3)) := by
    decide +kernel
  cases hbuild : unguarded.build with
  | error e =>
      rw [hbuild] at hread
      cases hread
  | ok g =>
      rw [hbuild] at hread
      obtain ⟨hlexemes, hstep⟩ := Prod.mk.inj (Option.some.inj hread)
      have hrun := yields_take (g.lex "éab".toList) 2
      obtain ⟨hfollows, htiles⟩ := (fails_only_without_rule g "éab".toList).1 hrun
      obtain ⟨-, hlacks, -⟩ := (hfollows.fails _).1 hstep
      exact ⟨g, rfl, _, _, hrun, hfollows, htiles, hlexemes, hstep, hlacks⟩

end JsoniqLexer

import JsoniqLexer.Proofs.Lexer.Lockstep
import JsoniqLexer.Proofs.Lexer.Restart

/-!
# Lexing is memoryless

What a lexer does next depends on the text that is left and on the states on its stack, and on nothing
that it has read. Lexers that are alike in these, over whatever sources, take the same course
(`SameCourse`): they give the same categories and lexemes, are in the same states, and come to the end
or get stuck after the same number of tokens. Where nothing is open, a lexer takes the course of a new
lexer on the text that is left, every offset further on (`TakesShifted`).
-/

set_option autoImplicit false

namespace JsoniqLexer

open TokenStream Token

/-- What a token says, apart from where it stands. -/
def Token.content (t : Token) : Category × Text := (t.category, t.lexeme)

/-- The same fault, `d` bytes further on. -/
def Fault.shift (d : Nat) : Fault → Fault
  | .zeroWidth offset => .zeroWidth (offset + d)
  | .uncountable => .uncountable
  | .pastEnd offset width size => .pastEnd (offset + d) width (size + d)
  | .insideCharacter target => .insideCharacter (target + d)
  | .noRule state offset => .noRule state (offset + d)
  | .badSlice => .badSlice

/-- No rule of one and the same state matches. -/
def Fault.SameState (f g : Fault) : Prop :=
  ∃ state p q, f = .noRule state p ∧ g = .noRule state q

namespace Lexer

/-! ## How a scan goes on -/

/-- What is taken from a lexer is a run of it. -/
theorem yields_take (l : Lexer) (n : Nat) : Yields l (take n l).tokens (take n l).rest := by
  induction n generalizing l with
  | zero => exact .nil l
  | succ n ih =>
      rw [take]
      cases hnext : next l with
      | mk p l' =>
      cases p with
      | error f =>
          obtain ⟨-, -, -, rfl⟩ := step_eq_fault_iff.1 hnext
          exact .nil _
      | ok found =>
          cases found with
          | none =>
              obtain ⟨-, rfl⟩ := step_eq_end_iff.1 hnext
              exact .nil _
          | some t => exact .cons hnext (ih l')

/-- More pulls than the supply find the end of the text, or a place where no rule matches. -/
theorem take_stops (l : Lexer) {n : Nat} (hn : supply l < n) :
    ((take n l).fault = none ∧ (take n l).rest.isFinished = true) ∨
      (take n l).fault = some (.noRule (take n l).rest.state (take n l).rest.position) := by
  induction n generalizing l with
  | zero => exact absurd hn (Nat.not_lt_zero _)
  | succ n ih =>
      rw [take]
      cases hnext : next l with
      | mk p l' =>
      cases p with
      | error f =>
          obtain ⟨-, -, rfl, rfl⟩ := step_eq_fault_iff.1 hnext
          exact .inr rfl
      | ok found =>
          cases found with
          | none =>
              obtain ⟨hnil, rfl⟩ := step_eq_end_iff.1 hnext
              exact .inl ⟨rfl, isFinished_iff.2 hnil⟩
          | some t =>
              have hlt := supply_lt hnext
              exact ih l' (by omega)

/-- A relation keeps lexers in lockstep if the second is at its end where the first is, goes on where
the first goes on, and is stuck where the first is stuck. -/
theorem lockstep_of_advances {R : Lexer → Lexer → Prop} {T : Token → Token → Prop}
    {F : Fault → Fault → Prop}
    (hend : ∀ {l m : Lexer}, R l m → (m.cursor.remaining = [] ↔ l.cursor.remaining = []))
    (hstep : ∀ {l m next : Lexer} {s : Selection} {lexeme : Text}, R l m →
      l.Advances s lexeme next → ∃ s' lexeme' next', m.Advances s' lexeme' next' ∧
        T (l.tokenFor s lexeme) (m.tokenFor s' lexeme') ∧ R next next')
    (hfault : ∀ {l m : Lexer}, R l m → l.cursor.remaining ≠ [] →
      l.grammar.select l.state l.cursor.remaining = none →
        m.grammar.select m.state m.cursor.remaining = none ∧
          F (.noRule l.state l.position) (.noRule m.state m.position)) : Lockstep R T F := by
  intro l m h
  by_cases hnil : l.cursor.remaining = []
  · have hl : next l = (.ok none, l) := step_eq_end_iff.2 ⟨hnil, rfl⟩
    have hm : next m = (.ok none, m) := step_eq_end_iff.2 ⟨(hend h).2 hnil, rfl⟩
    rw [hl, hm]
    exact ⟨.ended, h⟩
  cases hselect : l.grammar.select l.state l.cursor.remaining with
  | none =>
      have hnil' : m.cursor.remaining ≠ [] := fun h' => hnil ((hend h).1 h')
      obtain ⟨hselect', hrelated⟩ := hfault h hnil hselect
      have hl : next l = (.error (.noRule l.state l.position), l) :=
        step_eq_fault_iff.2 ⟨hnil, hselect, rfl, rfl⟩
      have hm : next m = (.error (.noRule m.state m.position), m) :=
        step_eq_fault_iff.2 ⟨hnil', hselect', rfl, rfl⟩
      rw [hl, hm]
      exact ⟨.fault hrelated, h⟩
  | some s =>
      obtain ⟨lexeme, l', hadvances⟩ := exists_advances hselect
      obtain ⟨s', lexeme', m', hadvances', htoken, hrest⟩ := hstep h hadvances
      have hl : next l = (.ok (some (l.tokenFor s lexeme)), l') :=
        step_eq_token_iff.2 ⟨s, lexeme, hadvances, rfl⟩
      have hm : next m = (.ok (some (m.tokenFor s' lexeme')), m') :=
        step_eq_token_iff.2 ⟨s', lexeme', hadvances', rfl⟩
      rw [hl, hm]
      exact ⟨.token htoken, hrest⟩

/-- Relations that hold only between lexers that are alike keep them in lockstep, if steps over the
same lexeme keep the relation. -/
theorem lockstep_of_alike {R : Lexer → Lexer → Prop} {T : Token → Token → Prop}
    {F : Fault → Fault → Prop} (halike : ∀ {l m : Lexer}, R l m → l.Alike m)
    (hstep : ∀ {l m l' m' : Lexer} {s : Selection} {lexeme : Text}, R l m →
      l.Advances s lexeme l' → m.Advances s lexeme m' → l'.Alike m' →
        T (l.tokenFor s lexeme) (m.tokenFor s lexeme) ∧ R l' m')
    (hfault : ∀ {l m : Lexer}, R l m →
      F (.noRule l.state l.position) (.noRule m.state m.position)) : Lockstep R T F := by
  apply lockstep_of_advances
  · intro l m h
    rw [(halike h).remaining]
  · intro l m l' s lexeme h hadvances
    obtain ⟨m', hadvances', hnext⟩ := (halike h).advances hadvances
    exact ⟨s, lexeme, m', hadvances', hstep h hadvances hadvances' hnext⟩
  · intro l m h _ hselect
    have hsame := halike h
    rw [← hsame.grammar, ← hsame.state_eq, ← hsame.remaining] at hselect
    exact ⟨hselect, hfault h⟩

/-! ## Lexers that are alike -/

theorem Alike.supply_eq {l m : Lexer} (h : l.Alike m) : supply m = supply l :=
  congrArg List.length h.remaining

theorem length_states (l : Lexer) : l.states.length = l.depth := List.length_map Frame.state

theorem Alike.depth_eq {l m : Lexer} (h : l.Alike m) : m.depth = l.depth := by
  rw [← length_states, ← length_states, h.states]

theorem lockstep_alike :
    Lockstep Alike (fun t u => t.content = u.content) Fault.SameState := by
  refine lockstep_of_alike id ?_ ?_
  · intro l m l' m' s lexeme h _ _ hnext
    refine ⟨?_, hnext⟩
    rw [tokenFor, tokenFor, h.grammar]
    rfl
  · intro l m h
    exact ⟨l.state, l.position, m.position, rfl, by rw [h.state_eq]⟩

/-- Two lexers give the same tokens but for their places, are in the same state at the same depth
after every step, and both come to the end of their text, or both to a place where no rule of their
state matches, after the same number of steps. -/
structure SameCourse (l m : Lexer) : Prop where
  contents : ∀ n, (take n m).tokens.map content = (take n l).tokens.map content
  state : ∀ n, (take n m).rest.state = (take n l).rest.state
  depth : ∀ n, (take n m).rest.depth = (take n l).rest.depth
  length : (drain m).tokens.length = (drain l).tokens.length
  outcome :
    ((drain l).fault = none ∧ (drain m).fault = none ∧ (drain l).rest.isFinished = true ∧
      (drain m).rest.isFinished = true) ∨
    ∃ state, (drain l).fault = some (.noRule state (drain l).rest.position) ∧
      (drain m).fault = some (.noRule state (drain m).rest.position)

theorem Alike.sameCourse {l m : Lexer} (h : l.Alike m) : l.SameCourse m := by
  have htaken (n : Nat) := lockstep_alike.take h n
  have hcontents (n : Nat) : (take n m).tokens.map content = (take n l).tokens.map content :=
    (htaken n).map_tokens_eq
  have hdrain : drain m = take (supply l + 1) m := by rw [drain, h.supply_eq]
  constructor
  · exact hcontents
  · exact fun n => (htaken n).rest.state_eq
  · exact fun n => (htaken n).rest.depth_eq
  · have hlength := congrArg List.length (hcontents (supply l + 1))
    rw [List.length_map, List.length_map] at hlength
    rw [hdrain, drain, hlength]
  · have hstate := (htaken (supply l + 1)).rest.state_eq
    have hfault := (htaken (supply l + 1)).fault
    have hl := l.take_stops (Nat.lt_succ_self (supply l))
    have hm := m.take_stops (Nat.lt_succ_self (supply m))
    rw [h.supply_eq] at hm
    rw [hdrain, drain]
    -- one of them is stuck exactly if the other is
    rcases hl with ⟨hl, hfinished⟩ | hl
    · rcases hm with ⟨hm, hfinished'⟩ | hm
      · exact .inl ⟨hl, hm, hfinished, hfinished'⟩
      · rw [hl, hm] at hfault
        cases hfault
    · rcases hm with ⟨hm, -⟩ | hm
      · rw [hl, hm] at hfault
        cases hfault
      · rw [hstate] at hm
        exact .inr ⟨_, hl, hm⟩

/-! ## Where nothing is open -/

theorem Resumes.of_advances {d : Nat} {l m l' m' : Lexer} {s : Selection} {lexeme : Text}
    (h : l.Resumes d m) (hadvances : l.Advances s lexeme l') (hadvances' : m.Advances s lexeme m')
    (halike : l'.Alike m') : l'.Resumes d m' := by
  constructor
  · refine ⟨halike.grammar, halike.remaining, ?_, halike.states⟩
    rw [hadvances'.position, hadvances.position, h.mirrors.position, Nat.add_right_comm]
  · rw [hadvances'.inner, hadvances.inner]
    exact h.transition s.rule.action

theorem lockstep_resumes (d : Nat) :
    Lockstep (Resumes d) (fun t u => t.shift d = u) (fun f g => f.shift d = g) := by
  refine lockstep_of_alike (fun h => h.mirrors.alike) ?_ ?_
  · intro l m l' m' s lexeme h hadvances hadvances' halike
    exact ⟨(h.mirrors.tokenFor s lexeme).symm, h.of_advances hadvances hadvances' halike⟩
  · intro l m h
    rw [Fault.shift, h.mirrors.state_eq, h.mirrors.position]

/-- What was taken from the second lexer is what was taken from the first, `d` bytes further on, and
so is the way that the scan would end. -/
structure TakesShifted (d : Nat) (a b : Taken Lexer) : Prop where
  tokens : b.tokens = a.tokens.map (Token.shift d)
  fault : b.fault = a.fault.map (Fault.shift d)
  termination : b.rest.termination = a.rest.termination.shift d

theorem Resumes.takesShifted {d : Nat} {l m : Lexer} (h : l.Resumes d m) (n : Nat) :
    TakesShifted d (take n l) (take n m) := by
  have htaken := (lockstep_resumes d).take h n
  constructor
  · exact htaken.tokens_eq_map
  · rcases htaken.fault_cases with ⟨hl, hm⟩ | ⟨f, g, hl, hm, hshift⟩
    · rw [hl, hm, Option.map_none]
    · rw [hl, hm, Option.map_some, hshift]
  · exact htaken.rest.termination

end Lexer

open Lexer

/-- Lexers with the same grammar, the same text left and the same states on their stacks take the same
course. At depth one, the course of a lexer on its way is that of a new lexer on the text from its
position on, at every offset further on by the position. -/
theorem lexing_is_memoryless :
    (∀ {l m : Lexer}, l.Alike m → l.SameCourse m) ∧
      ∀ {g : Grammar} {source : Text} {ts : List Token} {l : Lexer}, Yields (g.lex source) ts l →
        l.depth = 1 → ∃ before rest, source.splitAt? l.position = some (before, rest) ∧
          (∀ n, TakesShifted l.position (take n (g.lex rest)) (take n l)) ∧
          TakesShifted l.position (drain (g.lex rest)) (drain l) := by
  refine ⟨fun h => h.sameCourse, ?_⟩
  intro g source ts l hrun hdepth
  have hbelow : l.below = [] := List.length_eq_zero_iff.1 (Nat.succ.inj hdepth)
  have hstate := state_eq_root_of_yields hrun (inner_eq_nil_iff.2 hbelow)
  have hcovers := covers_of_yields hrun
  have hgrammar : l.grammar = g := hcovers.grammar
  have hresumes := resumes_lex hbelow hstate
  rw [hgrammar] at hresumes
  obtain ⟨before, hsource, hlength⟩ := l.cursor.valid
  have hsame : l.cursor.source = source := hcovers.source
  rw [hsame] at hsource
  refine ⟨before, l.cursor.remaining, Text.splitAt?_eq_some_iff.2 ⟨hsource, hlength⟩, ?_, ?_⟩
  · exact fun n => hresumes.takesShifted n
  · have hsupply := hresumes.mirrors.alike.supply_eq
    rw [drain, drain, hsupply]
    exact hresumes.takesShifted _

/-- A lexer that has read a number and a blank, and a new lexer on what is left. -/
theorem lexing_is_memoryless_variable :
    ∃ ts l, Yields (Grammar.jsoniq.lex "1 $x".toList) ts l ∧ l.position = 2 ∧ l.depth = 1 ∧
      l.Alike (Grammar.jsoniq.lex "$x".toList) ∧ l.SameCourse (Grammar.jsoniq.lex "$x".toList) ∧
      TakesShifted 2 (drain (Grammar.jsoniq.lex "$x".toList)) (drain l) := by
  have hrun := yields_take (Grammar.jsoniq.lex "1 $x".toList) 2
  have hread : (take 2 (Grammar.jsoniq.lex "1 $x".toList)).rest.position = 2 ∧
      (take 2 (Grammar.jsoniq.lex "1 $x".toList)).rest.cursor.remaining = "$x".toList ∧
      (take 2 (Grammar.jsoniq.lex "1 $x".toList)).rest.states = [.root] := by
    rw [Jsoniq.jsoniq_eq]
    decide +kernel
  have hgrammar := (covers_of_yields hrun).grammar
  obtain ⟨l, hl⟩ : ∃ l, l = (take 2 (Grammar.jsoniq.lex "1 $x".toList)).rest := ⟨_, rfl⟩
  rw [← hl] at hrun hread hgrammar
  obtain ⟨hposition, hremaining, hstates⟩ := hread
  have hdepth : l.depth = 1 := by
    rw [← length_states, hstates]
    rfl
  have halike : l.Alike (Grammar.jsoniq.lex "$x".toList) :=
    ⟨hgrammar.symm, hremaining.symm, hstates.symm⟩
  obtain ⟨before, rest, hsplit, -, hshifted⟩ := lexing_is_memoryless.2 hrun hdepth
  rw [hposition] at hsplit hshifted
  have hrest : Text.splitAt? "1 $x".toList 2 = some (['1', ' '], "$x".toList) := by decide
  rw [hrest] at hsplit
  cases hsplit
  exact ⟨_, l, hrun, hposition, hdepth, halike, lexing_is_memoryless.1 halike, hshifted⟩

end JsoniqLexer

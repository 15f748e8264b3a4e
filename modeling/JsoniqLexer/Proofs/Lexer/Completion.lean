import JsoniqLexer.Proofs.Lexer.Memoryless

/-!
# When a scan is complete

A scan is complete where nothing stands on the stack above the root that it began with. The lexer is
in the root state there. The converse holds as long as no rule enters the root (`EntersNoRoot`): where
one does, the root stands above itself (`ReentersRoot`). In a sound grammar no rule of the root leaves
it, so it stands there for good, and the scan is never complete again, in whatever state the lexer is.
-/

set_option autoImplicit false

namespace JsoniqLexer

open TokenStream

/-- No rule enters the root. -/
def Grammar.EntersNoRoot (g : Grammar) : Prop :=
  ∀ state, ∀ rule ∈ g.rules state, rule.action.target? ≠ some .root

/-- The JSONiq grammar enters comments and strings only. -/
theorem Grammar.entersNoRoot_jsoniq : jsoniq.EntersNoRoot := by
  intro state rule hmem
  rw [Jsoniq.rules_eq, List.mem_map] at hmem
  obtain ⟨line, hline, rfl⟩ := hmem
  have hall : ∀ s ∈ State.all, ∀ l ∈ Jsoniq.lines s, l.action.target? ≠ some .root := by decide
  exact hall state state.mem_all line hline

namespace Lexer

/-- The root has been entered once more and stands above the bottom of the stack. -/
def ReentersRoot (l : Lexer) : Prop := ∃ frame ∈ l.inner, frame.state = .root

variable {l next : Lexer} {s : Selection} {lexeme : Text}

/-- After an action, what stands above the outermost construct stood there before or is entered. -/
theorem mem_inner_transition {action : Action} {frame : Frame}
    (h : frame ∈ (l.transition action).inner) :
    frame ∈ l.inner ∨ action.target? = some frame.state := by
  cases action with
  | plain category => exact .inl h
  | classified => exact .inl h
  | push category target =>
      rw [inner_transition_push, List.mem_append, List.mem_singleton] at h
      rcases h with h | rfl
      · exact .inl h
      · exact .inr rfl
  | pop category =>
      rw [inner_transition_pop] at h
      exact .inl (List.mem_of_mem_dropLast h)

/-- A root that stands above the bottom is not taken away. -/
theorem ReentersRoot.advances (hg : l.grammar.IsSound) (h : l.ReentersRoot)
    (hadvances : l.Advances s lexeme next) : next.ReentersRoot := by
  obtain ⟨frame, hframe, hroot⟩ := h
  rw [ReentersRoot, hadvances.inner]
  cases haction : s.rule.action with
  | plain category => exact ⟨frame, hframe, hroot⟩
  | classified => exact ⟨frame, hframe, hroot⟩
  | push category target =>
      rw [inner_transition_push]
      exact ⟨frame, List.mem_append_left _ hframe, hroot⟩
  | pop category =>
      rw [inner_transition_pop]
      refine ⟨frame, ?_, hroot⟩
      -- only the top is popped, and a root on top has no rule that pops it
      have hlast := getLast?_inner (List.ne_nil_of_mem hframe)
      rw [← List.dropLast_append_getLast? l.top hlast, List.mem_append] at hframe
      rcases hframe with hframe | htop
      · exact hframe
      · have hstate : l.state = .root := by rw [state, ← List.mem_singleton.1 htop, hroot]
        have hmem := Grammar.mem_rules_of_select hadvances.selected
        rw [hstate] at hmem
        have hpop := hg.keepsRoot s.rule hmem
        rw [haction] at hpop
        cases hpop

theorem ReentersRoot.yields {m : Lexer} {later : List Token} (hg : l.grammar.IsSound)
    (h : l.ReentersRoot) (hrun : Yields l later m) : m.ReentersRoot := by
  have hkept : m.grammar = l.grammar ∧ m.ReentersRoot := by
    apply @Yields.preserves Lexer _ (fun k => k.grammar = l.grammar ∧ k.ReentersRoot) _ _ _ _ hrun
      ⟨rfl, h⟩
    rintro k k' t ⟨hgrammar, hk⟩ hstep
    obtain ⟨s, lexeme, hadvances, -⟩ := step_eq_token_iff.1 hstep
    rw [← hgrammar] at hg
    exact ⟨hadvances.grammar.trans hgrammar, hk.advances hg hadvances⟩
  exact hkept.2

/-- Where no rule enters the root, it stands at the bottom only. -/
theorem not_reentersRoot {g : Grammar} (hg : g.EntersNoRoot) {source : Text} {ts : List Token}
    (hrun : Yields (g.lex source) ts l) : ¬ l.ReentersRoot := by
  have hkept : l.grammar = g ∧ ∀ frame ∈ l.inner, frame.state ≠ .root := by
    apply @Yields.preserves Lexer _
      (fun k => k.grammar = g ∧ ∀ frame ∈ k.inner, frame.state ≠ .root) _ _ _ _ hrun
      ⟨rfl, by intro frame hframe; cases hframe⟩
    rintro k k' t ⟨hgrammar, hk⟩ hstep
    obtain ⟨s, lexeme, hadvances, -⟩ := step_eq_token_iff.1 hstep
    refine ⟨hadvances.grammar.trans hgrammar, ?_⟩
    intro frame hframe hroot
    rw [hadvances.inner] at hframe
    rcases mem_inner_transition hframe with hframe | htarget
    · exact hk frame hframe hroot
    · have hmem := Grammar.mem_rules_of_select hadvances.selected
      rw [hgrammar] at hmem
      rw [hroot] at htarget
      exact hg k.state s.rule hmem htarget
  rintro ⟨frame, hframe, hroot⟩
  exact hkept.2 frame hframe hroot

/-- A scan is complete in the root state, unless this root stands above another. -/
theorem termination_eq_complete_iff_of_yields {g : Grammar} {source : Text} {ts : List Token}
    (hrun : Yields (g.lex source) ts l) :
    l.termination = .complete ↔ l.state = .root ∧ ¬ l.ReentersRoot := by
  rw [termination_eq_complete_iff]
  constructor
  · intro hinner
    refine ⟨state_eq_root_of_yields hrun hinner, ?_⟩
    rintro ⟨frame, hframe, -⟩
    rw [hinner] at hframe
    cases hframe
  · rintro ⟨hstate, hnot⟩
    by_contra hinner
    exact hnot ⟨l.top, List.mem_of_getLast? (getLast?_inner hinner), hstate⟩

end Lexer

open Lexer

/-- A grammar that is built is sound, whatever makes patterns of texts. Wherever a scan with a sound
grammar has come to: if no rule enters the root, the scan is complete exactly in the root state. In
general it is complete in the root state where the root does not stand above itself, and once it does,
the scan is never complete again. -/
theorem complete_iff_in_root (g : Grammar) :
    (∀ (compiler : Pattern.Compiler) (b : GrammarBuilder),
      b.build compiler = .ok g → g.IsSound) ∧
      (g.IsSound → ∀ {source : Text} {tokens : List Token} {l : Lexer},
        Yields (g.lex source) tokens l →
          (g.EntersNoRoot → (l.termination = .complete ↔ l.state = .root)) ∧
            (l.termination = .complete ↔ l.state = .root ∧ ¬ l.ReentersRoot) ∧
            (l.ReentersRoot → ∀ {later : List Token} {m : Lexer}, Yields l later m →
              m.termination ≠ .complete)) := by
  constructor
  · intro compiler b hbuild
    exact Grammar.isSound_of_build hbuild
  · intro hsound source tokens l hrun
    have hcomplete := termination_eq_complete_iff_of_yields hrun
    refine ⟨?_, hcomplete, ?_⟩
    · intro hg
      rw [hcomplete]
      exact and_iff_left (not_reentersRoot hg hrun)
    · intro hroot later m hlater hm
      have hgrammar : l.grammar = g := (covers_of_yields hrun).grammar
      rw [← hgrammar] at hsound
      have hkept := hroot.yields hsound hlater
      exact ((termination_eq_complete_iff_of_yields (hrun.append hlater)).1 hm).2 hkept

/-- The JSONiq grammar on a comment that is closed. -/
theorem complete_iff_in_root_comment :
    Jsoniq.builder.build Pattern.compile = .ok Grammar.jsoniq ∧ Grammar.jsoniq.IsSound ∧
      Grammar.jsoniq.EntersNoRoot ∧
        ∃ tokens l, Yields (Grammar.jsoniq.lex "(::)".toList) tokens l ∧ tokens.length = 2 ∧
          l.state = .root ∧ l.termination = .complete := by
  have hrun := yields_take (Grammar.jsoniq.lex "(::)".toList) 2
  have hread : (take 2 (Grammar.jsoniq.lex "(::)".toList)).tokens.length = 2 ∧
      (take 2 (Grammar.jsoniq.lex "(::)".toList)).rest.state = .root := by
    rw [Jsoniq.jsoniq_eq]
    decide +kernel
  obtain ⟨hsoundOf, hcompletes⟩ := complete_iff_in_root Grammar.jsoniq
  have hsound := hsoundOf Pattern.compile Jsoniq.builder Grammar.build_builder
  obtain ⟨hiff, -⟩ := hcompletes hsound hrun
  exact ⟨Grammar.build_builder, hsound, Grammar.entersNoRoot_jsoniq, _, _, hrun, hread.1, hread.2,
    (hiff Grammar.entersNoRoot_jsoniq).2 hread.2⟩

/-- A rule of the root enters the root. -/
def nestedRoot : GrammarBuilder :=
  GrammarBuilder.empty
    |>.literal .root "<".toList (.push .punctuation .root)
    |>.rule .root Jsoniq.anyChar (.plain .identifier)

/-- A grammar is built whose rule enters the root, and after this rule the scan is in the root state
without being complete. -/
theorem root_is_unterminated :
    ∃ g, nestedRoot.build = .ok g ∧ ∃ tokens l, Yields (g.lex "<".toList) tokens l ∧
      l.state = .root ∧ l.termination = .unterminated .root 0 := by
  have hread : nestedRoot.build.toOption.map (fun g =>
      ((take 1 (g.lex "<".toList)).rest.state, (take 1 (g.lex "<".toList)).rest.termination)) =
        some (.root, .unterminated .root 0) := by
    decide +kernel
  cases hbuild : nestedRoot.build with
  | error e =>
      rw [hbuild] at hread
      cases hread
  | ok g =>
      rw [hbuild] at hread
      obtain ⟨hstate, htermination⟩ := Prod.mk.inj (Option.some.inj hread)
      exact ⟨g, rfl, _, _, yields_take (g.lex "<".toList) 1, hstate, htermination⟩

end JsoniqLexer

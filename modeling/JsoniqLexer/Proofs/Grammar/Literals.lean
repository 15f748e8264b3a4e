import JsoniqLexer.Proofs.Grammar.Violations
import JsoniqLexer.Proofs.Pattern.Escaped

/-!
# Rules for fixed texts

A rule for a fixed text matches the text and nothing else, so of the things that can be wrong with a
rule only two can be wrong with it: it may leave the root state, and its text may be empty
(`RuleDraft.violations_literal`). An empty text is always rejected; what is reported is the first
thing that is wrong before its pattern is looked at (`violationsBefore`), and the empty match where
there is none.
-/

set_option autoImplicit false

namespace JsoniqLexer

/-- The error is one about the pattern of a rule. -/
def GrammarError.isOfPattern : GrammarError → Bool
  | .invalidPattern _ _ | .emptyMatch _ => true
  | _ => false

theorem Classifier.not_isOfPattern_of_mem {keywords builtins : List Text} {e : GrammarError}
    (h : e ∈ violations keywords builtins) : e.isOfPattern = false := by
  rw [violations, List.mem_append, List.mem_append] at h
  rcases h with (h | h) | h
  · split at h
    · obtain rfl := List.mem_singleton.1 h
      rfl
    · cases h
  · split at h
    · obtain rfl := List.mem_singleton.1 h
      rfl
    · cases h
  · obtain ⟨word, -, rfl⟩ := List.mem_map.1 h
    rfl

namespace RuleDraft

/-- A rule for a fixed text is at fault where it leaves the root state, and where the text is empty.
-/
theorem violations_literal (classes : Pattern.Classes) (state : State) (text : Text)
    (action : Action) :
    let draft : RuleDraft := ⟨state, text, .literal, action⟩
    draft.violations classes.compile =
      draft.leavesRoot?.toList ++ if text = [] then [.emptyMatch []] else [] := by
  intro draft
  have hcompile : classes.compile draft.patternText = .ok (.ofText text) :=
    classes.compile_escape text
  have hunreadable : unreadable? classes.compile draft.patternText = none := by
    rw [unreadable?, hcompile]
  have hempty : draft.emptyMatch? classes.compile =
      if text = [] then some (.emptyMatch []) else none := by
    rw [emptyMatch?, hcompile]
    simp only [Pattern.matchesEmpty, Pattern.matchLength?_ofText]
    cases text with
    | nil => rfl
    | cons c text => simp
  have hlookahead : draft.lookaheadText?.bind (unreadable? classes.compile) = none := rfl
  rw [violations, hunreadable, hempty, hlookahead]
  cases draft.leavesRoot? <;> cases text <;> rfl

end RuleDraft

/-- What is wrong before the pattern of a rule is looked at: with the words, with the rules given
before it, and with what it does. -/
def violationsBefore (compiler : Pattern.Compiler) (calls before : List BuilderCall)
    (draft : RuleDraft) : List GrammarError :=
  Classifier.violations (keywordsOf calls) (builtinsOf calls) ++
    ((draftsOf before).flatMap (RuleDraft.violations compiler) ++ draft.leavesRoot?.toList)

theorem violations_of_literal (classes : Pattern.Classes) (before after : List BuilderCall)
    (state : State) (text : Text) (action : Action) :
    let calls := before ++ .literal state text action :: after
    violations classes.compile calls =
      violationsBefore classes.compile calls before ⟨state, text, .literal, action⟩ ++
        ((if text = [] then [.emptyMatch []] else []) ++
          ((draftsOf after).flatMap (RuleDraft.violations classes.compile) ++
            (RuleDraft.unsupported (draftsOf calls)).map .noRules)) := by
  intro calls
  have hdrafts : draftsOf calls =
      draftsOf before ++ ⟨state, text, .literal, action⟩ :: draftsOf after := by
    simp [calls, draftsOf, BuilderCall.draft?]
  have hliteral := RuleDraft.violations_literal classes state text action
  simp only at hliteral
  rw [violations, violationsBefore, hdrafts, List.flatMap_append, List.flatMap_cons, hliteral]
  simp only [List.append_assoc]

/-- Whatever the named classes hold, the pattern for a fixed text exists, finds the text where it stands
and nothing elsewhere. A rule for the empty text is always rejected, with the first thing that is wrong
before its pattern is looked at, or else as an empty match. With a rule for any other text, whatever is
wrong with a pattern is wrong with the pattern of another rule. -/
theorem literal_matches_its_text (classes : Pattern.Classes) (text : Text) :
    (∃ p, Pattern.literal text classes.compile = .ok p ∧ ∀ haystack : Text,
      p.matchLength? haystack = if text <+: haystack then some text.byteLength else none) ∧
    ∀ (before after : List BuilderCall) (state : State) (action : Action),
      let calls := before ++ .literal state text action :: after
      let earlier := violationsBefore classes.compile calls before ⟨state, text, .literal, action⟩
      (text = [] → (GrammarBuilder.ofCalls calls).build classes.compile =
        .error (earlier.headD (.emptyMatch []))) ∧
      (text ≠ [] → ∀ e, (GrammarBuilder.ofCalls calls).build classes.compile = .error e →
        e.isOfPattern = true →
          ∃ draft ∈ draftsOf before ++ draftsOf after, e ∈ draft.violations classes.compile) := by
  refine ⟨⟨.ofText text, classes.compile_escape text, Pattern.matchLength?_ofText text⟩, ?_⟩
  intro before after state action calls earlier
  have hviolations := violations_of_literal classes before after state text action
  constructor
  · rintro rfl
    rw [(reports_build classes.compile calls).eq_error_iff, hviolations, if_pos rfl]
    change (earlier ++ _).head? = some (earlier.headD _)
    cases earlier with
    | nil => rfl
    | cons e es => rfl
  · intro hne e hbuild hof
    rw [(reports_build classes.compile calls).eq_error_iff] at hbuild
    have hmem := List.mem_of_head? hbuild
    rw [hviolations, if_neg hne, List.nil_append, violationsBefore] at hmem
    simp only [List.mem_append, List.mem_flatMap] at hmem ⊢
    -- what is wrong with a pattern is wrong with neither the words, nor an action, nor a state
    rcases hmem with (hwords | ⟨draft, hdraft, he⟩ | hleaves) | ⟨draft, hdraft, he⟩ | hstates
    · rw [Classifier.not_isOfPattern_of_mem hwords] at hof
      cases hof
    · exact ⟨draft, .inl hdraft, he⟩
    · rw [Option.mem_toList, RuleDraft.leavesRoot?, Option.ite_none_right_eq_some] at hleaves
      obtain ⟨-, heq⟩ := hleaves
      obtain rfl := Option.some.inj heq
      cases hof
    · exact ⟨draft, .inr hdraft, he⟩
    · obtain ⟨state, -, rfl⟩ := List.mem_map.1 hstates
      cases hof

/-- After a rule for digits, an empty text that closes a comment is an empty match. A sum, all of it
punctuation to patterns but the digits, is found as it stands, and beside it another rule is at
fault. -/
theorem literal_matches_its_text_sum :
    (GrammarBuilder.ofCalls [.rule .root "\\d+".toList (.plain .integerNumber),
      .literal .comment [] (.pop .comment)]).build = .error (.emptyMatch []) ∧
    (∃ p, Pattern.literal "(1+1)".toList = .ok p ∧ p.matchLength? "(1+1)*2".toList = some 5 ∧
      p.matchLength? "11".toList = none) ∧
    ∃ draft ∈ draftsOf [.rule .root "x*".toList .classified],
      .emptyMatch "x*".toList ∈ draft.violations Pattern.compile := by
  obtain ⟨-, hempty⟩ := literal_matches_its_text .unicode []
  obtain ⟨⟨p, hp, hfinds⟩, hsum⟩ := literal_matches_its_text .unicode "(1+1)".toList
  have hreported : (GrammarBuilder.ofCalls [.literal .root "(1+1)".toList (.plain .operator),
      .rule .root "x*".toList .classified]).build = .error (.emptyMatch "x*".toList) := by
    decide +kernel
  refine ⟨?_, ⟨p, hp, ?_, ?_⟩, ?_⟩
  · let number : BuilderCall := .rule .root "\\d+".toList (.plain .integerNumber)
    have hearlier : (violationsBefore Pattern.compile
        [number, .literal .comment [] (.pop .comment)] [number]
        ⟨.comment, [], .literal, .pop .comment⟩).headD (.emptyMatch []) = .emptyMatch [] := by
      decide +kernel
    calc (GrammarBuilder.ofCalls [number, .literal .comment [] (.pop .comment)]).build
      _ = .error _ := (hempty [number] [] .comment (.pop .comment)).1 rfl
      _ = .error (.emptyMatch []) := congrArg Except.error hearlier
  · rw [hfinds, if_pos (by decide)]
    rfl
  · rw [hfinds, if_neg (by decide)]
  · exact (hsum [] [.rule .root "x*".toList .classified] .root (.plain .operator)).2 (by decide) _
      hreported rfl

/-- An empty text that leaves the root state is not reported as an empty match. -/
theorem empty_literal_leaves_root :
    ¬ ∀ (b : GrammarBuilder) (state : State) (action : Action),
      (b.literal state [] action).build = .error (.emptyMatch []) := by
  intro hall
  have hbuild := hall .empty .root (.pop .comment)
  have hreported : (GrammarBuilder.empty.literal .root [] (.pop .comment)).build =
      .error (.popInRoot []) := by
    decide +kernel
  rw [hreported] at hbuild
  cases hbuild

end JsoniqLexer

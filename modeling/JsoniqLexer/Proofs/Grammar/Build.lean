import Mathlib.Data.List.Forall2
import JsoniqLexer.Grammar.Jsoniq
import JsoniqLexer.Proofs.Grammar.Select
import JsoniqLexer.Proofs.Pattern.Search

/-!
# What building a grammar guarantees

Whatever makes patterns of texts, every rule of a grammar that is built has the pattern that its text
was made into (`RuleDraft.Describes`), no rule leaves the root state, and no state that the lexer can be
in is without rules (`Grammar.IsSound`). A grammar that catches all has, in each of these states, a rule
that finds any character; such a state never leaves the lexer without a rule.
-/

set_option autoImplicit false

namespace JsoniqLexer

namespace Pattern

variable {classes : Classes}

/-- A pattern compiles to the program of its expression. -/
theorem Classes.compile_eq_ok_iff {source : Text} {p : Pattern} :
    classes.compile source = .ok p ↔
      ∃ e, classes.parse? source = some e ∧ e.usesUnicodeWords = false ∧
        p = ⟨source, e.expand.program⟩ := by
  constructor
  · intro h
    rw [compile] at h
    split at h
    · cases h
    · next e he =>
      split at h
      · cases h
      · next hwords =>
        cases h
        exact ⟨e, he, Bool.not_eq_true _ ▸ hwords, rfl⟩
  · rintro ⟨e, he, hwords, rfl⟩
    rw [compile, he]
    simp only [hwords, Bool.false_eq_true, if_false]

/-- A pattern keeps the text that it was made of. -/
theorem Classes.source_of_compile {source : Text} {p : Pattern}
    (h : classes.compile source = .ok p) : p.source = source := by
  obtain ⟨e, -, -, rfl⟩ := compile_eq_ok_iff.1 h
  rfl

end Pattern

namespace RuleDraft

variable {compiler : Pattern.Compiler}

theorem compile_eq_ok_iff {source : Text} {p : Pattern} :
    compile source compiler = .ok p ↔ compiler source = .ok p := by
  rw [compile]
  cases compiler source with
  | error cause => simp
  | ok q => simp

/-- The text that is compiled to the pattern of the rule. -/
def patternText (draft : RuleDraft) : Text :=
  match draft.form with
  | .literal => Pattern.escape draft.source
  | .pattern | .followedBy _ => draft.source

/-- The text that is compiled to the lookahead of the rule, if it has one. -/
def lookaheadText? (draft : RuleDraft) : Option Text :=
  match draft.form with
  | .followedBy lookahead => some lookahead
  | .pattern | .literal => none

/-- The rule is the one that the draft describes. -/
structure Describes (compiler : Pattern.Compiler) (draft : RuleDraft) (rule : Rule) : Prop where
  pattern : compiler draft.patternText = .ok rule.pattern
  lookahead : draft.lookaheadText?.map compiler = rule.lookahead.map .ok
  action : rule.action = draft.action

theorem compilePattern_eq (draft : RuleDraft) :
    draft.compilePattern compiler = compile draft.patternText compiler := by
  rw [compilePattern, patternText]
  cases draft.form with
  | pattern => rfl
  | literal => rfl
  | followedBy lookahead => rfl

theorem compileLookahead_eq_ok_iff {draft : RuleDraft} {lookahead : Option Pattern} :
    draft.compileLookahead compiler = .ok lookahead ↔
      draft.lookaheadText?.map compiler = lookahead.map .ok := by
  rw [compileLookahead, lookaheadText?]
  cases draft.form with
  | pattern => cases lookahead <;> simp
  | literal => cases lookahead <;> simp
  | followedBy text =>
      simp only [compile, Option.map_some]
      cases compiler text with
      | error cause => cases lookahead <;> simp [Except.map]
      | ok p => cases lookahead <;> simp [Except.map]

/-- A rule passes its checks if it does not leave the root state, its texts are patterns, and the
pattern does not match the empty text. -/
theorem check_eq_ok_iff {draft : RuleDraft} {state : State} {rule : Rule} :
    draft.check compiler = .ok (state, rule) ↔
      draft.state = state ∧ draft.Describes compiler rule ∧
        ¬ (draft.state = .root ∧ draft.action.isPop) ∧ rule.pattern.matchesEmpty = false := by
  rw [check, compilePattern_eq]
  constructor
  · intro h
    split at h
    · cases h
    · next hroot =>
      split at h
      · cases h
      · next pattern hpattern =>
        split at h
        · cases h
        · next hempty =>
          split at h
          · cases h
          · next lookahead hlookahead =>
            cases h
            exact ⟨rfl, ⟨compile_eq_ok_iff.1 hpattern, compileLookahead_eq_ok_iff.1 hlookahead, rfl⟩,
              hroot, Bool.not_eq_true _ ▸ hempty⟩
  · rintro ⟨rfl, hdescribes, hroot, hempty⟩
    obtain ⟨pattern, lookahead, action⟩ := rule
    obtain ⟨hpattern, hlookahead, rfl⟩ := hdescribes
    simp only [if_neg hroot, compile_eq_ok_iff.2 hpattern, hempty, Bool.false_eq_true, if_false,
      compileLookahead_eq_ok_iff.2 hlookahead]

/-- A rule that passes its checks does not leave the root state. -/
theorem not_isPop_of_check {draft : RuleDraft} {rule : Rule}
    (h : draft.check compiler = .ok (.root, rule)) : rule.action.isPop = false := by
  obtain ⟨hstate, hdescribes, hroot, -⟩ := check_eq_ok_iff.1 h
  rw [hdescribes.action]
  apply Bool.eq_false_iff.2
  intro hpop
  exact hroot ⟨hstate, hpop⟩

/-- The rules that pass all checks are those that the drafts pass theirs with, one for each. -/
theorem forall₂_of_checkAll {drafts : List RuleDraft} {table : List (State × Rule)}
    (h : checkAll compiler drafts = .ok table) :
    List.Forall₂ (fun draft entry => draft.check compiler = .ok entry) drafts table := by
  induction drafts generalizing table with
  | nil =>
      cases h
      exact .nil
  | cons draft drafts ih =>
      rw [checkAll] at h
      split at h
      · cases h
      · next rule hrule =>
        split at h
        · cases h
        · next rules hrules =>
          cases h
          exact .cons hrule (ih hrules)

/-- What passes all checks has passed each of them. -/
theorem exists_check_of_mem {drafts : List RuleDraft} {table : List (State × Rule)}
    (h : checkAll compiler drafts = .ok table) {entry : State × Rule} (hmem : entry ∈ table) :
    ∃ draft ∈ drafts, draft.check compiler = .ok entry := by
  have hall := forall₂_of_checkAll h
  clear h
  induction hall with
  | nil => cases hmem
  | @cons draft _ _ _ hcheck _ ih =>
      rcases List.mem_cons.1 hmem with rfl | hmem
      · exact ⟨draft, List.mem_cons_self, hcheck⟩
      · obtain ⟨d, hd, hentry⟩ := ih hmem
        exact ⟨d, List.mem_cons_of_mem draft hd, hentry⟩

end RuleDraft

namespace GrammarBuilder

variable {compiler : Pattern.Compiler} {b : GrammarBuilder} {g : Grammar}

/-- A grammar that is built has the words and the rules that were checked. -/
theorem of_build (h : b.build compiler = .ok g) :
    Classifier.build b.keywords b.builtins = .ok g.classifier ∧
      RuleDraft.checkAll compiler b.drafts = .ok g.table := by
  rw [build] at h
  split at h
  · cases h
  · next classifier hclassifier =>
    split at h
    · cases h
    · next table htable =>
      simp only at h
      split at h
      · cases h
      · cases h
        exact ⟨hclassifier, htable⟩

/-- A grammar that is built has rules for every state that it requires rules for. -/
theorem rules_ne_nil_of_build (h : b.build compiler = .ok g) {state : State}
    (hstate : state ∈ g.required) : g.rules state ≠ [] := by
  rw [build] at h
  split at h
  · cases h
  · split at h
    · cases h
    · simp only at h
      split at h
      · cases h
      · next hfind =>
        cases h
        intro hnil
        apply List.find?_eq_none.1 hfind state hstate
        rw [hnil]
        rfl

/-- Where a grammar is built, it is what the words and the rules come to. -/
theorem eq_of_build (h : b.build compiler = .ok g) {classifier : Classifier}
    {table : List (State × Rule)}
    (hwords : Classifier.build b.keywords b.builtins = .ok classifier)
    (hrules : RuleDraft.checkAll compiler b.drafts = .ok table) : g = ⟨table, classifier⟩ := by
  obtain ⟨hclassifier, htable⟩ := of_build h
  rw [hwords] at hclassifier
  rw [hrules] at htable
  cases hclassifier
  cases htable
  rfl

/-- Every rule of a grammar that is built passed its checks. -/
theorem exists_check_of_build (h : b.build compiler = .ok g) {state : State} {rule : Rule}
    (hmem : rule ∈ g.rules state) :
    ∃ draft ∈ b.drafts, draft.check compiler = .ok (state, rule) :=
  RuleDraft.exists_check_of_mem (of_build h).2 (Grammar.mem_rules_iff.1 hmem)

end GrammarBuilder

namespace Grammar

variable {g : Grammar}

/-- What the builder checks of the rules and their states. -/
structure IsSound (g : Grammar) : Prop where
  /-- No rule leaves the root state. -/
  keepsRoot : ∀ rule ∈ g.rules .root, rule.action.isPop = false
  /-- The root state, and every state that some rule enters, has a rule. -/
  hasRules : ∀ state ∈ g.required, g.rules state ≠ []

/-- A grammar that is built is sound, whatever makes patterns of texts. -/
theorem isSound_of_build {compiler : Pattern.Compiler} {b : GrammarBuilder}
    (h : b.build compiler = .ok g) : g.IsSound := by
  constructor
  · intro rule hmem
    obtain ⟨draft, -, hcheck⟩ := GrammarBuilder.exists_check_of_build h hmem
    exact RuleDraft.not_isPop_of_check hcheck
  · intro state hstate
    exact GrammarBuilder.rules_ne_nil_of_build h hstate

theorem isSound_jsoniq : jsoniq.IsSound := isSound_of_build build_builder

theorem root_mem_required (g : Grammar) : State.root ∈ g.required := List.mem_cons_self

/-- What a rule enters is required, whatever state the rule belongs to. -/
theorem mem_required_of_target {state target : State} {rule : Rule}
    (hmem : rule ∈ g.rules state) (htarget : rule.action.target? = some target) :
    target ∈ g.required := by
  refine List.mem_cons_of_mem _ (List.mem_filterMap.2 ⟨rule, ?_, htarget⟩)
  exact List.mem_flatMap.2 ⟨state, state.mem_all, hmem⟩

/-! ## Grammars that catch all -/

/-- The root state, and every state that some rule enters, has a rule that finds the next character,
whatever it is, and looks at nothing else. -/
def CatchesAll (g : Grammar) : Prop :=
  ∀ state ∈ g.required, ∃ rule ∈ g.rules state,
    (∀ (c : Char) (rest : Text), rule.pattern.matchLength? (c :: rest) = some c.utf8Size) ∧
      rule.lookahead = none

/-- The root state, and every state that some rule enters, has a rule with the pattern for any
character, which looks at nothing else. -/
def ListsAnyChar (g : Grammar) : Prop :=
  ∀ state ∈ g.required, ∃ rule ∈ g.rules state,
    rule.pattern.source = Jsoniq.anyChar ∧ rule.lookahead = none

/-- The pattern for any character finds the next character. It names no class. -/
theorem matchLength?_of_anyChar {classes : Pattern.Classes} {p : Pattern}
    (h : classes.compile Jsoniq.anyChar = .ok p) (c : Char) (rest : Text) :
    p.matchLength? (c :: rest) = some c.utf8Size := by
  have hprogram : classes.compile Jsoniq.anyChar =
      .ok ⟨Jsoniq.anyChar, (Pattern.Regex.char .all).program⟩ := rfl
  rw [hprogram] at h
  cases h
  exact Pattern.Regex.matchLength?_char_of_contains (Pattern.CharSet.contains_all c)

/-- A grammar that is built with rules for any character catches all, whatever the named classes
hold. -/
theorem ListsAnyChar.catchesAll (h : g.ListsAnyChar) {classes : Pattern.Classes}
    {b : GrammarBuilder} (hbuild : b.build classes.compile = .ok g) : g.CatchesAll := by
  intro state hstate
  obtain ⟨rule, hmem, hsource, hlookahead⟩ := h state hstate
  obtain ⟨draft, -, hcheck⟩ := GrammarBuilder.exists_check_of_build hbuild hmem
  have hcompile := (RuleDraft.check_eq_ok_iff.1 hcheck).2.1.pattern
  rw [← Pattern.Classes.source_of_compile hcompile, hsource] at hcompile
  exact ⟨rule, hmem, matchLength?_of_anyChar hcompile, hlookahead⟩

/-- In a required state of a grammar that catches all, a rule is selected wherever text is left. -/
theorem CatchesAll.exists_select (h : g.CatchesAll) {state : State} (hstate : state ∈ g.required)
    {text : Text} (htext : text ≠ []) : ∃ s, g.select state text = some s := by
  obtain ⟨rule, hmem, hfinds, hlookahead⟩ := h state hstate
  obtain ⟨c, rest, rfl⟩ := List.exists_cons_of_ne_nil htext
  have hfound : rule.matchLength? (c :: rest) = some c.utf8Size := by
    have hpos := c.utf8Size_pos
    rw [Rule.matchLength?_eq_of_lookahead_none hlookahead, hfinds]
    simp [Option.filter]
    omega
  exact Grammar.exists_select hmem hfound

end Grammar

end JsoniqLexer

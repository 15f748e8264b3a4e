import JsoniqLexer.Proofs.Grammar.Build

/-!
# The first violation is reported, and nothing is lost

What can be wrong with words and rules is listed in one order, each thing on its own (`violations`).
Which texts are patterns is left to whatever makes patterns of them, here as in the builder. Building a
grammar reports the first of the list. Where the list is empty, it keeps every word and
every rule (`Keeps`), so neither the order of rules of different states nor the division of words into
calls can be seen in the grammar (`build_reports_first_violation`).
-/

set_option autoImplicit false

namespace JsoniqLexer

/-- A value comes out if there are no violations, and the first of them otherwise. -/
def Reports {α : Type} (result : Except GrammarError α) (violations : List GrammarError) : Prop :=
  match result with
  | .ok _ => violations = []
  | .error e => violations.head? = some e

section Reports

variable {α β : Type}

@[simp] theorem reports_ok_iff {a : α} {vs : List GrammarError} :
    Reports (.ok a : Except GrammarError α) vs ↔ vs = [] := Iff.rfl

@[simp] theorem reports_error_iff {e : GrammarError} {vs : List GrammarError} :
    Reports (.error e : Except GrammarError α) vs ↔ vs.head? = some e := Iff.rfl

/-- Checks one after the other report the first violation of all, the later ones counted only where
the earlier checks pass. -/
theorem Reports.bind {result : Except GrammarError α} {f : α → Except GrammarError β}
    {vs ws : List GrammarError} (h : Reports result vs)
    (hlater : ∀ a, result = .ok a → Reports (f a) ws) : Reports (result.bind f) (vs ++ ws) := by
  cases result with
  | error e =>
      obtain ⟨vs, rfl⟩ := List.head?_eq_some_iff.1 h
      rfl
  | ok a =>
      obtain rfl : vs = [] := h
      exact hlater a rfl

theorem Reports.eq_error_iff {result : Except GrammarError α} {vs : List GrammarError}
    (h : Reports result vs) (e : GrammarError) : result = .error e ↔ vs.head? = some e := by
  cases result with
  | error e' =>
      rw [reports_error_iff] at h
      rw [h, Except.error.injEq, Option.some.injEq]
  | ok a =>
      obtain rfl : vs = [] := h
      simp

theorem Reports.exists_eq_ok_iff {result : Except GrammarError α} {vs : List GrammarError}
    (h : Reports result vs) : (∃ a, result = .ok a) ↔ vs = [] := by
  cases result with
  | error e =>
      obtain ⟨vs, rfl⟩ := List.head?_eq_some_iff.1 h
      simp
  | ok a => simpa using h

end Reports

namespace Classifier

/-- What is wrong with the words: an empty keyword, an empty builtin, and the keywords that are
builtins as well, in the order in which they are given. -/
def violations (keywords builtins : List Text) : List GrammarError :=
  (if keywords.contains [] then [.emptyWord .keywords] else []) ++
    (if builtins.contains [] then [.emptyWord .builtins] else []) ++
      (keywords.filter builtins.contains).map .overlappingWord

/-- Dropping later mentions leaves the first word with a property what it is. -/
theorem find?_eraseDups (p : Text → Bool) (words : List Text) :
    words.eraseDups.find? p = words.find? p := by
  induction hn : words.length using Nat.strongRecOn generalizing words with
  | ind n ih =>
      cases words with
      | nil => rfl
      | cons word words =>
          have hlt : (words.filter fun w => !w == word).length < n := by
            have hle := List.length_filter_le (fun w => !w == word) words
            rw [List.length_cons] at hn
            omega
          rw [List.eraseDups_cons, List.find?_cons, List.find?_cons]
          cases hp : p word with
          | true => rfl
          | false =>
              -- the mentions dropped are of a word without the property
              simp only
              rw [ih _ hlt _ rfl, List.find?_filter]
              congr 1
              funext w
              by_cases hw : w = word
              · simp [hw, hp]
              · simp [hw]

theorem reports_build (keywords builtins : List Text) :
    Reports (build keywords builtins) (violations keywords builtins) := by
  have hcontains (words : List Text) (word : Text) :
      words.eraseDups.contains word = words.contains word := by
    rw [Bool.eq_iff_iff, List.contains_iff_mem, List.contains_iff_mem, List.mem_eraseDups]
  have hfind : keywords.eraseDups.find? builtins.eraseDups.contains =
      (keywords.filter builtins.contains).head? := by
    rw [funext (hcontains builtins), find?_eraseDups, List.head?_filter]
  simp only [build, violations]
  rw [hcontains keywords [], hcontains builtins [], hfind]
  split
  · rfl
  · split
    · rfl
    · cases keywords.filter builtins.contains with
      | nil => rfl
      | cons word words => rfl

/-- A classifier holds the words in the order of their first mention. -/
theorem eq_of_build {keywords builtins : List Text} {c : Classifier}
    (h : build keywords builtins = .ok c) : c = ⟨keywords.eraseDups, builtins.eraseDups⟩ := by
  simp only [build] at h
  split at h
  · cases h
  · split at h
    · cases h
    · split at h
      · cases h
      · cases h
        rfl

end Classifier

namespace RuleDraft

/-- Why a text is not a pattern. -/
def unreadable? (compiler : Pattern.Compiler) (text : Text) : Option GrammarError :=
  match compiler text with
  | .ok _ => none
  | .error cause => some (.invalidPattern text cause)

/-- The rule leaves the root state. -/
def leavesRoot? (draft : RuleDraft) : Option GrammarError :=
  if draft.state = .root ∧ draft.action.isPop then some (.popInRoot draft.source) else none

/-- The pattern of the rule is one, and it matches the empty text. -/
def emptyMatch? (compiler : Pattern.Compiler) (draft : RuleDraft) : Option GrammarError :=
  match compiler draft.patternText with
  | .ok pattern => if pattern.matchesEmpty then some (.emptyMatch draft.source) else none
  | .error _ => none

/-- What is wrong with a rule by itself. -/
def violations (compiler : Pattern.Compiler) (draft : RuleDraft) : List GrammarError :=
  [draft.leavesRoot?, unreadable? compiler draft.patternText, draft.emptyMatch? compiler,
    draft.lookaheadText?.bind (unreadable? compiler)].reduceOption

/-- The rules of a state, in the order given. -/
def ofState (state : State) (drafts : List RuleDraft) : List RuleDraft :=
  drafts.filter fun draft => draft.state = state

/-- The states that are entered, by the rules of the states in turn. -/
def entered (drafts : List RuleDraft) : List State :=
  State.all.flatMap fun state => (ofState state drafts).filterMap fun draft => draft.action.target?

/-- The root state and the states that are entered, as far as they have no rules. -/
def unsupported (drafts : List RuleDraft) : List State :=
  (.root :: entered drafts).filter fun state => ofState state drafts = []

variable {compiler : Pattern.Compiler}

theorem reports_check (draft : RuleDraft) :
    Reports (draft.check compiler) (draft.violations compiler) := by
  rw [check, violations, compilePattern_eq, leavesRoot?, emptyMatch?]
  split
  · rfl
  · rw [compile, unreadable?]
    cases compiler draft.patternText with
    | error cause => rfl
    | ok pattern =>
        simp only
        split
        · rfl
        · rw [compileLookahead, lookaheadText?]
          cases draft.form with
          | pattern => rfl
          | literal => rfl
          | followedBy text =>
              simp only [compile, Option.bind_some, unreadable?]
              cases compiler text with
              | error cause => rfl
              | ok lookahead => rfl

theorem checkAll_cons (draft : RuleDraft) (drafts : List RuleDraft) :
    checkAll compiler (draft :: drafts) =
      (draft.check compiler).bind fun entry =>
        (checkAll compiler drafts).bind fun table => .ok (entry :: table) := by
  rw [checkAll]
  cases draft.check compiler with
  | error e => rfl
  | ok entry =>
      cases checkAll compiler drafts with
      | error e => rfl
      | ok table => rfl

theorem reports_checkAll (drafts : List RuleDraft) :
    Reports (checkAll compiler drafts) (drafts.flatMap (violations compiler)) := by
  induction drafts with
  | nil => rfl
  | cons draft drafts ih =>
      rw [checkAll_cons, List.flatMap_cons,
        ← List.append_nil (drafts.flatMap (violations compiler))]
      refine draft.reports_check.bind fun entry _ => ih.bind fun table _ => ?_
      rfl

/-- A draft describes one rule at most. -/
theorem rightUnique_describes : Relator.RightUnique (Describes compiler) := by
  rintro draft ⟨pattern, lookahead, action⟩ ⟨pattern', lookahead', action'⟩ h h'
  obtain ⟨hpattern, hlookahead, rfl⟩ := h
  obtain ⟨hpattern', hlookahead', rfl⟩ := h'
  have hpatterns : pattern = pattern' := Except.ok.inj (hpattern.symm.trans hpattern')
  have hlookaheads : lookahead = lookahead' :=
    Option.map_injective (fun _ _ => Except.ok.inj) (hlookahead.symm.trans hlookahead')
  rw [hpatterns, hlookaheads]

/-- The rules of each state are those that its drafts describe, one for each. -/
theorem forall₂_rules {drafts : List RuleDraft} {g : Grammar}
    (h : checkAll compiler drafts = .ok g.table) (state : State) :
    List.Forall₂ (Describes compiler) (ofState state drafts) (g.rules state) := by
  rw [ofState, ← List.filterMap_eq_filter, Grammar.rules]
  refine List.rel_filterMap ?_ (forall₂_of_checkAll h)
  rintro draft entry hcheck
  obtain ⟨hstate, hdescribes, -⟩ := check_eq_ok_iff.1 hcheck
  by_cases hown : entry.1 = state
  · simpa [Option.guard, hstate, hown] using hdescribes
  · simp [Option.guard, hstate, hown]

end RuleDraft

namespace Grammar

open RuleDraft

variable {compiler : Pattern.Compiler}

/-- The grammar, if each state that it requires has rules. -/
def supported (g : Grammar) : Except GrammarError Grammar :=
  match g.required.find? fun state => (g.rules state).isEmpty with
  | some state => .error (.noRules state)
  | none => .ok g

/-- The states that a grammar requires are those that its drafts enter. -/
theorem required_eq {drafts : List RuleDraft} {g : Grammar}
    (h : ∀ state, List.Forall₂ (Describes compiler) (ofState state drafts) (g.rules state)) :
    g.required = .root :: entered drafts := by
  have htargets {ds : List RuleDraft} {rs : List Rule}
      (hrs : List.Forall₂ (Describes compiler) ds rs) :
      (rs.filterMap fun rule => rule.action.target?) =
        ds.filterMap fun draft => draft.action.target? := by
    induction hrs with
    | nil => rfl
    | cons hdescribes _ ih => rw [List.filterMap_cons, List.filterMap_cons, hdescribes.action, ih]
  rw [required, entered, List.filterMap_flatMap]
  congr 2
  funext state
  exact htargets (h state)

theorem reports_supported {drafts : List RuleDraft} {g : Grammar}
    (h : ∀ state, List.Forall₂ (Describes compiler) (ofState state drafts) (g.rules state)) :
    Reports g.supported ((unsupported drafts).map .noRules) := by
  have hempty (state : State) : (g.rules state).isEmpty = decide (ofState state drafts = []) := by
    rw [Bool.eq_iff_iff, List.isEmpty_iff, decide_eq_true_eq, ← List.length_eq_zero_iff,
      ← List.length_eq_zero_iff, (h state).length_eq]
  rw [supported, required_eq h, unsupported]
  simp only [hempty]
  rw [← List.head?_filter]
  cases (State.root :: entered drafts).filter fun state => ofState state drafts = [] with
  | nil => rfl
  | cons state states => rfl

end Grammar

theorem GrammarBuilder.build_eq (compiler : Pattern.Compiler) (b : GrammarBuilder) :
    b.build compiler = (Classifier.build b.keywords b.builtins).bind fun classifier =>
      (RuleDraft.checkAll compiler b.drafts).bind fun table =>
        Grammar.supported ⟨table, classifier⟩ := by
  rw [build]
  cases Classifier.build b.keywords b.builtins with
  | error e => rfl
  | ok classifier =>
      cases RuleDraft.checkAll compiler b.drafts with
      | error e => rfl
      | ok table => rfl

/-- A call of one of the methods of a builder. -/
inductive BuilderCall where
  | addKeywords (words : List Text)
  | addBuiltins (words : List Text)
  | rule (state : State) (source : Text) (action : Action)
  | literal (state : State) (source : Text) (action : Action)
  | ruleFollowedBy (state : State) (source lookahead : Text) (action : Action)
deriving DecidableEq, Repr

namespace BuilderCall

/-- The builder after the call. -/
def apply (b : GrammarBuilder) : BuilderCall → GrammarBuilder
  | .addKeywords words => b.addKeywords words
  | .addBuiltins words => b.addBuiltins words
  | .rule state source action => b.rule state source action
  | .literal state source action => b.literal state source action
  | .ruleFollowedBy state source lookahead action => b.ruleFollowedBy state source lookahead action

/-- The keywords that a call gives. -/
def keywords : BuilderCall → List Text
  | .addKeywords words => words
  | _ => []

/-- The builtins that a call gives. -/
def builtins : BuilderCall → List Text
  | .addBuiltins words => words
  | _ => []

/-- The rule that a call gives. -/
def draft? : BuilderCall → Option RuleDraft
  | .addKeywords _ | .addBuiltins _ => none
  | .rule state source action => some ⟨state, source, .pattern, action⟩
  | .literal state source action => some ⟨state, source, .literal, action⟩
  | .ruleFollowedBy state source lookahead action =>
      some ⟨state, source, .followedBy lookahead, action⟩

theorem apply_eq (b : GrammarBuilder) (call : BuilderCall) :
    apply b call =
      ⟨b.keywords ++ call.keywords, b.builtins ++ call.builtins, b.drafts ++ call.draft?.toList⟩ := by
  obtain ⟨ks, bs, ds⟩ := b
  cases call with
  | addKeywords words =>
      simp [apply, GrammarBuilder.addKeywords, keywords, builtins, draft?]
  | addBuiltins words =>
      simp [apply, GrammarBuilder.addBuiltins, keywords, builtins, draft?]
  | rule state source action =>
      simp [apply, GrammarBuilder.rule, GrammarBuilder.addDraft, keywords, builtins, draft?]
  | literal state source action =>
      simp [apply, GrammarBuilder.literal, GrammarBuilder.addDraft, keywords, builtins, draft?]
  | ruleFollowedBy state source lookahead action =>
      simp [apply, GrammarBuilder.ruleFollowedBy, GrammarBuilder.addDraft, keywords, builtins, draft?]

end BuilderCall

/-- All keywords that the calls give. -/
def keywordsOf (calls : List BuilderCall) : List Text := calls.flatMap BuilderCall.keywords

/-- All builtins that the calls give. -/
def builtinsOf (calls : List BuilderCall) : List Text := calls.flatMap BuilderCall.builtins

/-- All rules that the calls give. -/
def draftsOf (calls : List BuilderCall) : List RuleDraft := calls.filterMap BuilderCall.draft?

namespace GrammarBuilder

/-- The builder after the calls, one after the other on a new one. -/
def ofCalls (calls : List BuilderCall) : GrammarBuilder := calls.foldl BuilderCall.apply empty

/-- A builder holds what the calls have given. -/
theorem ofCalls_eq (calls : List BuilderCall) :
    ofCalls calls = ⟨keywordsOf calls, builtinsOf calls, draftsOf calls⟩ := by
  have hfold (b : GrammarBuilder) : calls.foldl BuilderCall.apply b =
      ⟨b.keywords ++ keywordsOf calls, b.builtins ++ builtinsOf calls, b.drafts ++ draftsOf calls⟩ := by
    induction calls generalizing b with
    | nil => simp [keywordsOf, builtinsOf, draftsOf]
    | cons call calls ih =>
        rw [List.foldl_cons, ih, BuilderCall.apply_eq]
        cases hdraft : call.draft? <;>
          simp [keywordsOf, builtinsOf, draftsOf, List.flatMap_cons, hdraft]
  exact hfold empty

end GrammarBuilder

/-- All that is wrong with what the calls give: the words, then each rule by itself, then the states
without rules. -/
def violations (compiler : Pattern.Compiler) (calls : List BuilderCall) : List GrammarError :=
  Classifier.violations (keywordsOf calls) (builtinsOf calls) ++
    ((draftsOf calls).flatMap (RuleDraft.violations compiler) ++
      (RuleDraft.unsupported (draftsOf calls)).map .noRules)

/-- The grammar has every word and every rule that the calls give. -/
structure Keeps (compiler : Pattern.Compiler) (calls : List BuilderCall) (g : Grammar) : Prop where
  /-- The rules of each state are those that were given for it, in the same order. -/
  rules : ∀ state, List.Forall₂ (RuleDraft.Describes compiler)
    (RuleDraft.ofState state (draftsOf calls)) (g.rules state)
  keywords : g.classifier.keywords = (keywordsOf calls).eraseDups
  builtins : g.classifier.builtins = (builtinsOf calls).eraseDups
  classify : ∀ word, g.classifier.classify word =
    if word ∈ keywordsOf calls then .keyword
    else if word ∈ builtinsOf calls then .builtin
    else .identifier

/-- The calls give the same words and, for each state, the same rules, in the same orders. -/
structure GivesSame (calls calls' : List BuilderCall) : Prop where
  keywords : keywordsOf calls' = keywordsOf calls
  builtins : builtinsOf calls' = builtinsOf calls
  rules : ∀ state,
    RuleDraft.ofState state (draftsOf calls') = RuleDraft.ofState state (draftsOf calls)

variable {compiler : Pattern.Compiler}

theorem reports_build (compiler : Pattern.Compiler) (calls : List BuilderCall) :
    Reports ((GrammarBuilder.ofCalls calls).build compiler) (violations compiler calls) := by
  rw [GrammarBuilder.build_eq, GrammarBuilder.ofCalls_eq]
  refine (Classifier.reports_build _ _).bind fun classifier _ => ?_
  refine (RuleDraft.reports_checkAll _).bind fun table htable => ?_
  exact Grammar.reports_supported (RuleDraft.forall₂_rules htable)

theorem keeps_of_build {calls : List BuilderCall} {g : Grammar}
    (h : (GrammarBuilder.ofCalls calls).build compiler = .ok g) : Keeps compiler calls g := by
  obtain ⟨hclassifier, htable⟩ := GrammarBuilder.of_build h
  rw [GrammarBuilder.ofCalls_eq] at hclassifier htable
  have hwords := Classifier.eq_of_build hclassifier
  constructor
  · exact RuleDraft.forall₂_rules htable
  · rw [hwords]
  · rw [hwords]
  · intro word
    simp [hwords, Classifier.classify, Classifier.isKeyword, Classifier.isBuiltin]

theorem GivesSame.violations_eq_nil {calls calls' : List BuilderCall} (h : GivesSame calls calls')
    (hnone : violations compiler calls = []) : violations compiler calls' = [] := by
  obtain ⟨hwords, hown, hstates⟩ := by simpa only [violations, List.append_eq_nil_iff] using hnone
  rw [violations, h.keywords, h.builtins, hwords, List.nil_append, List.append_eq_nil_iff]
  constructor
  · rw [List.flatMap_eq_nil_iff] at hown ⊢
    intro draft hdraft
    -- the draft was given for its state by the other calls too
    have hmem : draft ∈ RuleDraft.ofState draft.state (draftsOf calls) := by
      rw [← h.rules, RuleDraft.ofState, List.mem_filter]
      exact ⟨hdraft, decide_eq_true rfl⟩
    exact hown draft (List.mem_of_mem_filter hmem)
  · simpa only [RuleDraft.unsupported, RuleDraft.entered, h.rules] using hstates

/-- Whatever makes patterns of texts, building reports the first violation; where there is none it
keeps every word and every rule. So neither dividing words into calls differently nor moving rules past
rules of other states changes the grammar. -/
theorem build_reports_first_violation (compiler : Pattern.Compiler) (calls : List BuilderCall) :
    (∀ e, (GrammarBuilder.ofCalls calls).build compiler = .error e ↔
      (violations compiler calls).head? = some e) ∧
    ((∃ g, (GrammarBuilder.ofCalls calls).build compiler = .ok g) ↔
      violations compiler calls = []) ∧
    (∀ g, (GrammarBuilder.ofCalls calls).build compiler = .ok g → Keeps compiler calls g) ∧
    (∀ calls', GivesSame calls calls' → draftsOf calls' = draftsOf calls →
      (GrammarBuilder.ofCalls calls').build compiler =
        (GrammarBuilder.ofCalls calls).build compiler) ∧
    (∀ calls' g, GivesSame calls calls' → (GrammarBuilder.ofCalls calls).build compiler = .ok g →
      ∃ g', (GrammarBuilder.ofCalls calls').build compiler = .ok g' ∧
        g'.classifier = g.classifier ∧ ∀ state, g'.rules state = g.rules state) := by
  have hreports := reports_build compiler calls
  refine ⟨hreports.eq_error_iff, hreports.exists_eq_ok_iff, fun g => keeps_of_build, ?_, ?_⟩
  · intro calls' hsame hdrafts
    rw [GrammarBuilder.ofCalls_eq, GrammarBuilder.ofCalls_eq, hsame.keywords, hsame.builtins, hdrafts]
  · intro calls' g hsame hbuild
    have hnone := hsame.violations_eq_nil (hreports.exists_eq_ok_iff.1 ⟨g, hbuild⟩)
    obtain ⟨g', hbuild'⟩ := (reports_build compiler calls').exists_eq_ok_iff.2 hnone
    have hkeeps := keeps_of_build hbuild
    have hkeeps' := keeps_of_build hbuild'
    refine ⟨g', hbuild', ?_, fun state => ?_⟩
    · have hkeywords := hkeeps'.keywords
      have hbuiltins := hkeeps'.builtins
      rw [hsame.keywords, ← hkeeps.keywords] at hkeywords
      rw [hsame.builtins, ← hkeeps.builtins] at hbuiltins
      calc g'.classifier = ⟨g'.classifier.keywords, g'.classifier.builtins⟩ := rfl
        _ = g.classifier := by rw [hkeywords, hbuiltins]
    · have hrules' := hkeeps'.rules state
      rw [hsame.rules] at hrules'
      exact List.right_unique_forall₂' RuleDraft.rightUnique_describes hrules' (hkeeps.rules state)

/-- Keywords given in two calls and a rule for digits given before those of another state; and calls with
four things wrong, of which the empty builtin is reported. -/
theorem build_reports_first_violation_reordered :
    (∃ calls calls' g g', GivesSame calls calls' ∧ calls' ≠ calls ∧
      (GrammarBuilder.ofCalls calls).build = .ok g ∧
      (GrammarBuilder.ofCalls calls').build = .ok g' ∧ g'.classifier = g.classifier ∧
      ∀ state, g'.rules state = g.rules state) ∧
    ∃ calls, (violations Pattern.compile calls).length = 4 ∧
      (GrammarBuilder.ofCalls calls).build = .error (.emptyWord .builtins) := by
  constructor
  · let opening : BuilderCall := .literal .root "(".toList (.push .comment .comment)
    let closing : BuilderCall := .literal .comment ")".toList (.pop .comment)
    let number : BuilderCall := .rule .root "\\d+".toList (.plain .integerNumber)
    let calls : List BuilderCall :=
      [.addKeywords ["if".toList, "then".toList], number, opening, closing]
    let calls' : List BuilderCall :=
      [closing, .addKeywords ["if".toList], number, .addKeywords ["then".toList], opening]
    have hsame : GivesSame calls calls' := by
      refine ⟨by decide, by decide, ?_⟩
      intro state
      cases state <;> decide
    obtain ⟨-, hsucceeds, -, -, hreordered⟩ := build_reports_first_violation Pattern.compile calls
    obtain ⟨g, hbuild⟩ := hsucceeds.2 (by decide +kernel)
    obtain ⟨g', hbuild', hclassifier, hrules⟩ := hreordered calls' g hsame hbuild
    exact ⟨calls, calls', g, g', hsame, by decide, hbuild, hbuild', hclassifier, hrules⟩
  · let calls : List BuilderCall :=
      [.rule .root "x*".toList (.pop .comment), .addKeywords ["if".toList],
        .addBuiltins ["if".toList, []]]
    have hfirst : (violations Pattern.compile calls).head? = some (.emptyWord .builtins) := by
      decide +kernel
    obtain ⟨hreported, -⟩ := build_reports_first_violation Pattern.compile calls
    exact ⟨calls, by decide +kernel, (hreported _).2 hfirst⟩

end JsoniqLexer

import JsoniqLexer.Grammar.Basic

/-!
# Building grammars

Words and rules are collected in any order and checked together by `build`: the words first, then
each rule in the order given, then that no state can be entered that has no rules. The first check
that fails is reported. Which texts are patterns is not for the builder to say: what makes patterns of
texts is an argument of the checks.
-/

set_option autoImplicit false

namespace JsoniqLexer

/-- How the text of a rule is meant. -/
inductive RuleForm where
  /-- As a pattern. -/
  | pattern
  /-- As the very text to be matched. -/
  | literal
  /-- As a pattern that applies only where `lookahead` matches right after it. -/
  | followedBy (lookahead : Text)
deriving DecidableEq, Repr

/-- A rule that has not been checked. -/
structure RuleDraft where
  state : State
  source : Text
  form : RuleForm
  action : Action
deriving DecidableEq, Repr

/-- The words and rules of a grammar to be built. -/
structure GrammarBuilder where
  keywords : List Text
  builtins : List Text
  drafts : List RuleDraft
deriving DecidableEq, Repr

namespace RuleDraft

/-- A text as a pattern. -/
def compile (source : Text) (compiler : Pattern.Compiler := Pattern.compile) :
    Except GrammarError Pattern :=
  match compiler source with
  | .ok p => .ok p
  | .error cause => .error (.invalidPattern source cause)

/-- The pattern of a rule. -/
def compilePattern (compiler : Pattern.Compiler) (draft : RuleDraft) :
    Except GrammarError Pattern :=
  match draft.form with
  | .literal => compile (Pattern.escape draft.source) compiler
  | .pattern | .followedBy _ => compile draft.source compiler

/-- The lookahead of a rule. -/
def compileLookahead (compiler : Pattern.Compiler) (draft : RuleDraft) :
    Except GrammarError (Option Pattern) :=
  match draft.form with
  | .followedBy lookahead => (compile lookahead compiler).map some
  | .pattern | .literal => .ok none

/-- Checks one rule: the root state is never left, the pattern and then the lookahead have to be
patterns, and the pattern may not match the empty text. -/
def check (compiler : Pattern.Compiler) (draft : RuleDraft) :
    Except GrammarError (State × Rule) :=
  if draft.state = .root ∧ draft.action.isPop then .error (.popInRoot draft.source)
  else
    match draft.compilePattern compiler with
    | .error e => .error e
    | .ok pattern =>
        if pattern.matchesEmpty then .error (.emptyMatch draft.source)
        else
          match draft.compileLookahead compiler with
          | .error e => .error e
          | .ok lookahead => .ok (draft.state, ⟨pattern, lookahead, draft.action⟩)

/-- Checks rules in order, up to the first that fails. -/
def checkAll (compiler : Pattern.Compiler) :
    List RuleDraft → Except GrammarError (List (State × Rule))
  | [] => .ok []
  | draft :: drafts =>
      match draft.check compiler with
      | .error e => .error e
      | .ok rule =>
          match checkAll compiler drafts with
          | .error e => .error e
          | .ok rules => .ok (rule :: rules)

end RuleDraft

/-- The states that the lexer can be in: the root state, and what the rules push, rules taken by
state and then by place. -/
def Grammar.required (g : Grammar) : List State :=
  .root :: (State.all.flatMap g.rules).filterMap fun rule => rule.action.target?

namespace GrammarBuilder

/-- No words and no rules. -/
def empty : GrammarBuilder := ⟨[], [], []⟩

/-- With more keywords. -/
def addKeywords (b : GrammarBuilder) (words : List Text) : GrammarBuilder :=
  { b with keywords := b.keywords ++ words }

/-- With more builtins. -/
def addBuiltins (b : GrammarBuilder) (words : List Text) : GrammarBuilder :=
  { b with builtins := b.builtins ++ words }

/-- With one more rule, last in its state. -/
def addDraft (b : GrammarBuilder) (draft : RuleDraft) : GrammarBuilder :=
  { b with drafts := b.drafts ++ [draft] }

/-- With a rule for a pattern. -/
def rule (b : GrammarBuilder) (state : State) (source : Text) (action : Action) : GrammarBuilder :=
  b.addDraft ⟨state, source, .pattern, action⟩

/-- With a rule for a fixed text. -/
def literal (b : GrammarBuilder) (state : State) (source : Text) (action : Action) :
    GrammarBuilder :=
  b.addDraft ⟨state, source, .literal, action⟩

/-- With a rule for a pattern that applies only where another pattern matches right after it. -/
def ruleFollowedBy (b : GrammarBuilder) (state : State) (source lookahead : Text)
    (action : Action) : GrammarBuilder :=
  b.addDraft ⟨state, source, .followedBy lookahead, action⟩

/-- The grammar, or the first check that fails. -/
def build (b : GrammarBuilder) (compiler : Pattern.Compiler := Pattern.compile) :
    Except GrammarError Grammar :=
  match Classifier.build b.keywords b.builtins with
  | .error e => .error e
  | .ok classifier =>
      match RuleDraft.checkAll compiler b.drafts with
      | .error e => .error e
      | .ok table =>
          let g : Grammar := ⟨table, classifier⟩
          match g.required.find? fun state => (g.rules state).isEmpty with
          | some state => .error (.noRules state)
          | none => .ok g

end GrammarBuilder

end JsoniqLexer

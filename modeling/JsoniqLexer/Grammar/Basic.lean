import JsoniqLexer.Grammar.Classifier
import JsoniqLexer.Grammar.Rule

/-!
# Grammars

A grammar is a table of rules, each in a state, and a classifier of words. The order of the rules of
a state is their priority: `select` takes the first one that matches. `select_eq_some_iff` says so.
-/

set_option autoImplicit false

namespace JsoniqLexer

/-- Rules with their states, and the words. -/
structure Grammar where
  table : List (State × Rule)
  classifier : Classifier
deriving DecidableEq, Repr

/-- A rule that was selected, its place among the rules of the state, and its lexeme's length in
bytes. -/
structure Selection where
  index : Nat
  rule : Rule
  length : Nat
deriving DecidableEq, Repr

namespace Grammar

/-- The rules of a state, in order. -/
def rules (g : Grammar) (state : State) : List Rule :=
  g.table.filterMap fun entry => if entry.1 = state then some entry.2 else none

/-- The first of the rules that matches, `index` being the place of the first one. -/
def selectFrom (text : Text) : (index : Nat) → List Rule → Option Selection
  | _, [] => none
  | index, rule :: rules =>
      match rule.matchLength? text with
      | some length => some ⟨index, rule, length⟩
      | none => selectFrom text (index + 1) rules

/-- The first rule of `state` that matches at the start of `text`. -/
def select (g : Grammar) (state : State) (text : Text) : Option Selection :=
  selectFrom text 0 (g.rules state)

/-- The category that a rule gives to its lexeme. -/
def categoryOf (g : Grammar) (action : Action) (lexeme : Text) : Category :=
  match action with
  | .plain category | .push category _ | .pop category => category
  | .classified => g.classifier.classify lexeme

theorem selectFrom_eq_some_iff {text : Text} {start : Nat} {rules : List Rule} {s : Selection} :
    selectFrom text start rules = some s ↔
      ∃ before after, rules = before ++ s.rule :: after ∧ s.index = start + before.length ∧
        (∀ r ∈ before, r.matchLength? text = none) ∧ s.rule.matchLength? text = some s.length := by
  induction rules generalizing start with
  | nil => simp [selectFrom]
  | cons rule rules ih =>
      rw [selectFrom]
      cases hmatch : rule.matchLength? text with
      | some length =>
          constructor
          · rintro h
            obtain rfl := Option.some.inj h
            exact ⟨[], rules, rfl, rfl, by simp, hmatch⟩
          · rintro ⟨before, after, hrules, hindex, hnone, hsome⟩
            cases before with
            | nil =>
                simp only [List.nil_append, List.cons.injEq] at hrules
                obtain ⟨rfl, rfl⟩ := hrules
                rw [hmatch] at hsome
                obtain rfl := Option.some.inj hsome
                simp at hindex
                rw [← hindex]
            | cons first before =>
                simp only [List.cons_append, List.cons.injEq] at hrules
                have := hnone first (by simp)
                rw [← hrules.1, hmatch] at this
                cases this
      | none =>
          simp only
          rw [ih]
          constructor
          · rintro ⟨before, after, hrules, hindex, hnone, hsome⟩
            refine ⟨rule :: before, after, by rw [hrules]; rfl, ?_, ?_, hsome⟩
            · simp [hindex]; omega
            · intro r hr
              rcases List.mem_cons.1 hr with rfl | hr
              · exact hmatch
              · exact hnone r hr
          · rintro ⟨before, after, hrules, hindex, hnone, hsome⟩
            cases before with
            | nil =>
                simp only [List.nil_append, List.cons.injEq] at hrules
                rw [← hrules.1, hmatch] at hsome
                cases hsome
            | cons first before =>
                simp only [List.cons_append, List.cons.injEq] at hrules
                refine ⟨before, after, hrules.2, ?_, fun r hr => hnone r (by simp [hr]), hsome⟩
                simp [hindex]; omega

/-- The selected rule matches, and no rule before it does. -/
theorem select_eq_some_iff {g : Grammar} {state : State} {text : Text} {s : Selection} :
    g.select state text = some s ↔
      ∃ before after, g.rules state = before ++ s.rule :: after ∧ s.index = before.length ∧
        (∀ r ∈ before, r.matchLength? text = none) ∧ s.rule.matchLength? text = some s.length := by
  rw [select, selectFrom_eq_some_iff]
  simp

/-- The length of a selection is the length of a beginning of the text that is not empty. -/
theorem of_select {g : Grammar} {state : State} {text : Text} {s : Selection}
    (h : g.select state text = some s) :
    ∃ lexeme rest, text = lexeme ++ rest ∧ lexeme ≠ [] ∧ lexeme.byteLength = s.length := by
  obtain ⟨_, _, _, _, _, hmatch⟩ := select_eq_some_iff.1 h
  exact Rule.of_matchLength? hmatch

end Grammar

end JsoniqLexer

import JsoniqLexer.Proofs.Jsoniq.Stack
import JsoniqLexer.Proofs.Lexer.Restart

/-!
# What can be open in a JSONiq text

Above the root stand comments in comments, or one string, or nothing: never constructs of two kinds
(`Nests`). So a lexer in the root state has nothing open, and as long as something is open, every
token has the category of its kind (`Nests.step`).
-/

set_option autoImplicit false

namespace JsoniqLexer.Lexer

open TokenStream Token Jsoniq

/-- The outermost construct is the root, and above it stand only constructs of one kind. -/
structure Nests (kind : State) (l : Lexer) : Prop where
  grammar : l.grammar = .jsoniq
  kind_ne : kind ≠ .root
  bottom : ∀ frame ∈ l.frames.head?, frame.state = .root
  inside : ∀ frame ∈ l.inner, frame.state = kind

theorem nests_lex (source : Text) : Nests .comment (Grammar.jsoniq.lex source) := by
  constructor
  · exact grammar_lex .jsoniq source
  · decide
  · intro frame hframe
    obtain rfl := Option.some.inj hframe
    rfl
  · intro frame hframe
    cases hframe

namespace Nests

variable {kind : State} {l next : Lexer} {s : Selection} {lexeme : Text}

/-- Where something is open above the root, the lexer is inside of it. -/
theorem state_eq (h : l.Nests kind) (hinner : l.inner ≠ []) : l.state = kind :=
  h.inside l.top (List.mem_of_getLast? (getLast?_inner hinner))

theorem state_eq_root (h : l.Nests kind) (hinner : l.inner = []) : l.state = .root := by
  have hbelow := inner_eq_nil_iff.1 hinner
  apply h.bottom l.top
  rw [frames, hbelow]
  rfl

theorem inner_eq_nil (h : l.Nests kind) (hstate : l.state = .root) : l.inner = [] := by
  by_contra hinner
  have hkind := h.state_eq hinner
  rw [hstate] at hkind
  exact h.kind_ne hkind.symm

/-- The rule that is selected is the rule of a line, which finds something in the text. -/
theorem exists_line (h : l.Nests kind) (hadvances : l.Advances s lexeme next) :
    ∃ line ∈ lines l.state, s.rule.action = line.action ∧
      line.rule.matchLength? l.cursor.remaining = some s.length := by
  have hselect := hadvances.selected
  rw [h.grammar] at hselect
  obtain ⟨line, hline, hrule, hmatch⟩ := exists_line_of_select hselect
  exact ⟨line, hline, by rw [← hrule]; rfl, hmatch⟩

/-- A push enters another construct of the kind that is open, or a first one. -/
theorem of_push {category : Category} {target : State} (h : l.Nests kind)
    (hadvances : l.Advances s lexeme next) (haction : s.rule.action = .push category target) :
    next.Nests target ∧ (l.inner ≠ [] → target = kind) ∧
      target.category? = some (l.tokenFor s lexeme).category := by
  obtain ⟨line, hline, hact, -⟩ := h.exists_line hadvances
  have htarget : line.action.target? = some target := by
    rw [← hact, haction]
    rfl
  have hcases := target_of_mem_lines hline htarget
  -- where something is open already, only comments are entered
  have hsame : l.inner ≠ [] → target = kind := by
    intro hinner
    have hkind := h.state_eq hinner
    rcases hcases with ⟨rfl, hroot | hcomment⟩ | ⟨hroot, -⟩
    · exact absurd (hkind.symm.trans hroot) h.kind_ne
    · exact hcomment.symm.trans hkind
    · exact absurd (hkind.symm.trans hroot) h.kind_ne
  have htarget_ne : target ≠ .root := by
    rcases hcases with ⟨rfl, -⟩ | ⟨-, q, rfl⟩
    · decide
    · cases q <;> decide
  have hcategory := (category_of_mem_lines hline).2 target htarget
  rw [← hact, haction] at hcategory
  refine ⟨⟨hadvances.grammar.trans h.grammar, htarget_ne, ?_, ?_⟩, hsame, ?_⟩
  · rw [hadvances.frames, head?_frames_transition]
    exact h.bottom
  · rw [hadvances.inner, haction, inner_transition_push]
    intro frame hframe
    rcases List.mem_append.1 hframe with hframe | hframe
    · rw [h.inside frame hframe, hsame (List.ne_nil_of_mem hframe)]
    · obtain rfl := List.mem_singleton.1 hframe
      rfl
  · rw [← hcategory, tokenFor, ofLexeme, haction]
    rfl

/-- An action that pushes nothing leaves only what was open. -/
theorem of_subset (h : l.Nests kind) (hadvances : l.Advances s lexeme next)
    (hsub : next.inner ⊆ l.inner) : next.Nests kind := by
  constructor
  · exact hadvances.grammar.trans h.grammar
  · exact h.kind_ne
  · rw [hadvances.frames, head?_frames_transition]
    exact h.bottom
  · intro frame hframe
    exact h.inside frame (hsub hframe)

/-- Everything that is emitted inside of a construct has its category. -/
theorem category_of_inner (h : l.Nests kind) (hadvances : l.Advances s lexeme next)
    (hinner : l.inner ≠ []) : kind.category? = some (l.tokenFor s lexeme).category := by
  obtain ⟨line, hline, haction, -⟩ := h.exists_line hadvances
  have hkind := h.state_eq hinner
  have hcategory := (category_of_mem_lines hline).1 (by rw [hkind]; exact h.kind_ne)
  rw [hkind, ← haction] at hcategory
  obtain ⟨category, hsome⟩ : ∃ category, kind.category? = some category := by
    have hne := h.kind_ne
    cases kind with
    | root => exact absurd rfl hne
    | comment => exact ⟨_, rfl⟩
    | doubleQuoted => exact ⟨_, rfl⟩
    | singleQuoted => exact ⟨_, rfl⟩
  rw [hsome] at hcategory ⊢
  exact congrArg some (Grammar.categoryOf_eq hcategory).symm

/-- A step stays inside of constructs of the kind that is open, and if it leaves something open, the
kind has the category of the token. -/
theorem step {t : Token} (h : l.Nests kind) (hstep : l.step = (.ok (some t), next)) :
    ∃ kind', next.Nests kind' ∧ (l.inner ≠ [] → kind' = kind) ∧
      (next.inner ≠ [] → kind'.category? = some t.category) := by
  obtain ⟨s, lexeme, hadvances, rfl⟩ := step_eq_token_iff.1 hstep
  have hinner := hadvances.inner
  cases haction : s.rule.action with
  | plain category | classified =>
      have hsame : next.inner = l.inner := by
        rw [hinner, haction]
        rfl
      have hsub : next.inner ⊆ l.inner := by
        rw [hsame]
        exact List.Subset.refl _
      refine ⟨kind, h.of_subset hadvances hsub, fun _ => rfl, ?_⟩
      intro hne
      exact h.category_of_inner hadvances (hsame ▸ hne)
  | push category target =>
      obtain ⟨hnext, hsame, hcategory⟩ := h.of_push hadvances haction
      exact ⟨target, hnext, hsame, fun _ => hcategory⟩
  | pop category =>
      have hdrop : next.inner = l.inner.dropLast := by
        rw [hinner, haction, inner_transition_pop]
      have hsub : next.inner ⊆ l.inner := by
        rw [hdrop]
        exact List.dropLast_subset _
      refine ⟨kind, h.of_subset hadvances hsub, fun _ => rfl, ?_⟩
      intro hne
      apply h.category_of_inner hadvances
      intro hnil
      rw [hdrop, hnil] at hne
      exact hne rfl

end Nests

/-! ## The line of a step -/

/-- The step to `next` takes what the line finds. -/
structure StepsBy (l : Lexer) (line : Line) (t : Token) (next : Lexer) : Prop where
  mem : line ∈ lines l.state
  remaining : l.cursor.remaining = t.lexeme ++ next.cursor.remaining
  matched : line.rule.matchLength? l.cursor.remaining = some t.lexeme.byteLength
  start : t.start = l.position
  stop : t.stop = l.position + t.lexeme.byteLength
  category : t.category = Grammar.jsoniq.categoryOf line.action t.lexeme
  inner : next.inner = (l.transition line.action).inner

theorem Nests.exists_stepsBy {kind : State} {l next : Lexer} {t : Token} (h : l.Nests kind)
    (hstep : l.step = (.ok (some t), next)) : ∃ line, l.StepsBy line t next := by
  obtain ⟨s, lexeme, hadvances, rfl⟩ := step_eq_token_iff.1 hstep
  obtain ⟨line, hline, haction, hmatch⟩ := h.exists_line hadvances
  refine ⟨line, hline, hadvances.remaining, ?_, rfl, rfl, ?_, ?_⟩
  · rw [hmatch, ← hadvances.length]
    rfl
  · rw [← haction, ← h.grammar]
    rfl
  · rw [← haction]
    exact hadvances.inner

namespace StepsBy

variable {l next : Lexer} {line : Line} {t : Token}

/-- The line may take the lexeme where it stands. -/
theorem admits (h : l.StepsBy line t next) : line.rule.Admits t.lexeme next.cursor.remaining := by
  obtain ⟨x, rest, htext, hadmits, hlength⟩ := Line.admits_of_matchLength? h.matched
  rw [h.remaining] at htext
  obtain ⟨rfl, rfl⟩ := Text.append_inj_of_byteLength htext hlength.symm
  exact hadmits

theorem matches_lexeme (h : l.StepsBy line t next) : line.form.regex.Matches none t.lexeme [] :=
  line.form.matches_pattern_iff.1 h.admits.2.1

/-- The line may take nothing longer. -/
theorem byteLength_le {x rest : Text} (h : l.StepsBy line t next)
    (htext : l.cursor.remaining = x ++ rest) (hadmits : line.rule.Admits x rest) :
    x.byteLength ≤ t.lexeme.byteLength := by
  have hgreatest := line.matchLength?_eq_some_iff.1 h.matched
  exact hgreatest.2 ⟨x, rest, htext, hadmits, rfl⟩

end StepsBy

/-- Every lexer that a run of a JSONiq text comes to is nested in this way. -/
theorem exists_nests {source : Text} {tokens : List Token} {l : Lexer}
    (h : Yields (Grammar.jsoniq.lex source) tokens l) : ∃ kind, l.Nests kind := by
  refine h.preserves (p := fun l => ∃ kind, Nests kind l) ?_ ⟨.comment, nests_lex source⟩
  rintro m next t ⟨kind, hm⟩ hnext
  obtain ⟨kind', hnext', -⟩ := hm.step hnext
  exact ⟨kind', hnext'⟩

end JsoniqLexer.Lexer

import JsoniqLexer.Proofs.Jsoniq.Selection
import JsoniqLexer.Proofs.Lexer.Tiling

/-!
# The stack of a JSONiq lexer

What the actions of each state can be, and what they do to a stack on which only comments are open
(`HasOpen`): such a stack grows and shrinks by comments, and nothing else is entered but a string,
and only from the outside.
-/

set_option autoImplicit false

namespace JsoniqLexer

open TokenStream Token

/-- The category that an action gives whatever its lexeme is. -/
def Action.category? : Action → Option Category
  | .plain category | .push category _ | .pop category => some category
  | .classified => none

/-- The category of everything inside of a construct. -/
def State.category? : State → Option Category
  | .root => none
  | .comment => some .comment
  | .doubleQuoted => some .stringDouble
  | .singleQuoted => some .stringSingle

theorem Grammar.categoryOf_eq {g : Grammar} {action : Action} {lexeme : Text} {category : Category}
    (h : action.category? = some category) : g.categoryOf action lexeme = category := by
  cases action with
  | plain own => exact Option.some.inj h
  | classified => cases h
  | push own target => exact Option.some.inj h
  | pop own => exact Option.some.inj h

/-- The categories of words. -/
def Category.isWord : Category → Bool
  | .keyword | .builtin | .identifier => true
  | _ => false

theorem Classifier.isWord_classify (c : Classifier) (word : Text) :
    (c.classify word).isWord = true := by
  rw [classify]
  split
  · rfl
  · split
    · rfl
    · rfl

/-- A category that no word has comes from the action. -/
theorem Grammar.category?_of_categoryOf {g : Grammar} {action : Action} {lexeme : Text}
    {category : Category} (h : g.categoryOf action lexeme = category)
    (hword : category.isWord = false) : action.category? = some category := by
  cases action with
  | plain own => exact congrArg some h
  | classified =>
      have hisWord := g.classifier.isWord_classify lexeme
      rw [show g.classifier.classify lexeme = category from h, hword] at hisWord
      cases hisWord
  | push own target => exact congrArg some h
  | pop own => exact congrArg some h

namespace Jsoniq

/-- What is selected is the rule of a line. -/
theorem exists_line_of_select {state : State} {text : Text} {s : Selection}
    (h : Grammar.jsoniq.select state text = some s) :
    ∃ line ∈ lines state, line.rule = s.rule ∧ line.rule.matchLength? text = some s.length := by
  obtain ⟨before, after, hrules, -, -, hmatch⟩ := Grammar.select_eq_some_iff.1 h
  have hmem : s.rule ∈ (lines state).map Line.rule := by
    rw [← rules_eq, hrules]
    exact List.mem_append_right _ List.mem_cons_self
  obtain ⟨line, hline, hrule⟩ := List.mem_map.1 hmem
  exact ⟨line, hline, hrule, hrule ▸ hmatch⟩

/-- What a line does inside of a construct has the category of the construct, and so has what it
does to enter one. -/
theorem category_of_mem_lines {state : State} {line : Line} (h : line ∈ lines state) :
    (state ≠ .root → line.action.category? = state.category?) ∧
      ∀ target ∈ line.action.target?, line.action.category? = target.category? := by
  have hall : ∀ s ∈ State.all, ∀ l ∈ lines s,
      (s ≠ .root → l.action.category? = s.category?) ∧
        ∀ target ∈ l.action.target?, l.action.category? = target.category? := by
    decide
  exact hall state state.mem_all line h

/-- From the outside a comment or a string is entered, from a comment another comment, and from a
string nothing. -/
theorem target_of_mem_lines {state target : State} {line : Line} (h : line ∈ lines state)
    (htarget : line.action.target? = some target) :
    target = .comment ∧ (state = .root ∨ state = .comment) ∨
      state = .root ∧ ∃ q : Quote, target = q.state := by
  have hall : ∀ s ∈ State.all, ∀ l ∈ lines s, ∀ t ∈ l.action.target?,
      t = .comment ∧ (s = .root ∨ s = .comment) ∨
        s = .root ∧ (t = Quote.double.state ∨ t = Quote.single.state) := by
    decide
  -- checked for all lines at once, with the two kinds of strings named
  rcases hall state state.mem_all line h target htarget with hcomment | ⟨hroot, rfl | rfl⟩
  · exact .inl hcomment
  · exact .inr ⟨hroot, .double, rfl⟩
  · exact .inr ⟨hroot, .single, rfl⟩

/-- Nothing is left from the outside. -/
theorem not_isPop_of_mem_root {line : Line} (h : line ∈ lines .root) :
    line.action.isPop = false := by
  have hall : ∀ l ∈ lines .root, l.action.isPop = false := by decide
  exact hall line h

end Jsoniq

namespace Lexer

/-- Where it is known what is selected, a lexer emits a token for the lexeme, in the category that
the action gives, and goes on over it. -/
theorem exists_step_of_selects {l : Lexer} {action : Action} {category : Category}
    {lexeme rest : Text} (hgrammar : l.grammar = .jsoniq)
    (hremaining : l.cursor.remaining = lexeme ++ rest)
    (h : Jsoniq.Selects l.state (lexeme ++ rest) action lexeme)
    (hcategory : action.category? = some category) :
    ∃ s t next, l.step = (.ok (some t), next) ∧ t.category = category ∧
      l.Advances s lexeme next ∧ s.rule.action = action ∧ next.cursor.remaining = rest := by
  obtain ⟨s, hselect, haction, hlength⟩ := h
  rw [← hgrammar, ← hremaining] at hselect
  obtain ⟨x, next, hadvances⟩ := exists_advances hselect
  -- the lexeme is known by its length
  have htext := hadvances.remaining
  rw [hremaining] at htext
  have hsame := hlength.symm.trans hadvances.length.symm
  obtain ⟨rfl, hrest⟩ := Text.append_inj_of_byteLength htext hsame
  refine ⟨s, l.tokenFor s lexeme, next, ?_, ?_, hadvances, haction, hrest.symm⟩
  · exact step_eq_token_iff.2 ⟨s, lexeme, hadvances, rfl⟩
  · exact Grammar.categoryOf_eq (haction ▸ hcategory)

/-- A JSONiq lexer goes on to its end from everywhere. -/
theorem exists_run_jsoniq {l : Lexer} (h : l.grammar = .jsoniq) :
    ∃ tokens last, Yields l tokens last ∧ Ended last := by
  refine @exists_yields_ended Lexer _ (fun l => l.grammar = .jsoniq) ?_ l h
  intro l hl
  by_cases hnil : l.cursor.remaining = []
  · exact .inl (ended_iff.2 hnil)
  · obtain ⟨s, hselect⟩ := Jsoniq.exists_select l.state hnil
    rw [← hl] at hselect
    obtain ⟨lexeme, next, hadvances⟩ := exists_advances hselect
    exact .inr ⟨l.tokenFor s lexeme, next, step_eq_token_iff.2 ⟨s, lexeme, hadvances, rfl⟩,
      hadvances.grammar.trans hl⟩

/-- Only comments are open, from the innermost to the outermost. -/
structure HasOpen (l : Lexer) (comments : List Frame) : Prop where
  grammar : l.grammar = .jsoniq
  frames : ∃ bottom, l.top :: l.below = comments ++ [bottom] ∧ bottom.state = .root
  states : ∀ frame ∈ comments, frame.state = .comment

namespace HasOpen

variable {l next : Lexer} {s : Selection} {lexeme : Text} {comments : List Frame}
  {category : Category}

theorem depth_eq (h : l.HasOpen comments) : l.depth = 1 + comments.length := by
  obtain ⟨bottom, hframes, -⟩ := h.frames
  have hlength := congrArg List.length hframes
  simp only [List.length_cons, List.length_append, List.length_nil] at hlength
  rw [depth]
  omega

theorem state_eq_root (h : l.HasOpen []) : l.state = .root := by
  obtain ⟨bottom, hframes, hroot⟩ := h.frames
  obtain ⟨htop, -⟩ := List.cons.inj hframes
  rw [state, htop, hroot]

theorem state_eq_comment {frame : Frame} (h : l.HasOpen (frame :: comments)) :
    l.state = .comment := by
  obtain ⟨bottom, hframes, -⟩ := h.frames
  obtain ⟨htop, -⟩ := List.cons.inj hframes
  rw [state, htop]
  exact h.states frame List.mem_cons_self

theorem termination_eq (h : l.HasOpen comments) :
    l.termination = match comments.getLast? with
      | none => .complete
      | some frame => .unterminated frame.state frame.openedAt := by
  -- outermost first, the frame after the root is the last of the comments
  obtain ⟨bottom, hframes, -⟩ := h.frames
  have hsecond : l.frames[1]? = comments.getLast? := by
    rw [Lexer.frames, hframes, List.reverse_append, List.getLast?_eq_head?_reverse,
      List.head?_eq_getElem?]
    rfl
  cases hlast : comments.getLast? with
  | none => rw [termination, hsecond, hlast]
  | some frame => rw [termination, hsecond, hlast]

/-- A step that enters and leaves nothing. -/
theorem of_plain (h : l.HasOpen comments) (hadvances : l.Advances s lexeme next)
    (haction : s.rule.action = .plain category ∨ s.rule.action = .classified) :
    next.HasOpen comments := by
  refine ⟨hadvances.grammar.trans h.grammar, ?_, h.states⟩
  rw [hadvances.top, hadvances.below]
  rcases haction with haction | haction
  · rw [haction]
    exact h.frames
  · rw [haction]
    exact h.frames

/-- A step that enters a comment. -/
theorem of_push (h : l.HasOpen comments) (hadvances : l.Advances s lexeme next)
    (haction : s.rule.action = .push category .comment) :
    next.HasOpen (⟨.comment, l.position⟩ :: comments) := by
  obtain ⟨bottom, hframes, hroot⟩ := h.frames
  refine ⟨hadvances.grammar.trans h.grammar, ⟨bottom, ?_, hroot⟩, ?_⟩
  · rw [hadvances.top, hadvances.below, haction]
    exact congrArg (List.cons _) hframes
  · exact List.forall_mem_cons.2 ⟨rfl, h.states⟩

/-- A step that leaves the innermost comment. -/
theorem of_pop {frame : Frame} (h : l.HasOpen (frame :: comments))
    (hadvances : l.Advances s lexeme next) (haction : s.rule.action = .pop category) :
    next.HasOpen comments := by
  obtain ⟨bottom, hframes, hroot⟩ := h.frames
  have hbelow : l.below = comments ++ [bottom] := (List.cons.inj hframes).2
  refine ⟨hadvances.grammar.trans h.grammar, ⟨bottom, ?_, hroot⟩, ?_⟩
  · rw [hadvances.top, hadvances.below, haction, transition, ← hbelow]
    -- under a comment there is another frame, so the root is not asked to go
    cases hcases : l.below with
    | nil =>
        rw [hcases] at hbelow
        cases comments <;> cases hbelow
    | cons outer below => rfl
  · exact (List.forall_mem_cons.1 h.states).2

end HasOpen

end Lexer

end JsoniqLexer

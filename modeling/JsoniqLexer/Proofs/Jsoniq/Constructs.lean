import JsoniqLexer.Proofs.Jsoniq.Opening
import JsoniqLexer.Proofs.Lexer.Memoryless

/-!
# Which constructs can be open together

Above the root of a JSONiq lexer stand comments in comments, or one string, or nothing (`Nested`).
A line that enters something finds a place for it, and what is left when something is closed is
nested as before, so every step keeps this. Each open construct was entered by a token that is its
opener, and the tokens that enter it, stand in it and close it have its category (`HoldsOpen`).
-/

set_option autoImplicit false

namespace JsoniqLexer

open TokenStream Token Jsoniq

namespace Jsoniq

/-- The states above the root, outermost first: none, comments, or one string. -/
inductive Nested : List State → Prop
  | outside : Nested []
  | comments (n : Nat) : Nested (List.replicate (n + 1) .comment)
  | string (q : Quote) : Nested [q.state]

namespace Nested

variable {above : List State}

/-- What is left when the innermost construct is closed. -/
theorem dropLast (h : Nested above) : Nested above.dropLast := by
  cases h with
  | outside => exact .outside
  | comments n =>
      rw [List.replicate_succ', List.dropLast_concat]
      cases n with
      | zero => exact .outside
      | succ n => exact .comments n
  | string q => exact .outside

/-- What a line of the innermost state enters has a place there. -/
theorem concat {state target : State} {line : Line} (h : Nested above)
    (hstate : above.getLast?.getD .root = state) (hline : line ∈ lines state)
    (htarget : line.action.target? = some target) : Nested (above ++ [target]) := by
  have hcases := target_of_mem_lines hline htarget
  cases h with
  | outside =>
      obtain rfl : State.root = state := hstate
      rcases hcases with ⟨rfl, -⟩ | ⟨-, q, rfl⟩
      · exact .comments 0
      · exact .string q
  | comments n =>
      rw [List.replicate_succ', List.getLast?_concat] at hstate
      obtain rfl : State.comment = state := hstate
      rcases hcases with ⟨rfl, -⟩ | ⟨hroot, -⟩
      · rw [← List.replicate_succ']
        exact .comments (n + 1)
      · cases hroot
  | string q =>
      -- inside of a string no line enters anything
      obtain rfl : q.state = state := hstate
      rcases hcases with ⟨-, hroot | hcomment⟩ | ⟨hroot, -⟩
      · cases q <;> cases hroot
      · cases q <;> cases hcomment
      · cases q <;> cases hroot

end Nested

end Jsoniq

namespace Lexer

variable {kind : State} {l next : Lexer} {line : Line} {t : Token} {tokens : List Token}

/-- The lexer is in the innermost state above the root, or in the root. -/
theorem Nests.getLast?_states (h : l.Nests kind) :
    (l.inner.map Frame.state).getLast?.getD .root = l.state := by
  by_cases hinner : l.inner = []
  · rw [hinner, h.state_eq_root hinner]
    rfl
  · rw [List.getLast?_map, getLast?_inner hinner]
    rfl

namespace StepsBy

/-- A token that enters a construct is its opener. -/
theorem lexeme_eq_opener {target : State} (h : l.StepsBy line t next)
    (htarget : line.action.target? = some target) : t.lexeme = target.opener := by
  have hmatches := h.matches_lexeme
  rwa [form_of_target h.mem htarget, Pattern.Regex.matches_ofText] at hmatches

/-- A token that enters a construct has its category. -/
theorem category_of_target {target : State} (h : l.StepsBy line t next)
    (htarget : line.action.target? = some target) : target.category? = some t.category := by
  have hsame := (category_of_mem_lines h.mem).2 target htarget
  obtain ⟨category, haction⟩ := Action.exists_push_of_target htarget
  rw [h.category, haction, ← hsame, haction]
  rfl

/-- A token inside of a construct, or the one that closes it, has its category. -/
theorem category_eq {category : Category} (h : l.StepsBy line t next)
    (hcategory : l.state.category? = some category) : t.category = category := by
  have hroot : l.state ≠ .root := by
    intro hroot
    rw [hroot] at hcategory
    cases hcategory
  have hsame := (category_of_mem_lines h.mem).1 hroot
  rw [h.category]
  exact Grammar.categoryOf_eq (hsame.trans hcategory)

/-- Where one more construct stands above the others, the line has entered it. -/
theorem target_of_inner {frame : Frame} (h : l.StepsBy line t next)
    (hinner : next.inner = l.inner ++ [frame]) :
    line.action.target? = some frame.state ∧ frame.openedAt = t.start := by
  have hlength := congrArg List.length (h.inner.symm.trans hinner)
  rw [h.inner] at hinner
  rw [List.length_append, List.length_singleton] at hlength
  cases haction : line.action with
  | plain category | classified =>
      rw [haction] at hlength
      exact absurd hlength (Nat.ne_of_lt (Nat.lt_succ_self _))
  | push category target =>
      rw [haction, inner_transition_push] at hinner
      obtain ⟨-, hframe⟩ := List.append_inj' hinner rfl
      rw [← List.singleton_inj.1 hframe, h.start]
      exact ⟨rfl, rfl⟩
  | pop category =>
      rw [haction, inner_transition_pop, List.length_dropLast] at hlength
      omega

end StepsBy

/-- The constructs above the root are nested, and each was entered by one of the tokens, which is its
opener. -/
structure OpenedBy (l : Lexer) (tokens : List Token) : Prop where
  nested : Nested (l.inner.map Frame.state)
  opened : ∀ frame ∈ l.inner, ∃ t ∈ tokens, t.start = frame.openedAt ∧ t.lexeme = frame.state.opener

/-- With one token more, what was opened was opened by one of the tokens still. -/
theorem OpenedBy.exists_mem_concat {frame : Frame} (h : l.OpenedBy tokens) (hframe : frame ∈ l.inner)
    (t : Token) :
    ∃ u ∈ tokens ++ [t], u.start = frame.openedAt ∧ u.lexeme = frame.state.opener := by
  obtain ⟨u, hu, hopener⟩ := h.opened frame hframe
  exact ⟨u, List.mem_append_left _ hu, hopener⟩

/-- A step keeps the constructs nested, and what it enters is entered by its token. -/
theorem OpenedBy.concat (h : l.OpenedBy tokens) (hnests : l.Nests kind)
    (hstep : l.StepsBy line t next) : next.OpenedBy (tokens ++ [t]) := by
  have hinner := hstep.inner
  cases haction : line.action with
  | plain category | classified =>
      have hsame : next.inner = l.inner := by
        rw [hinner, haction]
        rfl
      refine ⟨hsame ▸ h.nested, ?_⟩
      intro frame hframe
      rw [hsame] at hframe
      exact h.exists_mem_concat hframe t
  | push category target =>
      have htarget : line.action.target? = some target := by
        rw [haction]
        rfl
      rw [haction, inner_transition_push] at hinner
      constructor
      · rw [hinner, List.map_append]
        exact h.nested.concat hnests.getLast?_states hstep.mem htarget
      · intro frame hframe
        rw [hinner] at hframe
        rcases List.mem_append.1 hframe with hframe | hframe
        · exact h.exists_mem_concat hframe t
        · obtain rfl := List.mem_singleton.1 hframe
          refine ⟨t, List.mem_append_right _ List.mem_cons_self, hstep.start, ?_⟩
          exact hstep.lexeme_eq_opener htarget
  | pop category =>
      rw [haction, inner_transition_pop] at hinner
      constructor
      · rw [hinner, List.map_dropLast]
        exact h.nested.dropLast
      · intro frame hframe
        rw [hinner] at hframe
        exact h.exists_mem_concat (List.mem_of_mem_dropLast hframe) t

/-- After any run the constructs are nested and have been opened by its tokens. -/
theorem openedBy_of_yields {source : Text} (hrun : Yields (Grammar.jsoniq.lex source) tokens l) :
    l.OpenedBy tokens := by
  have hstart : (∃ kind, (Grammar.jsoniq.lex source).Nests kind) ∧
      (Grammar.jsoniq.lex source).OpenedBy [] :=
    ⟨⟨.comment, nests_lex source⟩, .outside, by intro frame hframe; cases hframe⟩
  refine (hrun.preserves_concat (p := fun ts l => (∃ kind, l.Nests kind) ∧ l.OpenedBy ts) ?_ hstart).2
  rintro ts m next t ⟨⟨kind, hnests⟩, hopened⟩ hnext
  obtain ⟨kind', hnests', -⟩ := hnests.step hnext
  obtain ⟨line, hstep⟩ := hnests.exists_stepsBy hnext
  exact ⟨⟨kind', hnests'⟩, hopened.concat hnests hstep⟩

/-- What a lexer holds open after the tokens. -/
structure HoldsOpen (l : Lexer) (tokens : List Token) : Prop where
  /-- The root is at the bottom. Above it stand comments, or one string, or nothing. -/
  frames : ∃ above, l.frames = ⟨.root, 0⟩ :: above ∧ Nested (above.map Frame.state)
  /-- Whatever stands above the root was opened where one of the tokens starts, its opener. -/
  opened : ∀ frame ∈ l.frames.tail,
    ∃ t ∈ tokens, t.start = frame.openedAt ∧ t.lexeme = frame.state.opener
  /-- The next token has the category of the construct that it stands in. -/
  inside : ∀ {t : Token} {next : Lexer}, l.step = (.ok (some t), next) →
    ∀ category ∈ l.state.category?, t.category = category
  /-- If the next token opens a construct, it is its opener and has its category. -/
  entering : ∀ {t : Token} {next : Lexer} {frame : Frame}, l.step = (.ok (some t), next) →
    next.frames = l.frames ++ [frame] →
      frame.openedAt = t.start ∧ t.lexeme = frame.state.opener ∧
        frame.state.category? = some t.category

end Lexer

/-- Wherever the scan of a JSONiq text has come to: nothing is open, or comments in comments, or one
string; each construct was opened by a token that is its opener; and the tokens that open it, stand
in it or close it have its category. -/
theorem open_constructs_are_nested {source : Text} {tokens : List Token} {l : Lexer}
    (hrun : Yields (Grammar.jsoniq.lex source) tokens l) : l.HoldsOpen tokens := by
  have hopened := Lexer.openedBy_of_yields hrun
  have hframes : l.frames = ⟨.root, 0⟩ :: l.inner := by
    rw [Lexer.inner]
    exact (List.cons_head?_tail (Lexer.head?_frames_of_yields hrun)).symm
  obtain ⟨kind, hnests⟩ := Lexer.exists_nests hrun
  constructor
  · exact ⟨l.inner, hframes, hopened.nested⟩
  · exact hopened.opened
  · intro t next hnext category hcategory
    obtain ⟨line, hstep⟩ := hnests.exists_stepsBy hnext
    exact hstep.category_eq hcategory
  · intro t next frame hnext hpushed
    obtain ⟨line, hstep⟩ := hnests.exists_stepsBy hnext
    have hinner : next.inner = l.inner ++ [frame] := by
      rw [Lexer.inner, hpushed, List.tail_append_of_ne_nil l.frames_ne_nil, Lexer.inner]
    obtain ⟨htarget, hstart⟩ := hstep.target_of_inner hinner
    exact ⟨hstart, hstep.lexeme_eq_opener htarget, hstep.category_of_target htarget⟩

/-- Two comments, one in the other, and a quote that opens nothing. -/
theorem open_constructs_are_nested_comment :
    ∃ tokens l, Yields (Grammar.jsoniq.lex "(:(:\"".toList) tokens l ∧ l.HoldsOpen tokens ∧
      l.frames = [⟨.root, 0⟩, ⟨.comment, 0⟩, ⟨.comment, 2⟩] := by
  have hrun := Lexer.yields_take (Grammar.jsoniq.lex "(:(:\"".toList) 3
  refine ⟨_, _, hrun, open_constructs_are_nested hrun, ?_⟩
  rw [jsoniq_eq]
  decide +kernel

end JsoniqLexer

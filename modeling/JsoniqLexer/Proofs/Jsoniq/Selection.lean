import JsoniqLexer.Proofs.Jsoniq.MaximalMunch

/-!
# What is selected in comments and strings

The rule that applies at each kind of text inside of a comment and inside of a string, and at the
beginning of either (`Selects`). Each is found by looking at the lines before it, none of which finds
anything (`selects_of_line`).
-/

set_option autoImplicit false

namespace JsoniqLexer

open Pattern

namespace Jsoniq

/-- In the state, a rule with the action is selected at the start of the text, and takes the
lexeme. -/
def Selects (state : State) (text : Text) (action : Action) (lexeme : Text) : Prop :=
  ∃ s, Grammar.jsoniq.select state text = some s ∧ s.rule.action = action ∧
    s.length = lexeme.byteLength

/-- The first line that finds something is selected. -/
theorem selects_of_line {state : State} {line : Line} {text lexeme : Text} (n : Nat)
    (hline : (lines state)[n]? = some line)
    (hnone : ∀ l ∈ (lines state).take n, l.rule.matchLength? text = none)
    (hmatch : line.rule.matchLength? text = some lexeme.byteLength) :
    Selects state text line.action lexeme := by
  obtain ⟨hlt, hget⟩ := List.getElem?_eq_some_iff.1 hline
  have hlines : lines state = (lines state).take n ++ line :: (lines state).drop (n + 1) := by
    rw [← hget, List.getElem_cons_drop, List.take_append_drop]
  refine ⟨⟨n, line.rule, lexeme.byteLength⟩, ?_, rfl, rfl⟩
  refine Grammar.select_eq_some_iff.2 ⟨((lines state).take n).map Line.rule,
    ((lines state).drop (n + 1)).map Line.rule, ?_, ?_, ?_, hmatch⟩
  · rw [rules_eq]
    exact (congrArg (List.map Line.rule) hlines).trans List.map_append
  · rw [List.length_map, List.length_take_of_le (Nat.le_of_lt hlt)]
  · intro r hr
    obtain ⟨l, hl, rfl⟩ := List.mem_map.1 hr
    exact hnone l hl

/-! ## What a line finds -/

namespace Line

theorem matchLength?_eq_none {line : Line} {text : Text}
    (h : line.form.regex.program.matchLength? text = none) : line.rule.matchLength? text = none :=
  Rule.matchLength?_eq_none h

theorem matchLength?_plain {form : Form} {action : Action} {lexeme rest : Text}
    (hne : lexeme ≠ [])
    (h : form.regex.program.matchLength? (lexeme ++ rest) = some lexeme.byteLength) :
    (plain form action).rule.matchLength? (lexeme ++ rest) = some lexeme.byteLength :=
  Rule.matchLength?_append_iff.2 ⟨hne, h, rfl⟩

theorem matchLength?_fixed_eq_none {line : Line} {x text : Text}
    (hform : line.form.regex = .ofText x) (h : ¬ x <+: text) :
    line.rule.matchLength? text = none := by
  refine matchLength?_eq_none ?_
  rw [hform]
  exact Regex.matchLength?_ofText_eq_none h

theorem matchLength?_fixed {f : Form} {x rest : Text} {action : Action}
    (hform : f.regex = .ofText x) (hne : x ≠ []) :
    (plain f action).rule.matchLength? (x ++ rest) = some x.byteLength := by
  refine matchLength?_plain hne ?_
  rw [hform]
  exact Regex.matchLength?_ofText_append x rest

/-- A line finds nothing where the text begins with a character that no match begins with. -/
theorem matchLength?_eq_none_of_firsts {line : Line} {c : Char} {rest : Text}
    (h : line.form.regex.firsts.contains c = false) : line.rule.matchLength? (c :: rest) = none := by
  cases hn : line.rule.matchLength? (c :: rest) with
  | none => rfl
  | some n =>
      obtain ⟨x, tail, htext, ⟨hne, hx, -⟩, -⟩ := admits_of_matchLength? hn
      obtain ⟨d, x, rfl⟩ := List.exists_cons_of_ne_nil hne
      obtain ⟨rfl, -⟩ := List.cons.inj htext
      have hfirst := Regex.contains_firsts (line.form.matches_pattern_iff.1 hx)
      rw [h] at hfirst
      cases hfirst

theorem matchLength?_some1_eq_none {line : Line} {set : CharSet} {text : Text}
    (hform : line.form.regex = some1 set) (h : ∀ c ∈ text.head?, set.contains c = false) :
    line.rule.matchLength? text = none := by
  refine matchLength?_eq_none ?_
  rw [hform]
  exact Regex.matchLength?_plus_char_eq_none h

theorem matchLength?_some1 {f : Form} {set : CharSet} {run rest : Text} {action : Action}
    (hform : f.regex = some1 set) (hne : run ≠ []) (hrun : ∀ c ∈ run, set.contains c = true)
    (hrest : ∀ c ∈ rest.head?, set.contains c = false) :
    (plain f action).rule.matchLength? (run ++ rest) = some run.byteLength := by
  refine matchLength?_plain hne ?_
  rw [hform]
  exact Regex.matchLength?_plus_char hne hrun hrest

end Line

/-- What follows the name of a function is blanks and a bracket. -/
theorem exists_blanks_of_matches {before : Option Char} {y rest : Text}
    (h : Form.openingBracket.regex.Matches before y rest) :
    ∃ blanks, y = blanks ++ ['('] ∧ ∀ c ∈ blanks, blank.contains c = true := by
  obtain ⟨blanks, bracket, rfl, hblanks, c, rfl, hc⟩ := h
  obtain rfl : c = '(' := by simpa using hc
  exact ⟨blanks, rfl, @Regex.contains_letters (many blank) _ _ _ hblanks⟩

/-! ## Inside of a comment -/

theorem contains_commentMark_iff {c : Char} :
    commentMark.contains c = true ↔ c = '(' ∨ c = ')' ∨ c = ':' := by
  simp [commentMark, or_assoc]

theorem contains_compl_commentMark (c : Char) :
    commentMark.compl.contains c = !commentMark.contains c :=
  CharSet.contains_compl_of_not_isDivided (by decide) c

theorem matchLength?_commentText_eq_none {action : Action} {c : Char} {rest : Text}
    (h : commentMark.contains c = true) :
    (Line.plain .commentText action).rule.matchLength? (c :: rest) = none := by
  refine Line.matchLength?_some1_eq_none rfl fun d hd => ?_
  cases hd
  rw [contains_compl_commentMark, h]
  rfl

/-- Inside of a comment, an opening mark opens another one. -/
theorem selects_comment_open (rest : Text) :
    Selects .comment (['(', ':'] ++ rest) (.push .comment .comment) ['(', ':'] := by
  have hline : (lines .comment)[1]? = some commentOpening := rfl
  refine selects_of_line 1 hline ?_ ?_
  -- one line stands before it; the pattern of `rintro` takes the lines one by one
  · rintro l (_ | ⟨_, ⟨⟩⟩)
    exact matchLength?_commentText_eq_none (contains_commentMark_iff.2 (by simp))
  · exact Line.matchLength?_fixed rfl (by simp)

/-- Inside of a comment, a closing mark closes it. -/
theorem selects_comment_close (rest : Text) :
    Selects .comment ([':', ')'] ++ rest) (.pop .comment) [':', ')'] := by
  have hline : (lines .comment)[2]? = some commentClosing := rfl
  refine selects_of_line 2 hline ?_ ?_
  · rintro l (_ | ⟨_, _ | ⟨_, ⟨⟩⟩⟩)
    · exact matchLength?_commentText_eq_none (contains_commentMark_iff.2 (by simp))
    · exact Line.matchLength?_fixed_eq_none rfl (by simp)
  · exact Line.matchLength?_fixed rfl (by simp)

/-- Inside of a comment, a character of a mark that is not part of one is comment. -/
theorem selects_comment_bracket {c : Char} {rest : Text} (hc : commentMark.contains c = true)
    (hopen : ¬ ['(', ':'] <+: c :: rest) (hclose : ¬ [':', ')'] <+: c :: rest) :
    Selects .comment ([c] ++ rest) (.plain .comment) [c] := by
  have hline : (lines .comment)[3]? = some (Line.plain .commentBracket (.plain .comment)) := rfl
  refine selects_of_line 3 hline ?_ ?_
  · rintro l (_ | ⟨_, _ | ⟨_, _ | ⟨_, ⟨⟩⟩⟩⟩)
    · exact matchLength?_commentText_eq_none hc
    · exact Line.matchLength?_fixed_eq_none rfl hopen
    · exact Line.matchLength?_fixed_eq_none rfl hclose
  · have hfound : (Regex.char commentMark).program.matchLength? ([c] ++ rest) =
        some (Text.byteLength [c]) := by
      simpa using Regex.matchLength?_char_of_contains hc
    exact Line.matchLength?_plain (List.cons_ne_nil c []) hfound

/-- Inside of a comment, everything up to the next character of a mark is comment. -/
theorem selects_comment_text {run rest : Text} (hne : run ≠ [])
    (hrun : ∀ c ∈ run, commentMark.contains c = false)
    (hrest : ∀ c ∈ rest.head?, commentMark.contains c = true) :
    Selects .comment (run ++ rest) (.plain .comment) run := by
  have hline : (lines .comment)[0]? = some (Line.plain .commentText (.plain .comment)) := rfl
  refine selects_of_line 0 hline (by simp) ?_
  refine Line.matchLength?_some1 rfl hne (fun c hc => ?_) (fun c hc => ?_)
  · rw [contains_compl_commentMark, hrun c hc]
    rfl
  · rw [contains_compl_commentMark, hrest c hc]
    rfl

/-! ## Inside of a string -/

theorem contains_compl_mark (q : Quote) (c : Char) :
    (CharSet.single q.mark).compl.contains c = !decide (c = q.mark) := by
  have hdivided : (CharSet.single q.mark).isDivided = false := by cases q <;> decide
  rw [CharSet.contains_compl_of_not_isDivided hdivided, CharSet.contains_single]

theorem lines_quote (q : Quote) : lines q.state = q.lines := by cases q <;> rfl

theorem matchLength?_body_eq_none (q : Quote) {action : Action} (rest : Text) :
    (Line.plain q.body action).rule.matchLength? (q.mark :: rest) = none := by
  refine Line.matchLength?_some1_eq_none rfl fun c hc => ?_
  cases hc
  rw [contains_compl_mark]
  simp

/-- Inside of a string, everything up to the next mark belongs to it. -/
theorem selects_string_body (q : Quote) {run rest : Text} (hne : run ≠ [])
    (hrun : ∀ c ∈ run, c ≠ q.mark) (hrest : ∀ c ∈ rest.head?, c = q.mark) :
    Selects q.state (run ++ rest) (.plain q.category) run := by
  have hline : (lines q.state)[0]? = some (Line.plain q.body (.plain q.category)) := by
    rw [lines_quote]
    rfl
  refine selects_of_line 0 hline (by simp) ?_
  refine Line.matchLength?_some1 rfl hne (fun c hc => ?_) (fun c hc => ?_)
  · rw [contains_compl_mark]
    simpa using hrun c hc
  · rw [contains_compl_mark]
    simpa using hrest c hc

/-- Inside of a string, two marks belong to it. -/
theorem selects_string_twice (q : Quote) (rest : Text) :
    Selects q.state ([q.mark, q.mark] ++ rest) (.plain q.category) [q.mark, q.mark] := by
  have hline : (lines q.state)[1]? = some (Line.plain q.twice (.plain q.category)) := by
    rw [lines_quote]
    rfl
  refine selects_of_line 1 hline ?_ ?_
  · rw [lines_quote]
    rintro l (_ | ⟨_, ⟨⟩⟩)
    exact matchLength?_body_eq_none q _
  · exact Line.matchLength?_fixed rfl (by simp)

/-- Inside of a string, one mark ends it. -/
theorem selects_string_once (q : Quote) {rest : Text} (hrest : ∀ c ∈ rest.head?, c ≠ q.mark) :
    Selects q.state ([q.mark] ++ rest) (.pop q.category) [q.mark] := by
  have hline : (lines q.state)[2]? = some (Line.plain q.once (.pop q.category)) := by
    rw [lines_quote]
    rfl
  refine selects_of_line 2 hline ?_ ?_
  · rw [lines_quote]
    rintro l (_ | ⟨_, _ | ⟨_, ⟨⟩⟩⟩)
    · exact matchLength?_body_eq_none q _
    · refine Line.matchLength?_fixed_eq_none rfl ?_
      rintro ⟨after, hafter⟩
      obtain ⟨-, rfl⟩ := List.cons.inj hafter
      exact hrest q.mark rfl rfl
  · exact Line.matchLength?_fixed rfl (by simp)

/-! ## Outside of comments and strings -/

/-- Outside, an opening mark opens a comment. -/
theorem selects_root_comment (rest : Text) :
    Selects .root (['(', ':'] ++ rest) (.push .comment .comment) ['(', ':'] := by
  have hline : (lines .root)[1]? = some commentOpening := rfl
  refine selects_of_line 1 hline ?_ ?_
  · rintro l (_ | ⟨_, ⟨⟩⟩)
    refine Line.matchLength?_some1_eq_none rfl fun c hc => ?_
    cases hc
    decide
  · exact Line.matchLength?_fixed rfl (by simp)

/-- Outside, everything up to a character that is not blank is one lexeme. -/
theorem selects_root_blanks {run rest : Text} (hne : run ≠ [])
    (hrun : ∀ c ∈ run, blank.contains c = true) (hrest : ∀ c ∈ rest.head?, blank.contains c = false) :
    Selects .root (run ++ rest) (.plain .whitespace) run := by
  have hline : (lines .root)[0]? = some (Line.plain .blanks (.plain .whitespace)) := rfl
  refine selects_of_line 0 hline (by simp) ?_
  exact Line.matchLength?_some1 rfl hne hrun hrest

/-- Outside, an opening bracket that does not open a comment is punctuation. -/
theorem selects_root_bracket {rest : Text} (hopen : ¬ ['(', ':'] <+: '(' :: rest) :
    Selects .root (['('] ++ rest) (.plain .punctuation) ['('] := by
  have hline : (lines .root)[15]? = some (Line.plain .punctuation (.plain .punctuation)) := rfl
  refine selects_of_line 15 hline ?_ ?_
  -- of the lines before it, only the opening of comments begins with a bracket
  · have hfirsts : ∀ l ∈ (lines .root).take 15,
        l.form.regex = .ofText ['(', ':'] ∨ l.form.regex.firsts.contains '(' = false := by
      decide +kernel
    intro l hl
    rcases hfirsts l hl with hform | hfirst
    · exact Line.matchLength?_fixed_eq_none hform hopen
    · exact Line.matchLength?_eq_none_of_firsts hfirst
  · have hbracket : punctuationMark.contains '(' = true := by decide
    have hfound : (Regex.char punctuationMark).program.matchLength? (['('] ++ rest) =
        some (Text.byteLength ['(']) := by
      simpa using Regex.matchLength?_char_of_contains hbracket
    exact Line.matchLength?_plain (List.cons_ne_nil '(' []) hfound

/-- Outside, a mark opens a string. -/
theorem selects_root_string (q : Quote) (rest : Text) :
    Selects .root ([q.mark] ++ rest) (.push q.category q.state) [q.mark] := by
  -- neither blanks nor an opening mark begin with a mark of strings
  have hblank {action : Action} :
      (Line.plain .blanks action).rule.matchLength? ([q.mark] ++ rest) = none := by
    refine Line.matchLength?_some1_eq_none rfl fun c hc => ?_
    cases hc
    cases q <;> decide
  have hopening : commentOpening.rule.matchLength? ([q.mark] ++ rest) = none := by
    refine Line.matchLength?_fixed_eq_none rfl ?_
    rintro ⟨after, hafter⟩
    cases q <;> cases hafter
  cases q with
  | double =>
      have hline : (lines .root)[2]? = some Quote.double.opening := rfl
      refine selects_of_line 2 hline ?_ ?_
      · rintro l (_ | ⟨_, _ | ⟨_, ⟨⟩⟩⟩)
        · exact hblank
        · exact hopening
      · exact Line.matchLength?_fixed rfl (by simp)
  | single =>
      have hline : (lines .root)[3]? = some Quote.single.opening := rfl
      refine selects_of_line 3 hline ?_ ?_
      · rintro l (_ | ⟨_, _ | ⟨_, _ | ⟨_, ⟨⟩⟩⟩⟩)
        · exact hblank
        · exact hopening
        · refine Line.matchLength?_fixed_eq_none rfl ?_
          rintro ⟨after, hafter⟩
          cases hafter
      · exact Line.matchLength?_fixed rfl (by simp)

end Jsoniq

end JsoniqLexer

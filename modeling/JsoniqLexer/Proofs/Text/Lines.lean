import Mathlib.Data.List.Induction
import JsoniqLexer.Text.Position

/-!
# Finding a place by its line and column

A position says how a place is found from the beginning of the text: over as many newlines as there
are lines before it, and over as many characters as there are columns before it (`Position.skip?`).
The position after a text leads to where the text ends (`Position.skip?_after`).
-/

set_option autoImplicit false

namespace JsoniqLexer

namespace Text

/-- What follows the first `n` newlines. -/
def skipNewlines : Nat → Text → Option Text
  | 0, text => some text
  | _ + 1, [] => none
  | n + 1, c :: text => if c = '\n' then skipNewlines n text else skipNewlines (n + 1) text

/-- What follows the first `n` characters, if they stand in one line. -/
def skipColumns : Nat → Text → Option Text
  | 0, text => some text
  | _ + 1, [] => none
  | n + 1, c :: text => if c = '\n' then none else skipColumns n text

@[simp] theorem skipNewlines_zero (text : Text) : skipNewlines 0 text = some text := by
  rw [skipNewlines]

/-- One more newline is skipped after the others. -/
theorem skipNewlines_succ (n : Nat) (text : Text) :
    skipNewlines (n + 1) text = (skipNewlines n text).bind (skipNewlines 1) := by
  induction text generalizing n with
  | nil =>
      cases n with
      | zero => rfl
      | succ n => rfl
  | cons c text ih =>
      cases n with
      | zero => rfl
      | succ n =>
          by_cases hc : c = '\n'
          · simp [skipNewlines, hc, ih n]
          · simp [skipNewlines, hc, ih (n + 1)]

theorem skipNewlines_one_append {line : Text} (h : '\n' ∉ line) (rest : Text) :
    skipNewlines 1 (line ++ '\n' :: rest) = some rest := by
  induction line with
  | nil => simp [skipNewlines]
  | cons c line ih =>
      obtain ⟨hc, hline⟩ := List.ne_and_not_mem_of_not_mem_cons h
      simp [skipNewlines, Ne.symm hc, ih hline]

theorem skipColumns_append {line : Text} (h : '\n' ∉ line) (rest : Text) :
    skipColumns line.length (line ++ rest) = some rest := by
  induction line with
  | nil => rfl
  | cons c line ih =>
      obtain ⟨hc, hline⟩ := List.ne_and_not_mem_of_not_mem_cons h
      simp [skipColumns, Ne.symm hc, ih hline]

end Text

namespace Position

/-- What follows the place in a text: past the newlines before its line, and past the columns before
its column. -/
def skip? (p : Position) (text : Text) : Option Text :=
  (Text.skipNewlines (p.line - 1) text).bind (Text.skipColumns (p.column - 1))

example : (Position.mk 2 2).skip? "ab\ncd".toList = some ['d'] := rfl

/-- After a text, the newlines before the line lead to the beginning of its last line. -/
theorem exists_line_of_after (before : Text) :
    ∃ line, '\n' ∉ line ∧ (after before).column = line.length + 1 ∧ 1 ≤ (after before).line ∧
      ∀ rest, Text.skipNewlines ((after before).line - 1) (before ++ rest) = some (line ++ rest) := by
  induction before using List.reverseRecOn with
  | nil =>
      refine ⟨[], List.not_mem_nil, rfl, Nat.le_refl 1, ?_⟩
      intro rest
      exact Text.skipNewlines_zero rest
  | append_singleton before c ih =>
      obtain ⟨line, hline, hcolumn, hpos, hskip⟩ := ih
      rw [after_append]
      by_cases hc : c = '\n'
      · subst hc
        refine ⟨[], List.not_mem_nil, rfl, Nat.le_add_left 1 _, ?_⟩
        intro rest
        have hpred : (after before).line + 1 - 1 = ((after before).line - 1) + 1 := by omega
        have hnext : (['\n'].foldl advance (after before)).line = (after before).line + 1 := rfl
        rw [hnext, hpred, Text.skipNewlines_succ, List.append_assoc, hskip, Option.bind_some]
        exact Text.skipNewlines_one_append hline rest
      · have hnext : [c].foldl advance (after before) =
            ⟨(after before).line, (after before).column + 1⟩ := if_neg hc
        rw [hnext]
        refine ⟨line ++ [c], ?_, ?_, hpos, ?_⟩
        · intro hmem
          rcases List.mem_append.1 hmem with hmem | hmem
          · exact hline hmem
          · exact hc (List.mem_singleton.1 hmem).symm
        · rw [List.length_append, hcolumn]
          rfl
        · intro rest
          rw [List.append_assoc, hskip, List.append_assoc]

/-- The position after a text leads to where the text ends. -/
theorem skip?_after (before rest : Text) : (after before).skip? (before ++ rest) = some rest := by
  obtain ⟨line, hline, hcolumn, -, hskip⟩ := exists_line_of_after before
  rw [skip?, hskip, Option.bind_some, hcolumn, Nat.add_sub_cancel]
  exact Text.skipColumns_append hline rest

/-- The position after a text is counted from one. -/
theorem one_le_after (before : Text) : 1 ≤ (after before).line ∧ 1 ≤ (after before).column := by
  obtain ⟨line, -, hcolumn, hline, -⟩ := exists_line_of_after before
  refine ⟨hline, ?_⟩
  rw [hcolumn]
  exact Nat.le_add_left 1 _

end Position

end JsoniqLexer

import JsoniqLexer.Proofs.Text.Lines
import JsoniqLexer.Proofs.Text.Offsets

/-!
# Positions in order

A position counts the lines before it and the characters before it on its own line: the text up to it
is whole lines and then columns without a newline (`after_eq_iff`). Every character moves the position
on (`before_advance`), so positions are in the order of their offsets, and each position leads back to
its offset (`positions_locate_offsets`).
-/

set_option autoImplicit false

namespace JsoniqLexer.Position

/-! ## What a position counts -/

/-- The text is whole lines, each of them with its newline. -/
def IsLines (text : Text) : Prop := text = [] ∨ text.getLast? = some '\n'

/-- Of the text up to the position, all lines but the last one, and what stands on the last one. -/
structure Counts (p : Position) (lines columns : Text) : Prop where
  whole : IsLines lines
  oneLine : '\n' ∉ columns
  line : p.line = lines.count '\n' + 1
  column : p.column = columns.length + 1

/-- Every newline of the text begins a line. -/
theorem line_after (text : Text) : (after text).line = text.count '\n' + 1 := by
  induction text using List.reverseRecOn with
  | nil => rfl
  | append_singleton text c ih =>
      rw [after_append, List.foldl_cons, List.foldl_nil, advance, List.count_append]
      by_cases hc : c = '\n'
      · simp [hc, ih]
      · simp [hc, ih]

/-- Every character of a line moves the position by one column. -/
theorem foldl_advance_columns {columns : Text} (h : '\n' ∉ columns) (p : Position) :
    columns.foldl advance p = ⟨p.line, p.column + columns.length⟩ := by
  induction columns generalizing p with
  | nil => rfl
  | cons c columns ih =>
      obtain ⟨hc, hcolumns⟩ := List.ne_and_not_mem_of_not_mem_cons h
      rw [List.foldl_cons, advance, if_neg (Ne.symm hc), ih hcolumns, List.length_cons]
      simp only [Nat.add_assoc, Nat.add_comm 1]

/-- After whole lines, the next one begins. -/
theorem column_after_lines {lines : Text} (h : IsLines lines) : (after lines).column = 1 := by
  rcases h with rfl | hlast
  · rfl
  · obtain ⟨front, rfl⟩ := List.getLast?_eq_some_iff.1 hlast
    simp [after_append, advance]

/-- A text is whole lines and then columns. -/
theorem exists_counts (text : Text) :
    ∃ lines columns, text = lines ++ columns ∧ IsLines lines ∧ '\n' ∉ columns := by
  induction text using List.reverseRecOn with
  | nil => exact ⟨[], [], rfl, .inl rfl, List.not_mem_nil⟩
  | append_singleton text c ih =>
      obtain ⟨lines, columns, rfl, hlines, hcolumns⟩ := ih
      by_cases hc : c = '\n'
      · refine ⟨(lines ++ columns) ++ [c], [], (List.append_nil _).symm, .inr ?_, List.not_mem_nil⟩
        simp [hc]
      · refine ⟨lines, columns ++ [c], List.append_assoc _ _ _, hlines, ?_⟩
        simp [hcolumns, Ne.symm hc]

/-- The position after a text is the one that counts its lines and columns. -/
theorem after_eq_iff {text : Text} {p : Position} :
    after text = p ↔ ∃ lines columns, text = lines ++ columns ∧ p.Counts lines columns := by
  have hcounted {lines columns : Text} (hlines : IsLines lines) (hcolumns : '\n' ∉ columns) :
      after (lines ++ columns) = ⟨lines.count '\n' + 1, columns.length + 1⟩ := by
    rw [after_append, foldl_advance_columns hcolumns, line_after, column_after_lines hlines,
      Nat.add_comm 1]
  constructor
  · rintro rfl
    obtain ⟨lines, columns, rfl, hlines, hcolumns⟩ := exists_counts text
    refine ⟨lines, columns, rfl, ?_⟩
    rw [hcounted hlines hcolumns]
    exact ⟨hlines, hcolumns, rfl, rfl⟩
  · rintro ⟨lines, columns, rfl, hlines, hcolumns, hline, hcolumn⟩
    rw [hcounted hlines hcolumns, ← hline, ← hcolumn]

/-! ## The order of positions -/

/-- The position is on an earlier line, or before the other on the same line. -/
def Before (p q : Position) : Prop := p.line < q.line ∨ p.line = q.line ∧ p.column < q.column

theorem Before.trans {p q r : Position} (h : p.Before q) (h' : q.Before r) : p.Before r := by
  simp only [Before] at h h' ⊢
  omega

theorem Before.asymm {p q : Position} (h : p.Before q) : ¬ q.Before p := by
  simp only [Before] at h ⊢
  omega

/-- Every character moves the position on. -/
theorem before_advance (p : Position) (c : Char) : p.Before (p.advance c) := by
  rw [advance]
  split
  · exact .inl (Nat.lt_succ_self p.line)
  · exact .inr ⟨rfl, Nat.lt_succ_self p.column⟩

theorem before_foldl_advance {more : Text} (h : more ≠ []) (p : Position) :
    p.Before (more.foldl advance p) := by
  induction more generalizing p with
  | nil => exact absurd rfl h
  | cons c more ih =>
      by_cases hmore : more = []
      · rw [hmore]
        exact p.before_advance c
      · exact (p.before_advance c).trans (ih hmore (p.advance c))

/-- A longer beginning of a text ends at a later position. -/
theorem before_of_byteLength_lt {x y rest tail : Text} (h : x ++ rest = y ++ tail)
    (hlt : x.byteLength < y.byteLength) : (after x).Before (after y) := by
  obtain ⟨more, rfl⟩ := Text.prefix_of_byteLength_le h (Nat.le_of_lt hlt)
  rw [after_append]
  apply before_foldl_advance
  rintro rfl
  simp at hlt

/-! ## Positions and offsets -/

/-- An offset has the position after the text that it cuts off. -/
theorem ofOffset?_eq_some_iff {source : Text} {offset : Nat} {p : Position} :
    ofOffset? source offset = some p ↔
      ∃ before rest, source = before ++ rest ∧ before.byteLength = offset ∧ after before = p := by
  rw [ofOffset?, Option.map_eq_some_iff]
  constructor
  · rintro ⟨⟨before, rest⟩, hsplit, hafter⟩
    obtain ⟨hsource, hlength⟩ := Text.of_splitAt? hsplit
    exact ⟨before, rest, hsource, hlength, hafter⟩
  · rintro ⟨before, rest, hsource, hlength, hafter⟩
    exact ⟨(before, rest), Text.splitAt?_eq_some_iff.2 ⟨hsource, hlength⟩, hafter⟩

theorem before_of_lt {source : Text} {a b : Nat} {p q : Position}
    (hp : ofOffset? source a = some p) (hq : ofOffset? source b = some q) (h : a < b) :
    p.Before q := by
  obtain ⟨x, rest, hx, rfl, rfl⟩ := ofOffset?_eq_some_iff.1 hp
  obtain ⟨y, tail, hy, rfl, rfl⟩ := ofOffset?_eq_some_iff.1 hq
  exact before_of_byteLength_lt (hx.symm.trans hy) h

/-- Every offset of a source has a position, unless it is past the end or inside of a character. The
position is the one that counts the lines and columns up to the offset, it leads back to the offset,
and later offsets have later positions. -/
theorem positions_locate_offsets (source : Text) :
    (∀ offset, ofOffset? source offset = none ↔
        source.byteLength < offset ∨ source.IsInside offset) ∧
      (∀ offset p, ofOffset? source offset = some p ↔
        ∃ lines columns rest, source = lines ++ columns ++ rest ∧ p.Counts lines columns ∧
          (lines ++ columns).byteLength = offset) ∧
      (∀ offset p, ofOffset? source offset = some p →
        ∃ rest, p.skip? source = some rest ∧ offset + rest.byteLength = source.byteLength) ∧
      ∀ a b p q, ofOffset? source a = some p → ofOffset? source b = some q →
        (a < b ↔ p.Before q) := by
  refine ⟨?_, ?_, ?_, ?_⟩
  · intro offset
    rw [ofOffset?, Option.map_eq_none_iff, Text.splitAt?_eq_none_iff]
  · intro offset p
    rw [ofOffset?_eq_some_iff]
    constructor
    · rintro ⟨before, rest, hsource, hlength, hafter⟩
      obtain ⟨lines, columns, rfl, hcounts⟩ := after_eq_iff.1 hafter
      exact ⟨lines, columns, rest, hsource, hcounts, hlength⟩
    · rintro ⟨lines, columns, rest, hsource, hcounts, hlength⟩
      exact ⟨lines ++ columns, rest, hsource, hlength,
        after_eq_iff.2 ⟨lines, columns, rfl, hcounts⟩⟩
  · intro offset p hp
    obtain ⟨before, rest, rfl, rfl, rfl⟩ := ofOffset?_eq_some_iff.1 hp
    exact ⟨rest, skip?_after before rest, (Text.byteLength_append before rest).symm⟩
  · intro a b p q hp hq
    constructor
    · exact before_of_lt hp hq
    · intro hbefore
      rcases Nat.lt_trichotomy a b with hlt | rfl | hgt
      · exact hlt
      · obtain rfl := Option.some.inj (hp.symm.trans hq)
        exact absurd hbefore hbefore.asymm
      · exact absurd hbefore (before_of_lt hq hp hgt).asymm

/-- The beginning of an empty line, and the end of the text after it. -/
theorem positions_locate_offsets_empty_line :
    ofOffset? "é\n\nx".toList 3 = some ⟨2, 1⟩ ∧ ofOffset? "é\n\nx".toList 5 = some ⟨3, 2⟩ ∧
      Before ⟨2, 1⟩ ⟨3, 2⟩ ∧
      ∃ rest, skip? ⟨2, 1⟩ "é\n\nx".toList = some rest ∧ 3 + Text.byteLength rest = 5 := by
  obtain ⟨-, -, hskip, horder⟩ := positions_locate_offsets "é\n\nx".toList
  have hfirst : ofOffset? "é\n\nx".toList 3 = some ⟨2, 1⟩ := by decide
  have hlast : ofOffset? "é\n\nx".toList 5 = some ⟨3, 2⟩ := by decide
  exact ⟨hfirst, hlast, (horder 3 5 _ _ hfirst hlast).1 (by decide), hskip 3 _ hfirst⟩

end JsoniqLexer.Position

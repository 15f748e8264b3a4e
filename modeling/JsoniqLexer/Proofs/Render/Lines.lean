import JsoniqLexer.Proofs.Lexer.Tiling
import JsoniqLexer.Render.Html

/-!
# The lines of a rendering

The writer goes from token to token and remembers how far the line has got. Seen from its result, it
cuts the tokens into lines of parts (`linesOf`) and writes one line after the other, each with its
number in front of its parts, with line breaks between them (`writeTokens_eq`). A last line with
nothing on it is not begun.

The lines of the tokens are the lines of their text (`map_lineText_linesOf`), and nothing on them is
lost (`cells_linesOf`).
-/

set_option autoImplicit false

namespace JsoniqLexer.Html

open Token

/-! ## Rows that are joined -/

section Rows

variable {α β : Type}

/-- Rows followed by others, the first of which goes on the last of the rows. -/
def glue : List (List α) → List (List α) → List (List α)
  | [], others => others
  | [last], others => others.modifyHead fun row => last ++ row
  | row :: rows, others => row :: glue rows others

theorem glue_cons {rows : List (List α)} (h : rows ≠ []) (row : List α) (others : List (List α)) :
    glue (row :: rows) others = row :: glue rows others := by
  obtain ⟨next, rows, rfl⟩ := List.exists_cons_of_ne_nil h
  rfl

theorem glue_ne_nil {others : List (List α)} (h : others ≠ []) (rows : List (List α)) :
    glue rows others ≠ [] := by
  cases rows with
  | nil => exact h
  | cons row rows =>
      cases rows with
      | nil =>
          obtain ⟨first, others, rfl⟩ := List.exists_cons_of_ne_nil h
          exact List.cons_ne_nil _ _
      | cons next rows => exact List.cons_ne_nil _ _

/-- Joined rows are still joined after each of them has been made into something else, piece by
piece. -/
theorem map_glue {f : List α → List β} (hf : ∀ x y, f (x ++ y) = f x ++ f y)
    (rows others : List (List α)) :
    (glue rows others).map f = glue (rows.map f) (others.map f) := by
  induction rows with
  | nil => rfl
  | cons row rows ih =>
      cases rows with
      | nil =>
          cases others with
          | nil => rfl
          | cons first others => simp [glue, hf]
      | cons next rows =>
          rw [glue_cons (List.cons_ne_nil next rows), List.map_cons, ih]
          rfl

/-- What stands in joined rows stands in one of the two lists. -/
theorem flatten_glue {others : List (List α)} (h : others ≠ []) (rows : List (List α)) :
    (glue rows others).flatten = rows.flatten ++ others.flatten := by
  induction rows with
  | nil => rfl
  | cons row rows ih =>
      cases rows with
      | nil =>
          obtain ⟨first, others, rfl⟩ := List.exists_cons_of_ne_nil h
          simp [glue]
      | cons next rows =>
          rw [glue_cons (List.cons_ne_nil next rows), List.flatten_cons, ih]
          simp [List.append_assoc]

theorem intercalate_append_left (sep x row : List α) (rows : List (List α)) :
    sep.intercalate ((x ++ row) :: rows) = x ++ sep.intercalate (row :: rows) := by
  induction x with
  | nil => rfl
  | cons a x ih => rw [List.cons_append, List.intercalate_cons_cons_left, ih, List.cons_append]

/-- With separators between the rows, joined rows are one text after the other. -/
theorem intercalate_glue (sep : List α) {rows others : List (List α)} (hrows : rows ≠ [])
    (hothers : others ≠ []) :
    sep.intercalate (glue rows others) = sep.intercalate rows ++ sep.intercalate others := by
  induction rows with
  | nil => exact absurd rfl hrows
  | cons row rows ih =>
      cases rows with
      | nil =>
          obtain ⟨first, others, rfl⟩ := List.exists_cons_of_ne_nil hothers
          rw [List.intercalate_singleton]
          exact intercalate_append_left sep row first others
      | cons next rows =>
          have hne := List.cons_ne_nil next rows
          rw [glue_cons hne, List.intercalate_cons_of_ne_nil (glue_ne_nil hothers _), ih hne,
            List.intercalate_cons_of_ne_nil hne, List.append_assoc, List.append_assoc,
            List.append_assoc]

/-- What is made of rows with separators between them, piece by piece. -/
theorem flatMap_intercalate (g : α → List β) (sep : List α) (rows : List (List α)) :
    (sep.intercalate rows).flatMap g =
      (sep.flatMap g).intercalate (rows.map fun row => row.flatMap g) := by
  induction rows with
  | nil => rfl
  | cons row rows ih =>
      cases rows with
      | nil => simp
      | cons next rows =>
          have hmap : (next :: rows).map (fun row => row.flatMap g) ≠ [] := List.cons_ne_nil _ _
          rw [List.map_cons, List.intercalate_cons_of_ne_nil hmap, ← ih,
            List.intercalate_cons_of_ne_nil (List.cons_ne_nil next rows), List.flatMap_append,
            List.flatMap_append]

/-- What is true of the separators and of all that stands in the rows. -/
theorem forall_mem_intercalate {p : α → Prop} {sep : List α} {rows : List (List α)}
    (hsep : ∀ a ∈ sep, p a) (hrows : ∀ row ∈ rows, ∀ a ∈ row, p a) :
    ∀ a ∈ sep.intercalate rows, p a := by
  induction rows with
  | nil => simp [List.intercalate]
  | cons row rows ih =>
      obtain ⟨hrow, hrows⟩ := List.forall_mem_cons.1 hrows
      cases rows with
      | nil =>
          rw [List.intercalate_singleton]
          exact hrow
      | cons next rows =>
          rw [List.intercalate_cons_of_ne_nil (List.cons_ne_nil next rows)]
          simp only [List.forall_mem_append]
          exact ⟨⟨hrow, hsep⟩, ih hrows⟩

end Rows

/-! ## The lines of a text -/

theorem splitLines_ne_nil (text : Text) : splitLines text ≠ [] := by
  cases text with
  | nil => exact List.cons_ne_nil _ _
  | cons c text =>
      rw [splitLines]
      split
      · exact List.cons_ne_nil _ _
      · split
        · exact List.cons_ne_nil _ _
        · exact List.cons_ne_nil _ _

theorem splitLines_newline (text : Text) : splitLines ('\n' :: text) = [] :: splitLines text := by
  rw [splitLines, if_pos rfl]

theorem splitLines_cons_ne {c : Char} (h : c ≠ '\n') (text : Text) :
    splitLines (c :: text) = (splitLines text).modifyHead fun line => c :: line := by
  rw [splitLines, if_neg h]
  obtain ⟨line, lines, hlines⟩ := List.exists_cons_of_ne_nil (splitLines_ne_nil text)
  rw [hlines]
  rfl

/-- The parts of a text are those that a split at every newline gives. -/
theorem splitLines_eq_splitOn (text : Text) : splitLines text = text.splitOn '\n' := by
  induction text with
  | nil => rfl
  | cons c text ih =>
      rw [List.splitOn_cons_eq_if_modifyHead]
      by_cases hc : c = '\n'
      · rw [hc, splitLines_newline, ih]
        simp
      · rw [splitLines_cons_ne hc, ih]
        simp [hc]

theorem splitLines_append (s t : Text) :
    splitLines (s ++ t) = glue (splitLines s) (splitLines t) := by
  induction s with
  | nil =>
      obtain ⟨line, lines, hlines⟩ := List.exists_cons_of_ne_nil (splitLines_ne_nil t)
      rw [List.nil_append, hlines]
      rfl
  | cons c s ih =>
      by_cases hc : c = '\n'
      · rw [hc, List.cons_append, splitLines_newline, splitLines_newline, ih,
          glue_cons (splitLines_ne_nil s)]
      · rw [List.cons_append, splitLines_cons_ne hc, splitLines_cons_ne hc, ih]
        obtain ⟨line, lines, hlines⟩ := List.exists_cons_of_ne_nil (splitLines_ne_nil s)
        rw [hlines]
        cases lines with
        | nil =>
            obtain ⟨first, others, hothers⟩ := List.exists_cons_of_ne_nil (splitLines_ne_nil t)
            rw [hothers]
            rfl
        | cons next lines => rfl

/-- No part holds a newline. -/
theorem not_mem_of_mem_splitLines {text line : Text} (h : line ∈ splitLines text) : '\n' ∉ line := by
  induction text generalizing line with
  | nil =>
      obtain rfl := List.mem_singleton.1 h
      exact List.not_mem_nil
  | cons c text ih =>
      by_cases hc : c = '\n'
      · rw [hc, splitLines_newline] at h
        rcases List.mem_cons.1 h with rfl | h
        · exact List.not_mem_nil
        · exact ih h
      · rw [splitLines_cons_ne hc] at h
        obtain ⟨first, lines, hlines⟩ := List.exists_cons_of_ne_nil (splitLines_ne_nil text)
        rw [hlines, List.modifyHead_cons] at h
        rw [hlines] at ih
        rcases List.mem_cons.1 h with rfl | h
        · intro hmem
          rcases List.mem_cons.1 hmem with heq | hmem
          · exact hc heq.symm
          · exact ih List.mem_cons_self hmem
        · exact ih (List.mem_cons_of_mem first h)

/-! ## The lines of tokens -/

/-- A piece of a token that stands on one line. -/
structure Part where
  category : Category
  text : Text

/-- The class of the spans of a category; blanks stand in none. -/
def spanClass? (category : Category) : Option Text :=
  if category = .whitespace then none else some category.cssClass.toList

namespace Part

/-- The part in its written form. -/
def written (p : Part) : Text := piece p.category p.text

/-- The characters of the part, each with the class of its span. -/
def cells (p : Part) : List (Char × Option Text) := p.text.map fun c => (c, spanClass? p.category)

end Part

/-- The characters of a token, each with the class of the span that it is to stand in; newlines stand
in none. -/
def cellsOf (t : Token) : List (Char × Option Text) :=
  t.lexeme.map fun c => (c, if c = '\n' then none else spanClass? t.category)

/-- What stands on a line of one token; nothing makes no part. -/
def partsOf (category : Category) (text : Text) : List Part :=
  if text = [] then [] else [⟨category, text⟩]

/-- The lines of tokens; the last line of each token goes on with the first line of those after it. -/
def linesOf : List Token → List (List Part)
  | [] => [[]]
  | t :: ts => glue ((splitLines t.lexeme).map (partsOf t.category)) (linesOf ts)

/-- The text of a line. -/
def lineText (parts : List Part) : Text := parts.flatMap Part.text

/-- The characters of a line. -/
def lineCells (parts : List Part) : List (Char × Option Text) := parts.flatMap Part.cells

theorem linesOf_ne_nil (ts : List Token) : linesOf ts ≠ [] := by
  induction ts with
  | nil => exact List.cons_ne_nil _ _
  | cons t ts ih => exact glue_ne_nil ih _

theorem lineText_partsOf (category : Category) (text : Text) :
    lineText (partsOf category text) = text := by
  by_cases htext : text = []
  · simp [partsOf, lineText, htext]
  · simp [partsOf, lineText, htext]

theorem lineCells_partsOf (category : Category) (text : Text) :
    lineCells (partsOf category text) = text.map fun c => (c, spanClass? category) := by
  by_cases htext : text = []
  · simp [partsOf, lineCells, htext]
  · simp [partsOf, lineCells, htext, Part.cells]

/-- The lines of tokens are the lines of their text. -/
theorem map_lineText_linesOf (ts : List Token) :
    (linesOf ts).map lineText = splitLines (textOf ts) := by
  induction ts with
  | nil => rfl
  | cons t ts ih =>
      have happend (x y : List Part) : lineText (x ++ y) = lineText x ++ lineText y :=
        List.flatMap_append
      have hparts : lineText ∘ partsOf t.category = id := by
        funext text
        exact lineText_partsOf t.category text
      rw [linesOf, map_glue happend, ih, List.map_map, hparts, List.map_id, textOf_cons,
        splitLines_append]

/-- The characters of a text are those of its lines, with newlines between them. -/
theorem intercalate_map_splitLines (k : Option Text) (text : Text) :
    [('\n', none)].intercalate ((splitLines text).map fun line => line.map fun c => (c, k)) =
      text.map fun c => (c, if c = '\n' then none else k) := by
  induction text with
  | nil => rfl
  | cons c text ih =>
      by_cases hc : c = '\n'
      · have hne : (splitLines text).map (fun line => line.map fun c => (c, k)) ≠ [] := by
          simp [splitLines_ne_nil]
        rw [hc, splitLines_newline, List.map_cons, List.intercalate_cons_of_ne_nil hne, ih,
          List.map_cons, if_pos rfl]
        rfl
      · obtain ⟨line, lines, hlines⟩ := List.exists_cons_of_ne_nil (splitLines_ne_nil text)
        rw [hlines] at ih
        rw [splitLines_cons_ne hc, hlines, List.modifyHead_cons, List.map_cons, List.map_cons,
          List.intercalate_cons_cons_left, List.map_cons, if_neg hc, ← ih, List.map_cons]

/-- The lines of tokens hold all their characters, with newlines between them. -/
theorem cells_linesOf (ts : List Token) :
    [('\n', none)].intercalate ((linesOf ts).map lineCells) = ts.flatMap cellsOf := by
  induction ts with
  | nil => rfl
  | cons t ts ih =>
      have happend (x y : List Part) : lineCells (x ++ y) = lineCells x ++ lineCells y :=
        List.flatMap_append
      have hparts : lineCells ∘ partsOf t.category =
          fun line => line.map fun c => (c, spanClass? t.category) := by
        funext line
        exact lineCells_partsOf t.category line
      have hfirst : (splitLines t.lexeme).map (lineCells ∘ partsOf t.category) ≠ [] := by
        simp [splitLines_ne_nil]
      have hothers : (linesOf ts).map lineCells ≠ [] := by
        simp [linesOf_ne_nil]
      rw [linesOf, map_glue happend, List.map_map, intercalate_glue _ hfirst hothers, ih, hparts,
        intercalate_map_splitLines, List.flatMap_cons, cellsOf]

/-- Every part of a line holds something, and no newline. -/
theorem of_mem_flatten_linesOf {ts : List Token} {p : Part} (h : p ∈ (linesOf ts).flatten) :
    p.text ≠ [] ∧ '\n' ∉ p.text := by
  induction ts with
  | nil => simp [linesOf] at h
  | cons t ts ih =>
      rw [linesOf, flatten_glue (linesOf_ne_nil ts)] at h
      rcases List.mem_append.1 h with h | h
      · obtain ⟨parts, hparts, hp⟩ := List.mem_flatten.1 h
        obtain ⟨line, hline, rfl⟩ := List.mem_map.1 hparts
        rw [partsOf] at hp
        split at hp
        · cases hp
        · next hne =>
          obtain rfl := List.mem_singleton.1 hp
          exact ⟨hne, not_mem_of_mem_splitLines hline⟩
      · exact ih h

/-! ## The lines that are written -/

/-- A line in its written form, with its number in front if lines are numbered. -/
def writtenLine (numbered : Bool) (n : Nat) (parts : List Part) : Text :=
  (if numbered then gutter n else []) ++ parts.flatMap Part.written

/-- Something made of each line and its number, the first number being the one after `n`. A last
line with nothing on it stays empty. -/
def numberLines {α β : Type} (f : Nat → List α → List β) : Nat → List (List α) → List (List β)
  | _, [] => []
  | n, [last] => [if last = [] then [] else f (n + 1) last]
  | n, line :: lines => f (n + 1) line :: numberLines f (n + 1) lines

section Numbers

variable {α β : Type} {f : Nat → List α → List β} {n : Nat}

theorem numberLines_cons {line : List α} {lines : List (List α)} (h : line ≠ [] ∨ lines ≠ []) :
    numberLines f n (line :: lines) = f (n + 1) line :: numberLines f (n + 1) lines := by
  cases lines with
  | nil =>
      rcases h with h | h
      · simp [numberLines, h]
      · exact absurd rfl h
  | cons next lines => rfl

theorem numberLines_ne_nil {lines : List (List α)} (h : lines ≠ []) : numberLines f n lines ≠ [] := by
  obtain ⟨line, lines, rfl⟩ := List.exists_cons_of_ne_nil h
  cases lines with
  | nil => exact List.cons_ne_nil _ _
  | cons next lines => exact List.cons_ne_nil _ _

/-- What is made of the numbered lines afterwards. -/
theorem map_numberLines {γ : Type} {g : List β → List γ} (hg : g [] = []) (n : Nat)
    (lines : List (List α)) :
    (numberLines f n lines).map g = numberLines (fun k line => g (f k line)) n lines := by
  induction lines generalizing n with
  | nil => rfl
  | cons line lines ih =>
      cases lines with
      | nil =>
          by_cases hempty : line = []
          · simp [numberLines, hempty, hg]
          · simp [numberLines, hempty]
      | cons next lines =>
          have hne := List.cons_ne_nil next lines
          rw [numberLines_cons (.inr hne), numberLines_cons (.inr hne), List.map_cons, ih]

/-- What has been made of the lines before, if it leaves no line empty that has something on it. -/
theorem numberLines_map {γ : Type} {g : List γ → List α} {lines : List (List γ)}
    (hg : ∀ line ∈ lines, g line = [] ↔ line = []) (n : Nat) :
    numberLines f n (lines.map g) = numberLines (fun k line => f k (g line)) n lines := by
  induction lines generalizing n with
  | nil => rfl
  | cons line lines ih =>
      obtain ⟨hline, hlines⟩ := List.forall_mem_cons.1 hg
      cases lines with
      | nil => simp [numberLines, hline]
      | cons next lines =>
          have hne := List.cons_ne_nil next lines
          have hmap : (next :: lines).map g ≠ [] := List.cons_ne_nil _ _
          rw [List.map_cons, numberLines_cons (.inr hmap), numberLines_cons (.inr hne), ih hlines]

/-- Where the numbers do not matter. -/
theorem numberLines_eq_map {g : List α → List β} (hg : g [] = []) (n : Nat)
    (lines : List (List α)) : numberLines (fun _ => g) n lines = lines.map g := by
  induction lines generalizing n with
  | nil => rfl
  | cons line lines ih =>
      cases lines with
      | nil =>
          by_cases hempty : line = []
          · simp [numberLines, hempty, hg]
          · simp [numberLines, hempty]
      | cons next lines =>
          rw [numberLines_cons (.inr (List.cons_ne_nil next lines)), ih]
          rfl

end Numbers

/-- The lines that are written from a margin on, the rest of the line that has been begun first. -/
def Margin.rows (m : Margin) (numbered : Bool) : List (List Part) → List Text
  | [] => []
  | line :: lines =>
      if m.atLineStart then numberLines (writtenLine numbered) m.line (line :: lines)
      else line.flatMap Part.written :: numberLines (writtenLine numbered) m.line lines

variable {numbered : Bool}

/-- A part goes on the line where the writer is. -/
theorem writePart_append (category : Category) (text : Text) (m : Margin) {lines : List (List Part)}
    (h : lines ≠ []) :
    (writePart numbered category text m).1 ++
        ['\n'].intercalate ((writePart numbered category text m).2.rows numbered lines) =
      ['\n'].intercalate
        (m.rows numbered (lines.modifyHead fun line => partsOf category text ++ line)) := by
  obtain ⟨line, lines, rfl⟩ := List.exists_cons_of_ne_nil h
  obtain ⟨n, start⟩ := m
  by_cases htext : text = []
  · simp [writePart, partsOf, htext]
  · have hline : partsOf category text ++ line = ⟨category, text⟩ :: line := by
      rw [partsOf, if_neg htext]
      rfl
    rw [List.modifyHead_cons, hline, writePart, if_neg htext]
    cases start with
    | false => exact (intercalate_append_left _ _ _ _).symm
    | true =>
        have hrows : Margin.rows ⟨n, true⟩ numbered ((⟨category, text⟩ :: line) :: lines) =
            ((if numbered then gutter (n + 1) else []) ++ piece category text ++
                line.flatMap Part.written) ::
              numberLines (writtenLine numbered) (n + 1) lines := by
          rw [Margin.rows, if_pos rfl, numberLines_cons (.inl (List.cons_ne_nil _ _)), writtenLine,
            List.flatMap_cons, List.append_assoc]
          rfl
        rw [hrows, intercalate_append_left]
        rfl

/-- A line break ends the line where the writer is. -/
theorem writeBreak_append (m : Margin) {lines : List (List Part)} (h : lines ≠ []) :
    (writeBreak numbered m).1 ++
        ['\n'].intercalate ((writeBreak numbered m).2.rows numbered lines) =
      ['\n'].intercalate (m.rows numbered ([] :: lines)) := by
  obtain ⟨n, start⟩ := m
  have hrows (k : Nat) : Margin.rows ⟨k, true⟩ numbered lines =
      numberLines (writtenLine numbered) k lines := by
    obtain ⟨line, lines, rfl⟩ := List.exists_cons_of_ne_nil h
    rfl
  have hne (k : Nat) : numberLines (writtenLine numbered) k lines ≠ [] := numberLines_ne_nil h
  cases start with
  | false =>
      have hbreak : writeBreak numbered ⟨n, false⟩ = (['\n'], ⟨n, true⟩) := rfl
      have hbegun : Margin.rows ⟨n, false⟩ numbered ([] :: lines) =
          [] :: numberLines (writtenLine numbered) n lines := rfl
      rw [hbreak, hrows, hbegun, List.intercalate_cons_of_ne_nil (hne n)]
      rfl
  | true =>
      have hbreak : writeBreak numbered ⟨n, true⟩ =
          ((if numbered then gutter (n + 1) else []) ++ ['\n'], ⟨n + 1, true⟩) := rfl
      have hempty : writtenLine numbered (n + 1) [] =
          if numbered then gutter (n + 1) else [] := List.append_nil _
      rw [hbreak, hrows, Margin.rows, if_pos rfl, numberLines_cons (.inr h), hempty,
        List.intercalate_cons_of_ne_nil (hne (n + 1))]

/-- The parts of a token are written on the line where the writer is, and on lines after it. -/
theorem writeParts_append (category : Category) {texts : List Text} (htexts : texts ≠ [])
    (m : Margin) {lines : List (List Part)} (h : lines ≠ []) :
    (writeParts numbered category texts m).1 ++
        ['\n'].intercalate ((writeParts numbered category texts m).2.rows numbered lines) =
      ['\n'].intercalate (m.rows numbered (glue (texts.map (partsOf category)) lines)) := by
  induction texts generalizing m with
  | nil => exact absurd rfl htexts
  | cons text texts ih =>
      cases texts with
      | nil => exact writePart_append category text m h
      | cons next texts =>
          -- the first part, the break after it, and then the others, each in front of what follows
          have hne := List.cons_ne_nil next texts
          have hglue := glue_ne_nil h ((next :: texts).map (partsOf category))
          have hpart := @writePart_append numbered category text m _
            (List.cons_ne_nil [] (glue ((next :: texts).map (partsOf category)) lines))
          rw [List.modifyHead_cons, List.append_nil] at hpart
          rw [List.map_cons, glue_cons (by simp), ← hpart, ← writeBreak_append _ hglue, ← ih hne]
          simp only [writeParts, List.append_assoc]

/-- What is written is one line after the other. -/
theorem writeTokens_eq (ts : List Token) (m : Margin) :
    (writeTokens numbered ts m).1 = ['\n'].intercalate (m.rows numbered (linesOf ts)) := by
  induction ts generalizing m with
  | nil =>
      obtain ⟨n, start⟩ := m
      cases start with
      | false => rfl
      | true => rfl
  | cons t ts ih =>
      rw [linesOf, ← writeParts_append t.category (splitLines_ne_nil t.lexeme) m (linesOf_ne_nil ts),
        ← ih]
      rfl

/-- The body of a rendering is one line after the other, from line one on. -/
theorem writeTokens_start (ts : List Token) :
    (writeTokens numbered ts .start).1 =
      ['\n'].intercalate (numberLines (writtenLine numbered) 0 (linesOf ts)) := by
  rw [writeTokens_eq]
  obtain ⟨line, lines, hlines⟩ := List.exists_cons_of_ne_nil (linesOf_ne_nil ts)
  rw [hlines]
  rfl

end JsoniqLexer.Html

import JsoniqLexer.Proofs.Render.Lines
import JsoniqLexer.Proofs.Render.Markup

/-!
# Markup loses nothing

Whatever the tokens are, a strict reader reads their markup and finds in it the characters of the
lexemes in order, each in a span of its category's class or, where it is blank or a newline, in none
(`read?_render`). So no text of a token and no class of the wrapper is ever read as markup.
-/

set_option autoImplicit false

namespace JsoniqLexer.Html

open Token Markup

/-! ## The items of a line -/

/-- What a part is read as: characters, or one span. -/
def Part.items (p : Part) : List Item :=
  if p.category = .whitespace then p.text.map .bare else [.span p.category.cssClass.toList p.text]

/-- What a line is read as: its number, if lines are numbered, and its parts. -/
def lineItems (numbered : Bool) (n : Nat) (parts : List Part) : List Item :=
  (if numbered then [.gutter n] else []) ++ parts.flatMap Part.items

theorem cssClass_mem_classes (category : Category) : category.cssClass.toList ∈ classes :=
  List.mem_map.2 ⟨category, category.mem_all, rfl⟩

theorem Part.reads_written (p : Part) : itemReader.Reads p.written p.items := by
  rw [written, piece, items]
  split
  · exact reads_escape p.text
  · exact reads_spanOf (cssClass_mem_classes p.category) p.text

theorem Part.cells_items (p : Part) : p.items.flatMap Item.cells = p.cells := by
  rw [items, cells, spanClass?]
  split
  · rw [List.flatMap_map, List.map_eq_flatMap]
    rfl
  · simp [Item.cells]

theorem reads_writtenLine (numbered : Bool) (n : Nat) (parts : List Part) :
    itemReader.Reads (writtenLine numbered n parts) (lineItems numbered n parts) := by
  have hparts := Text.Reader.reads_flatMap Part.reads_written parts
  cases numbered with
  | false => exact hparts
  | true => exact (reads_gutter n).append hparts

theorem cells_lineItems (numbered : Bool) (n : Nat) (parts : List Part) :
    (lineItems numbered n parts).flatMap Item.cells = lineCells parts := by
  have hparts : (parts.flatMap Part.items).flatMap Item.cells = lineCells parts := by
    rw [List.flatMap_assoc, lineCells]
    simp only [Part.cells_items]
  cases numbered with
  | false => exact hparts
  | true => exact hparts

/-! ## The items of all lines -/

/-- Lines that are read as items are read as those items with newlines between them. -/
theorem reads_numberLines (numbered : Bool) (n : Nat) (lines : List (List Part)) :
    itemReader.Reads (['\n'].intercalate (numberLines (writtenLine numbered) n lines))
      ([.bare '\n'].intercalate (numberLines (lineItems numbered) n lines)) := by
  induction lines generalizing n with
  | nil => exact itemReader.reads_nil
  | cons line lines ih =>
      have hline := reads_writtenLine numbered (n + 1) line
      cases lines with
      | nil =>
          by_cases hempty : line = []
          · simp only [numberLines, if_pos hempty, List.intercalate_singleton]
            exact itemReader.reads_nil
          · simp only [numberLines, if_neg hempty, List.intercalate_singleton]
            exact hline
      | cons next lines =>
          have hne := List.cons_ne_nil next lines
          rw [numberLines_cons (.inr hne), numberLines_cons (.inr hne),
            List.intercalate_cons_of_ne_nil (numberLines_ne_nil hne),
            List.intercalate_cons_of_ne_nil (numberLines_ne_nil hne)]
          exact (hline.append reads_newline).append (ih (n + 1))

/-- The numbers of the lines hold no text. -/
theorem cells_numberLines (numbered : Bool) (n : Nat) (lines : List (List Part)) :
    ([.bare '\n'].intercalate (numberLines (lineItems numbered) n lines)).flatMap Item.cells =
      [('\n', none)].intercalate (lines.map lineCells) := by
  rw [flatMap_intercalate, map_numberLines rfl]
  simp only [cells_lineItems]
  rw [numberLines_eq_map rfl]
  rfl

/-- Markup is read as the tokens that it was made of: a strict reader takes it, finds the class of
the wrapper where there is one, and finds every character of the lexemes in order, in a span of its
category's class, or outside of all spans if it is blank or a newline. -/
theorem read?_render (tokens : List Token) (config : Config) :
    ∃ items, read? (render tokens config) =
        some ⟨if config.wrap then some config.cssClass else none, items⟩ ∧
      items.flatMap Item.cells = tokens.flatMap cellsOf := by
  have hbody := reads_numberLines config.lineNumbers 0 (linesOf tokens)
  rw [← writeTokens_start] at hbody
  refine ⟨_, ?_, (cells_numberLines config.lineNumbers 0 (linesOf tokens)).trans
    (cells_linesOf tokens)⟩
  rw [render]
  by_cases hwrap : config.wrap = true
  · rw [if_pos hwrap, if_pos hwrap]
    exact read?_wrapped hbody config.cssClass
  · rw [if_neg hwrap, if_neg hwrap]
    exact read?_of_reads hbody

end JsoniqLexer.Html

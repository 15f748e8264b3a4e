import JsoniqLexer.Proofs.Render.Coloring

/-!
# Reading colors back

A terminal reads colored text from left to right with one color in mind: three codes set it, the fourth
clears it, and every other character is shown in it (`readColors`). Of lexemes without the escape
character it shows every character once, in the color of its token, and no color is left at the end
(`readColors_render`). Merging neighbours changes the codes and not what is shown; without codes the
lexemes stand one after the other, whatever they hold (`ansi_reads_back`).
-/

set_option autoImplicit false

namespace JsoniqLexer

open TokenStream Token

namespace Ansi

open Text

/-! ## What a terminal shows -/

/-- The codes of a terminal, each with the color that it leaves. -/
def meanings : List (Text × Option Color) :=
  [ ("\x1b[34m".toList, some .blue), ("\x1b[32m".toList, some .green), ("\x1b[2m".toList, some .dim),
    ("\x1b[0m".toList, none) ]

/-- The color that the code at the beginning of a text leaves, and what follows the code. -/
def readCode? (text : Text) : Option (Option Color × Text) :=
  meanings.findSome? fun entry => (after? entry.1 text).map fun rest => (entry.2, rest)

/-- What follows a code does not depend on what the code means. -/
theorem map_readCode? (text : Text) : (readCode? text).map Prod.snd = afterCode? text := by
  have hcodes : codes = meanings.map Prod.fst := rfl
  rw [readCode?, afterCode?, hcodes, List.map_findSome?, List.findSome?_map]
  congr 1
  funext entry
  simp [Function.comp_def]

theorem length_lt_of_readCode? {text rest : Text} {color : Option Color}
    (h : readCode? text = some (color, rest)) : rest.length < text.length := by
  apply length_lt_of_afterCode?
  rw [← map_readCode?, h]
  rfl

/-- The characters that are shown, each with its color, and the color at the end. -/
structure Shown where
  cells : List (Char × Option Color)
  color : Option Color
deriving DecidableEq, Repr

/-- More is shown in front. -/
def Shown.after (shown : Shown) (cells : List (Char × Option Color)) : Shown :=
  { shown with cells := cells ++ shown.cells }

/-- What is shown for a text, from left to right, where a color has been set before or none. -/
def readColors (color : Option Color) : Text → Shown
  | [] => ⟨[], color⟩
  | c :: text =>
      match _h : readCode? (c :: text) with
      | some (next, rest) => readColors next rest
      | none => (readColors color text).after [(c, color)]
termination_by text => text.length
decreasing_by
  · exact length_lt_of_readCode? _h
  · simp

example : readColors none "\x1b[32m1\x1b[0m ".toList = ⟨[('1', some .green), (' ', none)], none⟩ := by
  decide +kernel

/-! ## Codes and characters -/

theorem readCode?_append {code : Text} {next : Option Color} (h : (code, next) ∈ meanings)
    (rest : Text) : readCode? (code ++ rest) = some (next, rest) := by
  simp only [meanings, List.mem_cons, List.not_mem_nil, or_false, Prod.mk.injEq] at h
  rcases h with ⟨rfl, rfl⟩ | ⟨rfl, rfl⟩ | ⟨rfl, rfl⟩ | ⟨rfl, rfl⟩
  · rfl
  · rfl
  · rfl
  · rfl

theorem readCode?_cons_ne {c : Char} (h : c ≠ '\x1b') (text : Text) :
    readCode? (c :: text) = none := by
  rw [← Option.map_eq_none_iff (f := Prod.snd), map_readCode?, afterCode?_cons_ne h]

/-- A code leaves its color. -/
theorem readColors_code {code : Text} {next : Option Color} (h : (code, next) ∈ meanings)
    (color : Option Color) (rest : Text) :
    readColors color (code ++ rest) = readColors next rest := by
  have hread := readCode?_append h rest
  cases htext : code ++ rest with
  | nil =>
      rw [htext] at hread
      cases hread
  | cons c text =>
      rw [htext] at hread
      rw [readColors]
      split
      · next found tail hfound =>
        rw [hread] at hfound
        cases hfound
        rfl
      · next hnone =>
        rw [hread] at hnone
        cases hnone

/-- Characters other than the escape character are shown in the color that has been set. -/
theorem readColors_append {text : Text} (h : '\x1b' ∉ text) (color : Option Color) (rest : Text) :
    readColors color (text ++ rest) =
      (readColors color rest).after (text.map fun c => (c, color)) := by
  induction text with
  | nil => rfl
  | cons c text ih =>
      obtain ⟨hc, htext⟩ := List.ne_and_not_mem_of_not_mem_cons h
      rw [List.cons_append, readColors]
      split
      · next found tail hfound =>
        rw [readCode?_cons_ne (Ne.symm hc)] at hfound
        cases hfound
      · rw [ih htext]
        rfl

/-! ## Tokens -/

/-- The characters of a token, each with the color of the token's category. -/
def coloredCells (t : Token) : List (Char × Option Color) :=
  t.lexeme.map fun c => (c, Color.of? t.category)

/-- The categories without a color. -/
def uncolored : List Category :=
  [.whitespace, .contextItem, .variableName, .identifier, .operator, .error]

theorem of?_eq_none_iff {category : Category} : Color.of? category = none ↔ category ∈ uncolored := by
  cases category <;> decide

theorem code_mem_meanings (color : Color) : (Palette.on.code color, some color) ∈ meanings := by
  cases color <;> decide

/-- Where no color has been set, a token is shown in its color, and no color is set after it. -/
theorem readColors_renderToken {t : Token} (h : '\x1b' ∉ t.lexeme) (rest : Text) :
    readColors none (renderToken .on t ++ rest) = (readColors none rest).after (coloredCells t) := by
  have hreset : (Palette.on.reset, none) ∈ meanings := by decide
  rw [coloredCells]
  cases hcolor : Color.of? t.category with
  | none =>
      have hplain : isColored t.category = false := by simp [isColored, hcolor]
      rw [renderToken_of_not_isColored hplain]
      exact readColors_append h none rest
  | some color =>
      rw [renderToken_of_color hcolor, List.append_assoc, List.append_assoc,
        readColors_code (code_mem_meanings color), readColors_append h, readColors_code hreset]

/-- The lexemes are shown once and in order, each in the color of its token, and no color is set at the
end. -/
theorem readColors_render {tokens : List Token} (h : ∀ t ∈ tokens, '\x1b' ∉ t.lexeme) :
    readColors none (render tokens .on) = ⟨tokens.flatMap coloredCells, none⟩ := by
  induction tokens with
  | nil => simp [render, readColors]
  | cons t ts ih =>
      obtain ⟨ht, hts⟩ := List.forall_mem_cons.1 h
      have hrender : render (t :: ts) .on = renderToken .on t ++ render ts .on := rfl
      rw [hrender, readColors_renderToken ht, ih hts]
      rfl

theorem flatMap_coloredCells_merge (ts : List Token) :
    (merge ts).flatMap coloredCells = ts.flatMap coloredCells := by
  apply flatMap_merge
  intro t u hcontinues
  have hcategory := (continues_iff.1 hcontinues).1
  simp [coloredCells, join, hcategory]

theorem map_fst_coloredCells (tokens : List Token) :
    (tokens.flatMap coloredCells).map Prod.fst = textOf tokens := by
  simp [textOf, coloredCells, List.map_flatMap, Function.comp_def]

theorem not_mem_lexeme {c : Char} {tokens : List Token} (h : c ∉ textOf tokens) :
    ∀ t ∈ tokens, c ∉ t.lexeme := by
  intro t ht hc
  exact h (List.mem_flatMap.2 ⟨t, ht, hc⟩)

/-- Colored text is read back without loss and leaves no color behind. Of tokens whose lexemes do not
hold the escape character every character is shown once, in order and in the color of its token, in
none for six categories, and no color is set at the end. Without codes the lexemes stand one after the
other. So the characters of a source have the same colors for its tokens as for the merged ones, and
both are the source without codes. -/
theorem ansi_reads_back :
    (∀ tokens : List Token, (∀ t ∈ tokens, '\x1b' ∉ t.lexeme) →
      readColors none (render tokens .on) = ⟨tokens.flatMap coloredCells, none⟩) ∧
    (∀ category, Color.of? category = none ↔ category ∈ uncolored) ∧
    (∀ tokens : List Token, render tokens .off = tokens.flatMap Token.lexeme) ∧
    ∀ source, ∃ scan tokens, Scan.of source true = .ok scan ∧ tokenize source = .ok tokens ∧
      render scan.tokens .off = source ∧ render tokens .off = source ∧
      ∃ cells : List (Char × Option Color), cells.map Prod.fst = source ∧
        scan.tokens.flatMap coloredCells = cells ∧ tokens.flatMap coloredCells = cells ∧
        ('\x1b' ∉ source → readColors none (render scan.tokens .on) = ⟨cells, none⟩ ∧
          readColors none (render tokens .on) = ⟨cells, none⟩) := by
  refine ⟨fun _ h => readColors_render h, fun _ => of?_eq_none_iff, render_off, ?_⟩
  intro source
  obtain ⟨ts, last, hrun, hend, htokens⟩ := exists_tokenize source
  have htext : textOf ts = source := (Lexer.tiles_of_scan hrun hend).2
  have hmerged : textOf (merge ts) = source := (textOf_merge ts).trans htext
  refine ⟨_, _, scan_of_run hrun hend true, htokens, ?_, ?_, ts.flatMap coloredCells, ?_, rfl, ?_, ?_⟩
  · exact (render_off ts).trans htext
  · exact (render_off (merge ts)).trans hmerged
  · exact (map_fst_coloredCells ts).trans htext
  · exact flatMap_coloredCells_merge ts
  · intro hescape
    constructor
    · exact readColors_render (not_mem_lexeme (htext ▸ hescape))
    · rw [readColors_render (not_mem_lexeme (hmerged ▸ hescape)), flatMap_coloredCells_merge]

/-- A keyword is shown in blue, and the blank after it in no color. -/
theorem ansi_reads_back_keyword :
    (∀ t ∈ [ofLexeme .keyword "if".toList 0, ofLexeme .whitespace " ".toList 2],
        '\x1b' ∉ t.lexeme) ∧
      readColors none
          (render [ofLexeme .keyword "if".toList 0, ofLexeme .whitespace " ".toList 2] .on) =
        ⟨[('i', some .blue), ('f', some .blue), (' ', none)], none⟩ := by
  have hplain : ∀ t ∈ [ofLexeme .keyword "if".toList 0, ofLexeme .whitespace " ".toList 2],
      '\x1b' ∉ t.lexeme := by
    decide
  exact ⟨hplain, ansi_reads_back.1 _ hplain⟩

end Ansi

end JsoniqLexer

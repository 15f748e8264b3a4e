import JsoniqLexer.Proofs.Render.Lossless
import JsoniqLexer.Proofs.Text.Numerals
import JsoniqLexer.Proofs.Jsoniq.Strings

/-!
# The numbers of lines

With numbered lines, each line of a rendering can be read on its own: its number, and then items that
are no numbers (`readLine?`). The `k`-th line has the number `k` and the text of the `k`-th line of
the tokens, and only a last line without text has neither number nor anything else (`NumberedAs`).

So a rendering says of every character on which line it stands (`readLines?`), and this is the line
that its position in the text has (`lines_are_numbered`).
-/

set_option autoImplicit false

namespace JsoniqLexer.Html

open Token Markup

/-! ## Reading lines -/

/-- The number and the text of a line that begins with its number and has no other one. -/
def readLine? (line : Text) : Option (Nat × Text) :=
  match read? line with
  | some ⟨none, .gutter n :: items⟩ =>
      if items.countP Item.isGutter = 0 then some (n, (items.flatMap Item.cells).map Prod.fst)
      else none
  | _ => none

/-- The characters of numbered lines, each with the number of the line that it stands on. A newline
stands on the line that it ends, and a last line may be missing. -/
def readLines? : List Text → Option (List (Char × Nat))
  | [] => some []
  | [last] =>
      if last = [] then some [] else (readLine? last).map fun line => line.2.map fun c => (c, line.1)
  | first :: lines =>
      (readLine? first).bind fun line =>
        (readLines? lines).map fun others => (line.2 ++ ['\n']).map (fun c => (c, line.1)) ++ others

/-! ## Written lines hold no newline -/

theorem newline_not_mem_gutter (n : Nat) : '\n' ∉ gutter n := by
  rw [gutter_eq]
  intro hmem
  have htags : '\n' ∉ opening "lineno".toList ∧ '\n' ∉ closing := by decide +kernel
  rcases List.mem_append.1 hmem with hopening | hmem
  · exact htags.1 hopening
  · rcases List.mem_append.1 hmem with hdigit | hclosing
    · exact Text.newline_not_mem_toDigits (by decide) (by decide) n hdigit
    · exact htags.2 hclosing

theorem gutter_ne_nil (n : Nat) : gutter n ≠ [] := by
  rw [gutter_eq, opening_eq_cons]
  exact List.cons_ne_nil _ _

theorem newline_not_mem_escape {text : Text} (h : '\n' ∉ text) : '\n' ∉ escape text := by
  intro hmem
  exact h (of_mem_escape (by decide) hmem).1

theorem Part.newline_not_mem_written {p : Part} (h : '\n' ∉ p.text) : '\n' ∉ p.written := by
  have htext := newline_not_mem_escape h
  have htags : '\n' ∉ opening p.category.cssClass.toList ∧ '\n' ∉ closing := by
    have hall : ∀ k ∈ classes, '\n' ∉ opening k ∧ '\n' ∉ closing := by decide +kernel
    exact hall _ (cssClass_mem_classes p.category)
  rw [written, piece]
  split
  · exact htext
  · rw [spanOf_eq]
    intro hmem
    rcases List.mem_append.1 hmem with hopening | hmem
    · exact htags.1 hopening
    · rcases List.mem_append.1 hmem with hmem | hclosing
      · exact htext hmem
      · exact htags.2 hclosing

theorem newline_not_mem_writtenLine {parts : List Part} (h : ∀ p ∈ parts, '\n' ∉ p.text)
    (numbered : Bool) (n : Nat) : '\n' ∉ writtenLine numbered n parts := by
  have hparts : '\n' ∉ parts.flatMap Part.written := by
    intro hmem
    obtain ⟨p, hp, hwritten⟩ := List.mem_flatMap.1 hmem
    exact Part.newline_not_mem_written (h p hp) hwritten
  cases numbered with
  | false => exact hparts
  | true =>
      intro hmem
      rcases List.mem_append.1 hmem with hgutter | hmem
      · exact newline_not_mem_gutter n hgutter
      · exact hparts hmem

/-! ## The lines of a rendering -/

section Numbers

variable {α β : Type} {f : Nat → List α → List β}

theorem length_numberLines (n : Nat) (lines : List (List α)) :
    (numberLines f n lines).length = lines.length := by
  induction lines generalizing n with
  | nil => rfl
  | cons line lines ih =>
      cases lines with
      | nil => rfl
      | cons next lines =>
          rw [numberLines_cons (.inr (List.cons_ne_nil next lines)), List.length_cons, ih]
          rfl

/-- The `k`-th of the numbered lines is made of the `k`-th line, unless that is the last one and has
nothing on it. -/
theorem getElem?_numberLines (n k : Nat) (lines : List (List α)) :
    (numberLines f n lines)[k]? = lines[k]?.map fun line =>
      if line = [] ∧ k + 1 = lines.length then [] else f (n + k + 1) line := by
  induction lines generalizing n k with
  | nil => rfl
  | cons line lines ih =>
      cases lines with
      | nil =>
          cases k with
          | zero => simp [numberLines]
          | succ k => rfl
      | cons next lines =>
          rw [numberLines_cons (.inr (List.cons_ne_nil next lines))]
          cases k with
          | zero => simp
          | succ k =>
              have hnumber : n + 1 + k + 1 = n + (k + 1) + 1 := by omega
              have hlength : k + 1 + 1 = (line :: next :: lines).length ↔
                  k + 1 = (next :: lines).length := by
                rw [List.length_cons]
                omega
              rw [List.getElem?_cons_succ, ih, List.getElem?_cons_succ, hnumber]
              simp only [hlength]

/-- A numbered line is made of one of the lines, or is empty. -/
theorem of_mem_numberLines {n : Nat} {lines : List (List α)} {row : List β}
    (h : row ∈ numberLines f n lines) : row = [] ∨ ∃ k, ∃ line ∈ lines, row = f k line := by
  obtain ⟨k, hk⟩ := List.mem_iff_getElem?.1 h
  rw [getElem?_numberLines] at hk
  obtain ⟨line, hline, rfl⟩ := Option.map_eq_some_iff.1 hk
  split
  · exact .inl rfl
  · exact .inr ⟨n + k + 1, line, List.mem_of_getElem? hline, rfl⟩

end Numbers

/-- Cut at its newlines, what is written without a wrapper is its lines. -/
theorem splitOn_render (ts : List Token) (cssClass : Text) (numbered : Bool) :
    (render ts ⟨false, cssClass, numbered⟩).splitOn '\n' =
      numberLines (writtenLine numbered) 0 (linesOf ts) := by
  have hbody : render ts ⟨false, cssClass, numbered⟩ = (writeTokens numbered ts .start).1 := rfl
  rw [hbody, writeTokens_start]
  apply List.splitOn_intercalate
  · intro row hrow
    rcases of_mem_numberLines hrow with rfl | ⟨k, parts, hparts, rfl⟩
    · exact List.not_mem_nil
    · apply newline_not_mem_writtenLine
      intro p hp
      exact (of_mem_flatten_linesOf (List.mem_flatten.2 ⟨parts, hparts, hp⟩)).2
  · exact numberLines_ne_nil (linesOf_ne_nil ts)

/-- A text has one line more than newlines. -/
theorem length_splitLines (text : Text) : (splitLines text).length = text.count '\n' + 1 := by
  induction text with
  | nil => rfl
  | cons c text ih =>
      by_cases hc : c = '\n'
      · rw [hc, splitLines_newline, List.length_cons, ih, List.count_cons_self]
      · rw [splitLines_cons_ne hc, List.length_modifyHead, ih, List.count_cons_of_ne hc]

theorem length_linesOf (ts : List Token) : (linesOf ts).length = (textOf ts).count '\n' + 1 := by
  rw [← length_splitLines, ← map_lineText_linesOf, List.length_map]

/-- A rendering has as many newlines as the text. -/
theorem count_newline_render (ts : List Token) (cssClass : Text) (numbered : Bool) :
    (render ts ⟨false, cssClass, numbered⟩).count '\n' = (textOf ts).count '\n' := by
  have hlines := length_splitLines (render ts ⟨false, cssClass, numbered⟩)
  rw [splitLines_eq_splitOn, splitOn_render, length_numberLines, length_linesOf] at hlines
  exact (Nat.succ.inj hlines).symm

/-- A line without text has nothing on it. -/
theorem lineText_eq_nil_iff {ts : List Token} {parts : List Part} (h : parts ∈ linesOf ts) :
    lineText parts = [] ↔ parts = [] := by
  constructor
  · intro htext
    cases parts with
    | nil => rfl
    | cons p parts =>
        have hp := of_mem_flatten_linesOf (List.mem_flatten.2 ⟨_, h, List.mem_cons_self⟩)
        rw [lineText, List.flatMap_cons] at htext
        exact absurd (List.append_eq_nil_iff.1 htext).1 hp.1
  · rintro rfl
    rfl

/-- What stands on a line are no numbers. -/
theorem countP_isGutter_items (parts : List Part) :
    (parts.flatMap Part.items).countP Item.isGutter = 0 := by
  rw [List.countP_eq_zero]
  intro item hitem
  obtain ⟨p, -, hp⟩ := List.mem_flatMap.1 hitem
  rw [Part.items] at hp
  split at hp
  · obtain ⟨c, -, rfl⟩ := List.mem_map.1 hp
    exact Bool.false_ne_true
  · obtain rfl := List.mem_singleton.1 hp
    exact Bool.false_ne_true

/-- A numbered line is read as its number and its text. -/
theorem readLine?_writtenLine (n : Nat) (parts : List Part) :
    readLine? (writtenLine true n parts) = some (n, lineText parts) := by
  have hread : read? (writtenLine true n parts) =
      some ⟨none, .gutter n :: parts.flatMap Part.items⟩ :=
    read?_of_reads (reads_writtenLine true n parts)
  have hcells : (parts.flatMap Part.items).flatMap Item.cells = lineCells parts :=
    cells_lineItems false n parts
  have htext : (lineCells parts).map Prod.fst = lineText parts := by
    rw [lineCells, List.map_flatMap, lineText]
    congr 1
    funext p
    rw [Part.cells, List.map_map]
    exact List.map_id p.text
  rw [readLine?, hread]
  simp only [if_pos (countP_isGutter_items parts), hcells, htext]

/-! ## How many numbers there are -/

/-- Of lines, the last one is empty if the text that they make up is empty or ends in a newline. -/
theorem getLast?_eq_nil_iff {lines : List Text} (hne : lines ≠ []) (h : ∀ line ∈ lines, '\n' ∉ line) :
    lines.getLast? = some [] ↔
      ['\n'].intercalate lines = [] ∨ (['\n'].intercalate lines).getLast? = some '\n' := by
  induction lines with
  | nil => exact absurd rfl hne
  | cons line lines ih =>
      cases lines with
      | nil =>
          have hline : line.getLast? ≠ some '\n' := by
            intro hlast
            exact h line List.mem_cons_self (List.mem_of_getLast? hlast)
          simp [hline]
      | cons next lines =>
          have hlater := ih (List.cons_ne_nil next lines)
            (fun later hmem => h later (List.mem_cons_of_mem line hmem))
          rw [List.getLast?_cons_cons, hlater,
            List.intercalate_cons_of_ne_nil (List.cons_ne_nil next lines)]
          cases hrest : ['\n'].intercalate (next :: lines) with
          | nil => simp
          | cons c rest => simp [List.getLast?_cons_cons]

/-- The last line has nothing on it if the text is empty or ends in a newline. -/
theorem any_isEmpty_getLast?_linesOf (ts : List Token) :
    (linesOf ts).getLast?.any List.isEmpty = true ↔
      textOf ts = [] ∨ (textOf ts).getLast? = some '\n' := by
  have htexts : (linesOf ts).map lineText = splitLines (textOf ts) := map_lineText_linesOf ts
  have hlast := @getLast?_eq_nil_iff (splitLines (textOf ts)) (splitLines_ne_nil _)
    (fun line hline => not_mem_of_mem_splitLines hline)
  rw [splitLines_eq_splitOn, List.intercalate_splitOn, ← splitLines_eq_splitOn, ← htexts,
    List.getLast?_map] at hlast
  rw [← hlast]
  cases hparts : (linesOf ts).getLast? with
  | none => simp
  | some parts =>
      have hempty := lineText_eq_nil_iff (List.mem_of_getLast? hparts)
      simp [hempty]

/-- Every line has one number, but a last line with nothing on it has none. -/
theorem countP_numberLines (n : Nat) (lines : List (List Part)) :
    ([.bare '\n'].intercalate (numberLines (lineItems true) n lines)).countP Item.isGutter +
      (if lines.getLast?.any List.isEmpty then 1 else 0) = lines.length := by
  have hline (k : Nat) (parts : List Part) :
      (lineItems true k parts).countP Item.isGutter = 1 := by
    have hitems : lineItems true k parts = .gutter k :: parts.flatMap Part.items := rfl
    rw [hitems, List.countP_cons_of_pos rfl, countP_isGutter_items]
  induction lines generalizing n with
  | nil => rfl
  | cons line lines ih =>
      cases lines with
      | nil =>
          by_cases hempty : line = []
          · simp [numberLines, hempty]
          · simp [numberLines, hempty, hline]
      | cons next lines =>
          have hne := List.cons_ne_nil next lines
          have hnewline : [Item.bare '\n'].countP Item.isGutter = 0 := rfl
          have hlater := ih (n + 1)
          rw [numberLines_cons (.inr hne), List.intercalate_cons_of_ne_nil (numberLines_ne_nil hne),
            List.countP_append, List.countP_append, hline, hnewline, List.getLast?_cons_cons,
            List.length_cons]
          omega

/-! ## Characters and their lines -/

/-- The characters of a text, each with the line of its position, from a position on. -/
def placedFrom (p : Position) : Text → List (Char × Nat)
  | [] => []
  | c :: text => (c, p.line) :: placedFrom (p.advance c) text

theorem map_fst_placedFrom (p : Position) (text : Text) :
    (placedFrom p text).map Prod.fst = text := by
  induction text generalizing p with
  | nil => rfl
  | cons c text ih => rw [placedFrom, List.map_cons, ih]

/-- A character is placed on the line of the position after the text before it. -/
theorem getElem?_placedFrom (p : Position) (before after : Text) (c : Char) :
    (placedFrom p (before ++ c :: after))[before.length]? =
      some (c, (before.foldl Position.advance p).line) := by
  induction before generalizing p with
  | nil => rfl
  | cons d before ih => exact ih (p.advance d)

/-- Up to a newline, all characters are on one line, and after it the next one begins. -/
theorem placedFrom_append {line : Text} (h : '\n' ∉ line) (p : Position) (rest : Text) :
    ∃ q : Position, q.line = p.line ∧
      placedFrom p (line ++ rest) = line.map (fun c => (c, p.line)) ++ placedFrom q rest := by
  induction line generalizing p with
  | nil => exact ⟨p, rfl, rfl⟩
  | cons c line ih =>
      obtain ⟨hc, hline⟩ := List.ne_and_not_mem_of_not_mem_cons h
      have hadvance : (p.advance c).line = p.line := by
        rw [Position.advance, if_neg (Ne.symm hc)]
      obtain ⟨q, hq, hplaced⟩ := ih hline (p.advance c)
      rw [hadvance] at hq hplaced
      refine ⟨q, hq, ?_⟩
      rw [List.cons_append, placedFrom, hplaced]
      rfl

/-- Numbered lines place every character of their text on the line of its position. -/
theorem readLines?_numberLines {lines : List (List Part)} (h : ∀ line ∈ lines, '\n' ∉ lineText line)
    {n : Nat} {p : Position} (hp : p.line = n + 1) :
    readLines? (numberLines (writtenLine true) n lines) =
      some (placedFrom p (['\n'].intercalate (lines.map lineText))) := by
  induction lines generalizing n p with
  | nil => rfl
  | cons line lines ih =>
      obtain ⟨hline, hlines⟩ := List.forall_mem_cons.1 h
      have hread := readLine?_writtenLine (n + 1) line
      cases lines with
      | nil =>
          obtain ⟨q, -, hplaced⟩ := placedFrom_append hline p []
          rw [List.append_nil, placedFrom, List.append_nil, hp] at hplaced
          rw [List.map_cons, List.map_nil, List.intercalate_singleton, hplaced]
          by_cases hempty : line = []
          · rw [hempty]
            rfl
          · have hwritten : writtenLine true (n + 1) line ≠ [] := by
              intro hnil
              exact gutter_ne_nil (n + 1) (List.append_eq_nil_iff.1 hnil).1
            rw [numberLines, if_neg hempty, readLines?, if_neg hwritten, hread]
            rfl
      | cons next lines =>
          have hne := List.cons_ne_nil next lines
          have hmap : (next :: lines).map lineText ≠ [] := List.cons_ne_nil _ _
          obtain ⟨q, hq, hplaced⟩ := placedFrom_append hline p
            ('\n' :: ['\n'].intercalate ((next :: lines).map lineText))
          have hnext : (q.advance '\n').line = n + 1 + 1 := by
            rw [Position.advance, if_pos rfl, hq, hp]
          have hlater := ih hlines hnext
          have htext : ['\n'].intercalate ((line :: next :: lines).map lineText) =
              lineText line ++ '\n' :: ['\n'].intercalate ((next :: lines).map lineText) := by
            rw [List.map_cons, List.intercalate_cons_of_ne_nil hmap, List.append_assoc]
            rfl
          obtain ⟨row, rows, hrows⟩ :=
            List.exists_cons_of_ne_nil (@numberLines_ne_nil _ _ (writtenLine true) (n + 1) _ hne)
          rw [hrows] at hlater
          rw [numberLines_cons (.inr hne), hrows, readLines?, hread, Option.bind_some, hlater, htext,
            hplaced, placedFrom, hq, hp, Option.map_some, List.map_append, List.append_assoc]
          · rfl
          · intro hnil
            cases hnil

/-! ## Lines that are numbered as those of the text -/

/-- Markup is numbered as the lines of a text: it has as many newlines, each line of it is the
number of the line and then the text of the line in items of its own, only a last line without
text is empty, and there are no numbers besides. -/
structure NumberedAs (text output : Text) : Prop where
  newlines : output.count '\n' = text.count '\n'
  lines : ∀ (k : Nat) (line : Text), (output.splitOn '\n')[k]? = some line →
    ∃ own, (text.splitOn '\n')[k]? = some own ∧
      if own = [] ∧ k = text.count '\n' then line = []
      else gutter (k + 1) <+: line ∧ readLine? line = some (k + 1, own)
  gutters : ∃ items, read? output = some ⟨none, items⟩ ∧
    items.countP Item.isGutter =
      text.count '\n' + if text = [] ∨ text.getLast? = some '\n' then 0 else 1

/-- With numbered lines and no wrapper, tokens are numbered as the lines of their text. -/
theorem numberedAs_render (ts : List Token) (cssClass : Text) :
    NumberedAs (textOf ts) (render ts ⟨false, cssClass, true⟩) := by
  have hlines : (textOf ts).splitOn '\n' = (linesOf ts).map lineText := by
    rw [map_lineText_linesOf, splitLines_eq_splitOn]
  constructor
  · exact count_newline_render ts cssClass true
  · intro k line hline
    rw [splitOn_render, getElem?_numberLines] at hline
    obtain ⟨parts, hparts, rfl⟩ := Option.map_eq_some_iff.1 hline
    refine ⟨lineText parts, ?_, ?_⟩
    · rw [hlines, List.getElem?_map, hparts]
      rfl
    · have hempty := lineText_eq_nil_iff (List.mem_of_getElem? hparts)
      have hlast : k + 1 = (linesOf ts).length ↔ k = (textOf ts).count '\n' := by
        rw [length_linesOf]
        omega
      simp only [hempty, ← hlast]
      split
      · rfl
      · rw [Nat.zero_add]
        exact ⟨List.prefix_append _ _, readLine?_writtenLine (k + 1) parts⟩
  · have hread := reads_numberLines true 0 (linesOf ts)
    rw [← writeTokens_start] at hread
    refine ⟨_, read?_of_reads hread, ?_⟩
    have hcount := countP_numberLines 0 (linesOf ts)
    rw [length_linesOf] at hcount
    simp only [any_isEmpty_getLast?_linesOf] at hcount
    split at hcount
    · next h => rw [if_pos h]; omega
    · next h => rw [if_neg h]; omega

/-- Numbered lines of a rendering are those of the text, for any tokens. For the tokens of a source,
every character at an offset is written on the line that its position has. -/
theorem lines_are_numbered (cssClass : Text) :
    (∀ tokens, NumberedAs (textOf tokens) (render tokens ⟨false, cssClass, true⟩)) ∧
      ∀ source, ∃ tokens, tokenize source = .ok tokens ∧
        ∃ placed, readLines? ((render tokens ⟨false, cssClass, true⟩).splitOn '\n') = some placed ∧
          placed.map Prod.fst = source ∧
          ∀ offset before c after, source.splitAt? offset = some (before, c :: after) →
            ∃ p, Position.ofOffset? source offset = some p ∧
              placed[before.length]? = some (c, p.line) := by
  refine ⟨fun tokens => numberedAs_render tokens cssClass, ?_⟩
  intro source
  obtain ⟨tokens, last, hrun, hend, htokenize⟩ := exists_tokenize source
  have htext : textOf (merge tokens) = source := (losslessScan_of_run hrun hend).mergedTiling.text
  have hlines : ∀ line ∈ linesOf (merge tokens), '\n' ∉ lineText line := by
    intro line hline
    apply @not_mem_of_mem_splitLines (textOf (merge tokens))
    rw [← map_lineText_linesOf]
    exact List.mem_map_of_mem hline
  have hread := @readLines?_numberLines _ hlines 0 .start rfl
  rw [map_lineText_linesOf, splitLines_eq_splitOn, List.intercalate_splitOn, htext] at hread
  refine ⟨merge tokens, htokenize, placedFrom .start source, ?_, map_fst_placedFrom _ source, ?_⟩
  · rw [splitOn_render, hread]
  · intro offset before c after hsplit
    refine ⟨Position.after before, ?_, ?_⟩
    · rw [Position.ofOffset?, hsplit]
      rfl
    · obtain ⟨rfl, -⟩ := Text.of_splitAt? hsplit
      exact getElem?_placedFrom .start before after c

end JsoniqLexer.Html

import JsoniqLexer.Proofs.Jsoniq.Strings
import JsoniqLexer.Proofs.Text.JsonReader
import JsoniqLexer.Render.Listing

/-!
# Listings of tokens are lossless

A listing is read line by line (`Listing.read?`): on each line a category, a quoted lexeme, and a range
or none. Whatever a lexeme holds, its quoted form stands on one line and is read back, so a listing has
one line for each token and is read as what the tokens are (`Listing.exists_lines`). The records of
tokens are read as JSON (`JsonRecord.exists_ofTokens`). The tokens of a scan are the text from its
beginning to its end, and so are the ranges on the lines (`Placed.Covers`).
-/

set_option autoImplicit false

namespace JsoniqLexer

open TokenStream Token Text

/-! ## Tokens in their places -/

/-- A token, and the places where it starts and ends. -/
structure Placed where
  token : Token
  first : Position
  last : Position

namespace Placed

/-- The places are those of the ends of the token in the source. -/
structure IsIn (x : Placed) (source : Text) : Prop where
  first : Position.ofOffset? source x.token.start = some x.first
  last : Position.ofOffset? source x.token.stop = some x.last

/-- The first range begins with the source, each of the others where the one before it ends, and the
last ends with the source. -/
structure Covers (source : Text) (placed : List Placed) : Prop where
  first : ∀ x ∈ placed.head?, x.first = ⟨1, 1⟩
  chained : placed.IsChain fun x y => y.first = x.last
  last : ∀ x ∈ placed.getLast?, Position.ofOffset? source source.byteLength = some x.last

theorem exists_isIn {source : Text} {t : Token} (h : t.IsPieceOf source) :
    ∃ x : Placed, x.token = t ∧ x.IsIn source := by
  obtain ⟨before, after, hsource, hstart, hstop⟩ := Text.slice?_eq_some_iff.1 h
  have hfirst : source.splitAt? t.start = some (before, t.lexeme ++ after) := by
    rw [Text.splitAt?_eq_some_iff]
    exact ⟨hsource, hstart⟩
  have hlast : source.splitAt? t.stop = some (before ++ t.lexeme, after) := by
    rw [Text.splitAt?_eq_some_iff, Text.byteLength_append, List.append_assoc, hstart]
    exact ⟨hsource, hstop⟩
  refine ⟨⟨t, Position.after before, Position.after (before ++ t.lexeme)⟩, rfl, ?_, ?_⟩
  · rw [Position.ofOffset?, hfirst]
    rfl
  · rw [Position.ofOffset?, hlast]
    rfl

/-- Pieces of a source have their places in it. -/
theorem exists_placed {source : Text} {ts : List Token} (h : ∀ t ∈ ts, t.IsPieceOf source) :
    ∃ placed : List Placed, placed.map token = ts ∧ ∀ x ∈ placed, x.IsIn source := by
  induction ts with
  | nil => exact ⟨[], rfl, by simp⟩
  | cons t ts ih =>
      obtain ⟨ht, hts⟩ := List.forall_mem_cons.1 h
      obtain ⟨x, rfl, hx⟩ := exists_isIn ht
      obtain ⟨placed, rfl, hplaced⟩ := ih hts
      exact ⟨x :: placed, rfl, List.forall_mem_cons.2 ⟨hx, hplaced⟩⟩

/-- The places of tokens that tile a source go through it from the beginning to the end. -/
theorem covers_of_tiling {source : Text} {placed : List Placed}
    (h : Tiling source (placed.map token)) (hplaced : ∀ x ∈ placed, x.IsIn source) :
    Covers source placed := by
  constructor
  · intro x hx
    have hzero : x.token.start = 0 := by
      apply h.first
      rw [List.head?_map]
      exact Option.mem_map_of_mem token hx
    have hfirst := (hplaced x (List.mem_of_mem_head? hx)).first
    rw [hzero, Position.ofOffset?, Text.splitAt?_zero] at hfirst
    exact (Option.some.inj hfirst).symm
  · have hchained := (List.isChain_map token).1 h.chained
    refine hchained.imp_of_mem_imp ?_
    intro x y hx hy hmeet
    have hlast := (hplaced x hx).last
    rw [← hmeet, (hplaced y hy).first] at hlast
    exact Option.some.inj hlast
  · intro x hx
    have hend : x.token.stop = source.byteLength := by
      apply h.last
      rw [List.getLast?_map]
      exact Option.mem_map_of_mem token hx
    rw [← hend]
    exact (hplaced x (List.mem_of_mem_getLast? hx)).last

end Placed

/-! ## Reading a listing -/

namespace Listing

/-- What a line of a listing says. -/
structure Entry where
  category : Category
  lexeme : Text
  range : Option (Position × Position)

/-- A line and a column, with a colon between them. -/
def readPosition? (text : Text) : Option (Position × Text) := do
  let (line, tail) ← readNumeral? 10 text
  let tail ← after? [':'] tail
  let (column, rest) ← readNumeral? 10 tail
  return (⟨line, column⟩, rest)

/-- The end of a line: nothing, or a range in brackets. -/
def readRange? (text : Text) : Option (Option (Position × Position)) :=
  if text = [] then some none
  else do
    let tail ← after? [' ', '['] text
    let (first, tail) ← readPosition? tail
    let tail ← after? ['-'] tail
    let (last, rest) ← readPosition? tail
    if rest = [']'] then some (some (first, last)) else none

/-- The category that a name belongs to. -/
def categoryOf? (name : Text) : Option Category :=
  Category.all.find? fun category => category.label.toList = name

/-- A line: the name of a category, a quoted lexeme, and a range or none. -/
def readLine? (line : Text) : Option Entry := do
  let category ← categoryOf? (line.takeWhile (· ≠ ' '))
  let tail ← after? [' '] (line.dropWhile (· ≠ ' '))
  let (lexeme, tail) ← Quotation.braced.read? tail
  let range ← readRange? tail
  return ⟨category, lexeme, range⟩

/-- The lines of a listing; after the last newline nothing stands. -/
def readLines? : List Text → Option (List Entry)
  | [] => none
  | [last] => if last = [] then some [] else none
  | line :: lines => do
      let entry ← readLine? line
      let entries ← readLines? lines
      return entry :: entries

/-- What a listing says, line by line. -/
def read? (listing : Text) : Option (List Entry) := readLines? (listing.splitOn '\n')

/-! ## What is listed is read -/

/-- A place as it is written. -/
def placeText (p : Position) : Text := decimal p.line ++ ':' :: decimal p.column

theorem toList_render (p : Position) : p.render.toList = placeText p := by
  simp [Position.render, placeText, decimal, toString, Nat.toList_repr]

theorem readPosition?_append (p : Position) {rest : Text}
    (hrest : ∀ c ∈ rest.head?, isDigitOf 10 c = false) :
    readPosition? (placeText p ++ rest) = some (p, rest) := by
  have hcolon : ∀ c ∈ (':' :: (decimal p.column ++ rest)).head?, isDigitOf 10 c = false :=
    forall_head?_cons (by decide) _
  have hline : readNumeral? 10 (placeText p ++ rest) =
      some (p.line, ':' :: (decimal p.column ++ rest)) := by
    rw [placeText, List.append_assoc]
    exact readNumeral?_toDigits (by decide) (by decide) hcolon
  have hafter : after? [':'] (':' :: (decimal p.column ++ rest)) =
      some (decimal p.column ++ rest) := after?_append [':'] _
  have hcolumn : readNumeral? 10 (decimal p.column ++ rest) = some (p.column, rest) :=
    readNumeral?_toDigits (by decide) (by decide) hrest
  simp [readPosition?, hline, hafter, hcolumn]

/-- A range as it is written. -/
def rangeText (first last : Position) : Text :=
  [' ', '['] ++ (placeText first ++ ('-' :: (placeText last ++ [']'])))

theorem range_eq {source : Text} {x : Placed} (h : x.IsIn source) :
    range source x.token = .ok (rangeText x.first x.last) := by
  rw [range, Position.ofOffset, Position.ofOffset, h.first, h.last]
  simp [rangeText, toList_render]

theorem readRange?_rangeText (first last : Position) :
    readRange? (rangeText first last) = some (some (first, last)) := by
  have hopening : after? [' ', '['] (rangeText first last) =
      some (placeText first ++ ('-' :: (placeText last ++ [']']))) := after?_append _ _
  have hfirst : readPosition? (placeText first ++ ('-' :: (placeText last ++ [']']))) =
      some (first, '-' :: (placeText last ++ [']'])) :=
    readPosition?_append first (forall_head?_cons (by decide) _)
  have hdash : after? ['-'] ('-' :: (placeText last ++ [']'])) = some (placeText last ++ [']']) :=
    after?_append ['-'] _
  have hlast : readPosition? (placeText last ++ [']']) = some (last, [']']) :=
    readPosition?_append last (forall_head?_cons (by decide) _)
  have hne : rangeText first last ≠ [] := List.cons_ne_nil _ _
  simp [readRange?, hne, hopening, hfirst, hdash, hlast]

theorem categoryOf?_label (category : Category) : categoryOf? category.label.toList = some category := by
  cases category <;> decide

end Listing

namespace Placed

open Listing

/-- What a listing says of the token. -/
def entry (spans : Bool) (x : Placed) : Entry :=
  ⟨x.token.category, x.token.lexeme, if spans then some (x.first, x.last) else none⟩

/-- The line of the token. -/
def lineText (spans : Bool) (x : Placed) : Text :=
  x.token.category.label.toList ++
    ' ' :: (Text.Quoted.encode x.token.lexeme ++ if spans then rangeText x.first x.last else [])

theorem line_eq {source : Text} {x : Placed} (h : x.IsIn source) (spans : Bool) :
    line source spans x.token = .ok (x.lineText spans ++ ['\n']) := by
  cases spans with
  | true => simp [line, lineText, range_eq h]
  | false => simp [line, lineText]

theorem readLine?_lineText (x : Placed) (spans : Bool) :
    readLine? (x.lineText spans) = some (x.entry spans) := by
  have hlabel : ∀ c ∈ x.token.category.label.toList, decide (c ≠ ' ') = true := by
    have hall : ∀ category ∈ Category.all, category.label.toList.all (· ≠ ' ') = true := by decide
    exact List.all_eq_true.1 (hall x.token.category x.token.category.mem_all)
  obtain ⟨tail, htail⟩ : ∃ tail, tail = if spans then rangeText x.first x.last else [] := ⟨_, rfl⟩
  have hblank : ∀ c ∈ (' ' :: (Text.Quoted.encode x.token.lexeme ++ tail)).head?,
      decide (c ≠ ' ') = false := by
    apply forall_head?_cons
    rfl
  have hafter : after? [' '] (' ' :: (Text.Quoted.encode x.token.lexeme ++ tail)) =
      some (Text.Quoted.encode x.token.lexeme ++ tail) := after?_append [' '] _
  have hrange : readRange? tail = some (if spans then some (x.first, x.last) else none) := by
    rw [htail]
    cases spans with
    | true => exact readRange?_rangeText x.first x.last
    | false => rfl
  rw [readLine?, lineText, ← htail, takeWhile_run hlabel hblank, dropWhile_run hlabel hblank]
  simp [categoryOf?_label, hafter, read?_encode_braced, hrange, entry]

theorem newline_not_mem_lineText (x : Placed) (spans : Bool) : '\n' ∉ x.lineText spans := by
  have hlabel : ∀ category ∈ Category.all, '\n' ∉ category.label.toList := by decide
  have hdecimal (n : Nat) : '\n' ∉ decimal n :=
    newline_not_mem_toDigits (by decide) (by decide) n
  have hplace (p : Position) : '\n' ∉ placeText p := by
    simp [placeText, hdecimal]
  have hrange : '\n' ∉ (if spans then rangeText x.first x.last else []) := by
    cases spans with
    | true => simp [rangeText, hplace]
    | false => simp
  rw [lineText, List.mem_append, List.mem_cons, List.mem_append]
  rintro (hmem | hblank | hmem | hmem)
  · exact hlabel x.token.category x.token.category.mem_all hmem
  · revert hblank
    decide
  · exact Text.Quoted.newline_not_mem_encode x.token.lexeme hmem
  · exact hrange hmem

end Placed

namespace Listing

/-- Lines with their newlines are lines between newlines, with nothing after the last one. -/
theorem flatMap_newline (texts : List Text) :
    texts.flatMap (· ++ ['\n']) = ['\n'].intercalate (texts ++ [[]]) := by
  induction texts with
  | nil => rfl
  | cons text texts ih =>
      rw [List.flatMap_cons, ih]
      cases texts with
      | nil => simp [List.intercalate]
      | cons second texts => simp [List.intercalate]

theorem count_newline {texts : List Text} (h : ∀ text ∈ texts, '\n' ∉ text) :
    (texts.flatMap (· ++ ['\n'])).count '\n' = texts.length := by
  induction texts with
  | nil => rfl
  | cons text texts ih =>
      obtain ⟨htext, htexts⟩ := List.forall_mem_cons.1 h
      have hnone := List.count_eq_zero.2 htext
      rw [List.flatMap_cons, List.count_append, List.count_append, ih htexts, hnone,
        List.count_singleton_self, List.length_cons]
      omega

theorem lines_eq {source : Text} {placed : List Placed} (h : ∀ x ∈ placed, x.IsIn source)
    (spans : Bool) : lines source spans (placed.map Placed.token) =
      .ok ((placed.map (Placed.lineText spans)).flatMap (· ++ ['\n'])) := by
  induction placed with
  | nil => rfl
  | cons x placed ih =>
      obtain ⟨hx, hplaced⟩ := List.forall_mem_cons.1 h
      rw [List.map_cons, lines, Placed.line_eq hx]
      simp only [ih hplaced, List.map_cons, List.flatMap_cons]

theorem readLines?_lineTexts (placed : List Placed) (spans : Bool) :
    readLines? (placed.map (Placed.lineText spans) ++ [[]]) =
      some (placed.map (Placed.entry spans)) := by
  induction placed with
  | nil => rfl
  | cons x placed ih =>
      rw [List.map_cons, List.cons_append, readLines?]
      · simp [ih, Placed.readLine?_lineText]
      · simp

/-- Tokens in their places are listed, one on each line, and the listing says what they are. -/
theorem exists_lines {source : Text} {placed : List Placed} (h : ∀ x ∈ placed, x.IsIn source)
    (spans : Bool) :
    ∃ listing, lines source spans (placed.map Placed.token) = .ok listing ∧
      listing.count '\n' = placed.length ∧
      read? listing = some (placed.map (Placed.entry spans)) := by
  have hnewline : ∀ text ∈ placed.map (Placed.lineText spans), '\n' ∉ text := by
    intro text htext
    obtain ⟨x, -, rfl⟩ := List.mem_map.1 htext
    exact x.newline_not_mem_lineText spans
  refine ⟨_, lines_eq h spans, ?_, ?_⟩
  · rw [count_newline hnewline, List.length_map]
  · have hall : ∀ text ∈ placed.map (Placed.lineText spans) ++ [[]], '\n' ∉ text := by
      rw [List.forall_mem_append, List.forall_mem_singleton]
      exact ⟨hnewline, List.not_mem_nil⟩
    have hne : placed.map (Placed.lineText spans) ++ [[]] ≠ [] := by simp
    rw [read?, flatMap_newline, List.splitOn_intercalate '\n' hall hne]
    exact readLines?_lineTexts placed spans

end Listing

/-! ## Reading records -/

/-- The record of a token in its place. -/
def Placed.record (x : Placed) : Json :=
  .object
    [ ("category".toList, .string x.token.category.label.toList),
      ("lexeme".toList, .string x.token.lexeme),
      ("start".toList, .number x.token.start 0),
      ("end".toList, .number x.token.stop 0),
      ("line".toList, .number x.first.line 0),
      ("column".toList, .number x.first.column 0) ]

namespace JsonRecord

/-- A field as a line of an object. -/
def memberText (field : String × Text) : Text :=
  "    ".toList ++ (Text.Json.encodeString field.1 ++ (':' :: ([' '] ++ field.2)))

theorem indented_eq (fields : List (String × Text)) :
    indented fields = [' ', ' '] ++
      Json.bracketed '\x7b' '\x7d' ['\n'] ['\n'] ['\n', ' ', ' '] (fields.map memberText) := by
  have hmember : (fun field : String × Text => "    ".toList ++ Text.Json.encodeString field.1 ++
      ": ".toList ++ field.2) = memberText := by
    funext field
    simp [memberText]
  rw [indented, hmember, Json.bracketed, List.append_assoc]
  rfl

/-- Fields whose values are taken are taken as an object. -/
theorem takes_indented {depth : Nat} {fields : List (String × Text × Json)} (hne : fields ≠ [])
    (h : ∀ field ∈ fields, Json.Takes (Json.valueReader depth) field.2.1 field.2.2) :
    Json.Takes (Json.valueReader (depth + 1))
      (indented (fields.map fun field => (field.1, field.2.1)))
      (.object (fields.map fun field => (field.1.toList, field.2.2))) := by
  have hnewline : Json.Blanks ['\n'] := Json.blanks_of_all rfl
  have hclosing : Json.Blanks ['\n', ' ', ' '] := Json.blanks_of_all rfl
  have hblank : Json.Blanks [' '] := Json.blanks_of_all rfl
  have hindent : Json.Blanks [' ', ' '] := Json.blanks_of_all rfl
  have hmargin : Json.Blanks "    ".toList := Json.blanks_of_all rfl
  -- each field with its line and what the line says
  obtain ⟨parts, hparts⟩ : ∃ parts : List (Text × (Text × Json)), parts = fields.map fun field =>
      (memberText (field.1, field.2.1), (field.1.toList, field.2.2)) := ⟨_, rfl⟩
  have htexts : (fields.map fun field => (field.1, field.2.1)).map memberText =
      parts.map Prod.fst := by
    rw [hparts, List.map_map, List.map_map]
    rfl
  have hvalues : (fields.map fun field => (field.1.toList, field.2.2)) = parts.map Prod.snd := by
    rw [hparts, List.map_map]
    rfl
  rw [indented_eq, htexts, hvalues]
  apply Json.Takes.indented _ hindent
  apply Json.takes_object hnewline hclosing hnewline
  · simpa [hparts] using hne
  · intro part hpart
    rw [hparts] at hpart
    obtain ⟨field, hfield, rfl⟩ := List.mem_map.1 hpart
    exact (Json.takes_member (h field hfield) hblank field.1.toList).indented hmargin
  · intro part hpart rest
    rw [hparts] at hpart
    obtain ⟨field, hfield, rfl⟩ := List.mem_map.1 hpart
    rw [memberText, List.append_assoc, Json.mark?_append hmargin]
    exact Json.mark?_cons_ne (by decide : Json.isBlank '"' = false) (by decide) _

end JsonRecord

namespace Placed

/-- The fields of a record as they are written, with what they say. -/
def fields (x : Placed) : List (String × Text × Json) :=
  [ ("category", Text.Json.encodeString x.token.category.label,
      .string x.token.category.label.toList),
    ("lexeme", Text.Json.encode x.token.lexeme, .string x.token.lexeme),
    ("start", decimal x.token.start, .number x.token.start 0),
    ("end", decimal x.token.stop, .number x.token.stop 0),
    ("line", decimal x.first.line, .number x.first.line 0),
    ("column", decimal x.first.column, .number x.first.column 0) ]

/-- The record of a token as it is written. -/
def recordText (x : Placed) : Text :=
  JsonRecord.indented (x.fields.map fun field => (field.1, field.2.1))

theorem takes_recordText (x : Placed) (depth : Nat) :
    Json.Takes (Json.valueReader (depth + 1)) x.recordText x.record := by
  apply JsonRecord.takes_indented (List.cons_ne_nil _ _)
  intro field hfield
  simp only [List.mem_cons, List.not_mem_nil, or_false] at hfield
  rcases hfield with rfl | rfl | rfl | rfl | rfl | rfl
  · exact Json.takes_string _ depth
  · exact Json.takes_string _ depth
  · exact Json.takes_decimal _ depth
  · exact Json.takes_decimal _ depth
  · exact Json.takes_decimal _ depth
  · exact Json.takes_decimal _ depth

end Placed

namespace JsonRecord

theorem placedRecords_eq {source : Text} {placed : List Placed}
    (h : ∀ x ∈ placed, x.IsIn source) :
    placedRecords source (placed.map Placed.token) = .ok (placed.map Placed.recordText) := by
  induction placed with
  | nil => rfl
  | cons x placed ih =>
      obtain ⟨hx, hplaced⟩ := List.forall_mem_cons.1 h
      rw [List.map_cons, placedRecords, placedFields, Position.ofOffset, hx.first]
      simp only [ih hplaced]
      rfl

/-- Tokens in their places have records, and as JSON these are one array with what the tokens are. -/
theorem exists_ofTokens {source : Text} {placed : List Placed} (h : ∀ x ∈ placed, x.IsIn source) :
    ∃ json, ofTokens source (placed.map Placed.token) = .ok json ∧
      Json.parse? json = some (.array (placed.map Placed.record)) := by
  cases hplaced : placed with
  | nil => exact ⟨"[]".toList, rfl, rfl⟩
  | cons x others =>
      rw [← hplaced]
      have hnewline : Json.Blanks ['\n'] := Json.blanks_of_all rfl
      have hindent : Json.Blanks [' ', ' '] := Json.blanks_of_all rfl
      obtain ⟨parts, hparts⟩ : ∃ parts : List (Text × Json),
          parts = placed.map fun x => (x.recordText, x.record) := ⟨_, rfl⟩
      have htexts : placed.map Placed.recordText = parts.map Prod.fst := by
        rw [hparts, List.map_map]
        rfl
      have hvalues : placed.map Placed.record = parts.map Prod.snd := by
        rw [hparts, List.map_map]
        rfl
      have htokens : ofTokens source (placed.map Placed.token) =
          .ok (Json.bracketed '[' ']' ['\n'] ['\n'] ['\n'] (placed.map Placed.recordText)) := by
        rw [ofTokens, placedRecords_eq h, hplaced, Json.bracketed]
        simp
      refine ⟨_, htokens, ?_⟩
      apply Json.parse?_of_takes
      obtain ⟨depth, hdepth⟩ : ∃ depth, (Json.bracketed '[' ']' ['\n'] ['\n'] ['\n']
          (placed.map Placed.recordText)).length = depth + 1 + 1 := by
        rw [Json.bracketed]
        exact ⟨_, by simp; rfl⟩
      rw [hdepth, htexts, hvalues]
      apply Json.takes_array hnewline hnewline hnewline
      · simp [hparts, hplaced]
      · intro part hpart
        rw [hparts] at hpart
        obtain ⟨x, -, rfl⟩ := List.mem_map.1 hpart
        exact x.takes_recordText depth
      · intro part hpart rest
        rw [hparts] at hpart
        obtain ⟨x, -, rfl⟩ := List.mem_map.1 hpart
        rw [Placed.recordText, indented_eq, List.append_assoc, Json.mark?_append hindent]
        exact Json.mark?_cons_ne (by decide : Json.isBlank '\x7b' = false) (by decide) _

end JsonRecord

/-- Listings of the tokens of a text are lossless, with neighbours merged or not. The tokens are the
text; a listing has one line for each of them, which is read as its category and its lexeme, and with
ranges as its range, and the ranges go through the text from the beginning to the end; and as JSON the
records say the category, the lexeme and the ends of each token and the place where it starts. -/
theorem listings_are_lossless (source : Text) (raw : Bool) :
    ∃ scan placed, Scan.of source raw = .ok scan ∧
      placed.map Placed.token = scan.tokens ∧ (∀ x ∈ placed, x.IsIn source) ∧
      textOf scan.tokens = source ∧ Placed.Covers source placed ∧
      (∀ spans, ∃ listing, Listing.lines source spans scan.tokens = .ok listing ∧
        listing.count '\n' = scan.tokens.length ∧
        Listing.read? listing = some (placed.map (Placed.entry spans))) ∧
      ∃ json, JsonRecord.ofTokens source scan.tokens = .ok json ∧
        Json.parse? json = some (.array (placed.map Placed.record)) := by
  obtain ⟨tokens, last, hrun, hend⟩ :=
    Lexer.exists_run_jsoniq (Lexer.hasOpen_start source).grammar
  have hlossless := losslessScan_of_run hrun hend
  obtain ⟨ts, hts⟩ : ∃ ts, ts = if raw then tokens else merge tokens := ⟨_, rfl⟩
  have htiling : Tiling source ts := by
    rw [hts]
    cases raw with
    | true => exact hlossless.tiling
    | false => exact hlossless.mergedTiling
  obtain ⟨placed, hplaced, hplaces⟩ := Placed.exists_placed htiling.slices
  rw [← hplaced] at htiling
  refine ⟨⟨ts, last.termination⟩, placed, ?_, hplaced, hplaces, ?_, ?_, ?_, ?_⟩
  · rw [scan_of_run hrun hend, hts]
  · rw [← hplaced]
    exact htiling.text
  · exact Placed.covers_of_tiling htiling hplaces
  · intro spans
    simp only [← hplaced, List.length_map]
    exact Listing.exists_lines hplaces spans
  · simp only [← hplaced]
    exact JsonRecord.exists_ofTokens hplaces

end JsoniqLexer

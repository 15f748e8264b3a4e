import JsoniqLexer.Proofs.Lexer.Merge
import JsoniqLexer.Proofs.Render.Numbering

/-!
# Seams between spans

Where a span is closed and another one of its class is opened at once, there is a seam, and nothing is
lost if it is deleted (`Markup.withoutSeams`). Without its seams, markup depends only on which characters
it shows in which class: what is written for a list of items is the characters in the longest possible
spans (`withoutSeamsFrom_items`). Merging neighbours does not change that, so the markup of tokens and
that of the merged tokens differ by seams only (`merging_removes_seams`).
-/

set_option autoImplicit false

namespace JsoniqLexer

namespace Markup

open Text

/-! ## Markup without its seams -/

/-- The class of the span that a text begins by opening. -/
def openedClass? (text : Text) : Option Text :=
  (after? "<span class=\"".toList text).map fun rest => rest.takeWhile (· ≠ '"')

/-- The classes of the spans that are open once the tag at the beginning of a text has been read, if
there is a tag; `around` are those that are open before, the innermost first. -/
def spansAfter (around : List Text) (text : Text) : List Text :=
  match after? closing text with
  | some _ => around.tail
  | none => (openedClass? text).toList ++ around

/-- What follows the seam at the beginning of a text: the end of the innermost span, and the beginning
of one of its class. -/
def afterSeam? (around : List Text) (text : Text) : Option Text :=
  around.head?.bind fun cssClass => after? (closing ++ opening cssClass) text

theorem length_lt_of_afterSeam? {around : List Text} {text rest : Text}
    (h : afterSeam? around text = some rest) : rest.length < text.length := by
  obtain ⟨cssClass, -, hafter⟩ := Option.bind_eq_some_iff.1 h
  have hlength := length_le_of_after? hafter
  have hpos := length_opening_pos cssClass
  rw [List.length_append] at hlength
  omega

/-- The text with its seams deleted, from left to right, inside of the spans `around` it. -/
def withoutSeamsFrom (around : List Text) : Text → Text
  | [] => []
  | c :: text =>
      match _h : afterSeam? around (c :: text) with
      | some rest => withoutSeamsFrom around rest
      | none => c :: withoutSeamsFrom (spansAfter around (c :: text)) text
termination_by text => text.length
decreasing_by
  · exact length_lt_of_afterSeam? _h
  · simp

/-- The text with every end of a span deleted after which a span of the same class begins, together
with the beginning of that span. -/
def withoutSeams (text : Text) : Text := withoutSeamsFrom [] text

example : withoutSeams
    "<span class=\"a\">x</span><span class=\"a\">y</span><span class=\"b\">z</span>".toList =
      "<span class=\"a\">xy</span><span class=\"b\">z</span>".toList := by
  decide +kernel

/-! ## What is read -/

section Reading

variable {around : List Text} {text rest : Text} {c : Char}

theorem withoutSeamsFrom_of_some (h : afterSeam? around text = some rest) :
    withoutSeamsFrom around text = withoutSeamsFrom around rest := by
  cases text with
  | nil =>
      have hlength := length_lt_of_afterSeam? h
      exact absurd hlength (Nat.not_lt_zero _)
  | cons c text =>
      rw [withoutSeamsFrom]
      split
      · next found hfound =>
        rw [h] at hfound
        rw [Option.some.inj hfound]
      · next hnone =>
        rw [h] at hnone
        cases hnone

theorem withoutSeamsFrom_of_none (h : afterSeam? around (c :: text) = none) :
    withoutSeamsFrom around (c :: text) =
      c :: withoutSeamsFrom (spansAfter around (c :: text)) text := by
  rw [withoutSeamsFrom]
  split
  · next found hfound =>
    rw [h] at hfound
    cases hfound
  · rfl

theorem openedClass?_cons_ne (h : c ≠ '<') (text : Text) : openedClass? (c :: text) = none := by
  have hmark : "<span class=\"".toList = '<' :: "span class=\"".toList := rfl
  rw [openedClass?, hmark, after?_cons_ne (Ne.symm h)]
  rfl

/-- What is no tag is left as it is. -/
theorem withoutSeamsFrom_append (h : '<' ∉ text) (around : List Text) (rest : Text) :
    withoutSeamsFrom around (text ++ rest) = text ++ withoutSeamsFrom around rest := by
  induction text with
  | nil => rfl
  | cons c text ih =>
      obtain ⟨hc, htext⟩ := List.ne_and_not_mem_of_not_mem_cons h
      have hseam : afterSeam? around (c :: (text ++ rest)) = none := by
        cases around with
        | nil => rfl
        | cons cssClass others => exact after?_cons_ne hc _ _
      have hspans : spansAfter around (c :: (text ++ rest)) = around := by
        rw [spansAfter, closing_eq_cons, after?_cons_ne hc, openedClass?_cons_ne (Ne.symm hc)]
        rfl
      rw [List.cons_append, withoutSeamsFrom_of_none hseam, hspans, ih htext, List.cons_append]

/-- A tag that begins no seam is left as it is, and says which spans are open after it. -/
theorem withoutSeamsFrom_tag {name : Text} {next : List Text} (h : '<' ∉ name)
    (hseam : afterSeam? around ('<' :: (name ++ rest)) = none)
    (hspans : spansAfter around ('<' :: (name ++ rest)) = next) :
    withoutSeamsFrom around ('<' :: (name ++ rest)) = '<' :: (name ++ withoutSeamsFrom next rest) := by
  rw [withoutSeamsFrom_of_none hseam, hspans, withoutSeamsFrom_append h]

theorem lt_not_mem_escape (text : Text) : '<' ∉ Html.escape text := by
  intro hmem
  exact (of_mem_escape (by decide) hmem).2 (by decide)

end Reading

/-! ## Tags -/

variable {current : Option Text} {rest : Text}

/-- The tag that opens a span of the class, if there is to be one. -/
def opened : Option Text → Text
  | none => []
  | some cssClass => opening cssClass

/-- The tag that closes the span, if there is one. -/
def closed : Option Text → Text
  | none => []
  | some _ => closing

/-- A class that can be written between quotes as it is. -/
def IsPlainClass (cssClass : Text) : Prop := '"' ∉ cssClass ∧ '<' ∉ cssClass

instance (cssClass : Text) : Decidable (IsPlainClass cssClass) :=
  inferInstanceAs (Decidable (_ ∧ _))

theorem openedClass?_opening {k : Text} (h : IsPlainClass k) (rest : Text) :
    openedClass? (opening k ++ rest) = some k := by
  have hopening : opening k ++ rest = "<span class=\"".toList ++ (k ++ ("\">".toList ++ rest)) :=
    (List.append_assoc _ _ _).trans (List.append_assoc _ _ _)
  rw [openedClass?, hopening, after?_append, Option.map_some]
  congr 1
  apply takeWhile_run
  · intro c hc
    have hne : c ≠ '"' := by
      rintro rfl
      exact h.1 hc
    simpa using hne
  · exact forall_head?_cons (by decide) _

/-- A tag of another class, or none, is no seam. -/
theorem afterSeam?_closing {k : Text} (h : IsPlainClass k) (hrest : openedClass? rest ≠ some k) :
    afterSeam? [k] (closing ++ rest) = none := by
  cases hseam : afterSeam? [k] (closing ++ rest) with
  | none => rfl
  | some tail =>
      have htext : closing ++ rest = closing ++ (opening k ++ tail) := by
        rw [← List.append_assoc]
        exact after?_eq_some_iff.1 hseam
      rw [List.append_cancel_left htext, openedClass?_opening h] at hrest
      exact absurd rfl hrest

/-- A span is closed where no span of its class is opened. -/
theorem withoutSeamsFrom_closed (h : ∀ k ∈ current, IsPlainClass k)
    (hrest : ∀ k ∈ current, openedClass? rest ≠ some k) :
    withoutSeamsFrom current.toList (closed current ++ rest) =
      closed current ++ withoutSeamsFrom [] rest := by
  cases current with
  | none => rfl
  | some k =>
      have hseam := afterSeam?_closing (h k rfl) (hrest k rfl)
      have hspans : spansAfter [k] (closing ++ rest) = [] := by
        rw [spansAfter, after?_append]
        rfl
      exact withoutSeamsFrom_tag (by decide) hseam hspans

/-- A span is opened where none is open. -/
theorem withoutSeamsFrom_opened {k : Option Text} (h : ∀ j ∈ k, IsPlainClass j) (rest : Text) :
    withoutSeamsFrom [] (opened k ++ rest) = opened k ++ withoutSeamsFrom k.toList rest := by
  cases k with
  | none => rfl
  | some j =>
      have hspans : spansAfter [] (opening j ++ rest) = [j] := by
        rw [spansAfter, openedClass?_opening (h j rfl)]
        rfl
      have htag : '<' ∉ "span class=\"".toList ++ j ++ "\">".toList := by
        intro hmem
        rcases List.mem_append.1 hmem with hmem | hmem
        · rcases List.mem_append.1 hmem with hmem | hmem
          · exact absurd hmem (by decide)
          · exact (h j rfl).2 hmem
        · exact absurd hmem (by decide)
      exact withoutSeamsFrom_tag htag rfl hspans

/-- Between characters of different classes one span is closed and another one opened; between
characters of one class nothing is left. -/
theorem withoutSeamsFrom_change {k : Option Text} (hcurrent : ∀ j ∈ current, IsPlainClass j)
    (hk : ∀ j ∈ k, IsPlainClass j) (hrest : openedClass? rest = none) :
    withoutSeamsFrom current.toList (closed current ++ (opened k ++ rest)) =
      (if k = current then [] else closed current ++ opened k) ++ withoutSeamsFrom k.toList rest := by
  by_cases hsame : k = current
  · subst hsame
    rw [if_pos rfl, List.nil_append]
    cases k with
    | none => rfl
    | some j =>
        apply withoutSeamsFrom_of_some
        rw [closed, opened, ← List.append_assoc]
        exact after?_append _ _
  · have hopened : openedClass? (opened k ++ rest) = k := by
      cases k with
      | none => exact hrest
      | some j => exact openedClass?_opening (hk j rfl) rest
    have hother : ∀ j ∈ current, openedClass? (opened k ++ rest) ≠ some j := by
      rintro j hj
      rw [hopened]
      rintro rfl
      exact hsame hj.symm
    rw [if_neg hsame, withoutSeamsFrom_closed hcurrent hother, withoutSeamsFrom_opened hk,
      List.append_assoc]

/-! ## Items -/

namespace Item

/-- The class of the span of an item. -/
def class? : Item → Option Text
  | .gutter _ => some "lineno".toList
  | .span cssClass _ => some cssClass
  | .bare _ => none

/-- The characters of an item, those of a line number being its digits. -/
def text : Item → Text
  | .gutter line => Nat.toDigits 10 line
  | .span _ text => text
  | .bare c => [c]

/-- The item in its written form. -/
def written (item : Item) : Text :=
  opened item.class? ++ (Html.escape item.text ++ closed item.class?)

/-- The characters of an item, each with the class of its span. -/
def glyphs (item : Item) : List (Char × Option Text) := item.text.map fun c => (c, item.class?)

/-- The item holds something, and its class can be written between quotes. -/
def IsProper (item : Item) : Prop := item.text ≠ [] ∧ ∀ k ∈ item.class?, IsPlainClass k

end Item

/-- Characters in spans that are as long as possible, where a span of the class `current` is open. -/
def spans (current : Option Text) : List (Char × Option Text) → Text
  | [] => closed current
  | (c, k) :: glyphs =>
      (if k = current then [] else closed current ++ opened k) ++ (Html.escapeChar c ++ spans k glyphs)

theorem spans_run (k : Option Text) (text : Text) (glyphs : List (Char × Option Text)) :
    spans k ((text.map fun c => (c, k)) ++ glyphs) = Html.escape text ++ spans k glyphs := by
  induction text with
  | nil => rfl
  | cons c text ih =>
      rw [List.map_cons, List.cons_append, spans, if_pos rfl, List.nil_append, ih, Html.escape,
        Html.escape, List.flatMap_cons, List.append_assoc]

theorem spans_item {item : Item} (h : item.IsProper) (glyphs : List (Char × Option Text)) :
    spans current (item.glyphs ++ glyphs) =
      (if item.class? = current then [] else closed current ++ opened item.class?) ++
        (Html.escape item.text ++ spans item.class? glyphs) := by
  obtain ⟨c, text, htext⟩ := List.exists_cons_of_ne_nil h.1
  rw [Item.glyphs, htext, List.map_cons, List.cons_append, spans, spans_run, Html.escape,
    Html.escape, List.flatMap_cons, List.append_assoc]

/-- Without its seams, what is written for items is their characters in spans that are as long as
possible. -/
theorem withoutSeamsFrom_items {items : List Item} (hitems : ∀ item ∈ items, item.IsProper)
    (hcurrent : ∀ k ∈ current, IsPlainClass k) (hrest : openedClass? rest = none) :
    withoutSeamsFrom current.toList (closed current ++ (items.flatMap Item.written ++ rest)) =
      spans current (items.flatMap Item.glyphs) ++ withoutSeamsFrom [] rest := by
  induction items generalizing current with
  | nil =>
      apply withoutSeamsFrom_closed hcurrent
      simp [hrest]
  | cons item items ih =>
      obtain ⟨hitem, hitems⟩ := List.forall_mem_cons.1 hitems
      -- the characters of the item begin with no tag
      have hchars : openedClass? (Html.escape item.text ++
          (closed item.class? ++ (items.flatMap Item.written ++ rest))) = none := by
        obtain ⟨c, text, htext⟩ := List.exists_cons_of_ne_nil hitem.1
        obtain ⟨d, name, hwritten, hne⟩ := exists_escapeChar_eq_cons c
        rw [htext, Html.escape, List.flatMap_cons, hwritten]
        exact openedClass?_cons_ne hne _
      rw [List.flatMap_cons, List.flatMap_cons, Item.written, spans_item hitem]
      simp only [List.append_assoc]
      rw [withoutSeamsFrom_change hcurrent hitem.2 hchars,
        withoutSeamsFrom_append (lt_not_mem_escape item.text), ih hitems hitem.2]

end Markup

namespace Html

open Token Markup

/-! ## What is written for tokens -/

/-- Digits are written as they are. -/
theorem escape_toDigits (n : Nat) : escape (Nat.toDigits 10 n) = Nat.toDigits 10 n := by
  have hdigits : ∀ c ∈ Nat.toDigits 10 n, escapeChar c = [c] := by
    intro c hc
    apply escapeChar_eq_singleton
    intro hspecial
    obtain ⟨entity, hentity, rfl⟩ := List.mem_map.1 hspecial
    have hall : ∀ e ∈ entities, e.1.isDigit = false := by decide
    have hdigit := Nat.isDigit_of_mem_toDigits (by decide) (by decide) hc
    rw [hall entity hentity] at hdigit
    cases hdigit
  rw [escape, List.flatMap_congr hdigits]
  simp

theorem written_gutter (n : Nat) : (Item.gutter n).written = gutter n := by
  rw [gutter_eq, Item.written, Item.text, escape_toDigits]
  rfl

theorem Part.written_items (p : Part) : p.items.flatMap Item.written = p.written := by
  rw [items, written, piece]
  split
  · rw [List.flatMap_map, escape]
    apply List.flatMap_congr
    intro c _
    simp [Item.written, Item.text, Item.class?, opened, closed, escape]
  · rw [spanOf_eq, List.flatMap_singleton]
    rfl

theorem Part.glyphs_items (p : Part) : p.items.flatMap Item.glyphs = p.cells := by
  rw [items, cells, spanClass?]
  split
  · rw [List.flatMap_map, List.map_eq_flatMap]
    rfl
  · rw [List.flatMap_singleton]
    rfl

theorem Part.isProper_of_mem_items {p : Part} (h : p.text ≠ []) {item : Item}
    (hitem : item ∈ p.items) : item.IsProper := by
  rw [items] at hitem
  split at hitem
  · obtain ⟨c, -, rfl⟩ := List.mem_map.1 hitem
    exact ⟨List.cons_ne_nil c [], by simp [Item.class?]⟩
  · obtain rfl := List.mem_singleton.1 hitem
    have hall : ∀ k ∈ classes, IsPlainClass k := by decide +kernel
    refine ⟨h, ?_⟩
    intro k hk
    obtain rfl := Option.some.inj hk
    exact hall _ (cssClass_mem_classes p.category)

theorem written_lineItems (numbered : Bool) (n : Nat) (parts : List Part) :
    (lineItems numbered n parts).flatMap Item.written = writtenLine numbered n parts := by
  have hparts : (parts.flatMap Part.items).flatMap Item.written = parts.flatMap Part.written := by
    rw [List.flatMap_assoc]
    simp only [Part.written_items]
  rw [lineItems, writtenLine, List.flatMap_append, hparts]
  cases numbered with
  | false => rfl
  | true => simp [written_gutter]

/-- The digits at the beginning of a line. -/
def numberGlyphs (numbered : Bool) (n : Nat) : List (Char × Option Text) :=
  if numbered then (Item.gutter n).glyphs else []

theorem glyphs_lineItems (numbered : Bool) (n : Nat) (parts : List Part) :
    (lineItems numbered n parts).flatMap Item.glyphs = numberGlyphs numbered n ++ lineCells parts := by
  have hparts : (parts.flatMap Part.items).flatMap Item.glyphs = lineCells parts := by
    rw [List.flatMap_assoc, lineCells]
    simp only [Part.glyphs_items]
  rw [lineItems, numberGlyphs, List.flatMap_append, hparts]
  cases numbered with
  | false => rfl
  | true => simp

theorem isProper_gutter (n : Nat) : (Item.gutter n).IsProper := by
  refine ⟨Nat.toDigits_ne_nil, ?_⟩
  intro k hk
  obtain rfl := Option.some.inj hk
  decide

/-- The items of the lines of tokens, with newlines between them. -/
def itemsOf (numbered : Bool) (ts : List Token) : List Item :=
  [.bare '\n'].intercalate (numberLines (lineItems numbered) 0 (linesOf ts))

theorem written_itemsOf (numbered : Bool) (ts : List Token) :
    (itemsOf numbered ts).flatMap Item.written = (writeTokens numbered ts .start).1 := by
  rw [writeTokens_start, itemsOf, flatMap_intercalate, map_numberLines rfl]
  simp only [written_lineItems]
  rfl

theorem isProper_of_mem_itemsOf {numbered : Bool} {ts : List Token} :
    ∀ item ∈ itemsOf numbered ts, item.IsProper := by
  apply forall_mem_intercalate
  · intro item hitem
    obtain rfl := List.mem_singleton.1 hitem
    exact ⟨List.cons_ne_nil _ _, by simp [Item.class?]⟩
  · intro row hrow item hitem
    rcases of_mem_numberLines hrow with rfl | ⟨n, parts, hparts, rfl⟩
    · cases hitem
    · rw [lineItems] at hitem
      rcases List.mem_append.1 hitem with hgutter | hitem
      · split at hgutter
        · obtain rfl := List.mem_singleton.1 hgutter
          exact isProper_gutter n
        · cases hgutter
      · obtain ⟨p, hp, hitem⟩ := List.mem_flatMap.1 hitem
        have hpart := of_mem_flatten_linesOf (List.mem_flatten.2 ⟨parts, hparts, hp⟩)
        exact Part.isProper_of_mem_items hpart.1 hitem

/-! ## What is shown -/

/-- The lines of tokens are found among all their characters. -/
theorem map_lineCells_linesOf (ts : List Token) :
    (linesOf ts).map lineCells = (ts.flatMap cellsOf).splitOn ('\n', none) := by
  rw [← cells_linesOf]
  symm
  apply List.splitOn_intercalate
  · intro cells hcells hnewline
    obtain ⟨parts, hparts, rfl⟩ := List.mem_map.1 hcells
    obtain ⟨p, hp, hmem⟩ := List.mem_flatMap.1 hnewline
    obtain ⟨c, hc, heq⟩ := List.mem_map.1 hmem
    obtain rfl : c = '\n' := congrArg Prod.fst heq
    exact (of_mem_flatten_linesOf (List.mem_flatten.2 ⟨parts, hparts, hp⟩)).2 hc
  · simp [linesOf_ne_nil]

/-- What is shown depends only on the characters of the tokens with their classes. -/
theorem glyphs_itemsOf (numbered : Bool) (ts : List Token) :
    (itemsOf numbered ts).flatMap Item.glyphs =
      [('\n', none)].intercalate (numberLines (fun n cells => numberGlyphs numbered n ++ cells) 0
        ((ts.flatMap cellsOf).splitOn ('\n', none))) := by
  have hempty : ∀ parts ∈ linesOf ts, lineCells parts = [] ↔ parts = [] := by
    intro parts hparts
    constructor
    · intro h
      cases parts with
      | nil => rfl
      | cons p others =>
          have hpart := of_mem_flatten_linesOf
            (List.mem_flatten.2 ⟨_, hparts, List.mem_cons_self⟩)
          have hcells : p.cells = [] := (List.append_eq_nil_iff.1 h).1
          exact absurd (List.map_eq_nil_iff.1 hcells) hpart.1
    · rintro rfl
      rfl
  rw [← map_lineCells_linesOf, numberLines_map hempty, itemsOf, flatMap_intercalate,
    map_numberLines rfl]
  simp only [glyphs_lineItems]
  rfl

/-! ## Renderings without their seams -/

/-- Between what opens and what closes the wrapper, seams are deleted as they are without it. -/
theorem withoutSeamsFrom_wrapper (cssClass rest : Text) :
    withoutSeamsFrom []
        ("<pre class=\"".toList ++ (escape cssClass ++ ("\"><code>".toList ++ rest))) =
      "<pre class=\"".toList ++
        (escape cssClass ++ ("\"><code>".toList ++ withoutSeamsFrom [] rest)) := by
  have hquote : '<' ∉ "\">".toList := by decide
  have hcode : withoutSeamsFrom [] ("\"><code>".toList ++ rest) =
      "\"><code>".toList ++ withoutSeamsFrom [] rest := by
    have htag : withoutSeamsFrom [] ('<' :: ("code>".toList ++ rest)) =
        '<' :: ("code>".toList ++ withoutSeamsFrom [] rest) :=
      withoutSeamsFrom_tag (by decide) rfl rfl
    have happend := withoutSeamsFrom_append hquote [] ('<' :: ("code>".toList ++ rest))
    rw [htag] at happend
    exact happend
  have hpre := @withoutSeamsFrom_tag [] (escape cssClass ++ ("\"><code>".toList ++ rest))
    "pre class=\"".toList [] (by decide) rfl rfl
  rw [withoutSeamsFrom_append (lt_not_mem_escape cssClass), hcode] at hpre
  exact hpre

/-- Without its seams, a rendering shows its characters in spans that are as long as possible. -/
theorem withoutSeamsFrom_writeTokens (numbered : Bool) (ts : List Token) {rest : Text}
    (hrest : openedClass? rest = none) :
    withoutSeamsFrom [] ((writeTokens numbered ts .start).1 ++ rest) =
      spans none ((itemsOf numbered ts).flatMap Item.glyphs) ++ withoutSeamsFrom [] rest := by
  rw [← written_itemsOf]
  exact @withoutSeamsFrom_items none rest _ isProper_of_mem_itemsOf (by simp) hrest

/-- Tokens with the same characters in the same classes are written alike up to seams. -/
theorem withoutSeams_render_congr {ts us : List Token} (h : ts.flatMap cellsOf = us.flatMap cellsOf)
    (config : Config) : withoutSeams (render ts config) = withoutSeams (render us config) := by
  have hbody {rest : Text} (hrest : openedClass? rest = none) :
      withoutSeamsFrom [] ((writeTokens config.lineNumbers ts .start).1 ++ rest) =
        withoutSeamsFrom [] ((writeTokens config.lineNumbers us .start).1 ++ rest) := by
    rw [withoutSeamsFrom_writeTokens _ ts hrest, withoutSeamsFrom_writeTokens _ us hrest,
      glyphs_itemsOf, glyphs_itemsOf, h]
  rw [withoutSeams, withoutSeams, render, render]
  by_cases hwrap : config.wrap = true
  · rw [if_pos hwrap, if_pos hwrap]
    simp only [List.append_assoc]
    rw [withoutSeamsFrom_wrapper, withoutSeamsFrom_wrapper, hbody rfl]
  · rw [if_neg hwrap, if_neg hwrap]
    have hbare := @hbody [] rfl
    rwa [List.append_nil, List.append_nil] at hbare

/-- A joined token shows the characters of both tokens in the classes that they have. -/
theorem flatMap_cellsOf_merge (ts : List Token) :
    (merge ts).flatMap cellsOf = ts.flatMap cellsOf := by
  apply flatMap_merge
  intro t u hcontinues
  have hcategory := (continues_iff.1 hcontinues).1
  simp [cellsOf, join, hcategory]

/-- Merging neighbours removes seams and nothing else: with their seams deleted, the markup of the
tokens of a source and that of its merged tokens are the same text. -/
theorem merging_removes_seams (source : Text) (config : Config) :
    ∃ scan tokens, Scan.of source true = .ok scan ∧ tokenize source = .ok tokens ∧
      withoutSeams (render scan.tokens config) = withoutSeams (render tokens config) := by
  obtain ⟨ts, last, hrun, hend, htokens⟩ := exists_tokenize source
  refine ⟨_, _, scan_of_run hrun hend true, htokens, ?_⟩
  exact withoutSeams_render_congr (flatMap_cellsOf_merge ts).symm config

end Html

end JsoniqLexer

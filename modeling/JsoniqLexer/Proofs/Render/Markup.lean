import JsoniqLexer.Proofs.Text.Beginnings
import JsoniqLexer.Render.Html

/-!
# A strict reader of markup

The markup of tokens is text with spans in it, in one `pre` or in none. The reader here takes nothing
else: a span is that of a line number or has the class of a category, no tag stands inside of a span,
and a character stands only in the one form in which it may be written (`readChar?_eq_some_iff`). It
decodes each entity once, from left to right, so what is read is a list of items with characters in
them.

What the writer writes for one item is read as that item, whatever follows it: characters
(`readItem?_escapeChar`), line numbers (`readItem?_gutter`) and spans (`readItem?_spanOf`).
-/

set_option autoImplicit false

namespace JsoniqLexer.Markup

open Text

/-! ## Characters -/

/-- The characters that never stand for themselves, with their entities. -/
def entities : List (Char × Text) :=
  [ ('&', "&amp;".toList), ('<', "&lt;".toList), ('>', "&gt;".toList), ('"', "&quot;".toList),
    ('\'', "&#39;".toList) ]

/-- The character whose entity a text begins with, and what follows. -/
def readEntity? (text : Text) : Option (Char × Text) :=
  entities.findSome? fun entity => (after? entity.2 text).map fun rest => (entity.1, rest)

/-- The character that a text begins with, if it stands for itself, and what follows. -/
def readPlain? : Text → Option (Char × Text)
  | [] => none
  | c :: rest => if c ∈ entities.map Prod.fst then none else some (c, rest)

/-- The character at the beginning of a text, in the one form in which it may be written, and what
follows. -/
def readChar? (text : Text) : Option (Char × Text) := (readEntity? text).or (readPlain? text)

/-- A character with an entity is written as the entity. -/
theorem escapeChar_of_mem {entity : Char × Text} (h : entity ∈ entities) :
    Html.escapeChar entity.1 = entity.2 := by
  have hall : ∀ e ∈ entities, Html.escapeChar e.1 = e.2 := by decide
  exact hall entity h

/-- A character without an entity is written as it is. -/
theorem escapeChar_eq_singleton {c : Char} (h : c ∉ entities.map Prod.fst) :
    Html.escapeChar c = [c] := by
  have hspecial : entities.map Prod.fst = ['&', '<', '>', '"', '\''] := rfl
  rw [hspecial] at h
  simp only [List.mem_cons, List.not_mem_nil, or_false, not_or] at h
  obtain ⟨hamp, hlt, hgt, hquote, hmark⟩ := h
  unfold Html.escapeChar
  split
  · exact absurd rfl hamp
  · exact absurd rfl hlt
  · exact absurd rfl hgt
  · exact absurd rfl hquote
  · exact absurd rfl hmark
  · rfl

/-- No character is written with a bracket at the beginning. -/
theorem exists_escapeChar_eq_cons (c : Char) : ∃ d rest, Html.escapeChar c = d :: rest ∧ d ≠ '<' := by
  by_cases hspecial : c ∈ entities.map Prod.fst
  · obtain ⟨entity, hmem, rfl⟩ := List.mem_map.1 hspecial
    have hall : ∀ e ∈ entities, e.2.head? = some '&' := by decide
    obtain ⟨name, hname⟩ := List.head?_eq_some_iff.1 (hall entity hmem)
    refine ⟨'&', name, ?_, by decide⟩
    rw [escapeChar_of_mem hmem, hname]
  · refine ⟨c, [], escapeChar_eq_singleton hspecial, ?_⟩
    rintro rfl
    exact hspecial (by decide)

/-- Nothing but entities is added to the characters of a text, and characters with entities are
left out. -/
theorem of_mem_escape {c : Char} (hentities : ∀ entity ∈ entities, c ∉ entity.2) {text : Text}
    (h : c ∈ Html.escape text) : c ∈ text ∧ c ∉ entities.map Prod.fst := by
  obtain ⟨d, hd, hwritten⟩ := List.mem_flatMap.1 h
  by_cases hspecial : d ∈ entities.map Prod.fst
  · obtain ⟨entity, hentity, rfl⟩ := List.mem_map.1 hspecial
    rw [escapeChar_of_mem hentity] at hwritten
    exact absurd hwritten (hentities entity hentity)
  · rw [escapeChar_eq_singleton hspecial] at hwritten
    obtain rfl := List.mem_singleton.1 hwritten
    exact ⟨hd, hspecial⟩

/-- An entity is read as its character. -/
theorem readEntity?_append {entity : Char × Text} (h : entity ∈ entities) (rest : Text) :
    readEntity? (entity.2 ++ rest) = some (entity.1, rest) := by
  simp only [entities, List.mem_cons, List.not_mem_nil, or_false] at h
  rcases h with rfl | rfl | rfl | rfl | rfl
  · rfl
  · rfl
  · rfl
  · rfl
  · rfl

/-- Every entity begins with an ampersand. -/
theorem readEntity?_cons_ne {c : Char} (h : c ≠ '&') (rest : Text) :
    readEntity? (c :: rest) = none := by
  rw [readEntity?, List.findSome?_eq_none_iff]
  intro entity hmem
  have hall : ∀ e ∈ entities, e.2.head? = some '&' := by decide
  obtain ⟨name, hname⟩ := List.head?_eq_some_iff.1 (hall entity hmem)
  rw [hname, after?_cons_ne (Ne.symm h)]
  rfl

/-- A text is read as a character exactly where it begins with the character as it is written. -/
theorem readChar?_eq_some_iff {text rest : Text} {c : Char} :
    readChar? text = some (c, rest) ↔ text = Html.escapeChar c ++ rest := by
  constructor
  · intro h
    rcases Option.or_eq_some_iff.1 h with hentity | ⟨-, hplain⟩
    · obtain ⟨entity, hmem, hafter⟩ := List.exists_of_findSome?_eq_some hentity
      obtain ⟨tail, htail, heq⟩ := Option.map_eq_some_iff.1 hafter
      obtain ⟨rfl, rfl⟩ := Prod.mk.inj heq
      rw [escapeChar_of_mem hmem]
      exact after?_eq_some_iff.1 htail
    · cases text with
      | nil => cases hplain
      | cons d text =>
          rw [readPlain?] at hplain
          split at hplain
          · cases hplain
          · next hspecial =>
            cases hplain
            rw [escapeChar_eq_singleton hspecial]
            rfl
  · rintro rfl
    rw [readChar?]
    by_cases hspecial : c ∈ entities.map Prod.fst
    · obtain ⟨entity, hmem, rfl⟩ := List.mem_map.1 hspecial
      rw [escapeChar_of_mem hmem, readEntity?_append hmem]
      rfl
    · have hamp : c ≠ '&' := by
        rintro rfl
        exact hspecial List.mem_cons_self
      rw [escapeChar_eq_singleton hspecial, List.singleton_append, readEntity?_cons_ne hamp,
        readPlain?, if_neg hspecial]
      rfl

theorem length_lt_of_readChar? {text rest : Text} {c : Char} (h : readChar? text = some (c, rest)) :
    rest.length < text.length := by
  obtain ⟨d, name, hwritten, -⟩ := exists_escapeChar_eq_cons c
  rw [readChar?_eq_some_iff, hwritten] at h
  rw [h, List.length_append, List.length_cons]
  omega

/-- Reads characters that are written in the one form that they may have. -/
def charReader : Reader Char := ⟨readChar?, length_lt_of_readChar?⟩

/-! ## Items -/

/-- What stands side by side in markup. -/
inductive Item where
  /-- The number of a line. -/
  | gutter (line : Nat)
  /-- A span of a class. -/
  | span (cssClass text : Text)
  /-- A character outside of spans. -/
  | bare (c : Char)
deriving DecidableEq, Repr

/-- The item is the number of a line. -/
def Item.isGutter : Item → Bool
  | .gutter _ => true
  | _ => false

/-- The characters of an item, each with the class of the span that it stands in; a line number holds
no text. -/
def Item.cells : Item → List (Char × Option Text)
  | .gutter _ => []
  | .span cssClass text => text.map fun c => (c, some cssClass)
  | .bare c => [(c, none)]

/-- The classes that a span may have. -/
def classes : List Text := Category.all.map fun category => category.cssClass.toList

def opening (cssClass : Text) : Text := "<span class=\"".toList ++ cssClass ++ "\">".toList

def closing : Text := "</span>".toList

/-- The number of a line at the beginning of a text: digits in a span of their own. -/
def readGutter? (text : Text) : Option (Item × Text) :=
  match after? (opening "lineno".toList) text with
  | none => none
  | some inner =>
      if inner.takeWhile Char.isDigit = [] then none
      else
        (after? closing (inner.dropWhile Char.isDigit)).map fun rest =>
          (.gutter (Nat.ofDigitChars 10 (inner.takeWhile Char.isDigit) 0), rest)

/-- A span of a category's class at the beginning of a text, with nothing but characters in it. -/
def readSpan? (text : Text) : Option (Item × Text) :=
  match classes.findSome? fun k => (after? (opening k) text).map fun inner => (k, inner) with
  | none => none
  | some (cssClass, inner) =>
      let text := charReader.all inner
      (after? closing text.2).map fun rest => (.span cssClass text.1, rest)

/-- The item at the beginning of a text, and what follows. -/
def readItem? (text : Text) : Option (Item × Text) :=
  (readGutter? text).or <| (readSpan? text).or <|
    (readChar? text).map fun found => (.bare found.1, found.2)

/-- An opening tag begins with a bracket. -/
theorem opening_eq_cons (cssClass : Text) :
    opening cssClass = '<' :: ("span class=\"".toList ++ cssClass ++ "\">".toList) := rfl

theorem closing_eq_cons : closing = '<' :: "/span>".toList := rfl

theorem length_opening_pos (cssClass : Text) : 0 < (opening cssClass).length := by
  rw [opening_eq_cons]
  exact Nat.zero_lt_succ _

theorem length_lt_of_readGutter? {text rest : Text} {item : Item}
    (h : readGutter? text = some (item, rest)) : rest.length < text.length := by
  rw [readGutter?] at h
  split at h
  · cases h
  · next inner hopening =>
    split at h
    · cases h
    · obtain ⟨tail, hclosing, heq⟩ := Option.map_eq_some_iff.1 h
      obtain ⟨-, rfl⟩ := Prod.mk.inj heq
      have hinner := length_le_of_after? hopening
      have htail := length_le_of_after? hclosing
      have hpos := length_opening_pos "lineno".toList
      have hdrop := (List.dropWhile_sublist Char.isDigit (l := inner)).length_le
      omega

theorem length_lt_of_readSpan? {text rest : Text} {item : Item}
    (h : readSpan? text = some (item, rest)) : rest.length < text.length := by
  rw [readSpan?] at h
  split at h
  · cases h
  · next cssClass inner hfound =>
    obtain ⟨k, -, hafter⟩ := List.exists_of_findSome?_eq_some hfound
    obtain ⟨start, hopening, heq⟩ := Option.map_eq_some_iff.1 hafter
    obtain ⟨rfl, rfl⟩ := Prod.mk.inj heq
    obtain ⟨tail, hclosing, heq⟩ := Option.map_eq_some_iff.1 h
    obtain ⟨-, rfl⟩ := Prod.mk.inj heq
    have hinner := length_le_of_after? hopening
    have htail := length_le_of_after? hclosing
    have hpos := length_opening_pos k
    have hle := charReader.length_all_le start
    omega

theorem length_lt_of_readItem? {text rest : Text} {item : Item}
    (h : readItem? text = some (item, rest)) : rest.length < text.length := by
  rcases Option.or_eq_some_iff.1 h with hgutter | ⟨-, h⟩
  · exact length_lt_of_readGutter? hgutter
  · rcases Option.or_eq_some_iff.1 h with hspan | ⟨-, hbare⟩
    · exact length_lt_of_readSpan? hspan
    · obtain ⟨⟨c, tail⟩, hchar, heq⟩ := Option.map_eq_some_iff.1 hbare
      obtain ⟨-, rfl⟩ := Prod.mk.inj heq
      exact length_lt_of_readChar? hchar

/-- Reads items, each as it has to be written. -/
def itemReader : Reader Item := ⟨readItem?, length_lt_of_readItem?⟩

/-! ## Documents -/

/-- Markup that has been read: the class of the `pre` around it, if there is one, and the items. -/
structure Document where
  wrapper : Option Text
  items : List Item
deriving DecidableEq, Repr

/-- Reads a whole text as markup. -/
def read? (text : Text) : Option Document :=
  match after? "<pre class=\"".toList text with
  | none =>
      let body := itemReader.all text
      if body.2 = [] then some ⟨none, body.1⟩ else none
  | some rest =>
      let cssClass := charReader.all rest
      match after? "\"><code>".toList cssClass.2 with
      | none => none
      | some inner =>
          let body := itemReader.all inner
          if body.2 = "</code></pre>".toList then some ⟨some cssClass.1, body.1⟩ else none

/-! ## What is written is read -/

/-- A text as it is written is read as its characters. -/
theorem reads_escape_chars (text : Text) : charReader.Reads (Html.escape text) text := by
  have hchar (c : Char) : charReader.Reads (Html.escapeChar c) [c] :=
    Reader.reads_single fun _ => readChar?_eq_some_iff.2 rfl
  have hall := Reader.reads_flatMap hchar text
  rw [← List.map_eq_flatMap, List.map_id'] at hall
  exact hall

theorem opening_lineno : opening "lineno".toList = "<span class=\"lineno\">".toList := rfl

/-- A line number is digits in a span of their own. -/
theorem gutter_eq (line : Nat) :
    Html.gutter line = opening "lineno".toList ++ (Nat.toDigits 10 line ++ closing) := by
  rw [opening_lineno]
  exact List.append_assoc _ _ _

theorem spanOf_eq (cssClass text : Text) :
    Html.spanOf cssClass text = opening cssClass ++ (Html.escape text ++ closing) :=
  List.append_assoc _ _ _

/-- A line number as it is written is read as one. -/
theorem readItem?_gutter (line : Nat) (rest : Text) :
    readItem? (Html.gutter line ++ rest) = some (.gutter line, rest) := by
  have hdigits : ∀ c ∈ Nat.toDigits 10 line, c.isDigit = true := by
    intro c hc
    exact Nat.isDigit_of_mem_toDigits (by decide) (by decide) hc
  have hclosing : ∀ c ∈ (closing ++ rest).head?, c.isDigit = false :=
    forall_head?_cons (by decide) _
  have htake := takeWhile_run hdigits hclosing
  have hdrop := dropWhile_run hdigits hclosing
  have hgutter : readGutter? (Html.gutter line ++ rest) = some (.gutter line, rest) := by
    rw [readGutter?, gutter_eq, List.append_assoc, List.append_assoc, after?_append]
    simp only [htake, hdrop, if_neg Nat.toDigits_ne_nil, after?_append, Option.map_some]
    rw [Nat.ofDigitChars_toDigits (by decide) (by decide)]
  rw [readItem?, hgutter]
  rfl

/-- A tag that opens a span of a category's class opens no other one: where a class ends, a quote
stands, and no class goes on there. -/
theorem after?_opening {k cssClass : Text} (hk : k ∈ "lineno".toList :: classes)
    (hclass : cssClass ∈ classes) (h : k ≠ cssClass) (rest : Text) :
    after? (opening k) (opening cssClass ++ rest) = none := by
  cases hafter : after? (opening k) (opening cssClass ++ rest) with
  | none => rfl
  | some tail =>
      -- one of the two tags begins the other, and then they are one
      have htags : opening k <+: opening cssClass ∨ opening cssClass <+: opening k :=
        List.prefix_or_prefix_of_prefix ⟨tail, (after?_eq_some_iff.1 hafter).symm⟩
          (List.prefix_append _ rest)
      have hall : ∀ a ∈ "lineno".toList :: classes, ∀ b ∈ "lineno".toList :: classes,
          opening a <+: opening b → a = b := by
        decide +kernel
      rcases htags with hbegins | hbegins
      · exact absurd (hall k hk cssClass (List.mem_cons_of_mem _ hclass) hbegins) h
      · exact absurd (hall cssClass (List.mem_cons_of_mem _ hclass) k hk hbegins).symm h

/-- A span as it is written is read as one. -/
theorem readItem?_spanOf {cssClass : Text} (h : cssClass ∈ classes) (text rest : Text) :
    readItem? (Html.spanOf cssClass text ++ rest) = some (.span cssClass text, rest) := by
  have hwritten : Html.spanOf cssClass text ++ rest =
      opening cssClass ++ (Html.escape text ++ (closing ++ rest)) := by
    rw [spanOf_eq, List.append_assoc, List.append_assoc]
  have hlineno : "lineno".toList ≠ cssClass := by
    have hall : "lineno".toList ∉ classes := by decide +kernel
    rintro rfl
    exact hall h
  have hgutter : readGutter? (Html.spanOf cssClass text ++ rest) = none := by
    rw [readGutter?, hwritten, after?_opening List.mem_cons_self h hlineno]
  have hfound : (classes.findSome? fun k =>
      (after? (opening k) (Html.spanOf cssClass text ++ rest)).map fun inner => (k, inner)) =
        some (cssClass, Html.escape text ++ (closing ++ rest)) := by
    obtain ⟨before, after, hclasses, hfirst⟩ := List.eq_append_cons_of_mem h
    rw [List.findSome?_eq_some_iff]
    refine ⟨before, cssClass, after, hclasses, ?_, ?_⟩
    · rw [hwritten, after?_append]
      rfl
    · intro k hk
      have hmem : k ∈ "lineno".toList :: classes := by
        rw [hclasses]
        exact List.mem_cons_of_mem _ (List.mem_append_left _ hk)
      have hne : k ≠ cssClass := by
        rintro rfl
        exact hfirst hk
      rw [hwritten, after?_opening hmem h hne]
      rfl
  have hspan : readSpan? (Html.spanOf cssClass text ++ rest) = some (.span cssClass text, rest) := by
    have hend : charReader.next? (closing ++ rest) = none := by
      rw [closing_eq_cons]
      rfl
    rw [readSpan?, hfound]
    simp only [(reads_escape_chars text).all_append hend, after?_append, Option.map_some]
  rw [readItem?, hgutter, hspan]
  rfl

/-- Without a bracket at the beginning there is no tag. -/
theorem readItem?_cons_ne {c : Char} (h : c ≠ '<') (rest : Text) :
    readItem? (c :: rest) = (readChar? (c :: rest)).map fun found => (.bare found.1, found.2) := by
  have htag (k : Text) : after? (opening k) (c :: rest) = none := by
    rw [opening_eq_cons, after?_cons_ne (Ne.symm h)]
  have hgutter : readGutter? (c :: rest) = none := by
    rw [readGutter?, htag]
  have hfound : (classes.findSome? fun k =>
      (after? (opening k) (c :: rest)).map fun inner => (k, inner)) = none := by
    rw [List.findSome?_eq_none_iff]
    intro k _
    rw [htag]
    rfl
  have hspan : readSpan? (c :: rest) = none := by
    rw [readSpan?, hfound]
  rw [readItem?, hgutter, hspan]
  rfl

/-- A character as it is written is an item of its own. -/
theorem readItem?_escapeChar (c : Char) (rest : Text) :
    readItem? (Html.escapeChar c ++ rest) = some (.bare c, rest) := by
  have hchar : readChar? (Html.escapeChar c ++ rest) = some (c, rest) :=
    readChar?_eq_some_iff.2 rfl
  obtain ⟨d, name, hwritten, hne⟩ := exists_escapeChar_eq_cons c
  rw [hwritten, List.cons_append] at hchar ⊢
  rw [readItem?_cons_ne hne, hchar]
  rfl

/-! ## Written items in a row -/

theorem reads_gutter (line : Nat) : itemReader.Reads (Html.gutter line) [.gutter line] :=
  Reader.reads_single (readItem?_gutter line)

theorem reads_spanOf {cssClass : Text} (h : cssClass ∈ classes) (text : Text) :
    itemReader.Reads (Html.spanOf cssClass text) [.span cssClass text] :=
  Reader.reads_single (readItem?_spanOf h text)

theorem reads_newline : itemReader.Reads ['\n'] [.bare '\n'] :=
  Reader.reads_single (readItem?_escapeChar '\n')

theorem reads_escape (text : Text) : itemReader.Reads (Html.escape text) (text.map .bare) := by
  rw [List.map_eq_flatMap]
  apply Reader.reads_flatMap
  intro c
  exact Reader.reads_single (readItem?_escapeChar c)

/-- The items end where the wrapper is closed, and none begins as it is opened. -/
theorem next?_wrapper (rest : Text) :
    itemReader.next? ("<pre class=\"".toList ++ rest) = none ∧
      itemReader.next? "</code></pre>".toList = none := by
  constructor
  · rfl
  · rfl

/-- Without a wrapper, a text is read as its items. -/
theorem read?_of_reads {text : Text} {parts : List Item} (h : itemReader.Reads text parts) :
    read? text = some ⟨none, parts⟩ := by
  have hitems : itemReader.all text = (parts, []) := by
    have hend : itemReader.next? [] = none := rfl
    have hall := h.all_append hend
    rw [List.append_nil] at hall
    exact hall
  cases hafter : after? "<pre class=\"".toList text with
  | none =>
      rw [read?, hafter]
      simp only [hitems, if_true]
  | some rest =>
      -- then nothing would be read, so nothing would be left either
      rw [after?_eq_some_iff] at hafter
      rw [hafter, Reader.all_of_none (next?_wrapper rest).1] at hitems
      cases congrArg Prod.snd hitems

example : read? "<b>".toList = none := by decide +kernel

/-- With a wrapper, a text is read as the class and the items. -/
theorem read?_wrapped {text : Text} {parts : List Item} (h : itemReader.Reads text parts)
    (cssClass : Text) :
    read? ("<pre class=\"".toList ++ Html.escape cssClass ++ "\"><code>".toList ++ text ++
      "</code></pre>".toList) = some ⟨some cssClass, parts⟩ := by
  have hclass : charReader.all (Html.escape cssClass ++ ("\"><code>".toList ++
      (text ++ "</code></pre>".toList))) =
        (cssClass, "\"><code>".toList ++ (text ++ "</code></pre>".toList)) := by
    apply (reads_escape_chars cssClass).all_append
    rfl
  have hitems := h.all_append (next?_wrapper []).2
  rw [List.append_assoc, List.append_assoc, List.append_assoc, read?, after?_append]
  simp only [hclass, after?_append, hitems, if_true]

end JsoniqLexer.Markup

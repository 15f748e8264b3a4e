import JsoniqLexer.Proofs.Grammar.Build

/-!
# Escaped texts

A text with its punctuation escaped reads back as the text: each character, escaped or not, is one
construct whatever stands next to it (`Reader.step_escape`), so the reader takes the characters one
by one (`Reader.run_escape`), and side by side they are one literal (`Classes.parse?_escape`),
whatever the named classes hold. So the pattern for a fixed text exists and finds that text, and
nothing else (`Classes.compile_escape`, `matchLength?_ofText`).
-/

set_option autoImplicit false

namespace JsoniqLexer.Pattern

variable {classes : Classes} {c : Char} {text rest : Text}

theorem escape_cons (c : Char) (text : Text) :
    escape (c :: text) = (if Escape.isMeta c then ['\\', c] else [c]) ++ escape text :=
  List.flatMap_cons

theorem length_le_escape (text : Text) : text.length ≤ (escape text).length := by
  induction text with
  | nil => exact Nat.le_refl 0
  | cons c text ih =>
      rw [escape_cons, List.length_append, List.length_cons]
      split
      · simp only [List.length_cons, List.length_nil]
        omega
      · simp only [List.length_cons, List.length_nil]
        omega

/-! ## Reading one character -/

namespace Escape

theorem isPunctuation_of_isMeta (h : isMeta c = true) : isPunctuation c = true := by
  have hall : "\\.+*?()|[]\x7b\x7d^$#&-~".toList.all isPunctuation = true := by decide
  exact List.all_eq_true.1 hall c (List.contains_iff_mem.1 h)

/-- Punctuation stands for itself after a backslash. -/
theorem read?_of_isPunctuation {flags : Flags} (h : isPunctuation c = true) :
    read? classes flags (c :: rest) = some (.char c, rest) := by
  have hne {d : Char} (hd : isPunctuation d = false) : c ≠ d := by
    rintro rfl
    rw [hd] at h
    cases h
  -- the characters that an equation of its own is for are not punctuation
  rw [read?, if_pos h]
  all_goals exact hne rfl

end Escape

namespace Reader

variable {r : Reader}

/-- A character without a meaning of its own stands for itself. -/
theorem step_of_not_isMeta (hrest : r.rest = c :: rest) (h : Escape.isMeta c = false) :
    r.step classes = some (r.pushLeaf (character r.flags c) rest) := by
  have hne {d : Char} {tail : Text} (hd : Escape.isMeta d = true) : r.rest ≠ d :: tail := by
    intro heq
    rw [(List.cons.inj (hrest.symm.trans heq)).1, hd] at h
    cases h
  rw [step]
  split
  case h_1 hnil => cases hrest.symm.trans hnil
  case h_14 heq =>
    obtain ⟨rfl, rfl⟩ := List.cons.inj (hrest.symm.trans heq)
    rfl
  all_goals
    next heq => exact absurd heq (hne rfl)

/-- An escaped character is read in one step, and stands for itself. -/
theorem step_escape (hrest : r.rest = escape (c :: text)) :
    r.step classes = some (r.pushLeaf (character r.flags c) (escape text)) := by
  rw [escape_cons] at hrest
  cases hmeta : Escape.isMeta c with
  | true =>
      rw [hmeta, if_pos rfl] at hrest
      have hread :
          Escape.read? classes r.flags (c :: escape text) = some (.char c, escape text) :=
        Escape.read?_of_isPunctuation (Escape.isPunctuation_of_isMeta hmeta)
      rw [step, hrest]
      simp only [List.cons_append, List.nil_append, hread]
  | false =>
      rw [hmeta, if_neg Bool.false_ne_true] at hrest
      exact step_of_not_isMeta hrest hmeta

/-! ## Reading all of them -/

/-- The reader after the characters of a text, each of them a literal. -/
def afterText (r : Reader) (text : Text) : Reader :=
  { r with
    rest := [], parts := (text.map fun c => Part.expr ⟨.literal [c], 0⟩).reverse ++ r.parts }

theorem run_escape {fuel : Nat} (hflags : r.flags = {}) (hrest : r.rest = escape text)
    (hfuel : text.length < fuel) : run classes fuel r = some (r.afterText text) := by
  have hskip (x : Text) : ({} : Flags).skip x = x := Flags.skip_of_not_verbose rfl x
  induction text generalizing r fuel with
  | nil =>
      obtain ⟨fuel, rfl⟩ : ∃ k, fuel = k + 1 := ⟨fuel - 1, by omega⟩
      have hnil : r.flags.skip r.rest = [] := by rw [hflags, hskip, hrest]; rfl
      rw [run, hnil, if_pos rfl]
      rfl
  | cons c text ih =>
      obtain ⟨fuel, rfl⟩ : ∃ k, fuel = k + 1 := ⟨fuel - 1, by omega⟩
      have hne : r.rest ≠ [] := by
        rw [hrest, escape_cons]
        split <;> exact List.cons_ne_nil _ _
      have hread : r.step classes = some (r.pushLeaf (.literal [c]) (escape text)) := by
        rw [step_escape hrest, hflags]
        rfl
      rw [List.length_cons] at hfuel
      have hrun : run classes fuel (r.pushLeaf (.literal [c]) (escape text)) =
          some ((r.pushLeaf (.literal [c]) (escape text)).afterText text) :=
        ih hflags rfl (by omega)
      have hafter : (r.pushLeaf (.literal [c]) (escape text)).afterText text =
          r.afterText (c :: text) := by
        simp [afterText, pushLeaf, push]
      have hskipped : ({ r with rest := r.flags.skip r.rest } : Reader) = r := by
        rw [hflags, hskip, ← hflags]
      rw [run, hskipped, if_neg hne, hread, Option.bind_some, hrun, hafter]

end Reader

/-! ## The expression of an escaped text -/

namespace Expr

/-- The expression for a text. -/
def ofText : Text → Expr
  | [] => .empty
  | text => .literal text

theorem expand_ofText (text : Text) : (ofText text).expand = .ofText text := by
  cases text with
  | nil => rfl
  | cons c text => rfl

theorem usesUnicodeWords_ofText (text : Text) : (ofText text).usesUnicodeWords = false := by
  cases text with
  | nil => rfl
  | cons c text => rfl

theorem mergeLiterals_characters (c : Char) (text : Text) :
    mergeLiterals ((c :: text).map fun d => .literal [d]) = [.literal (c :: text)] := by
  induction text generalizing c with
  | nil => rfl
  | cons d text ih =>
      rw [List.map_cons, mergeLiterals, ih d]
      rfl

/-- Literals of one character each, side by side, are one literal. -/
theorem sequence_characters (text : Text) :
    sequence (text.map fun c => .literal [c]) = ofText text := by
  have hparts : (text.map fun c => literal [c]).flatMap parts = text.map fun c => literal [c] := by
    induction text with
    | nil => rfl
    | cons c text ih =>
        rw [List.map_cons, List.flatMap_cons, ih]
        rfl
  rw [sequence, hparts]
  cases text with
  | nil => rfl
  | cons c text =>
      rw [mergeLiterals_characters]
      rfl

end Expr

/-- Things side by side with nothing in them are one construct at most. -/
theorem Nested.listDepth_replicate_le (n : Nat) : listDepth (List.replicate n 0) ≤ 1 := by
  have hmax (k : Nat) : (List.replicate k 0).foldr Nat.max 0 = 0 := by
    induction k with
    | zero => rfl
    | succ k ih =>
        rw [List.replicate_succ, List.foldr_cons, ih]
        rfl
  match n with
  | 0 | 1 => exact Nat.zero_le 1
  | n + 2 => exact Nat.le_of_eq (congrArg (· + 1) (hmax (n + 2)))

namespace Reader

/-- A reader that has read a text from the start holds it as one literal. -/
theorem finish?_afterText (text : Text) :
    (afterText { rest := escape text } text).finish? = some (.ofText text) := by
  have hbody : (afterText { rest := escape text } text).body =
      .ofList Expr.sequence (text.map fun c => ⟨.literal [c], 0⟩) := by
    simp [body, branch, afterText, Part.content, Function.comp_def]
  have hvalue : (afterText { rest := escape text } text).body.value = .ofText text := by
    rw [hbody, ← Expr.sequence_characters]
    simp [Nested.ofList, Function.comp_def]
  have hdepth : (afterText { rest := escape text } text).body.depth ≤ Nested.limit := by
    have hzero : (text.map fun c => (⟨.literal [c], 0⟩ : Nested Expr)).map (·.depth) =
        List.replicate text.length 0 := by
      simp [Function.comp_def]
    rw [hbody, Nested.ofList, hzero]
    exact Nat.le_trans (Nested.listDepth_replicate_le text.length) (by decide)
  rw [finish?, if_pos ⟨rfl, rfl, hdepth⟩, hvalue]

end Reader

theorem Classes.parse?_escape (classes : Classes) (text : Text) :
    classes.parse? (escape text) = some (.ofText text) := by
  have hrun : Reader.run classes ((escape text).length + 1) { rest := escape text } =
      some (Reader.afterText { rest := escape text } text) :=
    Reader.run_escape rfl rfl (Nat.lt_succ_of_le (length_le_escape text))
  rw [parse?, hrun]
  exact Reader.finish?_afterText text

/-! ## The pattern for a fixed text -/

/-- The pattern for a fixed text: the escaped text with the program for its characters. -/
def ofText (text : Text) : Pattern := ⟨escape text, (Regex.ofText text).program⟩

/-- Every text has a pattern. -/
theorem Classes.compile_escape (classes : Classes) (text : Text) :
    classes.compile (escape text) = .ok (ofText text) := by
  have hwords : (Expr.ofText text).usesUnicodeWords = false := Expr.usesUnicodeWords_ofText text
  apply compile_eq_ok_iff.2
  refine ⟨.ofText text, classes.parse?_escape text, hwords, ?_⟩
  rw [Expr.expand_ofText, ofText]

/-- The pattern for a fixed text finds the text where it stands, and nothing elsewhere. -/
theorem matchLength?_ofText (text haystack : Text) :
    (ofText text).matchLength? haystack =
      if text <+: haystack then some text.byteLength else none := by
  by_cases hbegins : text <+: haystack
  · obtain ⟨rest, rfl⟩ := hbegins
    rw [if_pos (List.prefix_append text rest)]
    exact Regex.matchLength?_ofText_append text rest
  · rw [if_neg hbegins]
    exact Regex.matchLength?_ofText_eq_none hbegins

end JsoniqLexer.Pattern

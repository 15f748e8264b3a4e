import Mathlib.Data.List.Chain
import JsoniqLexer.Proofs.Lexer.Step
import JsoniqLexer.Proofs.Text.Offsets

/-!
# Tokens that tile a text

The tokens of a run stand end to end (`Tiles`), whatever the grammar: this follows from one step at a
time and needs no rule to be found. Where a run covers a whole source its tokens are a `Tiling` of
it: slices of the source without gaps, overlaps or empty pieces.
-/

set_option autoImplicit false

namespace JsoniqLexer

theorem Text.length_le_byteLength (text : Text) : text.length ≤ text.byteLength := by
  induction text with
  | nil => exact Nat.le_refl 0
  | cons c text ih =>
      have hc := c.utf8Size_pos
      simp only [List.length_cons, Text.byteLength_cons]
      omega

namespace Token

/-- The text of tokens that follow each other. -/
def textOf (tokens : List Token) : Text := tokens.flatMap Token.lexeme

@[simp] theorem textOf_nil : textOf [] = [] := rfl

@[simp] theorem textOf_cons (t : Token) (ts : List Token) :
    textOf (t :: ts) = t.lexeme ++ textOf ts := rfl

@[simp] theorem textOf_append (ts us : List Token) :
    textOf (ts ++ us) = textOf ts ++ textOf us := List.flatMap_append

/-- The tokens stand end to end, the first at `start`, and none of them is empty. -/
def Tiles : (start : Nat) → List Token → Prop
  | _, [] => True
  | start, t :: ts =>
      t.lexeme ≠ [] ∧ t.start = start ∧ t.stop = start + t.lexeme.byteLength ∧ Tiles t.stop ts

theorem tiles_append_iff {start : Nat} {ts us : List Token} :
    Tiles start (ts ++ us) ↔ Tiles start ts ∧ Tiles (start + (textOf ts).byteLength) us := by
  induction ts generalizing start with
  | nil => simp [Tiles]
  | cons t ts ih =>
      rw [List.cons_append, Tiles, Tiles, ih, textOf_cons, Text.byteLength_append]
      constructor
      · rintro ⟨hne, hstart, hstop, hts, hus⟩
        rw [hstop, Nat.add_assoc] at hus
        exact ⟨⟨hne, hstart, hstop, hts⟩, hus⟩
      · rintro ⟨⟨hne, hstart, hstop, hts⟩, hus⟩
        rw [← Nat.add_assoc, ← hstop] at hus
        exact ⟨hne, hstart, hstop, hts, hus⟩

/-- Every token holds a character at least. -/
theorem Tiles.length_le {start : Nat} {ts : List Token} (h : Tiles start ts) :
    ts.length ≤ (textOf ts).length := by
  induction ts generalizing start with
  | nil => exact Nat.le_refl 0
  | cons t ts ih =>
      obtain ⟨hne, _, _, hts⟩ := h
      have hle := ih hts
      have hpos := List.length_pos_iff.2 hne
      rw [textOf_cons, List.length_append, List.length_cons]
      omega

/-- The tokens cut the source into pieces: none is empty, each is the slice between its ends, the
first starts at the beginning, each of the others where the one before it ends, and the last ends at
the end. -/
structure Tiling (source : Text) (tokens : List Token) : Prop where
  nonempty : ∀ t ∈ tokens, t.start < t.stop ∧ t.lexeme ≠ []
  slices : ∀ t ∈ tokens, source.slice? t.start t.stop = some t.lexeme
  first : ∀ t ∈ tokens.head?, t.start = 0
  chained : tokens.IsChain fun t u => u.start = t.stop
  last : ∀ t ∈ tokens.getLast?, t.stop = source.byteLength
  text : textOf tokens = source

theorem Tiles.isChain {start : Nat} {ts : List Token} (h : Tiles start ts) :
    ts.IsChain fun t u => u.start = t.stop := by
  induction ts generalizing start with
  | nil => exact .nil
  | cons t ts ih =>
      obtain ⟨_, _, _, hts⟩ := h
      cases ts with
      | nil => exact .singleton t
      | cons u ts => exact .cons_cons hts.2.1 (ih hts)

/-- Tokens that stand end to end from the beginning on are a tiling of their text. -/
theorem Tiles.tiling {ts : List Token} (h : Tiles 0 ts) : Tiling (textOf ts) ts := by
  -- a token stands after the text of the tokens before it
  have hsplit {t : Token} {as bs : List Token} (heq : ts = as ++ t :: bs) :
      t.lexeme ≠ [] ∧ t.start = (textOf as).byteLength ∧
        t.stop = (textOf as).byteLength + t.lexeme.byteLength := by
    rw [heq] at h
    obtain ⟨-, hne, hstart, hstop, -⟩ := tiles_append_iff.1 h
    rw [Nat.zero_add] at hstart hstop
    exact ⟨hne, hstart, hstop⟩
  constructor
  · intro t ht
    obtain ⟨as, bs, heq⟩ := List.append_of_mem ht
    obtain ⟨hne, hstart, hstop⟩ := hsplit heq
    have hpos : t.lexeme.byteLength ≠ 0 := fun h => hne ((Text.byteLength_eq_zero_iff _).1 h)
    exact ⟨by omega, hne⟩
  · intro t ht
    obtain ⟨as, bs, heq⟩ := List.append_of_mem ht
    obtain ⟨-, hstart, hstop⟩ := hsplit heq
    refine Text.slice?_eq_some_iff.2 ⟨textOf as, textOf bs, ?_, hstart.symm, ?_⟩
    · rw [heq, textOf_append, textOf_cons]
    · rw [hstart, hstop]
  · intro t ht
    obtain ⟨us, heq⟩ := List.head?_eq_some_iff.1 ht
    exact (@hsplit t [] us heq).2.1
  · exact h.isChain
  · intro t ht
    obtain ⟨us, heq⟩ := List.getLast?_eq_some_iff.1 ht
    rw [(hsplit heq).2.2, heq, textOf_append, textOf_cons, textOf_nil, List.append_nil,
      Text.byteLength_append]
  · rfl

/-- A token of a tiling that ends at the end is the last one. -/
theorem Tiling.getLast?_eq_some {source : Text} {ts : List Token} {t : Token} (h : Tiling source ts)
    (ht : t ∈ ts) (hstop : t.stop = source.byteLength) : ts.getLast? = some t := by
  obtain ⟨as, bs, rfl⟩ := List.append_of_mem ht
  cases bs with
  | nil => rw [List.getLast?_concat]
  -- a token after it would begin at the end and hold a character still
  | cons u bs =>
      have hu : u ∈ as ++ t :: u :: bs := by simp
      have hstart : u.start = t.stop := by
        have hchained := (List.isChain_append.1 h.chained).2.1
        exact (List.isChain_cons_cons.1 hchained).1
      have hlt := (h.nonempty u hu).1
      obtain ⟨before, after, hsource, hbefore, hend⟩ := Text.slice?_eq_some_iff.1 (h.slices u hu)
      have hlength := congrArg Text.byteLength hsource
      rw [Text.byteLength_append, Text.byteLength_append] at hlength
      omega

end Token

namespace Lexer

open TokenStream Token

/-- The tokens of a run tile what it has read. -/
structure Covers (l : Lexer) (ts : List Token) (m : Lexer) : Prop where
  tiles : Tiles l.position ts
  remaining : l.cursor.remaining = textOf ts ++ m.cursor.remaining
  position : m.position = l.position + (textOf ts).byteLength
  source : m.cursor.source = l.cursor.source
  grammar : m.grammar = l.grammar

theorem covers_of_yields {l m : Lexer} {ts : List Token} (h : Yields l ts m) : l.Covers ts m := by
  induction h with
  | nil l => exact ⟨trivial, rfl, rfl, rfl, rfl⟩
  | cons hnext _ ih =>
      obtain ⟨s, lexeme, hadvances, rfl⟩ := step_eq_token_iff.1 hnext
      obtain ⟨htiles, hremaining, hposition, hsource, hgrammar⟩ := ih
      constructor
      · refine ⟨hadvances.lexeme_ne_nil, rfl, rfl, ?_⟩
        rw [hadvances.position] at htiles
        exact htiles
      · rw [hadvances.remaining, hremaining, textOf_cons, List.append_assoc]
        rfl
      · rw [hposition, hadvances.position, textOf_cons, Text.byteLength_append, Nat.add_assoc]
        rfl
      · rw [hsource, hadvances.source]
      · rw [hgrammar, hadvances.grammar]

/-- The text that a run has read is the text before what is left. -/
theorem Covers.textOf_eq {l m : Lexer} {ts : List Token} {text : Text} (h : l.Covers ts m)
    (htext : l.cursor.remaining = text ++ m.cursor.remaining) : textOf ts = text := by
  have hremaining := h.remaining
  rw [htext] at hremaining
  exact (List.append_cancel_right hremaining).symm

/-- What a lexer on its way has left is what the source has after its position. -/
theorem remaining_of_splitAt? {g : Grammar} {source : Text} {ts : List Token} {l : Lexer}
    (h : Yields (g.lex source) ts l) {before rest : Text}
    (hrest : source.splitAt? l.position = some (before, rest)) : rest = l.cursor.remaining := by
  obtain ⟨passed, hsource, hlength⟩ := l.cursor.valid
  have hsame : l.cursor.source = source := (covers_of_yields h).source
  rw [hsame] at hsource
  have hsplit := Text.splitAt?_eq_some_iff.2 ⟨hsource, hlength⟩
  rw [position, hsplit] at hrest
  cases hrest
  rfl

/-- A run of a lexer up to its end reads all that is left. -/
theorem textOf_of_yields_ended {l e : Lexer} {ts : List Token} (h : Yields l ts e)
    (hend : Ended e) : textOf ts = l.cursor.remaining := by
  rw [(covers_of_yields h).remaining, ended_iff.1 hend, List.append_nil]

/-- The number of tokens still to come is within the bounds that the lexer gives. -/
theorem sizeHint_of_yields {l e : Lexer} {ts : List Token} (h : Yields l ts e)
    (hend : Ended e) : l.sizeHint.1 ≤ ts.length ∧ ts.length ≤ l.sizeHint.2 := by
  have htext := textOf_of_yields_ended h hend
  constructor
  -- no token means that nothing is left, and then the lower bound is zero
  · cases ts with
    | nil =>
        have hnil : l.cursor.isAtEnd = true := by
          rw [Cursor.isAtEnd, ← htext]
          rfl
        rw [sizeHint, hnil]
        exact Nat.le_refl 0
    | cons t ts =>
        have hone : l.sizeHint.1 ≤ 1 := by
          rw [sizeHint]
          split <;> omega
        rw [List.length_cons]
        omega
  · have hle := (covers_of_yields h).tiles.length_le
    rw [htext] at hle
    exact Nat.le_trans hle (Text.length_le_byteLength _)

/-- A run that has not gone on has not taken a token. -/
theorem eq_nil_of_position_le {l m : Lexer} {ts : List Token} (h : Yields l ts m)
    (hle : m.position ≤ l.position) : ts = [] ∧ m = l := by
  have hcovers := covers_of_yields h
  -- every token holds a character, so no text means no token
  have hzero : (textOf ts).byteLength = 0 := by
    have hposition := hcovers.position
    omega
  have hlength := hcovers.tiles.length_le
  rw [(Text.byteLength_eq_zero_iff _).1 hzero] at hlength
  obtain rfl := List.length_eq_zero_iff.1 (Nat.le_zero.1 hlength)
  exact ⟨rfl, yields_nil_iff.1 h⟩

end Lexer

end JsoniqLexer

import JsoniqLexer.Lexer.Fault
import JsoniqLexer.Text.Utf8

/-!
# Cursors

A cursor is a place in a text that only moves forward, from one character boundary to another.
`advance_eq_ok_iff` says when a move succeeds and what it steps over, `advance_eq_error_iff` when it
is refused and why.
-/

set_option autoImplicit false

namespace JsoniqLexer

/-- A place in a source text: its byte offset and the text from there. -/
structure Cursor where
  source : Text
  position : Nat
  remaining : Text
  /-- The remaining text is what is left after `position` bytes. -/
  valid : ∃ read, source = read ++ remaining ∧ read.byteLength = position

namespace Cursor

/-- The place before the first character. -/
def start (source : Text) : Cursor := ⟨source, 0, source, [], rfl, rfl⟩

/-- Nothing is left. -/
def isAtEnd (c : Cursor) : Bool := c.remaining.isEmpty

/-- The number of bytes of the source. -/
def size (c : Cursor) : Nat := c.source.byteLength

/-- The place after `read`, where the rest begins with it. -/
def skip (c : Cursor) (read rest : Text) (h : c.remaining = read ++ rest) : Cursor where
  source := c.source
  position := c.position + read.byteLength
  remaining := rest
  valid := by
    obtain ⟨before, hsource, hlength⟩ := c.valid
    exact ⟨before ++ read, by rw [hsource, h, List.append_assoc], by simp [hlength]⟩

/-- Offsets are counted in words of 64 bits. -/
def largestOffset : Nat := 0xFFFFFFFFFFFFFFFF

/-- Why a move by `width` bytes that does not end at a boundary of the rest is refused. -/
def refusal (c : Cursor) (width : Nat) : Fault :=
  if largestOffset < c.position + width then .uncountable
  else if c.size < c.position + width then .pastEnd c.position width c.size
  else .insideCharacter (c.position + width)

/-- Moves on by `width` bytes and gives the text stepped over. A move by nothing, past the end or
into a character is a fault. -/
def advance (c : Cursor) (width : Nat) : Except Fault (Text × Cursor) :=
  if width = 0 then .error (.zeroWidth c.position)
  else
    match h : c.remaining.splitAt? width with
    | some (read, rest) => .ok (read, c.skip read rest (Text.of_splitAt? h).1)
    | none => .error (c.refusal width)

@[ext] theorem ext {a b : Cursor} (hsource : a.source = b.source)
    (hposition : a.position = b.position) (hremaining : a.remaining = b.remaining) : a = b := by
  cases a
  cases b
  cases hsource
  cases hposition
  cases hremaining
  rfl

/-- A move succeeds if it steps over some beginning of the rest, not an empty one. -/
theorem advance_eq_ok_iff {c next : Cursor} {width : Nat} {read : Text} :
    c.advance width = .ok (read, next) ↔
      read ≠ [] ∧ read.byteLength = width ∧ c.remaining = read ++ next.remaining ∧
        next.source = c.source ∧ next.position = c.position + width := by
  constructor
  · intro h
    rw [advance] at h
    split at h
    · cases h
    · next hwidth =>
      split at h
      · next taken rest hsplit =>
        injection h with h
        injection h with hread hnext
        subst hread
        subst hnext
        obtain ⟨htext, hbytes⟩ := Text.of_splitAt? hsplit
        refine ⟨?_, hbytes, htext, rfl, congrArg (c.position + ·) hbytes⟩
        rintro rfl
        exact hwidth hbytes.symm
      · cases h
  · rintro ⟨hread, hbytes, hremaining, hsource, hposition⟩
    have hsplit : c.remaining.splitAt? width = some (read, next.remaining) :=
      Text.splitAt?_eq_some_iff.2 ⟨hremaining, hbytes⟩
    have hwidth : width ≠ 0 := by
      rintro rfl
      exact hread ((Text.byteLength_eq_zero_iff read).1 hbytes)
    rw [advance, if_neg hwidth]
    split
    · next taken rest hsplit' =>
      rw [hsplit] at hsplit'
      cases hsplit'
      congr 2
      exact Cursor.ext hsource.symm ((congrArg (c.position + ·) hbytes).trans hposition.symm) rfl
    · next hsplit' =>
      rw [hsplit] at hsplit'
      cases hsplit'

/-- A move is refused if it is by nothing, or if the rest cannot be cut at its width. -/
theorem advance_eq_error_iff {c : Cursor} {width : Nat} {fault : Fault} :
    c.advance width = .error fault ↔
      width = 0 ∧ fault = .zeroWidth c.position ∨
        width ≠ 0 ∧ c.remaining.splitAt? width = none ∧ fault = c.refusal width := by
  rw [advance]
  split
  · next hwidth => simp [hwidth, eq_comm]
  · next hwidth =>
    split
    · next hsplit => simp [hwidth, hsplit]
    · next hsplit => simp [hwidth, hsplit, eq_comm]

/-- The position is the number of bytes of the source exactly where nothing is left. -/
theorem position_eq_size_iff {c : Cursor} : c.position = c.size ↔ c.remaining = [] := by
  obtain ⟨read, hsource, hlength⟩ := c.valid
  rw [size, hsource, ← hlength, Text.byteLength_append, ← Text.byteLength_eq_zero_iff]
  omega

/-- A successful move leaves less to read. -/
theorem length_lt_of_advance {c next : Cursor} {width : Nat} {read : Text}
    (h : c.advance width = .ok (read, next)) : next.remaining.length < c.remaining.length := by
  obtain ⟨hread, _, hremaining, _, _⟩ := advance_eq_ok_iff.1 h
  rw [hremaining]
  cases read with
  | nil => exact absurd rfl hread
  | cons a read =>
      simp only [List.cons_append, List.length_cons, List.length_append]
      omega

end Cursor

end JsoniqLexer

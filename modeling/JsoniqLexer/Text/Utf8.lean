/-!
# Texts measured in bytes

A text is a list of characters, and every offset into it counts the bytes of its UTF-8 form. Not
every offset is a place between two characters: `splitAt?` cuts a text at a byte offset and fails
inside a character and past the end. `splitAt?_eq_some_iff` says that a cut at `n` is exactly a
division of the text whose first half is `n` bytes long; `slice?` takes the text between two
offsets.
-/

set_option autoImplicit false

namespace JsoniqLexer

/-- A text, character by character. -/
abbrev Text := List Char

namespace Text

/-- Length of the UTF-8 form in bytes. -/
def byteLength : Text → Nat
  | [] => 0
  | c :: rest => c.utf8Size + byteLength rest

/-- The text up to byte offset `n` and the text from there; `none` where `n` is inside a character
or past the end. -/
def splitAt? : Text → Nat → Option (Text × Text)
  | text, 0 => some ([], text)
  | [], _ + 1 => none
  | c :: rest, n + 1 =>
      if c.utf8Size ≤ n + 1 then
        (splitAt? rest (n + 1 - c.utf8Size)).map fun halves => (c :: halves.1, halves.2)
      else none

/-- The text between the byte offsets `start` and `stop`; `none` where they are out of order, out of
range or inside a character. -/
def slice? (text : Text) (start stop : Nat) : Option Text :=
  if start ≤ stop then
    (splitAt? text start).bind fun outer =>
      (splitAt? outer.2 (stop - start)).map fun inner => inner.1
  else none

/-- `n` is an offset between two characters of `text`, or one of its ends. -/
def isBoundary (text : Text) (n : Nat) : Bool := (splitAt? text n).isSome

@[simp] theorem byteLength_nil : byteLength [] = 0 := rfl

@[simp] theorem byteLength_cons (c : Char) (text : Text) :
    byteLength (c :: text) = c.utf8Size + byteLength text := rfl

@[simp] theorem byteLength_append (s t : Text) :
    byteLength (s ++ t) = byteLength s + byteLength t := by
  induction s with
  | nil => simp
  | cons c s ih => simp [ih, Nat.add_assoc]

/-- A text of no bytes has no characters. -/
theorem byteLength_eq_zero_iff (text : Text) : byteLength text = 0 ↔ text = [] := by
  cases text with
  | nil => simp
  | cons c rest =>
      have h := c.utf8Size_pos
      simp
      omega

@[simp] theorem splitAt?_zero (text : Text) : splitAt? text 0 = some ([], text) := by
  cases text <;> rfl

/-- Cutting after `s` gives back `s` and what follows it. -/
theorem splitAt?_append (s t : Text) : splitAt? (s ++ t) (byteLength s) = some (s, t) := by
  induction s with
  | nil => simp
  | cons c s ih =>
      have hc := c.utf8Size_pos
      obtain ⟨n, hn⟩ : ∃ n, byteLength (c :: s) = n + 1 :=
        ⟨c.utf8Size + byteLength s - 1, by simp; omega⟩
      have hle : c.utf8Size ≤ n + 1 := by rw [← hn]; simp
      have hsub : n + 1 - c.utf8Size = byteLength s := by rw [← hn]; simp
      rw [hn, List.cons_append, splitAt?, if_pos hle, hsub, ih]
      rfl

/-- The halves of a cut at `n` make up the text, and the first is `n` bytes long. -/
theorem of_splitAt? {text s t : Text} {n : Nat} (h : splitAt? text n = some (s, t)) :
    text = s ++ t ∧ byteLength s = n := by
  induction text generalizing n s with
  | nil =>
      cases n with
      | zero => simp [splitAt?] at h; simp [h]
      | succ n => simp [splitAt?] at h
  | cons c rest ih =>
      cases n with
      | zero => simp [splitAt?] at h; simp [h]
      | succ n =>
          rw [splitAt?] at h
          split at h
          · next hle =>
            obtain ⟨⟨s', t'⟩, hrest, heq⟩ := Option.map_eq_some_iff.1 h
            obtain ⟨rfl, rfl⟩ := Prod.mk.injEq .. ▸ heq
            obtain ⟨hsplit, hlen⟩ := ih hrest
            refine ⟨by rw [hsplit]; rfl, ?_⟩
            simp [hlen]
            omega
          · next hnot => simp at h

/-- A cut at `n` is a division of the text whose first half is `n` bytes long. -/
theorem splitAt?_eq_some_iff {text s t : Text} {n : Nat} :
    splitAt? text n = some (s, t) ↔ text = s ++ t ∧ byteLength s = n := by
  refine ⟨of_splitAt?, ?_⟩
  rintro ⟨rfl, rfl⟩
  exact splitAt?_append s t

end Text

end JsoniqLexer

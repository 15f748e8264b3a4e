import Mathlib.Data.List.Forall2
import JsoniqLexer.Text.Utf8

/-!
# Offsets and divisions

Every offset that a text can be cut at belongs to one division of the text. Two divisions are
compared by their offsets, and a slice is the middle of a division in three. All other offsets are past
the end or inside of a character (`splitAt?_eq_none_iff`).
-/

set_option autoImplicit false

namespace JsoniqLexer.Text

/-- Two divisions of a text at one offset are the same. -/
theorem append_inj_of_byteLength {x y rest tail : Text} (h : x ++ rest = y ++ tail)
    (hlength : x.byteLength = y.byteLength) : x = y ∧ rest = tail := by
  have hx := splitAt?_append x rest
  rw [h, hlength, splitAt?_append] at hx
  cases hx
  exact ⟨rfl, rfl⟩

theorem byteLength_le_of_prefix {x y : Text} (h : x <+: y) : x.byteLength ≤ y.byteLength := by
  obtain ⟨more, rfl⟩ := h
  rw [byteLength_append]
  exact Nat.le_add_right _ _

/-- Of two beginnings of a text, the one that is not longer is a beginning of the other. -/
theorem prefix_of_byteLength_le {x y rest tail : Text} (h : x ++ rest = y ++ tail)
    (hle : x.byteLength ≤ y.byteLength) : x <+: y := by
  have hbegins : x <+: y ∨ y <+: x :=
    List.prefix_or_prefix_of_prefix (List.prefix_append x rest) ⟨tail, h.symm⟩
  rcases hbegins with hbegins | hbegins
  · exact hbegins
  -- the shorter one goes at least as far, so they are the same
  · have hge := byteLength_le_of_prefix hbegins
    obtain ⟨more, rfl⟩ := hbegins
    rw [byteLength_append] at hle
    obtain rfl : more = [] := (byteLength_eq_zero_iff more).1 (by omega)
    simp

/-- After a beginning, a text is cut where its rest is. -/
theorem splitAt?_append_add (x rest : Text) (n : Nat) :
    splitAt? (x ++ rest) (x.byteLength + n) =
      (splitAt? rest n).map fun halves => (x ++ halves.1, halves.2) := by
  ext ⟨y, tail⟩
  simp only [splitAt?_eq_some_iff, Option.map_eq_some_iff, Prod.exists, Prod.mk.injEq]
  constructor
  · rintro ⟨htext, hlength⟩
    obtain ⟨more, rfl⟩ := prefix_of_byteLength_le htext (by omega)
    rw [List.append_assoc] at htext
    rw [byteLength_append] at hlength
    exact ⟨more, tail, ⟨List.append_cancel_left htext, by omega⟩, rfl, rfl⟩
  · rintro ⟨more, tail, ⟨rfl, rfl⟩, rfl, rfl⟩
    rw [List.append_assoc, byteLength_append]
    exact ⟨rfl, rfl⟩

/-- The offset is between two bytes of one character. -/
def IsInside (text : Text) (offset : Nat) : Prop :=
  ∃ (before : Text) (c : Char) (after : Text), text = before ++ c :: after ∧
    before.byteLength < offset ∧ offset < before.byteLength + c.utf8Size

theorem isInside_cons {c : Char} {text : Text} {offset : Nat} (h : text.IsInside offset) :
    IsInside (c :: text) (c.utf8Size + offset) := by
  obtain ⟨before, d, after, rfl, hlt, hgt⟩ := h
  refine ⟨c :: before, d, after, rfl, ?_, ?_⟩
  · simpa using hlt
  · simp only [byteLength_cons]
    omega

/-- An offset divides the text, is past its end, or is inside of a character. -/
theorem divides_or_exceeds (text : Text) (offset : Nat) :
    (∃ x rest, text = x ++ rest ∧ x.byteLength = offset) ∨ text.byteLength < offset ∨
      text.IsInside offset := by
  induction text generalizing offset with
  | nil =>
      cases offset with
      | zero => exact .inl ⟨[], [], rfl, rfl⟩
      | succ n => exact .inr (.inl (Nat.succ_pos n))
  | cons c text ih =>
      by_cases hzero : offset = 0
      · exact .inl ⟨[], c :: text, rfl, hzero.symm⟩
      by_cases hsize : offset < c.utf8Size
      · refine .inr (.inr ⟨[], c, text, rfl, ?_, ?_⟩)
        · simp only [byteLength_nil]
          omega
        · simpa using hsize
      -- past the first character, the offset is where it is in the rest
      · obtain ⟨n, rfl⟩ := Nat.exists_eq_add_of_le (Nat.not_lt.1 hsize)
        rcases ih n with ⟨x, rest, rfl, hx⟩ | hpast | hinside
        · refine .inl ⟨c :: x, rest, rfl, ?_⟩
          rw [byteLength_cons, hx]
        · refine .inr (.inl ?_)
          rw [byteLength_cons]
          omega
        · exact .inr (.inr (isInside_cons hinside))

/-- No division of a text is inside of a character. -/
theorem not_isInside_append (x rest : Text) : ¬ IsInside (x ++ rest) x.byteLength := by
  rintro ⟨before, c, after, htext, hlt, hgt⟩
  obtain ⟨more, rfl⟩ := prefix_of_byteLength_le htext.symm (Nat.le_of_lt hlt)
  rw [List.append_assoc] at htext
  have hrest := List.append_cancel_left htext
  cases more with
  | nil => simp at hlt
  | cons d more =>
      obtain ⟨rfl, -⟩ := List.cons.inj hrest
      simp only [byteLength_append, byteLength_cons] at hgt
      omega

/-- A text cannot be cut past its end and inside of a character, and nowhere else. -/
theorem splitAt?_eq_none_iff {text : Text} {offset : Nat} :
    text.splitAt? offset = none ↔ text.byteLength < offset ∨ text.IsInside offset := by
  constructor
  · intro h
    rcases divides_or_exceeds text offset with ⟨x, rest, rfl, rfl⟩ | hnot
    · rw [splitAt?_append] at h
      cases h
    · exact hnot
  · intro h
    cases hsplit : text.splitAt? offset with
    | none => rfl
    | some halves =>
        obtain ⟨rfl, rfl⟩ := of_splitAt? hsplit
        rcases h with hpast | hinside
        · rw [byteLength_append] at hpast
          omega
        · exact absurd hinside (not_isInside_append halves.1 halves.2)

/-- A text related to another, character by character, is divided as the other is. -/
theorem exists_of_forall₂_append {ρ : Char → Char → Prop} {x y text : Text}
    (h : List.Forall₂ ρ (x ++ y) text) :
    ∃ x' y', text = x' ++ y' ∧ List.Forall₂ ρ x x' ∧ List.Forall₂ ρ y y' := by
  induction x generalizing text with
  | nil => exact ⟨[], text, rfl, .nil, h⟩
  | cons c x ih =>
      obtain ⟨d, rest, hcd, hrest, rfl⟩ := List.forall₂_cons_left_iff.1 h
      obtain ⟨x', y', rfl, hx, hy⟩ := ih hrest
      exact ⟨d :: x', y', rfl, .cons hcd hx, hy⟩

theorem byteLength_eq_of_forall₂ {ρ : Char → Char → Prop}
    (hsize : ∀ c d, ρ c d → d.utf8Size = c.utf8Size) {x x' : Text} (h : List.Forall₂ ρ x x') :
    x'.byteLength = x.byteLength := by
  induction h with
  | nil => rfl
  | cons hcd _ ih => rw [byteLength_cons, byteLength_cons, hsize _ _ hcd, ih]

/-- A slice is what stands between a beginning and an end of the text. -/
theorem slice?_eq_some_iff {text x : Text} {start stop : Nat} :
    text.slice? start stop = some x ↔
      ∃ before after, text = before ++ (x ++ after) ∧ before.byteLength = start ∧
        start + x.byteLength = stop := by
  constructor
  · intro h
    rw [slice?] at h
    split at h
    · next hle =>
      -- a slice is cut twice: at its start, and at its width after that
      obtain ⟨⟨before, rest⟩, houter, hmap⟩ := Option.bind_eq_some_iff.1 h
      obtain ⟨⟨y, after⟩, hinner, rfl⟩ := Option.map_eq_some_iff.1 hmap
      obtain ⟨rfl, rfl⟩ := of_splitAt? houter
      obtain ⟨rfl, hlength⟩ := of_splitAt? hinner
      exact ⟨before, after, rfl, rfl, by simp only [hlength]; omega⟩
    · cases h
  · rintro ⟨before, after, rfl, rfl, rfl⟩
    have hwidth : before.byteLength + x.byteLength - before.byteLength = x.byteLength := by omega
    rw [slice?, if_pos (Nat.le_add_right _ _), splitAt?_append, Option.bind_some, hwidth,
      splitAt?_append]
    rfl

/-- A text that begins with a certain kind of characters begins with a longest run of them. -/
theorem exists_run {p : Char → Bool} {c : Char} (hc : p c = true) (text : Text) :
    ∃ run rest, c :: text = run ++ rest ∧ run ≠ [] ∧ (∀ d ∈ run, p d = true) ∧
      ∀ d ∈ rest.head?, p d = false := by
  induction text generalizing c with
  | nil => exact ⟨[c], [], rfl, List.cons_ne_nil c [], by simpa using hc, by simp⟩
  | cons d text ih =>
      by_cases hd : p d = true
      · obtain ⟨run, rest, htext, _, hrun, hrest⟩ := ih hd
        exact ⟨c :: run, rest, by rw [htext]; rfl, List.cons_ne_nil c run,
          List.forall_mem_cons.2 ⟨hc, hrun⟩, hrest⟩
      · exact ⟨[c], d :: text, rfl, List.cons_ne_nil c [], by simpa using hc, by simpa using hd⟩

end JsoniqLexer.Text

import Mathlib.Data.List.Basic
import JsoniqLexer.Proofs.Text.Quotation

/-!
# A reader of JSON

A JSON text is one value with blanks around it (`Json.parse?`). Values are read from the beginning of a
text: scalars, arrays and objects, with blanks between their parts. The reader of values in brackets is
given the reader of the values inside, so the readers are numbered by the depth that they go to
(`Json.valueReader`). A text has more characters than brackets that are open at one time, so its length
is depth enough.

What is written for a value is taken as that value, with any blanks before it and anything after it
that may follow a value (`Json.Takes`): strings, whole numbers, and arrays and objects in which the
parts stand with commas and blanks between them (`takes_array`, `takes_object`).
-/

set_option autoImplicit false

namespace JsoniqLexer

/-- A JSON value. A number is its mantissa times ten to the power of its exponent. -/
inductive Json where
  | null
  | bool (value : Bool)
  | number (mantissa exponent : Int)
  | string (text : Text)
  | array (elements : List Json)
  | object (members : List (Text × Json))

namespace Json

open Text

/-! ## Marks and blanks -/

/-- The characters that may stand between the parts of a value. -/
def isBlank (c : Char) : Bool := c = ' ' || c = '\n' || c = '\r' || c = '\t'

/-- Blanks only. -/
def Blanks (gap : Text) : Prop := ∀ c ∈ gap, isBlank c = true

theorem blanks_of_all {gap : Text} (h : gap.all isBlank = true) : Blanks gap := List.all_eq_true.1 h

/-- The text without the blanks that it begins with. -/
def skipBlanks (text : Text) : Text := text.dropWhile isBlank

/-- What follows a mark, where blanks and the mark are at the beginning of the text. -/
def mark? (c : Char) (text : Text) : Option Text := after? [c] (skipBlanks text)

theorem skipBlanks_append {gap : Text} (h : Blanks gap) (text : Text) :
    skipBlanks (gap ++ text) = skipBlanks text := List.dropWhile_append_of_pos h

theorem skipBlanks_cons {c : Char} (h : isBlank c = false) (rest : Text) :
    skipBlanks (c :: rest) = c :: rest := by
  rw [skipBlanks, List.dropWhile_cons_of_neg (by simp [h])]

theorem mark?_append {c : Char} {gap : Text} (h : Blanks gap) (text : Text) :
    mark? c (gap ++ text) = mark? c text := by
  rw [mark?, skipBlanks_append h, mark?]

theorem mark?_cons {c : Char} (h : isBlank c = false) (rest : Text) :
    mark? c (c :: rest) = some rest := by
  rw [mark?, skipBlanks_cons h]
  exact after?_append [c] rest

theorem mark?_cons_ne {c d : Char} (h : isBlank d = false) (hne : c ≠ d) (rest : Text) :
    mark? c (d :: rest) = none := by
  rw [mark?, skipBlanks_cons h]
  exact after?_cons_ne hne [] rest

theorem length_skipBlanks_le (text : Text) : (skipBlanks text).length ≤ text.length :=
  (List.dropWhile_sublist isBlank).length_le

theorem length_lt_of_mark? {c : Char} {text rest : Text} (h : mark? c text = some rest) :
    rest.length < text.length := by
  have hlength := length_le_of_after? h
  have hle := length_skipBlanks_le text
  rw [List.length_singleton] at hlength
  omega

/-! ## Scalars -/

/-- The sign of a number, and what follows it. -/
def readSign : Text → Int × Text
  | '-' :: rest => (-1, rest)
  | text => (1, text)

/-- The digits at the beginning of a text, one at least, and what follows them. -/
def readDigits? (text : Text) : Option (Text × Text) :=
  if text.takeWhile (isDigitOf 10) = [] then none
  else some (text.takeWhile (isDigitOf 10), text.dropWhile (isDigitOf 10))

/-- The digits of the whole part of a number, of which the first is zero only where it is the only
one. -/
def readWhole? (text : Text) : Option (Text × Text) :=
  match readDigits? text with
  | none => none
  | some (digits, rest) =>
      if digits.head? = some '0' ∧ digits.length ≠ 1 then none else some (digits, rest)

/-- The digits after a point, none where there is no point. -/
def readFraction? : Text → Option (Text × Text)
  | '.' :: rest => readDigits? rest
  | text => some ([], text)

/-- An exponent after its mark, zero where there is no mark. -/
def readExponent? : Text → Option (Int × Text)
  | [] => some (0, [])
  | c :: rest =>
      if c = 'e' ∨ c = 'E' then
        let unsigned := if rest.head? = some '+' then (1, rest.tail) else readSign rest
        (readNumeral? 10 unsigned.2).map fun found => (unsigned.1 * found.1, found.2)
      else some (0, c :: rest)

/-- A number, and what follows it. -/
def readNumber? (text : Text) : Option (Json × Text) :=
  match readWhole? (readSign text).2 with
  | none => none
  | some (whole, tail) =>
      match readFraction? tail with
      | none => none
      | some (fraction, tail) =>
          (readExponent? tail).map fun found =>
            (.number ((readSign text).1 * numeralValue 10 (whole ++ fraction))
              (found.1 - fraction.length), found.2)

/-- The values that are words. -/
def words : List (Text × Json) :=
  [("null".toList, .null), ("true".toList, .bool true), ("false".toList, .bool false)]

/-- A value that is a word, and what follows it. -/
def readWord? (text : Text) : Option (Json × Text) :=
  words.findSome? fun word => (after? word.1 text).map fun rest => (word.2, rest)

/-- A value without other values in it, and what follows it. -/
def readScalar? (text : Text) : Option (Json × Text) :=
  ((Quotation.json.read? text).map fun found => (.string found.1, found.2)).or
    ((readNumber? text).or (readWord? text))

theorem length_lt_of_readDigits? {text digits rest : Text}
    (h : readDigits? text = some (digits, rest)) : rest.length < text.length := by
  rw [readDigits?] at h
  split at h
  · cases h
  · next hne =>
    cases h
    have hnumeral : readNumeral? 10 text = some
        (numeralValue 10 (text.takeWhile (isDigitOf 10)), text.dropWhile (isDigitOf 10)) := by
      rw [readNumeral?, if_neg hne]
    exact length_lt_of_readNumeral? hnumeral

theorem length_readSign_le (text : Text) : (readSign text).2.length ≤ text.length := by
  rw [readSign.eq_def]
  split
  · exact Nat.le_succ _
  · exact Nat.le_refl _

theorem length_le_of_readFraction? {text fraction rest : Text}
    (h : readFraction? text = some (fraction, rest)) : rest.length ≤ text.length := by
  rw [readFraction?.eq_def] at h
  split at h
  · next tail =>
    have hlt := length_lt_of_readDigits? h
    rw [List.length_cons]
    omega
  · cases h
    exact Nat.le_refl _

theorem length_le_of_readExponent? {text rest : Text} {exponent : Int}
    (h : readExponent? text = some (exponent, rest)) : rest.length ≤ text.length := by
  rw [readExponent?.eq_def] at h
  split at h
  · cases h
    exact Nat.le_refl _
  · next c tail =>
    split at h
    · obtain ⟨⟨n, after⟩, hnumeral, heq⟩ := Option.map_eq_some_iff.1 h
      simp only [Prod.mk.injEq] at heq
      obtain ⟨-, rfl⟩ := heq
      have hlt := length_lt_of_readNumeral? hnumeral
      have hunsigned : (if tail.head? = some '+' then ((1 : Int), tail.tail)
          else readSign tail).2.length ≤ tail.length := by
        split
        · rw [List.length_tail]
          exact Nat.sub_le _ _
        · exact length_readSign_le tail
      rw [List.length_cons]
      omega
    · cases h
      exact Nat.le_refl _

theorem length_lt_of_readNumber? {text rest : Text} {value : Json}
    (h : readNumber? text = some (value, rest)) : rest.length < text.length := by
  rw [readNumber?] at h
  split at h
  · cases h
  · next whole tail hwhole =>
    split at h
    · cases h
    · next fraction tail' hfraction =>
      obtain ⟨⟨exponent, after⟩, hexponent, heq⟩ := Option.map_eq_some_iff.1 h
      simp only [Prod.mk.injEq] at heq
      obtain ⟨-, rfl⟩ := heq
      have hdigits : tail.length < (readSign text).2.length := by
        rw [readWhole?] at hwhole
        split at hwhole
        · cases hwhole
        · next digits after' hdigits =>
          split at hwhole
          · cases hwhole
          · cases hwhole
            exact length_lt_of_readDigits? hdigits
      have hsign := length_readSign_le text
      have hle := length_le_of_readFraction? hfraction
      have hle' := length_le_of_readExponent? hexponent
      omega

theorem length_lt_of_readScalar? {text rest : Text} {value : Json}
    (h : readScalar? text = some (value, rest)) : rest.length < text.length := by
  rcases Option.or_eq_some_iff.1 h with hstring | ⟨-, h⟩
  · obtain ⟨⟨inner, after⟩, hread, heq⟩ := Option.map_eq_some_iff.1 hstring
    cases heq
    exact Quotation.json.length_lt_of_read? hread
  rcases Option.or_eq_some_iff.1 h with hnumber | ⟨-, hword⟩
  · exact length_lt_of_readNumber? hnumber
  · obtain ⟨word, hmem, hafter⟩ := List.exists_of_findSome?_eq_some hword
    obtain ⟨after, htail, heq⟩ := Option.map_eq_some_iff.1 hafter
    cases heq
    have hpos : ∀ w ∈ words, 0 < w.1.length := by simp [words]
    have hword := hpos word hmem
    have hlength := length_le_of_after? htail
    omega

/-! ## Arrays and objects -/

section

variable {α : Type}

/-- One thing or more, with commas between them and a mark after them. -/
def readSeparated? (r : Reader α) (closing : Char) (text : Text) : Option (List α × Text) :=
  match _h : r.next? text with
  | none => none
  | some (a, tail) =>
      match _hcomma : mark? ',' tail with
      | some more => (readSeparated? r closing more).map fun later => (a :: later.1, later.2)
      | none => (mark? closing tail).map fun rest => ([a], rest)
termination_by text.length
decreasing_by exact Nat.lt_trans (length_lt_of_mark? _hcomma) (r.shorter _h)

/-- Things with commas between them, or none, in brackets. -/
def readBracketed? (r : Reader α) (opening closing : Char) (text : Text) :
    Option (List α × Text) :=
  match mark? opening text with
  | none => none
  | some inner =>
      match mark? closing inner with
      | some rest => some ([], rest)
      | none => readSeparated? r closing inner

variable {r : Reader α} {closing : Char} {text tail : Text} {a : α}

theorem readSeparated?_of_none (h : r.next? text = none) :
    readSeparated? r closing text = none := by
  rw [readSeparated?]
  split
  · rfl
  · next b tail' hsome =>
    rw [h] at hsome
    cases hsome

theorem readSeparated?_of_comma {more : Text} (h : r.next? text = some (a, tail))
    (hcomma : mark? ',' tail = some more) :
    readSeparated? r closing text =
      (readSeparated? r closing more).map fun later => (a :: later.1, later.2) := by
  rw [readSeparated?]
  split
  · next hnone =>
    rw [h] at hnone
    cases hnone
  · next b tail' hsome =>
    rw [h] at hsome
    cases hsome
    split
    · next more' hmore =>
      rw [hcomma] at hmore
      cases hmore
      rfl
    · next hnone =>
      rw [hcomma] at hnone
      cases hnone

theorem readSeparated?_of_closing (h : r.next? text = some (a, tail))
    (hcomma : mark? ',' tail = none) :
    readSeparated? r closing text = (mark? closing tail).map fun rest => ([a], rest) := by
  rw [readSeparated?]
  split
  · next hnone =>
    rw [h] at hnone
    cases hnone
  · next b tail' hsome =>
    rw [h] at hsome
    cases hsome
    split
    · next more hmore =>
      rw [hcomma] at hmore
      cases hmore
    · rfl

theorem length_lt_of_readSeparated? {rest : Text} {as : List α}
    (h : readSeparated? r closing text = some (as, rest)) : rest.length < text.length := by
  obtain ⟨n, hn⟩ : ∃ n, text.length = n := ⟨_, rfl⟩
  induction n using Nat.strongRecOn generalizing text as rest with
  | ind n ih =>
      cases hnext : r.next? text with
      | none =>
          rw [readSeparated?_of_none hnext] at h
          cases h
      | some found =>
          obtain ⟨a, tail⟩ := found
          have hlt := r.shorter hnext
          cases hcomma : mark? ',' tail with
          | some more =>
              rw [readSeparated?_of_comma hnext hcomma] at h
              obtain ⟨later, hlater, heq⟩ := Option.map_eq_some_iff.1 h
              cases heq
              have hmore := length_lt_of_mark? hcomma
              have hrest := ih more.length (by omega) hlater rfl
              omega
          | none =>
              rw [readSeparated?_of_closing hnext hcomma] at h
              obtain ⟨after, hafter, heq⟩ := Option.map_eq_some_iff.1 h
              cases heq
              have hrest := length_lt_of_mark? hafter
              omega

theorem length_lt_of_readBracketed? {opening : Char} {rest : Text} {as : List α}
    (h : readBracketed? r opening closing text = some (as, rest)) : rest.length < text.length := by
  rw [readBracketed?] at h
  split at h
  · cases h
  · next inner hinner =>
    have hlt := length_lt_of_mark? hinner
    split at h
    · next after hafter =>
      cases h
      exact Nat.lt_trans (length_lt_of_mark? hafter) hlt
    · exact Nat.lt_trans (length_lt_of_readSeparated? h) hlt

end

/-- A name and a value, with a colon between them. -/
def readMember? (r : Reader Json) (text : Text) : Option ((Text × Json) × Text) :=
  match Quotation.json.read? (skipBlanks text) with
  | none => none
  | some (name, tail) =>
      match mark? ':' tail with
      | none => none
      | some more => (r.next? more).map fun found => ((name, found.1), found.2)

theorem length_lt_of_readMember? {r : Reader Json} {text rest : Text} {found : Text × Json}
    (h : readMember? r text = some (found, rest)) : rest.length < text.length := by
  rw [readMember?] at h
  split at h
  · cases h
  · next name tail hname =>
    split at h
    · cases h
    · next more hmore =>
      obtain ⟨⟨value, after⟩, hvalue, heq⟩ := Option.map_eq_some_iff.1 h
      simp only [Prod.mk.injEq] at heq
      obtain ⟨-, rfl⟩ := heq
      have hblanks := length_skipBlanks_le text
      have hlt := Quotation.json.length_lt_of_read? hname
      have hcolon := length_lt_of_mark? hmore
      have hshorter := r.shorter hvalue
      omega

/-- Reads the members of an object, their values with the given reader. -/
def memberReader (r : Reader Json) : Reader (Text × Json) := ⟨readMember? r, length_lt_of_readMember?⟩

/-- A value, the values in it read by the given reader. -/
def readValue? (r : Reader Json) (text : Text) : Option (Json × Text) :=
  (readScalar? (skipBlanks text)).or
    (((readBracketed? r '[' ']' text).map fun found => (.array found.1, found.2)).or
      ((readBracketed? (memberReader r) '\x7b' '\x7d' text).map fun found =>
        (.object found.1, found.2)))

theorem length_lt_of_readScalar?_skipBlanks {text rest : Text} {value : Json}
    (h : readScalar? (skipBlanks text) = some (value, rest)) : rest.length < text.length :=
  Nat.lt_of_lt_of_le (length_lt_of_readScalar? h) (length_skipBlanks_le text)

theorem length_lt_of_readValue? {r : Reader Json} {text rest : Text} {value : Json}
    (h : readValue? r text = some (value, rest)) : rest.length < text.length := by
  rcases Option.or_eq_some_iff.1 h with hscalar | ⟨-, h⟩
  · exact length_lt_of_readScalar?_skipBlanks hscalar
  rcases Option.or_eq_some_iff.1 h with harray | ⟨-, hobject⟩
  · obtain ⟨⟨elements, after⟩, hread, heq⟩ := Option.map_eq_some_iff.1 harray
    cases heq
    exact length_lt_of_readBracketed? hread
  · obtain ⟨⟨members, after⟩, hread, heq⟩ := Option.map_eq_some_iff.1 hobject
    cases heq
    exact length_lt_of_readBracketed? hread

/-- Reads values in which brackets stand in each other at most so many times. -/
def valueReader : Nat → Reader Json
  | 0 => ⟨fun text => readScalar? (skipBlanks text), length_lt_of_readScalar?_skipBlanks⟩
  | depth + 1 => ⟨readValue? (valueReader depth), length_lt_of_readValue?⟩

/-- The value that a whole text stands for. -/
def parse? (text : Text) : Option Json :=
  match (valueReader text.length).next? text with
  | none => none
  | some (value, rest) => if skipBlanks rest = [] then some value else none

/-! ## What is written is read -/

/-- Nothing is left, or what may follow a value. -/
def EndsValue (rest : Text) : Prop :=
  ∀ c ∈ rest.head?, c = ',' ∨ c = ']' ∨ c = '\x7d' ∨ isBlank c = true

/-- The reader finds the value that the text stands for, with blanks before it and something after it
that may follow a value. -/
def Takes {α : Type} (r : Reader α) (text : Text) (a : α) : Prop :=
  ∀ gap rest, Blanks gap → EndsValue rest → r.next? (gap ++ (text ++ rest)) = some (a, rest)

theorem blanks_append {gap gap' : Text} (h : Blanks gap) (h' : Blanks gap') :
    Blanks (gap ++ gap') := by
  rw [Blanks, List.forall_mem_append]
  exact ⟨h, h'⟩

theorem Takes.indented {α : Type} {r : Reader α} {text gap : Text} {a : α} (h : Takes r text a)
    (hgap : Blanks gap) : Takes r (gap ++ text) a := by
  intro gap' rest hgap' hrest
  have htaken := h (gap' ++ gap) rest (blanks_append hgap' hgap) hrest
  rwa [List.append_assoc] at htaken ⊢

theorem next?_valueReader_of_scalar {text rest : Text} {value : Json}
    (h : readScalar? (skipBlanks text) = some (value, rest)) (depth : Nat) :
    (valueReader depth).next? text = some (value, rest) := by
  cases depth with
  | zero => exact h
  | succ depth => exact Option.or_eq_some_iff.2 (.inl h)

/-- A string is read as its text. -/
theorem takes_string (text : Text) (depth : Nat) :
    Takes (valueReader depth) (Text.Json.encode text) (.string text) := by
  intro gap rest hgap _
  apply next?_valueReader_of_scalar
  have hquote : skipBlanks (Text.Json.encode text ++ rest) = Text.Json.encode text ++ rest :=
    skipBlanks_cons (by decide) _
  rw [skipBlanks_append hgap, hquote, readScalar?, read?_encode_json]
  rfl

/-- What may follow a value does not go on a number. -/
theorem EndsValue.of_head? {c : Char} {rest : Text} (h : EndsValue rest) (hc : c ∈ rest.head?) :
    isDigitOf 10 c = false ∧ c ≠ '.' ∧ c ≠ 'e' ∧ c ≠ 'E' := by
  have hends := h c hc
  simp only [isBlank, Bool.or_eq_true, decide_eq_true_eq] at hends
  rcases hends with rfl | rfl | rfl | ((rfl | rfl) | rfl) | rfl
  all_goals decide

theorem readFraction?_of_endsValue {rest : Text} (h : EndsValue rest) :
    readFraction? rest = some ([], rest) := by
  rw [readFraction?.eq_def]
  split
  · next tail => exact absurd rfl (h.of_head? rfl).2.1
  · rfl

theorem readExponent?_of_endsValue {rest : Text} (h : EndsValue rest) :
    readExponent? rest = some (0, rest) := by
  cases rest with
  | nil => rfl
  | cons c rest =>
      obtain ⟨-, -, hlower, hupper⟩ := h.of_head? rfl
      rw [readExponent?, if_neg]
      rintro (rfl | rfl)
      · exact hlower rfl
      · exact hupper rfl

/-- Only zero is written with a zero in front. -/
theorem eq_zero_of_head?_toDigits {n : Nat} (h : (Nat.toDigits 10 n).head? = some '0') : n = 0 := by
  induction n using Nat.strongRecOn with
  | ind n ih =>
      rw [Nat.toDigits_eq_if (by decide)] at h
      split at h
      · next hn =>
        have hall : ∀ d < 10, Nat.digitChar d = '0' → d = 0 := by decide
        exact hall n hn (Option.some.inj h)
      · next hn =>
        rw [List.head?_append_of_ne_nil _ Nat.toDigits_ne_nil] at h
        have hquotient := ih (n / 10) (by omega) h
        omega

/-- The decimal digits of a number are read as the number. -/
theorem readNumber?_toDigits {n : Nat} {rest : Text} (h : EndsValue rest) :
    readNumber? (Nat.toDigits 10 n ++ rest) = some (.number n 0, rest) := by
  have hdigits : ∀ c ∈ Nat.toDigits 10 n, isDigitOf 10 c = true := by
    intro c hc
    exact isDigitOf_of_mem_toDigits (by decide) (by decide) hc
  have hrest : ∀ c ∈ rest.head?, isDigitOf 10 c = false := by
    intro c hc
    exact (h.of_head? hc).1
  have hsign : readSign (Nat.toDigits 10 n ++ rest) = (1, Nat.toDigits 10 n ++ rest) := by
    rw [readSign.eq_def]
    split
    · next tail heq =>
      obtain ⟨c, digits, hcons⟩ := List.exists_cons_of_ne_nil (@Nat.toDigits_ne_nil n 10)
      rw [hcons] at heq
      cases heq
      have hminus := hdigits '-' (hcons ▸ List.mem_cons_self)
      exact absurd hminus (by decide)
    · rfl
  have hread : readDigits? (Nat.toDigits 10 n ++ rest) = some (Nat.toDigits 10 n, rest) := by
    rw [readDigits?, takeWhile_run hdigits hrest, dropWhile_run hdigits hrest,
      if_neg Nat.toDigits_ne_nil]
  have hwhole : readWhole? (Nat.toDigits 10 n ++ rest) = some (Nat.toDigits 10 n, rest) := by
    rw [readWhole?, hread]
    simp only
    rw [if_neg]
    rintro ⟨hzero, hlength⟩
    obtain rfl := eq_zero_of_head?_toDigits hzero
    exact hlength rfl
  rw [readNumber?, hsign]
  simp only [hwhole, readFraction?_of_endsValue h, readExponent?_of_endsValue h, Option.map_some,
    List.append_nil, List.length_nil, Int.one_mul,
    numeralValue_toDigits (by decide : 1 < 10) (by decide : 10 ≤ 16)]
  rfl

/-- The decimal digits of a number are taken as the number. -/
theorem takes_decimal (n depth : Nat) :
    Takes (valueReader depth) (Nat.toDigits 10 n) (.number n 0) := by
  intro gap rest hgap hrest
  apply next?_valueReader_of_scalar
  obtain ⟨c, digits, hcons⟩ := List.exists_cons_of_ne_nil (@Nat.toDigits_ne_nil n 10)
  have hdigit : isDigitOf 10 c = true :=
    isDigitOf_of_mem_toDigits (by decide) (by decide) (hcons ▸ List.mem_cons_self)
  have hblank : isBlank c = false := by
    rw [Bool.eq_false_iff]
    intro hblank
    simp only [isBlank, Bool.or_eq_true, decide_eq_true_eq] at hblank
    rcases hblank with ((rfl | rfl) | rfl) | rfl
    all_goals
      revert hdigit
      decide
  have hquote : '"' ≠ c := by
    rintro rfl
    revert hdigit
    decide
  have hskip : skipBlanks (Nat.toDigits 10 n ++ rest) = Nat.toDigits 10 n ++ rest := by
    rw [hcons, List.cons_append, skipBlanks_cons hblank]
  have hstring : Quotation.json.read? (Nat.toDigits 10 n ++ rest) = none := by
    rw [hcons, List.cons_append, Quotation.read?, after?_cons_ne hquote]
  rw [skipBlanks_append hgap, hskip, readScalar?, hstring, readNumber?_toDigits hrest]
  rfl

/-- A name, a colon, and what is taken as a value, are taken as a member. -/
theorem takes_member {r : Reader Json} {text gap : Text} {value : Json} (h : Takes r text value)
    (hgap : Blanks gap) (name : Text) :
    Takes (memberReader r) (Text.Json.encode name ++ (':' :: (gap ++ text))) (name, value) := by
  intro gap' rest hgap' hrest
  have hskip : skipBlanks (gap' ++ (Text.Json.encode name ++ (':' :: (gap ++ text)) ++ rest)) =
      Text.Json.encode name ++ (':' :: (gap ++ text) ++ rest) := by
    rw [skipBlanks_append hgap', List.append_assoc]
    exact skipBlanks_cons (by decide) _
  have hcolon : mark? ':' (':' :: (gap ++ text) ++ rest) = some (gap ++ (text ++ rest)) := by
    rw [List.cons_append, List.append_assoc]
    exact mark?_cons (by decide) _
  have hvalue := h gap rest hgap hrest
  change readMember? r _ = _
  rw [readMember?, hskip, read?_encode_json]
  simp only [hcolon, hvalue, Option.map_some]

/-! ## Brackets -/

/-- Parts in brackets, with commas between them, and blanks around them. -/
def bracketed (opening closing : Char) (before gap after : Text) (parts : List Text) : Text :=
  opening :: before ++ ((',' :: gap).intercalate parts ++ (after ++ [closing]))

section

variable {α : Type} {r : Reader α} {closing : Char} {before gap after : Text}
  {parts : List (Text × α)}

/-- A value ends before a closing bracket, also where blanks come first. -/
theorem EndsValue.of_closing (hclosing : closing = ']' ∨ closing = '\x7d') (hafter : Blanks after)
    (rest : Text) : EndsValue (after ++ closing :: rest) := by
  cases after with
  | nil =>
      apply forall_head?_cons
      rcases hclosing with rfl | rfl
      · exact .inr (.inl rfl)
      · exact .inr (.inr (.inl rfl))
  | cons d after =>
      apply forall_head?_cons
      exact .inr (.inr (.inr (hafter d List.mem_cons_self)))

theorem readSeparated?_intercalate (hclosing : closing = ']' ∨ closing = '\x7d')
    (hgap : Blanks gap) (hafter : Blanks after) (hbefore : Blanks before) (hne : parts ≠ [])
    (h : ∀ part ∈ parts, Takes r part.1 part.2) (rest : Text) :
    readSeparated? r closing
        (before ++ ((',' :: gap).intercalate (parts.map Prod.fst) ++ (after ++ closing :: rest))) =
      some (parts.map Prod.snd, rest) := by
  have hmarks : isBlank closing = false ∧ ',' ≠ closing := by
    rcases hclosing with rfl | rfl
    · decide
    · decide
  have hends := EndsValue.of_closing hclosing hafter rest
  have hnocomma : mark? ',' (after ++ closing :: rest) = none := by
    rw [mark?_append hafter, mark?_cons_ne hmarks.1 hmarks.2]
  have hclosed : mark? closing (after ++ closing :: rest) = some rest := by
    rw [mark?_append hafter, mark?_cons hmarks.1]
  induction parts generalizing before with
  | nil => exact absurd rfl hne
  | cons part parts ih =>
      obtain ⟨hpart, hparts⟩ := List.forall_mem_cons.1 h
      cases parts with
      | nil =>
          have hnext := hpart before (after ++ closing :: rest) hbefore hends
          have hsingle : (',' :: gap).intercalate ([part].map Prod.fst) = part.1 := by
            simp [List.intercalate]
          rw [hsingle, readSeparated?_of_closing hnext hnocomma, hclosed]
          rfl
      | cons second parts =>
          -- after the comma the others are read, with the gap before them
          have hjoin : (',' :: gap).intercalate ((part :: second :: parts).map Prod.fst) =
              part.1 ++ (',' :: (gap ++
                (',' :: gap).intercalate ((second :: parts).map Prod.fst))) := by
            simp [List.intercalate]
          have hcommaEnds (more : Text) : EndsValue (',' :: more) :=
            forall_head?_cons (.inl rfl) more
          have hothers := ih hgap (List.cons_ne_nil second parts) hparts
          rw [hjoin, List.append_assoc, List.cons_append, List.append_assoc]
          rw [readSeparated?_of_comma (hpart before _ hbefore (hcommaEnds _))
            (mark?_cons (by decide) _), hothers]
          rfl

/-- Parts that are taken one by one are taken in brackets. -/
theorem readBracketed?_bracketed {opening : Char} (hopening : isBlank opening = false)
    (hclosing : closing = ']' ∨ closing = '\x7d') (hgap : Blanks gap) (hafter : Blanks after)
    (hbefore : Blanks before) (hne : parts ≠ []) (h : ∀ part ∈ parts, Takes r part.1 part.2)
    (hopen : ∀ part ∈ parts, ∀ rest, mark? closing (part.1 ++ rest) = none) {gap' : Text}
    (hgap' : Blanks gap') (rest : Text) :
    readBracketed? r opening closing
        (gap' ++ (bracketed opening closing before gap after (parts.map Prod.fst) ++ rest)) =
      some (parts.map Prod.snd, rest) := by
  obtain ⟨inner, hinner⟩ : ∃ inner, inner =
      before ++ ((',' :: gap).intercalate (parts.map Prod.fst) ++ (after ++ closing :: rest)) :=
    ⟨_, rfl⟩
  have htext : bracketed opening closing before gap after (parts.map Prod.fst) ++ rest =
      opening :: inner := by
    rw [bracketed, hinner]
    simp
  have hread : readSeparated? r closing inner = some (parts.map Prod.snd, rest) := by
    rw [hinner]
    exact readSeparated?_intercalate hclosing hgap hafter hbefore hne h rest
  have hparts : mark? closing inner = none := by
    obtain ⟨part, others, rfl⟩ := List.exists_cons_of_ne_nil hne
    obtain ⟨tail, htail⟩ : ∃ tail,
        (',' :: gap).intercalate ((part :: others).map Prod.fst) = part.1 ++ tail := by
      cases others with
      | nil => exact ⟨[], by simp [List.intercalate]⟩
      | cons second others => exact ⟨_, by simp [List.intercalate]; rfl⟩
    rw [hinner, mark?_append hbefore, htail, List.append_assoc]
    exact hopen part List.mem_cons_self _
  rw [readBracketed?, mark?_append hgap', htext, mark?_cons hopening]
  simp only [hparts, hread]

end

/-- A bracket begins no scalar. -/
theorem readScalar?_bracket {c : Char} (h : c = '[' ∨ c = '\x7b') (rest : Text) :
    readScalar? (c :: rest) = none := by
  rcases h with rfl | rfl
  · rfl
  · rfl

section

variable {depth : Nat} {before gap after : Text}

/-- Values in square brackets are taken as an array. -/
theorem takes_array {parts : List (Text × Json)} (hgap : Blanks gap) (hafter : Blanks after)
    (hbefore : Blanks before) (hne : parts ≠ [])
    (h : ∀ part ∈ parts, Takes (valueReader depth) part.1 part.2)
    (hopen : ∀ part ∈ parts, ∀ rest, mark? ']' (part.1 ++ rest) = none) :
    Takes (valueReader (depth + 1)) (bracketed '[' ']' before gap after (parts.map Prod.fst))
      (.array (parts.map Prod.snd)) := by
  intro gap' rest hgap' _
  have hread := readBracketed?_bracketed (by decide : isBlank '[' = false) (.inl rfl) hgap hafter
    hbefore hne h hopen hgap' rest
  have hscalar : readScalar? (skipBlanks
      (gap' ++ (bracketed '[' ']' before gap after (parts.map Prod.fst) ++ rest))) = none := by
    rw [skipBlanks_append hgap']
    exact readScalar?_bracket (.inl rfl) _
  change readValue? (valueReader depth) _ = _
  rw [readValue?, hscalar, hread]
  rfl

/-- Members in curly brackets are taken as an object. -/
theorem takes_object {parts : List (Text × (Text × Json))} (hgap : Blanks gap)
    (hafter : Blanks after) (hbefore : Blanks before) (hne : parts ≠ [])
    (h : ∀ part ∈ parts, Takes (memberReader (valueReader depth)) part.1 part.2)
    (hopen : ∀ part ∈ parts, ∀ rest, mark? '\x7d' (part.1 ++ rest) = none) :
    Takes (valueReader (depth + 1))
      (bracketed '\x7b' '\x7d' before gap after (parts.map Prod.fst))
      (.object (parts.map Prod.snd)) := by
  intro gap' rest hgap' _
  have hread := readBracketed?_bracketed (by decide : isBlank '\x7b' = false) (.inr rfl) hgap
    hafter hbefore hne h hopen hgap' rest
  have hscalar : readScalar? (skipBlanks
      (gap' ++ (bracketed '\x7b' '\x7d' before gap after (parts.map Prod.fst) ++ rest))) =
      none := by
    rw [skipBlanks_append hgap']
    exact readScalar?_bracket (.inr rfl) _
  have harray : readBracketed? (valueReader depth) '[' ']'
      (gap' ++ (bracketed '\x7b' '\x7d' before gap after (parts.map Prod.fst) ++ rest)) =
      none := by
    have hmark : mark? '['
        (bracketed '\x7b' '\x7d' before gap after (parts.map Prod.fst) ++ rest) = none :=
      mark?_cons_ne (by decide : isBlank '\x7b' = false) (by decide) _
    rw [readBracketed?, mark?_append hgap', hmark]
  change readValue? (valueReader depth) _ = _
  rw [readValue?, hscalar, harray, hread]
  rfl

end

/-- A text that is taken as a value by a reader that goes as deep as the text is long stands for the
value. -/
theorem parse?_of_takes {text : Text} {value : Json}
    (h : Takes (valueReader text.length) text value) : parse? text = some value := by
  have hnone : EndsValue [] := by simp [EndsValue]
  have hread := h [] [] (blanks_of_all rfl) hnone
  rw [List.nil_append, List.append_nil] at hread
  rw [parse?, hread]
  rfl

end Json

end JsoniqLexer

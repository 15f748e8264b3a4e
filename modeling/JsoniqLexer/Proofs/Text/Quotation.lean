import JsoniqLexer.Proofs.Text.Numerals
import JsoniqLexer.Text.Json
import JsoniqLexer.Text.Quoted

/-!
# Reading quoted texts

A quoted text stands between double quotes. In it some characters are written by a name after a
backslash, any character may be written by its code after `\u`, and plain characters stand for
themselves. A `Quotation` says which names there are, which form codes have and which characters are
plain; its reader takes a quoted text off the beginning of a text (`Quotation.read?`).

Whatever a writer of characters keeps to (`Quotation.Writes`) is read back, whatever follows it
(`Quotation.read?_quoted`). So it is with the quoted forms of token listings (`read?_encode_braced`)
and of JSON (`read?_encode_json`).
-/

set_option autoImplicit false

namespace JsoniqLexer.Text

/-- The character with a code point, if it is one. -/
def charOf? (n : Nat) : Option Char := if n.isValidChar then some (Char.ofNat n) else none

theorem charOf?_toNat (c : Char) : charOf? c.toNat = some c := by
  have hvalid : c.toNat.isValidChar := c.valid
  rw [charOf?, if_pos hvalid, Char.ofNat_toNat]

/-- A form of quoted texts: the names that stand for characters after a backslash, the form of the
codes after `\u`, and the characters that may stand for themselves. -/
structure Quotation where
  names : List (Char × Char)
  code : Reader Char
  isPlain : Char → Bool

namespace Quotation

variable (q : Quotation)

/-- The character at the beginning of a text, in any form, and what follows it. -/
def readChar? : Text → Option (Char × Text)
  | [] => none
  | '\\' :: 'u' :: rest => q.code.next? rest
  | '\\' :: name :: rest => (q.names.lookup name).map fun c => (c, rest)
  | c :: rest => if c ≠ '"' ∧ c ≠ '\\' ∧ q.isPlain c = true then some (c, rest) else none

theorem length_lt_of_readChar? {text rest : Text} {c : Char} (h : q.readChar? text = some (c, rest)) :
    rest.length < text.length := by
  rw [readChar?.eq_def] at h
  split at h
  · cases h
  · next code =>
    have hlt := q.code.shorter h
    simp only [List.length_cons]
    omega
  · next name after _ =>
    obtain ⟨d, -, heq⟩ := Option.map_eq_some_iff.1 h
    cases heq
    simp only [List.length_cons]
    omega
  · next d after _ _ =>
    split at h
    · cases h
      exact Nat.lt_succ_self _
    · cases h

/-- Reads characters between quotes. -/
def charReader : Reader Char := ⟨q.readChar?, q.length_lt_of_readChar?⟩

/-- The quoted text at the beginning of a text, and what follows it. -/
def read? (text : Text) : Option (Text × Text) :=
  match after? ['"'] text with
  | none => none
  | some inner => (after? ['"'] (q.charReader.all inner).2).map fun rest =>
      ((q.charReader.all inner).1, rest)

theorem length_lt_of_read? {text rest inner : Text} (h : q.read? text = some (inner, rest)) :
    rest.length < text.length := by
  rw [read?] at h
  split at h
  · cases h
  · next body hbody =>
    obtain ⟨tail, htail, heq⟩ := Option.map_eq_some_iff.1 h
    cases heq
    have hopening := length_le_of_after? hbody
    have hclosing := length_le_of_after? htail
    have hle := q.charReader.length_all_le body
    rw [List.length_singleton] at hopening hclosing
    omega

/-- The form in which a writer may write a character: by a name, by a code, or as it is. -/
inductive Form (c : Char) : Text → Prop
  | named {name : Char} : name ≠ 'u' → q.names.lookup name = some c → Form c ['\\', name]
  | coded {code : Text} : (∀ rest, q.code.next? (code ++ rest) = some (c, rest)) →
      Form c ('\\' :: 'u' :: code)
  | plain : c ≠ '"' → c ≠ '\\' → q.isPlain c = true → Form c [c]

/-- The writer writes every character in a form that is read. -/
def Writes (write : Char → Text) : Prop := ∀ c, q.Form c (write c)

variable {q}

theorem Form.readChar?_append {c : Char} {text : Text} (h : q.Form c text) (rest : Text) :
    q.readChar? (text ++ rest) = some (c, rest) := by
  cases h with
  | named hname hlookup =>
      rw [List.cons_append, List.cons_append, List.nil_append, readChar?, hlookup]
      · rfl
      · exact hname
  | coded hcode =>
      rw [List.cons_append, List.cons_append, readChar?]
      exact hcode rest
  | plain hquote hbackslash hplain =>
      rw [List.singleton_append, readChar?]
      · exact if_pos ⟨hquote, hbackslash, hplain⟩
      · rintro _ rfl
        exact absurd rfl hbackslash
      · rintro _ _ rfl
        exact absurd rfl hbackslash

/-- No character begins with a quote. -/
theorem readChar?_quote (q : Quotation) (rest : Text) : q.readChar? ('"' :: rest) = none := by
  rw [readChar?]
  · exact if_neg fun h => h.1 rfl
  · rintro _ ⟨⟩
  · rintro _ _ ⟨⟩

/-- What a writer writes is read back, whatever follows it. -/
theorem read?_quoted {write : Char → Text} (h : q.Writes write) (text rest : Text) :
    q.read? ('"' :: text.flatMap write ++ ['"'] ++ rest) = some (text, rest) := by
  have hreads : q.charReader.Reads (text.flatMap write) text := by
    have heach : ∀ c, q.charReader.Reads (write c) [c] := by
      intro c
      apply Reader.reads_single
      exact (h c).readChar?_append
    have hall := Reader.reads_flatMap heach text
    rwa [List.flatMap_singleton'] at hall
  have hinner : q.charReader.all (text.flatMap write ++ '"' :: rest) = (text, '"' :: rest) :=
    hreads.all_append (readChar?_quote q rest)
  have hopening : after? ['"'] ('"' :: text.flatMap write ++ ['"'] ++ rest) =
      some (text.flatMap write ++ '"' :: rest) := by
    rw [after?_eq_some_iff]
    simp
  have hclosing : after? ['"'] ('"' :: rest) = some rest := after?_append ['"'] rest
  rw [read?, hopening]
  simp only [hinner, hclosing, Option.map_some]

end Quotation

/-! ## Quoted texts of listings -/

/-- The names of characters in token listings. -/
def Quoted.names : List (Char × Char) :=
  [ ('"', '"'), ('\\', '\\'), ('n', '\n'), ('r', '\r'), ('t', '\t'), ('0', '\x00'), ('\'', '\'') ]

/-- A code point in braces. -/
def Quoted.readCode? (text : Text) : Option (Char × Text) :=
  match after? ['\x7b'] text with
  | none => none
  | some inner =>
      match readNumeral? 16 inner with
      | none => none
      | some (n, tail) =>
          match charOf? n, after? ['\x7d'] tail with
          | some c, some rest => some (c, rest)
          | _, _ => none

theorem Quoted.length_lt_of_readCode? {text rest : Text} {c : Char}
    (h : readCode? text = some (c, rest)) : rest.length < text.length := by
  rw [readCode?] at h
  split at h
  · cases h
  · next inner hinner =>
    split at h
    · cases h
    · next n tail hnumeral =>
      split at h
      · next d after hchar hafter =>
        cases h
        have hopening := length_le_of_after? hinner
        have hdigits := length_lt_of_readNumeral? hnumeral
        have hclosing := length_le_of_after? hafter
        omega
      · cases h

/-- The quoted texts of token listings: any character may stand for itself, and codes stand in
braces. -/
def Quotation.braced : Quotation where
  names := Quoted.names
  code := ⟨Quoted.readCode?, Quoted.length_lt_of_readCode?⟩
  isPlain _ := true

theorem Quoted.readCode?_append (c : Char) (rest : Text) :
    readCode? ('\x7b' :: hexDigits c.toNat ++ ['\x7d'] ++ rest) = some (c, rest) := by
  have hopening : after? ['\x7b'] ('\x7b' :: hexDigits c.toNat ++ ['\x7d'] ++ rest) =
      some (hexDigits c.toNat ++ '\x7d' :: rest) := by
    rw [after?_eq_some_iff]
    simp
  have hbrace : ∀ d ∈ ('\x7d' :: rest).head?, isDigitOf 16 d = false :=
    forall_head?_cons (by decide) rest
  have hnumeral : readNumeral? 16 (hexDigits c.toNat ++ '\x7d' :: rest) =
      some (c.toNat, '\x7d' :: rest) := by
    rw [hexDigits]
    exact readNumeral?_toDigits (by decide) (by decide) hbrace
  have hclosing : after? ['\x7d'] ('\x7d' :: rest) = some rest := after?_append ['\x7d'] rest
  rw [readCode?, hopening]
  simp only [hnumeral, charOf?_toNat, hclosing]

/-- The listing writes characters in forms that are read back. -/
theorem Quoted.writes_escape : Quotation.braced.Writes escape := by
  intro c
  rw [escape.eq_def]
  split
  · exact .named (by decide) rfl
  · exact .named (by decide) rfl
  · exact .named (by decide) rfl
  · exact .named (by decide) rfl
  · exact .named (by decide) rfl
  · exact .named (by decide) rfl
  · next hquote hbackslash hnewline hreturn htab hnul =>
    split
    · exact .coded (readCode?_append c)
    · exact .plain hquote hbackslash rfl

/-- A quoted text of a listing is read back. -/
theorem read?_encode_braced (text rest : Text) :
    Quotation.braced.read? (Quoted.encode text ++ rest) = some (text, rest) :=
  Quotation.read?_quoted Quoted.writes_escape text rest

/-- A quoted text of a listing stands on one line. -/
theorem Quoted.newline_not_mem_encode (text : Text) : '\n' ∉ encode text := by
  have hdigits (n : Nat) : '\n' ∉ hexDigits n :=
    newline_not_mem_toDigits (by decide) (by decide) n
  have hcode (c : Char) : '\n' ∉ codePoint c := by
    rw [codePoint, List.mem_append, List.mem_append]
    rintro ((hopening | hmem) | hclosing)
    · revert hopening
      decide
    · exact hdigits c.toNat hmem
    · revert hclosing
      decide
  have hescape (c : Char) : '\n' ∉ escape c := by
    rw [escape.eq_def]
    split
    · decide
    · decide
    · decide
    · decide
    · decide
    · decide
    · next hquote hbackslash hnewline hreturn htab hnul =>
      split
      · exact hcode c
      · intro hmem
        exact hnewline (List.mem_singleton.1 hmem).symm
  rw [encode, List.mem_append, List.mem_cons]
  rintro ((hopening | hmem) | hclosing)
  · revert hopening
    decide
  · obtain ⟨c, -, hc⟩ := List.mem_flatMap.1 hmem
    exact hescape c hc
  · revert hclosing
    decide

/-! ## Quoted texts of JSON -/

/-- The names of characters in JSON. -/
def Json.names : List (Char × Char) :=
  [ ('"', '"'), ('\\', '\\'), ('/', '/'), ('b', '\x08'), ('f', '\x0c'), ('n', '\n'), ('r', '\r'),
    ('t', '\t') ]

/-- Four hexadecimal digits. -/
def Json.readUnit? (text : Text) : Option (Nat × Text) :=
  if (text.take 4).length = 4 ∧ (text.take 4).all (isDigitOf 16) = true then
    some (numeralValue 16 (text.take 4), text.drop 4)
  else none

/-- A character by its code: one unit, or two units that make up a surrogate pair. -/
def Json.readCode? (text : Text) : Option (Char × Text) :=
  match readUnit? text with
  | none => none
  | some (high, tail) =>
      if 0xD800 ≤ high ∧ high < 0xDC00 then
        match (after? ['\\', 'u'] tail).bind readUnit? with
        | none => none
        | some (low, rest) =>
            if 0xDC00 ≤ low ∧ low < 0xE000 then
              (charOf? (0x10000 + (high - 0xD800) * 0x400 + (low - 0xDC00))).map fun c => (c, rest)
            else none
      else (charOf? high).map fun c => (c, tail)

example : Json.readCode? "d83d\\ude00!".toList = some ('😀', ['!']) := by decide

theorem Json.length_lt_of_readUnit? {text rest : Text} {n : Nat}
    (h : readUnit? text = some (n, rest)) : rest.length < text.length := by
  rw [readUnit?] at h
  split at h
  · next hdigits =>
    cases h
    have hfour := hdigits.1
    rw [List.length_take] at hfour
    rw [List.length_drop]
    omega
  · cases h

theorem Json.length_lt_of_readCode? {text rest : Text} {c : Char}
    (h : readCode? text = some (c, rest)) : rest.length < text.length := by
  rw [readCode?] at h
  split at h
  · cases h
  · next high tail hhigh =>
    have hlt := length_lt_of_readUnit? hhigh
    split at h
    · split at h
      · cases h
      · next low after hlow =>
        obtain ⟨inner, hinner, hlow⟩ := Option.bind_eq_some_iff.1 hlow
        have hmark := length_le_of_after? hinner
        have hlt' := length_lt_of_readUnit? hlow
        split at h
        · obtain ⟨d, -, heq⟩ := Option.map_eq_some_iff.1 h
          cases heq
          omega
        · cases h
    · obtain ⟨d, -, heq⟩ := Option.map_eq_some_iff.1 h
      cases heq
      exact hlt

/-- The strings of JSON: no control character stands for itself. -/
def Quotation.json : Quotation where
  names := Json.names
  code := ⟨Json.readCode?, Json.length_lt_of_readCode?⟩
  isPlain c := decide (0x20 ≤ c.toNat)

/-- The code of a control character is read back. -/
theorem Json.readCode?_append {c : Char} (h : c.toNat < 0x20) (rest : Text) :
    readCode? (fourDigits c.toNat ++ rest) = some (c, rest) := by
  have hall : ∀ n < 0x20, (fourDigits n).length = 4 ∧ (fourDigits n).all (isDigitOf 16) = true ∧
      numeralValue 16 (fourDigits n) = n := by
    decide
  obtain ⟨hlength, hdigits, hvalue⟩ := hall c.toNat h
  have htake : (fourDigits c.toNat ++ rest).take 4 = fourDigits c.toNat := by
    rw [← hlength, List.take_left]
  have hdrop : (fourDigits c.toNat ++ rest).drop 4 = rest := by
    rw [← hlength, List.drop_left]
  have hunit : readUnit? (fourDigits c.toNat ++ rest) = some (c.toNat, rest) := by
    rw [readUnit?, htake, hdrop, if_pos ⟨hlength, hdigits⟩, hvalue]
  have hlow : ¬ (0xD800 ≤ c.toNat ∧ c.toNat < 0xDC00) := by omega
  rw [readCode?, hunit]
  simp only [if_neg hlow, charOf?_toNat, Option.map_some]

/-- JSON writes characters in forms that are read back. -/
theorem Json.writes_escape : Quotation.json.Writes escape := by
  intro c
  rw [escape.eq_def]
  split
  · exact .named (by decide) rfl
  · exact .named (by decide) rfl
  · exact .named (by decide) rfl
  · exact .named (by decide) rfl
  · exact .named (by decide) rfl
  · exact .named (by decide) rfl
  · exact .named (by decide) rfl
  · next hquote hbackslash hback hfeed hnewline hreturn htab =>
    split
    · next hcontrol => exact .coded (readCode?_append hcontrol)
    · next hcontrol => exact .plain hquote hbackslash (decide_eq_true (by omega))

/-- A string of JSON is read back. -/
theorem read?_encode_json (text rest : Text) :
    Quotation.json.read? (Json.encode text ++ rest) = some (text, rest) :=
  Quotation.read?_quoted Json.writes_escape text rest

end JsoniqLexer.Text

import JsoniqLexer.Pattern.Assertion
import JsoniqLexer.Pattern.Classes

/-!
# Escapes of the pattern language

What may follow a backslash: a punctuation character, which then stands for itself, a letter for a
control character, a code point in hexadecimal, a named class, or an assertion. Digits and all other
letters are refused.
-/

set_option autoImplicit false

namespace JsoniqLexer.Pattern

/-- What an escape stands for. -/
inductive Escape where
  | char (c : Char)
  /-- Any character of a set. -/
  | set (s : CharSet)
  | assertion (a : Assertion)
deriving DecidableEq, Repr

namespace Escape

/-- The characters that an escape stands for, if it stands for characters. -/
def members? : Escape → Option CharSet
  | .char c => some (.single c)
  | .set s => some s
  | .assertion _ => none

/-- The punctuation that has a meaning of its own in patterns. -/
def isMeta (c : Char) : Bool := "\\.+*?()|[]\x7b\x7d^$#&-~".toList.contains c

/-- ASCII characters that stand for themselves after a backslash: all but letters, digits and the
angle brackets. -/
def isPunctuation (c : Char) : Bool :=
  decide (c.toNat < 0x80) && !c.isAlphanum && c != '<' && c != '>'

/-- The control character that a letter names. -/
def control? (letter : Char) : Option Char :=
  match letter with
  | 'a' => some '\x07'
  | 'f' => some '\x0c'
  | 't' => some '\t'
  | 'n' => some '\n'
  | 'r' => some '\r'
  | 'v' => some '\x0b'
  | _ => none

/-- The value of a hexadecimal digit. -/
def hexValue? (c : Char) : Option Nat :=
  if '0' ≤ c ∧ c ≤ '9' then some (c.toNat - '0'.toNat)
  else if 'a' ≤ c ∧ c ≤ 'f' then some (c.toNat - 'a'.toNat + 10)
  else if 'A' ≤ c ∧ c ≤ 'F' then some (c.toNat - 'A'.toNat + 10)
  else none

/-- The character of a code point; there is none for surrogates and beyond the last one. -/
def charOf? (n : Nat) : Option Char := if n.isValidChar then some (Char.ofNat n) else none

/-- Reads exactly `count` hexadecimal digits. -/
def readDigits (flags : Flags) : (count value : Nat) → Text → Option (Nat × Text)
  | 0, value, text => some (value, text)
  | _ + 1, _, [] => none
  | count + 1, value, c :: rest =>
      match hexValue? c with
      | some digit => readDigits flags count (16 * value + digit) (flags.skip rest)
      | none => none

/-- Reads hexadecimal digits up to a closing brace; at least one is needed. `fuel` bounds the number
of characters. -/
def readBraced (flags : Flags) : (fuel : Nat) → (value? : Option Nat) → Text → Option (Nat × Text)
  | 0, _, _ => none
  | fuel + 1, value?, text =>
      match flags.skip text with
      | [] => none
      | '}' :: rest => value?.map fun value => (value, flags.skip rest)
      | c :: rest =>
          match hexValue? c with
          | some digit => readBraced flags fuel (some (16 * value?.getD 0 + digit)) rest
          | none => none

/-- Reads a code point after its letter: braced digits, or as many as the letter asks for. Two
digits alone name a byte, which without Unicode has to be ASCII. -/
def readCodePoint (flags : Flags) (digits : Nat) (text : Text) : Option (Escape × Text) :=
  match flags.skip text with
  | '{' :: rest =>
      (readBraced flags (rest.length + 1) none rest).bind fun (value, rest) =>
        (charOf? value).map fun c => (.char c, rest)
  | text =>
      (readDigits flags digits 0 text).bind fun (value, rest) =>
        if digits = 2 ∧ !flags.unicode ∧ 0x7F < value then none
        else (charOf? value).map fun c => (.char c, rest)

/-- Reads the name of a property up to the closing brace. `name` is what has been read, last character
first, and `fuel` bounds the number of characters. -/
def readBracedName (flags : Flags) : (fuel : Nat) → (name : Text) → Text → Option (Text × Text)
  | 0, _, _ => none
  | fuel + 1, name, text =>
      match flags.skip text with
      | [] => none
      | '}' :: rest => some (name.reverse, rest)
      | c :: rest => readBracedName flags fuel (c :: name) rest

/-- Reads the name of a property after its letter: one character, or what stands between braces. -/
def readName (flags : Flags) (text : Text) : Option (Text × Text) :=
  match flags.skip text with
  | [] => none
  | '{' :: rest => readBracedName flags (rest.length + 1) [] rest
  | '\\' :: _ => none
  | c :: rest => some ([c], flags.skip rest)

/-- Reads a property after its letter. -/
def readProperty (classes : Classes) (flags : Flags) (negated : Bool) (text : Text) :
    Option (Escape × Text) :=
  (readName flags text).bind fun (name, rest) =>
    (classes.propertySet? flags name negated).map fun s => (.set s, rest)

/-- The alphabet of word characters. -/
def alphabet (flags : Flags) : WordAlphabet := if flags.unicode then .unicode else .ascii

/-- A letter or a hyphen, of which names of word edges are made. -/
def isEdgeLetter (c : Char) : Bool := c.isAlpha || c = '-'

/-- The word edges that have names. -/
def namedEdge? (name : Text) : Option WordEdge :=
  if name = "start".toList then some .wordStart
  else if name = "end".toList then some .wordEnd
  else if name = "start-half".toList then some .halfStart
  else if name = "end-half".toList then some .halfEnd
  else none

/-- Reads the name of a word edge up to the closing brace. -/
def readEdgeName (flags : Flags) : (fuel : Nat) → (name : Text) → Text → Option (WordEdge × Text)
  | 0, _, _ => none
  | _ + 1, _, [] => none
  | fuel + 1, name, c :: rest =>
      if c = '}' then (namedEdge? name.reverse).map fun edge => (edge, rest)
      else if isEdgeLetter c then readEdgeName flags fuel (c :: name) (flags.skip rest)
      else none

/-- Reads what may follow the letter of a word boundary: the name of an edge in braces. A brace
followed by anything but a letter or a hyphen opens a repetition and is left alone. -/
def readBoundary (flags : Flags) (text : Text) : Option (WordEdge × Text) :=
  match text with
  | '{' :: rest =>
      match flags.skip rest with
      | [] => none
      | c :: tail =>
          if isEdgeLetter c then readEdgeName flags (tail.length + 2) [] (c :: tail)
          else some (.boundary, text)
  | _ => some (.boundary, text)

/-- Reads an escape after its backslash. -/
def read? (classes : Classes) (flags : Flags) (text : Text) : Option (Escape × Text) :=
  match text with
  | [] => none
  | 'x' :: rest => readCodePoint flags 2 rest
  | 'u' :: rest => readCodePoint flags 4 rest
  | 'U' :: rest => readCodePoint flags 8 rest
  | 'p' :: rest => readProperty classes flags false rest
  | 'P' :: rest => readProperty classes flags true rest
  | 'A' :: rest => some (.assertion .textStart, rest)
  | 'z' :: rest => some (.assertion .textEnd, rest)
  | 'b' :: rest =>
      (readBoundary flags rest).map fun (edge, rest) =>
        (.assertion (.word edge (alphabet flags)), rest)
  | 'B' :: rest => some (.assertion (.word .noBoundary (alphabet flags)), rest)
  | '<' :: rest => some (.assertion (.word .wordStart (alphabet flags)), rest)
  | '>' :: rest => some (.assertion (.word .wordEnd (alphabet flags)), rest)
  | c :: rest =>
      if isPunctuation c then some (.char c, rest)
      else
        match LetterClass.ofLetter? c with
        | some (named, negated) =>
            (classes.letterSet? flags named negated).map fun s => (.set s, rest)
        | none => (control? c).map fun control => (.char control, rest)

end Escape

end JsoniqLexer.Pattern

import JsoniqLexer.Pattern.Escape
import JsoniqLexer.Pattern.Nested

/-!
# Bracketed classes

A class lists characters, ranges, named classes and further classes between square brackets, and
combines such lists by `&&`, `--` and `~~`, which group from the left. A class that is being read
is a `Bracket`; those around it wait in a list, innermost first.
-/

set_option autoImplicit false

namespace JsoniqLexer.Pattern

/-- The operators between the lists of a class. -/
inductive SetOp where
  | inter
  | diff
  | symmDiff
deriving DecidableEq, Repr

/-- The set that an operator makes of two sets. -/
def SetOp.apply : SetOp → CharSet → CharSet → CharSet
  | .inter => CharSet.inter
  | .diff => CharSet.diff
  | .symmDiff => CharSet.symmDiff

/-- A class as far as it has been read: an operator waiting for its second operand, and the items
read since, last one first. -/
structure Bracket where
  negated : Bool
  operand : Option (SetOp × Nested CharSet)
  items : List (Nested CharSet)
deriving DecidableEq, Repr

namespace Bracket

/-- One more item in the current list. -/
def add (b : Bracket) (s : Nested CharSet) : Bracket := { b with items := s :: b.items }

/-- One more item in the current list, which is a set. -/
def addSet (b : Bracket) (s : CharSet) : Bracket := b.add ⟨s, 0⟩

/-- The current list: a character belongs to it if it belongs to one of the items. -/
def list (b : Bracket) : Nested CharSet :=
  .ofList (fun sets => sets.foldl CharSet.union .empty) b.items

/-- The lists read so far, combined. -/
def value (flags : Flags) (b : Bracket) : Nested CharSet :=
  match b.operand with
  | none => b.list
  | some (op, left) =>
      ⟨op.apply (flags.fold left.value) (flags.fold b.list.value),
        Nested.listDepth [left.depth, b.list.depth]⟩

/-- The class after one more operator. -/
def withOperator (flags : Flags) (b : Bracket) (op : SetOp) : Bracket :=
  { b with operand := some (op, b.value flags), items := [] }

/-- The named ASCII classes. -/
def namedClass? (name : Text) : Option CharSet :=
  let named : List (String × List (Char × Char)) :=
    [ ("alnum", [('0', '9'), ('A', 'Z'), ('a', 'z')]),
      ("alpha", [('A', 'Z'), ('a', 'z')]),
      ("ascii", [('\x00', '\x7f')]),
      ("blank", [('\t', '\t'), (' ', ' ')]),
      ("cntrl", [('\x00', '\x1f'), ('\x7f', '\x7f')]),
      ("digit", LetterClass.digit.asciiRanges),
      ("graph", [('!', '~')]),
      ("lower", [('a', 'z')]),
      ("print", [(' ', '~')]),
      ("punct", [('!', '/'), (':', '@'), ('[', '\x60'), ('\x7b', '~')]),
      ("space", LetterClass.space.asciiRanges),
      ("upper", [('A', 'Z')]),
      ("word", LetterClass.word.asciiRanges),
      ("xdigit", [('0', '9'), ('A', 'F'), ('a', 'f')]) ]
  (named.find? fun entry => entry.1.toList == name).map fun entry => .ofRanges entry.2

/-- Reads the rest of a named class after `[`; `none` where the text is not one. -/
def readNamed? (text : Text) : Option (Bool × CharSet × Text) :=
  match text with
  | ':' :: text =>
      let (negated, text) := match text with
        | '^' :: rest => (true, rest)
        | _ => (false, text)
      match text.dropWhile (· != ':') with
      | ':' :: ']' :: rest =>
          (namedClass? (text.takeWhile (· != ':'))).map fun set => (negated, set, rest)
      | _ => none
  | _ => none

/-- Reads the hyphens that a class may begin with. -/
def readHyphens (flags : Flags) : (fuel : Nat) → Bracket → Text → Bracket × Text
  | 0, b, text => (b, text)
  | fuel + 1, b, text =>
      match text with
      | '-' :: rest => readHyphens flags fuel (b.addSet (.single '-')) (flags.skip rest)
      | _ => (b, text)

/-- Reads the beginning of a class after its bracket: a caret negates, leading hyphens stand for
themselves, and so does a closing bracket that comes first of all. -/
def readOpening (flags : Flags) (text : Text) : Bracket × Text :=
  let (negated, text) := match flags.skip text with
    | '^' :: rest => (true, flags.skip rest)
    | text => (false, text)
  let (b, text) := readHyphens flags text.length ⟨negated, none, []⟩ text
  match text with
  | ']' :: rest =>
      if b.items = [] then (b.addSet (.single ']'), flags.skip rest) else (b, text)
  | _ => (b, text)

/-- What may stand in a class: a set, or a character, which without Unicode has to be ASCII. -/
def isMember (flags : Flags) : Escape → Bool
  | .char c => flags.unicode || decide (c.toNat ≤ 0x7F)
  | .set _ => true
  | .assertion _ => false

/-- Reads one character of a class, or an escape that stands for several. -/
def readMember (classes : Classes) (flags : Flags) (text : Text) : Option (Escape × Text) :=
  let member : Option (Escape × Text) := match text with
    | [] => none
    | '\\' :: rest => Escape.read? classes flags rest
    | c :: rest => some (.char c, rest)
  member.filter fun (e, _) => isMember flags e

/-- The first character that means something after a hyphen. A comment counts from its second
character on. -/
def peek (flags : Flags) (text : Text) : Option Char :=
  if flags.verbose then
    match text.dropWhile Unicode.isWhiteSpace with
    | '#' :: rest => (rest.dropWhile Unicode.isWhiteSpace).head?
    | rest => rest.head?
  else text.head?

/-- Reads a character, an escape that stands for several, or a range, whose ends are characters. A
hyphen before a closing bracket or before another hyphen makes no range. -/
def readRange (classes : Classes) (flags : Flags) (text : Text) : Option (CharSet × Text) :=
  (readMember classes flags text).bind fun (first, text) =>
    match flags.skip text with
    | '-' :: rest =>
        if peek flags rest = some ']' ∨ peek flags rest = some '-' then
          first.members?.map fun s => (s, '-' :: rest)
        else
          (readMember classes flags (flags.skip rest)).bind fun (last, rest) =>
            match first, last with
            | .char first, .char last =>
                if first ≤ last then some (.range first last, rest) else none
            | _, _ => none
    | text => first.members?.map fun s => (s, text)

/-- Reads on in a class, `outer` being the classes around it, to the bracket that closes the
outermost one. `fuel` bounds the number of characters. -/
def readItems (classes : Classes) (flags : Flags) :
    (fuel : Nat) → (b : Bracket) → (outer : List Bracket) → Text →
      Option (Nested CharSet × Text)
  | 0, _, _, _ => none
  | fuel + 1, b, outer, text =>
      match flags.skip text with
      | [] => none
      | '[' :: rest =>
          match readNamed? rest with
          | some (negated, set, rest) =>
              (flags.close? negated set).bind fun set =>
                readItems classes flags fuel (b.addSet set) outer rest
          | none =>
              let (inner, rest) := readOpening flags rest
              readItems classes flags fuel inner (b :: outer) rest
      | ']' :: rest =>
          let value := b.value flags
          (flags.close? b.negated value.value).bind fun set =>
            let closed := value.wrap fun _ => set
            match outer with
            | [] => some (closed, rest)
            | b :: outer => readItems classes flags fuel (b.add closed) outer rest
      | '&' :: '&' :: rest => readItems classes flags fuel (b.withOperator flags .inter) outer rest
      | '-' :: '-' :: rest => readItems classes flags fuel (b.withOperator flags .diff) outer rest
      | '~' :: '~' :: rest => readItems classes flags fuel (b.withOperator flags .symmDiff) outer rest
      | text =>
          (readRange classes flags text).bind fun (set, rest) =>
            readItems classes flags fuel (b.addSet set) outer rest

/-- Reads a class after its opening bracket. -/
def read? (classes : Classes) (flags : Flags) (text : Text) : Option (Nested CharSet × Text) :=
  let (b, rest) := readOpening flags text
  readItems classes flags (text.length + 1) b [] rest

end Bracket

end JsoniqLexer.Pattern

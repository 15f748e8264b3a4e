import JsoniqLexer.Pattern.CharSet
import JsoniqLexer.Pattern.Flags
import JsoniqLexer.Unicode.WhiteSpace
import JsoniqLexer.Unicode.WordCharacter

/-!
# Named classes

After a backslash, six letters stand for the digits, the white space and the word characters and for
their complements, and the letter `p` for the characters that have a property. Without Unicode the
six stand for ASCII characters; properties and complements, which would reach beyond ASCII, are
refused. Which characters a class holds is a matter of tables, and these are an argument of the reader
of patterns (`Classes`): what is proved of patterns in general holds for any tables. `Classes.unicode`
has the three classes of Unicode 16, and a few of the properties.
-/

set_option autoImplicit false

namespace JsoniqLexer.Pattern

/-- A set closed under case, where the flags ask for it. -/
def Flags.fold (flags : Flags) (s : CharSet) : CharSet :=
  if flags.foldCase then (if flags.unicode then s.foldCase else s.foldAsciiCase) else s

/-- A set or its complement, closed under case before it is complemented. Without Unicode a
complement would reach beyond ASCII and is refused. -/
def Flags.close? (flags : Flags) (negated : Bool) (s : CharSet) : Option CharSet :=
  if negated then (if flags.unicode then some (flags.fold s).compl else none)
  else some (flags.fold s)

/-- A class that a letter stands for. -/
inductive LetterClass where
  | digit
  | space
  | word
deriving DecidableEq, Repr

namespace LetterClass

/-- The class of a letter, and whether the letter stands for its complement. -/
def ofLetter? (letter : Char) : Option (LetterClass × Bool) :=
  match letter with
  | 'd' => some (.digit, false)
  | 'D' => some (.digit, true)
  | 's' => some (.space, false)
  | 'S' => some (.space, true)
  | 'w' => some (.word, false)
  | 'W' => some (.word, true)
  | _ => none

/-- The ASCII characters of the class. -/
def asciiRanges : LetterClass → List (Char × Char)
  | .digit => [('0', '9')]
  | .space => [('\t', '\r'), (' ', ' ')]
  | .word => [('0', '9'), ('A', 'Z'), ('_', '_'), ('a', 'z')]

end LetterClass

/-- The characters of the named classes. -/
structure Classes where
  letter : LetterClass → CharSet
  /-- The characters with a property, given the text that stands for it: one letter, or all that is
  written between braces. -/
  property? : Text → Option CharSet

namespace Classes

/-- What a class letter stands for. The classes are closed under case as they are. -/
def letterSet? (classes : Classes) (flags : Flags) (named : LetterClass) (negated : Bool) :
    Option CharSet :=
  if flags.unicode then
    some (if negated then (classes.letter named).compl else classes.letter named)
  else if negated then none
  else some (.ofRanges named.asciiRanges)

/-- The characters that have a property, or those that do not have it. -/
def propertySet? (classes : Classes) (flags : Flags) (name : Text) (negated : Bool) :
    Option CharSet :=
  if flags.unicode then (classes.property? name).bind (flags.close? negated) else none

/-- A property name without what does not count in it: `is` at its beginning, blanks, hyphens and
underscores, characters that are not ASCII, and case. -/
def looseName (name : Text) : Text :=
  let name := match name with
    | i :: s :: rest => if i.toLower = 'i' ∧ s.toLower = 's' then rest else name
    | _ => name
  (name.filter fun c => c != ' ' && c != '_' && c != '-' && decide (c.toNat < 0x80)).map Char.toLower

/-- The properties of which there are tables, by their names and the short forms of these. -/
def properties : List (String × CharSet) :=
  [ ("any", .all),
    ("ascii", .range '\x00' '\x7f'),
    ("decimalnumber", .ofTable Unicode.decimalRanges),
    ("digit", .ofTable Unicode.decimalRanges),
    ("nd", .ofTable Unicode.decimalRanges),
    ("space", .ofTable Unicode.whiteSpaceRanges),
    ("whitespace", .ofTable Unicode.whiteSpaceRanges),
    ("wspace", .ofTable Unicode.whiteSpaceRanges) ]

/-- The classes of Unicode 16, with the properties of which there are tables. -/
def unicode : Classes where
  letter
    | .digit => .ofTable Unicode.decimalRanges
    | .space => .ofTable Unicode.whiteSpaceRanges
    | .word => .ofTable Unicode.wordRanges
  property? name :=
    (properties.find? fun entry => entry.1.toList == looseName name).map fun entry => entry.2

end Classes

end JsoniqLexer.Pattern

import JsoniqLexer.Pattern.Bracket
import JsoniqLexer.Pattern.Expr
import JsoniqLexer.Unicode.Alphanumeric

/-!
# Reading a pattern

A pattern is read by a machine that takes one construct per step: `Reader.step` reads a character,
an escape, a class, a repetition, an anchor, a bar, or the opening or closing of a group. The reader
keeps the parts of the branch it is in, the finished branches of the group it is in, and, innermost
first, what surrounds each open group. `Classes.parse?` runs it to the end; a text that is not a
pattern, or nests too deep, has no expression. What the named classes hold is an argument throughout;
`parse?` takes the classes of Unicode.
-/

set_option autoImplicit false

namespace JsoniqLexer.Pattern

/-- A part of a branch. -/
inductive Part where
  | expr (e : Nested Expr)
  /-- A change of flags, which matches the empty text and cannot be repeated. -/
  | directive
deriving DecidableEq, Repr

/-- What a part contributes to its branch. -/
def Part.content : Part → Nested Expr
  | .expr e => e
  | .directive => ⟨.empty, 0⟩

/-- What surrounds an open group: the flags to go back to, the number of the group if it has one,
and the branches and parts before it, last one first. -/
structure Surrounding where
  flags : Flags
  capture : Option Nat
  branches : List (Nested Expr)
  parts : List Part

/-- A pattern that has been read up to `rest`. Branches, parts and names are listed last one
first. -/
structure Reader where
  rest : Text
  flags : Flags := {}
  branches : List (Nested Expr) := []
  parts : List Part := []
  outer : List Surrounding := []
  captures : Nat := 0
  names : List Text := []

namespace Reader

/-- The branch that is being read. -/
def branch (r : Reader) : Nested Expr := .ofList Expr.sequence (r.parts.reverse.map Part.content)

/-- The body of the group that is being read. -/
def body (r : Reader) : Nested Expr :=
  match r.branches with
  | [] => r.branch
  | branches => .ofList Expr.alternation (r.branch :: branches).reverse

/-- One more part, with what follows it. -/
def push (r : Reader) (e : Nested Expr) (rest : Text) : Reader :=
  { r with rest, parts := .expr e :: r.parts }

/-- One more part without anything in it, with what follows it. -/
def pushLeaf (r : Reader) (e : Expr) (rest : Text) : Reader := r.push ⟨e, 0⟩ rest

/-- Opens a group. -/
def openGroup (r : Reader) (flags : Flags) (capture : Option Nat) (rest : Text) : Reader :=
  { r with
    rest, flags, branches := [], parts := []
    outer := ⟨r.flags, capture, r.branches, r.parts⟩ :: r.outer
    captures := r.captures + (if capture.isSome then 1 else 0) }

/-- Closes the innermost group; `none` where none is open. -/
def closeGroup (r : Reader) (rest : Text) : Option Reader :=
  match r.outer with
  | [] => none
  | around :: outer =>
      let group := r.body.wrap fun body =>
        match around.capture with
        | some index => .capture index body
        | none => body
      some { r with
        rest, flags := around.flags, branches := around.branches
        parts := .expr group :: around.parts, outer }

/-- A character that a group name may begin with. -/
def isNameStart (c : Char) : Bool := c = '_' || Unicode.isAlphabetic c

/-- A character that a group name may go on with. -/
def isNameRest (c : Char) : Bool :=
  c = '_' || c = '.' || c = '[' || c = ']' || Unicode.isAlphanumeric c

/-- A name that a group may have. -/
def isName : Text → Bool
  | [] => false
  | c :: rest => isNameStart c && rest.all isNameRest

/-- Opens a group whose name ends at the first closing angle bracket; each name is used once. -/
def openNamed (r : Reader) (text : Text) : Option Reader :=
  let name := text.takeWhile (· != '>')
  match text.dropWhile (· != '>') with
  | '>' :: rest =>
      if isName name ∧ name ∉ r.names then
        some { r.openGroup r.flags (some (r.captures + 1)) rest with names := name :: r.names }
      else none
  | _ => none

/-- Opens a group, or changes the flags, after an opening parenthesis. Groups that look ahead or
behind are refused. -/
def openParenthesis (r : Reader) (text : Text) : Option Reader :=
  match r.flags.skip text with
  | '?' :: '=' :: _ => none
  | '?' :: '!' :: _ => none
  | '?' :: '<' :: '=' :: _ => none
  | '?' :: '<' :: '!' :: _ => none
  | '?' :: 'P' :: '<' :: rest => r.openNamed rest
  | '?' :: '<' :: rest => r.openNamed rest
  | '?' :: rest =>
      match r.flags.read? rest with
      | some (flags, .group, rest) => some (r.openGroup flags none rest)
      | some (flags, .directive, rest) =>
          some { r with rest, flags, parts := .directive :: r.parts }
      | none => none
  | rest => some (r.openGroup r.flags (some (r.captures + 1)) rest)

/-- Repeats the last part. There has to be one, and it is not a change of flags. -/
def repeatLast (r : Reader) (min : Nat) (max : Option Nat) (lazy : Bool) (rest : Text) :
    Option Reader :=
  match r.parts with
  | .expr e :: parts =>
      let copies := e.wrap fun body => body.times min max (lazy == r.flags.swapGreed)
      some { r with rest, parts := .expr copies :: parts }
  | _ => none

/-- Reads the question mark that makes a repetition lazy. -/
def readLazy : Text → Bool × Text
  | '?' :: rest => (true, rest)
  | rest => (false, rest)

/-- The largest count of a repetition. -/
def largestCount : Nat := 0xFFFFFFFF

/-- Reads decimal digits; `value?` is what has been read before. -/
def readDigits (flags : Flags) : (fuel : Nat) → (value? : Option Nat) → Text → Option Nat × Text
  | 0, value?, text => (value?, text)
  | fuel + 1, value?, text =>
      match text with
      | c :: rest =>
          if c.isDigit then
            readDigits flags fuel (some (10 * value?.getD 0 + (c.toNat - '0'.toNat)))
              (flags.skip rest)
          else (value?, text)
      | [] => (value?, text)

/-- Drops white space, and after each character of it what means nothing. -/
def dropSpace (flags : Flags) : (fuel : Nat) → Text → Text
  | 0, text => text
  | fuel + 1, text =>
      match text with
      | c :: rest => if Unicode.isWhiteSpace c then dropSpace flags fuel (flags.skip rest) else text
      | [] => []

/-- Reads a count, which may stand between blanks. -/
def readCount (flags : Flags) (text : Text) : Option (Nat × Text) :=
  let text := text.dropWhile Unicode.isWhiteSpace
  match readDigits flags (text.length + 1) none text with
  | (some count, rest) =>
      if count ≤ largestCount then some (count, dropSpace flags (rest.length + 1) rest) else none
  | (none, _) => none

/-- Reads the bounds of a repetition after its opening brace: `n`, `n,` or `n,m`. -/
def readBounds (flags : Flags) (text : Text) : Option (Nat × Option Nat × Text) :=
  (readCount flags (flags.skip text)).bind fun (min, text) =>
    match text with
    | '}' :: rest => some (min, some min, rest)
    | ',' :: rest =>
        match flags.skip rest with
        | '}' :: rest => some (min, none, rest)
        | rest =>
            (readCount flags rest).bind fun (max, text) =>
              match text with
              | '}' :: rest => if min ≤ max then some (min, some max, rest) else none
              | _ => none
    | _ => none

/-- Repeats the last part as the braces say. -/
def repeatCounted (r : Reader) (text : Text) : Option Reader :=
  (readBounds r.flags text).bind fun (min, max, rest) =>
    let (lazy, rest) := readLazy (r.flags.skip rest)
    r.repeatLast min max lazy rest

/-- A character that stands for itself, or for all that fold together with it. -/
def character (flags : Flags) (c : Char) : Expr :=
  if flags.foldCase then Expr.ofSet (flags.fold (.single c)) flags.unicode else .literal [c]

/-- The dot. Without Unicode it would match parts of characters and is refused. -/
def dot? (flags : Flags) : Option Expr :=
  if !flags.unicode then none
  else if flags.dotAll then some (.chars .all true)
  else if flags.crlf then some (.chars (CharSet.ofRanges [('\n', '\n'), ('\r', '\r')]).compl true)
  else some (.chars (CharSet.single '\n').compl true)

/-- The caret. -/
def startAnchor (flags : Flags) : Assertion :=
  if flags.multiLine then (if flags.crlf then .crlfLineStart else .lineStart) else .textStart

/-- The dollar sign. -/
def endAnchor (flags : Flags) : Assertion :=
  if flags.multiLine then (if flags.crlf then .crlfLineEnd else .lineEnd) else .textEnd

/-- Reads one construct. -/
def step (classes : Classes) (r : Reader) : Option Reader :=
  match r.rest with
  | [] => some r
  | '(' :: rest => r.openParenthesis rest
  | ')' :: rest => r.closeGroup rest
  | '|' :: rest => some { r with rest, branches := r.branch :: r.branches, parts := [] }
  | '[' :: rest =>
      (Bracket.read? classes r.flags rest).map fun (set, rest) =>
        r.push ⟨.ofSet set.value r.flags.unicode, set.depth⟩ rest
  | '?' :: rest => let (lazy, rest) := readLazy rest; r.repeatLast 0 (some 1) lazy rest
  | '*' :: rest => let (lazy, rest) := readLazy rest; r.repeatLast 0 none lazy rest
  | '+' :: rest => let (lazy, rest) := readLazy rest; r.repeatLast 1 none lazy rest
  | '{' :: rest => r.repeatCounted rest
  | '.' :: rest => (dot? r.flags).map fun e => r.pushLeaf e rest
  | '^' :: rest => some (r.pushLeaf (.assertion (startAnchor r.flags)) rest)
  | '$' :: rest => some (r.pushLeaf (.assertion (endAnchor r.flags)) rest)
  | '\\' :: rest =>
      match Escape.read? classes r.flags rest with
      | some (.char c, rest) => some (r.pushLeaf (character r.flags c) rest)
      | some (.set s, rest) => some (r.pushLeaf (.ofSet s r.flags.unicode) rest)
      | some (.assertion a, rest) => some (r.pushLeaf (.assertion a) rest)
      | none => none
  | c :: rest => some (r.pushLeaf (character r.flags c) rest)

/-- Takes steps until nothing is left that means something. -/
def run (classes : Classes) : (fuel : Nat) → Reader → Option Reader
  | 0, r => some r
  | fuel + 1, r =>
      let r := { r with rest := r.flags.skip r.rest }
      if r.rest = [] then some r else (r.step classes).bind (run classes fuel)

/-- The expression that has been read, if all groups are closed and none is nested too deep. -/
def finish? (r : Reader) : Option Expr :=
  if r.rest = [] ∧ r.outer.isEmpty ∧ r.body.depth ≤ Nested.limit then some r.body.value else none

end Reader

/-- The expression that a pattern text stands for, given the named classes. Every step
reads a character, so the length of the text bounds the number of steps. -/
def Classes.parse? (classes : Classes) (text : Text) : Option Expr :=
  (Reader.run classes (text.length + 1) { rest := text }).bind Reader.finish?

/-- The expression that a pattern text stands for. -/
def parse? (text : Text) : Option Expr := Classes.unicode.parse? text

end JsoniqLexer.Pattern

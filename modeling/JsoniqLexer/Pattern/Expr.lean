import JsoniqLexer.Text.Utf8
import JsoniqLexer.Pattern.Assertion
import JsoniqLexer.Pattern.CharSet

/-!
# Pattern expressions

What a pattern says, once its letters have been read. Expressions are built by `sequence`,
`alternation`, `times` and `ofSet`, which keep a normal form: neighbouring literals are one literal,
a concatenation holds no concatenation and an alternation no alternation, a set with one member is a
literal, alternatives that are single characters throughout or sets throughout are one set, and
alternatives that begin with the same parts share them. Sharing comes before matching, so it decides
which alternative is preferred when the shared parts can match in more than one way.
-/

set_option autoImplicit false

namespace JsoniqLexer.Pattern

/-- A pattern expression. Concatenations and alternations are chains: the first operand is never
one itself. -/
inductive Expr where
  /-- The empty text. -/
  | empty
  /-- A text of one or more characters. -/
  | literal (text : Text)
  /-- One character of a set. A set written with the Unicode flag and one written without it are
  different expressions, also where they have the same members. -/
  | chars (set : CharSet) (unicode : Bool)
  /-- A condition on a place. -/
  | assertion (a : Assertion)
  /-- A numbered group. -/
  | capture (index : Nat) (body : Expr)
  | concat (first rest : Expr)
  | alternate (first rest : Expr)
  /-- At least `min` and at most `max` copies, as many as possible first if `greedy`. -/
  | repeated (body : Expr) (min : Nat) (max : Option Nat) (greedy : Bool)
deriving DecidableEq, Repr

namespace Expr

/-- The parts of a concatenation, in order. -/
def parts : Expr → List Expr
  | .empty => []
  | .concat first rest => first :: rest.parts
  | e => [e]

/-- The branches of an alternation, in order. -/
def branches : Expr → List Expr
  | .alternate first rest => first :: rest.branches
  | e => [e]

/-- Neighbouring literals become one. -/
def mergeLiterals : List Expr → List Expr
  | [] => []
  | .literal s :: es =>
      match mergeLiterals es with
      | .literal t :: rest => .literal (s ++ t) :: rest
      | rest => .literal s :: rest
  | e :: es => e :: mergeLiterals es

/-- A chain of concatenations. -/
def ofParts : List Expr → Expr
  | [] => .empty
  | [e] => e
  | e :: es => .concat e (ofParts es)

/-- A chain of alternations; without branches, an expression that matches nothing. -/
def ofBranches : List Expr → Expr
  | [] => .chars .empty false
  | [e] => e
  | e :: es => .alternate e (ofBranches es)

/-- One expression after the other. -/
def sequence (es : List Expr) : Expr := ofParts (mergeLiterals (es.flatMap parts))

/-- One character of a set, written with the Unicode flag or without it. There is one expression
for the set without members. -/
def ofSet (s : CharSet) (unicode : Bool) : Expr :=
  match s.onlyMember? with
  | some c => .literal [c]
  | none => .chars s (unicode && decide (s ≠ .empty))

/-- The character of a literal that has just one. -/
def character? : Expr → Option Char
  | .literal [c] => some c
  | _ => none

/-- The set of an expression that matches one character of a set. -/
def set? : Expr → Option CharSet
  | .chars s _ => some s
  | _ => none

/-- The set that the branches stand for together: all of them are single characters, or all of them
are sets. -/
def sharedSet? (branches : List Expr) : Option CharSet :=
  match branches.mapM character? with
  | some cs => some (cs.foldl (fun s c => s.union (.single c)) .empty)
  | none => (branches.mapM set?).map fun sets => sets.foldl CharSet.union .empty

/-- The longest list that both lists begin with. -/
def commonPrefix : List Expr → List Expr → List Expr
  | a :: as, b :: bs => if a = b then a :: commonPrefix as bs else []
  | _, _ => []

/-- The parts that all branches begin with, where every branch is a concatenation. -/
def sharedParts (branches : List Expr) : List Expr :=
  match branches.map parts with
  | first :: others =>
      if (first :: others).all (2 ≤ ·.length) then others.foldl commonPrefix first else []
  | [] => []

/-- The number of nodes. -/
def weight : Expr → Nat
  | .capture _ body => body.weight + 1
  | .concat first rest => first.weight + rest.weight + 1
  | .alternate first rest => first.weight + rest.weight + 1
  | .repeated body _ _ _ => body.weight + 1
  | _ => 1

/-- The first of several expressions that leads to a match, `depth` bounding how often shared
beginnings are taken out. -/
def alternationWithin : Nat → List Expr → Expr
  | 0, es => ofBranches (es.flatMap branches)
  | depth + 1, es =>
      let all := es.flatMap branches
      if all.length ≤ 1 then ofBranches all
      else
        match sharedSet? all with
        | some set => ofSet set true
        | none =>
            match sharedParts all with
            | [] => ofBranches all
            | shared =>
                let tails := all.map fun e => sequence (e.parts.drop shared.length)
                sequence (shared ++ [alternationWithin depth tails])

/-- The first of several expressions that leads to a match. Each time shared beginnings are taken
out the branches lose parts, so their number of nodes bounds the depth. -/
def alternation (es : List Expr) : Expr :=
  alternationWithin ((es.map weight).foldr (· + ·) 0) es

/-- The expression can only match the empty text. -/
def isZeroWidth : Expr → Bool
  | .empty | .assertion _ => true
  | .literal _ | .chars _ _ => false
  | .capture _ body => body.isZeroWidth
  | .concat first rest => first.isZeroWidth && rest.isZeroWidth
  | .alternate first rest => first.isZeroWidth && rest.isZeroWidth
  | .repeated body _ max _ => max.isSome && body.isZeroWidth

/-- Copies of an expression. More than one copy of an expression without width is as good as one;
no copy is the empty text, and exactly one is the expression. -/
def times (body : Expr) (min : Nat) (max : Option Nat) (greedy : Bool) : Expr :=
  let bounds : Nat × Option Nat :=
    if body.isZeroWidth then (Nat.min min 1, some ((max.map (Nat.min · 1)).getD 1)) else (min, max)
  if bounds = (0, some 0) then .empty
  else if bounds = (1, some 1) then body
  else .repeated body bounds.1 bounds.2 greedy

/-- The expression asserts something about Unicode word characters. -/
def usesUnicodeWords : Expr → Bool
  | .assertion (.word _ .unicode) => true
  | .capture _ body => body.usesUnicodeWords
  | .concat first rest => first.usesUnicodeWords || rest.usesUnicodeWords
  | .alternate first rest => first.usesUnicodeWords || rest.usesUnicodeWords
  | .repeated body _ _ _ => body.usesUnicodeWords
  | _ => false

end Expr

end JsoniqLexer.Pattern

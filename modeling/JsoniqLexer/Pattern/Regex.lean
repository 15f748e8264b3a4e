import JsoniqLexer.Pattern.Expr

/-!
# Regular expressions with preferences

The core that every pattern expression expands to. Alternatives are tried from left to right.
Counted and optional copies are spelled out: `Expr.expand` writes `x{2,4}` as `x x (x (x)?)?`.

A loop chooses between another copy and leaving. A `plus` makes this choice after each copy, a `star`
before the first copy as well. The choice of a `star` is one and the same each time, and a choice is
made only once in a place: where a `star` stands in another loop and has read nothing, coming round
to it again leads nowhere. An optional `plus` is entered by a choice of its own. `x*` is a `star`
where `x` always reads something. Where `x` may read nothing it is an optional `plus`, so that a copy
without characters still arrives at a choice that has not been made and can leave from there.
-/

set_option autoImplicit false

namespace JsoniqLexer.Pattern

/-- A regular expression whose alternatives are ordered. -/
inductive Regex where
  | empty
  | char (set : CharSet)
  | look (a : Assertion)
  | seq (first second : Regex)
  | alt (preferred other : Regex)
  /-- One or more copies; another copy is preferred to leaving if `greedy`. -/
  | plus (body : Regex) (greedy : Bool)
  /-- Any number of copies; a copy is preferred to leaving if `greedy`. -/
  | star (body : Regex) (greedy : Bool)
deriving DecidableEq, Repr

namespace Regex

/-- The characters of a text, one after the other. -/
def ofText : Text → Regex
  | [] => .empty
  | [c] => .char (.single c)
  | c :: text => .seq (.char (.single c)) (ofText text)

/-- The body or nothing, the body first if `greedy`. -/
def optional (body : Regex) (greedy : Bool) : Regex :=
  if greedy then .alt body .empty else .alt .empty body

/-- Exactly `n` copies. -/
def copies (body : Regex) : Nat → Regex
  | 0 => .empty
  | 1 => body
  | n + 2 => .seq body (copies body (n + 1))

/-- At most `n` copies. -/
def upTo (body : Regex) (greedy : Bool) : Nat → Regex
  | 0 => .empty
  | 1 => optional body greedy
  | n + 2 => optional (.seq body (upTo body greedy (n + 1))) greedy

/-- At least `n` copies; `reads` tells that every copy reads something. -/
def atLeast (body : Regex) (reads greedy : Bool) : Nat → Regex
  | 0 => if reads then .star body greedy else optional (.plus body greedy) greedy
  | 1 => .plus body greedy
  | n + 2 => .seq (copies body (n + 1)) (.plus body greedy)

end Regex

namespace Expr

/-- The number of characters that a match reads at least. It is not known of an expression that
holds a set without members, not even where a match does not need that set. -/
def shortest? : Expr → Option Nat
  | .empty | .assertion _ => some 0
  | .literal text => some text.length
  | .chars set _ => if set = .empty then none else some 1
  | .capture _ body => body.shortest?
  | .concat first rest =>
      match first.shortest?, rest.shortest? with
      | some m, some n => some (m + n)
      | _, _ => none
  | .alternate first rest =>
      match first.shortest?, rest.shortest? with
      | some m, some n => some (Nat.min m n)
      | _, _ => none
  | .repeated body min _ _ => body.shortest?.map fun n => n * min

/-- Every match is known to read something. -/
def alwaysReads (e : Expr) : Bool :=
  match e.shortest? with
  | some n => decide (n ≠ 0)
  | none => false

/-- The regular expression that a pattern expression stands for. -/
def expand : Expr → Regex
  | .empty => .empty
  | .literal text => .ofText text
  | .chars set _ => .char set
  | .assertion a => .look a
  | .capture _ body => body.expand
  | .concat first rest => .seq first.expand rest.expand
  | .alternate first rest => .alt first.expand rest.expand
  | .repeated body min none greedy => .atLeast body.expand body.alwaysReads greedy min
  | .repeated body min (some max) greedy =>
      if max ≤ min then .copies body.expand min
      else .seq (.copies body.expand min) (.upTo body.expand greedy (max - min))

end Expr

end JsoniqLexer.Pattern

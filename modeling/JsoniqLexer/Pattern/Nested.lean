/-!
# Nesting

The constructs of a pattern stand in one another: groups, repetitions and classes, and the branches,
parts and class items that are listed in them. What is read from a pattern comes with the depth of
this nesting, since a pattern may nest only up to a limit.
-/

set_option autoImplicit false

namespace JsoniqLexer.Pattern

/-- What has been read, and how many constructs stand in one another in its text. -/
structure Nested (α : Type) where
  value : α
  depth : Nat := 0
deriving DecidableEq, Repr

namespace Nested

/-- The largest depth of a pattern. -/
def limit : Nat := 250

/-- The depth of things listed side by side. Two or more make a construct of their own, one is just
itself. -/
def listDepth : List Nat → Nat
  | [] => 0
  | [depth] => depth
  | depths => depths.foldr Nat.max 0 + 1

/-- The depth of things listed side by side, for their values taken together. -/
def ofList {α β : Type} (combine : List α → β) (xs : List (Nested α)) : Nested β :=
  ⟨combine (xs.map (·.value)), listDepth (xs.map (·.depth))⟩

/-- A construct around what has been read. -/
def wrap {α β : Type} (build : α → β) (x : Nested α) : Nested β := ⟨build x.value, x.depth + 1⟩

end Nested

end JsoniqLexer.Pattern

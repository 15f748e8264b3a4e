import JsoniqLexer.Category
import JsoniqLexer.Grammar.Error

/-!
# Classification of words

A classifier holds two sets of words, each in the order of its first mention. `Classifier.build`
refuses the empty word and a word in both sets, so a word is a keyword, a builtin or neither.
-/

set_option autoImplicit false

namespace JsoniqLexer

/-- The keywords and the builtins. -/
structure Classifier where
  keywords : List Text
  builtins : List Text
deriving DecidableEq, Repr

namespace Classifier

/-- No words. -/
def empty : Classifier := ⟨[], []⟩

/-- The classifier with the given words, later mentions of a word dropped. The empty word is
reported first, then the first keyword that is also a builtin. -/
def build (keywords builtins : List Text) : Except GrammarError Classifier :=
  let keywords := keywords.eraseDups
  let builtins := builtins.eraseDups
  if keywords.contains [] then .error (.emptyWord .keywords)
  else if builtins.contains [] then .error (.emptyWord .builtins)
  else
    match keywords.find? builtins.contains with
    | some word => .error (.overlappingWord word)
    | none => .ok ⟨keywords, builtins⟩

/-- `word` is a keyword, letter for letter. -/
def isKeyword (c : Classifier) (word : Text) : Bool := c.keywords.contains word

/-- `word` is a builtin, letter for letter. -/
def isBuiltin (c : Classifier) (word : Text) : Bool := c.builtins.contains word

/-- The category of a word. -/
def classify (c : Classifier) (word : Text) : Category :=
  if c.isKeyword word then .keyword else if c.isBuiltin word then .builtin else .identifier

/-- A classifier that was built has no word in both sets. -/
theorem disjoint_of_build {keywords builtins : List Text} {c : Classifier}
    (h : build keywords builtins = .ok c) {word : Text} (hk : word ∈ c.keywords) :
    word ∉ c.builtins := by
  simp only [build] at h
  split at h
  · cases h
  · split at h
    · cases h
    · split at h
      · cases h
      · next hfind =>
        cases h
        have := List.find?_eq_none.1 hfind word hk
        simpa using this

end Classifier

end JsoniqLexer

import Mathlib.Order.Bounds.Basic
import JsoniqLexer.Grammar.Basic
import JsoniqLexer.Proofs.Pattern.Language
import JsoniqLexer.Proofs.Text.Offsets

/-!
# Selecting a rule

What a rule finds, and what it could find by the languages of its patterns alone. `lexemeLengths`
collects the lengths of the beginnings of a text that a rule may take if neither the order in which
a search tries its choices nor the place where it stops to look ahead played a part.
-/

set_option autoImplicit false

namespace JsoniqLexer

/-- The lengths in bytes of the beginnings of a text that belong to the language of a pattern. -/
def Pattern.prefixLengths (p : Pattern) (text : Text) : Set Nat :=
  {n | ∃ x rest, text = x ++ rest ∧ p.Matches x ∧ x.byteLength = n}

/-- With a text, what is related to it belongs to the language of the pattern. -/
def Pattern.Respects (p : Pattern) (ρ : Char → Char → Prop) : Prop :=
  ∀ ⦃x x' : Text⦄, List.Forall₂ ρ x x' → p.Matches x → p.Matches x'

namespace Rule

/-- By the languages of its patterns, the rule takes `x` where `rest` follows. -/
def Admits (rule : Rule) (x rest : Text) : Prop :=
  x ≠ [] ∧ rule.pattern.Matches x ∧ ∀ p ∈ rule.lookahead, ∃ y z, rest = y ++ z ∧ p.Matches y

/-- The lengths in bytes of the lexemes that the rule may take at the start of a text. -/
def lexemeLengths (rule : Rule) (text : Text) : Set Nat :=
  {n | ∃ x rest, text = x ++ rest ∧ rule.Admits x rest ∧ x.byteLength = n}

/-- What a rule may take, it may take with more text after it. -/
theorem Admits.append {rule : Rule} {x rest : Text} (h : rule.Admits x rest) (more : Text) :
    rule.Admits x (rest ++ more) := by
  obtain ⟨hne, hx, hafter⟩ := h
  refine ⟨hne, hx, ?_⟩
  intro p hp
  obtain ⟨y, z, rfl, hy⟩ := hafter p hp
  exact ⟨y, z ++ more, List.append_assoc y z more, hy⟩

theorem lexemeLengths_subset_append (rule : Rule) (text more : Text) :
    rule.lexemeLengths text ⊆ rule.lexemeLengths (text ++ more) := by
  rintro n ⟨x, rest, rfl, hx, rfl⟩
  exact ⟨x, rest ++ more, List.append_assoc x rest more, hx.append more, rfl⟩

/-- A rule whose patterns respect a relation may take as much of a related text. -/
theorem lexemeLengths_subset_of_forall₂ {rule : Rule} {ρ : Char → Char → Prop}
    (hsize : ∀ c d, ρ c d → d.utf8Size = c.utf8Size) (hpattern : rule.pattern.Respects ρ)
    (hlookahead : ∀ p ∈ rule.lookahead, p.Respects ρ) {text text' : Text}
    (h : List.Forall₂ ρ text text') : rule.lexemeLengths text ⊆ rule.lexemeLengths text' := by
  rintro n ⟨x, rest, rfl, ⟨hne, hx, hafter⟩, rfl⟩
  obtain ⟨x', rest', rfl, hxx, hrest⟩ := Text.exists_of_forall₂_append h
  refine ⟨x', rest', rfl, ⟨?_, hpattern hxx hx, ?_⟩, Text.byteLength_eq_of_forall₂ hsize hxx⟩
  · rintro rfl
    exact hne (List.forall₂_nil_right_iff.1 hxx)
  · intro p hp
    obtain ⟨y, z, rfl, hy⟩ := hafter p hp
    obtain ⟨y', z', rfl, hyy, -⟩ := Text.exists_of_forall₂_append hrest
    exact ⟨y', z', rfl, hlookahead p hp hyy hy⟩

/-- A rule finds what its pattern finds, if it is not empty and what follows is allowed. -/
theorem matchLength?_append_iff {rule : Rule} {x rest : Text} :
    rule.matchLength? (x ++ rest) = some x.byteLength ↔
      x ≠ [] ∧ rule.pattern.matchLength? (x ++ rest) = some x.byteLength ∧
        rule.allowsAfter rest = true := by
  constructor
  · intro h
    -- the checks in order: the pattern, the empty match, the division, the lookahead
    simp only [matchLength?] at h
    split at h
    · cases h
    · next length hlength =>
      split at h
      · cases h
      · next hzero =>
        split at h
        · cases h
        · next y tail hsplit =>
          split at h
          · next hafter =>
            obtain rfl := Option.some.inj h
            rw [Text.splitAt?_append] at hsplit
            cases hsplit
            refine ⟨?_, hlength, hafter⟩
            rintro rfl
            exact hzero rfl
          · cases h
  · rintro ⟨hne, hpattern, hafter⟩
    have hzero : x.byteLength ≠ 0 := fun h => hne ((Text.byteLength_eq_zero_iff x).1 h)
    simp only [matchLength?, hpattern, if_neg hzero, Text.splitAt?_append, hafter, if_true]

/-- A rule finds nothing where its pattern finds nothing. -/
theorem matchLength?_eq_none {rule : Rule} {text : Text}
    (h : rule.pattern.matchLength? text = none) : rule.matchLength? text = none := by
  simp only [matchLength?, h]

/-- A rule without a lookahead finds what its pattern finds, if it is not empty. -/
theorem matchLength?_eq_of_lookahead_none {rule : Rule} (h : rule.lookahead = none) {text : Text} :
    rule.matchLength? text = (rule.pattern.matchLength? text).filter (· ≠ 0) := by
  cases hpattern : rule.pattern.matchLength? text with
  | none => simp [matchLength?, hpattern]
  | some n =>
      obtain ⟨x, rest, rfl, rfl⟩ := Pattern.of_matchLength? hpattern
      have hafter : rule.allowsAfter rest = true := by rw [allowsAfter, h]
      simp [matchLength?, hpattern, Text.splitAt?_append, hafter, Option.filter]

end Rule

namespace Grammar

/-- The lengths in bytes of the lexemes that some rule of a state may take at the start of a
text. -/
def lexemeLengths (g : Grammar) (state : State) (text : Text) : Set Nat :=
  {n | ∃ rule ∈ g.rules state, n ∈ rule.lexemeLengths text}

theorem mem_rules_iff {g : Grammar} {state : State} {rule : Rule} :
    rule ∈ g.rules state ↔ (state, rule) ∈ g.table := by
  rw [rules, List.mem_filterMap]
  constructor
  · rintro ⟨⟨state', rule'⟩, hmem, heq⟩
    split at heq
    · next hstate =>
      cases heq
      cases hstate
      exact hmem
    · cases heq
  · intro hmem
    exact ⟨(state, rule), hmem, by simp⟩

/-- Nothing is selected only where no rule finds anything. -/
theorem select_eq_none_iff {g : Grammar} {state : State} {text : Text} :
    g.select state text = none ↔ ∀ rule ∈ g.rules state, rule.matchLength? text = none := by
  rw [select]
  -- the index only counts; the induction is on the rules that are left
  generalize g.rules state = rules
  generalize 0 = index
  induction rules generalizing index with
  | nil => simp [selectFrom]
  | cons rule rules ih =>
      rw [selectFrom, List.forall_mem_cons]
      cases hrule : rule.matchLength? text with
      | none => simp [ih]
      | some n => simp

/-- What is selected depends only on what the rules of the state find. -/
theorem select_congr {g : Grammar} {state : State} {text text' : Text}
    (h : ∀ rule ∈ g.rules state, rule.matchLength? text = rule.matchLength? text') :
    g.select state text = g.select state text' := by
  rw [select, select]
  revert h
  generalize g.rules state = rules
  generalize 0 = index
  intro h
  induction rules generalizing index with
  | nil => rfl
  | cons rule rules ih =>
      obtain ⟨hrule, hrules⟩ := List.forall_mem_cons.1 h
      rw [selectFrom, selectFrom, hrule, ih (index + 1) hrules]

/-- Where some rule finds something, a rule is selected. -/
theorem exists_select {g : Grammar} {state : State} {text : Text} {rule : Rule} {n : Nat}
    (hmem : rule ∈ g.rules state) (h : rule.matchLength? text = some n) :
    ∃ s, g.select state text = some s := by
  cases hselect : g.select state text with
  | none =>
      rw [select_eq_none_iff.1 hselect rule hmem] at h
      cases h
  | some s => exact ⟨s, rfl⟩

end Grammar

end JsoniqLexer

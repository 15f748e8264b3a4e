import JsoniqLexer.Proofs.Grammar.Build

/-!
# Empty matches

A rule is checked for empty matches on the empty text alone. Whether an expression matches the empty
text in a place depends only on what its assertions say about the place (`matches_nil_congr`), and
the start of the empty text says what the start of any text says, but for one thing: no word begins
there. So the check finds every empty match except those that are found only in front of a word
(`Pattern.matchesEmpty_iff`). A rule with such a match is accepted, and takes nothing there.
-/

set_option autoImplicit false

namespace JsoniqLexer

/-- The text begins with an ASCII letter, an ASCII digit or the underscore. -/
def Text.BeginsAsciiWord (text : Text) : Prop := text.head?.any Pattern.isAsciiWord = true

namespace Pattern

/-! ## Assertions at the start of a text -/

/-- At the start of a text, the assertion asks for a word to begin there. -/
def Assertion.asksForWord : Assertion → Bool
  | .word .boundary _ | .word .wordStart _ => true
  | _ => false

/-- What holds at the start of a text holds at the start of the empty one, unless it asks for a word
to begin there. -/
theorem Assertion.holds_start {a : Assertion} {text : Text} (h : a.holds none text.head? = true) :
    a.holds none none = true ∨ a.asksForWord = true ∧ text.BeginsAsciiWord := by
  cases a with
  | textStart | textEnd | lineStart | lineEnd | crlfLineStart | crlfLineEnd => exact .inl rfl
  | word edge alphabet =>
      cases edge with
      | noBoundary | halfStart | halfEnd => exact .inl rfl
      | wordEnd => cases h
      | boundary | wordStart =>
          refine .inr ⟨rfl, ?_⟩
          simpa [holds, WordEdge.holds, Text.BeginsAsciiWord] using h

/-! ## Matches of the empty text -/

/-- The assertions of an expression. -/
def Expr.assertions : Expr → List Assertion
  | .empty | .literal _ | .chars _ _ => []
  | .assertion a => [a]
  | .capture _ body => body.assertions
  | .concat first rest => first.assertions ++ rest.assertions
  | .alternate first rest => first.assertions ++ rest.assertions
  | .repeated body _ _ _ => body.assertions

/-- An expression that matches the empty text in one place matches it in every place where its
assertions hold as well. -/
theorem Expr.matches_nil_congr {e : Expr} {before before' : Option Char} {rest rest' : Text}
    (hall : ∀ a ∈ e.assertions,
      a.holds before rest.head? = true → a.holds before' rest'.head? = true)
    (h : e.Matches before [] rest) : e.Matches before' [] rest' := by
  induction e with
  | empty => exact rfl
  | literal text => exact h
  | chars set unicode =>
      obtain ⟨c, hnil, -⟩ := h
      cases hnil
  | assertion a => exact ⟨rfl, hall a List.mem_cons_self h.2⟩
  | capture index body ih => exact ih hall h
  | concat first rest ihf ihr =>
      obtain ⟨hf, hr⟩ := List.forall_mem_append.1 hall
      obtain ⟨hfirst, hrest⟩ := Reading.andThen_nil_iff.1 h
      exact Reading.andThen_nil_iff.2 ⟨ihf hf hfirst, ihr hr hrest⟩
  | alternate first rest ihf ihr =>
      obtain ⟨hf, hr⟩ := List.forall_mem_append.1 hall
      rcases h with h | h
      · exact .inl (ihf hf h)
      · exact .inr (ihr hr h)
  | repeated body min max greedy ih =>
      -- as many copies as there were, whatever the bounds are
      have hcopies {n : Nat} (hn : body.Matches.copies n before [] rest) :
          body.Matches.copies n before' [] rest' := by
        rw [Reading.copies_nil_iff] at hn ⊢
        exact hn.imp_right (ih hall)
      cases max with
      | none | some max =>
          obtain ⟨n, hbounds, hn⟩ := h
          exact ⟨n, hbounds, hcopies hn⟩

/-- An expression that matches the empty text at the start of some text matches the empty text on
its own, unless a word begins there and one of its assertions asks for that. -/
theorem Expr.matches_nil_start {e : Expr} {text : Text} (h : e.Matches none [] text) :
    e.Matches none [] [] ∨ text.BeginsAsciiWord ∧ ∃ a ∈ e.assertions, a.asksForWord = true := by
  by_cases hall : ∀ a ∈ e.assertions, a.holds none text.head? = true → a.holds none none = true
  · exact .inl (matches_nil_congr hall h)
  · push Not at hall
    obtain ⟨a, ha, hholds, hfails⟩ := hall
    obtain ⟨hasks, hbegins⟩ := (Assertion.holds_start hholds).resolve_left hfails
    exact .inr ⟨hbegins, a, ha, hasks⟩

/-! ## Patterns -/

/-- The pattern, read with these classes, asks in some assertion for a word to begin at the start of the
text. -/
def AsksForWord (classes : Classes) (p : Pattern) : Prop :=
  ∃ e, classes.parse? p.source = some e ∧ ∃ a ∈ e.assertions, a.asksForWord = true

variable {classes : Classes} {source text : Text} {p : Pattern}

theorem matchesEmpty_of_matches {e : Expr} (h : classes.compile source = .ok p)
    (he : classes.parse? source = some e) (hmatches : e.Matches none [] []) :
    p.matchesEmpty = true := by
  obtain ⟨e', he', -, rfl⟩ := Classes.compile_eq_ok_iff.1 h
  obtain rfl : e = e' := Option.some.inj (he.symm.trans he')
  rw [← Expr.matches_expand] at hmatches
  cases hn : e.expand.program.matchLength? [] with
  | none => exact absurd hmatches (Regex.matchLength?_eq_none_iff.1 hn [] [] rfl)
  | some n =>
      obtain ⟨x, rest, htext, rfl⟩ := Block.of_matchLength? hn
      obtain ⟨rfl, rfl⟩ := List.append_eq_nil_iff.1 htext.symm
      rw [matchesEmpty, matchLength?, hn]
      rfl

/-- An empty match is found on the empty text too, or it stands in front of a word and the pattern
asks for one. -/
theorem matchesEmpty_or (h : classes.compile source = .ok p)
    (hzero : p.matchLength? text = some 0) :
    p.matchesEmpty = true ∨ text.BeginsAsciiWord ∧ p.AsksForWord classes := by
  obtain ⟨e, he, -, hp⟩ := Classes.compile_eq_ok_iff.1 h
  rw [matchLength?, hp] at hzero
  obtain ⟨x, rest, rfl, hlength, hx⟩ := Regex.matches_of_matchLength? hzero
  obtain rfl : x = [] := (Text.byteLength_eq_zero_iff x).1 hlength
  rw [Expr.matches_expand] at hx
  rcases Expr.matches_nil_start hx with hnil | ⟨hbegins, hasks⟩
  · exact .inl (matchesEmpty_of_matches h he hnil)
  · exact .inr ⟨hbegins, e, by rw [hp]; exact he, hasks⟩

/-- The check on the empty text finds exactly the patterns with an empty match that does not stand
in front of a word. -/
theorem matchesEmpty_iff (h : classes.compile source = .ok p) :
    p.matchesEmpty = true ↔
      ∃ text : Text, ¬ text.BeginsAsciiWord ∧ p.matchLength? text = some 0 := by
  constructor
  · intro hempty
    refine ⟨[], ?_, of_decide_eq_true hempty⟩
    exact Bool.false_ne_true
  · rintro ⟨text, hbegins, hzero⟩
    rcases matchesEmpty_or h hzero with hempty | ⟨hword, -⟩
    · exact hempty
    · exact absurd hword hbegins

end Pattern

/-! ## Rules -/

/-- Whatever the named classes hold, a rule of a grammar that was built has an empty match only in front
of a word, and only if its pattern asks for one there. It never takes an empty lexeme. -/
theorem empty_match_only_before_word {classes : Pattern.Classes} {b : GrammarBuilder} {g : Grammar}
    (h : b.build classes.compile = .ok g) {state : State} {rule : Rule}
    (hmem : rule ∈ g.rules state) (text : Text) :
    (rule.pattern.matchLength? text = some 0 →
      text.BeginsAsciiWord ∧ rule.pattern.AsksForWord classes) ∧
      rule.matchLength? text ≠ some 0 := by
  constructor
  · intro hzero
    obtain ⟨draft, -, hcheck⟩ := GrammarBuilder.exists_check_of_build h hmem
    obtain ⟨-, hdescribes, -, hempty⟩ := RuleDraft.check_eq_ok_iff.1 hcheck
    rcases Pattern.matchesEmpty_or hdescribes.pattern hzero with htrue | hword
    · rw [hempty] at htrue
      cases htrue
    · exact hword
  · intro hzero
    obtain ⟨lexeme, rest, -, hne, hlength⟩ := Rule.of_matchLength? hzero
    exact hne ((Text.byteLength_eq_zero_iff lexeme).1 hlength)

/-- A rule that finds the empty text in front of any word but those that begin with `a`. -/
def edged : GrammarBuilder :=
  GrammarBuilder.empty
    |>.rule .root "a|(?-u:\\b)".toList (.plain .keyword)
    |>.rule .root Jsoniq.anyChar (.plain .error)

theorem exists_edged :
    ∃ g rule, edged.build = .ok g ∧ rule ∈ g.rules .root ∧
      rule.pattern.matchLength? "b".toList = some 0 := by
  have hfound : edged.build.toOption.bind (fun g => (g.rules .root).head?.map fun rule =>
      rule.pattern.matchLength? "b".toList) = some (some 0) := by
    decide +kernel
  cases hbuild : edged.build with
  | error e =>
      rw [hbuild] at hfound
      cases hfound
  | ok g =>
      rw [hbuild] at hfound
      obtain ⟨rule, hrule, hzero⟩ := Option.map_eq_some_iff.1 hfound
      exact ⟨g, rule, rfl, List.mem_of_head? hrule, hzero⟩

/-- Its empty match stands in front of a word, and is not taken. -/
theorem empty_match_only_before_word_edged :
    ∃ g rule, edged.build = .ok g ∧ rule ∈ g.rules .root ∧
      rule.pattern.matchLength? "b".toList = some 0 ∧ Text.BeginsAsciiWord "b".toList ∧
      rule.pattern.AsksForWord .unicode ∧ rule.matchLength? "b".toList ≠ some 0 := by
  obtain ⟨g, rule, hbuild, hmem, hzero⟩ := exists_edged
  obtain ⟨hword, hnever⟩ := empty_match_only_before_word hbuild hmem "b".toList
  obtain ⟨hbegins, hasks⟩ := hword hzero
  exact ⟨g, rule, hbuild, hmem, hzero, hbegins, hasks, hnever⟩

/-- Not every pattern with an empty match is rejected. -/
theorem empty_match_is_accepted :
    ¬ ∀ (b : GrammarBuilder) (g : Grammar), b.build = .ok g → ∀ state, ∀ rule ∈ g.rules state,
      ∀ text : Text, rule.pattern.matchLength? text ≠ some 0 := by
  intro hnever
  obtain ⟨g, rule, hbuild, hmem, hzero⟩ := exists_edged
  exact hnever edged g hbuild .root rule hmem "b".toList hzero

end JsoniqLexer

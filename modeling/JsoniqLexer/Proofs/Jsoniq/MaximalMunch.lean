import JsoniqLexer.Proofs.Grammar.Select
import JsoniqLexer.Proofs.Jsoniq.Table
import JsoniqLexer.Proofs.Pattern.Exchange
import JsoniqLexer.Proofs.Text.Offsets

/-!
# In the JSONiq grammar the first match is the longest

The rules of a state are tried in order, the choices of a pattern in order, and a lookahead is looked
at only after the lexeme has been chosen. None of this gives up a longer lexeme: a deterministic
pattern finds its longest match, a lookahead that cannot begin with a character of the lexeme allows
no shorter one, and each line dominates the lines after it (`pairwise_dominates`).

So what a line finds depends on the languages of its patterns alone, and in texts that differ only in
characters that these do not tell apart it finds the same (`Line.matchLength?_of_forall₂`).
-/

set_option autoImplicit false

namespace JsoniqLexer.Jsoniq

open Pattern

namespace Form

/-- A form finds the longest beginning of the text in its language. -/
theorem matchLength?_eq_some_iff (f : Form) {text : Text} {n : Nat} :
    f.pattern.matchLength? text = some n ↔ IsGreatest (f.pattern.prefixLengths text) n := by
  have hlengths : f.pattern.prefixLengths text =
      {k | ∃ x rest, text = x ++ rest ∧ f.regex.Matches none x rest ∧ x.byteLength = k} := by
    simp only [prefixLengths, f.matches_iff]
  rw [hlengths]
  exact Regex.matchLength?_eq_some_iff f.deterministic

/-- A form finds something wherever some beginning of the text is in its language. -/
theorem exists_matchLength? (f : Form) {x rest : Text} (hx : f.pattern.Matches x) :
    ∃ n, f.pattern.matchLength? (x ++ rest) = some n ∧ x.byteLength ≤ n := by
  cases hn : f.pattern.matchLength? (x ++ rest) with
  | none => exact absurd (f.matches_iff.2 hx) (Regex.matchLength?_eq_none_iff.1 hn x rest rfl)
  | some n => exact ⟨n, rfl, (f.matchLength?_eq_some_iff.1 hn).2 ⟨x, rest, rfl, hx, rfl⟩⟩

theorem isMatch_iff (f : Form) {text : Text} :
    f.pattern.isMatch text = true ↔ ∃ x rest, text = x ++ rest ∧ f.pattern.Matches x := by
  rw [isMatch, Option.isSome_iff_exists]
  constructor
  · rintro ⟨n, hn⟩
    obtain ⟨x, rest, htext, hx, -⟩ := (f.matchLength?_eq_some_iff.1 hn).1
    exact ⟨x, rest, htext, hx⟩
  · rintro ⟨x, rest, rfl, hx⟩
    obtain ⟨n, hn, -⟩ := f.exists_matchLength? hx
    exact ⟨n, hn⟩

/-- Where a fenced form matches after one match, no other match is longer. -/
theorem eq_of_isFencedFrom {f other : Form} (h : f.isFencedFrom other = true)
    {x y z tail after : Text} (hx : other.pattern.Matches x) (hbegins : y <+: x)
    (hz : f.pattern.Matches z) (htext : x ++ tail = y ++ (z ++ after)) : y = x := by
  obtain ⟨hnull, hdisjoint⟩ := Bool.and_eq_true_iff.1 h
  -- after a shorter match comes a character of the longer one, with which `f` cannot begin
  obtain ⟨more, rfl⟩ := hbegins
  cases more with
  | nil => rw [List.append_nil]
  | cons c more =>
      rw [List.append_assoc] at htext
      have hnext := List.append_cancel_left htext
      cases z with
      | nil =>
          rw [Regex.isNullable_of_matches (f.matches_pattern_iff.1 hz)] at hnull
          cases hnull
      | cons d z =>
          obtain ⟨rfl, -⟩ := List.cons.inj hnext
          have hfirst := Regex.contains_firsts (f.matches_pattern_iff.1 hz)
          have hletter := Regex.contains_letters (other.matches_pattern_iff.1 hx) c (by simp)
          rw [CharSet.contains_eq_false_of_isDisjoint hdisjoint hletter] at hfirst
          cases hfirst

end Form

namespace Line

theorem allowsAfter_iff (line : Line) {rest : Text} :
    line.rule.allowsAfter rest = true ↔
      ∀ p ∈ line.rule.lookahead, ∃ y z, rest = y ++ z ∧ p.Matches y := by
  rw [Rule.allowsAfter, rule]
  cases line.lookahead with
  | none => simp
  | some f => simpa using f.isMatch_iff

/-- What a line finds it may take. -/
theorem admits_of_matchLength? {line : Line} {text : Text} {n : Nat}
    (h : line.rule.matchLength? text = some n) : n ∈ line.rule.lexemeLengths text := by
  obtain ⟨x, rest, rfl, hne, rfl⟩ := Rule.of_matchLength? h
  obtain ⟨-, hpattern, hafter⟩ := Rule.matchLength?_append_iff.1 h
  obtain ⟨y, tail, htext, hy, hlength⟩ := (line.form.matchLength?_eq_some_iff.1 hpattern).1
  obtain ⟨rfl, rfl⟩ := Text.append_inj_of_byteLength htext hlength.symm
  exact ⟨x, rest, rfl, ⟨hne, hy, line.allowsAfter_iff.1 hafter⟩, rfl⟩

/-- Where a line may take a lexeme it finds one that is not shorter. -/
theorem exists_matchLength?_of_admits {line : Line} {y rest : Text}
    (h : line.rule.Admits y rest) :
    ∃ n, line.rule.matchLength? (y ++ rest) = some n ∧ y.byteLength ≤ n := by
  obtain ⟨hne, hy, hafter⟩ := h
  obtain ⟨n, hn, hle⟩ := @Form.exists_matchLength? line.form y rest hy
  obtain ⟨x, tail, htext, hx, rfl⟩ := (line.form.matchLength?_eq_some_iff.1 hn).1
  have hbegins : y <+: x := Text.prefix_of_byteLength_le htext hle
  -- the longest match of the form need not be the lexeme that is allowed, if there is a lookahead
  have hfound : line.rule.allowsAfter tail = true := by
    cases hlookahead : line.lookahead with
    | none => rw [Rule.allowsAfter, rule, hlookahead]; rfl
    | some f =>
        have hfenced : f.isFencedFrom line.form = true := by
          have hall := line.fenced
          rwa [hlookahead] at hall
        obtain ⟨z, after, rfl, hz⟩ := hafter f.pattern (by simp [rule, hlookahead])
        obtain rfl := Form.eq_of_isFencedFrom hfenced hx hbegins hz htext.symm
        obtain rfl := List.append_cancel_left htext
        exact line.allowsAfter_iff.2 hafter
  refine ⟨x.byteLength, ?_, hle⟩
  rw [htext] at hn ⊢
  refine Rule.matchLength?_append_iff.2 ⟨?_, hn, hfound⟩
  rintro rfl
  exact hne (List.prefix_nil.1 hbegins)

/-- A line finds the longest lexeme that it may take. -/
theorem matchLength?_eq_some_iff (line : Line) {text : Text} {n : Nat} :
    line.rule.matchLength? text = some n ↔ IsGreatest (line.rule.lexemeLengths text) n := by
  have hupper {m k : Nat} (hm : line.rule.matchLength? text = some m)
      (hk : k ∈ line.rule.lexemeLengths text) : k ≤ m := by
    obtain ⟨y, rest, rfl, hy, rfl⟩ := hk
    obtain ⟨m', hm', hle⟩ := exists_matchLength?_of_admits hy
    rw [hm] at hm'
    cases hm'
    exact hle
  constructor
  · exact fun h => ⟨admits_of_matchLength? h, fun k hk => hupper h hk⟩
  · rintro ⟨hmem, hgreatest⟩
    obtain ⟨y, rest, rfl, hy, rfl⟩ := hmem
    obtain ⟨m, hm, hle⟩ := exists_matchLength?_of_admits hy
    have hge : m ≤ y.byteLength := hgreatest (admits_of_matchLength? hm)
    rw [hm, Nat.le_antisymm hle hge]

/-- What a line finds depends only on what it may take. -/
theorem matchLength?_congr {line : Line} {text text' : Text}
    (h : line.rule.lexemeLengths text' = line.rule.lexemeLengths text) :
    line.rule.matchLength? text' = line.rule.matchLength? text := by
  apply Option.ext
  intro n
  rw [line.matchLength?_eq_some_iff, line.matchLength?_eq_some_iff, h]

/-! ### Lines that do not tell characters apart -/

/-- The line does not tell the two characters apart. -/
def confuses (a b : Char) (line : Line) : Bool :=
  line.form.regex.confuses a b && line.lookahead.all fun f => f.regex.confuses a b

theorem confuses_comm (line : Line) (a b : Char) : line.confuses a b = line.confuses b a := by
  simp only [confuses, Regex.confuses_comm _ a b]

theorem confuses_self (line : Line) (c : Char) : line.confuses c c = true := by
  rw [confuses, Regex.confuses_self line.form.plain c]
  cases line.lookahead with
  | none => rfl
  | some f => exact Regex.confuses_self f.plain c

theorem confuses_swap {line : Line} {a b : Char} (h : line.confuses a b = true) (c : Char) :
    line.confuses c (Equiv.swap a b c) = true := by
  obtain ⟨hform, hlookahead⟩ := Bool.and_eq_true_iff.1 h
  rw [confuses, Regex.confuses_swap hform c]
  cases hsome : line.lookahead with
  | none => rfl
  | some f =>
      rw [hsome] at hlookahead
      exact Regex.confuses_swap hlookahead c

/-- A line that confuses related characters may take as much of a related text. -/
theorem lexemeLengths_subset_of_forall₂ {line : Line} {ρ : Char → Char → Prop}
    (hsize : ∀ c d, ρ c d → d.utf8Size = c.utf8Size)
    (hconfuses : ∀ c d, ρ c d → line.confuses c d = true) {text text' : Text}
    (h : List.Forall₂ ρ text text') :
    line.rule.lexemeLengths text ⊆ line.rule.lexemeLengths text' := by
  have hrespects {f : Form} (hf : ∀ c d, ρ c d → f.regex.confuses c d = true) :
      f.pattern.Respects ρ := by
    intro x x' hrelated hx
    rw [f.matches_pattern_iff] at hx ⊢
    exact Regex.matches_of_forall₂ hf f.plain hrelated hx
  apply Rule.lexemeLengths_subset_of_forall₂ hsize
  · apply hrespects
    intro c d hcd
    exact (Bool.and_eq_true_iff.1 (hconfuses c d hcd)).1
  · intro p hp
    obtain ⟨f, hf, rfl⟩ := Option.map_eq_some_iff.1 hp
    apply hrespects
    intro c d hcd
    have hall := (Bool.and_eq_true_iff.1 (hconfuses c d hcd)).2
    rwa [hf] at hall
  · exact h

/-- A line that confuses related characters finds the same in related texts. -/
theorem matchLength?_of_forall₂ {line : Line} {ρ : Char → Char → Prop}
    (hsize : ∀ c d, ρ c d → d.utf8Size = c.utf8Size)
    (hconfuses : ∀ c d, ρ c d → line.confuses c d = true) {text text' : Text}
    (h : List.Forall₂ ρ text text') :
    line.rule.matchLength? text' = line.rule.matchLength? text := by
  apply matchLength?_congr
  apply Set.Subset.antisymm
  · apply lexemeLengths_subset_of_forall₂ (ρ := fun d c => ρ c d)
    · exact fun d c hcd => (hsize c d hcd).symm
    · intro d c hcd
      rw [confuses_comm]
      exact hconfuses c d hcd
    · exact h.flip
  · exact lexemeLengths_subset_of_forall₂ hsize hconfuses h

end Line

/-- No match of a line is longer than a match of a line before it. -/
theorem pairwise_dominates (state : State) :
    (lines state).Pairwise fun l m => l.form.regex.dominates m.form.regex = true := by
  have h : ∀ s ∈ State.all,
      (lines s).Pairwise fun l m => l.form.regex.dominates m.form.regex = true := by
    decide +kernel
  exact h state state.mem_all

/-- Every state has a line for any character. -/
theorem exists_anything (state : State) :
    ∃ line ∈ lines state, line.form = .anything ∧ line.lookahead = none := by
  cases state with
  | root => exact ⟨.plain .anything (.plain .error), by simp [lines, rootLines], rfl, rfl⟩
  | comment => exact ⟨.plain .anything (.plain .comment), by simp [lines, commentLines], rfl, rfl⟩
  | doubleQuoted =>
      exact ⟨.plain .anything (.plain .stringDouble), by simp [lines, Quote.lines, Quote.category],
        rfl, rfl⟩
  | singleQuoted =>
      exact ⟨.plain .anything (.plain .stringSingle), by simp [lines, Quote.lines, Quote.category],
        rfl, rfl⟩

/-- Where a line is found, no line after it may take more. -/
theorem Line.le_of_dominates {l m : Line} (h : l.form.regex.dominates m.form.regex = true)
    {text : Text} {n k : Nat} (hn : n ∈ l.rule.lexemeLengths text)
    (hk : k ∈ m.rule.lexemeLengths text) : k ≤ n := by
  obtain ⟨x, tail, rfl, ⟨hne, hx, -⟩, rfl⟩ := hn
  obtain ⟨y, rest, htext, ⟨-, hy, -⟩, rfl⟩ := hk
  have hx : l.form.regex.Matches none x tail := l.form.matches_iff.2 hx
  have hy : m.form.regex.Matches none y rest := m.form.matches_iff.2 hy
  have hbegins := Regex.prefix_of_dominates h hne htext hx hy
  exact Text.byteLength_le_of_prefix hbegins

/-- Where there is text left, a rule is selected. -/
theorem exists_select (state : State) {text : Text} (htext : text ≠ []) :
    ∃ s, Grammar.jsoniq.select state text = some s := by
  obtain ⟨c, rest, rfl⟩ := List.exists_cons_of_ne_nil htext
  obtain ⟨line, hmem, hform, hlookahead⟩ := exists_anything state
  have hadmits : line.rule.Admits [c] rest := by
    refine ⟨List.cons_ne_nil c [], ?_, ?_⟩
    · rw [Line.rule, hform, Form.matches_pattern_iff]
      exact ⟨c, rfl, CharSet.contains_all c⟩
    · simp [Line.rule, hlookahead]
  obtain ⟨n, hn, -⟩ := Line.exists_matchLength?_of_admits hadmits
  refine Grammar.exists_select ?_ hn
  rw [rules_eq]
  exact List.mem_map_of_mem hmem

/-- A selected lexeme is the longest that any rule of the state may take. -/
theorem isGreatest_of_select {state : State} {text : Text} {s : Selection}
    (h : Grammar.jsoniq.select state text = some s) :
    IsGreatest (Grammar.jsoniq.lexemeLengths state text) s.length := by
  obtain ⟨before, after, hrules, -, hnone, hmatch⟩ := Grammar.select_eq_some_iff.1 h
  have hlines := rules_eq state
  rw [hrules] at hlines
  obtain ⟨earlier, others, hsplit, rfl, hothers⟩ := List.map_eq_append_iff.1 hlines.symm
  obtain ⟨l, later, rfl, hrule, rfl⟩ := List.map_eq_cons_iff.1 hothers
  rw [← hrule] at hmatch
  have hl := l.matchLength?_eq_some_iff.1 hmatch
  refine ⟨⟨l.rule, by rw [hrules, hrule]; simp, hl.1⟩, ?_⟩
  rintro k ⟨rule, hmem, hk⟩
  rw [rules_eq, List.mem_map] at hmem
  obtain ⟨m, hm, rfl⟩ := hmem
  rw [hsplit] at hm
  -- lines before it find nothing, it finds its longest, lines after it are dominated
  rcases List.mem_append.1 hm with hearlier | hm
  · obtain ⟨x, rest, rfl, hx, -⟩ := hk
    obtain ⟨n, hn, -⟩ := Line.exists_matchLength?_of_admits hx
    rw [hnone m.rule (List.mem_map_of_mem hearlier)] at hn
    cases hn
  · rcases List.mem_cons.1 hm with rfl | hlater
    · exact hl.2 hk
    · have hpairwise := pairwise_dominates state
      rw [hsplit] at hpairwise
      obtain ⟨-, hpairwise, -⟩ := List.pairwise_append.1 hpairwise
      exact Line.le_of_dominates (List.rel_of_pairwise_cons hpairwise hlater) hl.1 hk

/-- In every state, wherever there is text left, a rule is selected, and its lexeme is the longest
that any rule of the state may take; each pattern finds the longest text of its language, and each
rule the longest lexeme that it may take. -/
theorem select_isGreatest (state : State) {text : Text} (htext : text ≠ []) :
    (∃ s, Grammar.jsoniq.select state text = some s ∧
        IsGreatest (Grammar.jsoniq.lexemeLengths state text) s.length) ∧
      ∀ rule ∈ Grammar.jsoniq.rules state,
        (∀ n, rule.pattern.matchLength? text = some n ↔
          IsGreatest (rule.pattern.prefixLengths text) n) ∧
        ∀ n, rule.matchLength? text = some n ↔ IsGreatest (rule.lexemeLengths text) n := by
  constructor
  · obtain ⟨s, hs⟩ := exists_select state htext
    exact ⟨s, hs, isGreatest_of_select hs⟩
  · intro rule hmem
    rw [rules_eq, List.mem_map] at hmem
    obtain ⟨line, -, rfl⟩ := hmem
    exact ⟨fun n => line.form.matchLength?_eq_some_iff, fun n => line.matchLength?_eq_some_iff⟩

/-- The name of a called function, where a plain word and an operator would be shorter. -/
theorem select_isGreatest_call :
    "a:b (".toList ≠ [] ∧
      ∃ s, Grammar.jsoniq.select .root "a:b (".toList = some s ∧ s.length = 3 ∧
        IsGreatest (Grammar.jsoniq.lexemeLengths .root "a:b (".toList) 3 := by
  have htext : "a:b (".toList ≠ [] := by decide
  obtain ⟨⟨s, hs, hgreatest⟩, -⟩ := select_isGreatest .root htext
  have hlength : (Grammar.jsoniq.select .root "a:b (".toList).map Selection.length = some 3 := by
    rw [jsoniq_eq]
    decide +kernel
  rw [hs] at hlength
  have hthree : s.length = 3 := Option.some.inj hlength
  exact ⟨htext, s, hs, hthree, hthree ▸ hgreatest⟩

end JsoniqLexer.Jsoniq

import JsoniqLexer.Proofs.Jsoniq.Words

/-!
# What the last rule catches

Every state ends with a rule for any character. A line before it takes a character wherever it
stands (`settled`), or can at least begin with it (`begun`), or cannot; outside of comments and
strings only the dollar sign is of the second kind. So what is caught there, and only there, is a
character that nothing begins with, or a dollar sign without a name (`Text.BeginsStray`,
`misses_root_iff`). Inside of them nothing is left to catch.
-/

set_option autoImplicit false

namespace JsoniqLexer

open Pattern

/-! ## Characters that nothing begins with -/

namespace Text

/-- A character that nothing in JSONiq begins with: one of a few ASCII signs, an ASCII control
character that is not blank, or a character outside of ASCII. -/
def isForeign (c : Char) : Bool :=
  ['%', '&', '\\', '^', '~', '`'].contains c ||
    (decide (c.toNat < 0x20) || c.toNat == 0x7F) &&
      !(['\t', '\n', '\x0b', '\x0c', '\r'].contains c) ||
    decide (0x80 ≤ c.toNat)

/-- The text begins with a foreign character, or with a dollar sign that is followed neither by
another one nor by a name. -/
def BeginsStray : Text → Prop
  | [] => False
  | c :: rest =>
      isForeign c = true ∨ c = '$' ∧ ∀ d ∈ rest.head?, d ≠ '$' ∧ beginsWord d = false

end Text

/-- The characters of any of the sets. -/
def Pattern.CharSet.unions (sets : List CharSet) : CharSet := sets.foldr CharSet.union .empty

theorem Pattern.CharSet.contains_unions (sets : List CharSet) (c : Char) :
    (CharSet.unions sets).contains c = sets.any fun set => set.contains c := by
  induction sets with
  | nil => rfl
  | cons set sets ih => rw [unions, List.foldr_cons, contains_union, List.any_cons, ← ih, unions]

namespace Jsoniq

/-- The lines of a state but for the last, which is for any character. -/
def earlier (state : State) : List Line := (lines state).dropLast

/-- The characters that a match of an earlier line may begin with. -/
def begun (state : State) : CharSet :=
  .unions ((earlier state).map fun line => line.form.regex.firsts)

/-- The characters that an earlier line takes wherever they stand. -/
def settled (state : State) : CharSet :=
  .unions (((earlier state).filter fun line => line.lookahead.isNone).map fun line =>
    line.form.regex.alone)

theorem contains_begun_root (c : Char) : (begun .root).contains c = !Text.isForeign c := by
  have hbegun : begun .root =
      .ofRanges [('\t', '\r'), (' ', '$'), ('\'', '['), (']', ']'), ('_', '_'), ('a', '\x7d')] := by
    decide
  have heq {d : Char} : c = d ↔ c.toNat = d.toNat := Char.toNat_inj.symm
  rw [hbegun, Bool.eq_iff_iff]
  simp [Text.isForeign, CharSet.ofRanges, ← Char.toNat_val, heq]
  omega

theorem contains_settled_root {c : Char} (h : (begun .root).contains c = true) (hc : c ≠ '$') :
    (settled .root).contains c = true := by
  have hwithin : (begun .root).isWithin ((settled .root).union (.single '$')) = true := by decide
  have hunion := CharSet.contains_of_isWithin hwithin h
  simpa [hc] using hunion

/-- Inside of comments and strings, an earlier line takes every character. -/
theorem contains_settled {state : State} (h : state ≠ .root) (c : Char) :
    (settled state).contains c = true := by
  have hall : ∀ s ∈ State.all, s ≠ .root → CharSet.all.isWithin (settled s) = true := by decide
  exact CharSet.contains_of_isWithin (hall state state.mem_all h) (CharSet.contains_all c)

/-- The last line of a state. -/
def last : State → Line
  | .root => .plain .anything (.plain .error)
  | .comment => .plain .anything (.plain .comment)
  | .doubleQuoted => .plain .anything (.plain .stringDouble)
  | .singleQuoted => .plain .anything (.plain .stringSingle)

theorem rules_eq_earlier (state : State) :
    Grammar.jsoniq.rules state = (earlier state).map Line.rule ++ [(last state).rule] := by
  rw [rules_eq]
  cases state <;> rfl

theorem matchLength?_last (state : State) (c : Char) (rest : Text) :
    (last state).rule.matchLength? (c :: rest) = some c.utf8Size := by
  have hfound : (Regex.char .all).program.matchLength? ([c] ++ rest) =
      some (Text.byteLength [c]) := by
    simpa using Regex.matchLength?_char_of_contains (CharSet.contains_all c)
  have hplain (action : Action) :
      (Line.plain .anything action).rule.matchLength? (c :: rest) = some c.utf8Size := by
    simpa using Line.matchLength?_plain (List.cons_ne_nil c []) hfound
  cases state with
  | root | comment | doubleQuoted | singleQuoted => exact hplain _

/-- No earlier line is for any character, and outside of comments and strings none makes errors. -/
theorem source_of_mem_earlier {state : State} {line : Line} (h : line ∈ earlier state) :
    line.form.source ≠ anyChar ∧ (state = .root → line.action.category? ≠ some .error) := by
  have hall : ∀ s ∈ State.all, ∀ l ∈ earlier s,
      l.form.source ≠ anyChar ∧ (s = .root → l.action.category? ≠ some .error) := by
    decide
  exact hall state state.mem_all line h

/-! ## What the earlier lines find -/

/-- No line of the state but the last finds anything. -/
def Misses (state : State) (text : Text) : Prop :=
  ∀ line ∈ earlier state, line.rule.matchLength? text = none

variable {state : State} {c : Char} {rest text : Text} {s : Selection}

theorem misses_of_not_begun (h : (begun state).contains c = false) : Misses state (c :: rest) := by
  intro line hline
  rw [begun, CharSet.contains_unions, List.any_map, List.any_eq_false] at h
  have hfirsts : line.form.regex.firsts.contains c = false := by simpa using h line hline
  exact Line.matchLength?_eq_none_of_firsts hfirsts

theorem not_misses_of_settled (h : (settled state).contains c = true) :
    ¬ Misses state (c :: rest) := by
  intro hmisses
  rw [settled, CharSet.contains_unions, List.any_map, List.any_eq_true] at h
  obtain ⟨line, hmem, hc⟩ := h
  obtain ⟨hline, hlookahead⟩ := List.mem_filter.1 hmem
  have hadmits : line.rule.Admits [c] rest := by
    refine ⟨List.cons_ne_nil c [], ?_, ?_⟩
    · exact line.form.matches_pattern_iff.2 (Regex.matches_singleton line.form.plain hc none [])
    · simp [Line.rule, Option.isNone_iff_eq_none.1 hlookahead]
  obtain ⟨n, hn, -⟩ := Line.exists_matchLength?_of_admits hadmits
  rw [List.singleton_append, hmisses line hline] at hn
  cases hn

/-- Where an earlier line finds something, an earlier line is selected. -/
theorem exists_earlier_of_select (hmisses : ¬ Misses state text)
    (h : Grammar.jsoniq.select state text = some s) :
    ∃ line ∈ earlier state, line.rule = s.rule := by
  obtain ⟨before, after, hrules, -, hbefore, -⟩ := Grammar.select_eq_some_iff.1 h
  rw [rules_eq_earlier] at hrules
  -- not all of the earlier rules stand before the selected one
  have hothers (more : List Rule) : before ≠ (earlier state).map Line.rule ++ more := by
    rintro rfl
    apply hmisses
    intro line hline
    exact hbefore line.rule (List.mem_append_left more (List.mem_map_of_mem hline))
  rcases List.append_eq_append_iff.1 hrules with ⟨more, hmap, -⟩ | ⟨more, hmap, hmore⟩
  · exact absurd hmap (hothers more)
  · cases more with
    | nil =>
        rw [List.append_nil] at hmap
        exact absurd (hmap.symm.trans (List.append_nil _).symm) (hothers [])
    | cons rule more =>
        obtain ⟨rfl, -⟩ := List.cons.inj hmore
        have hmem : s.rule ∈ (earlier state).map Line.rule := by
          rw [hmap]
          exact List.mem_append_right before List.mem_cons_self
        exact List.mem_map.1 hmem

/-- Where no earlier line finds anything, the last one takes one character. -/
theorem select_of_misses (hmisses : Misses state (c :: rest)) :
    Grammar.jsoniq.select state (c :: rest) =
      some ⟨(earlier state).length, (last state).rule, c.utf8Size⟩ := by
  apply Grammar.select_eq_some_iff.2
  refine ⟨(earlier state).map Line.rule, [], rules_eq_earlier state, (List.length_map _).symm, ?_,
    matchLength?_last state c rest⟩
  intro rule hrule
  obtain ⟨line, hline, rfl⟩ := List.mem_map.1 hrule
  exact hmisses line hline

/-! ## Dollar signs -/

/-- A variable is found where a dollar sign is followed by the beginning of a word, and only there.
-/
theorem matchLength?_variableName_eq_none_iff {line : Line}
    (hform : line.form.regex = Form.variableName.regex) (hlookahead : line.lookahead = none) :
    line.rule.matchLength? ('$' :: rest) = none ↔
      ∀ d ∈ rest.head?, Text.beginsWord d = false := by
  constructor
  · intro hnone d hd
    obtain ⟨rest, rfl⟩ := List.head?_eq_some_iff.1 hd
    by_contra hword
    rw [Bool.not_eq_false, ← contains_wordFirst] at hword
    have hadmits : line.rule.Admits ['$', d] rest := by
      refine ⟨List.cons_ne_nil '$' [d], ?_, ?_⟩
      · rw [Line.rule, Form.matches_pattern_iff, hform]
        exact ⟨['$'], [d], rfl, ⟨'$', rfl, by simp⟩, [d], [], rfl, ⟨d, rfl, hword⟩, 0, trivial, rfl⟩
      · simp [Line.rule, hlookahead]
    obtain ⟨n, hn, -⟩ := Line.exists_matchLength?_of_admits hadmits
    rw [show ['$', d] ++ rest = '$' :: d :: rest from rfl, hnone] at hn
    cases hn
  · intro hrest
    cases hn : line.rule.matchLength? ('$' :: rest) with
    | none => rfl
    | some n =>
        obtain ⟨x, tail, htext, ⟨-, hx, -⟩, -⟩ := Line.admits_of_matchLength? hn
        rw [Line.rule, Form.matches_pattern_iff, hform] at hx
        obtain ⟨_, x, rfl, ⟨_, rfl, -⟩, _, y, rfl, ⟨d, rfl, hd⟩, -⟩ := hx
        obtain ⟨-, rfl⟩ := List.cons.inj htext
        have hword := hrest d rfl
        rw [← contains_wordFirst, hd] at hword
        cases hword

/-- Outside of comments and strings, a dollar sign begins the two kinds of variables and nothing
else. -/
theorem misses_dollar_iff :
    Misses .root ('$' :: rest) ↔ ∀ d ∈ rest.head?, d ≠ '$' ∧ Text.beginsWord d = false := by
  have hcontext : (earlier .root)[5]? =
      some (.plain (.fixed ['$', '$']) (.plain .contextItem)) := rfl
  have hvariable : (earlier .root)[6]? = some (.plain .variableName (.plain .variableName)) := rfl
  constructor
  · intro hmisses d hd
    have hname := hmisses _ (List.mem_of_getElem? hvariable)
    refine ⟨?_, (matchLength?_variableName_eq_none_iff rfl rfl).1 hname d hd⟩
    rintro rfl
    obtain ⟨rest, rfl⟩ := List.head?_eq_some_iff.1 hd
    have hfound := @Line.matchLength?_fixed (.fixed ['$', '$']) ['$', '$'] rest
      (.plain .contextItem) rfl (by simp)
    have hnone := hmisses _ (List.mem_of_getElem? hcontext)
    rw [show '$' :: '$' :: rest = ['$', '$'] ++ rest from rfl, hfound] at hnone
    cases hnone
  · intro hrest line hline
    have hall : ∀ l ∈ earlier .root, l.form.regex = .ofText ['$', '$'] ∨
        l.form.regex = Form.variableName.regex ∧ l.lookahead.isNone = true ∨
          l.form.regex.firsts.contains '$' = false := by
      decide
    rcases hall line hline with hform | ⟨hform, hlookahead⟩ | hfirsts
    · refine Line.matchLength?_fixed_eq_none hform ?_
      rintro ⟨after, hafter⟩
      obtain ⟨-, rfl⟩ := List.cons.inj hafter
      exact (hrest '$' rfl).1 rfl
    · rw [Option.isNone_iff_eq_none] at hlookahead
      exact (matchLength?_variableName_eq_none_iff hform hlookahead).2 fun d hd => (hrest d hd).2
    · exact Line.matchLength?_eq_none_of_firsts hfirsts

theorem misses_root_iff (htext : text ≠ []) : Misses .root text ↔ text.BeginsStray := by
  obtain ⟨c, rest, rfl⟩ := List.exists_cons_of_ne_nil htext
  have hbegun := contains_begun_root c
  cases hforeign : Text.isForeign c with
  | true =>
      rw [hforeign] at hbegun
      exact ⟨fun _ => .inl hforeign, fun _ => misses_of_not_begun hbegun⟩
  | false =>
      rw [hforeign] at hbegun
      rw [Text.BeginsStray, hforeign]
      by_cases hc : c = '$'
      · subst hc
        rw [misses_dollar_iff]
        simp
      · have hsettled : ¬ Misses .root (c :: rest) :=
          not_misses_of_settled (contains_settled_root hbegun hc)
        simp [hsettled, hc]

/-! ## What is caught -/

/-- The rule is for any character. -/
def IsCatchAll (rule : Rule) : Prop := rule.pattern.source = anyChar ∧ rule.lookahead = none

theorem isCatchAll_last (state : State) : IsCatchAll (last state).rule := by
  cases state <;> exact ⟨rfl, rfl⟩

/-- Where no earlier line finds anything outside of comments and strings, one character is an error.
-/
theorem exists_error_of_misses (hmisses : Misses .root (c :: rest)) :
    ∃ s, Grammar.jsoniq.select .root (c :: rest) = some s ∧ Text.byteLength [c] = s.length ∧
      Grammar.jsoniq.categoryOf s.rule.action [c] = .error ∧ IsCatchAll s.rule := by
  refine ⟨_, select_of_misses hmisses, ?_, rfl, isCatchAll_last .root⟩
  simp

/-- Where an earlier line finds something, the last rule is not selected, and outside of comments
and strings there is no error. -/
theorem not_isCatchAll_of_select (hmisses : ¬ Misses state text)
    (h : Grammar.jsoniq.select state text = some s) :
    ¬ IsCatchAll s.rule ∧
      (state = .root → ∀ lexeme, Grammar.jsoniq.categoryOf s.rule.action lexeme ≠ .error) := by
  obtain ⟨line, hline, hrule⟩ := exists_earlier_of_select hmisses h
  obtain ⟨hsource, hcategory⟩ := source_of_mem_earlier hline
  rw [← hrule]
  constructor
  · rintro ⟨hanything, -⟩
    exact hsource hanything
  · intro hroot lexeme herror
    exact hcategory hroot (Grammar.category?_of_categoryOf herror rfl)

/-- The last rule of every state is for any character, and no other rule is. Outside of comments and
strings it is selected exactly where the text begins with a stray character; only there the lexeme
is an error, and it is that one character. Inside of them it is never selected. -/
theorem catches_stray_characters :
    (∀ state, ∃ rules rule, Grammar.jsoniq.rules state = rules ++ [rule] ∧ IsCatchAll rule ∧
      ∀ r ∈ rules, ¬ IsCatchAll r) ∧
    (∀ text : Text, text ≠ [] → ∃ s lexeme rest, Grammar.jsoniq.select .root text = some s ∧
      text = lexeme ++ rest ∧ lexeme.byteLength = s.length ∧
      (Grammar.jsoniq.categoryOf s.rule.action lexeme = .error ↔ text.BeginsStray) ∧
      (IsCatchAll s.rule ↔ text.BeginsStray) ∧ (text.BeginsStray → ∃ c, lexeme = [c])) ∧
    ∀ state, state ≠ .root → ∀ text : Text,
      (text ≠ [] → ∃ s, Grammar.jsoniq.select state text = some s) ∧
        ∀ s, Grammar.jsoniq.select state text = some s → ¬ IsCatchAll s.rule := by
  refine ⟨?_, ?_, ?_⟩
  · intro state
    refine ⟨(earlier state).map Line.rule, (last state).rule, rules_eq_earlier state,
      isCatchAll_last state, ?_⟩
    rintro r hr ⟨hanything, -⟩
    obtain ⟨line, hline, rfl⟩ := List.mem_map.1 hr
    exact (source_of_mem_earlier hline).1 hanything
  · intro text htext
    have hiff : Misses .root text ↔ text.BeginsStray := misses_root_iff htext
    by_cases hmisses : Misses .root text
    · obtain ⟨c, rest, rfl⟩ := List.exists_cons_of_ne_nil htext
      have hstray := hiff.1 hmisses
      obtain ⟨s, hs, hlength, herror, hcatchAll⟩ := exists_error_of_misses hmisses
      exact ⟨s, [c], rest, hs, rfl, hlength, iff_of_true herror hstray,
        iff_of_true hcatchAll hstray, fun _ => ⟨c, rfl⟩⟩
    · have hstray := mt hiff.2 hmisses
      obtain ⟨s, hs⟩ := exists_select .root htext
      obtain ⟨hcatchAll, herror⟩ := not_isCatchAll_of_select hmisses hs
      obtain ⟨lexeme, rest, hlexeme, -, hlength⟩ := Grammar.of_select hs
      exact ⟨s, lexeme, rest, hs, hlexeme, hlength, iff_of_false (herror rfl lexeme) hstray,
        iff_of_false hcatchAll hstray, fun h => absurd h hstray⟩
  · intro state hstate text
    refine ⟨exists_select state, ?_⟩
    intro s hs
    obtain ⟨lexeme, rest, rfl, hne, -⟩ := Grammar.of_select hs
    obtain ⟨c, lexeme, rfl⟩ := List.exists_cons_of_ne_nil hne
    have hsettled : ¬ Misses state (c :: (lexeme ++ rest)) :=
      not_misses_of_settled (contains_settled hstate c)
    exact (not_isCatchAll_of_select hsettled hs).1

/-- A dollar sign before a digit is an error outside of comments, and not inside of them. -/
theorem catches_stray_characters_dollar :
    Text.BeginsStray "$1".toList ∧
    (∃ s, Grammar.jsoniq.select .root "$1".toList = some s ∧ IsCatchAll s.rule) ∧
      ∃ s, Grammar.jsoniq.select .comment "$1".toList = some s ∧ ¬ IsCatchAll s.rule := by
  have htext : "$1".toList ≠ [] := by decide
  have hcomment : State.comment ≠ .root := by decide
  have hstray : Text.BeginsStray "$1".toList := by
    refine .inr ⟨rfl, ?_⟩
    rintro d ⟨⟩
    decide
  obtain ⟨-, hroot, hothers⟩ := catches_stray_characters
  obtain ⟨s, lexeme, rest, hs, -, -, -, hcatchAll, -⟩ := hroot "$1".toList htext
  obtain ⟨hselect, hnever⟩ := hothers .comment hcomment "$1".toList
  obtain ⟨s', hs'⟩ := hselect htext
  exact ⟨hstray, ⟨s, hs, hcatchAll.2 hstray⟩, s', hs', hnever s' hs'⟩

end Jsoniq
end JsoniqLexer

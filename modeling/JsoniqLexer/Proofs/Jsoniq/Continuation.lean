import JsoniqLexer.Proofs.Jsoniq.Selection
import JsoniqLexer.Proofs.Lexer.Step

/-!
# What more text after a text changes

A rule that is selected where more text follows is selected without that text too, if the lookahead
does not need it (`select_of_select_append`). In the other direction, outside of comments and strings
text that does not begin with a character of `joining` is never reached by a rule before it; inside,
the rule stays the same where it has not used up the text or leaves the construct
(`selects_append`). A lexer that `Extends` another, with more text after what it has to read, makes
the same steps where it selects the same rules.
-/

set_option autoImplicit false

namespace JsoniqLexer

open Pattern

namespace Jsoniq

/-! ## Without the text after -/

/-- What a line does not find, it does not find without the text after. -/
theorem Line.matchLength?_eq_none_of_append {line : Line} {text more : Text}
    (h : line.rule.matchLength? (text ++ more) = none) : line.rule.matchLength? text = none := by
  cases hn : line.rule.matchLength? text with
  | none => rfl
  | some n =>
      have hadmits := line.rule.lexemeLengths_subset_append text more (admits_of_matchLength? hn)
      obtain ⟨x, rest, hx, hadmit, -⟩ := hadmits
      obtain ⟨m, hm, -⟩ := exists_matchLength?_of_admits hadmit
      rw [← hx, h] at hm
      cases hm

/-- What a line finds, it finds without the text after what it looks at. -/
theorem Line.matchLength?_of_append {line : Line} {lexeme rest more : Text}
    (h : line.rule.matchLength? (lexeme ++ (rest ++ more)) = some lexeme.byteLength)
    (hafter : line.rule.allowsAfter rest = true) :
    line.rule.matchLength? (lexeme ++ rest) = some lexeme.byteLength := by
  obtain ⟨hmem, hgreatest⟩ := line.matchLength?_eq_some_iff.1 h
  obtain ⟨x, tail, htext, ⟨hne, hx, -⟩, hlength⟩ := hmem
  obtain ⟨rfl, -⟩ := Text.append_inj_of_byteLength htext hlength.symm
  refine line.matchLength?_eq_some_iff.2 ⟨?_, ?_⟩
  · exact ⟨lexeme, rest, rfl, ⟨hne, hx, line.allowsAfter_iff.1 hafter⟩, rfl⟩
  · intro n hn
    rw [← List.append_assoc] at hgreatest
    exact hgreatest (line.rule.lexemeLengths_subset_append _ more hn)

/-- The rule that is selected is selected without the text after what its lookahead needs. -/
theorem select_of_select_append {state : State} {lexeme rest more : Text} {s : Selection}
    (h : Grammar.jsoniq.select state (lexeme ++ (rest ++ more)) = some s)
    (hlength : lexeme.byteLength = s.length) (hafter : s.rule.allowsAfter rest = true) :
    Grammar.jsoniq.select state (lexeme ++ rest) = some s := by
  obtain ⟨before, after, hrules, hindex, hnone, hmatch⟩ := Grammar.select_eq_some_iff.1 h
  have hline (r : Rule) (hr : r ∈ before ++ s.rule :: after) : ∃ line : Line, line.rule = r := by
    rw [← hrules, rules_eq] at hr
    obtain ⟨line, -, hline⟩ := List.mem_map.1 hr
    exact ⟨line, hline⟩
  refine Grammar.select_eq_some_iff.2 ⟨before, after, hrules, hindex, ?_, ?_⟩
  · intro r hr
    obtain ⟨line, rfl⟩ := hline r (List.mem_append_left _ hr)
    have hbefore := hnone _ hr
    rw [← List.append_assoc] at hbefore
    exact Line.matchLength?_eq_none_of_append hbefore
  · obtain ⟨line, hrule⟩ := hline s.rule (by simp)
    rw [← hrule, ← hlength] at hmatch ⊢
    rw [← hrule] at hafter
    exact Line.matchLength?_of_append hmatch hafter

/-! ## With text after that joins nothing -/

/-- The characters by which a text may go on a lexeme before it, or be looked at from there: blanks,
letters, digits, and some marks. -/
def joining : CharSet :=
  ((blank.union letter).union digit).union
    (.ofRanges [('_', '_'), ('-', '-'), ('+', '+'), ('.', '.'), (':', ':'), ('=', '='), ('?', '?'),
      ('$', '$'), ('"', '"'), ('\'', '\''), ('(', '(')])

/-- After its first character, the line looks only at characters of the set. -/
def Line.staysWithin (set : CharSet) (line : Line) : Bool :=
  line.form.regex.laters.isWithin set &&
    line.lookahead.all fun f => f.regex.letters.isWithin set

theorem staysWithin_joining {line : Line} (h : line ∈ lines .root) :
    line.staysWithin joining = true := by
  have hall : ∀ l ∈ lines .root, l.staysWithin joining = true := by decide +kernel
  exact hall line h

/-- A beginning of a text and more does not reach into what is more than the text, or goes on over its
first character. -/
theorem exists_of_append_eq {text more x tail : Text} (h : text ++ more = x ++ tail) :
    (∃ rest, text = x ++ rest ∧ tail = rest ++ more) ∨
      ∃ c y, more.head? = some c ∧ x = text ++ c :: y := by
  rcases List.append_eq_append_iff.1 h with ⟨y, rfl, rfl⟩ | ⟨rest, rfl, rfl⟩
  · cases y with
    | nil => exact .inl ⟨[], by simp, by simp⟩
    | cons c y => exact .inr ⟨c, y, rfl, rfl⟩
  · exact .inl ⟨rest, rfl, rfl⟩

/-- A line may take the same whether or not there is text after that joins nothing. -/
theorem Line.lexemeLengths_append {line : Line} {set : CharSet} (h : line.staysWithin set = true)
    {text more : Text} (htext : text ≠ []) (hmore : ∀ c ∈ more.head?, set.contains c = false) :
    line.rule.lexemeLengths (text ++ more) = line.rule.lexemeLengths text := by
  obtain ⟨hlaters, hlookahead⟩ := Bool.and_eq_true_iff.1 h
  apply Set.Subset.antisymm
  · rintro n ⟨x, tail, hx, ⟨hne, hmatches, hafter⟩, rfl⟩
    -- neither the lexeme nor what the lookahead matches holds the first character of `more`
    rcases exists_of_append_eq hx with ⟨rest, rfl, rfl⟩ | ⟨c, y, hc, rfl⟩
    · refine ⟨x, rest, rfl, ⟨hne, hmatches, ?_⟩, rfl⟩
      intro p hp
      obtain ⟨y, z, hy, hp'⟩ := hafter p hp
      rcases exists_of_append_eq hy with ⟨z', rfl, -⟩ | ⟨c, z', hc, rfl⟩
      · exact ⟨y, z', rfl, hp'⟩
      · obtain ⟨f, hf, rfl⟩ := Option.map_eq_some_iff.1 hp
        rw [hf] at hlookahead
        have hletter := Regex.contains_letters (f.matches_pattern_iff.1 hp') c (by simp)
        have hmem := CharSet.contains_of_isWithin hlookahead hletter
        rw [hmore c hc] at hmem
        cases hmem
    · obtain ⟨d, text, rfl⟩ := List.exists_cons_of_ne_nil htext
      have hlater := Regex.contains_laters (line.form.matches_pattern_iff.1 hmatches) c (by simp)
      have hmem := CharSet.contains_of_isWithin hlaters hlater
      rw [hmore c hc] at hmem
      cases hmem
  · exact line.rule.lexemeLengths_subset_append text more

/-- Outside of comments and strings, the same rule is selected. -/
theorem select_root_append {text more : Text} (htext : text ≠ [])
    (hmore : ∀ c ∈ more.head?, joining.contains c = false) :
    Grammar.jsoniq.select .root (text ++ more) = Grammar.jsoniq.select .root text := by
  apply Grammar.select_congr
  intro rule hmem
  rw [rules_eq] at hmem
  obtain ⟨line, hline, rfl⟩ := List.mem_map.1 hmem
  apply Option.ext
  intro n
  rw [line.matchLength?_eq_some_iff, line.matchLength?_eq_some_iff,
    Line.lexemeLengths_append (staysWithin_joining hline) htext hmore]

/-- What is true of the first character of both texts is true of the first character of the texts
together. -/
theorem forall_head?_append {p : Char → Prop} {rest more : Text} (hrest : ∀ c ∈ rest.head?, p c)
    (hmore : ∀ c ∈ more.head?, p c) : ∀ c ∈ (rest ++ more).head?, p c := by
  cases rest with
  | nil => exact hmore
  | cons d rest => exact hrest

/-- More text does not make the beginning of a text that is long enough another one. -/
theorem not_prefix_append {x text : Text} (h : ¬ x <+: text) (hlength : x.length ≤ text.length)
    (more : Text) : ¬ x <+: text ++ more := by
  intro hbegins
  exact h (List.prefix_of_prefix_length_le hbegins (List.prefix_append text more) hlength)

/-- The text after a lexeme lets the action be as it is, whatever follows the text: there is some
text after the lexeme, or the construct is left, or nothing follows. -/
def Settles (rest : Text) (action : Action) (more : Text) : Prop :=
  rest ≠ [] ∨ action.isPop = true ∨ more = []

/-- Where the construct goes on, what is true of the first character after the lexeme is true of it
with more text too. -/
theorem Settles.forall_head? {p : Char → Prop} {rest more : Text} {action : Action}
    (h : Settles rest action more) (hpop : action.isPop = false) (hrest : ∀ c ∈ rest.head?, p c) :
    ∀ c ∈ (rest ++ more).head?, p c := by
  rcases h with hne | hpop' | rfl
  · rw [List.head?_append_of_ne_nil rest hne]
    exact hrest
  · rw [hpop] at hpop'
    cases hpop'
  · rw [List.append_nil]
    exact hrest

/-- A bracket or a colon that begins no mark begins none with more text either, where the character
after it decides. -/
theorem selects_comment_bracket_append {c : Char} {tail more : Text}
    (hc : commentMark.contains c = true) (hopen : ¬ ['(', ':'] <+: c :: tail)
    (hclose : ¬ [':', ')'] <+: c :: tail) (hsettles : Settles tail (.plain .comment) more) :
    Selects .comment (c :: tail ++ more) (.plain .comment) [c] := by
  rcases hsettles with hne | hpop | rfl
  · have hlength : 2 ≤ (c :: tail).length := by
      have hpos := List.length_pos_iff.2 hne
      rw [List.length_cons]
      omega
    apply selects_comment_bracket hc
    · exact not_prefix_append hopen hlength more
    · exact not_prefix_append hclose hlength more
  · cases hpop
  · rw [List.append_nil]
    exact selects_comment_bracket hc hopen hclose

/-- What is selected inside of a comment, whatever follows the text. -/
theorem exists_selects_comment {text : Text} (htext : text ≠ []) :
    ∃ action lexeme rest, text = lexeme ++ rest ∧
      ∀ more, Settles rest action more → Selects .comment (text ++ more) action lexeme := by
  obtain ⟨c, tail, rfl⟩ := List.exists_cons_of_ne_nil htext
  by_cases hopen : ['(', ':'] <+: c :: tail
  · obtain ⟨rest, hrest⟩ := hopen
    rw [← hrest]
    refine ⟨.push .comment .comment, ['(', ':'], rest, rfl, ?_⟩
    intro more _
    rw [List.append_assoc]
    exact selects_comment_open (rest ++ more)
  by_cases hclose : [':', ')'] <+: c :: tail
  · obtain ⟨rest, hrest⟩ := hclose
    rw [← hrest]
    refine ⟨.pop .comment, [':', ')'], rest, rfl, ?_⟩
    intro more _
    rw [List.append_assoc]
    exact selects_comment_close (rest ++ more)
  by_cases hc : commentMark.contains c = true
  · refine ⟨.plain .comment, [c], tail, rfl, ?_⟩
    intro more hsettles
    exact selects_comment_bracket_append hc hopen hclose hsettles
  · obtain ⟨run, rest, hrun, hne, hall, hrest⟩ :=
      @Text.exists_run (fun d => !commentMark.contains d) c (by simpa using hc) tail
    rw [hrun]
    refine ⟨.plain .comment, run, rest, rfl, ?_⟩
    intro more hsettles
    rw [List.append_assoc]
    apply selects_comment_text hne
    · intro d hd
      simpa using hall d hd
    · refine hsettles.forall_head? rfl ?_
      simpa using hrest

theorem not_mark_of_not_joining (q : Quote) {c : Char} (h : joining.contains c = false) :
    c ≠ q.mark := by
  rintro rfl
  have hmark : joining.contains q.mark = true := by cases q <;> decide
  rw [hmark] at h
  cases h

/-- What is selected inside of a string, whatever follows the text that joins nothing. -/
theorem exists_selects_string (q : Quote) {text : Text} (htext : text ≠ []) :
    ∃ action lexeme rest, text = lexeme ++ rest ∧
      ∀ more, (∀ c ∈ more.head?, joining.contains c = false) → Settles rest action more →
        Selects q.state (text ++ more) action lexeme := by
  obtain ⟨c, tail, rfl⟩ := List.exists_cons_of_ne_nil htext
  by_cases hc : c = q.mark
  · subst hc
    by_cases htwice : tail.head? = some q.mark
    · obtain ⟨rest, rfl⟩ := List.head?_eq_some_iff.1 htwice
      refine ⟨.plain q.category, [q.mark, q.mark], rest, rfl, ?_⟩
      intro more _ _
      exact selects_string_twice q (rest ++ more)
    · refine ⟨.pop q.category, [q.mark], tail, rfl, ?_⟩
      intro more hmore _
      have htail : ∀ d ∈ tail.head?, d ≠ q.mark := by
        rintro d hd rfl
        exact htwice hd
      have hmark : ∀ d ∈ more.head?, d ≠ q.mark := by
        intro d hd
        exact not_mark_of_not_joining q (hmore d hd)
      exact selects_string_once q (forall_head?_append htail hmark)
  · obtain ⟨run, rest, hrun, hne, hall, hrest⟩ :=
      @Text.exists_run (fun d => decide (d ≠ q.mark)) c (by simpa using hc) tail
    rw [hrun]
    refine ⟨.plain q.category, run, rest, rfl, ?_⟩
    intro more _ hsettles
    rw [List.append_assoc]
    apply selects_string_body q hne
    · intro d hd
      simpa using hall d hd
    · refine hsettles.forall_head? rfl ?_
      simpa using hrest

/-- What is selected inside of a construct, whatever follows the text that joins nothing. -/
theorem exists_selects_inside {state : State} (hstate : state ≠ .root) {text : Text}
    (htext : text ≠ []) :
    ∃ action lexeme rest, text = lexeme ++ rest ∧
      ∀ more, (∀ c ∈ more.head?, joining.contains c = false) → Settles rest action more →
        Selects state (text ++ more) action lexeme := by
  cases state with
  | root => exact absurd rfl hstate
  | comment =>
      obtain ⟨action, lexeme, rest, heq, hselects⟩ := exists_selects_comment htext
      refine ⟨action, lexeme, rest, heq, ?_⟩
      intro more _ hsettles
      exact hselects more hsettles
  | doubleQuoted => exact exists_selects_string .double htext
  | singleQuoted => exact exists_selects_string .single htext

/-- A state selects one action and one lexeme. -/
theorem Selects.eq {state : State} {text lexeme lexeme' rest rest' : Text} {action action' : Action}
    (h : Selects state text action lexeme) (h' : Selects state text action' lexeme')
    (hrest : text = lexeme ++ rest) (hrest' : text = lexeme' ++ rest') :
    action' = action ∧ lexeme' = lexeme ∧ rest' = rest := by
  obtain ⟨s, hs, rfl, hlength⟩ := h
  obtain ⟨s', hs', rfl, hlength'⟩ := h'
  obtain rfl : s = s' := Option.some.inj (hs.symm.trans hs')
  rw [hrest] at hrest'
  obtain ⟨rfl, rfl⟩ := Text.append_inj_of_byteLength hrest' (hlength.symm.trans hlength')
  exact ⟨rfl, rfl, rfl⟩

/-- What is selected stays selected with text after that joins nothing: outside of comments and
strings always, and inside where the lexeme does not go to the end of the text or leaves the
construct. -/
theorem Selects.append {state : State} {lexeme rest more : Text} {action : Action}
    (h : Selects state (lexeme ++ rest) action lexeme) (hne : lexeme ≠ [])
    (hmore : ∀ c ∈ more.head?, joining.contains c = false)
    (hsettles : state = .root ∨ rest ≠ [] ∨ action.isPop = true) :
    Selects state (lexeme ++ rest ++ more) action lexeme := by
  have htext : lexeme ++ rest ≠ [] := List.append_ne_nil_of_left_ne_nil hne rest
  by_cases hroot : state = .root
  · subst hroot
    rw [Selects, select_root_append htext hmore]
    exact h
  · obtain ⟨action', lexeme', rest', heq, hselects⟩ := exists_selects_inside hroot htext
    -- what is found for any text after is found for none, so it is what is selected here
    have hbare := hselects [] (by simp) (.inr (.inr rfl))
    rw [List.append_nil] at hbare
    obtain ⟨rfl, rfl, rfl⟩ := h.eq hbare rfl heq
    apply hselects more hmore
    rcases hsettles with hroot' | hrest | hpop
    · exact absurd hroot' hroot
    · exact .inl hrest
    · exact .inr (.inl hpop)

end Jsoniq

namespace Lexer

/-- The second lexer is the first, with more text after what it has to read. -/
structure Extends (more : Text) (l m : Lexer) : Prop where
  grammar : m.grammar = l.grammar
  remaining : m.cursor.remaining = l.cursor.remaining ++ more
  position : m.position = l.position
  top : m.top = l.top
  below : m.below = l.below

namespace Extends

variable {more lexeme lexeme' : Text} {l m next next' : Lexer} {s s' : Selection}

theorem state_eq (h : l.Extends more m) : m.state = l.state := by
  rw [state, h.top, state]

theorem transition (h : l.Extends more m) (action : Action) :
    (m.transition action).top = (l.transition action).top ∧
      (m.transition action).below = (l.transition action).below := by
  cases action with
  | plain category => exact ⟨h.top, h.below⟩
  | classified => exact ⟨h.top, h.below⟩
  | push category target =>
      constructor
      · exact congrArg (Frame.mk target) h.position
      · exact congrArg₂ List.cons h.top h.below
  | pop category =>
      rw [Lexer.transition, Lexer.transition, h.below]
      cases l.below with
      | nil => exact ⟨h.top, h.below⟩
      | cons frame below => exact ⟨rfl, rfl⟩

/-- Where both take the same number of bytes and do the same, they take the same lexeme, and one goes
on with more text than the other. -/
theorem advances (h : l.Extends more m) (hl : l.Advances s lexeme next)
    (hm : m.Advances s' lexeme' next') (haction : s'.rule.action = s.rule.action)
    (hlength : s'.length = s.length) : lexeme' = lexeme ∧ next.Extends more next' := by
  have htext := hm.remaining
  rw [h.remaining, hl.remaining, List.append_assoc] at htext
  have hbytes := hl.length.trans (hlength.symm.trans hm.length.symm)
  obtain ⟨rfl, hrest⟩ := Text.append_inj_of_byteLength htext hbytes
  obtain ⟨htop, hbelow⟩ := h.transition s.rule.action
  refine ⟨rfl, ?_, hrest.symm, ?_, ?_, ?_⟩
  · rw [hm.grammar, hl.grammar, h.grammar]
  · rw [hm.position, hl.position, h.position]
  · rw [hm.top, hl.top, haction, htop]
  · rw [hm.below, hl.below, haction, hbelow]

theorem tokenFor_eq (h : l.Extends more m) (haction : s'.rule.action = s.rule.action)
    (lexeme : Text) : m.tokenFor s' lexeme = l.tokenFor s lexeme := by
  rw [tokenFor, tokenFor, h.grammar, h.position, haction]

end Extends

end Lexer

end JsoniqLexer

import JsoniqLexer.Proofs.Jsoniq.Opening
import JsoniqLexer.Proofs.Text.Lines

/-!
# What the end of a scan says

The end that is reported is exact (`termination_is_exact`): a scan that ends with nothing open is back
outside of everything, and a scan that ends inside of a construct tells where the text can be cut, so
that nothing is open before the cut and the construct is open after it (`EndsInside`).

To cut the text there may change what is read before the cut, since a lookahead may have needed the
text after it: the name of a function becomes two words and a colon. But then only blanks stand
between the name and the cut, and nothing is opened by any of these characters
(`Extends.endsOutside`).
-/

set_option autoImplicit false

namespace JsoniqLexer

open TokenStream Token Pattern Jsoniq

namespace Jsoniq

/-- The characters that openers begin with. -/
def opening : CharSet := .ofRanges [('(', '('), ('"', '"'), ('\'', '\'')]

theorem exists_opening_of_opener {state : State} (h : state ≠ .root) :
    ∃ c ∈ state.opener, opening.contains c = true := by
  cases state with
  | root => exact absurd rfl h
  | comment => exact ⟨'(', by decide, by decide⟩
  | doubleQuoted => exact ⟨'"', by decide, by decide⟩
  | singleQuoted => exact ⟨'\'', by decide, by decide⟩

/-- The one line with a lookahead stands outside of everything. It looks for blanks and a bracket, and
takes no character that openers begin with. -/
theorem lookahead_of_mem_lines {state : State} {line : Line} (h : line ∈ lines state) :
    ∀ f ∈ line.lookahead, state = .root ∧ f.regex = Form.openingBracket.regex ∧
      line.form.regex.letters.isDisjoint opening = true := by
  have hall : ∀ s ∈ State.all, ∀ l ∈ lines s, ∀ f ∈ l.lookahead, s = .root ∧
      f.regex = Form.openingBracket.regex ∧ l.form.regex.letters.isDisjoint opening = true := by
    decide +kernel
  exact hall state state.mem_all line h

/-- A lookahead for blanks and a bracket that needs text after `rest` finds only blanks in it. -/
theorem blank_of_lookahead {f : Form} {rest more : Text}
    (hregex : f.regex = Form.openingBracket.regex)
    (hmore : ∃ y z, rest ++ more = y ++ z ∧ f.pattern.Matches y)
    (hrest : ¬ ∃ y z, rest = y ++ z ∧ f.pattern.Matches y) :
    ∀ c ∈ rest, blank.contains c = true := by
  obtain ⟨y, z, hsplit, hy⟩ := hmore
  have hmatches := f.matches_pattern_iff.1 hy
  rw [hregex] at hmatches
  obtain ⟨blanks, rfl, hblanks⟩ := exists_blanks_of_matches hmatches
  rcases exists_of_append_eq hsplit with ⟨z', hfound, -⟩ | ⟨c, z', -, hlonger⟩
  · exact absurd ⟨blanks ++ ['('], z', hfound, hy⟩ hrest
  · -- the bracket stands after `rest`
    have hbegins : blanks = rest ++ (c :: z').dropLast := by
      have hdrop := congrArg List.dropLast hlonger
      rw [List.dropLast_concat, List.dropLast_append_of_ne_nil (List.cons_ne_nil c z')] at hdrop
      exact hdrop
    intro d hd
    apply hblanks d
    rw [hbegins]
    exact List.mem_append_left _ hd

/-- Where a lookahead needs text after `rest`, nothing is opened in the text before. -/
theorem clear_of_lookahead {state : State} {line : Line} {lexeme rest more : Text}
    (h : line ∈ lines state)
    (hmatch : line.rule.matchLength? (lexeme ++ (rest ++ more)) = some lexeme.byteLength)
    (hafter : line.rule.allowsAfter rest = false) :
    state = .root ∧ ∀ c ∈ lexeme ++ rest, opening.contains c = false := by
  obtain ⟨x, tail, htext, ⟨-, hx, hmore⟩, hlength⟩ := Line.admits_of_matchLength? hmatch
  obtain ⟨rfl, rfl⟩ := Text.append_inj_of_byteLength htext hlength.symm
  have hrest : ¬ ∀ p ∈ line.rule.lookahead, ∃ y z, rest = y ++ z ∧ p.Matches y := by
    rw [← line.allowsAfter_iff, hafter]
    exact Bool.false_ne_true
  obtain ⟨p, hrest⟩ := Classical.not_forall.1 hrest
  obtain ⟨hp, hnot⟩ := Classical.not_imp.1 hrest
  obtain ⟨f, hf, rfl⟩ := Option.map_eq_some_iff.1 hp
  obtain ⟨hroot, hregex, hdisjoint⟩ := lookahead_of_mem_lines h f hf
  refine ⟨hroot, ?_⟩
  intro c hc
  rcases List.mem_append.1 hc with hc | hc
  · have hletter := Regex.contains_letters (line.form.matches_pattern_iff.1 hx) c hc
    exact CharSet.contains_eq_false_of_isDisjoint hdisjoint hletter
  · have hblank : blank.isDisjoint opening = true := by decide
    exact CharSet.contains_eq_false_of_isDisjoint hblank
      (blank_of_lookahead hregex (hmore _ hp) hnot c hc)

end Jsoniq

namespace Lexer

variable {kind : State} {l m k next : Lexer} {t : Token}

theorem EndsOutside.of_step (hstep : l.step = (.ok (some t), next)) (h : next.EndsOutside) :
    l.EndsOutside := by
  obtain ⟨ts, last, hrun, hend, hinner⟩ := h
  exact ⟨t :: ts, last, .cons hstep hrun, hend, hinner⟩

/-- Outside of everything, and with no opener to come, a lexer stays outside. -/
theorem Nests.endsOutside_of_clear (h : l.Nests kind) (hinner : l.inner = [])
    (hclear : ∀ c ∈ l.cursor.remaining, opening.contains c = false) : l.EndsOutside := by
  obtain ⟨ts, last, hrun, hend⟩ := exists_run_jsoniq h.grammar
  have hlast : (∃ kind, last.Nests kind) ∧ last.inner = [] ∧
      ∀ c ∈ last.cursor.remaining, opening.contains c = false := by
    refine hrun.preserves (p := fun l => (∃ kind, Nests kind l) ∧ l.inner = [] ∧
      ∀ c ∈ l.cursor.remaining, opening.contains c = false) ?_ ⟨⟨kind, h⟩, hinner, hclear⟩
    rintro l next t ⟨⟨kind, h⟩, hinner, hclear⟩ hstep
    obtain ⟨kind', hnext, -⟩ := h.step hstep
    obtain ⟨s, lexeme, hadvances, -⟩ := step_eq_token_iff.1 hstep
    refine ⟨⟨kind', hnext⟩, ?_, ?_⟩
    · by_contra hne
      obtain ⟨rest, hrest⟩ := h.opener_prefix hnext hinner hadvances hne
      obtain ⟨c, hc, hopening⟩ := exists_opening_of_opener hnext.kind_ne
      rw [hclear c (by rw [← hrest]; exact List.mem_append_left _ hc)] at hopening
      cases hopening
    · intro c hc
      apply hclear c
      rw [hadvances.remaining]
      exact List.mem_append_right _ hc
  exact ⟨ts, last, hrun, hend, hlast.2.1⟩

/-- Where the scan of a longer text comes to the end of a text with nothing open, the scan of the text
alone ends with nothing open. -/
theorem Extends.endsOutside {rest : Text} {as : List Token} (h : l.Extends rest m)
    (hnests : l.Nests kind) (hrun : Yields m as k) (hremaining : k.cursor.remaining = rest)
    (hinner : k.inner = []) : l.EndsOutside := by
  induction hrun generalizing l kind with
  | nil m =>
      have hnil : l.cursor.remaining = [] := by
        have htext := h.remaining
        rw [hremaining] at htext
        exact List.append_left_eq_self.1 htext.symm
      refine ⟨[], l, .nil l, ended_iff.2 hnil, ?_⟩
      rw [inner_eq_nil_iff, ← h.below, ← inner_eq_nil_iff]
      exact hinner
  | @cons m m' k t as hnext hlater ih =>
      obtain ⟨s, lexeme, hadvances, -⟩ := step_eq_token_iff.1 hnext
      have hselected := hadvances.selected
      have hafter := (covers_of_yields hlater).remaining
      have htext : l.cursor.remaining = lexeme ++ textOf as := by
        have hmore := h.remaining
        rw [hadvances.remaining, hafter, hremaining, ← List.append_assoc] at hmore
        exact (List.append_cancel_right hmore).symm
      rw [hadvances.remaining, hafter, hremaining, h.grammar, hnests.grammar, h.state_eq] at hselected
      cases hallows : s.rule.allowsAfter (textOf as) with
      | true =>
          -- the same step is made without the text after
          have hselect := select_of_select_append hselected hadvances.length hallows
          rw [← htext, ← hnests.grammar] at hselect
          obtain ⟨lexeme', next, hadvances'⟩ := exists_advances hselect
          obtain ⟨-, hextends⟩ := h.advances hadvances' hadvances rfl rfl
          have hstep := step_eq_token_iff.2 ⟨s, lexeme', hadvances', rfl⟩
          obtain ⟨kind', hnext', -⟩ := hnests.step hstep
          exact .of_step hstep (ih hextends hnext' hremaining hinner)
      | false =>
          obtain ⟨line, hline, hrule, hmatch⟩ := exists_line_of_select hselected
          rw [← hadvances.length] at hmatch
          rw [← hrule] at hallows
          obtain ⟨hroot, hclear⟩ := clear_of_lookahead hline hmatch hallows
          rw [← htext] at hclear
          exact hnests.endsOutside_of_clear (hnests.inner_eq_nil hroot) hclear

end Lexer

/-- Scanning the text comes to this end, whether the tokens are merged or not. -/
def Scan.EndsWith (source : Text) (termination : Termination) : Prop :=
  ∀ raw, ∃ tokens, Scan.of source raw = .ok ⟨tokens, termination⟩

theorem endsWith_of_run {source : Text} {tokens : List Token} {last : Lexer}
    (hrun : Yields (Grammar.jsoniq.lex source) tokens last) (hend : Ended last) :
    Scan.EndsWith source last.termination := by
  intro raw
  exact ⟨_, scan_of_run hrun hend raw⟩

/-- What it says about a text that it ends inside of a construct: `before` is the text before the
construct and `rest` the text from there on, and `tokens` are the tokens of the whole text. -/
structure EndsInside (source : Text) (tokens : List Token) (state : State) (openedAt : Nat)
    (before rest : Text) : Prop where
  state_ne : state ≠ .root
  divided : source.splitAt? openedAt = some (before, rest)
  opener : state.opener <+: rest
  before_complete : Scan.EndsWith before .complete
  rest_unterminated : Scan.EndsWith rest (.unterminated state 0)
  /-- The last token belongs to the construct. A string does not join what stands before it. -/
  last : ∃ t, tokens.getLast? = some t ∧ state.category? = some t.category ∧ t.start ≤ openedAt ∧
    (∀ q : Quote, state = q.state → t.start = openedAt) ∧ t.stop = source.byteLength
  /-- The warning names the construct and the position that leads to it. -/
  warning : ∃ p : Position, 1 ≤ p.line ∧ 1 ≤ p.column ∧ p.skip? source = some rest ∧
    (Termination.unterminated state openedAt).warning? source =
      .ok (some ("unterminated " ++ state.name ++ " opened at " ++ p.render))

/-- The text before the construct that is open at the end has nothing open. -/
theorem Lexer.OpensAt.before_complete {before rest : Text} {state : State} {openedAt : Nat}
    {t : Token} {earlier later : List Token} {k last : Lexer}
    (h : k.OpensAt state openedAt t later last)
    (hk : Yields (Grammar.jsoniq.lex (before ++ rest)) earlier k)
    (hremaining : k.cursor.remaining = rest) : Scan.EndsWith before .complete := by
  obtain ⟨ts, e, hrun, hend, hinner⟩ := (Lexer.extends_lex before rest).endsOutside
    (Lexer.nests_lex before) hk hremaining h.outside
  rw [← Lexer.termination_eq_complete_iff.2 hinner]
  exact endsWith_of_run hrun hend

/-- The text from the construct on that is open at the end opens it at once. -/
theorem Lexer.OpensAt.rest_unterminated {state : State} {openedAt : Nat} {t : Token}
    {later : List Token} {k last : Lexer} (h : k.OpensAt state openedAt t later last)
    (hend : Ended last) (htermination : last.termination = .unterminated state openedAt) :
    Scan.EndsWith k.cursor.remaining (.unterminated state 0) := by
  obtain ⟨kind, hnests⟩ := h.nests
  obtain ⟨ts, e, hrun, hend', hshift⟩ := hnests.exists_end h.outside h.run hend
  rw [htermination, h.position] at hshift
  have hzero : e.termination = .unterminated state 0 := by
    cases he : e.termination with
    | complete =>
        rw [he] at hshift
        cases hshift
    | unterminated own offset =>
        rw [he] at hshift
        obtain ⟨rfl, hoffset⟩ := Termination.unterminated.inj hshift
        have hoffset : offset = 0 := by omega
        rw [hoffset]
  rw [← hzero]
  exact endsWith_of_run hrun hend'

/-- A scan that ends inside of a construct says where the text can be cut before the construct. -/
theorem exists_endsInside {source : Text} {tokens : List Token} {last : Lexer} {state : State}
    {openedAt : Nat} (hrun : Yields (Grammar.jsoniq.lex source) tokens last) (hend : Ended last)
    (htermination : last.termination = .unterminated state openedAt) :
    ∃ before rest, EndsInside source (merge tokens) state openedAt before rest := by
  obtain ⟨earlier, t, later, k, rfl, hk, hopens⟩ := Lexer.exists_opensAt hrun hend htermination
  obtain ⟨before, hsource, hlength⟩ := k.cursor.valid
  have hsame : k.cursor.source = source := (Lexer.covers_of_yields hk).source
  rw [hsame] at hsource
  have hdivided : source.splitAt? openedAt = some (before, k.cursor.remaining) :=
    Text.splitAt?_eq_some_iff.2 ⟨hsource, hlength.trans hopens.position⟩
  obtain ⟨u, hu, hcategory, hle, hstring⟩ := hopens.exists_getLast? hk
  have hstop : u.stop = source.byteLength :=
    (losslessScan_of_run hrun hend).mergedTiling.last u hu
  refine ⟨before, k.cursor.remaining, ?_⟩
  exact {
    state_ne := hopens.state_ne
    divided := hdivided
    opener := hopens.opener
    before_complete := hopens.before_complete (hsource ▸ hk) rfl
    rest_unterminated := hopens.rest_unterminated hend htermination
    last := ⟨u, hu, hcategory, hle, hstring, hstop⟩
    warning := by
      obtain ⟨hline, hcolumn⟩ := Position.one_le_after before
      refine ⟨Position.after before, hline, hcolumn, ?_, ?_⟩
      · rw [hsource]
        exact Position.skip?_after before k.cursor.remaining
      · have hposition : Position.ofOffset? source openedAt = some (Position.after before) := by
          rw [Position.ofOffset?, hdivided]
          rfl
        simp only [Termination.warning?, hposition] }

/-- The end of a scan is exact. A scan that ends with nothing open is back at the root alone, and
there is no warning; a scan that ends inside of a construct is as `EndsInside` says. -/
theorem termination_is_exact (source : Text) :
    ∃ tokens last, tokenize source = .ok tokens ∧ (drain (Grammar.jsoniq.lex source)).rest = last ∧
      Scan.EndsWith source last.termination ∧
      (last.termination = .complete →
        last.state = .root ∧ last.depth = 1 ∧ last.termination.warning? source = .ok none) ∧
      ∀ state openedAt, last.termination = .unterminated state openedAt →
        ∃ before rest, EndsInside source tokens state openedAt before rest := by
  obtain ⟨tokens, last, hrun, hend, htokenize⟩ := exists_tokenize source
  refine ⟨merge tokens, last, htokenize, ?_, endsWith_of_run hrun hend, ?_, ?_⟩
  · rw [drain_of_yields hrun hend]
  · intro hcomplete
    have hinner := Lexer.termination_eq_complete_iff.1 hcomplete
    obtain ⟨kind, hnests⟩ := Lexer.exists_nests hrun
    refine ⟨hnests.state_eq_root hinner, ?_, ?_⟩
    · rw [Lexer.depth, Lexer.inner_eq_nil_iff.1 hinner]
      rfl
    · rw [hcomplete]
      rfl
  · intro state openedAt htermination
    exact exists_endsInside hrun hend htermination

/-- A comment that is left open on the second line. The word before it is the name of a function only
with the text after it. -/
theorem termination_is_exact_comment :
    ∃ tokens, tokenize "a:b\n(:".toList = .ok tokens ∧
      Scan.EndsWith "a:b\n(:".toList (.unterminated .comment 4) ∧
        ∃ before rest, EndsInside "a:b\n(:".toList tokens .comment 4 before rest := by
  obtain ⟨tokens, last, htokenize, hlast, hends, -, hinside⟩ :=
    termination_is_exact "a:b\n(:".toList
  have htermination : last.termination = .unterminated .comment 4 := by
    rw [← hlast, jsoniq_eq]
    decide +kernel
  rw [htermination] at hends
  exact ⟨tokens, htokenize, hends, hinside _ _ htermination⟩

end JsoniqLexer

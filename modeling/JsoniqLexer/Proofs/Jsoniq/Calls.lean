import JsoniqLexer.Proofs.Jsoniq.Nesting
import JsoniqLexer.Proofs.Jsoniq.Strings

/-!
# What follows the name of a function

A name with a namespace is the name of a function where an opening bracket follows it, after blanks or
at once. The bracket is looked for in the text, not among the tokens: it may turn out to begin a
comment (`comment_after_name`). Otherwise it is punctuation, and there is nothing but one token of
blanks in between (`name_is_followed_by_bracket`).
-/

set_option autoImplicit false

namespace JsoniqLexer

open TokenStream Token Pattern Jsoniq

namespace Token

/-- The tokens after one token of blanks, if they begin with such a token. -/
def afterBlank : List Token → List Token
  | [] => []
  | t :: ts => if t.category = .whitespace then ts else t :: ts

/-- The token begins with an opening bracket, and is punctuation, or a comment if the bracket begins
one. -/
def IsBracket (t : Token) : Prop :=
  t.category = .punctuation ∧ ['('] <+: t.lexeme ∨ t.category = .comment ∧ ['(', ':'] <+: t.lexeme

/-- After every name of a function, and blanks, comes a bracket. -/
def NamesFollowed : List Token → Prop
  | [] => True
  | t :: ts =>
      (t.category = .functionName → ∃ u ∈ (afterBlank ts).head?, u.IsBracket) ∧ NamesFollowed ts

theorem namesFollowed_iff {ts : List Token} :
    NamesFollowed ts ↔
      ∀ before f after, ts = before ++ f :: after → f.category = .functionName →
        ∃ u ∈ (afterBlank after).head?, u.IsBracket := by
  induction ts with
  | nil => simp [NamesFollowed]
  | cons t ts ih =>
      rw [NamesFollowed, ih]
      constructor
      · rintro ⟨hfirst, hothers⟩ before f after hsplit
        cases before with
        | nil =>
            obtain ⟨rfl, rfl⟩ := List.cons.inj hsplit
            exact hfirst
        | cons u before =>
            obtain ⟨rfl, htail⟩ := List.cons.inj hsplit
            exact hothers before f after htail
      · intro h
        refine ⟨h [] t ts rfl, ?_⟩
        intro before f after hsplit
        apply h (t :: before) f after
        rw [hsplit]
        rfl

/-- A token that is put in front has to be followed by a bracket itself, if it is the name of a
function. -/
theorem NamesFollowed.prepend {t : Token} {us : List Token} (hus : NamesFollowed us)
    (ht : t.category = .functionName → ∃ u ∈ (afterBlank us).head?, u.IsBracket) :
    NamesFollowed (prepend t us) := by
  cases us with
  | nil => exact ⟨ht, trivial⟩
  | cons u us =>
      rw [Token.prepend]
      split
      · next hcontinues =>
        -- the joined token is followed as its second part was
        obtain ⟨hu, hothers⟩ := hus
        refine ⟨?_, hothers⟩
        intro hname
        exact hu ((continues_iff.1 hcontinues).1.trans hname)
      · exact ⟨ht, hus⟩

theorem IsBracket.category_ne {t : Token} (h : t.IsBracket) : t.category ≠ .whitespace := by
  rcases h with ⟨hcategory, -⟩ | ⟨hcategory, -⟩
  · rw [hcategory]
    decide
  · rw [hcategory]
    decide

/-- A bracket in front of the merged tokens is not passed over. -/
theorem IsBracket.exists_prepend {t : Token} (h : t.IsBracket) (us : List Token) :
    ∃ u ∈ (afterBlank (prepend t us)).head?, u.IsBracket := by
  obtain ⟨v, vs, heq, hcategory, -, hlexeme⟩ := exists_prepend_eq t us
  have hbracket : v.IsBracket := by
    rcases h with ⟨hown, hbegins⟩ | ⟨hown, hbegins⟩
    · exact .inl ⟨hcategory.trans hown, hbegins.trans hlexeme⟩
    · exact .inr ⟨hcategory.trans hown, hbegins.trans hlexeme⟩
  rw [heq, afterBlank, if_neg hbracket.category_ne]
  exact ⟨v, rfl, hbracket⟩

/-- One token of blanks in front of a bracket is passed over. -/
theorem IsBracket.exists_prepend_blank {w t : Token} (h : t.IsBracket)
    (hw : w.category = .whitespace) (us : List Token) :
    ∃ u ∈ (afterBlank (prepend w (prepend t us))).head?, u.IsBracket := by
  have hne : ¬ Coalescer.continues w t = true := by
    intro hcontinues
    exact h.category_ne ((continues_iff.1 hcontinues).1.trans hw)
  rw [prepend_prepend_of_not_continues hne, afterBlank, if_pos hw]
  -- the bracket is no token of blanks, so it would not have been passed over either
  obtain ⟨v, vs, heq, hcategory, -⟩ := exists_prepend_eq t us
  have hbracket := h.exists_prepend us
  rw [heq, afterBlank, if_neg (hcategory.symm ▸ h.category_ne)] at hbracket
  rw [heq]
  exact hbracket

end Token

namespace Jsoniq

/-- Only one line gives the category of the names of functions. It stands outside of comments and
strings, and looks for an opening bracket. -/
theorem lookahead_of_category {state : State} {line : Line} (h : line ∈ lines state)
    (hcategory : line.action.category? = some .functionName) :
    state = .root ∧ line.action = .plain .functionName ∧
      line.lookahead.map Form.regex = some Form.openingBracket.regex := by
  have hall : ∀ s ∈ State.all, ∀ l ∈ lines s, l.action.category? = some .functionName →
      s = .root ∧ l.action = .plain .functionName ∧
        l.lookahead.map Form.regex = some Form.openingBracket.regex := by
    decide
  exact hall state state.mem_all line h hcategory

end Jsoniq

namespace Lexer

variable {l next : Lexer} {kind : State} {t : Token}

theorem lexeme_of_step {s : Selection} {lexeme : Text} (hadvances : l.Advances s lexeme next)
    (hstep : l.step = (.ok (some t), next)) : t.lexeme = lexeme := by
  have hsame := step_eq_token_iff.2 ⟨s, lexeme, hadvances, rfl⟩
  rw [hstep] at hsame
  obtain ⟨htoken, -⟩ := Prod.mk.inj hsame
  obtain rfl := Option.some.inj (Except.ok.inj htoken)
  rfl

/-- The name of a function is read outside of everything, and blanks and a bracket are left. -/
theorem Nests.remaining_of_functionName (h : l.Nests kind) (hstep : l.step = (.ok (some t), next))
    (hname : t.category = .functionName) :
    next.state = .root ∧ ∃ blanks rest, next.cursor.remaining = blanks ++ '(' :: rest ∧
      ∀ c ∈ blanks, blank.contains c = true := by
  obtain ⟨s, lexeme, hadvances, rfl⟩ := step_eq_token_iff.1 hstep
  obtain ⟨line, hline, haction, hmatch⟩ := h.exists_line hadvances
  have hcategory := Grammar.category?_of_categoryOf hname rfl
  rw [haction] at hcategory
  obtain ⟨hroot, hplain, hlookahead⟩ := lookahead_of_category hline hcategory
  refine ⟨?_, ?_⟩
  · rw [state, hadvances.top, haction, hplain]
    exact hroot
  · rw [← hadvances.length, hadvances.remaining] at hmatch
    obtain ⟨-, -, hafter⟩ := Rule.matchLength?_append_iff.1 hmatch
    obtain ⟨f, hf, hregex⟩ := Option.map_eq_some_iff.1 hlookahead
    have hpattern : f.pattern ∈ line.rule.lookahead := by
      rw [Line.rule, hf]
      rfl
    obtain ⟨y, z, htext, hy⟩ := line.allowsAfter_iff.1 hafter f.pattern hpattern
    have hmatches := f.matches_pattern_iff.1 hy
    rw [hregex] at hmatches
    obtain ⟨blanks, rfl, hblanks⟩ := exists_blanks_of_matches hmatches
    exact ⟨blanks, z, by rw [htext, List.append_assoc]; rfl, hblanks⟩

/-- Outside of everything, a bracket is read as punctuation or opens a comment. -/
theorem exists_step_bracket {rest : Text} (hgrammar : l.grammar = .jsoniq)
    (hstate : l.state = .root) (hremaining : l.cursor.remaining = '(' :: rest) :
    ∃ t next, l.step = (.ok (some t), next) ∧ t.IsBracket := by
  by_cases hopen : ['(', ':'] <+: '(' :: rest
  · obtain ⟨after, hafter⟩ := hopen
    rw [← hafter] at hremaining
    have hselects := selects_root_comment after
    rw [← hstate] at hselects
    obtain ⟨s, t, next, hstep, hcategory, hadvances, -⟩ :=
      exists_step_of_selects hgrammar hremaining hselects rfl
    refine ⟨t, next, hstep, .inr ⟨hcategory, ?_⟩⟩
    rw [lexeme_of_step hadvances hstep]
  · have hselects := selects_root_bracket hopen
    rw [← hstate] at hselects
    obtain ⟨s, t, next, hstep, hcategory, hadvances, -⟩ :=
      exists_step_of_selects hgrammar hremaining hselects rfl
    refine ⟨t, next, hstep, .inl ⟨hcategory, ?_⟩⟩
    rw [lexeme_of_step hadvances hstep]

/-- Of the tokens that are left to come, one of blanks at most stands before the bracket. -/
theorem exists_bracket_of_yields {blanks rest : Text} {ts : List Token} {last : Lexer}
    (hgrammar : l.grammar = .jsoniq) (hstate : l.state = .root)
    (hremaining : l.cursor.remaining = blanks ++ '(' :: rest)
    (hblanks : ∀ c ∈ blanks, blank.contains c = true) (hrun : Yields l ts last)
    (hend : Ended last) : ∃ u ∈ (afterBlank (merge ts)).head?, u.IsBracket := by
  by_cases hnil : blanks = []
  · rw [hnil] at hremaining
    obtain ⟨u, next, hstep, hbracket⟩ := exists_step_bracket hgrammar hstate hremaining
    obtain ⟨later, rfl, -⟩ := (Yields.single hstep).exists_append hrun hend
    exact hbracket.exists_prepend (merge later)
  · have hselects := @selects_root_blanks blanks ('(' :: rest) hnil hblanks (by
      intro c hc
      obtain rfl := Option.some.inj hc
      decide)
    rw [← hstate] at hselects
    obtain ⟨s, w, next, hstep, hcategory, hadvances, haction, hleft⟩ :=
      exists_step_of_selects hgrammar hremaining hselects rfl
    have hnext : next.state = .root := by
      rw [state, hadvances.top, haction]
      exact hstate
    obtain ⟨u, after, hstep', hbracket⟩ :=
      exists_step_bracket (hadvances.grammar.trans hgrammar) hnext hleft
    have htwo : Yields l [w, u] after := .cons hstep (.single hstep')
    obtain ⟨later, rfl, -⟩ := htwo.exists_append hrun hend
    exact hbracket.exists_prepend_blank hcategory (merge later)

/-- The merged tokens of a run to the end have a bracket after every name of a function. -/
theorem Nests.namesFollowed_merge {ts : List Token} {last : Lexer} (h : l.Nests kind)
    (hrun : Yields l ts last) (hend : Ended last) : NamesFollowed (merge ts) := by
  induction hrun generalizing kind with
  | nil l => exact trivial
  | cons hnext hlater ih =>
      obtain ⟨kind', hnext', -⟩ := h.step hnext
      apply (ih hnext' hend).prepend
      intro hname
      obtain ⟨hstate, blanks, rest, hremaining, hblanks⟩ := h.remaining_of_functionName hnext hname
      exact exists_bracket_of_yields hnext'.grammar hstate hremaining hblanks hlater hend

end Lexer

/-- After a name of a function, a comment may come where its bracket is looked for. -/
theorem comment_after_name :
    ∃ tokens, tokenize "a:b(:c:)".toList = .ok tokens ∧
      ∃ before f after, tokens = before ++ f :: after ∧ f.category = .functionName ∧
        ¬ ∃ u ∈ (afterBlank after).head?, u.category = .punctuation ∧ ['('] <+: u.lexeme := by
  have htokens : tokenize "a:b(:c:)".toList = .ok [ofLexeme .functionName "a:b".toList 0,
      ofLexeme .comment "(:c:)".toList 3] := by
    rw [tokenize, jsoniq_eq]
    decide +kernel
  refine ⟨_, htokens, [], _, _, rfl, rfl, ?_⟩
  rintro ⟨u, hu, hcategory, -⟩
  obtain rfl := Option.some.inj hu
  cases hcategory

/-- After a name of a function, and one token of blanks at most, comes punctuation that begins with an
opening bracket, or a comment where the bracket begins one. -/
theorem name_is_followed_by_bracket (source : Text) :
    ∃ tokens, tokenize source = .ok tokens ∧
      ∀ before f after, tokens = before ++ f :: after → f.category = .functionName →
        ∃ u ∈ (afterBlank after).head?, u.IsBracket := by
  obtain ⟨tokens, last, hrun, hend, htokenize⟩ := exists_tokenize source
  refine ⟨merge tokens, htokenize, ?_⟩
  exact namesFollowed_iff.1 ((Lexer.nests_lex source).namesFollowed_merge hrun hend)

/-- A call with blanks before its bracket. -/
theorem name_is_followed_by_bracket_blank :
    ∃ f after, tokenize "jn:open (".toList = .ok (f :: after) ∧ f.category = .functionName ∧
      ∃ u ∈ (afterBlank after).head?, u.IsBracket := by
  have htokens : tokenize "jn:open (".toList = .ok [ofLexeme .functionName "jn:open".toList 0,
      ofLexeme .whitespace " ".toList 7, ofLexeme .punctuation "(".toList 8] := by
    rw [tokenize, jsoniq_eq]
    decide +kernel
  obtain ⟨tokens, htokenize, hfollowed⟩ := name_is_followed_by_bracket "jn:open (".toList
  rw [htokens] at htokenize
  have hsplit := Except.ok.inj htokenize.symm
  exact ⟨_, _, htokens, rfl, hfollowed [] _ _ hsplit rfl⟩

end JsoniqLexer

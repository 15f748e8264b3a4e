import JsoniqLexer.Proofs.Jsoniq.Calls

/-!
# Words

A word is read up to the first character that cannot belong to it, and so are blanks and integers
(`Lexer.StepsBy.not_contains_head?`). So none of them is followed by another one of its kind
(`Lexer.Nests.isChain_apart`), and merging neighbours leaves them as they are. Every word in the
merged tokens is one that was read, and it is classified as a whole (`words_are_classified`).
-/

set_option autoImplicit false

namespace JsoniqLexer

open TokenStream Token Jsoniq Pattern

/-! ## What a word is -/

namespace Text

/-- A character that a word begins with. -/
def beginsWord (c : Char) : Bool := c.isAlpha || c = '_'

/-- A character that a word goes on with. -/
def continuesWord (c : Char) : Bool := c.isAlphanum || c = '_' || c = '-'

/-- A letter or an underscore, and then letters, digits, underscores and hyphens. -/
def IsWord : Text → Prop
  | [] => False
  | c :: text => beginsWord c = true ∧ ∀ d ∈ text, continuesWord d = true

end Text

namespace Jsoniq

theorem contains_letter (c : Char) : letter.contains c = c.isAlpha := by
  have halpha : c.isAlpha =
      (decide (c.val ≥ 65 ∧ c.val ≤ 90) || (decide (c.val ≥ 97) && decide (c.val ≤ 122))) := rfl
  simp [letter, CharSet.ofRanges, halpha, UInt32.le_iff_toNat_le, ← Char.toNat_val]

theorem contains_digit (c : Char) : digit.contains c = c.isDigit := by
  simp [digit, Char.isDigit, UInt32.le_iff_toNat_le, ← Char.toNat_val]

theorem contains_wordFirst (c : Char) : wordFirst.contains c = Text.beginsWord c := by
  simp [wordFirst, contains_letter, Text.beginsWord]

theorem contains_wordRest (c : Char) : wordRest.contains c = Text.continuesWord c := by
  rw [wordRest, variableRest, CharSet.contains_union, CharSet.contains_union, contains_wordFirst,
    contains_digit, CharSet.contains_single, Text.beginsWord, Text.continuesWord, Char.isAlphanum,
    Bool.or_right_comm c.isAlpha]

/-- How a word is classified, by the lists of words. No word is in both of them. -/
theorem classify_jsoniq (word : Text) :
    let category := Grammar.jsoniq.classifier.classify word
    (category = .keyword ↔ word ∈ keywords.map String.toList) ∧
      (category = .builtin ↔ word ∈ builtins.map String.toList) ∧
      (category = .identifier ↔
        word ∉ keywords.map String.toList ∧ word ∉ builtins.map String.toList) := by
  have hclassifier : Grammar.jsoniq.classifier =
      ⟨keywords.map String.toList, builtins.map String.toList⟩ := by
    rw [jsoniq_eq]
    rfl
  have hdisjoint : word ∈ keywords.map String.toList → word ∉ builtins.map String.toList :=
    fun h => Classifier.disjoint_of_build build_classifier h
  intro category
  have hcategory : category = (if word ∈ keywords.map String.toList then .keyword
      else if word ∈ builtins.map String.toList then .builtin else .identifier) := by
    simp [category, hclassifier, Classifier.classify, Classifier.isKeyword, Classifier.isBuiltin]
  rw [hcategory]
  by_cases hkeyword : word ∈ keywords.map String.toList
  · simp [hkeyword, hdisjoint hkeyword]
  · by_cases hbuiltin : word ∈ builtins.map String.toList
    · simp [hkeyword, hbuiltin]
    · simp [hkeyword, hbuiltin]

/-- Lexemes of words begin and go on as words do. -/
theorem firsts_of_classified {state : State} {line : Line} (h : line ∈ lines state)
    (haction : line.action = .classified) :
    line.form.regex.firsts.isWithin wordFirst = true ∧
      line.form.regex.laters.isWithin wordRest = true := by
  have hall : ∀ s ∈ State.all, ∀ l ∈ lines s, l.action = .classified →
      l.form.regex.firsts.isWithin wordFirst = true ∧
        l.form.regex.laters.isWithin wordRest = true := by
    decide
  exact hall state state.mem_all line h haction

end Jsoniq

/-! ## Tokens that go on as long as they can -/

/-- The characters that a token of the category goes on with, where it takes all of them. -/
def Category.goesOn? : Category → Option CharSet
  | .keyword | .builtin | .identifier => some wordRest
  | .whitespace => some blank
  | .integerNumber => some digit
  | _ => none

/-- The same for what a rule takes. -/
def Action.goesOn? : Action → Option CharSet
  | .classified => some wordRest
  | .plain category | .push category _ | .pop category => category.goesOn?

namespace Jsoniq

/-- A token that goes on with some characters is read without looking further, may go on with any of
them, and begins with one of them. Only classified words are words. -/
theorem growsBy_of_mem_lines {state : State} {line : Line} (h : line ∈ lines state) :
    (∀ set ∈ line.action.goesOn?, line.lookahead.isNone = true ∧
      line.form.regex.growsBy set = true ∧ line.form.regex.firsts.isWithin set = true) ∧
    ∀ category ∈ line.action.category?, category.isWord = false := by
  have hall : ∀ s ∈ State.all, ∀ l ∈ lines s,
      (∀ set ∈ l.action.goesOn?, l.lookahead.isNone = true ∧ l.form.regex.growsBy set = true ∧
        l.form.regex.firsts.isWithin set = true) ∧
      ∀ category ∈ l.action.category?, category.isWord = false := by
    decide
  exact hall state state.mem_all line h

end Jsoniq

namespace Lexer

variable {l m next last : Lexer} {kind kind' : State} {line : Line} {t u : Token} {ts : List Token}

namespace StepsBy

theorem goesOn?_eq (h : l.StepsBy line t next) : t.category.goesOn? = line.action.goesOn? := by
  rw [h.category]
  cases line.action with
  | plain category | push category target | pop category => rfl
  | classified =>
      have hword := Grammar.jsoniq.classifier.isWord_classify t.lexeme
      rw [Grammar.categoryOf]
      cases hcategory : Grammar.jsoniq.classifier.classify t.lexeme <;>
        first | rfl | (rw [hcategory] at hword; cases hword)

/-- The first character of the lexeme is one that a match begins with. -/
theorem contains_firsts (h : l.StepsBy line t next) :
    ∃ c lexeme, t.lexeme = c :: lexeme ∧ line.form.regex.firsts.contains c = true := by
  obtain ⟨c, lexeme, hlexeme⟩ := List.exists_cons_of_ne_nil h.admits.1
  have hmatches := h.matches_lexeme
  rw [hlexeme] at hmatches
  exact ⟨c, lexeme, hlexeme, Regex.contains_firsts hmatches⟩

/-- Where every match begins with a character of a set, one of them comes next. -/
theorem exists_head? {set : CharSet} (h : l.StepsBy line t next)
    (hwithin : line.form.regex.firsts.isWithin set = true) :
    ∃ c, l.cursor.remaining.head? = some c ∧ set.contains c = true := by
  obtain ⟨c, lexeme, hlexeme, hc⟩ := h.contains_firsts
  refine ⟨c, ?_, CharSet.contains_of_isWithin hwithin hc⟩
  rw [h.remaining, hlexeme]
  rfl

/-- A token that goes on with some characters is not followed by one of them. -/
theorem not_contains_head? {set : CharSet} (h : l.StepsBy line t next)
    (hset : t.category.goesOn? = some set) :
    ∀ c ∈ next.cursor.remaining.head?, set.contains c = false := by
  intro c hc
  by_contra hcontains
  obtain ⟨rest, hrest⟩ := List.head?_eq_some_iff.1 hc
  rw [h.goesOn?_eq] at hset
  obtain ⟨hlookahead, hgrows, -⟩ := (growsBy_of_mem_lines h.mem).1 set hset
  -- with the character, the lexeme would be longer
  have hlonger : line.rule.Admits (t.lexeme ++ [c]) rest := by
    refine ⟨List.concat_ne_nil c t.lexeme, ?_, ?_⟩
    · apply line.form.matches_pattern_iff.2
      apply Regex.matches_concat line.form.plain hgrows h.matches_lexeme
      simpa using hcontains
    · intro p hp
      rw [Line.rule, Option.isNone_iff_eq_none.1 hlookahead] at hp
      cases hp
  have htext : l.cursor.remaining = (t.lexeme ++ [c]) ++ rest := by
    rw [h.remaining, hrest, List.append_assoc]
    rfl
  have hle := h.byteLength_le htext hlonger
  have hpos := c.utf8Size_pos
  simp at hle
  omega

/-- A word is a word as its lexeme, is followed by nothing that it could go on with, and has the
category of its lexeme. -/
theorem of_isWord (h : l.StepsBy line t next) (hword : t.category.isWord = true) :
    t.lexeme.IsWord ∧ (∀ c ∈ next.cursor.remaining.head?, Text.continuesWord c = false) ∧
      t.category = Grammar.jsoniq.classifier.classify t.lexeme := by
  have haction : line.action = .classified := by
    have hcategory := h.category
    cases hown : line.action with
    | classified => rfl
    | plain category | push category target | pop category =>
        have hnot := (growsBy_of_mem_lines h.mem).2 category (by rw [hown]; rfl)
        rw [hown] at hcategory
        rw [hcategory, Grammar.categoryOf, hnot] at hword
        cases hword
  have hset : t.category.goesOn? = some wordRest := by
    rw [h.goesOn?_eq, haction]
    rfl
  obtain ⟨hfirsts, hlaters⟩ := firsts_of_classified h.mem haction
  refine ⟨?_, ?_, ?_⟩
  · obtain ⟨c, lexeme, hlexeme, hc⟩ := h.contains_firsts
    have hmatches := h.matches_lexeme
    rw [hlexeme] at hmatches ⊢
    constructor
    · rw [← contains_wordFirst]
      exact CharSet.contains_of_isWithin hfirsts hc
    · intro d hd
      rw [← contains_wordRest]
      exact CharSet.contains_of_isWithin hlaters (Regex.contains_laters hmatches d hd)
  · intro c hc
    rw [← contains_wordRest]
    exact h.not_contains_head? hset c hc
  · rw [h.category, haction]
    rfl

end StepsBy

/-! ## Neighbours -/

/-- Two tokens that follow each other are not both words, and not both blanks, integers or names of
functions. -/
def Apart (t u : Token) : Prop :=
  ¬ (t.category.isWord = true ∧ u.category.isWord = true) ∧
    ∀ category ∈ [Category.whitespace, .integerNumber, .functionName],
      ¬ (t.category = category ∧ u.category = category)

theorem StepsBy.goesOn?_ne {line' : Line} {set : CharSet} (h : l.StepsBy line t m)
    (hnext : m.StepsBy line' u next) (ht : t.category.goesOn? = some set) :
    u.category.goesOn? ≠ some set := by
  intro hu
  rw [hnext.goesOn?_eq] at hu
  obtain ⟨-, -, hwithin⟩ := (growsBy_of_mem_lines hnext.mem).1 set hu
  obtain ⟨c, hhead, hc⟩ := hnext.exists_head? hwithin
  rw [h.not_contains_head? ht c hhead] at hc
  cases hc

/-- After the name of a function comes a blank or a bracket, and no name begins with either. -/
theorem Nests.category_ne_of_functionName (h : l.Nests kind) (hm : m.Nests kind')
    (hstep : l.step = (.ok (some t), m)) (hnext : m.step = (.ok (some u), next))
    (hname : t.category = .functionName) : u.category ≠ .functionName := by
  intro hu
  obtain ⟨-, blanks, rest, hremaining, hblanks⟩ := h.remaining_of_functionName hstep hname
  obtain ⟨line, hline⟩ := hm.exists_stepsBy hnext
  have hcategory := Grammar.category?_of_categoryOf (hline.category.symm.trans hu) rfl
  have hfirsts : line.form.regex.firsts.isWithin letter = true := by
    have hall : ∀ s ∈ State.all, ∀ l ∈ lines s, l.action.category? = some .functionName →
        l.form.regex.firsts.isWithin letter = true := by
      decide
    exact hall m.state m.state.mem_all line hline.mem hcategory
  obtain ⟨c, hhead, hletter⟩ := hline.exists_head? hfirsts
  rw [hremaining] at hhead
  cases blanks with
  | nil =>
      obtain rfl := Option.some.inj hhead
      revert hletter
      decide
  | cons b blanks =>
      obtain rfl := Option.some.inj hhead
      have hdisjoint : blank.isDisjoint letter = true := by decide
      have hblank := hblanks b List.mem_cons_self
      rw [CharSet.contains_eq_false_of_isDisjoint hdisjoint hblank] at hletter
      cases hletter

/-- Tokens of two steps are apart. -/
theorem Nests.apart (h : l.Nests kind) (hm : m.Nests kind') (hstep : l.step = (.ok (some t), m))
    (hnext : m.step = (.ok (some u), next)) : Apart t u := by
  obtain ⟨line, hline⟩ := h.exists_stepsBy hstep
  obtain ⟨line', hline'⟩ := hm.exists_stepsBy hnext
  have hgoesOn {set : CharSet} (ht : t.category.goesOn? = some set) :
      u.category.goesOn? ≠ some set := hline.goesOn?_ne hline' ht
  have hword {category : Category} (hcategory : category.isWord = true) :
      category.goesOn? = some wordRest := by
    cases category <;> first | rfl | cases hcategory
  constructor
  · rintro ⟨ht, hu⟩
    exact hgoesOn (hword ht) (hword hu)
  · intro category hmem
    rintro ⟨ht, hu⟩
    simp only [List.mem_cons, List.not_mem_nil, or_false] at hmem
    rcases hmem with rfl | rfl | rfl
    · exact hgoesOn (by rw [ht]; rfl) (by rw [hu]; rfl)
    · exact hgoesOn (by rw [ht]; rfl) (by rw [hu]; rfl)
    · exact h.category_ne_of_functionName hm hstep hnext ht hu

/-- The tokens of a run are apart from their neighbours. -/
theorem Nests.isChain_apart (h : l.Nests kind) (hrun : Yields l ts last) : ts.IsChain Apart := by
  induction hrun generalizing kind with
  | nil l => exact .nil
  | @cons l m last t ts hstep hlater ih =>
      obtain ⟨kind', hm, -⟩ := h.step hstep
      have hchain := ih hm
      cases ts with
      | nil => exact .singleton t
      | cons u ts =>
          obtain ⟨next, hnext, -⟩ := yields_cons_iff.1 hlater
          exact .cons_cons (h.apart hm hstep hnext) hchain

end Lexer

/-! ## Words in a source -/

/-- The token is a word of the source. It ends where no character follows that a word could go on
with, and its category is that of the whole word. -/
structure IsClassifiedWord (source : Text) (t : Token) : Prop where
  word : t.lexeme.IsWord
  whole : ∃ before rest, source = before ++ (t.lexeme ++ rest) ∧ before.byteLength = t.start ∧
    t.stop = t.start + t.lexeme.byteLength ∧ ∀ c ∈ rest.head?, Text.continuesWord c = false
  keyword : t.category = .keyword ↔ t.lexeme ∈ keywords.map String.toList
  builtin : t.category = .builtin ↔ t.lexeme ∈ builtins.map String.toList
  identifier : t.category = .identifier ↔
    t.lexeme ∉ keywords.map String.toList ∧ t.lexeme ∉ builtins.map String.toList

/-- Every word that is read is classified as a whole. -/
theorem isClassifiedWord_of_mem {source : Text} {tokens : List Token} {last : Lexer}
    (hrun : Yields (Grammar.jsoniq.lex source) tokens last) {t : Token} (ht : t ∈ tokens)
    (hword : t.category.isWord = true) : IsClassifiedWord source t := by
  obtain ⟨earlier, later, rfl⟩ := List.append_of_mem ht
  obtain ⟨k, hk, hlater⟩ := hrun.exists_of_append
  obtain ⟨next, hstep, -⟩ := yields_cons_iff.1 hlater
  obtain ⟨kind, hnests⟩ := Lexer.exists_nests hk
  obtain ⟨line, hline⟩ := hnests.exists_stepsBy hstep
  obtain ⟨hlexeme, hrest, hcategory⟩ := hline.of_isWord hword
  obtain ⟨hkeyword, hbuiltin, hidentifier⟩ := classify_jsoniq t.lexeme
  rw [← hcategory] at hkeyword hbuiltin hidentifier
  refine ⟨hlexeme, ?_, hkeyword, hbuiltin, hidentifier⟩
  obtain ⟨before, hsource, hlength⟩ := k.cursor.valid
  rw [(Lexer.covers_of_yields hk).source, hline.remaining] at hsource
  refine ⟨before, next.cursor.remaining, hsource, hlength.trans hline.start.symm, ?_, hrest⟩
  rw [hline.start, hline.stop]

/-- Tokens of the category are not merged with others. -/
def Category.isLone : Category → Bool
  | .keyword | .builtin | .identifier | .whitespace | .integerNumber | .functionName => true
  | _ => false

/-- Every word, raw or merged, is classified as a whole. No two neighbours among the raw tokens are
both words, both blanks, both integers or both names of functions, and these tokens are the same raw
and merged. -/
theorem words_are_classified (source : Text) :
    ∃ raw merged, (drain (Grammar.jsoniq.lex source)).result = .ok raw ∧
      tokenize source = .ok merged ∧
      (∀ t ∈ raw, t.category.isWord = true → IsClassifiedWord source t) ∧
      (∀ t ∈ merged, t.category.isWord = true → IsClassifiedWord source t) ∧
      raw.IsChain Lexer.Apart ∧
      (merged.filter fun t => t.category.isLone) = raw.filter fun t => t.category.isLone := by
  obtain ⟨raw, last, hrun, hend, htokenize⟩ := exists_tokenize source
  have hapart := (Lexer.nests_lex source).isChain_apart hrun
  have hlone : raw.IsChain fun t u => t.category.isLone = true → u.category ≠ t.category := by
    apply hapart.imp
    rintro t u ⟨hwords, hothers⟩ hisLone hsame
    cases hcategory : t.category with
    | keyword | builtin | identifier =>
        apply hwords
        rw [hsame, hcategory]
        exact ⟨rfl, rfl⟩
    | whitespace | integerNumber | functionName =>
        exact hothers _ (by simp) ⟨hcategory, hsame.trans hcategory⟩
    | _ =>
        rw [hcategory] at hisLone
        cases hisLone
  have hfilter := filter_merge hlone
  refine ⟨raw, merge raw, ?_, htokenize, ?_, ?_, hapart, hfilter⟩
  · rw [drain_of_yields hrun hend]
    rfl
  · intro t ht hword
    exact isClassifiedWord_of_mem hrun ht hword
  · intro t ht hword
    have hisLone : t.category.isLone = true := by
      cases hcategory : t.category <;> first | rfl | (rw [hcategory] at hword; cases hword)
    have hmem : t ∈ (merge raw).filter fun t => t.category.isLone :=
      List.mem_filter.2 ⟨ht, hisLone⟩
    rw [hfilter] at hmem
    exact isClassifiedWord_of_mem hrun (List.mem_filter.1 hmem).1 hword

end JsoniqLexer

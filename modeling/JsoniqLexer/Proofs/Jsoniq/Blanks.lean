import JsoniqLexer.Proofs.Jsoniq.Strings
import JsoniqLexer.Proofs.Lexer.Memoryless

/-!
# Blanks are interchangeable

No line of the grammar tells one blank from another, and no word of it holds a blank. So in two texts
that differ only in which blanks they hold the same rules are selected (`select_of_differInBlanks`), the
lexers on them go on in lockstep (`lockstep_sameButBlanks`), and all that the scans say, apart from the
lexemes, is the same (`blanks_are_interchangeable`). In particular a text is highlighted as it is with
all its line breaks written as spaces.
-/

set_option autoImplicit false

namespace JsoniqLexer

open TokenStream Token

/-! ## Texts that differ in their blanks -/

/-- Space, tab, newline, carriage return, form feed and vertical tab. -/
def blanks : List Char := [' ', '\t', '\n', '\r', '\x0c', '\x0b']

/-- The same character, or two blanks. -/
def Interchangeable (c d : Char) : Prop := c = d ∨ c ∈ blanks ∧ d ∈ blanks

namespace Interchangeable

variable {c d : Char}

theorem symm (h : Interchangeable c d) : Interchangeable d c := by
  rcases h with rfl | ⟨hc, hd⟩
  · exact .inl rfl
  · exact .inr ⟨hd, hc⟩

/-- All blanks are one byte long. -/
theorem utf8Size_eq (h : Interchangeable c d) : d.utf8Size = c.utf8Size := by
  have hone {b : Char} (hb : b ∈ blanks) : b.utf8Size = 1 := by
    simp only [blanks, List.mem_cons, List.not_mem_nil, or_false] at hb
    rcases hb with rfl | rfl | rfl | rfl | rfl | rfl
    all_goals rfl
  rcases h with rfl | ⟨hc, hd⟩
  · rfl
  · rw [hone hc, hone hd]

end Interchangeable

namespace Text

/-- The texts are as long as each other, and hold different characters only where both hold a blank. -/
def DifferInBlanks (x y : Text) : Prop := List.Forall₂ Interchangeable x y

/-- Some character of the text is a blank. -/
def holdsBlank (text : Text) : Bool := text.any blanks.contains

/-- The text with its line breaks written as spaces. -/
def onOneLine (text : Text) : Text := text.map fun c => if c = '\n' then ' ' else c

namespace DifferInBlanks

variable {x y : Text}

theorem symm (h : DifferInBlanks x y) : DifferInBlanks y x := by
  apply List.Forall₂.flip
  exact h.imp fun _ _ hcd => hcd.symm

theorem onOneLine (x : Text) : DifferInBlanks x x.onOneLine := by
  rw [DifferInBlanks, Text.onOneLine, List.forall₂_map_right_iff, List.forall₂_same]
  intro c _
  by_cases hc : c = '\n'
  · rw [if_pos hc, hc]
    exact .inr ⟨by decide, by decide⟩
  · rw [if_neg hc]
    exact .inl rfl

theorem byteLength_eq (h : DifferInBlanks x y) : y.byteLength = x.byteLength :=
  byteLength_eq_of_forall₂ (fun _ _ hcd => hcd.utf8Size_eq) h

theorem eq_nil_iff (h : DifferInBlanks x y) : y = [] ↔ x = [] := by
  rw [← List.length_eq_zero_iff, ← List.length_eq_zero_iff, h.length_eq]

/-- A text without blanks differs from no other text in its blanks. -/
theorem eq_of_no_blank (h : DifferInBlanks x y) (hx : x.holdsBlank = false) : y = x := by
  induction h with
  | nil => rfl
  | cons hcd _ ih =>
      obtain ⟨hc, hx⟩ := Bool.or_eq_false_iff.1 hx
      rcases hcd with rfl | ⟨hblank, -⟩
      · rw [ih hx]
      · rw [List.contains_iff_mem.2 hblank] at hc
        cases hc

/-- Words without blanks do not tell such texts apart. -/
theorem contains_eq (h : DifferInBlanks x y) {words : List Text}
    (hwords : ∀ w ∈ words, w.holdsBlank = false) : words.contains y = words.contains x := by
  rw [Bool.eq_iff_iff, List.contains_iff_mem, List.contains_iff_mem]
  constructor
  · intro hy
    rwa [h.symm.eq_of_no_blank (hwords y hy)]
  · intro hx
    rwa [h.eq_of_no_blank (hwords x hx)]

end DifferInBlanks

end Text

namespace Token

/-- The token but for its lexeme: its category and where it stands. -/
def outline (t : Token) : Token := { t with lexeme := [] }

/-- Merging neighbours looks at nothing else. -/
theorem merge_map_outline (ts : List Token) : merge (ts.map outline) = (merge ts).map outline := by
  apply merge_map
  · intro t u
    rw [Bool.eq_iff_iff, continues_iff, continues_iff]
    rfl
  · intro t u
    rfl

end Token

/-! ## What is selected -/

namespace Jsoniq

open Pattern

theorem Line.confuses_of_interchangeable {state : State} {line : Line} (hline : line ∈ lines state)
    {c d : Char} (h : Interchangeable c d) : line.confuses c d = true := by
  have hall : ∀ s ∈ State.all, ∀ l ∈ lines s,
      (blanks.all fun a => blanks.all fun b => l.confuses a b) = true := by
    decide +kernel
  rcases h with rfl | ⟨hc, hd⟩
  · exact line.confuses_self c
  · have hline := List.all_eq_true.1 (hall state state.mem_all line hline) c hc
    exact List.all_eq_true.1 hline d hd

/-- The same rule is selected, for as many bytes. -/
theorem select_of_differInBlanks (state : State) {text text' : Text}
    (h : Text.DifferInBlanks text text') :
    Grammar.jsoniq.select state text' = Grammar.jsoniq.select state text := by
  apply Grammar.select_congr
  intro rule hrule
  rw [rules_eq] at hrule
  obtain ⟨line, hline, rfl⟩ := List.mem_map.1 hrule
  apply Line.matchLength?_of_forall₂ (ρ := Interchangeable)
  · exact fun c d hcd => hcd.utf8Size_eq
  · exact fun c d hcd => Line.confuses_of_interchangeable hline hcd
  · exact h

/-- The lexemes are of the same category. -/
theorem categoryOf_of_differInBlanks (action : Action) {lexeme lexeme' : Text}
    (h : Text.DifferInBlanks lexeme lexeme') :
    Grammar.jsoniq.categoryOf action lexeme' = Grammar.jsoniq.categoryOf action lexeme := by
  have hkeywords : ∀ w ∈ Grammar.jsoniq.classifier.keywords, w.holdsBlank = false := by
    rw [jsoniq_eq]
    decide +kernel
  have hbuiltins : ∀ w ∈ Grammar.jsoniq.classifier.builtins, w.holdsBlank = false := by
    rw [jsoniq_eq]
    decide +kernel
  cases action with
  | plain category => rfl
  | push category target => rfl
  | pop category => rfl
  | classified =>
      rw [Grammar.categoryOf, Grammar.categoryOf, Classifier.classify, Classifier.classify,
        Classifier.isKeyword, Classifier.isKeyword, Classifier.isBuiltin, Classifier.isBuiltin,
        h.contains_eq hkeywords, h.contains_eq hbuiltins]

end Jsoniq

/-! ## Lexers in lockstep -/

namespace Lexer

/-- Both are lexers of JSONiq, what they have to read differs in blanks only, and they agree in
everything else. -/
structure SameButBlanks (l m : Lexer) : Prop where
  grammar : l.grammar = .jsoniq
  same : m.grammar = l.grammar
  remaining : l.cursor.remaining.DifferInBlanks m.cursor.remaining
  position : m.position = l.position
  top : m.top = l.top
  below : m.below = l.below

namespace SameButBlanks

variable {l m next : Lexer} {s : Selection} {lexeme : Text}

theorem lex {source source' : Text} (h : source.DifferInBlanks source') :
    (Grammar.jsoniq.lex source).SameButBlanks (Grammar.jsoniq.lex source') :=
  ⟨grammar_lex .jsoniq source, rfl, h, rfl, rfl, rfl⟩

theorem state_eq (h : l.SameButBlanks m) : m.state = l.state := congrArg Frame.state h.top

theorem depth_eq (h : l.SameButBlanks m) : m.depth = l.depth := by rw [depth, depth, h.below]

theorem supply_eq (h : l.SameButBlanks m) : supply m = supply l := h.remaining.length_eq.symm

theorem termination_eq (h : l.SameButBlanks m) : m.termination = l.termination := by
  rw [termination, termination, frames, frames, h.top, h.below]

theorem transition (h : l.SameButBlanks m) (action : Action) :
    (m.transition action).top = (l.transition action).top ∧
      (m.transition action).below = (l.transition action).below := by
  cases action with
  | plain category => exact ⟨h.top, h.below⟩
  | classified => exact ⟨h.top, h.below⟩
  | push category target =>
      constructor
      · exact congrArg (Frame.mk target) h.position
      · exact congrArg₂ List.cons h.top h.below
  | pop category =>
      rw [Lexer.transition, Lexer.transition, h.below]
      cases l.below with
      | nil => exact ⟨h.top, h.below⟩
      | cons frame below => exact ⟨rfl, rfl⟩

/-- Where the first goes on, the second goes on by the same rule, over a lexeme that differs in blanks
only. -/
theorem advances (h : l.SameButBlanks m) (hadvances : l.Advances s lexeme next) :
    ∃ lexeme' next', m.Advances s lexeme' next' ∧ lexeme.DifferInBlanks lexeme' ∧
      next.SameButBlanks next' := by
  have hselect := hadvances.selected
  rw [h.grammar, ← Jsoniq.select_of_differInBlanks l.state h.remaining, ← h.grammar, ← h.same,
    ← h.state_eq] at hselect
  obtain ⟨lexeme', next', hadvances'⟩ := exists_advances hselect
  -- the lexeme of the second stands where the lexeme of the first stands
  have hremaining := h.remaining
  rw [hadvances.remaining] at hremaining
  obtain ⟨found, rest, htext, hlexeme, hrest⟩ := Text.exists_of_forall₂_append hremaining
  rw [hadvances'.remaining] at htext
  have hlexeme : lexeme.DifferInBlanks found := hlexeme
  have hbytes : lexeme'.byteLength = found.byteLength := by
    rw [hlexeme.byteLength_eq, hadvances'.length, hadvances.length]
  obtain ⟨rfl, rfl⟩ := Text.append_inj_of_byteLength htext hbytes
  obtain ⟨htop, hbelow⟩ := h.transition s.rule.action
  refine ⟨lexeme', next', hadvances', hlexeme, ?_⟩
  constructor
  · rw [hadvances.grammar, h.grammar]
  · rw [hadvances'.grammar, hadvances.grammar, h.same]
  · exact hrest
  · rw [hadvances'.position, hadvances.position, h.position, hbytes, hlexeme.byteLength_eq]
  · rw [hadvances'.top, hadvances.top, htop]
  · rw [hadvances'.below, hadvances.below, hbelow]

theorem tokenFor (h : l.SameButBlanks m) (s : Selection) {lexeme' : Text}
    (hlexeme : lexeme.DifferInBlanks lexeme') :
    (m.tokenFor s lexeme').outline = (l.tokenFor s lexeme).outline := by
  rw [Lexer.tokenFor, Lexer.tokenFor, h.same, h.grammar, h.position,
    Jsoniq.categoryOf_of_differInBlanks s.rule.action hlexeme]
  simp only [outline, ofLexeme, hlexeme.byteLength_eq]

end SameButBlanks

/-- Lexers on texts that differ in blanks give tokens of the same outlines, and never a fault. -/
theorem lockstep_sameButBlanks :
    Lockstep SameButBlanks (fun t u => t.outline = u.outline) (fun _ _ => False) := by
  apply lockstep_of_advances
  · intro l m h
    exact h.remaining.eq_nil_iff
  · intro l m next s lexeme h hadvances
    obtain ⟨lexeme', next', hadvances', hlexeme, hrest⟩ := h.advances hadvances
    exact ⟨s, lexeme', next', hadvances', (h.tokenFor s hlexeme).symm, hrest⟩
  · intro l m h hnil hselect
    obtain ⟨s, hs⟩ := Jsoniq.exists_select l.state hnil
    rw [h.grammar, hs] at hselect
    cases hselect

/-- What was taken from the two lexers are tokens of the same categories at the same places; and the
lexers are in the same state at the same depth and place, and their scans would end the same way. -/
structure SameOutline (a b : Taken Lexer) : Prop where
  tokens : b.tokens.map outline = a.tokens.map outline
  fault : a.fault = none ∧ b.fault = none
  state : b.rest.state = a.rest.state
  depth : b.rest.depth = a.rest.depth
  position : b.rest.position = a.rest.position
  termination : b.rest.termination = a.rest.termination

theorem SameButBlanks.sameOutline {l m : Lexer} (h : l.SameButBlanks m) (n : Nat) :
    SameOutline (take n l) (take n m) := by
  have htaken := lockstep_sameButBlanks.take h n
  constructor
  · exact htaken.map_tokens_eq
  · rcases htaken.fault_cases with hnone | ⟨f, g, -, -, hfalse⟩
    · exact hnone
    · exact hfalse.elim
  · exact htaken.rest.state_eq
  · exact htaken.rest.depth_eq
  · exact htaken.rest.position
  · exact htaken.rest.termination_eq

end Lexer

open Lexer

/-- What was taken from the scans of texts that differ in blanks only, to their ends. -/
theorem sameOutline_drain {source source' : Text} (h : source.DifferInBlanks source') :
    SameOutline (drain (Grammar.jsoniq.lex source)) (drain (Grammar.jsoniq.lex source')) := by
  have hsame := SameButBlanks.lex h
  rw [drain, drain, hsame.supply_eq]
  exact hsame.sameOutline _

/-- Both are scanned to their ends, into tokens of the same outlines. -/
theorem exists_runs_of_differInBlanks {source source' : Text} (h : source.DifferInBlanks source') :
    ∃ ts last ts' last', Yields (Grammar.jsoniq.lex source) ts last ∧ Ended last ∧
      Yields (Grammar.jsoniq.lex source') ts' last' ∧ Ended last' ∧
      ts'.map outline = ts.map outline ∧ last'.termination = last.termination := by
  obtain ⟨ts, last, hrun, hend⟩ := exists_run_jsoniq (hasOpen_start source).grammar
  obtain ⟨ts', last', hrun', hend'⟩ := exists_run_jsoniq (hasOpen_start source').grammar
  have hdrain := sameOutline_drain h
  rw [drain_of_yields hrun hend, drain_of_yields hrun' hend'] at hdrain
  exact ⟨ts, last, ts', last', hrun, hend, hrun', hend', hdrain.tokens, hdrain.termination⟩

theorem merge_outline_eq {ts ts' : List Token} (h : ts'.map outline = ts.map outline) :
    (merge ts').map outline = (merge ts).map outline := by
  rw [← merge_map_outline, h, merge_map_outline]

/-- Blanks are interchangeable. The scans of two texts that differ only in which blanks they hold give
tokens of the same categories at the same places and are in the same states at the same depths, step by
step, and end the same way. So a text is highlighted as it is with its line breaks written as
spaces. -/
theorem blanks_are_interchangeable :
    (∀ {source source' : Text}, source.DifferInBlanks source' →
      (∀ n, SameOutline (take n (Grammar.jsoniq.lex source))
        (take n (Grammar.jsoniq.lex source'))) ∧
      SameOutline (drain (Grammar.jsoniq.lex source)) (drain (Grammar.jsoniq.lex source')) ∧
      ∀ raw, ∃ scan scan', Scan.of source raw = .ok scan ∧ Scan.of source' raw = .ok scan' ∧
        scan'.tokens.map outline = scan.tokens.map outline ∧
        scan'.termination = scan.termination) ∧
    ∀ source, ∃ tokens tokens', tokenize source = .ok tokens ∧
      tokenize source.onOneLine = .ok tokens' ∧ tokens'.map outline = tokens.map outline := by
  constructor
  · intro source source' h
    refine ⟨(SameButBlanks.lex h).sameOutline, sameOutline_drain h, ?_⟩
    intro raw
    obtain ⟨ts, last, ts', last', hrun, hend, hrun', hend', htokens, htermination⟩ :=
      exists_runs_of_differInBlanks h
    refine ⟨_, _, scan_of_run hrun hend raw, scan_of_run hrun' hend' raw, ?_, htermination⟩
    cases raw with
    | true => exact htokens
    | false => exact merge_outline_eq htokens
  · intro source
    obtain ⟨ts, last, ts', last', hrun, hend, hrun', hend', htokens, -⟩ :=
      exists_runs_of_differInBlanks (Text.DifferInBlanks.onOneLine source)
    exact ⟨merge ts, merge ts', tokenize_of_run hrun hend, tokenize_of_run hrun' hend',
      merge_outline_eq htokens⟩

/-- A call whose bracket stands after a space, and after a line break. -/
theorem blanks_are_interchangeable_call :
    Text.DifferInBlanks "a:b (".toList "a:b\n(".toList ∧
      SameOutline (drain (Grammar.jsoniq.lex "a:b (".toList))
        (drain (Grammar.jsoniq.lex "a:b\n(".toList)) := by
  have hdiffer : Text.DifferInBlanks "a:b (".toList "a:b\n(".toList := by
    have hblank : Interchangeable ' ' '\n' := .inr ⟨by decide, by decide⟩
    exact .cons (.inl rfl) (.cons (.inl rfl) (.cons (.inl rfl) (.cons hblank (.cons (.inl rfl) .nil))))
  exact ⟨hdiffer, (blanks_are_interchangeable.1 hdiffer).2.1⟩

end JsoniqLexer

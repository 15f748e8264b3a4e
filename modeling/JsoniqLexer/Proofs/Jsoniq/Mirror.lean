import JsoniqLexer.Proofs.Jsoniq.Strings
import JsoniqLexer.Proofs.Lexer.Memoryless
import JsoniqLexer.Proofs.Pattern.Exchange

/-!
# The two kinds of strings are mirror images

With the two marks exchanged everywhere in a text, its scan is the same but for the kinds of strings
(`scan_mirror`). Inside of a string of one kind that is a matter of the lines of both kinds
(`selectsMirrored_string`). Elsewhere, but for the lines that open strings, the lines do not tell the
two marks apart, so the same rule is selected (`selectsMirrored_outside`). A lexer that `Reflects`
another makes the mirror images of its steps.
-/

set_option autoImplicit false

namespace JsoniqLexer

open TokenStream Token

/-! ## Mirror images -/

/-- The text with the marks of the two kinds of strings exchanged. -/
def Text.mirror (text : Text) : Text := text.map (Equiv.swap '"' '\'')

def Category.mirror : Category → Category
  | .stringDouble => .stringSingle
  | .stringSingle => .stringDouble
  | category => category

def State.mirror : State → State
  | .doubleQuoted => .singleQuoted
  | .singleQuoted => .doubleQuoted
  | state => state

def Action.mirror : Action → Action
  | .plain category => .plain category.mirror
  | .classified => .classified
  | .push category target => .push category.mirror target.mirror
  | .pop category => .pop category.mirror

/-- The token for the same piece of the text with the marks exchanged. -/
def Token.mirror (t : Token) : Token :=
  { t with category := t.category.mirror, lexeme := t.lexeme.mirror }

def Frame.mirror (frame : Frame) : Frame := { frame with state := frame.state.mirror }

def Termination.mirror : Termination → Termination
  | .complete => .complete
  | .unterminated state openedAt => .unterminated state.mirror openedAt

namespace Text

example : mirror "a\"b'".toList = "a'b\"".toList := by decide

theorem mirror_append (x y : Text) : mirror (x ++ y) = mirror x ++ mirror y := List.map_append

@[simp] theorem mirror_mirror (text : Text) : mirror (mirror text) = text := by
  rw [mirror, mirror, List.map_map]
  exact List.map_id'' (fun c => Equiv.swap_apply_self '"' '\'' c) text

theorem mirror_eq_nil_iff {text : Text} : mirror text = [] ↔ text = [] := List.map_eq_nil_iff

/-- Both marks are one byte long. -/
theorem utf8Size_swap (c : Char) : (Equiv.swap '"' '\'' c).utf8Size = c.utf8Size := by
  rw [Equiv.swap_apply_def]
  split
  · next h => rw [h]; rfl
  · split
    · next h => rw [h]; rfl
    · rfl

@[simp] theorem byteLength_mirror (text : Text) : byteLength (mirror text) = byteLength text := by
  induction text with
  | nil => rfl
  | cons c text ih => exact congrArg₂ (· + ·) (utf8Size_swap c) ih

/-- What is true of the first character is true of the first character of the mirror image, in terms
of the character that it was exchanged for. -/
theorem forall_head?_mirror {p : Char → Prop} {text : Text}
    (h : ∀ c ∈ text.head?, p (Equiv.swap '"' '\'' c)) : ∀ c ∈ (mirror text).head?, p c := by
  intro c hc
  rw [mirror, List.head?_map] at hc
  obtain ⟨d, hd, rfl⟩ := Option.map_eq_some_iff.1 hc
  exact h d hd

end Text

theorem Category.mirror_injective : Function.Injective Category.mirror := by
  have hinvolutive : Function.Involutive Category.mirror := by
    intro category
    cases category <;> rfl
  exact hinvolutive.injective

namespace Token

theorem mirror_ofLexeme (category : Category) (lexeme : Text) (start : Nat) :
    (ofLexeme category lexeme start).mirror = ofLexeme category.mirror lexeme.mirror start := by
  simp only [mirror, ofLexeme, Text.byteLength_mirror]

/-- Merging neighbours goes along with exchanging the marks. -/
theorem merge_map_mirror (ts : List Token) : merge (ts.map mirror) = (merge ts).map mirror := by
  apply merge_map
  · intro t u
    rw [Bool.eq_iff_iff, continues_iff, continues_iff]
    simp only [mirror, Category.mirror_injective.eq_iff]
  · intro t u
    simp only [join, mirror, Text.mirror_append]

end Token

namespace Jsoniq

open Pattern

/-! ## What is selected -/

/-- The other kind of strings. -/
def Quote.other : Quote → Quote
  | .double => .single
  | .single => .double

namespace Quote

variable (q : Quote)

theorem mirror_state : q.state.mirror = q.other.state := by cases q <;> rfl

theorem mirror_category : q.category.mirror = q.other.category := by cases q <;> rfl

theorem swap_mark : Equiv.swap '"' '\'' q.mark = q.other.mark := by cases q <;> decide

theorem swap_eq_mark_iff {c : Char} : Equiv.swap '"' '\'' c = q.other.mark ↔ c = q.mark := by
  rw [← swap_mark, Equiv.apply_eq_iff_eq]

theorem mirror_mark_cons (rest : Text) :
    Text.mirror (q.mark :: rest) = q.other.mark :: Text.mirror rest :=
  congrArg (· :: Text.mirror rest) q.swap_mark

end Quote

/-- The state selects something at the text, and selects its mirror image in the mirror images of state
and text. -/
def SelectsMirrored (state : State) (text : Text) : Prop :=
  ∃ action lexeme, Selects state text action lexeme ∧
    Selects state.mirror text.mirror action.mirror lexeme.mirror

/-- Inside of strings the lines of the two kinds are mirror images. -/
theorem selectsMirrored_string (q : Quote) {text : Text} (htext : text ≠ []) :
    SelectsMirrored q.state text := by
  rw [SelectsMirrored, q.mirror_state]
  obtain ⟨c, tail, rfl⟩ := List.exists_cons_of_ne_nil htext
  by_cases hc : c = q.mark
  · subst hc
    by_cases htwice : tail.head? = some q.mark
    · obtain ⟨rest, rfl⟩ := List.head?_eq_some_iff.1 htwice
      refine ⟨.plain q.category, [q.mark, q.mark], selects_string_twice q rest, ?_⟩
      rw [Action.mirror, q.mirror_category, q.mirror_mark_cons, q.mirror_mark_cons,
        q.mirror_mark_cons, q.mirror_mark_cons]
      exact selects_string_twice q.other (Text.mirror rest)
    · have htail : ∀ d ∈ tail.head?, d ≠ q.mark := by
        rintro d hd rfl
        exact htwice hd
      refine ⟨.pop q.category, [q.mark], selects_string_once q htail, ?_⟩
      rw [Action.mirror, q.mirror_category, q.mirror_mark_cons, q.mirror_mark_cons]
      apply selects_string_once q.other
      apply Text.forall_head?_mirror
      intro d hd
      rw [Ne, q.swap_eq_mark_iff]
      exact htail d hd
  · obtain ⟨run, rest, hrun, hne, hall, hrest⟩ :=
      @Text.exists_run (fun d => decide (d ≠ q.mark)) c (by simpa using hc) tail
    simp only [decide_eq_true_eq] at hall
    simp only [decide_eq_false_iff_not, not_not] at hrest
    rw [hrun]
    refine ⟨.plain q.category, run, selects_string_body q hne hall hrest, ?_⟩
    rw [Action.mirror, q.mirror_category, Text.mirror_append]
    apply selects_string_body q.other
    · exact fun h => hne (Text.mirror_eq_nil_iff.1 h)
    · intro d hd
      obtain ⟨e, he, rfl⟩ := List.mem_map.1 hd
      rw [Ne, q.swap_eq_mark_iff]
      exact hall e he
    · apply Text.forall_head?_mirror
      intro d hd
      rw [q.swap_eq_mark_iff]
      exact hrest d hd

namespace Line

/-- The line does not tell the two marks apart. -/
def confusesMarks (line : Line) : Bool :=
  line.form.regex.confuses '"' '\'' &&
    line.lookahead.all fun f => f.regex.confuses '"' '\''

/-- A line that does not tell the two marks apart finds the same with the marks exchanged. -/
theorem matchLength?_mirror {line : Line} (h : line.confusesMarks = true) (text : Text) :
    line.rule.matchLength? text.mirror = line.rule.matchLength? text := by
  have hconfuses : line.confuses '"' '\'' = true := h
  apply Line.matchLength?_of_forall₂ (ρ := fun c d => Equiv.swap '"' '\'' c = d)
  · rintro c d rfl
    exact Text.utf8Size_swap c
  · rintro c d rfl
    exact Line.confuses_swap hconfuses c
  · simp [Text.mirror]

end Line

/-- Outside of strings a line opens a string, or does the same for both marks. -/
theorem opens_or_confuses {state : State} (hstate : state.mirror = state) {line : Line}
    (h : line ∈ lines state) :
    (state = .root ∧ ∃ q : Quote, line.form.regex = .ofText [q.mark]) ∨
      line.confusesMarks = true ∧ line.action.mirror = line.action := by
  have hroot : ∀ l ∈ lines .root, l.form.regex = .ofText [Quote.double.mark] ∨
      l.form.regex = .ofText [Quote.single.mark] ∨
        l.confusesMarks = true ∧ l.action.mirror = l.action := by
    decide +kernel
  have hcomment : ∀ l ∈ lines .comment, l.confusesMarks = true ∧ l.action.mirror = l.action := by
    decide +kernel
  cases state with
  | root =>
      rcases hroot line h with hdouble | hsingle | hsame
      · exact .inl ⟨rfl, .double, hdouble⟩
      · exact .inl ⟨rfl, .single, hsingle⟩
      · exact .inr hsame
  | comment => exact .inr (hcomment line h)
  | doubleQuoted => cases hstate
  | singleQuoted => cases hstate

/-- Outside of strings, where none begins, the same rule is selected with the marks exchanged. -/
theorem selectsMirrored_outside {state : State} (hstate : state.mirror = state) {text : Text}
    (htext : text ≠ [])
    (hmark : state = .root → ∀ q : Quote, ∀ c ∈ text.head?, c ≠ q.mark) :
    SelectsMirrored state text := by
  -- the lines that open strings find nothing, neither before the exchange nor after it
  have hbegins {q : Quote} {t : Text} (ht : ∀ c ∈ t.head?, c ≠ q.mark) : ¬ [q.mark] <+: t := by
    rintro ⟨rest, rfl⟩
    exact ht q.mark rfl rfl
  have hmirror (hroot : state = .root) (q : Quote) : ∀ c ∈ text.mirror.head?, c ≠ q.mark := by
    apply Text.forall_head?_mirror
    intro c hc heq
    have hother : q = q.other.other := by cases q <;> rfl
    rw [hother, q.other.swap_eq_mark_iff] at heq
    exact hmark hroot q.other c hc heq
  have hselect : Grammar.jsoniq.select state text.mirror = Grammar.jsoniq.select state text := by
    apply Grammar.select_congr
    intro rule hrule
    rw [rules_eq] at hrule
    obtain ⟨line, hline, rfl⟩ := List.mem_map.1 hrule
    rcases opens_or_confuses hstate hline with ⟨hroot, q, hform⟩ | ⟨hconfuses, -⟩
    · rw [Line.matchLength?_fixed_eq_none hform (hbegins (hmark hroot q)),
        Line.matchLength?_fixed_eq_none hform (hbegins (hmirror hroot q))]
    · exact Line.matchLength?_mirror hconfuses text
  obtain ⟨s, hs⟩ := exists_select state htext
  obtain ⟨lexeme, rest, -, -, hlength⟩ := Grammar.of_select hs
  refine ⟨s.rule.action, lexeme, ⟨s, hs, rfl, hlength.symm⟩, s, ?_, ?_, ?_⟩
  · rw [hstate, hselect, hs]
  · obtain ⟨before, after, hrules, -, -, hmatch⟩ := Grammar.select_eq_some_iff.1 hs
    have hmem : s.rule ∈ Grammar.jsoniq.rules state := by
      rw [hrules]
      simp
    rw [rules_eq] at hmem
    obtain ⟨line, hline, hrule⟩ := List.mem_map.1 hmem
    rw [← hrule] at hmatch ⊢
    rcases opens_or_confuses hstate hline with ⟨hroot, q, hform⟩ | ⟨-, haction⟩
    · rw [Line.matchLength?_fixed_eq_none hform (hbegins (hmark hroot q))] at hmatch
      cases hmatch
    · exact haction.symm
  · rw [Text.byteLength_mirror, hlength]

/-- Every state selects mirror images at mirror images. -/
theorem selectsMirrored (state : State) {text : Text} (htext : text ≠ []) :
    SelectsMirrored state text := by
  cases state with
  | root =>
      by_cases hmark : ∃ q : Quote, text.head? = some q.mark
      · obtain ⟨q, hq⟩ := hmark
        obtain ⟨rest, rfl⟩ := List.head?_eq_some_iff.1 hq
        refine ⟨.push q.category q.state, [q.mark], selects_root_string q rest, ?_⟩
        rw [Action.mirror, q.mirror_category, q.mirror_state, q.mirror_mark_cons,
          q.mirror_mark_cons]
        exact selects_root_string q.other (Text.mirror rest)
      · apply selectsMirrored_outside rfl htext
        rintro - q c hc rfl
        exact hmark ⟨q, hc⟩
  | comment => exact selectsMirrored_outside rfl htext (by simp)
  | doubleQuoted => exact selectsMirrored_string .double htext
  | singleQuoted => exact selectsMirrored_string .single htext

/-- Where a rule is selected, a rule with the mirror image of its action is selected in the mirror
image, for as many bytes. -/
theorem exists_select_mirror {state : State} {text : Text} {s : Selection}
    (h : Grammar.jsoniq.select state text = some s) :
    ∃ s', Grammar.jsoniq.select state.mirror text.mirror = some s' ∧
      s'.rule.action = s.rule.action.mirror ∧ s'.length = s.length := by
  have htext : text ≠ [] := by
    rintro rfl
    obtain ⟨lexeme, rest, hnil, hne, -⟩ := Grammar.of_select h
    exact hne (List.append_eq_nil_iff.1 hnil.symm).1
  obtain ⟨_, lexeme, ⟨s₀, hs, rfl, hlength⟩, s', hs', haction', hlength'⟩ :=
    selectsMirrored state htext
  obtain rfl : s = s₀ := Option.some.inj (h.symm.trans hs)
  refine ⟨s', hs', haction', ?_⟩
  rw [hlength', hlength, Text.byteLength_mirror]

/-- No word holds a mark, so a word is classified as its mirror image is. -/
theorem categoryOf_mirror (action : Action) (lexeme : Text) :
    Grammar.jsoniq.categoryOf action.mirror lexeme.mirror =
      (Grammar.jsoniq.categoryOf action lexeme).mirror := by
  have hkeywords : ∀ w ∈ Grammar.jsoniq.classifier.keywords, Text.mirror w = w := by
    rw [jsoniq_eq]
    decide +kernel
  have hbuiltins : ∀ w ∈ Grammar.jsoniq.classifier.builtins, Text.mirror w = w := by
    rw [jsoniq_eq]
    decide +kernel
  have hmem {words : List Text} (h : ∀ w ∈ words, Text.mirror w = w) :
      words.contains lexeme.mirror = words.contains lexeme := by
    rw [Bool.eq_iff_iff, List.contains_iff_mem, List.contains_iff_mem]
    constructor
    · intro hmirror
      have heq := h _ hmirror
      rw [Text.mirror_mirror] at heq
      rwa [heq]
    · intro hword
      rwa [h _ hword]
  cases action with
  | plain category => rfl
  | push category target => rfl
  | pop category => rfl
  | classified =>
      rw [Action.mirror, Grammar.categoryOf, Grammar.categoryOf, Classifier.classify,
        Classifier.classify, Classifier.isKeyword, Classifier.isKeyword, Classifier.isBuiltin,
        Classifier.isBuiltin, hmem hkeywords, hmem hbuiltins]
      split
      · rfl
      · split
        · rfl
        · rfl

end Jsoniq

namespace Lexer

/-! ## Lexers on mirror images -/

/-- Both are lexers of JSONiq, and what the second has to read and the constructs it is in are the
mirror images of what the first has. -/
structure Reflects (l m : Lexer) : Prop where
  grammar : l.grammar = .jsoniq
  same : m.grammar = l.grammar
  remaining : m.cursor.remaining = l.cursor.remaining.mirror
  position : m.position = l.position
  top : m.top = l.top.mirror
  below : m.below = l.below.map Frame.mirror

namespace Reflects

variable {l m next : Lexer} {s s' : Selection} {lexeme : Text}

theorem lex (source : Text) : (Grammar.jsoniq.lex source).Reflects (Grammar.jsoniq.lex source.mirror) :=
  ⟨grammar_lex .jsoniq source, rfl, rfl, rfl, rfl, rfl⟩

theorem state_eq (h : l.Reflects m) : m.state = l.state.mirror := congrArg Frame.state h.top

theorem depth_eq (h : l.Reflects m) : m.depth = l.depth := by
  rw [depth, h.below, List.length_map, depth]

theorem supply_eq (h : l.Reflects m) : supply m = supply l :=
  (congrArg List.length h.remaining).trans (List.length_map _)

theorem termination_eq (h : l.Reflects m) : m.termination = l.termination.mirror := by
  have hframes : m.frames = l.frames.map Frame.mirror := by
    rw [frames, frames, h.top, h.below, ← List.map_cons, List.map_reverse]
  rw [termination, termination, hframes, List.getElem?_map]
  cases l.frames[1]? with
  | none => rfl
  | some frame => rfl

theorem transition (h : l.Reflects m) (action : Action) :
    (m.transition action.mirror).top = (l.transition action).top.mirror ∧
      (m.transition action.mirror).below = (l.transition action).below.map Frame.mirror := by
  cases action with
  | plain category => exact ⟨h.top, h.below⟩
  | classified => exact ⟨h.top, h.below⟩
  | push category target =>
      constructor
      · exact congrArg (Frame.mk target.mirror) h.position
      · exact congrArg₂ List.cons h.top h.below
  | pop category =>
      rw [Action.mirror, Lexer.transition, Lexer.transition, h.below]
      cases l.below with
      | nil => exact ⟨h.top, h.below⟩
      | cons frame below => exact ⟨rfl, rfl⟩

/-- Where the first goes on, the second goes on over the mirror image of the lexeme. -/
theorem advances (h : l.Reflects m) (hadvances : l.Advances s lexeme next) :
    ∃ s' next', m.Advances s' lexeme.mirror next' ∧ s'.rule.action = s.rule.action.mirror ∧
      next.Reflects next' := by
  have hselect := hadvances.selected
  rw [h.grammar] at hselect
  obtain ⟨s', hselect', haction, hlength⟩ := Jsoniq.exists_select_mirror hselect
  rw [← h.grammar, ← h.same, ← h.state_eq, ← h.remaining] at hselect'
  obtain ⟨lexeme', next', hadvances'⟩ := exists_advances hselect'
  -- as many bytes of the mirror image are the mirror image of the lexeme
  have htext : lexeme' ++ next'.cursor.remaining =
      lexeme.mirror ++ next.cursor.remaining.mirror := by
    rw [← hadvances'.remaining, h.remaining, hadvances.remaining, Text.mirror_append]
  have hbytes : lexeme'.byteLength = lexeme.mirror.byteLength := by
    rw [Text.byteLength_mirror, hadvances'.length, hlength, hadvances.length]
  obtain ⟨rfl, hrest⟩ := Text.append_inj_of_byteLength htext hbytes
  obtain ⟨htop, hbelow⟩ := h.transition s.rule.action
  refine ⟨s', next', hadvances', haction, ?_⟩
  constructor
  · rw [hadvances.grammar, h.grammar]
  · rw [hadvances'.grammar, hadvances.grammar, h.same]
  · exact hrest
  · rw [hadvances'.position, hadvances.position, h.position, Text.byteLength_mirror]
  · rw [hadvances'.top, hadvances.top, haction, htop]
  · rw [hadvances'.below, hadvances.below, haction, hbelow]

theorem tokenFor (h : l.Reflects m) (haction : s'.rule.action = s.rule.action.mirror)
    (lexeme : Text) : (l.tokenFor s lexeme).mirror = m.tokenFor s' lexeme.mirror := by
  rw [Lexer.tokenFor, Lexer.tokenFor, mirror_ofLexeme, h.same, h.grammar, h.position, haction,
    Jsoniq.categoryOf_mirror]

end Reflects

/-- Lexers on mirror images give mirror images of tokens, and never a fault. -/
theorem lockstep_reflects : Lockstep Reflects (fun t u => t.mirror = u) (fun _ _ => False) := by
  apply lockstep_of_advances
  · intro l m h
    rw [h.remaining, Text.mirror_eq_nil_iff]
  · intro l m next s lexeme h hadvances
    obtain ⟨s', next', hadvances', haction, hrest⟩ := h.advances hadvances
    exact ⟨s', lexeme.mirror, next', hadvances', h.tokenFor haction lexeme, hrest⟩
  · intro l m h hnil hselect
    obtain ⟨s, hs⟩ := Jsoniq.exists_select l.state hnil
    rw [h.grammar, hs] at hselect
    cases hselect

/-- What was taken from the second lexer is the mirror image of what was taken from the first: the
tokens, the state, and the way that the scan would end; the depth and the place are the same. -/
structure TakesMirrored (a b : Taken Lexer) : Prop where
  tokens : b.tokens = a.tokens.map Token.mirror
  fault : a.fault = none ∧ b.fault = none
  state : b.rest.state = a.rest.state.mirror
  depth : b.rest.depth = a.rest.depth
  position : b.rest.position = a.rest.position
  termination : b.rest.termination = a.rest.termination.mirror

theorem Reflects.takesMirrored {l m : Lexer} (h : l.Reflects m) (n : Nat) :
    TakesMirrored (take n l) (take n m) := by
  have htaken := lockstep_reflects.take h n
  constructor
  · exact htaken.tokens_eq_map
  · rcases htaken.fault_cases with hnone | ⟨f, g, -, -, hfalse⟩
    · exact hnone
    · exact hfalse.elim
  · exact htaken.rest.state_eq
  · exact htaken.rest.depth_eq
  · exact htaken.rest.position
  · exact htaken.rest.termination_eq

end Lexer

open Lexer

/-- The two kinds of strings are mirror images. The scan of a text with the two marks exchanged gives
the mirror images of the tokens of the text, is in the mirror images of its states at the same depths
after every step, and ends as the mirror image of its end; and so it is with neighbours merged. -/
theorem scan_mirror (source : Text) :
    (∀ n, TakesMirrored (take n (Grammar.jsoniq.lex source))
        (take n (Grammar.jsoniq.lex source.mirror))) ∧
      TakesMirrored (drain (Grammar.jsoniq.lex source)) (drain (Grammar.jsoniq.lex source.mirror)) ∧
      (∃ tokens, tokenize source = .ok tokens ∧
        tokenize source.mirror = .ok (tokens.map Token.mirror)) ∧
      ∀ raw, ∃ scan, Scan.of source raw = .ok scan ∧
        Scan.of source.mirror raw =
          .ok ⟨scan.tokens.map Token.mirror, scan.termination.mirror⟩ := by
  have hreflects := Reflects.lex source
  obtain ⟨tokens, last, hrun, hend⟩ := exists_run_jsoniq (hasOpen_start source).grammar
  obtain ⟨tokens', last', hrun', hend'⟩ := exists_run_jsoniq (hasOpen_start source.mirror).grammar
  have hdrain : TakesMirrored (drain (Grammar.jsoniq.lex source))
      (drain (Grammar.jsoniq.lex source.mirror)) := by
    rw [drain, drain, hreflects.supply_eq]
    exact hreflects.takesMirrored _
  have htokens := hdrain.tokens
  have htermination := hdrain.termination
  rw [drain_of_yields hrun hend, drain_of_yields hrun' hend'] at htokens htermination
  simp only at htokens htermination
  refine ⟨hreflects.takesMirrored, hdrain, ?_, ?_⟩
  · refine ⟨merge tokens, tokenize_of_run hrun hend, ?_⟩
    rw [tokenize_of_run hrun' hend', htokens, merge_map_mirror]
  · intro raw
    refine ⟨_, scan_of_run hrun hend raw, ?_⟩
    rw [scan_of_run hrun' hend' raw, htokens, htermination, merge_map_mirror]
    cases raw with
    | true => rfl
    | false => rfl

end JsoniqLexer

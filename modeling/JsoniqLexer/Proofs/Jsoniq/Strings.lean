import JsoniqLexer.Proofs.Jsoniq.Stack
import JsoniqLexer.Proofs.Lexer.Coverage
import JsoniqLexer.Proofs.Lexer.Shift
import JsoniqLexer.Tokenize

/-!
# A string token is one string literal

Inside of a string, a mark is written twice (`Quote.dup`). A lexer that enters a string goes on over
the longest text of this form and one mark after it, if there is one; then it is outside again, and
the next character is no mark. So the tokens of a literal become one token, and the tokens of two
literals never do.
-/

set_option autoImplicit false

namespace JsoniqLexer

open TokenStream Token

namespace Jsoniq.Quote

/-- The text with every mark written twice. -/
def dup (q : Quote) (text : Text) : Text :=
  text.flatMap fun c => if c = q.mark then [c, c] else [c]

/-- The text in a string literal. -/
def literal (q : Quote) (text : Text) : Text := [q.mark] ++ q.dup text ++ [q.mark]

example : Quote.double.literal "a\"b".toList = "\"a\"\"b\"".toList := by decide

theorem dup_mark_cons (q : Quote) (text : Text) :
    q.dup (q.mark :: text) = [q.mark, q.mark] ++ q.dup text := by
  rw [dup, List.flatMap_cons, if_pos rfl]
  rfl

theorem dup_append {q : Quote} {run : Text} (hrun : ∀ c ∈ run, c ≠ q.mark) (text : Text) :
    q.dup (run ++ text) = run ++ q.dup text := by
  induction run with
  | nil => rfl
  | cons c run ih =>
      obtain ⟨hc, hrun⟩ := List.forall_mem_cons.1 hrun
      have htail := ih hrun
      rw [dup] at htail ⊢
      rw [List.cons_append, List.flatMap_cons, if_neg hc, htail]
      rfl

/-- What is written twice begins with a mark or is empty, where the text does. -/
theorem head?_dup_append {q : Quote} {text tail : Text} (htext : ∀ c ∈ text.head?, c = q.mark)
    (htail : ∀ c ∈ tail.head?, c = q.mark) : ∀ c ∈ (q.dup text ++ tail).head?, c = q.mark := by
  cases text with
  | nil => exact htail
  | cons d text =>
      obtain rfl := htext d rfl
      rw [dup_mark_cons]
      intro c hc
      exact (Option.some.inj hc).symm

/-- Every text is the rest of a literal and what follows it, or has no end of a literal. -/
theorem exists_dup (q : Quote) (text : Text) :
    (∃ t rest, text = q.dup t ++ ([q.mark] ++ rest) ∧ ∀ c ∈ rest.head?, c ≠ q.mark) ∨
      ∃ t, text = q.dup t := by
  obtain ⟨n, hn⟩ : ∃ n, text.length = n := ⟨_, rfl⟩
  induction n using Nat.strongRecOn generalizing text with
  | ind n ih =>
      cases text with
      | nil => exact .inr ⟨[], rfl⟩
      | cons c text =>
          rw [List.length_cons] at hn
          -- a mark ends the literal or is the first of two; any other character stands for itself
          by_cases hc : c = q.mark
          · subst hc
            cases text with
            | nil => exact .inl ⟨[], [], rfl, by simp⟩
            | cons d text =>
                rw [List.length_cons] at hn
                by_cases hd : d = q.mark
                · subst hd
                  rcases ih text.length (by omega) text rfl with ⟨t, rest, rfl, hrest⟩ | ⟨t, rfl⟩
                  · exact .inl ⟨q.mark :: t, rest, by rw [dup_mark_cons]; rfl, hrest⟩
                  · exact .inr ⟨q.mark :: t, by rw [dup_mark_cons]; rfl⟩
                · exact .inl ⟨[], d :: text, rfl, by simpa using hd⟩
          · have hone : ∀ e ∈ [c], e ≠ q.mark := by simpa using hc
            rcases ih text.length (by omega) text rfl with ⟨t, rest, rfl, hrest⟩ | ⟨t, rfl⟩
            · refine .inl ⟨[c] ++ t, rest, ?_, hrest⟩
              rw [dup_append hone]
              rfl
            · refine .inr ⟨[c] ++ t, ?_⟩
              rw [dup_append hone]
              rfl

theorem category?_state (q : Quote) : q.state.category? = some q.category := by cases q <;> rfl

theorem category_injective {q r : Quote} (h : q.category = r.category) : q = r := by
  cases q <;> cases r <;> first | rfl | cases h

theorem isWord_category (q : Quote) : q.category.isWord = false := by cases q <;> rfl

/-- Outside of everything, a line gives the category of a kind of strings only to a mark of that
kind. -/
theorem form_eq_of_category (q : Quote) {line : Line} (h : line ∈ Jsoniq.lines .root)
    (hcategory : line.action.category? = some q.category) : line.form.regex = .ofText [q.mark] := by
  have hall : ∀ l ∈ Jsoniq.lines .root,
      l.action.category? = some q.category → l.form.regex = .ofText [q.mark] := by
    cases q <;> decide
  exact hall line h hcategory

end Jsoniq.Quote

open Jsoniq

namespace Lexer

variable {l : Lexer} {q : Quote}

/-- A step inside of a string that does not end it. -/
theorem exists_step_string {lexeme rest : Text} (hgrammar : l.grammar = .jsoniq)
    (hstate : l.state = q.state) (hremaining : l.cursor.remaining = lexeme ++ rest)
    (hselects : Selects q.state (lexeme ++ rest) (.plain q.category) lexeme) :
    ∃ t next, l.step = (.ok (some t), next) ∧ t.category = q.category ∧
      next.grammar = .jsoniq ∧ next.top = l.top ∧ next.below = l.below ∧
        next.cursor.remaining = rest := by
  rw [← hstate] at hselects
  obtain ⟨s, t, next, hstep, hcategory, hadvances, haction, hrest⟩ :=
    exists_step_of_selects hgrammar hremaining hselects rfl
  refine ⟨t, next, hstep, hcategory, hadvances.grammar.trans hgrammar, ?_, ?_, hrest⟩
  · rw [hadvances.top, haction]
    rfl
  · rw [hadvances.below, haction]
    rfl

/-- Inside of a string, the lexer goes on over text in which every mark is written twice, up to a
mark or the end. -/
theorem exists_yields_dup {t tail : Text} (hgrammar : l.grammar = .jsoniq)
    (hstate : l.state = q.state) (hremaining : l.cursor.remaining = q.dup t ++ tail)
    (htail : ∀ c ∈ tail.head?, c = q.mark) :
    ∃ ts m, Yields l ts m ∧ (∀ u ∈ ts, u.category = q.category) ∧ m.grammar = .jsoniq ∧
      m.top = l.top ∧ m.below = l.below ∧ m.cursor.remaining = tail := by
  obtain ⟨n, hn⟩ : ∃ n, t.length = n := ⟨_, rfl⟩
  induction n using Nat.strongRecOn generalizing t l with
  | ind n ih =>
      cases t with
      | nil => exact ⟨[], l, .nil l, by simp, hgrammar, rfl, rfl, hremaining⟩
      | cons c t =>
          -- one step over two marks, or over everything up to the next mark
          have hstep : ∃ lexeme t', t'.length < n ∧ q.dup (c :: t) = lexeme ++ q.dup t' ∧
                Selects q.state (lexeme ++ (q.dup t' ++ tail)) (.plain q.category) lexeme := by
            by_cases hc : c = q.mark
            · subst hc
              refine ⟨[q.mark, q.mark], t, ?_, q.dup_mark_cons t, selects_string_twice q _⟩
              rw [← hn, List.length_cons]
              exact Nat.lt_succ_self _
            · obtain ⟨run, rest, htext, hne, hrun, hrest⟩ :=
                @Text.exists_run (fun d => decide (d ≠ q.mark)) c (by simpa using hc) t
              have hrun : ∀ d ∈ run, d ≠ q.mark := fun d hd => by simpa using hrun d hd
              have hrest : ∀ d ∈ rest.head?, d = q.mark := fun d hd => by simpa using hrest d hd
              refine ⟨run, rest, ?_, ?_, ?_⟩
              · have hpos := List.length_pos_iff.2 hne
                rw [← hn, htext, List.length_append]
                omega
              · rw [htext, Quote.dup_append hrun]
              · exact selects_string_body q hne hrun (Quote.head?_dup_append hrest htail)
          obtain ⟨lexeme, t', hlt, hdup, hselects⟩ := hstep
          rw [hdup, List.append_assoc] at hremaining
          obtain ⟨u, next, hnext, hcategory, hgrammar', htop, hbelow, hleft⟩ :=
            exists_step_string hgrammar hstate hremaining hselects
          have hstate' : next.state = q.state := by rw [state, htop]; exact hstate
          obtain ⟨ts, m, hyields, hall, hm, hmtop, hmbelow, hmleft⟩ :=
            ih t'.length hlt hgrammar' hstate' hleft rfl
          exact ⟨u :: ts, m, .cons hnext hyields, List.forall_mem_cons.2 ⟨hcategory, hall⟩, hm,
            hmtop.trans htop, hmbelow.trans hbelow, hmleft⟩

/-- From the outside, a mark enters a string. -/
theorem HasOpen.exists_step_mark {rest : Text} (h : l.HasOpen [])
    (hremaining : l.cursor.remaining = [q.mark] ++ rest) :
    ∃ t next, l.step = (.ok (some t), next) ∧ t.category = q.category ∧
      next.grammar = .jsoniq ∧ next.top = ⟨q.state, l.position⟩ ∧ next.below = [l.top] ∧
        l.top.state = .root ∧ next.cursor.remaining = rest := by
  have hselects := selects_root_string q rest
  rw [← h.state_eq_root] at hselects
  obtain ⟨s, t, next, hstep, hcategory, hadvances, haction, hrest⟩ :=
    exists_step_of_selects h.grammar hremaining hselects rfl
  have hbelow : l.below = [] := by
    have hdepth := h.depth_eq
    exact List.length_eq_zero_iff.1 (Nat.succ.inj hdepth)
  refine ⟨t, next, hstep, hcategory, hadvances.grammar.trans h.grammar, ?_, ?_, h.state_eq_root,
    hrest⟩
  · rw [hadvances.top, haction]
    rfl
  · rw [hadvances.below, haction]
    exact congrArg (List.cons l.top) hbelow

/-- From the outside, the lexer goes on over a string literal that is not followed by a mark, and is
outside again. -/
theorem HasOpen.exists_yields_literal {t rest : Text} (h : l.HasOpen [])
    (hremaining : l.cursor.remaining = q.literal t ++ rest) (hrest : ∀ c ∈ rest.head?, c ≠ q.mark) :
    ∃ u us m, Yields l (u :: us) m ∧ (∀ v ∈ u :: us, v.category = q.category) ∧ m.HasOpen [] ∧
      m.cursor.remaining = rest := by
  rw [Quote.literal, List.append_assoc, List.append_assoc] at hremaining
  obtain ⟨u, entered, hstep, hcategory, hgrammar, htop, hbelow, hroot, hleft⟩ :=
    h.exists_step_mark hremaining
  have hstate : entered.state = q.state := by rw [state, htop]
  obtain ⟨us, inside, hinside, hall, hgrammar', htop', hbelow', hleft'⟩ :=
    exists_yields_dup hgrammar hstate hleft (fun c hc => (Option.some.inj hc).symm)
  -- one mark with no other after it ends the string
  have hselects := selects_string_once q hrest
  rw [← hstate, ← show inside.state = entered.state from congrArg Frame.state htop'] at hselects
  obtain ⟨s, last, m, hend, hlast, hadvances, haction, hm⟩ :=
    exists_step_of_selects hgrammar' hleft' hselects rfl
  refine ⟨u, us ++ [last], m, .cons hstep (hinside.append (.single hend)), ?_, ?_, hm⟩
  · refine List.forall_mem_cons.2 ⟨hcategory, fun v hv => ?_⟩
    rcases List.mem_append.1 hv with hv | hv
    · exact hall v hv
    · obtain rfl := List.mem_singleton.1 hv
      exact hlast
  · refine ⟨hadvances.grammar.trans hgrammar', ⟨l.top, ?_, hroot⟩, by simp⟩
    rw [hadvances.top, hadvances.below, haction, transition, hbelow', hbelow]
    rfl

/-- From the outside, the lexer goes on over a string without an end to the end of the text, where
the string is reported as open. -/
theorem HasOpen.exists_yields_unclosed {t : Text} (h : l.HasOpen [])
    (hremaining : l.cursor.remaining = [q.mark] ++ q.dup t) :
    ∃ u us m, Yields l (u :: us) m ∧ (∀ v ∈ u :: us, v.category = q.category) ∧ Ended m ∧
      m.termination = .unterminated q.state l.position := by
  obtain ⟨u, entered, hstep, hcategory, hgrammar, htop, hbelow, -, hleft⟩ :=
    h.exists_step_mark hremaining
  have hstate : entered.state = q.state := by rw [state, htop]
  rw [← List.append_nil (q.dup t)] at hleft
  obtain ⟨us, m, hinside, hall, -, htop', hbelow', hleft'⟩ :=
    exists_yields_dup hgrammar hstate hleft (by simp)
  refine ⟨u, us, m, .cons hstep hinside, List.forall_mem_cons.2 ⟨hcategory, hall⟩,
    ended_iff.2 hleft', ?_⟩
  rw [termination, Lexer.frames, htop', hbelow', htop, hbelow]
  rfl

/-- Outside of everything, a token has the category of a kind of strings only where a mark of that
kind stands. -/
theorem HasOpen.category_ne {t : Token} {next : Lexer} (h : l.HasOpen [])
    (hmark : ∀ c ∈ l.cursor.remaining.head?, c ≠ q.mark) (hstep : l.step = (.ok (some t), next)) :
    t.category ≠ q.category := by
  obtain ⟨s, lexeme, hadvances, rfl⟩ := step_eq_token_iff.1 hstep
  have hselect := hadvances.selected
  rw [h.grammar, h.state_eq_root] at hselect
  obtain ⟨line, hline, hrule, hmatch⟩ := exists_line_of_select hselect
  have haction : s.rule.action = line.action := by rw [← hrule]; rfl
  intro hcategory
  -- only the line that enters such a string has its category, and it asks for the mark
  have hown : s.rule.action.category? = some q.category :=
    Grammar.category?_of_categoryOf hcategory q.isWord_category
  rw [haction] at hown
  have hbegins : ¬ [q.mark] <+: l.cursor.remaining := by
    rintro ⟨rest, hrest⟩
    exact hmark q.mark (by rw [← hrest]; rfl) rfl
  rw [Line.matchLength?_fixed_eq_none (q.form_eq_of_category hline hown) hbegins] at hmatch
  cases hmatch

/-- A step that does not begin at a mark of strings, or is made inside of a comment, stays outside of
strings. -/
theorem HasOpen.exists_of_step {comments : List Frame} {t : Token} {next : Lexer}
    (h : l.HasOpen comments) (hstep : l.step = (.ok (some t), next))
    (hmark : comments = [] → ∀ q : Quote, ∀ c ∈ l.cursor.remaining.head?, c ≠ q.mark) :
    (∃ comments', next.HasOpen comments') ∧ ∀ q : Quote, t.category ≠ q.category := by
  obtain ⟨s, lexeme, hadvances, htoken⟩ := step_eq_token_iff.1 hstep
  have hselect := hadvances.selected
  rw [h.grammar] at hselect
  obtain ⟨line, hline, hrule, -⟩ := exists_line_of_select hselect
  have haction : s.rule.action = line.action := by rw [← hrule]; rfl
  have hcategory (q : Quote) : t.category ≠ q.category := by
    cases comments with
    | nil => exact h.category_ne (hmark rfl q) hstep
    | cons frame comments =>
        have hcomment := (category_of_mem_lines hline).1 (by rw [h.state_eq_comment]; decide)
        rw [h.state_eq_comment, ← haction] at hcomment
        have hown : t.category = .comment := by
          rw [htoken]
          exact Grammar.categoryOf_eq hcomment
        rw [hown]
        cases q <;> decide
  refine ⟨?_, hcategory⟩
  cases hcases : s.rule.action with
  | plain category => exact ⟨comments, h.of_plain hadvances (.inl hcases)⟩
  | classified => exact ⟨comments, @of_plain _ _ _ _ _ .error h hadvances (.inr hcases)⟩
  -- what is entered is a comment: entering a string would give its category
  | push category target =>
      have htarget : line.action.target? = some target := by rw [← haction, hcases]; rfl
      rcases target_of_mem_lines hline htarget with ⟨rfl, -⟩ | ⟨-, q, rfl⟩
      · exact ⟨_, h.of_push hadvances hcases⟩
      · have hstring := (category_of_mem_lines hline).2 q.state htarget
        rw [q.category?_state, ← haction] at hstring
        refine absurd ?_ (hcategory q)
        rw [htoken]
        exact Grammar.categoryOf_eq hstring
  | pop category =>
      cases comments with
      | nil =>
          rw [h.state_eq_root] at hline
          have hpop := not_isPop_of_mem_root hline
          rw [← haction, hcases] at hpop
          cases hpop
      | cons frame comments => exact ⟨comments, h.of_pop hadvances hcases⟩

/-- The token of a string is one literal with no mark after it, or what is left from the place where
the string was opened that the scan reports as open. -/
def IsString (q : Quote) (source : Text) (last : Lexer) (u : Token) : Prop :=
  (∃ t before rest, source = before ++ (u.lexeme ++ rest) ∧ before.byteLength = u.start ∧
      u.lexeme = q.literal t ∧ ∀ c ∈ rest.head?, c ≠ q.mark) ∨
    (∃ t, u.lexeme = [q.mark] ++ q.dup t) ∧ u.stop = source.byteLength ∧
      last.termination = .unterminated q.state u.start

/-- The tokens of a run that have one category become one token, before the rest. -/
theorem merge_run_eq {category : Category} {u : Token} {us later : List Token} {m : Lexer}
    (hrun : Yields l (u :: us) m) (hall : ∀ v ∈ u :: us, v.category = category)
    (hlater : ∀ v ∈ later.head?, v.category ≠ category) :
    merge ((u :: us) ++ later) =
      ofLexeme category (textOf (u :: us)) l.position :: merge later :=
  merge_run_append (covers_of_yields hrun).tiles hall hlater

/-- The first token after a literal is not of the kind of the literal. -/
theorem HasOpen.category_ne_of_head? {later : List Token} {last : Lexer} (h : l.HasOpen [])
    (hmark : ∀ c ∈ l.cursor.remaining.head?, c ≠ q.mark) (hrun : Yields l later last) :
    ∀ t ∈ later.head?, t.category ≠ q.category := by
  cases hrun with
  | nil => simp
  | cons hnext _ =>
      intro t ht
      cases ht
      exact h.category_ne hmark hnext

/-- From the outside, a literal is the first of the merged tokens. -/
theorem HasOpen.merge_literal {t rest : Text} {ts : List Token} {last : Lexer} (h : l.HasOpen [])
    (hremaining : l.cursor.remaining = q.literal t ++ rest) (hrest : ∀ c ∈ rest.head?, c ≠ q.mark)
    (hrun : Yields l ts last) (hend : Ended last) :
    ∃ m later, m.HasOpen [] ∧ Yields m later last ∧ m.cursor.source = l.cursor.source ∧
      m.cursor.remaining = rest ∧
      merge ts = ofLexeme q.category (q.literal t) l.position :: merge later := by
  obtain ⟨v, vs, m, hyields, hall, hm, hleft⟩ := h.exists_yields_literal hremaining hrest
  obtain ⟨later, rfl, hlater⟩ := hyields.exists_append hrun hend
  have hcovers := covers_of_yields hyields
  have htext : textOf (v :: vs) = q.literal t := hcovers.textOf_eq (hleft ▸ hremaining)
  refine ⟨m, later, hm, hlater, hcovers.source, hleft, ?_⟩
  rw [merge_run_eq hyields hall (hm.category_ne_of_head? (hleft ▸ hrest) hlater), htext]

/-- From the outside, a string without an end is the only merged token, and is reported as open. -/
theorem HasOpen.merge_unclosed {t : Text} {ts : List Token} {last : Lexer} (h : l.HasOpen [])
    (hremaining : l.cursor.remaining = [q.mark] ++ q.dup t) (hrun : Yields l ts last)
    (hend : Ended last) :
    merge ts = [ofLexeme q.category ([q.mark] ++ q.dup t) l.position] ∧
      last.termination = .unterminated q.state l.position := by
  obtain ⟨v, vs, m, hyields, hall, hmend, htermination⟩ := h.exists_yields_unclosed hremaining
  obtain ⟨later, rfl, hlater⟩ := hyields.exists_append hrun hend
  obtain ⟨rfl, rfl⟩ := hlater.eq_nil_of_ended hmend
  refine ⟨?_, htermination⟩
  rw [merge_run_eq hyields hall (by simp), textOf_of_yields_ended hyields hmend, hremaining]
  rfl

/-- From a place outside of strings, every token of a kind of strings is as `IsString` says. -/
theorem HasOpen.isString_of_mem_merge {comments : List Frame} {ts : List Token} {last : Lexer}
    {u : Token} (h : l.HasOpen comments) (hrun : Yields l ts last) (hend : Ended last)
    (hu : u ∈ merge ts) (hcategory : u.category = q.category) :
    IsString q l.cursor.source last u := by
  obtain ⟨n, hn⟩ : ∃ n, l.cursor.remaining.length = n := ⟨_, rfl⟩
  induction n using Nat.strongRecOn generalizing l comments ts with
  | ind n ih =>
      -- at a mark, a whole literal is one token of the stream and the rest of the text is shorter
      by_cases hstring : comments = [] ∧ ∃ r : Quote, ∃ rest, l.cursor.remaining = [r.mark] ++ rest
      · obtain ⟨rfl, r, rest, hremaining⟩ := hstring
        -- a literal with an end, or without one
        rcases r.exists_dup rest with ⟨t, rest', rfl, hrest⟩ | ⟨t, rfl⟩
        · have hliteral : l.cursor.remaining = r.literal t ++ rest' := by
            rw [hremaining, Quote.literal, List.append_assoc, List.append_assoc]
          obtain ⟨m, later, hm, hlater, hsource, hleft, hmerge⟩ :=
            h.merge_literal hliteral hrest hrun hend
          rw [hmerge] at hu
          rcases List.mem_cons.1 hu with rfl | hu
          · obtain rfl : r = q := Quote.category_injective hcategory
            obtain ⟨before, hbefore, hlength⟩ := l.cursor.valid
            exact .inl ⟨t, before, rest', by rw [hbefore, hliteral]; rfl, hlength, rfl, hrest⟩
          · have hlt : m.cursor.remaining.length < n := by
              rw [← hn, hliteral, hleft, Quote.literal]
              simp only [List.length_append, List.length_cons]
              omega
            rw [← hsource]
            exact ih _ hlt hm hlater hu rfl
        · obtain ⟨hmerge, htermination⟩ := h.merge_unclosed hremaining hrun hend
          rw [hmerge] at hu
          obtain rfl := List.mem_singleton.1 hu
          obtain rfl : r = q := Quote.category_injective hcategory
          refine .inr ⟨⟨t, rfl⟩, ?_, htermination⟩
          obtain ⟨before, hbefore, hlength⟩ := l.cursor.valid
          rw [hbefore, hremaining, Text.byteLength_append, hlength]
          rfl
      -- elsewhere one step is taken, whose token has no category of strings
      · cases hrun with
        | nil => cases hu
        | cons hnext hlater =>
            have hmark : comments = [] → ∀ r : Quote, ∀ c ∈ l.cursor.remaining.head?, c ≠ r.mark := by
              rintro hnil r c hc rfl
              obtain ⟨rest, hrest⟩ := List.head?_eq_some_iff.1 hc
              exact hstring ⟨hnil, r, rest, hrest⟩
            obtain ⟨⟨comments', hnext'⟩, hother⟩ := h.exists_of_step hnext hmark
            have hu := mem_of_mem_prepend hu (hcategory ▸ (hother q).symm)
            obtain ⟨s, lexeme, hadvances, -⟩ := step_eq_token_iff.1 hnext
            rw [← hadvances.source]
            exact ih _ (hn ▸ length_lt_of_step hnext) hnext' hlater hu rfl

end Lexer

/-- A new lexer of JSONiq has nothing open. -/
theorem Lexer.hasOpen_start (source : Text) : (Grammar.jsoniq.lex source).HasOpen [] :=
  ⟨grammar_lex .jsoniq source, ⟨⟨.root, 0⟩, rfl, rfl⟩, by simp⟩

/-- The tokens of a JSONiq text are the merged tokens of the run to the end. -/
theorem tokenize_of_run {source : Text} {tokens : List Token} {last : Lexer}
    (hrun : Yields (Grammar.jsoniq.lex source) tokens last) (hend : Ended last) :
    tokenize source = .ok (merge tokens) := by
  obtain ⟨hmerge, hmergeEnd⟩ := Lexer.yields_coalesce hrun hend
  exact result_drain_of_yields hmerge hmergeEnd

/-- There is a run to the end of every JSONiq text, and its merged tokens are the tokens of the
text. -/
theorem exists_tokenize (source : Text) :
    ∃ tokens last, Yields (Grammar.jsoniq.lex source) tokens last ∧ Ended last ∧
      tokenize source = .ok (merge tokens) := by
  obtain ⟨tokens, last, hrun, hend⟩ := Lexer.exists_run_jsoniq (Lexer.hasOpen_start source).grammar
  exact ⟨tokens, last, hrun, hend, tokenize_of_run hrun hend⟩

/-- A scan gives the tokens of the run to the end, merged unless they are asked for raw, and how the
last lexer says it ended. -/
theorem scan_of_run {source : Text} {tokens : List Token} {last : Lexer}
    (hrun : Yields (Grammar.jsoniq.lex source) tokens last) (hend : Ended last) (raw : Bool) :
    Scan.of source raw = .ok ⟨if raw then tokens else merge tokens, last.termination⟩ := by
  rw [Scan.of, drain_of_yields hrun hend]
  cases raw with
  | true => rfl
  | false =>
      have hmerge := Coalescer.drain_start_of_pieces (Lexer.isPieceOf_of_scan hrun hend)
      simp only [Taken.result, hmerge, Bool.false_eq_true, if_false]

/-- A literal in front of a text that begins with no mark of its kind is one token in front of the
tokens of the text. -/
theorem tokenize_literal_append {q : Quote} {t rest : Text} (hrest : ∀ c ∈ rest.head?, c ≠ q.mark) :
    ∃ tokens, tokenize rest = .ok tokens ∧
      tokenize (q.literal t ++ rest) = .ok
        (ofLexeme q.category (q.literal t) 0 :: tokens.map (shift (q.literal t).byteLength)) := by
  obtain ⟨tokens, last, hrun, hend, htokenize⟩ := exists_tokenize rest
  refine ⟨merge tokens, htokenize, ?_⟩
  obtain ⟨v, vs, m, hyields, hall, hm, hleft⟩ :=
    (Lexer.hasOpen_start (q.literal t ++ rest)).exists_yields_literal rfl hrest
  have hcovers := Lexer.covers_of_yields hyields
  have htext : textOf (v :: vs) = q.literal t := hcovers.textOf_eq (by rw [hleft]; rfl)
  -- after the literal the lexer is as a new one on the rest, but for its place
  have hmirrors : (Grammar.jsoniq.lex rest).Mirrors (q.literal t).byteLength m := by
    refine ⟨hm.grammar.trans (Lexer.grammar_lex .jsoniq rest).symm, hleft, ?_, ?_⟩
    · rw [hcovers.position, htext]
      rfl
    · obtain ⟨bottom, hframes, hroot⟩ := hm.frames
      rw [Lexer.states, hframes]
      exact congrArg (fun state => [state]) hroot
  obtain ⟨last', hlater, hlast⟩ := hmirrors.yields hrun
  have hend' := hlast.ended hend
  have hhead := hm.category_ne_of_head? (hleft ▸ hrest) hlater
  obtain ⟨hmerge, hmergeEnd⟩ := Lexer.yields_coalesce (hyields.append hlater) hend'
  rw [tokenize, result_drain_of_yields hmerge hmergeEnd, Lexer.merge_run_eq hyields hall hhead,
    htext, merge_map_shift]
  rfl

/-- Every string token is one string literal. A token of a kind of strings is a literal of the kind
that no mark of the kind follows, or it is the last token, a literal without its end, and the scan
ends in it; and a literal in front of a text that begins with no mark of the kind is one token,
followed by the tokens of the text, each at its place. -/
theorem string_token_is_literal (q : Quote) :
    (∀ source, ∃ tokens, tokenize source = .ok tokens ∧
      ∀ u ∈ tokens, u.category = q.category →
        (∃ t before rest, source = before ++ (u.lexeme ++ rest) ∧ before.byteLength = u.start ∧
            u.lexeme = q.literal t ∧ ∀ c ∈ rest.head?, c ≠ q.mark) ∨
          tokens.getLast? = some u ∧ (∃ t, u.lexeme = [q.mark] ++ q.dup t) ∧
            u.stop = source.byteLength ∧
            (drain (Grammar.jsoniq.lex source)).rest.termination =
              .unterminated q.state u.start) ∧
      ∀ t rest, (∀ c ∈ rest.head?, c ≠ q.mark) →
        ∃ tokens, tokenize rest = .ok tokens ∧
          tokenize (q.literal t ++ rest) = .ok
            (ofLexeme q.category (q.literal t) 0 ::
              tokens.map (shift (q.literal t).byteLength)) := by
  refine ⟨fun source => ?_, fun t rest hrest => tokenize_literal_append hrest⟩
  obtain ⟨tokens, last, hrun, hend, htokenize⟩ := exists_tokenize source
  refine ⟨merge tokens, htokenize, fun u hu hcategory => ?_⟩
  rcases (Lexer.hasOpen_start source).isString_of_mem_merge hrun hend hu hcategory with
    hliteral | ⟨hlexeme, hstop, htermination⟩
  · exact .inl hliteral
  · have htiling := (losslessScan_of_run hrun hend).mergedTiling
    refine .inr ⟨htiling.getLast?_eq_some hu hstop, hlexeme, hstop, ?_⟩
    rw [drain_of_yields hrun hend]
    exact htermination

/-- A literal with a mark in it, and a name after it. -/
theorem string_token_is_literal_name :
    (∀ c ∈ "x".toList.head?, c ≠ Quote.double.mark) ∧
      ∃ tokens, tokenize "x".toList = .ok tokens ∧
        tokenize ("\"a\"\"b\"x".toList) = .ok
          (ofLexeme .stringDouble "\"a\"\"b\"".toList 0 :: tokens.map (shift 6)) := by
  have hrest : ∀ c ∈ "x".toList.head?, c ≠ Quote.double.mark := by
    intro c hc
    obtain rfl : 'x' = c := Option.some.inj hc
    decide
  exact ⟨hrest, (string_token_is_literal .double).2 "a\"b".toList "x".toList hrest⟩

end JsoniqLexer

import JsoniqLexer.Proofs.Jsoniq.Splitting

/-!
# Where the outermost construct was opened

A scan that ends inside of a construct has come, at the place that it reports, to a lexer with nothing
open that enters the construct (`exists_opening`). From there on nothing is closed to the root any
more, so every token has the category of the construct (`Nests.category_of_yields`), and for a string
the token before has another category (`Nests.head?_ne_mark`).
-/

set_option autoImplicit false

namespace JsoniqLexer

open TokenStream Token Jsoniq Move

/-- The text that enters a construct. -/
def State.opener : State → Text
  | .root => []
  | .comment => ['(', ':']
  | .doubleQuoted => ['"']
  | .singleQuoted => ['\'']

theorem Termination.ofOpen_eq_unterminated_iff {frame : Option Frame} {state : State}
    {openedAt : Nat} :
    ofOpen frame = .unterminated state openedAt ↔ frame = some ⟨state, openedAt⟩ := by
  cases frame with
  | none => simp [ofOpen]
  | some frame =>
      obtain ⟨own, offset⟩ := frame
      simp [ofOpen]

namespace Jsoniq

/-- What is entered is entered by its opener. -/
theorem form_of_target {state target : State} {line : Line} (h : line ∈ lines state)
    (htarget : line.action.target? = some target) : line.form.regex = .ofText target.opener := by
  have hall : ∀ s ∈ State.all, ∀ l ∈ lines s, ∀ t ∈ l.action.target?,
      l.form.regex = .ofText t.opener := by
    decide
  exact hall state state.mem_all line h target htarget

/-- From the outside, the category of a kind of strings is given only where one is entered. -/
theorem isSome_target_of_category (q : Quote) {line : Line} (h : line ∈ lines .root)
    (hcategory : line.action.category? = some q.category) : line.action.target?.isSome = true := by
  have hall : ∀ l ∈ lines .root, l.action.category? = some q.category →
      l.action.target?.isSome = true := by
    cases q <;> decide
  exact hall line h hcategory

/-- A string is left by one mark. -/
theorem form_of_isPop (q : Quote) {line : Line} (h : line ∈ lines q.state)
    (hpop : line.action.isPop = true) : line.form.regex = .ofText [q.mark] := by
  have hall : ∀ l ∈ lines q.state, l.action.isPop = true → l.form.regex = .ofText [q.mark] := by
    cases q <;> decide
  exact hall line h hpop

/-- Only strings of a kind have its category. -/
theorem state_of_category (q : Quote) {state : State} (h : state.category? = some q.category) :
    state = q.state := by
  cases q <;> cases state <;> first | rfl | cases h

/-- A line for a fixed text finds that text. -/
theorem Line.of_matchLength?_fixed {line : Line} {x text : Text} {n : Nat}
    (hform : line.form.regex = .ofText x) (h : line.rule.matchLength? text = some n) :
    x <+: text ∧ n = x.byteLength := by
  have hbegins : x <+: text := by
    by_contra hnot
    rw [matchLength?_fixed_eq_none hform hnot] at h
    cases h
  refine ⟨hbegins, ?_⟩
  obtain ⟨rest, rfl⟩ := hbegins
  obtain ⟨y, tail, htext, ⟨-, hy, -⟩, rfl⟩ := admits_of_matchLength? h
  have hmatches := line.form.matches_pattern_iff.1 hy
  rw [hform, Pattern.Regex.matches_ofText] at hmatches
  rw [hmatches]

end Jsoniq

namespace Lexer

variable {kind kind' : State} {l next last : Lexer} {ts : List Token} {t : Token}

/-- A lexer with nothing open that goes on to a place where something is open has entered it at its
opener. -/
theorem Nests.opener_prefix {s : Selection} {lexeme : Text} (h : l.Nests kind)
    (hnext : next.Nests kind') (hinner : l.inner = []) (hadvances : l.Advances s lexeme next)
    (hne : next.inner ≠ []) : kind'.opener <+: l.cursor.remaining := by
  rw [hadvances.inner] at hne
  obtain ⟨category, target, haction⟩ := exists_push_of_inner hinner hne
  obtain rfl : target = kind' := by
    apply hnext.inside ⟨target, l.position⟩
    rw [hadvances.inner, haction, inner_transition_push, hinner]
    exact List.mem_singleton_self _
  obtain ⟨line, hline, hsame, hmatch⟩ := h.exists_line hadvances
  rw [h.state_eq_root hinner] at hline
  have htarget : line.action.target? = some target := by
    rw [← hsame, haction]
    rfl
  exact (Line.of_matchLength?_fixed (form_of_target hline htarget) hmatch).1

/-- With nothing open, a lexer comes to the end that a new lexer on the text that is left comes to. -/
theorem Nests.exists_end (h : l.Nests kind) (hinner : l.inner = []) (hrun : Yields l ts last)
    (hend : Ended last) :
    ∃ us e, Yields (Grammar.jsoniq.lex l.cursor.remaining) us e ∧ Ended e ∧
      last.termination = e.termination.shift l.position := by
  obtain ⟨us, e, hrun', hend', -⟩ := exists_tokenize l.cursor.remaining
  obtain ⟨m, hm, hresumes⟩ := exists_resumed h hinner hrun'
  obtain ⟨-, rfl⟩ := hrun.eq_of_ended hend hm (hresumes.mirrors.ended hend')
  exact ⟨us, e, hrun', hend', hresumes.termination⟩

/-- With nothing open, what is open at the end is opened here or later. -/
theorem Nests.position_le {state : State} {openedAt : Nat} (h : l.Nests kind) (hinner : l.inner = [])
    (hrun : Yields l ts last) (hend : Ended last)
    (htermination : last.termination = .unterminated state openedAt) : l.position ≤ openedAt := by
  obtain ⟨us, e, -, -, hshift⟩ := h.exists_end hinner hrun hend
  rw [htermination] at hshift
  cases he : e.termination with
  | complete =>
      rw [he] at hshift
      cases hshift
  | unterminated own offset =>
      rw [he] at hshift
      obtain ⟨-, hoffset⟩ := Termination.unterminated.inj hshift
      omega

/-- After the place where it was opened, every token has the category of the construct that is open at
the end. -/
theorem Nests.category_of_yields {state : State} {openedAt : Nat} (h : l.Nests kind)
    (hrun : Yields l ts last) (hend : Ended last)
    (htermination : last.termination = .unterminated state openedAt) (hlt : openedAt < l.position) :
    ∀ t ∈ ts, kind.category? = some t.category := by
  induction hrun generalizing kind with
  | nil l => simp
  | @cons l m last t ts hnext hlater ih =>
      have hinner : l.inner ≠ [] := by
        intro hnil
        have hle := h.position_le hnil (.cons hnext hlater) hend htermination
        omega
      obtain ⟨kind', hm, hsame, hcategory⟩ := h.step hnext
      obtain ⟨s, lexeme, hadvances, -⟩ := step_eq_token_iff.1 hnext
      have hposition := hadvances.position_lt
      have hopen : m.inner ≠ [] := by
        intro hnil
        have hle := hm.position_le hnil hlater hend htermination
        omega
      rw [hsame hinner] at hm hcategory
      have hothers := ih hm hend htermination (Nat.lt_trans hlt hposition)
      exact List.forall_mem_cons.2 ⟨hcategory hopen, hothers⟩

/-- A scan that ends inside of a construct has come to the place that it reports with nothing open,
and has entered the construct there. -/
theorem exists_opening {source : Text} {tokens : List Token} {state : State} {openedAt : Nat}
    (hrun : Yields (Grammar.jsoniq.lex source) tokens last)
    (htermination : last.termination = .unterminated state openedAt) :
    ∃ as t bs k next, tokens = as ++ t :: bs ∧ Yields (Grammar.jsoniq.lex source) as k ∧
      k.inner = [] ∧ k.position = openedAt ∧ k.step = (.ok (some t), next) ∧
        next.inner = [⟨state, openedAt⟩] ∧ Yields next bs last := by
  obtain ⟨moves, hrecords, rfl⟩ := exists_records hrun
  obtain ⟨hstack, -⟩ := hrecords.stack Grammar.isSound_jsoniq
  rw [hstack.termination_eq, Termination.ofOpen_eq_unterminated_iff] at htermination
  obtain ⟨frames, hframes⟩ := List.head?_eq_some_iff.1 htermination
  obtain ⟨earlier, ⟨action, t⟩, later, rfl, hframe, hearlier, -⟩ :=
    exists_of_unmatchedPushes_eq_cons hframes
  rw [List.append_cons] at hrecords
  obtain ⟨next, hnext, hlater⟩ := hrecords.exists_of_append
  obtain ⟨k, hk, hstep⟩ := hnext.exists_of_concat
  obtain ⟨hkstack, -⟩ := hk.stack Grammar.isSound_jsoniq
  obtain ⟨hnextstack, -⟩ := hnext.stack Grammar.isSound_jsoniq
  -- the move that is not undone is a push, and its frame is all that is open after it
  obtain ⟨category, haction, hstart⟩ := exists_push_of_frame hframe
  obtain rfl : action = .push category state := haction
  obtain rfl : t.start = openedAt := hstart
  refine ⟨_, t, _, k, next, List.map_append, hk.yields, ?_, ?_, hstep, ?_, hlater.yields⟩
  · rw [inner, hkstack.frames, hearlier]
    rfl
  · obtain ⟨s, lexeme, -, rfl⟩ := step_eq_token_iff.1 hstep
    rfl
  · rw [inner, hnextstack.frames, unmatchedPushes_concat_push, hearlier]
    rfl

/-- A step with a token of a string that leaves nothing open leaves the string. -/
theorem Nests.isPop_of_string {q : Quote} {s : Selection} {lexeme : Text} (h : l.Nests kind)
    (hadvances : l.Advances s lexeme next) (hcategory : s.rule.action.category? = some q.category)
    (hinner : next.inner = []) : l.state = q.state ∧ s.rule.action.isPop = true := by
  obtain ⟨line, hline, haction, -⟩ := h.exists_line hadvances
  rw [hadvances.inner] at hinner
  -- if the string were entered by this step, it would be open
  have hopen : l.inner ≠ [] := by
    intro hnil
    rw [h.state_eq_root hnil] at hline
    rw [haction] at hcategory hinner
    obtain ⟨target, htarget⟩ :=
      Option.isSome_iff_exists.1 (isSome_target_of_category q hline hcategory)
    obtain ⟨category, hpush⟩ := Action.exists_push_of_target htarget
    rw [hpush, inner_transition_push] at hinner
    exact List.append_ne_nil_of_right_ne_nil _ (List.cons_ne_nil _ []) hinner
  constructor
  · have hkind := (category_of_mem_lines hline).1 (by rw [h.state_eq hopen]; exact h.kind_ne)
    rw [← haction, hcategory] at hkind
    exact state_of_category q hkind.symm
  · by_contra hnot
    exact hopen (inner_eq_nil_of_transition (Bool.not_eq_true _ ▸ hnot) hinner)

/-- A string that is closed is not followed by its mark. -/
theorem Nests.head?_ne_mark {q : Quote} (h : l.Nests kind) (hstep : l.step = (.ok (some t), next))
    (hcategory : t.category = q.category) (hinner : next.inner = []) :
    ∀ c ∈ next.cursor.remaining.head?, c ≠ q.mark := by
  obtain ⟨s, lexeme, hadvances, rfl⟩ := step_eq_token_iff.1 hstep
  obtain ⟨line, hline, haction, hmatch⟩ := h.exists_line hadvances
  have hown : s.rule.action.category? = some q.category :=
    Grammar.category?_of_categoryOf hcategory q.isWord_category
  obtain ⟨hstate, hpop⟩ := h.isPop_of_string hadvances hown hinner
  rw [hstate] at hline
  obtain ⟨⟨rest, hrest⟩, hlength⟩ :=
    Line.of_matchLength?_fixed (form_of_isPop q hline (haction ▸ hpop)) hmatch
  have htext := hadvances.remaining
  rw [← hrest] at htext
  obtain ⟨-, hleft⟩ := Text.append_inj_of_byteLength htext (hlength.symm.trans hadvances.length.symm)
  rintro c hc rfl
  rw [← hleft] at hc
  obtain ⟨after, rfl⟩ := List.head?_eq_some_iff.1 hc
  -- two marks would not have left the string
  obtain ⟨s', hselect, htwice, -⟩ := selects_string_twice q after
  have hselected := hadvances.selected
  rw [h.grammar, hstate, ← hrest] at hselected
  obtain rfl := Option.some.inj (hselect.symm.trans hselected)
  rw [htwice] at hpop
  cases hpop

/-- At the offset, with nothing open, the lexer enters a construct that stays open to the end of the
text. `t` and `later` are the tokens from there on. -/
structure OpensAt (k : Lexer) (state : State) (openedAt : Nat) (t : Token) (later : List Token)
    (last : Lexer) : Prop where
  nests : ∃ kind, k.Nests kind
  outside : k.inner = []
  position : k.position = openedAt
  state_ne : state ≠ .root
  opener : state.opener <+: k.cursor.remaining
  run : Yields k (t :: later) last
  categories : ∀ u ∈ t :: later, state.category? = some u.category

/-- A scan that ends inside of a construct has entered it at the place that it reports. -/
theorem exists_opensAt {source : Text} {tokens : List Token} {state : State} {openedAt : Nat}
    (hrun : Yields (Grammar.jsoniq.lex source) tokens last) (hend : Ended last)
    (htermination : last.termination = .unterminated state openedAt) :
    ∃ earlier t later k, tokens = earlier ++ t :: later ∧
      Yields (Grammar.jsoniq.lex source) earlier k ∧ k.OpensAt state openedAt t later last := by
  obtain ⟨earlier, t, later, k, next, htokens, hk, houtside, hposition, hstep, hinner, hlater⟩ :=
    exists_opening hrun htermination
  obtain ⟨kind, hnests⟩ := exists_nests hk
  obtain ⟨kind', hnext, -, hcategory⟩ := hnests.step hstep
  have hne : next.inner ≠ [] := by
    rw [hinner]
    exact List.cons_ne_nil _ []
  obtain rfl : state = kind' := hnext.inside ⟨state, openedAt⟩ (by rw [hinner]; simp)
  obtain ⟨s, lexeme, hadvances, -⟩ := step_eq_token_iff.1 hstep
  have hlt : openedAt < next.position := hposition ▸ hadvances.position_lt
  refine ⟨earlier, t, later, k, htokens, hk, ?_⟩
  exact {
    nests := ⟨kind, hnests⟩
    outside := houtside
    position := hposition
    state_ne := hnext.kind_ne
    opener := hnests.opener_prefix hnext houtside hadvances hne
    run := .cons hstep hlater
    categories := List.forall_mem_cons.2
      ⟨hcategory hne, hnext.category_of_yields hlater hend htermination hlt⟩ }

/-- The token before a string that stays open has another category. -/
theorem OpensAt.category_ne {source : Text} {q : Quote} {openedAt : Nat} {a t : Token}
    {earlier later : List Token} {k : Lexer} (h : k.OpensAt q.state openedAt t later last)
    (hk : Yields (Grammar.jsoniq.lex source) (earlier ++ [a]) k) : a.category ≠ q.category := by
  intro hcategory
  obtain ⟨j, hj, hlast⟩ := hk.exists_of_append
  obtain ⟨m, hstep, hm⟩ := yields_cons_iff.1 hlast
  obtain rfl := yields_nil_iff.1 hm
  obtain ⟨kind, hnests⟩ := exists_nests hj
  -- the string before was closed, so no mark may follow it
  obtain ⟨rest, hrest⟩ := h.opener
  have hmark : k.cursor.remaining.head? = some q.mark := by
    rw [← hrest]
    cases q <;> rfl
  exact hnests.head?_ne_mark hstep hcategory h.outside q.mark hmark rfl

/-- The last token of a text that ends inside of a construct belongs to the construct. -/
theorem OpensAt.exists_getLast? {source : Text} {state : State} {openedAt : Nat} {t : Token}
    {earlier later : List Token} {k : Lexer} (h : k.OpensAt state openedAt t later last)
    (hk : Yields (Grammar.jsoniq.lex source) earlier k) :
    ∃ u, (merge (earlier ++ t :: later)).getLast? = some u ∧ state.category? = some u.category ∧
      u.start ≤ openedAt ∧ ∀ q : Quote, state = q.state → u.start = openedAt := by
  have htiles := (covers_of_yields (hk.append h.run)).tiles
  have hstart : t.start = openedAt := by
    rw [← h.position]
    exact (covers_of_yields h.run).tiles.2.1
  have hsame : ∀ u ∈ t :: later, u.category = t.category := by
    intro u hu
    have hown := h.categories t List.mem_cons_self
    rw [h.categories u hu] at hown
    exact Option.some.inj hown
  obtain ⟨u, hu, hcategory, hle⟩ := exists_getLast?_merge htiles hsame
  rw [hstart] at hle
  refine ⟨u, hu, ?_, hle, ?_⟩
  · rw [hcategory]
    exact h.categories t List.mem_cons_self
  · rintro q rfl
    have hstring : t.category = q.category := by
      have hown := h.categories t List.mem_cons_self
      rw [q.category?_state] at hown
      exact (Option.some.inj hown).symm
    have happart : ∀ a ∈ earlier.getLast?, ∀ v ∈ (t :: later).head?,
        ¬ Coalescer.continues a v = true := by
      intro a ha v hv hcontinues
      obtain rfl := Option.some.inj hv
      obtain ⟨front, rfl⟩ := List.getLast?_eq_some_iff.1 ha
      exact h.category_ne hk ((continues_iff.1 hcontinues).1.symm.trans hstring)
    rw [merge_append happart, merge_run (covers_of_yields h.run).tiles hsame,
      List.getLast?_concat] at hu
    obtain rfl := Option.some.inj hu
    exact h.position

end Lexer

end JsoniqLexer

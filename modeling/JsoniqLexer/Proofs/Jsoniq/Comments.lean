import JsoniqLexer.Proofs.Jsoniq.Stack

/-!
# Nested comments are delimited by counting

A scanner that knows nothing of rules reads a text from the left without overlap and counts opening
marks up and closing marks down (`nesting`). From the place where a comment begins, the lexer stands
only where the scanner stands, and as deep as the scanner has counted (`Tracks`), up to the place
where the counter is back at zero; there, and not before, it is outside again.
-/

set_option autoImplicit false

namespace JsoniqLexer

open TokenStream Token

namespace Jsoniq

/-- The offsets at which a scanner of comment marks stands, each with its counter there. -/
def nesting (offset : Nat) (count : Int) : Text → List (Nat × Int)
  | '(' :: ':' :: rest => (offset, count) :: nesting (offset + 2) (count + 1) rest
  | ':' :: ')' :: rest => (offset, count) :: nesting (offset + 2) (count - 1) rest
  | c :: rest => (offset, count) :: nesting (offset + c.utf8Size) count rest
  | [] => [(offset, count)]

/-- The offset at which the counter is first back at zero, from a start at zero. -/
def nestingEnd? (offset : Nat) (text : Text) : Option Nat :=
  ((nesting offset 0 text).tail.find? fun place => place.2 = 0).map Prod.fst

example : nesting 0 0 "(:a(:):)".toList = [(0, 0), (2, 1), (3, 1), (5, 2), (6, 2), (8, 1)] := by
  decide

theorem nesting_eq_cons (offset : Nat) (count : Int) (text : Text) :
    ∃ later, nesting offset count text = (offset, count) :: later := by
  fun_cases nesting offset count text
  · exact ⟨_, rfl⟩
  · exact ⟨_, rfl⟩
  · exact ⟨_, rfl⟩
  · exact ⟨_, rfl⟩

/-- Over text without marks the counter stays. -/
theorem nesting_append {offset : Nat} {count : Int} {run : Text} (rest : Text)
    (hrun : ∀ c ∈ run, commentMark.contains c = false) :
    ∃ passed, nesting offset count (run ++ rest) =
        passed ++ nesting (offset + run.byteLength) count rest ∧
      ∀ place ∈ passed, place.1 < offset + run.byteLength ∧ place.2 = count := by
  induction run generalizing offset with
  | nil => exact ⟨[], rfl, by simp⟩
  | cons c run ih =>
      obtain ⟨hc, hrun⟩ := List.forall_mem_cons.1 hrun
      obtain ⟨passed, hnesting, hpassed⟩ := @ih (offset + c.utf8Size) hrun
      -- neither mark can begin with `c`
      have hmark : c ≠ '(' ∧ c ≠ ':' := by
        constructor
        · rintro rfl
          cases hc
        · rintro rfl
          cases hc
      have hpos := c.utf8Size_pos
      refine ⟨(offset, count) :: passed, ?_, ?_⟩
      · rw [List.cons_append, nesting, hnesting, Text.byteLength_cons, Nat.add_assoc]
        · rfl
        · exact fun _ h _ => hmark.1 h
        · exact fun _ h _ => hmark.2 h
      · rw [Text.byteLength_cons, ← Nat.add_assoc]
        refine List.forall_mem_cons.2 ⟨⟨?_, rfl⟩, hpassed⟩
        simp only
        omega

/-- A character of a mark that is not part of one leaves the counter. -/
theorem nesting_cons {offset : Nat} {count : Int} {c : Char} {rest : Text}
    (hopen : ¬ ['(', ':'] <+: c :: rest) (hclose : ¬ [':', ')'] <+: c :: rest) :
    nesting offset count (c :: rest) =
      (offset, count) :: nesting (offset + c.utf8Size) count rest := by
  rw [nesting]
  · rintro tail rfl rfl
    exact hopen ⟨tail, rfl⟩
  · rintro tail rfl rfl
    exact hclose ⟨tail, rfl⟩

end Jsoniq

open Jsoniq

namespace Lexer

/-- From one place to another the lexer has kept up with the scanner: it stands where the scanner
stands, as deep as it has counted, and the places in between lie before it and inside of the
comment. -/
structure Tracks (l : Lexer) (outer : List Frame) (m : Lexer) (inner : List Frame)
    (passed : List (Nat × Int)) : Prop where
  isOpen : m.HasOpen inner
  nesting : nesting l.position outer.length l.cursor.remaining =
    passed ++ Jsoniq.nesting m.position inner.length m.cursor.remaining
  passed : ∀ place ∈ passed, place.1 < m.position ∧ place.2 ≠ 0
  outermost : inner = [] ∨ inner.getLast? = outer.getLast?

variable {l m : Lexer} {frame : Frame} {comments : List Frame}

/-- A step over a lexeme keeps up with the scanner, if the counter stays as it is up to the end of
the lexeme and is there as many as are open then. -/
theorem HasOpen.exists_tracks_of_selects {action : Action} {lexeme rest : Text} {inner : List Frame}
    (h : l.HasOpen (frame :: comments)) (passed : List (Nat × Int))
    (hremaining : l.cursor.remaining = lexeme ++ rest)
    (hselects : Selects .comment (lexeme ++ rest) action lexeme)
    (hcategory : action.category? = some .comment)
    (hinner : ∀ {s : Selection} {next : Lexer}, l.Advances s lexeme next →
      s.rule.action = action → next.HasOpen inner)
    (houtermost : inner = [] ∨ inner.getLast? = (frame :: comments).getLast?)
    (hnesting : Jsoniq.nesting l.position (frame :: comments).length (lexeme ++ rest) =
      passed ++ Jsoniq.nesting (l.position + lexeme.byteLength) inner.length rest)
    (hpassed : ∀ place ∈ passed, place.1 < l.position + lexeme.byteLength ∧
      place.2 = (frame :: comments).length) :
    ∃ t next inner passed, l.step = (.ok (some t), next) ∧ t.category = .comment ∧
      l.Tracks (frame :: comments) next inner passed := by
  rw [← h.state_eq_comment] at hselects
  obtain ⟨s, t, next, hstep, hcomment, hadvances, haction, hrest⟩ :=
    exists_step_of_selects h.grammar hremaining hselects hcategory
  refine ⟨t, next, inner, passed, hstep, hcomment, hinner hadvances haction, ?_, ?_, houtermost⟩
  · rw [hadvances.position, hremaining, hrest]
    exact hnesting
  · intro place hplace
    obtain ⟨hlt, hcount⟩ := hpassed place hplace
    rw [hadvances.position, hcount, List.length_cons]
    exact ⟨hlt, by omega⟩

/-- One step inside of a comment keeps up with the scanner; the cases are those of the scanner. -/
theorem HasOpen.exists_step (h : l.HasOpen (frame :: comments)) (hne : l.cursor.remaining ≠ []) :
    ∃ t next inner passed, l.step = (.ok (some t), next) ∧ t.category = .comment ∧
      l.Tracks (frame :: comments) next inner passed := by
  -- an opening mark: both go one deeper
  by_cases hopen : ['(', ':'] <+: l.cursor.remaining
  · obtain ⟨rest, hrest⟩ := hopen
    refine h.exists_tracks_of_selects [(l.position, (frame :: comments).length)] hrest.symm
      (selects_comment_open rest) rfl h.of_push (.inr List.getLast?_cons_cons) ?_ ?_
    · rfl
    · exact List.forall_mem_singleton.2 ⟨Nat.lt_add_of_pos_right (by decide), rfl⟩
  -- a closing mark: both come one back
  by_cases hclose : [':', ')'] <+: l.cursor.remaining
  · obtain ⟨rest, hrest⟩ := hclose
    refine h.exists_tracks_of_selects [(l.position, (frame :: comments).length)] hrest.symm
      (selects_comment_close rest) rfl h.of_pop ?_ ?_ ?_
    · cases comments with
      | nil => exact .inl rfl
      | cons outer comments => exact .inr List.getLast?_cons_cons.symm
    · have hcount : ((frame :: comments).length : Int) - 1 = comments.length := by simp
      rw [← hcount]
      rfl
    · exact List.forall_mem_singleton.2 ⟨Nat.lt_add_of_pos_right (by decide), rfl⟩
  obtain ⟨c, tail, hremaining⟩ := List.exists_cons_of_ne_nil hne
  rw [hremaining] at hopen hclose
  cases hc : commentMark.contains c with
  -- a character of a mark on its own: one step of both, and the counter stays
  | true =>
      refine h.exists_tracks_of_selects [(l.position, (frame :: comments).length)] hremaining
        (selects_comment_bracket hc hopen hclose) rfl
        (fun hadvances haction => h.of_plain hadvances (.inl haction)) (.inr rfl) ?_ ?_
      · rw [List.singleton_append, nesting_cons hopen hclose]
        rfl
      · exact List.forall_mem_singleton.2 ⟨Nat.lt_add_of_pos_right c.utf8Size_pos, rfl⟩
  -- no mark begins before the next such character: one step of the lexer, many of the scanner
  | false =>
      have hrun : (!commentMark.contains c) = true := by rw [hc]; rfl
      obtain ⟨run, rest, htext, hrunNe, hrun, hrest⟩ :=
        @Text.exists_run (fun d => !commentMark.contains d) c hrun tail
      have hrun : ∀ d ∈ run, commentMark.contains d = false := fun d hd => by simpa using hrun d hd
      have hrest : ∀ d ∈ rest.head?, commentMark.contains d = true :=
        fun d hd => by simpa using hrest d hd
      obtain ⟨passed, hnesting, hpassed⟩ := nesting_append rest hrun
      exact h.exists_tracks_of_selects passed (hremaining.trans htext)
        (selects_comment_text hrunNe hrun hrest) rfl
        (fun hadvances haction => h.of_plain hadvances (.inl haction)) (.inr rfl) hnesting hpassed

/-- A place inside of a comment has kept up with itself. -/
theorem HasOpen.tracks_self (h : l.HasOpen comments) : l.Tracks comments l comments [] :=
  ⟨h, rfl, by simp, .inr rfl⟩

theorem Tracks.trans {k : Lexer} {outer inner innermost : List Frame}
    {passed later : List (Nat × Int)} (h : l.Tracks outer m inner passed)
    (h' : m.Tracks inner k innermost later) (hinner : inner ≠ [])
    (hle : m.position ≤ k.position) : l.Tracks outer k innermost (passed ++ later) := by
  refine ⟨h'.isOpen, ?_, ?_, ?_⟩
  · rw [h.nesting, h'.nesting, List.append_assoc]
  · intro place hplace
    rcases List.mem_append.1 hplace with hplace | hplace
    · obtain ⟨hlt, hcount⟩ := h.passed place hplace
      exact ⟨by omega, hcount⟩
    · exact h'.passed place hplace
  · rcases h'.outermost with hnil | hlast
    · exact .inl hnil
    · exact .inr (hlast.trans (h.outermost.resolve_left hinner))

/-- A run from inside of a comment keeps up with the scanner, to its end or to the place where the
lexer is outside again. -/
theorem HasOpen.exists_tracks {ts : List Token} (h : l.HasOpen comments) (hne : comments ≠ [])
    (hrun : Yields l ts m) :
    ∃ us vs k inner passed, ts = us ++ vs ∧ Yields l us k ∧ Yields k vs m ∧
      l.Tracks comments k inner passed ∧ (∀ t ∈ us, t.category = .comment) ∧
        (inner = [] ∨ vs = []) := by
  induction hrun generalizing comments with
  | nil l => exact ⟨[], [], l, comments, [], rfl, .nil l, .nil l, h.tracks_self, by simp, .inr rfl⟩
  | @cons l next m t ts hnext hrest ih =>
      obtain ⟨frame, comments, rfl⟩ := List.exists_cons_of_ne_nil hne
      have hleft : l.cursor.remaining ≠ [] := by
        intro hnil
        rw [Lexer.next_eq, step_eq_end_iff.2 ⟨hnil, rfl⟩] at hnext
        cases hnext
      obtain ⟨u, next', inner, passed, hstep, hcategory, htracks⟩ := h.exists_step hleft
      rw [Lexer.next_eq, hstep] at hnext
      cases hnext
      -- outside again, the run is divided here; otherwise the rest of it is followed further
      by_cases hinner : inner = []
      · exact ⟨[t], ts, next, inner, passed, rfl, .single hstep, hrest, htracks,
          by simpa using hcategory, .inl hinner⟩
      · obtain ⟨us, vs, k, innermost, later, rfl, hus, hvs, htracks', hall, hend⟩ :=
          ih htracks.isOpen hinner
        have hle : next.position ≤ k.position := by
          rw [(covers_of_yields hus).position]
          exact Nat.le_add_right _ _
        exact ⟨t :: us, vs, k, innermost, passed ++ later, rfl, .cons hstep hus, hvs,
          htracks.trans htracks' hinner hle, List.forall_mem_cons.2 ⟨hcategory, hall⟩, hend⟩

/-- Outside, an opening mark opens a comment. -/
theorem HasOpen.exists_enter {rest : Text} (h : l.HasOpen [])
    (hremaining : l.cursor.remaining = ['(', ':'] ++ rest) :
    ∃ t next, l.step = (.ok (some t), next) ∧ t.category = .comment ∧
      next.HasOpen [⟨.comment, l.position⟩] ∧ next.position = l.position + 2 ∧
        next.cursor.remaining = rest := by
  have hselects := selects_root_comment rest
  rw [← h.state_eq_root] at hselects
  obtain ⟨s, t, next, hstep, hcategory, hadvances, haction, hrest⟩ :=
    exists_step_of_selects h.grammar hremaining hselects rfl
  exact ⟨t, next, hstep, hcategory, h.of_push hadvances haction, hadvances.position, hrest⟩

/-- A run from the beginning of a comment, divided where the lexer is outside again, if it gets
there. -/
structure Divides (l : Lexer) (ts : List Token) (m : Lexer) (us vs : List Token) (k : Lexer)
    (inner : List Frame) (passed : List (Nat × Int)) : Prop where
  tokens : ts = us ++ vs
  ne_nil : us ≠ []
  inside : Yields l us k
  after : Yields k vs m
  isOpen : k.HasOpen inner
  nesting : (nesting l.position 0 l.cursor.remaining).tail =
    passed ++ Jsoniq.nesting k.position inner.length k.cursor.remaining
  passed : ∀ place ∈ passed, place.1 < k.position ∧ place.2 ≠ 0
  later : l.position < k.position
  outermost : inner = [] ∨ inner.getLast? = some ⟨.comment, l.position⟩
  comments : ∀ t ∈ us, t.category = .comment
  ends : inner = [] ∨ vs = []

theorem HasOpen.exists_divides {ts : List Token} (h : l.HasOpen [])
    (hopen : ['(', ':'] <+: l.cursor.remaining) (hne : ts ≠ []) (hrun : Yields l ts m) :
    ∃ us vs k inner passed, l.Divides ts m us vs k inner passed := by
  obtain ⟨rest, hrest⟩ := hopen
  obtain ⟨t, next, hstep, hcategory, hnext, hposition, hremaining⟩ := h.exists_enter hrest.symm
  cases hrun with
  | nil => exact absurd rfl hne
  | cons hfirst hlater =>
      rw [Lexer.next_eq, hstep] at hfirst
      cases hfirst
      obtain ⟨us, vs, k, inner, passed, rfl, hus, hvs, htracks, hall, hend⟩ :=
        hnext.exists_tracks (List.cons_ne_nil _ _) hlater
      have hle := (covers_of_yields hus).position
      refine ⟨t :: us, vs, k, inner, passed, rfl, List.cons_ne_nil _ _, .cons hstep hus, hvs,
        htracks.isOpen, ?_, htracks.passed, by omega, ?_, List.forall_mem_cons.2 ⟨hcategory, hall⟩,
        hend⟩
      · rw [← htracks.nesting, ← hrest, hposition, hremaining]
        rfl
      · exact htracks.outermost

namespace Divides

variable {ts us vs : List Token} {k : Lexer} {inner : List Frame} {passed : List (Nat × Int)}

/-- Before the division the counter is not back at zero. -/
theorem find?_eq_none (h : l.Divides ts m us vs k inner passed) :
    passed.find? (fun place => decide (place.2 = 0)) = none := by
  refine List.find?_eq_none.2 fun place hplace => ?_
  simpa using (h.passed place hplace).2

/-- Where the lexer is outside again, the counter is back at zero for the first time. -/
theorem nestingEnd?_eq_some (h : l.Divides ts m us vs k [] passed) :
    nestingEnd? l.position l.cursor.remaining = some k.position := by
  obtain ⟨later, hlater⟩ := nesting_eq_cons k.position (([] : List Frame).length : Int)
    k.cursor.remaining
  rw [nestingEnd?, h.nesting, hlater, List.find?_append, h.find?_eq_none]
  rfl

/-- Where the lexer arrives at the end inside of the comment, the counter is never back at zero. -/
theorem nestingEnd?_eq_none (h : l.Divides ts m us vs k inner passed) (hinner : inner ≠ [])
    (hend : Ended k) : nestingEnd? l.position l.cursor.remaining = none := by
  rw [nestingEnd?, h.nesting, ended_iff.1 hend, Jsoniq.nesting, List.find?_append, h.find?_eq_none]
  simpa using hinner

/-- The counter where the run is divided is the number of open comments. -/
theorem lookup_eq (h : l.Divides ts m us vs k inner passed) :
    (Jsoniq.nesting l.position 0 l.cursor.remaining).lookup k.position =
      some (inner.length : Int) := by
  obtain ⟨tail, htail⟩ := nesting_eq_cons l.position 0 l.cursor.remaining
  obtain ⟨later, hlater⟩ := nesting_eq_cons k.position (inner.length : Int) k.cursor.remaining
  have hnesting := h.nesting
  rw [htail, List.tail_cons, hlater] at hnesting
  have hpassed : passed.lookup k.position = none := by
    refine List.lookup_eq_none_iff.2 fun place hplace => ?_
    have hlt := (h.passed place hplace).1
    simp only [bne_iff_ne, ne_eq]
    omega
  have hfirst : (k.position == l.position) = false := by
    have hlt := h.later
    simp only [beq_eq_false_iff_ne, ne_eq]
    omega
  rw [htail, hnesting, List.lookup_cons, hfirst]
  simp [List.lookup_append, hpassed]

/-- A run to a place outside of everything has been outside at the division. -/
theorem eq_nil_of_depth (h : l.Divides ts m us vs k inner passed) (hdepth : m.depth = 1) :
    inner = [] := by
  rcases h.ends with hinner | rfl
  · exact hinner
  · obtain rfl := yields_nil_iff.1 h.after
    rw [h.isOpen.depth_eq] at hdepth
    exact List.length_eq_zero_iff.1 (by omega)

end Divides

/-- The offsets after `l` at which the lexer is outside of everything. -/
def outsideAfter (l : Lexer) : Set Nat :=
  {o | ∃ ts m, ts ≠ [] ∧ Yields l ts m ∧ m.depth = 1 ∧ m.position = o}

/-- Up to the place where the counter is back at zero, the lexer is as deep as the counter says and
everything is comment. -/
theorem HasOpen.depth_eq_count {ts : List Token} (h : l.HasOpen [])
    (hopen : ['(', ':'] <+: l.cursor.remaining) (hrun : Yields l ts m)
    (hbound : ∀ o ∈ nestingEnd? l.position l.cursor.remaining, m.position ≤ o) :
    (∃ count, (Jsoniq.nesting l.position 0 l.cursor.remaining).lookup m.position = some count ∧
        (m.depth : Int) = 1 + count) ∧ ∀ t ∈ ts, t.category = .comment := by
  by_cases hne : ts = []
  · subst hne
    obtain rfl := yields_nil_iff.1 hrun
    obtain ⟨later, hlater⟩ := nesting_eq_cons m.position 0 m.cursor.remaining
    refine ⟨⟨0, ?_, ?_⟩, by simp⟩
    · rw [hlater, List.lookup_cons_self]
    · rw [h.depth_eq]
      rfl
  -- the run ends at the division: it goes no further than the bound, or it is inside to its end
  · obtain ⟨us, vs, k, inner, passed, hdivides⟩ := h.exists_divides hopen hne hrun
    obtain ⟨rfl, rfl⟩ : vs = [] ∧ m = k := by
      rcases hdivides.ends with rfl | rfl
      · exact eq_nil_of_position_le hdivides.after (hbound _ hdivides.nestingEnd?_eq_some)
      · exact ⟨rfl, yields_nil_iff.1 hdivides.after⟩
    refine ⟨⟨inner.length, hdivides.lookup_eq, ?_⟩, ?_⟩
    · rw [hdivides.isOpen.depth_eq]
      simp
    · rw [hdivides.tokens, List.append_nil]
      exact hdivides.comments

/-- The place where the counter is back at zero is the first at which the lexer is outside. -/
theorem HasOpen.isLeast_of_nestingEnd? (h : l.HasOpen [])
    (hopen : ['(', ':'] <+: l.cursor.remaining) {o : Nat}
    (ho : nestingEnd? l.position l.cursor.remaining = some o) : IsLeast l.outsideAfter o := by
  have hleft : l.cursor.remaining ≠ [] := by
    rintro hnil
    rw [hnil] at hopen
    simp at hopen
  obtain ⟨ts, e, hrun, hend⟩ := exists_run_jsoniq h.grammar
  have hne : ts ≠ [] := by
    rintro rfl
    obtain rfl := yields_nil_iff.1 hrun
    exact hleft (ended_iff.1 hend)
  obtain ⟨us, vs, k, inner, passed, hdivides⟩ := h.exists_divides hopen hne hrun
  -- the scan goes to its end, and if it were inside there, the counter would not be back
  have hinner : inner = [] := by
    by_contra hinner
    obtain rfl := hdivides.ends.resolve_left hinner
    obtain rfl := yields_nil_iff.1 hdivides.after
    rw [hdivides.nestingEnd?_eq_none hinner hend] at ho
    cases ho
  subst hinner
  rw [hdivides.nestingEnd?_eq_some] at ho
  cases ho
  refine ⟨⟨us, k, hdivides.ne_nil, hdivides.inside, hdivides.isOpen.depth_eq, rfl⟩, ?_⟩
  rintro _ ⟨ts', n, hne', hrun', hdepth, rfl⟩
  -- another run to the outside is divided at the same offset, and ends there or later
  obtain ⟨us', vs', k', inner', passed', hdivides'⟩ := h.exists_divides hopen hne' hrun'
  obtain rfl := hdivides'.eq_nil_of_depth hdepth
  have hsame := hdivides'.nestingEnd?_eq_some
  rw [hdivides.nestingEnd?_eq_some] at hsame
  have hk := Option.some.inj hsame
  have hposition := (covers_of_yields hdivides'.after).position
  omega

/-- Where the counter is never back at zero, everything up to the end is comment, and the comment is
reported as open. -/
theorem HasOpen.unterminated_of_nestingEnd? {ts : List Token} (h : l.HasOpen [])
    (hopen : ['(', ':'] <+: l.cursor.remaining)
    (hnone : nestingEnd? l.position l.cursor.remaining = none) (hrun : Yields l ts m)
    (hend : Ended m) :
    (∀ t ∈ ts, t.category = .comment) ∧ m.termination = .unterminated .comment l.position := by
  have hne : ts ≠ [] := by
    rintro rfl
    obtain rfl := yields_nil_iff.1 hrun
    rw [ended_iff.1 hend] at hopen
    simp at hopen
  obtain ⟨us, vs, k, inner, passed, hdivides⟩ := h.exists_divides hopen hne hrun
  have hinner : inner ≠ [] := by
    rintro rfl
    rw [hdivides.nestingEnd?_eq_some] at hnone
    cases hnone
  obtain rfl := hdivides.ends.resolve_left hinner
  obtain rfl := yields_nil_iff.1 hdivides.after
  constructor
  · rw [hdivides.tokens, List.append_nil]
    exact hdivides.comments
  · rw [hdivides.isOpen.termination_eq, hdivides.outermost.resolve_left hinner]

/-- A lexer in the root state with nothing open. -/
theorem hasOpen_nil {source : Text} {read : List Token}
    (hreach : Yields (Grammar.jsoniq.lex source) read l) (hstate : l.state = .root)
    (hdepth : l.depth = 1) : l.HasOpen [] := by
  have hbelow : l.below = [] := List.length_eq_zero_iff.1 (Nat.succ.inj hdepth)
  -- through `grammar_lex`, or the table is computed to compare it with itself
  have hgrammar := (covers_of_yields hreach).grammar.trans (grammar_lex .jsoniq source)
  refine ⟨hgrammar, ⟨l.top, ?_, hstate⟩, by simp⟩
  rw [hbelow]
  rfl

end Lexer

/-- Comments are delimited by counting. From every place of a JSONiq scan that is outside of
everything and where an opening mark stands: up to the place where the counter is first back at
zero, the lexer stands where the scanner stands, one deeper than the counter says, and all tokens
are comment; the lexer is outside again first where the counter is first back at zero; and if it
never is, all tokens to come are comment and the scan ends in the comment that begins here. -/
theorem comment_delimited_by_counting {source : Text} {read : List Token} {l : Lexer}
    (hreach : Yields (Grammar.jsoniq.lex source) read l) (hstate : l.state = .root)
    (hdepth : l.depth = 1) {before rest : Text}
    (hrest : source.splitAt? l.position = some (before, rest)) (hopen : ['(', ':'] <+: rest) :
    (∀ ts m, Yields l ts m → (∀ o ∈ nestingEnd? l.position rest, m.position ≤ o) →
        (∃ count, (nesting l.position 0 rest).lookup m.position = some count ∧
          (m.depth : Int) = 1 + count) ∧ ∀ t ∈ ts, t.category = .comment) ∧
      (∀ o, nestingEnd? l.position rest = some o ↔ IsLeast l.outsideAfter o) ∧
      (nestingEnd? l.position rest = none →
        ∃ ts last, drain (Grammar.jsoniq.lex source) = ⟨read ++ ts, none, last⟩ ∧
          (∀ t ∈ ts, t.category = .comment) ∧
            last.termination = .unterminated .comment l.position) := by
  have h := Lexer.hasOpen_nil hreach hstate hdepth
  obtain rfl := Lexer.remaining_of_splitAt? hreach hrest
  refine ⟨fun ts m hrun hbound => h.depth_eq_count hopen hrun hbound, fun o => ⟨?_, ?_⟩, ?_⟩
  · exact h.isLeast_of_nestingEnd? hopen
  · intro hleast
    cases hend : nestingEnd? l.position l.cursor.remaining with
    | some o' => rw [(h.isLeast_of_nestingEnd? hopen hend).unique hleast]
    -- a run that is outside again would have brought the counter back
    | none =>
        obtain ⟨ts, m, hne, hrun, hone, -⟩ := hleast.1
        obtain ⟨us, vs, k, inner, passed, hdivides⟩ := h.exists_divides hopen hne hrun
        obtain rfl := hdivides.eq_nil_of_depth hone
        rw [hdivides.nestingEnd?_eq_some] at hend
        cases hend
  · intro hnone
    obtain ⟨ts, last, hrun, hend⟩ := Lexer.exists_run_jsoniq h.grammar
    obtain ⟨hall, htermination⟩ := h.unterminated_of_nestingEnd? hopen hnone hrun hend
    exact ⟨ts, last, drain_of_yields (hreach.append hrun) hend, hall, htermination⟩

/-- From the beginning of a text with one comment in another, the outer one open at the end. -/
theorem comment_delimited_by_counting_unclosed :
    Yields (Grammar.jsoniq.lex "(:(::)".toList) [] (Grammar.jsoniq.lex "(:(::)".toList) ∧
      (Grammar.jsoniq.lex "(:(::)".toList).state = .root ∧
      (Grammar.jsoniq.lex "(:(::)".toList).depth = 1 ∧
      Text.splitAt? "(:(::)".toList 0 = some ([], "(:(::)".toList) ∧
      ['(', ':'] <+: "(:(::)".toList ∧
      ∃ ts last, drain (Grammar.jsoniq.lex "(:(::)".toList) = ⟨[] ++ ts, none, last⟩ ∧
        (∀ t ∈ ts, t.category = .comment) ∧ last.termination = .unterminated .comment 0 := by
  have hreach : Yields (Grammar.jsoniq.lex "(:(::)".toList) [] (Grammar.jsoniq.lex "(:(::)".toList) :=
    .nil _
  have hrest : Text.splitAt? "(:(::)".toList 0 = some ([], "(:(::)".toList) := rfl
  have hopen : ['(', ':'] <+: "(:(::)".toList := ⟨"(::)".toList, rfl⟩
  have hcounting := comment_delimited_by_counting hreach rfl rfl hrest hopen
  exact ⟨hreach, rfl, rfl, hrest, hopen, hcounting.2.2 (by decide)⟩

end JsoniqLexer

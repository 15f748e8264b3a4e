import JsoniqLexer.Proofs.Lexer.Openings
import JsoniqLexer.Proofs.Lexer.Shift

/-!
# Where nothing is open, a scan starts afresh

Above the root, what is open depends only on what was read since nothing was open. So a lexer with
nothing open goes on as a new lexer on the text that is left: with the same tokens and the same end,
each at its place (`resumes_lex`, `Resumes.yields`, `Resumes.termination`).
-/

set_option autoImplicit false

namespace JsoniqLexer

open TokenStream Token

/-- The construct, opened `d` bytes further on. -/
def Frame.shift (d : Nat) (frame : Frame) : Frame := { frame with openedAt := frame.openedAt + d }

/-- The same end, `d` bytes further on. -/
def Termination.shift (d : Nat) : Termination → Termination
  | .complete => .complete
  | .unterminated state openedAt => .unterminated state (openedAt + d)

theorem Termination.ofOpen_map_shift (d : Nat) (frame : Option Frame) :
    ofOpen (frame.map (Frame.shift d)) = (ofOpen frame).shift d := by
  cases frame with
  | none => rfl
  | some frame => rfl

namespace Lexer

/-- The constructs above the outermost one, outermost first. -/
def inner (l : Lexer) : List Frame := l.frames.tail

theorem frames_ne_nil (l : Lexer) : l.frames ≠ [] := by
  rw [frames, Ne, List.reverse_eq_nil_iff]
  exact List.cons_ne_nil l.top l.below

theorem inner_eq_nil_iff {l : Lexer} : l.inner = [] ↔ l.below = [] := by
  rw [inner, ← List.length_eq_zero_iff, List.length_tail, length_frames, depth, Nat.add_sub_cancel,
    List.length_eq_zero_iff]

theorem termination_eq_inner (l : Lexer) : l.termination = .ofOpen l.inner.head? := by
  rw [termination_eq_ofOpen, inner, List.head?_tail]

theorem termination_eq_complete_iff {l : Lexer} : l.termination = .complete ↔ l.inner = [] := by
  rw [termination_eq_inner, ← List.head?_eq_none_iff]
  cases l.inner.head? with
  | none => simp [Termination.ofOpen]
  | some frame => simp [Termination.ofOpen]

/-- With more open than the outermost construct, the innermost one is above it. -/
theorem getLast?_inner {l : Lexer} (h : l.inner ≠ []) : l.inner.getLast? = some l.top := by
  have hlast := l.getLast?_frames
  obtain ⟨frame, hframes⟩ : ∃ frame, l.frames = frame :: l.inner :=
    ⟨l.frames.head l.frames_ne_nil, (List.cons_head_tail l.frames_ne_nil).symm⟩
  rw [hframes, List.getLast?_cons_of_ne_nil h] at hlast
  exact hlast

/-- No action touches the outermost construct. -/
theorem head?_frames_transition (l : Lexer) (action : Action) :
    (l.transition action).frames.head? = l.frames.head? := by
  cases action with
  | plain category => rfl
  | classified => rfl
  | push category target =>
      rw [frames_transition_push, List.head?_append_of_ne_nil _ l.frames_ne_nil]
  | pop category =>
      by_cases hbelow : l.below = []
      · rw [transition, hbelow]
      · rw [frames_transition_pop category hbelow,
          List.head?_append_of_ne_nil _ (frames_ne_nil _)]

/-! ## What an action does above the outermost construct -/

theorem inner_transition_push (l : Lexer) (category : Category) (target : State) :
    (l.transition (.push category target)).inner = l.inner ++ [⟨target, l.position⟩] := by
  rw [inner, inner, frames_transition_push, List.tail_append_of_ne_nil l.frames_ne_nil]

/-- A pop takes away the innermost one, if there is one. -/
theorem inner_transition_pop (l : Lexer) (category : Category) :
    (l.transition (.pop category)).inner = l.inner.dropLast := by
  by_cases hbelow : l.below = []
  · have hsame : l.transition (.pop category) = l := by rw [transition, hbelow]
    rw [hsame, inner_eq_nil_iff.2 hbelow]
    rfl
  · have hframes := frames_transition_pop category hbelow
    rw [inner, inner, hframes, List.tail_append_of_ne_nil (frames_ne_nil _), List.dropLast_concat]

/-- Only a push opens something where nothing is open. -/
theorem exists_push_of_inner {l : Lexer} {action : Action} (hinner : l.inner = [])
    (h : (l.transition action).inner ≠ []) :
    ∃ category target, action = .push category target := by
  cases action with
  | push category target => exact ⟨category, target, rfl⟩
  | plain category => exact absurd hinner h
  | classified => exact absurd hinner h
  | pop category =>
      rw [inner_transition_pop, hinner] at h
      exact absurd rfl h

/-- Only a pop comes to a place where nothing is open above the root from inside of something. -/
theorem inner_eq_nil_of_transition {l : Lexer} {action : Action} (haction : action.isPop = false)
    (h : (l.transition action).inner = []) : l.inner = [] := by
  cases action with
  | plain category => exact h
  | classified => exact h
  | push category target =>
      rw [inner_transition_push] at h
      exact (List.append_eq_nil_iff.1 h).1
  | pop category => cases haction

theorem Advances.inner {l next : Lexer} {s : Selection} {lexeme : Text}
    (h : l.Advances s lexeme next) : next.inner = (l.transition s.rule.action).inner := by
  rw [Lexer.inner, Lexer.inner, h.frames]

/-- The outermost construct stays the root that the scan began with. -/
theorem head?_frames_of_yields {g : Grammar} {source : Text} {ts : List Token} {l : Lexer}
    (h : Yields (g.lex source) ts l) : l.frames.head? = some ⟨.root, 0⟩ := by
  apply @Yields.preserves Lexer _ (fun l => l.frames.head? = some ⟨.root, 0⟩) _ _ _ _ h rfl
  intro l l' t hl hstep
  obtain ⟨s, lexeme, hadvances, -⟩ := step_eq_token_iff.1 hstep
  rw [hadvances.frames, head?_frames_transition, hl]

/-- With nothing open above it, the lexer is in the root state. -/
theorem state_eq_root_of_yields {g : Grammar} {source : Text} {ts : List Token} {l : Lexer}
    (h : Yields (g.lex source) ts l) (hinner : l.inner = []) : l.state = .root := by
  have hhead := head?_frames_of_yields h
  rw [frames, inner_eq_nil_iff.1 hinner, List.reverse_singleton, List.head?_cons] at hhead
  rw [state, Option.some.inj hhead]

/-! ## Going on as a new lexer -/

/-- The second lexer has the same to read as the first, `d` bytes further on, and has opened the same
above the outermost construct. -/
structure Resumes (d : Nat) (l m : Lexer) : Prop where
  mirrors : l.Mirrors d m
  inner : m.inner = l.inner.map (Frame.shift d)

namespace Resumes

variable {d : Nat} {l m next : Lexer}

theorem transition (h : l.Resumes d m) (action : Action) :
    (m.transition action).inner = ((l.transition action).inner).map (Frame.shift d) := by
  cases action with
  | plain category => exact h.inner
  | classified => exact h.inner
  | push category target =>
      rw [inner_transition_push, inner_transition_push, h.inner, h.mirrors.position,
        List.map_append]
      rfl
  | pop category => rw [inner_transition_pop, inner_transition_pop, h.inner, List.map_dropLast]

theorem step {t : Token} (h : l.Resumes d m) (hstep : l.step = (.ok (some t), next)) :
    ∃ next', m.step = (.ok (some (t.shift d)), next') ∧ next.Resumes d next' := by
  obtain ⟨s, lexeme, hadvances, -⟩ := step_eq_token_iff.1 hstep
  obtain ⟨next', hstep', hmirrors⟩ := h.mirrors.step hstep
  obtain ⟨s', lexeme', hadvances', -⟩ := step_eq_token_iff.1 hstep'
  refine ⟨next', hstep', hmirrors, ?_⟩
  -- both select the same rule
  have hselected := hadvances'.selected
  rw [h.mirrors.grammar, h.mirrors.state_eq, h.mirrors.remaining, hadvances.selected] at hselected
  cases hselected
  rw [hadvances'.inner, hadvances.inner]
  exact h.transition s.rule.action

/-- Every run of the first is a run of the second, each token at its place. -/
theorem yields {l' : Lexer} {ts : List Token} (h : l.Resumes d m) (hrun : Yields l ts l') :
    ∃ m', Yields m (ts.map (Token.shift d)) m' ∧ l'.Resumes d m' :=
  hrun.exists_of_simulates step h

theorem termination (h : l.Resumes d m) : m.termination = l.termination.shift d := by
  rw [termination_eq_inner, termination_eq_inner, h.inner, List.head?_map,
    Termination.ofOpen_map_shift]

end Resumes

/-- With nothing open, a lexer goes on as a new one on the text that is left. -/
theorem resumes_lex {l : Lexer} (hbelow : l.below = []) (hstate : l.state = .root) :
    (l.grammar.lex l.cursor.remaining).Resumes l.position l := by
  constructor
  · refine ⟨rfl, rfl, (Nat.zero_add _).symm, ?_⟩
    rw [states, hbelow]
    exact congrArg (fun state => [state]) hstate
  · rw [inner_eq_nil_iff.2 hbelow]
    rfl

end Lexer

end JsoniqLexer

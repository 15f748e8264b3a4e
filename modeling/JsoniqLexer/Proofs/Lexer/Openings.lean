import JsoniqLexer.Proofs.Lexer.Coverage

/-!
# The stack is the list of unmatched pushes

The steps of a run are read as brackets: a pop undoes the last push before it that is not undone
yet. `unmatchedPushes` finds the pushes that are not undone without a stack, from the right: a push
stands if the moves after it leave no pop over (`unmatchedPops`). With any sound grammar, the frames
above the root are these pushes, and the root is never popped (`Records.stack`).
-/

set_option autoImplicit false

namespace JsoniqLexer

open TokenStream Token

/-- How a scan ends whose outermost open construct is the given one, or that has none. -/
def Termination.ofOpen : Option Frame → Termination
  | none => .complete
  | some frame => .unterminated frame.state frame.openedAt

theorem Lexer.termination_eq_ofOpen (l : Lexer) : l.termination = .ofOpen l.frames[1]? := by
  rw [termination]
  cases l.frames[1]? with
  | none => rfl
  | some frame => rfl

theorem Action.exists_push_of_target {action : Action} {target : State}
    (h : action.target? = some target) : ∃ category, action = .push category target := by
  cases action with
  | push category own => exact ⟨category, by rw [Option.some.inj h]⟩
  | plain category => cases h
  | classified => cases h
  | pop category => cases h

/-- A step of a run: what its rule does, and the token it emits. -/
structure Move where
  action : Action
  token : Token
deriving DecidableEq, Repr

namespace Move

/-- The frame of a push: the state it enters, and where its token starts. -/
def frame? (move : Move) : Option Frame :=
  move.action.target?.map fun target => ⟨target, move.token.start⟩

/-- The number of pushes. -/
def pushes (moves : List Move) : Nat := moves.countP fun move => move.action.target?.isSome

/-- The number of pops. -/
def pops (moves : List Move) : Nat := moves.countP fun move => move.action.isPop

/-- The number of pops that undo no push among the moves. A push is undone by one of the pops that
the moves after it leave over. -/
def unmatchedPops : List Move → Nat
  | [] => 0
  | move :: later =>
      match move.action with
      | .push _ _ => unmatchedPops later - 1
      | .pop _ => unmatchedPops later + 1
      | .plain _ | .classified => unmatchedPops later

/-- The frames of the pushes that no later pop undoes, in order. -/
def unmatchedPushes : List Move → List Frame
  | [] => []
  | move :: later =>
      if unmatchedPops later = 0 then move.frame?.toList ++ unmatchedPushes later
      else unmatchedPushes later

example (c : Category) (t u v : Token) :
    unmatchedPushes [⟨.push c .comment, t⟩, ⟨.push c .comment, u⟩, ⟨.pop c, v⟩] =
      [⟨.comment, t.start⟩] := rfl

@[simp] theorem unmatchedPops_cons_push (category : Category) (target : State) (t : Token)
    (later : List Move) :
    unmatchedPops (⟨.push category target, t⟩ :: later) = unmatchedPops later - 1 := rfl

@[simp] theorem unmatchedPops_cons_pop (category : Category) (t : Token) (later : List Move) :
    unmatchedPops (⟨.pop category, t⟩ :: later) = unmatchedPops later + 1 := rfl

/-- A move with a frame is a push. -/
theorem exists_push_of_frame {move : Move} {frame : Frame} (h : move.frame? = some frame) :
    ∃ category, move.action = .push category frame.state ∧ move.token.start = frame.openedAt := by
  obtain ⟨target, htarget, rfl⟩ := Option.map_eq_some_iff.1 h
  obtain ⟨category, haction⟩ := Action.exists_push_of_target htarget
  exact ⟨category, haction, rfl⟩

/-- What stands after moves that leave no pop over changes nothing about the pops before. -/
theorem unmatchedPops_append {moves later : List Move} (h : unmatchedPops later = 0) :
    unmatchedPops (moves ++ later) = unmatchedPops moves := by
  induction moves with
  | nil => exact h
  | cons move moves ih => rw [List.cons_append, unmatchedPops, unmatchedPops, ih]

theorem unmatchedPushes_append {moves later : List Move} (h : unmatchedPops later = 0) :
    unmatchedPushes (moves ++ later) = unmatchedPushes moves ++ unmatchedPushes later := by
  induction moves with
  | nil => rfl
  | cons move moves ih =>
      rw [List.cons_append, unmatchedPushes, unmatchedPushes, unmatchedPops_append h, ih]
      split
      · rw [List.append_assoc]
      · rfl

/-- A push that comes last is not undone. -/
theorem unmatchedPushes_concat_push (moves : List Move) (category : Category) (target : State)
    (t : Token) :
    unmatchedPushes (moves ++ [⟨.push category target, t⟩]) =
      unmatchedPushes moves ++ [⟨target, t.start⟩] := by
  apply unmatchedPushes_append
  rfl

/-- A pop that comes last undoes the last push that was not undone; if there is none, it is left
over. -/
theorem unmatched_concat_pop (moves : List Move) (category : Category) (t : Token) :
    unmatchedPushes (moves ++ [⟨.pop category, t⟩]) = (unmatchedPushes moves).dropLast ∧
      unmatchedPops (moves ++ [⟨.pop category, t⟩]) =
        unmatchedPops moves + if unmatchedPushes moves = [] then 1 else 0 := by
  induction moves with
  | nil => exact ⟨rfl, rfl⟩
  | cons move moves ih =>
      obtain ⟨hpushes, hpops⟩ := ih
      obtain ⟨action, u⟩ := move
      rw [List.cons_append]
      cases action with
      | plain own => simp [unmatchedPushes, unmatchedPops, frame?, Action.target?, hpushes, hpops]
      | classified => simp [unmatchedPushes, unmatchedPops, frame?, Action.target?, hpushes, hpops]
      | pop own =>
          simp [unmatchedPushes, unmatchedPops, frame?, Action.target?, hpushes, hpops,
            Nat.add_right_comm]
      | push own target =>
          rw [unmatchedPushes, unmatchedPushes, unmatchedPops_cons_push, unmatchedPops_cons_push,
            hpushes, hpops]
          -- whether the push was undone before, and if not, whether another push stands after it
          by_cases hzero : unmatchedPops moves = 0
          · by_cases hnil : unmatchedPushes moves = []
            · simp [hzero, hnil, frame?, Action.target?]
            · simp [hzero, hnil, frame?, Action.target?, List.dropLast_cons_of_ne_nil]
          · have hpos : unmatchedPops moves + (if unmatchedPushes moves = [] then 1 else 0) ≠ 0 := by
              omega
            rw [if_neg hzero, if_neg hpos]
            exact ⟨rfl, by omega⟩

/-- Every pop undoes one push or is left over. -/
theorem length_unmatchedPushes (moves : List Move) :
    (unmatchedPushes moves).length + pops moves = pushes moves + unmatchedPops moves := by
  induction moves with
  | nil => rfl
  | cons move moves ih =>
      obtain ⟨action, t⟩ := move
      cases action with
      | plain own | classified =>
          rw [pushes, pops, List.countP_cons_of_neg Bool.false_ne_true,
            List.countP_cons_of_neg Bool.false_ne_true, unmatchedPushes]
          simp only [frame?, Action.target?, Option.map_none, Option.toList_none, List.nil_append,
            ite_self]
          exact ih
      | pop own =>
          have hpushes : pushes (⟨.pop own, t⟩ :: moves) = pushes moves :=
            List.countP_cons_of_neg Bool.false_ne_true
          have hpops : pops (⟨.pop own, t⟩ :: moves) = pops moves + 1 := List.countP_cons_of_pos rfl
          have hsame : unmatchedPushes (⟨.pop own, t⟩ :: moves) = unmatchedPushes moves := ite_self _
          rw [hpushes, hpops, hsame, unmatchedPops_cons_pop]
          omega
      | push own target =>
          have hpushes : pushes (⟨.push own target, t⟩ :: moves) = pushes moves + 1 :=
            List.countP_cons_of_pos rfl
          have hpops : pops (⟨.push own target, t⟩ :: moves) = pops moves :=
            List.countP_cons_of_neg Bool.false_ne_true
          rw [hpushes, hpops, unmatchedPops_cons_push, unmatchedPushes]
          split
          · rw [List.length_append]
            simp only [frame?, Action.target?, Option.map_some, Option.toList_some,
              List.length_singleton]
            omega
          · omega

/-- The moves are divided at the first push that is not undone: before it every push is undone, and
after it no pop is left over. -/
theorem exists_of_unmatchedPushes_eq_cons {moves : List Move} {frame : Frame} {frames : List Frame}
    (h : unmatchedPushes moves = frame :: frames) :
    ∃ earlier move later, moves = earlier ++ move :: later ∧ move.frame? = some frame ∧
      unmatchedPushes earlier = [] ∧ unmatchedPops later = 0 := by
  induction moves with
  | nil => cases h
  | cons move moves ih =>
      rw [unmatchedPushes] at h
      by_cases hstands : unmatchedPops moves = 0 ∧ ∃ own, move.frame? = some own
      · obtain ⟨hzero, own, hown⟩ := hstands
        rw [if_pos hzero, hown] at h
        obtain ⟨rfl, -⟩ := List.cons.inj h
        exact ⟨[], move, moves, rfl, hown, rfl, hzero⟩
      · have hlater : unmatchedPushes moves = frame :: frames := by
          split at h
          · next hzero =>
            cases hown : move.frame? with
            | none =>
                rw [hown] at h
                exact h
            | some own => exact absurd ⟨hzero, own, hown⟩ hstands
          · exact h
        obtain ⟨earlier, first, later, rfl, hfirst, hearlier, hzero⟩ := ih hlater
        refine ⟨move :: earlier, first, later, rfl, hfirst, ?_, hzero⟩
        -- a pop that undoes `move` stands before `first`: the push of `first` would meet it before
        have hpops : unmatchedPops (first :: later) = 0 := by
          obtain ⟨category, haction, -⟩ := exists_push_of_frame hfirst
          rw [unmatchedPops, haction, hzero]
        rw [unmatchedPops_append hpops] at hstands
        rw [unmatchedPushes]
        split
        · next hnone =>
          cases hown : move.frame? with
          | none => exact hearlier
          | some own => exact absurd ⟨hnone, own, hown⟩ hstands
        · exact hearlier

end Move

open Move

namespace Lexer

/-- From the first lexer the moves are made in turn, and the second lexer is left. -/
inductive Records (l : Lexer) : List Move → Lexer → Prop
  | nil : Records l [] l
  | concat {moves : List Move} {m next : Lexer} {t : Token} {s : Selection} :
      Records l moves m → m.step = (.ok (some t), next) →
        m.grammar.select m.state m.cursor.remaining = some s →
          Records l (moves ++ [⟨s.rule.action, t⟩]) next

theorem Records.cons {l next m : Lexer} {t : Token} {s : Selection} {moves : List Move}
    (h : Records next moves m) (hstep : l.step = (.ok (some t), next))
    (hselect : l.grammar.select l.state l.cursor.remaining = some s) :
    Records l (⟨s.rule.action, t⟩ :: moves) m := by
  induction h with
  | nil => exact .concat .nil hstep hselect
  | concat _ hstep' hselect' ih => exact .concat ih hstep' hselect'

/-- The tokens of the moves are the tokens of a run. -/
theorem Records.yields {l m : Lexer} {moves : List Move} (h : Records l moves m) :
    Yields l (moves.map Move.token) m := by
  induction h with
  | nil => exact .nil l
  | concat _ hstep _ ih =>
      rw [List.map_append]
      exact ih.append (.single hstep)

/-- Every run is made of moves. -/
theorem exists_records {l m : Lexer} {ts : List Token} (h : Yields l ts m) :
    ∃ moves, Records l moves m ∧ moves.map Move.token = ts := by
  induction h with
  | nil l => exact ⟨[], .nil, rfl⟩
  | cons hnext _ ih =>
      obtain ⟨moves, hrecords, rfl⟩ := ih
      obtain ⟨s, lexeme, hadvances, -⟩ := step_eq_token_iff.1 hnext
      exact ⟨_, hrecords.cons hnext hadvances.selected, rfl⟩

/-- The last of the moves is made by a lexer that the others lead to. -/
theorem Records.exists_of_concat {l m : Lexer} {moves : List Move} {move : Move}
    (h : Records l (moves ++ [move]) m) :
    ∃ k, Records l moves k ∧ k.step = (.ok (some move.token), m) := by
  obtain ⟨all, hall⟩ : ∃ all, all = moves ++ [move] := ⟨_, rfl⟩
  rw [← hall] at h
  cases h with
  | nil => exact absurd hall.symm (List.append_ne_nil_of_right_ne_nil moves (by simp))
  | concat hearlier hstep hselect =>
      obtain ⟨rfl, hlast⟩ := List.append_inj' hall rfl
      rw [← List.singleton_inj.1 hlast]
      exact ⟨_, hearlier, hstep⟩

/-- A run of moves in two parts passes through a lexer between them. -/
theorem Records.exists_of_append {l m : Lexer} {moves later : List Move}
    (h : Records l (moves ++ later) m) : ∃ k, Records l moves k ∧ Records k later m := by
  obtain ⟨all, hall⟩ : ∃ all, all = moves ++ later := ⟨_, rfl⟩
  rw [← hall] at h
  induction h generalizing later with
  | nil =>
      obtain ⟨rfl, rfl⟩ := List.append_eq_nil_iff.1 hall.symm
      exact ⟨l, .nil, .nil⟩
  | @concat earlier k next t s hearlier hstep hselect ih =>
      rcases List.eq_nil_or_concat' later with rfl | ⟨front, last, rfl⟩
      · rw [List.append_nil] at hall
        rw [← hall]
        exact ⟨next, .concat hearlier hstep hselect, .nil⟩
      · rw [← List.append_assoc] at hall
        obtain ⟨hfront, hlast⟩ := List.append_inj' hall rfl
        obtain ⟨n, hmoves, hn⟩ := ih hfront
        rw [← List.singleton_inj.1 hlast]
        exact ⟨n, hmoves, .concat hn hstep hselect⟩

/-! ## What an action does to the stack -/

theorem frames_transition_push (l : Lexer) (category : Category) (target : State) :
    (l.transition (.push category target)).frames = l.frames ++ [⟨target, l.position⟩] :=
  List.reverse_cons

theorem frames_transition_pop {l : Lexer} (category : Category) (h : l.below ≠ []) :
    l.frames = (l.transition (.pop category)).frames ++ [l.top] := by
  obtain ⟨frame, below, hbelow⟩ := List.exists_cons_of_ne_nil h
  rw [frames, transition, hbelow]
  exact List.reverse_cons

theorem Advances.frames {l next : Lexer} {s : Selection} {lexeme : Text}
    (h : l.Advances s lexeme next) : next.frames = (l.transition s.rule.action).frames := by
  rw [Lexer.frames, Lexer.frames, h.top, h.below]

theorem Advances.position_lt {l next : Lexer} {s : Selection} {lexeme : Text}
    (h : l.Advances s lexeme next) : l.position < next.position := by
  have hne : lexeme.byteLength ≠ 0 := fun hzero =>
    h.lexeme_ne_nil ((Text.byteLength_eq_zero_iff lexeme).1 hzero)
  rw [h.position]
  omega

theorem length_frames (l : Lexer) : l.frames.length = l.depth := by
  rw [frames, List.length_reverse, List.length_cons, depth]

theorem getLast?_frames (l : Lexer) : l.frames.getLast? = some l.top := by
  rw [frames, List.getLast?_reverse, List.head?_cons]

/-- A lexer whose stack is what the moves up to it have left. -/
structure IsStackOf (l : Lexer) (moves : List Move) : Prop where
  frames : l.frames = ⟨.root, 0⟩ :: unmatchedPushes moves
  balanced : unmatchedPops moves = 0
  increasing : ((unmatchedPushes moves).map Frame.openedAt).Pairwise (· < ·)
  opened_lt : ∀ frame ∈ unmatchedPushes moves, frame.openedAt < l.position
  supported : l.IsSupported

namespace IsStackOf

variable {l next : Lexer} {s : Selection} {lexeme : Text} {moves : List Move}

/-- With nothing above the root, the root is on top. -/
theorem state_eq_root (h : l.IsStackOf moves) (hbelow : l.below = []) : l.state = .root := by
  have hframes := h.frames
  rw [Lexer.frames, hbelow] at hframes
  obtain ⟨htop, -⟩ := List.cons.inj hframes
  rw [state, htop]

/-- Where a rule pops, there is a frame under the top. -/
theorem below_ne_nil (hg : l.grammar.IsSound) (h : l.IsStackOf moves)
    (hselect : l.grammar.select l.state l.cursor.remaining = some s)
    (hpop : s.rule.action.isPop = true) : l.below ≠ [] := by
  intro hbelow
  have hmem := Grammar.mem_rules_of_select hselect
  rw [h.state_eq_root hbelow] at hmem
  rw [hg.keepsRoot s.rule hmem] at hpop
  cases hpop

/-- The frame on top is that of the last push that is not undone. -/
theorem exists_eq_concat_top (h : l.IsStackOf moves) (hbelow : l.below ≠ []) :
    ∃ frames frame, unmatchedPushes moves = frames ++ [frame] ∧ frame = l.top := by
  rcases List.eq_nil_or_concat' (unmatchedPushes moves) with hnil | ⟨frames, frame, hconcat⟩
  · have hlength := congrArg List.length h.frames
    rw [hnil, length_frames, depth] at hlength
    exact absurd (List.length_eq_zero_iff.1 (Nat.succ.inj hlength)) hbelow
  · refine ⟨frames, frame, hconcat, ?_⟩
    have hlast := l.getLast?_frames
    rw [h.frames, hconcat, ← List.cons_append, List.getLast?_concat] at hlast
    exact Option.some.inj hlast

/-- A step that neither pushes nor pops. -/
theorem concat_neutral {move : Move} (h : l.IsStackOf moves) (hadvances : l.Advances s lexeme next)
    (hframes : next.frames = l.frames) (hpushes : unmatchedPushes [move] = [])
    (hpops : unmatchedPops [move] = 0) : next.IsStackOf (moves ++ [move]) := by
  have hsame : unmatchedPushes (moves ++ [move]) = unmatchedPushes moves := by
    rw [unmatchedPushes_append hpops, hpushes, List.append_nil]
  constructor
  · rw [hsame, hframes, h.frames]
  · rw [unmatchedPops_append hpops, h.balanced]
  · rw [hsame]
    exact h.increasing
  · rw [hsame]
    intro frame hframe
    exact Nat.lt_trans (h.opened_lt frame hframe) hadvances.position_lt
  · exact hadvances.isSupported h.supported

/-- A push: the new frame is opened where the step starts, after all frames before it. -/
theorem concat_push {category : Category} {target : State} {t : Token} (h : l.IsStackOf moves)
    (hadvances : l.Advances s lexeme next) (haction : s.rule.action = .push category target)
    (hstart : t.start = l.position) : next.IsStackOf (moves ++ [⟨.push category target, t⟩]) := by
  have hlt := hadvances.position_lt
  constructor
  · rw [hadvances.frames, haction, frames_transition_push, h.frames, unmatchedPushes_concat_push,
      hstart]
    rfl
  · rw [unmatchedPops_append rfl, h.balanced]
  · rw [unmatchedPushes_concat_push, hstart, List.map_append, List.pairwise_append]
    refine ⟨h.increasing, List.pairwise_singleton _ _, ?_⟩
    intro a ha c hc
    obtain ⟨frame, hframe, rfl⟩ := List.mem_map.1 ha
    obtain rfl := List.mem_singleton.1 hc
    exact h.opened_lt frame hframe
  · rw [unmatchedPushes_concat_push, hstart]
    intro frame hframe
    rcases List.mem_append.1 hframe with hframe | hframe
    · exact Nat.lt_trans (h.opened_lt frame hframe) hlt
    · obtain rfl := List.mem_singleton.1 hframe
      exact hlt
  · exact hadvances.isSupported h.supported

/-- A pop, where there is a frame under the top. -/
theorem concat_pop {category : Category} {t : Token} (h : l.IsStackOf moves)
    (hadvances : l.Advances s lexeme next) (haction : s.rule.action = .pop category)
    (hbelow : l.below ≠ []) : next.IsStackOf (moves ++ [⟨.pop category, t⟩]) := by
  obtain ⟨frames, frame, hconcat, rfl⟩ := h.exists_eq_concat_top hbelow
  obtain ⟨hpushes, hpops⟩ := unmatched_concat_pop moves category t
  rw [hconcat, List.dropLast_concat] at hpushes
  rw [if_neg (by rw [hconcat]; simp), Nat.add_zero, h.balanced] at hpops
  have hincreasing := h.increasing
  rw [hconcat, List.map_append, List.pairwise_append] at hincreasing
  constructor
  -- the same frame is taken off both lists
  · have hstack := frames_transition_pop category hbelow
    rw [h.frames, hconcat, ← List.cons_append] at hstack
    rw [hpushes, hadvances.frames, haction]
    exact (List.append_inj' hstack rfl).1.symm
  · exact hpops
  · rw [hpushes]
    exact hincreasing.1
  · rw [hpushes]
    intro own hown
    have hopened := h.opened_lt own (by rw [hconcat]; exact List.mem_append_left _ hown)
    exact Nat.lt_trans hopened hadvances.position_lt
  · exact hadvances.isSupported h.supported

/-- Every step keeps the stack in step with the moves. -/
theorem concat (hg : l.grammar.IsSound) (h : l.IsStackOf moves)
    (hadvances : l.Advances s lexeme next) :
    next.IsStackOf (moves ++ [⟨s.rule.action, l.tokenFor s lexeme⟩]) := by
  have hframes := hadvances.frames
  cases haction : s.rule.action with
  | plain category | classified =>
      rw [haction] at hframes
      exact h.concat_neutral hadvances hframes rfl rfl
  | push category target => exact h.concat_push hadvances haction rfl
  | pop category =>
      have hpop : s.rule.action.isPop = true := by rw [haction]; rfl
      exact h.concat_pop hadvances haction (h.below_ne_nil hg hadvances.selected hpop)

end IsStackOf

/-- After any moves the stack is what they have left. -/
theorem Records.stack {g : Grammar} (hg : g.IsSound) {source : Text} {moves : List Move} {l : Lexer}
    (h : Records (g.lex source) moves l) : l.IsStackOf moves ∧ l.grammar = g := by
  induction h with
  | nil => exact ⟨⟨rfl, rfl, .nil, by simp [unmatchedPushes], isSupported_start g source⟩, rfl⟩
  | concat _ hstep hselect ih =>
      obtain ⟨hstack, hgrammar⟩ := ih
      obtain ⟨s, lexeme, hadvances, rfl⟩ := step_eq_token_iff.1 hstep
      rw [hadvances.selected] at hselect
      cases hselect
      exact ⟨hstack.concat (hgrammar.symm ▸ hg) hadvances, hadvances.grammar.trans hgrammar⟩

/-- The stack of a lexer accounts for the moves that led to it. -/
structure Accounts (l : Lexer) (moves : List Move) : Prop where
  bottom : l.frames.head? = some ⟨.root, 0⟩
  above : l.frames.tail = unmatchedPushes moves
  depth : l.depth + pops moves = 1 + pushes moves
  increasing : (l.frames.tail.map Frame.openedAt).Pairwise (· < ·)
  opened_lt : ∀ frame ∈ l.frames.tail, frame.openedAt < l.position
  rules : l.grammar.rules l.state ≠ []
  /-- The earliest push that is not undone is reported, and nothing if there is none. -/
  termination : l.termination = .ofOpen (unmatchedPushes moves).head?
  /-- A pop never finds the root alone, and takes away the last push that is not undone. -/
  pop : ∀ {s : Selection} {t : Token} {next : Lexer}, l.step = (.ok (some t), next) →
    l.grammar.select l.state l.cursor.remaining = some s → s.rule.action.isPop = true →
      l.below ≠ [] ∧ ∃ frame, (unmatchedPushes moves).getLast? = some frame ∧
        l.frames = next.frames ++ [frame]

theorem IsStackOf.termination_eq {l : Lexer} {moves : List Move} (h : l.IsStackOf moves) :
    l.termination = .ofOpen (unmatchedPushes moves).head? := by
  rw [termination_eq_ofOpen, h.frames, List.getElem?_cons_succ, List.head?_eq_getElem?]

theorem IsStackOf.accounts {l : Lexer} {moves : List Move} (hg : l.grammar.IsSound)
    (h : l.IsStackOf moves) : l.Accounts moves := by
  have htail : l.frames.tail = unmatchedPushes moves := by rw [h.frames, List.tail_cons]
  constructor
  · rw [h.frames, List.head?_cons]
  · exact htail
  · have hlength := length_unmatchedPushes moves
    rw [h.balanced, Nat.add_zero] at hlength
    rw [← length_frames, h.frames, List.length_cons]
    omega
  · rw [htail]
    exact h.increasing
  · rw [htail]
    exact h.opened_lt
  · exact hg.hasRules l.state (h.supported l.top List.mem_cons_self)
  · exact h.termination_eq
  · intro s t next hstep hselect hpop
    have hbelow := h.below_ne_nil hg hselect hpop
    obtain ⟨frames, frame, hconcat, rfl⟩ := h.exists_eq_concat_top hbelow
    refine ⟨hbelow, l.top, by rw [hconcat, List.getLast?_concat], ?_⟩
    obtain ⟨s', lexeme, hadvances, -⟩ := step_eq_token_iff.1 hstep
    rw [hadvances.selected] at hselect
    cases hselect
    rw [hadvances.frames]
    cases haction : s.rule.action with
    | pop category => exact frames_transition_pop category hbelow
    | plain category => rw [haction] at hpop; cases hpop
    | classified => rw [haction] at hpop; cases hpop
    | push category target => rw [haction] at hpop; cases hpop

end Lexer

/-- A grammar that is built is sound, whatever makes patterns of texts. With a sound grammar, whatever
its lexer reads, after any number of steps the stack is the root and the pushes that are not undone. -/
theorem stack_accounts_for_moves (g : Grammar) :
    (∀ (compiler : Pattern.Compiler) (b : GrammarBuilder),
      b.build compiler = .ok g → g.IsSound) ∧
      (g.IsSound → ∀ {source : Text} {tokens : List Token} {l : Lexer},
        Yields (g.lex source) tokens l →
          ∃ moves, Lexer.Records (g.lex source) moves l ∧ moves.map Move.token = tokens ∧
            l.Accounts moves) := by
  constructor
  · intro compiler b hbuild
    exact Grammar.isSound_of_build hbuild
  · intro hg source tokens l hrun
    obtain ⟨moves, hrecords, htokens⟩ := Lexer.exists_records hrun
    obtain ⟨hstack, hgrammar⟩ := hrecords.stack hg
    exact ⟨moves, hrecords, htokens, hstack.accounts (hgrammar.symm ▸ hg)⟩

/-- The JSONiq grammar on a comment in a comment, the outer one left open. -/
theorem stack_accounts_for_moves_nested :
    Jsoniq.builder.build Pattern.compile = .ok Grammar.jsoniq ∧ Grammar.jsoniq.IsSound ∧
      ∃ tokens l, Yields (Grammar.jsoniq.lex "(:(::)".toList) tokens l ∧
        ∃ moves, Lexer.Records (Grammar.jsoniq.lex "(:(::)".toList) moves l ∧
          moves.map Move.token = tokens ∧ l.Accounts moves ∧
            unmatchedPushes moves = [⟨.comment, 0⟩] := by
  obtain ⟨tokens, l, hrun, hend⟩ := Lexer.exists_run Grammar.catchesAll_jsoniq "(:(::)".toList
  obtain ⟨hsoundOf, haccountsFor⟩ := stack_accounts_for_moves Grammar.jsoniq
  have hsound := hsoundOf Pattern.compile Jsoniq.builder Grammar.build_builder
  obtain ⟨moves, hrecords, htokens, haccounts⟩ := haccountsFor hsound hrun
  have hframes : (drain (Grammar.jsoniq.lex "(:(::)".toList)).rest.frames =
      [⟨.root, 0⟩, ⟨.comment, 0⟩] := by
    rw [Jsoniq.jsoniq_eq]
    decide +kernel
  rw [drain_of_yields hrun hend] at hframes
  refine ⟨Grammar.build_builder, hsound, tokens, l, hrun, moves, hrecords, htokens, haccounts, ?_⟩
  rw [← haccounts.above, hframes]
  rfl

end JsoniqLexer

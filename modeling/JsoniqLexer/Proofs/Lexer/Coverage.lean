import JsoniqLexer.Proofs.Grammar.Build
import JsoniqLexer.Proofs.Jsoniq.MaximalMunch
import JsoniqLexer.Proofs.Lexer.Merge

/-!
# Scans that lose nothing

With a grammar that catches all, a lexer never gets stuck: each construct on its stack has a state
that the grammar requires rules for (`IsSupported`), and in each of these states a rule is found
wherever text is left. So a scan goes on to the end of the source, and its tokens tile it; merging
neighbours keeps that.
-/

set_option autoImplicit false

namespace JsoniqLexer

open TokenStream Token

theorem Grammar.mem_rules_of_select {g : Grammar} {state : State} {text : Text} {s : Selection}
    (h : g.select state text = some s) : s.rule ∈ g.rules state := by
  obtain ⟨before, after, hrules, -⟩ := select_eq_some_iff.1 h
  rw [hrules]
  exact List.mem_append_right _ List.mem_cons_self

namespace Lexer

/-- Every open construct has a state that the grammar requires rules for. -/
def IsSupported (l : Lexer) : Prop :=
  ∀ frame ∈ l.top :: l.below, frame.state ∈ l.grammar.required

theorem isSupported_start (g : Grammar) (source : Text) : (start g source).IsSupported := by
  intro frame hframe
  obtain rfl := List.mem_singleton.1 hframe
  exact g.root_mem_required

/-- After a transition, what is open was open before or is the state that was entered. -/
theorem mem_frames_transition {l : Lexer} {action : Action} {frame : Frame}
    (h : frame ∈ (l.transition action).top :: (l.transition action).below) :
    frame ∈ l.top :: l.below ∨
      ∃ target, action.target? = some target ∧ frame = ⟨target, l.position⟩ := by
  cases action with
  | plain category => exact .inl h
  | classified => exact .inl h
  | push category target =>
      rcases List.mem_cons.1 h with rfl | h
      · exact .inr ⟨target, rfl, rfl⟩
      · exact .inl h
  | pop category =>
      rw [transition] at h
      split at h
      · exact .inl h
      · next outer below hbelow =>
        rw [hbelow]
        exact .inl (List.mem_cons_of_mem _ h)

theorem Advances.isSupported {l next : Lexer} {s : Selection} {lexeme : Text}
    (h : l.Advances s lexeme next) (hl : l.IsSupported) : next.IsSupported := by
  intro frame hframe
  rw [h.top, h.below] at hframe
  rw [h.grammar]
  rcases mem_frames_transition hframe with hopen | ⟨target, htarget, rfl⟩
  · exact hl frame hopen
  · exact Grammar.mem_required_of_target (Grammar.mem_rules_of_select h.selected) htarget

/-- A lexer of a grammar that catches all has ended or emits a token. -/
theorem ended_or_step {l : Lexer} (hcatches : l.grammar.CatchesAll) (hl : l.IsSupported) :
    Ended l ∨ ∃ t next, l.step = (.ok (some t), next) ∧ next.grammar = l.grammar ∧
      next.IsSupported := by
  by_cases hnil : l.cursor.remaining = []
  · exact .inl (ended_iff.2 hnil)
  · have hstate : l.state ∈ l.grammar.required := hl l.top List.mem_cons_self
    obtain ⟨s, hselect⟩ := hcatches.exists_select hstate hnil
    obtain ⟨lexeme, next, hadvances⟩ := exists_advances hselect
    exact .inr ⟨l.tokenFor s lexeme, next, step_eq_token_iff.2 ⟨s, lexeme, hadvances, rfl⟩,
      hadvances.grammar, hadvances.isSupported hl⟩

/-- With a grammar that catches all, a scan goes on to its end. -/
theorem exists_run {g : Grammar} (hcatches : g.CatchesAll) (source : Text) :
    ∃ tokens last, Yields (g.lex source) tokens last ∧ Ended last := by
  refine @exists_yields_ended Lexer _ (fun l => l.grammar = g ∧ l.IsSupported) ?_ (g.lex source)
    ⟨rfl, isSupported_start g source⟩
  rintro l ⟨rfl, hl⟩
  rcases ended_or_step hcatches hl with hend | ⟨t, next, hstep, hgrammar, hnext⟩
  · exact .inl hend
  · exact .inr ⟨t, next, hstep, hgrammar, hnext⟩

/-- The tokens of a scan from the beginning to the end tile the source. -/
theorem tiles_of_scan {g : Grammar} {source : Text} {tokens : List Token} {last : Lexer}
    (hrun : Yields (g.lex source) tokens last) (hend : Ended last) :
    Tiles 0 tokens ∧ textOf tokens = source :=
  ⟨(covers_of_yields hrun).tiles, textOf_of_yields_ended hrun hend⟩

theorem isPieceOf_of_scan {g : Grammar} {source : Text} {tokens : List Token} {last : Lexer}
    (hrun : Yields (g.lex source) tokens last) (hend : Ended last) :
    ∀ t ∈ tokens, t.IsPieceOf source := by
  obtain ⟨htiles, htext⟩ := tiles_of_scan hrun hend
  intro t ht
  have hslice := htiles.tiling.slices t ht
  rwa [htext] at hslice

/-- A coalescer of a lexer gives the merged tokens of its scan. -/
theorem yields_coalesce {g : Grammar} {source : Text} {tokens : List Token} {last : Lexer}
    (hrun : Yields (g.lex source) tokens last) (hend : Ended last) :
    Yields (g.lex source).coalesce (merge tokens) ⟨source, last, none⟩ ∧
      Ended (⟨source, last, none⟩ : Coalescer Lexer) :=
  Coalescer.yields_merge hrun hend (isPieceOf_of_scan hrun hend)

end Lexer

/-- What a scan that loses nothing gives: the raw tokens, the lexer at the end, and the tokens with
neighbours merged. -/
structure LosslessScan (g : Grammar) (source : Text) (tokens : List Token) (last : Lexer)
    (merged : List Token) : Prop where
  /-- Pulling tokens from a new lexer gives these and finds the end. -/
  drained : drain (g.lex source) = ⟨tokens, none, last⟩
  /-- At the end there is no token, however often one is asked for. -/
  ended : last.step = (.ok none, last)
  tiling : Tiling source tokens
  length_le : tokens.length ≤ source.length
  length_pos : source ≠ [] → 1 ≤ tokens.length
  /-- No lexer on the way reports a fault. -/
  safe : ∀ {ts : List Token} {l l' : Lexer} {f : Fault}, Yields (g.lex source) ts l →
    l.step ≠ (.error f, l')
  /-- Each lexer on the way gives the rest of the tokens, within its bounds on their number. -/
  hinted : ∀ {ts : List Token} {l : Lexer}, Yields (g.lex source) ts l →
    ∃ later, tokens = ts ++ later ∧ Yields l later last ∧
      l.sizeHint.1 ≤ later.length ∧ later.length ≤ l.sizeHint.2
  coalesced : (drain (g.lex source).coalesce).result = .ok merged
  mergedTiling : Tiling source merged
  separated : merged.IsChain fun t u => t.category ≠ u.category

/-- Tokens end to end of which no two neighbours can be joined have other categories than their
neighbours. -/
theorem Token.isChain_category_ne {ts : List Token}
    (hchained : ts.IsChain fun t u => u.start = t.stop)
    (hmerged : ts.IsChain fun t u => ¬ Coalescer.continues t u = true) :
    ts.IsChain fun t u => t.category ≠ u.category := by
  induction ts with
  | nil => exact .nil
  | cons t ts ih =>
      cases ts with
      | nil => exact .singleton t
      | cons u ts =>
          obtain ⟨hstart, hchained⟩ := List.isChain_cons_cons.1 hchained
          obtain ⟨hnot, hmerged⟩ := List.isChain_cons_cons.1 hmerged
          refine .cons_cons ?_ (ih hchained hmerged)
          intro hcategory
          exact hnot (continues_iff.2 ⟨hcategory.symm, hstart⟩)

/-- A run to the end is a scan that loses nothing. -/
theorem losslessScan_of_run {g : Grammar} {source : Text} {tokens : List Token} {last : Lexer}
    (hrun : Yields (g.lex source) tokens last) (hend : Ended last) :
    LosslessScan g source tokens last (merge tokens) := by
  obtain ⟨htiles, htext⟩ := Lexer.tiles_of_scan hrun hend
  obtain ⟨hmerge, hmergeEnd⟩ := Lexer.yields_coalesce hrun hend
  have hmergeTiles := tiles_merge htiles
  have hlater {ts : List Token} {l : Lexer} (h : Yields (g.lex source) ts l) :
      ∃ later, tokens = ts ++ later ∧ Yields l later last := h.exists_append hrun hend
  -- one goal for each field of `LosslessScan`
  constructor
  · exact drain_of_yields hrun hend
  · exact hend
  · rw [← htext]
    exact htiles.tiling
  · rw [← htext]
    exact htiles.length_le
  · intro hne
    rw [← htext] at hne
    refine List.length_pos_iff.2 ?_
    rintro rfl
    exact hne rfl
  · intro ts l l' f h hfault
    -- a fault is neither a further token of the run nor its end
    obtain ⟨later, -, hyields⟩ := hlater h
    cases hyields with
    | nil =>
        rw [Ended, Lexer.next_eq, hfault] at hend
        cases hend
    | cons hnext _ =>
        rw [Lexer.next_eq, hfault] at hnext
        cases hnext
  · intro ts l h
    obtain ⟨later, htokens, hyields⟩ := hlater h
    exact ⟨later, htokens, hyields, Lexer.sizeHint_of_yields hyields hend⟩
  · exact result_drain_of_yields hmerge hmergeEnd
  · rw [← htext, ← textOf_merge]
    exact hmergeTiles.tiling
  · exact isChain_category_ne hmergeTiles.isChain (isChain_merge tokens)

/-- The JSONiq grammar has the rule for any character in every state. -/
theorem Grammar.listsAnyChar_jsoniq : jsoniq.ListsAnyChar := by
  intro state _
  obtain ⟨line, hline, hform, hlookahead⟩ := Jsoniq.exists_anything state
  refine ⟨line.rule, ?_, ?_, ?_⟩
  · rw [Jsoniq.rules_eq]
    exact List.mem_map_of_mem hline
  · rw [Jsoniq.Line.rule, hform]
    rfl
  · rw [Jsoniq.Line.rule, hlookahead]
    rfl

theorem Grammar.catchesAll_jsoniq : jsoniq.CatchesAll := listsAnyChar_jsoniq.catchesAll build_builder

/-- A grammar that is built with the rule for any character in each state that the lexer can be in
catches all, whatever the named classes hold. A grammar that catches all scans every source without
loss. The JSONiq grammar is built so. -/
theorem exists_losslessScan (g : Grammar) :
    (∀ (classes : Pattern.Classes) (b : GrammarBuilder),
      b.build classes.compile = .ok g → g.ListsAnyChar → g.CatchesAll) ∧
      (g.CatchesAll → ∀ source : Text,
        ∃ tokens last merged, LosslessScan g source tokens last merged) ∧
      Jsoniq.builder.build = .ok Grammar.jsoniq ∧ Grammar.jsoniq.ListsAnyChar := by
  refine ⟨?_, ?_, Grammar.build_builder, Grammar.listsAnyChar_jsoniq⟩
  · intro classes b hbuild hlists
    exact hlists.catchesAll hbuild
  · intro hcatches source
    obtain ⟨tokens, last, hrun, hend⟩ := Lexer.exists_run hcatches source
    exact ⟨tokens, last, merge tokens, losslessScan_of_run hrun hend⟩

/-- The JSONiq grammar on a text with a comment that stays open. -/
theorem exists_losslessScan_comment :
    Jsoniq.builder.build Pattern.Classes.unicode.compile = .ok Grammar.jsoniq ∧
      Grammar.jsoniq.ListsAnyChar ∧ Grammar.jsoniq.CatchesAll ∧
        ∃ tokens last merged, LosslessScan Grammar.jsoniq "1 (: é".toList tokens last merged ∧
          merged.map Token.category = [.integerNumber, .whitespace, .comment] := by
  obtain ⟨hcatchesAll, hscans, hbuild, hlists⟩ := exists_losslessScan Grammar.jsoniq
  have hcatches := hcatchesAll .unicode Jsoniq.builder hbuild hlists
  obtain ⟨tokens, last, merged, hscan⟩ := hscans hcatches "1 (: é".toList
  have hcategories :
      (drain (Grammar.jsoniq.lex "1 (: é".toList).coalesce).result.toOption.map
        (List.map Token.category) = some [.integerNumber, .whitespace, .comment] := by
    rw [Jsoniq.jsoniq_eq]
    decide +kernel
  rw [hscan.coalesced] at hcategories
  exact ⟨hbuild, hlists, hcatches, tokens, last, merged, hscan, Option.some.inj hcategories⟩

end JsoniqLexer

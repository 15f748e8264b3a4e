import JsoniqLexer.Proofs.Jsoniq.Continuation
import JsoniqLexer.Proofs.Jsoniq.Nesting
import JsoniqLexer.Proofs.Jsoniq.Strings

/-!
# Scanning a text in two parts

A text that ends with nothing open can be scanned on its own, if what follows does not begin with a
character of `joining`: no rule reaches over the end of the first part, so its tokens are as they
were (`Prolongs.yields`), and from there the scan starts afresh (`scan_append`).
-/

set_option autoImplicit false

namespace JsoniqLexer

open TokenStream Token Jsoniq

namespace Lexer

/-- The lexer comes to the end of its text with nothing open. -/
def EndsOutside (l : Lexer) : Prop :=
  ∃ ts last, Yields l ts last ∧ Ended last ∧ last.inner = []

theorem EndsOutside.step {l next : Lexer} {t : Token} (h : l.EndsOutside)
    (hstep : l.step = (.ok (some t), next)) : next.EndsOutside := by
  obtain ⟨ts, last, hrun, hend, hinner⟩ := h
  obtain ⟨later, -, hlater⟩ := (Yields.single hstep).exists_append hrun hend
  exact ⟨later, last, hlater, hend, hinner⟩

theorem EndsOutside.inner_eq_nil {l : Lexer} (h : l.EndsOutside)
    (hremaining : l.cursor.remaining = []) : l.inner = [] := by
  obtain ⟨ts, last, hrun, -, hinner⟩ := h
  obtain ⟨-, rfl⟩ := hrun.eq_nil_of_ended (ended_iff.2 hremaining)
  exact hinner

/-- The second lexer is the first with more text after, and the first comes to the end with nothing
open. -/
structure Prolongs (more : Text) (l m : Lexer) : Prop where
  extends_first : l.Extends more m
  nests : ∃ kind, l.Nests kind
  ends : l.EndsOutside

namespace Prolongs

variable {more : Text} {l m next : Lexer}

/-- With text after that joins nothing, both make the same step. -/
theorem step {t : Token} (hmore : ∀ c ∈ more.head?, joining.contains c = false)
    (h : l.Prolongs more m) (hstep : l.step = (.ok (some t), next)) :
    ∃ next', m.step = (.ok (some t), next') ∧ next.Prolongs more next' := by
  obtain ⟨hextends, ⟨kind, hnests⟩, hends⟩ := h
  have hafter := hends.step hstep
  obtain ⟨kind', hnests', -⟩ := hnests.step hstep
  obtain ⟨s, lexeme, hadvances, rfl⟩ := step_eq_token_iff.1 hstep
  have hselected := hadvances.selected
  rw [hnests.grammar, hadvances.remaining] at hselected
  have hselects : Selects l.state (lexeme ++ next.cursor.remaining) s.rule.action lexeme :=
    ⟨s, hselected, rfl, hadvances.length.symm⟩
  -- a lexeme that goes to the end of the text leaves nothing open
  have hsettles : l.state = .root ∨ next.cursor.remaining ≠ [] ∨ s.rule.action.isPop = true := by
    by_cases hremaining : next.cursor.remaining = []
    · cases hpop : s.rule.action.isPop with
      | true => exact .inr (.inr rfl)
      | false =>
          have hinner := hafter.inner_eq_nil hremaining
          rw [hadvances.inner] at hinner
          exact .inl (hnests.state_eq_root (inner_eq_nil_of_transition hpop hinner))
    · exact .inr (.inl hremaining)
  obtain ⟨s', hselect', haction, hlength⟩ :=
    hselects.append hadvances.lexeme_ne_nil hmore hsettles
  rw [← hadvances.remaining, ← hextends.remaining, ← hnests.grammar, ← hextends.grammar,
    ← hextends.state_eq] at hselect'
  obtain ⟨lexeme', next', hadvances'⟩ := exists_advances hselect'
  have hsame := hlength.trans hadvances.length
  obtain ⟨rfl, hnext⟩ := hextends.advances hadvances hadvances' haction hsame
  have htoken := (hextends.tokenFor_eq haction lexeme').symm
  exact ⟨next', step_eq_token_iff.2 ⟨s', lexeme', hadvances', htoken⟩, hnext, ⟨kind', hnests'⟩,
    hafter⟩

/-- With text after that joins nothing, both give the same tokens. -/
theorem yields {ts : List Token} {l' : Lexer}
    (hmore : ∀ c ∈ more.head?, joining.contains c = false) (h : l.Prolongs more m)
    (hrun : Yields l ts l') : ∃ m', Yields m ts m' ∧ l'.Prolongs more m' := by
  have hsimulates := hrun.exists_of_simulates (f := id) (step hmore) h
  rwa [List.map_id] at hsimulates

end Prolongs

theorem extends_lex (source more : Text) :
    (Grammar.jsoniq.lex source).Extends more (Grammar.jsoniq.lex (source ++ more)) := by
  constructor
  · rw [grammar_lex, grammar_lex]
  · rfl
  · rfl
  · rfl
  · rfl

/-- The tokens of a text that ends with nothing open are read with text after too, up to a lexer with
nothing open that has that text left. -/
theorem exists_lexer_after {source more : Text} {ts : List Token} {last : Lexer}
    (hrun : Yields (Grammar.jsoniq.lex source) ts last) (hend : Ended last)
    (hinner : last.inner = []) (hmore : ∀ c ∈ more.head?, joining.contains c = false) :
    ∃ k, Yields (Grammar.jsoniq.lex (source ++ more)) ts k ∧ k.cursor.remaining = more ∧
      k.position = source.byteLength ∧ k.inner = [] := by
  have hprolongs : (Grammar.jsoniq.lex source).Prolongs more (Grammar.jsoniq.lex (source ++ more)) :=
    ⟨extends_lex source more, ⟨.comment, nests_lex source⟩, ts, last, hrun, hend, hinner⟩
  obtain ⟨k, hk, hextends, -, -⟩ := hprolongs.yields hmore hrun
  refine ⟨k, hk, ?_, ?_, ?_⟩
  · rw [hextends.remaining, ended_iff.1 hend, List.nil_append]
  · rw [hextends.position, (covers_of_yields hrun).position, textOf_of_yields_ended hrun hend]
    exact Nat.zero_add _
  · rw [inner_eq_nil_iff, hextends.below, ← inner_eq_nil_iff]
    exact hinner

/-- A lexer of JSONiq with nothing open has the tokens and the end of what is left to come. -/
theorem exists_resumed {k last : Lexer} {kind : State} {ts : List Token} (hnests : k.Nests kind)
    (hinner : k.inner = [])
    (hrun : Yields (Grammar.jsoniq.lex k.cursor.remaining) ts last) :
    ∃ m, Yields k (ts.map (Token.shift k.position)) m ∧ last.Resumes k.position m := by
  have hresumes := resumes_lex (inner_eq_nil_iff.1 hinner) (hnests.state_eq_root hinner)
  rw [hnests.grammar] at hresumes
  exact hresumes.yields hrun

end Lexer

/-- The splitting law. A text that ends with nothing open, and a text that does not begin with a
character of `joining`, are scanned together as they are scanned apart. -/
theorem scan_append {s t : Text} {ss : List Token} (hs : Scan.of s true = .ok ⟨ss, .complete⟩)
    (ht : ∀ c ∈ t.head?, joining.contains c = false) :
    ∃ ts termination, Scan.of t true = .ok ⟨ts, termination⟩ ∧
      Scan.of (s ++ t) true =
        .ok ⟨ss ++ ts.map (Token.shift s.byteLength), termination.shift s.byteLength⟩ := by
  obtain ⟨tokens, last, hrun, hend, -⟩ := exists_tokenize s
  obtain ⟨ts, e, hrun', hend', -⟩ := exists_tokenize t
  rw [scan_of_run hrun hend] at hs
  obtain ⟨htokens, hcomplete⟩ := Scan.mk.inj (Except.ok.inj hs)
  obtain rfl : tokens = ss := htokens
  have hinner : last.inner = [] := Lexer.termination_eq_complete_iff.1 hcomplete
  obtain ⟨k, hk, hremaining, hposition, hkinner⟩ := Lexer.exists_lexer_after hrun hend hinner ht
  obtain ⟨kind, hnests⟩ := Lexer.exists_nests hk
  rw [← hremaining] at hrun'
  obtain ⟨m, hm, hresumes⟩ := Lexer.exists_resumed hnests hkinner hrun'
  rw [hposition] at hm hresumes
  refine ⟨ts, e.termination, ?_, ?_⟩
  · rw [hremaining] at hrun'
    exact scan_of_run hrun' hend' true
  · rw [← hresumes.termination]
    exact scan_of_run (hk.append hm) (hresumes.mirrors.ended hend') true

/-- A comment in front of an operator and of a comment that is left open. -/
theorem scan_append_comment :
    Scan.of "(::)".toList true =
        .ok ⟨[ofLexeme .comment ['(', ':'] 0, ofLexeme .comment [':', ')'] 2], .complete⟩ ∧
      (∀ c ∈ "*(:".toList.head?, joining.contains c = false) ∧
      ∃ ts termination, Scan.of "*(:".toList true = .ok ⟨ts, termination⟩ ∧
        Scan.of "(::)*(:".toList true =
          .ok ⟨[ofLexeme .comment ['(', ':'] 0, ofLexeme .comment [':', ')'] 2] ++
            ts.map (Token.shift 4), termination.shift 4⟩ := by
  have hs : Scan.of "(::)".toList true =
      .ok ⟨[ofLexeme .comment ['(', ':'] 0, ofLexeme .comment [':', ')'] 2], .complete⟩ := by
    rw [Scan.of, jsoniq_eq]
    decide +kernel
  have ht : ∀ c ∈ "*(:".toList.head?, joining.contains c = false := by
    intro c hc
    obtain rfl : '*' = c := Option.some.inj hc
    decide
  have htext : "(::)*(:".toList = "(::)".toList ++ "*(:".toList := by decide
  have hbytes : Text.byteLength "(::)".toList = 4 := by decide
  have hscan := scan_append hs ht
  rw [← htext, hbytes] at hscan
  exact ⟨hs, ht, hscan⟩

end JsoniqLexer

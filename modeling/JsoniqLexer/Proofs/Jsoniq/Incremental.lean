import JsoniqLexer.Proofs.Jsoniq.Strings

/-!
# Coalescing from any point of a scan

A coalescer reads one token ahead of what it has given. That shows nowhere: started at any point of a
scan and stopped after any number of calls, it gives what coalescing the list of the tokens that are
left gives. The tokens before and after a point, coalesced apart, make up the tokens of the text
again once the two that meet there are joined, if they have one category (`coalescing_is_incremental`).
-/

set_option autoImplicit false

namespace JsoniqLexer

open TokenStream Token

/-- What a coalescer makes of a list of tokens. -/
def coalesced (source : Text) (tokens : List Token) : Except Fault (List Token) :=
  (drain (Coalescer.start source tokens)).result

theorem coalesced_of_pieces {source : Text} {tokens : List Token}
    (hpieces : ∀ t ∈ tokens, t.IsPieceOf source) : coalesced source tokens = .ok (merge tokens) := by
  rw [coalesced, Coalescer.drain_start_of_pieces hpieces]
  rfl

namespace Token

/-- Two lists of tokens one after the other, the last token of the former joined with the first of the
latter if they have one category. -/
def rejoin (former latter : List Token) : List Token :=
  match former.getLast?, latter with
  | some t, u :: later =>
      if t.category = u.category then former.dropLast ++ t.join u :: later else former ++ latter
  | _, _ => former ++ latter

theorem rejoin_nil_left (latter : List Token) : rejoin [] latter = latter := rfl

/-- Where the two lists meet without a gap, only the categories decide about joining. -/
theorem rejoin_concat {before latter : List Token} {t : Token}
    (hmeet : ∀ u ∈ latter.head?, u.start = t.stop) :
    rejoin (before ++ [t]) latter = before ++ prepend t latter := by
  cases latter with
  | nil => simp [rejoin, prepend]
  | cons u later =>
      have hcontinues : Coalescer.continues t u = true ↔ t.category = u.category := by
        rw [continues_iff, eq_comm]
        exact and_iff_left (hmeet u rfl)
      simp only [rejoin, List.getLast?_concat, List.dropLast_concat, prepend, hcontinues]
      split
      · rfl
      · rw [List.append_assoc, List.singleton_append]

/-- Tokens end to end may be merged in two parts. -/
theorem merge_append_of_tiles {start : Nat} {as ts : List Token} (htiles : Tiles start (as ++ ts)) :
    merge (as ++ ts) = rejoin (merge as) (merge ts) := by
  cases ha : as.getLast? with
  | none =>
      obtain rfl := List.getLast?_eq_none_iff.1 ha
      exact (rejoin_nil_left (merge ts)).symm
  | some a =>
      obtain ⟨before, b, hmerge, -, hstop, happend⟩ := exists_merge_concat ha
      rw [happend, hmerge, rejoin_concat]
      intro u hu
      -- merging keeps where the first token starts, and the last one before it ends there
      cases ts with
      | nil => cases hu
      | cons t ts =>
          obtain ⟨v, vs, heq, -, hstart, -⟩ := exists_prepend_eq t (merge ts)
          rw [merge_cons, heq] at hu
          obtain rfl := Option.some.inj hu
          obtain ⟨as, rfl⟩ := List.getLast?_eq_some_iff.1 ha
          have hchain := htiles.isChain
          rw [List.append_assoc, List.singleton_append] at hchain
          have hmeet := (List.isChain_append.1 hchain).2.1
          rw [hstart, hstop]
          exact (List.isChain_cons_cons.1 hmeet).1

end Token

/-- What coalescing gives from the point of a scan of `source` after `k` calls of `next`. `raw` are
the tokens of the scan; `former` and `latter` are made of those before and after the point. -/
structure CoalescesFrom (source : Text) (k : Nat) (raw former latter : List Token)
    (termination : Termination) : Prop where
  scanned : Scan.of source true = .ok ⟨raw, termination⟩
  gives : Gives (Grammar.jsoniq.lex source) raw
  remaining : Gives (pulls k (Grammar.jsoniq.lex source)).2 (raw.drop k)
  before : coalesced source (raw.take k) = .ok former
  after : coalesced source (raw.drop k) = .ok latter
  /-- Started at the point, a coalescer gives what coalescing the whole list of the rest gives. -/
  lazy : Gives (pulls k (Grammar.jsoniq.lex source)).2.coalesce latter
  whole : tokenize source = .ok (rejoin former latter)
  collected : Scan.of source false = .ok ⟨rejoin former latter, termination⟩

/-- At every point of a scan, coalescing the tokens to come one by one and all at once agree, and what
is made of the tokens before the point and after it makes up the tokens of the text. -/
theorem coalescing_is_incremental (source : Text) (k : Nat) :
    ∃ raw former latter termination, CoalescesFrom source k raw former latter termination := by
  obtain ⟨raw, last, hrun, hend, htokenize⟩ := exists_tokenize source
  have hpieces := Lexer.isPieceOf_of_scan hrun hend
  have htake : ∀ t ∈ raw.take k, t.IsPieceOf source :=
    fun t ht => hpieces t (List.mem_of_mem_take ht)
  have hdrop : ∀ t ∈ raw.drop k, t.IsPieceOf source :=
    fun t ht => hpieces t (List.mem_of_mem_drop ht)
  have hparts : merge raw = rejoin (merge (raw.take k)) (merge (raw.drop k)) := by
    obtain ⟨htiles, -⟩ := Lexer.tiles_of_scan hrun hend
    rw [← List.take_append_drop k raw] at htiles
    rw [← merge_append_of_tiles htiles, List.take_append_drop]
  have hlater := (pulls_of_yields hrun hend k).2
  -- the lexer reached is still one on this source, so its coalescer slices this source
  have hsource : (pulls k (Grammar.jsoniq.lex source)).2.cursor.source = source := by
    have hlast : last.cursor.source = source := (Lexer.covers_of_yields hrun).source
    rw [← (Lexer.covers_of_yields hlater).source, hlast]
  obtain ⟨hmerge, hmergeEnd⟩ := Coalescer.yields_merge hlater hend hdrop
  refine ⟨raw, merge (raw.take k), merge (raw.drop k), last.termination, ?_⟩
  exact {
    scanned := scan_of_run hrun hend true
    gives := gives_of_yields hrun hend
    remaining := gives_of_yields hlater hend
    before := coalesced_of_pieces htake
    after := coalesced_of_pieces hdrop
    lazy := by
      rw [Lexer.coalesce, hsource]
      exact gives_of_yields hmerge hmergeEnd
    whole := hparts ▸ htokenize
    collected := by
      rw [scan_of_run hrun hend false, ← hparts]
      rfl }

end JsoniqLexer

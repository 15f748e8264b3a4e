import JsoniqLexer.Lexer.Coalescer
import JsoniqLexer.Proofs.Lexer.Tiling

/-!
# Merging neighbours, as a function on lists

`Token.merge` joins neighbours of one category in a list of tokens, from the right. A coalescer works
from the left and reads one token ahead; over any stream whose tokens are pieces of the source it
gives the same tokens (`Coalescer.yields_merge`).
-/

set_option autoImplicit false

namespace JsoniqLexer

open TokenStream

namespace Token

/-- One token for two that follow each other. -/
def join (t u : Token) : Token := ⟨t.category, t.lexeme ++ u.lexeme, t.start, u.stop⟩

/-- A token in front of others, joined with the first of them if that continues it. -/
def prepend (t : Token) : List Token → List Token
  | [] => [t]
  | u :: us => if Coalescer.continues t u then t.join u :: us else t :: u :: us

/-- Neighbours that continue each other are joined. -/
def merge (ts : List Token) : List Token := ts.foldr prepend []

/-- The token is the piece of the source between its ends. -/
def IsPieceOf (t : Token) (source : Text) : Prop :=
  source.slice? t.start t.stop = some t.lexeme

theorem continues_iff {t u : Token} :
    Coalescer.continues t u = true ↔ u.category = t.category ∧ u.start = t.stop := by
  rw [Coalescer.continues, Bool.and_eq_true, decide_eq_true_eq, decide_eq_true_eq]

@[simp] theorem merge_nil : merge [] = [] := rfl

@[simp] theorem merge_cons (t : Token) (ts : List Token) : merge (t :: ts) = prepend t (merge ts) :=
  rfl

/-- A change of tokens that joining goes along with may be made before merging or after it. -/
theorem merge_map {f : Token → Token}
    (hcontinues : ∀ t u, Coalescer.continues (f t) (f u) = Coalescer.continues t u)
    (hjoin : ∀ t u, (f t).join (f u) = f (t.join u)) (ts : List Token) :
    merge (ts.map f) = (merge ts).map f := by
  have hprepend (t : Token) (us : List Token) :
      prepend (f t) (us.map f) = (prepend t us).map f := by
    cases us with
    | nil => rfl
    | cons u us =>
        rw [List.map_cons, prepend, prepend, hcontinues]
        split
        · rw [hjoin, List.map_cons]
        · rw [List.map_cons, List.map_cons]
  induction ts with
  | nil => rfl
  | cons t ts ih => rw [List.map_cons, merge_cons, ih, hprepend, merge_cons]

/-- The first token begins as the one that was put in front. -/
theorem exists_prepend_eq (t : Token) (us : List Token) :
    ∃ v vs, prepend t us = v :: vs ∧ v.category = t.category ∧ v.start = t.start ∧
      t.lexeme <+: v.lexeme := by
  cases us with
  | nil => exact ⟨t, [], rfl, rfl, rfl, List.prefix_refl t.lexeme⟩
  | cons u us =>
      rw [prepend]
      split
      · exact ⟨t.join u, us, rfl, rfl, rfl, List.prefix_append t.lexeme u.lexeme⟩
      · exact ⟨t, u :: us, rfl, rfl, rfl, List.prefix_refl t.lexeme⟩

/-- Two tokens in front that continue each other may be joined before. -/
theorem prepend_prepend_of_continues {t u : Token} (h : Coalescer.continues t u = true)
    (vs : List Token) : prepend t (prepend u vs) = prepend (t.join u) vs := by
  obtain ⟨hcategory, hstart⟩ := continues_iff.1 h
  cases vs with
  | nil => simp only [prepend, h, if_true]
  | cons v vs =>
      have hcongr : Coalescer.continues (t.join u) v = Coalescer.continues u v := by
        rw [Coalescer.continues, Coalescer.continues, join, hcategory]
      rw [prepend, prepend, hcongr]
      split
      · have hjoin : Coalescer.continues t (u.join v) = true :=
          continues_iff.2 ⟨hcategory, hstart⟩
        rw [prepend, if_pos hjoin]
        simp only [join, List.append_assoc]
      · rw [prepend, if_pos h]

/-- A token that the next one does not continue stays as it is. -/
theorem prepend_prepend_of_not_continues {t u : Token} (h : ¬ Coalescer.continues t u = true)
    (vs : List Token) : prepend t (prepend u vs) = t :: prepend u vs := by
  obtain ⟨w, ws, heq, hcategory, hstart, -⟩ := exists_prepend_eq u vs
  have hcongr : Coalescer.continues t w = Coalescer.continues t u := by
    rw [Coalescer.continues, Coalescer.continues, hcategory, hstart]
  rw [heq, prepend, hcongr, if_neg h]

/-- What of a joined token is that of both tokens stays with the tokens when neighbours are merged. -/
theorem flatMap_merge {α : Type} {f : Token → List α}
    (hjoin : ∀ t u, Coalescer.continues t u = true → f (t.join u) = f t ++ f u) (ts : List Token) :
    (merge ts).flatMap f = ts.flatMap f := by
  have hprepend (t : Token) (us : List Token) :
      (prepend t us).flatMap f = f t ++ us.flatMap f := by
    cases us with
    | nil => rfl
    | cons u us =>
        rw [prepend]
        split
        · next hcontinues =>
          rw [List.flatMap_cons, hjoin t u hcontinues, List.flatMap_cons, List.append_assoc]
        · rfl
  induction ts with
  | nil => rfl
  | cons t ts ih => rw [merge_cons, hprepend, ih, List.flatMap_cons]

@[simp] theorem textOf_merge (ts : List Token) : textOf (merge ts) = textOf ts :=
  flatMap_merge (fun _ _ _ => rfl) ts

/-- The first two tokens may be joined, whatever their categories are. -/
theorem tiles_join {start : Nat} {t u : Token} {us : List Token} (h : Tiles start (t :: u :: us)) :
    Tiles start (t.join u :: us) := by
  obtain ⟨hne, hstart, hstop, _, _, hustop, hus⟩ := h
  refine ⟨List.append_ne_nil_of_left_ne_nil hne _, hstart, ?_, hus⟩
  simp only [join, Text.byteLength_append]
  rw [hustop, hstop, Nat.add_assoc]

theorem tiles_prepend {start : Nat} {t : Token} {us : List Token} (h : Tiles start (t :: us)) :
    Tiles start (prepend t us) := by
  cases us with
  | nil => exact h
  | cons u us =>
      rw [prepend]
      split
      · exact tiles_join h
      · exact h

theorem tiles_merge {start : Nat} {ts : List Token} (h : Tiles start ts) :
    Tiles start (merge ts) := by
  induction ts generalizing start with
  | nil => exact h
  | cons t ts ih =>
      obtain ⟨hne, hstart, hstop, hts⟩ := h
      exact tiles_prepend ⟨hne, hstart, hstop, ih hts⟩

/-- No two neighbours could be joined any more. -/
theorem isChain_merge (ts : List Token) :
    (merge ts).IsChain fun t u => ¬ Coalescer.continues t u = true := by
  induction ts with
  | nil => exact .nil
  | cons t ts ih =>
      rw [merge_cons]
      cases hus : merge ts with
      | nil => exact .singleton t
      | cons u us =>
          rw [hus] at ih
          rw [prepend]
          split
          · next hcontinues =>
            -- the joined token ends where `u` ends and has its category, so it meets `v` as `u` did
            cases us with
            | nil => exact .singleton _
            | cons v vs =>
                obtain ⟨hhead, htail⟩ := List.isChain_cons_cons.1 ih
                refine .cons_cons ?_ htail
                rw [continues_iff] at hhead ⊢
                rintro ⟨hcategory, hstart⟩
                exact hhead ⟨hcategory.trans (continues_iff.1 hcontinues).1.symm, hstart⟩
          · next hnot => exact .cons_cons hnot ih

/-- Putting a token in front changes nothing about tokens of other categories. -/
theorem mem_of_mem_prepend {t v : Token} {us : List Token} (h : v ∈ prepend t us)
    (hne : v.category ≠ t.category) : v ∈ us := by
  cases us with
  | nil =>
      obtain rfl := List.mem_singleton.1 h
      exact absurd rfl hne
  | cons u us =>
      rw [prepend] at h
      split at h
      · rcases List.mem_cons.1 h with rfl | hmem
        · exact absurd rfl hne
        · exact List.mem_cons_of_mem u hmem
      · rcases List.mem_cons.1 h with rfl | hmem
        · exact absurd rfl hne
        · exact hmem

/-- Tokens of one category that stand end to end become one token. -/
theorem merge_run {category : Category} {start : Nat} {t : Token} {ts : List Token}
    (htiles : Tiles start (t :: ts)) (hcategory : ∀ u ∈ t :: ts, u.category = category) :
    merge (t :: ts) = [ofLexeme category (textOf (t :: ts)) start] := by
  induction ts generalizing t with
  | nil =>
      obtain ⟨_, hstart, hstop, _⟩ := htiles
      obtain ⟨own, lexeme, from', stop⟩ := t
      have hown := hcategory _ List.mem_cons_self
      simp only at hstart hstop hown
      simp [merge, prepend, ofLexeme, hstart, hstop, hown]
  | cons u ts ih =>
      -- the first two are joined, and the joined token stands in front of the others
      have hmeet : u.start = t.stop := (List.isChain_cons_cons.1 htiles.isChain).1
      have hcontinues : Coalescer.continues t u = true := by
        refine continues_iff.2 ⟨?_, hmeet⟩
        rw [hcategory u (by simp), hcategory t (by simp)]
      have hall : ∀ v ∈ t.join u :: ts, v.category = category := by
        rintro v hv
        rcases List.mem_cons.1 hv with rfl | hv
        · exact hcategory t (by simp)
        · exact hcategory v (by simp [hv])
      have hmerge := ih (tiles_join htiles) hall
      rw [merge_cons] at hmerge
      rw [merge_cons, merge_cons, prepend_prepend_of_continues hcontinues, hmerge]
      simp only [textOf_cons, join, List.append_assoc]

/-- Tokens of categories of which no two neighbours are stay as they are. -/
theorem filter_merge {p : Category → Bool} {ts : List Token}
    (h : ts.IsChain fun t u => p t.category = true → u.category ≠ t.category) :
    ((merge ts).filter fun t => p t.category) = ts.filter fun t => p t.category := by
  induction ts with
  | nil => rfl
  | cons t ts ih =>
      rw [merge_cons]
      cases ts with
      | nil => rfl
      | cons u ts =>
          obtain ⟨hne, hchain⟩ := List.isChain_cons_cons.1 h
          have hlater := ih hchain
          obtain ⟨v, vs, hmerge, hcategory, -⟩ := exists_prepend_eq u (merge ts)
          rw [← merge_cons] at hmerge
          rw [hmerge] at hlater ⊢
          rw [List.filter_cons, ← hlater, prepend]
          split
          · next hcontinues =>
            -- the first two are joined, so their category is none of these
            have hsame : v.category = t.category := (continues_iff.1 hcontinues).1
            have hnot : ¬ p t.category = true := by
              intro hp
              exact hne hp (hcategory.symm.trans hsame)
            have hjoin : (t.join v).category = t.category := rfl
            simp [hjoin, hsame, hnot]
          · rw [List.filter_cons]

theorem prepend_append {t : Token} {us : List Token} (h : us ≠ []) (vs : List Token) :
    prepend t (us ++ vs) = prepend t us ++ vs := by
  obtain ⟨u, us, rfl⟩ := List.exists_cons_of_ne_nil h
  rw [List.cons_append, prepend, prepend]
  split
  · rfl
  · rfl

/-- The last token after merging ends as the last token did, and it alone meets what is appended. -/
theorem exists_merge_concat {as : List Token} {a : Token} (ha : as.getLast? = some a) :
    ∃ before b, merge as = before ++ [b] ∧ b.category = a.category ∧ b.stop = a.stop ∧
      ∀ ts, merge (as ++ ts) = before ++ prepend b (merge ts) := by
  induction as with
  | nil => cases ha
  | cons c as ih =>
      cases as with
      | nil =>
          obtain rfl := Option.some.inj ha
          exact ⟨[], c, rfl, rfl, rfl, fun ts => rfl⟩
      | cons d as =>
          rw [List.getLast?_cons_cons] at ha
          obtain ⟨before, b, hmerge, hcategory, hstop, happend⟩ := ih ha
          rw [merge_cons c, hmerge]
          cases before with
          -- the others have become one token, which may continue the first
          | nil =>
              by_cases hcontinues : Coalescer.continues c b = true
              · refine ⟨[], c.join b, ?_, ?_, hstop, ?_⟩
                · rw [List.nil_append, prepend, if_pos hcontinues]
                  rfl
                · exact (continues_iff.1 hcontinues).1.symm.trans hcategory
                · intro ts
                  rw [List.cons_append, merge_cons, happend]
                  exact prepend_prepend_of_continues hcontinues (merge ts)
              · refine ⟨[c], b, ?_, hcategory, hstop, ?_⟩
                · rw [List.nil_append, prepend, if_neg hcontinues]
                  rfl
                · intro ts
                  rw [List.cons_append, merge_cons, happend]
                  exact prepend_prepend_of_not_continues hcontinues (merge ts)
          | cons e before =>
              have hne : e :: before ≠ [] := List.cons_ne_nil e before
              refine ⟨prepend c (e :: before), b, prepend_append hne [b], hcategory, hstop, ?_⟩
              intro ts
              rw [List.cons_append, merge_cons, happend]
              exact prepend_append hne (prepend b (merge ts))

/-- Where two lists of tokens meet without one continuing the other, they are merged apart. -/
theorem merge_append {as ts : List Token}
    (h : ∀ a ∈ as.getLast?, ∀ t ∈ ts.head?, ¬ Coalescer.continues a t = true) :
    merge (as ++ ts) = merge as ++ merge ts := by
  cases ha : as.getLast? with
  | none =>
      obtain rfl := List.getLast?_eq_none_iff.1 ha
      rfl
  | some a =>
      cases ts with
      | nil => rw [List.append_nil, merge_nil, List.append_nil]
      | cons t ts =>
          obtain ⟨before, b, hmerge, hcategory, hstop, happend⟩ := exists_merge_concat ha
          have hnot : ¬ Coalescer.continues b t = true := by
            rw [continues_iff, hcategory, hstop, ← continues_iff]
            exact h a ha t rfl
          rw [happend, hmerge, merge_cons, prepend_prepend_of_not_continues hnot,
            List.append_assoc, List.singleton_append]

/-- Tokens of one category that stand end to end become one token, if what follows has another
category. -/
theorem merge_run_append {category : Category} {start : Nat} {t : Token} {ts rest : List Token}
    (htiles : Tiles start (t :: ts)) (hcategory : ∀ u ∈ t :: ts, u.category = category)
    (hrest : ∀ u ∈ rest.head?, u.category ≠ category) :
    merge ((t :: ts) ++ rest) = ofLexeme category (textOf (t :: ts)) start :: merge rest := by
  have hapart : ∀ a ∈ (t :: ts).getLast?, ∀ u ∈ rest.head?, ¬ Coalescer.continues a u = true := by
    intro a ha u hu hcontinues
    have hown := hcategory a (List.mem_of_mem_getLast? ha)
    exact hrest u hu ((continues_iff.1 hcontinues).1.trans hown)
  rw [merge_append hapart, merge_run htiles hcategory]
  rfl

/-- Where the tokens at the end have one category, the last token after merging has it and starts
there or before. -/
theorem exists_getLast?_merge {category : Category} {start : Nat} {as ts : List Token} {t : Token}
    (htiles : Tiles start (as ++ t :: ts)) (hcategory : ∀ u ∈ t :: ts, u.category = category) :
    ∃ u, (merge (as ++ t :: ts)).getLast? = some u ∧ u.category = category ∧ u.start ≤ t.start := by
  obtain ⟨has, hts⟩ := tiles_append_iff.1 htiles
  obtain ⟨run, hrun, hown, hstart⟩ :
      ∃ run, merge (t :: ts) = [run] ∧ run.category = category ∧ run.start = t.start :=
    ⟨_, merge_run hts hcategory, rfl, hts.2.1.symm⟩
  cases ha : as.getLast? with
  | none =>
      obtain rfl := List.getLast?_eq_none_iff.1 ha
      rw [List.nil_append, hrun]
      exact ⟨run, rfl, hown, Nat.le_of_eq hstart⟩
  | some a =>
      obtain ⟨before, b, hbefore, -, -, happend⟩ := exists_merge_concat ha
      rw [happend, hrun, prepend]
      split
      -- the last token before has the category too, and it starts before the run does
      · next hcontinues =>
        obtain ⟨hsame, hmeet⟩ := continues_iff.1 hcontinues
        obtain ⟨-, hbstart, hbstop, -⟩ := (tiles_append_iff.1 (hbefore ▸ tiles_merge has)).2
        refine ⟨b.join run, List.getLast?_concat, hsame.symm.trans hown, ?_⟩
        have hjoin : (b.join run).start = b.start := rfl
        omega
      · exact ⟨run, by rw [List.getLast?_append_cons]; rfl, hown, Nat.le_of_eq hstart⟩

/-- Two pieces of a source, the second where the first ends, are a piece of it together. -/
theorem IsPieceOf.join {t u : Token} {source : Text} (ht : t.IsPieceOf source)
    (hu : u.IsPieceOf source) (h : u.start = t.stop) :
    source.slice? t.start u.stop = some (t.lexeme ++ u.lexeme) := by
  obtain ⟨before, after, hsource, hstart, hstop⟩ := Text.slice?_eq_some_iff.1 ht
  obtain ⟨before', after', hsource', hstart', hstop'⟩ := Text.slice?_eq_some_iff.1 hu
  -- the source is divided in two ways at the offset where the pieces meet
  have hdivision : (before ++ t.lexeme) ++ after = before' ++ (u.lexeme ++ after') := by
    rw [← hsource', hsource, List.append_assoc]
  have hlength : (before ++ t.lexeme).byteLength = before'.byteLength := by
    rw [Text.byteLength_append, hstart, hstop, ← h, hstart']
  obtain ⟨-, rfl⟩ := Text.append_inj_of_byteLength hdivision hlength
  refine Text.slice?_eq_some_iff.2 ⟨before, after', ?_, hstart, ?_⟩
  · rw [hsource, List.append_assoc]
  · rw [Text.byteLength_append, ← Nat.add_assoc, hstop, ← h, hstop']

end Token

namespace Coalescer

open Token

variable {σ : Type} [TokenStream σ]

/-- At the end of the stream the token that is held comes out as it is. -/
theorem absorb_of_ended {source : Text} {current : Token} {s : σ} (hend : Ended s) :
    absorb source current s = (.ok (some current), ⟨source, s, none⟩) := by
  rw [Ended] at hend
  rw [absorb]
  split
  · next f inner hnext => rw [hend] at hnext; cases hnext
  · next inner hnext => rw [hend] at hnext; cases hnext; rfl
  · next t inner hnext => rw [hend] at hnext; cases hnext

/-- The next token of the stream is taken into the one that is held, or that one comes out. -/
theorem absorb_of_next {source : Text} {current t : Token} {s s' : σ}
    (hnext : next s = (.ok (some t), s')) :
    absorb source current s =
      if continues current t then
        match source.slice? current.start t.stop with
        | none => (.error .badSlice, ⟨source, s', none⟩)
        | some lexeme => absorb source (.ofLexeme current.category lexeme current.start) s'
      else (.ok (some current), ⟨source, s', some t⟩) := by
  rw [absorb]
  split
  · next f inner hnext' => rw [hnext] at hnext'; cases hnext'
  · next inner hnext' => rw [hnext] at hnext'; cases hnext'
  · next u inner hnext' => rw [hnext] at hnext'; cases hnext'; rfl

/-- What a coalescer makes of the token it holds and of the tokens that the stream still gives: the
first of the merged tokens, and then the others. -/
theorem absorb_of_yields {source : Text} {current : Token} {s e : σ} {ts : List Token}
    (h : Yields s ts e) (hend : Ended e)
    (hpieces : ∀ t ∈ current :: ts, t.IsPieceOf source) :
    ∃ first others c, merge (current :: ts) = first :: others ∧
      absorb source current s = (.ok (some first), c) ∧ Yields c others ⟨source, e, none⟩ := by
  induction h generalizing current with
  | nil s => exact ⟨current, [], ⟨source, s, none⟩, rfl, absorb_of_ended hend, .nil _⟩
  | @cons s s' e t ts hnext _ ih =>
      obtain ⟨hcurrent, ht, hts⟩ := by simpa only [List.forall_mem_cons] using hpieces
      -- either the next token is taken into the one that is held, or that one comes out
      by_cases hcontinues : continues current t = true
      · obtain ⟨hcategory, hstart⟩ := continues_iff.1 hcontinues
        have hslice := hcurrent.join ht hstart
        -- the slice of the source is the two lexemes, so the token made of it is the join
        have hjoin : ofLexeme current.category (current.lexeme ++ t.lexeme) current.start =
            current.join t := by
          obtain ⟨_, _, _, _, hstop⟩ := Text.slice?_eq_some_iff.1 hslice
          rw [ofLexeme, hstop, Token.join]
        have hall : ∀ u ∈ current.join t :: ts, u.IsPieceOf source :=
          List.forall_mem_cons.2 ⟨hslice, hts⟩
        obtain ⟨first, others, c, hmerge, habsorb, hyields⟩ := ih hend hall
        refine ⟨first, others, c, ?_, ?_, hyields⟩
        · rw [merge_cons, merge_cons, prepend_prepend_of_continues hcontinues, ← hmerge, merge_cons]
        · rw [absorb_of_next hnext, if_pos hcontinues, hslice]
          simp only
          rw [hjoin, habsorb]
      · obtain ⟨first, others, c, hmerge, habsorb, hyields⟩ :=
          ih hend (List.forall_mem_cons.2 ⟨ht, hts⟩)
        refine ⟨current, first :: others, ⟨source, s', some t⟩, ?_, ?_, ?_⟩
        · rw [merge_cons, merge_cons, prepend_prepend_of_not_continues hcontinues, ← hmerge,
            merge_cons]
        · rw [absorb_of_next hnext, if_neg hcontinues]
        · exact .cons habsorb hyields

/-- Over a stream of pieces of the source a coalescer gives the merged tokens, and then it has
ended. -/
theorem yields_merge {source : Text} {s e : σ} {ts : List Token} (h : Yields s ts e)
    (hend : Ended e) (hpieces : ∀ t ∈ ts, t.IsPieceOf source) :
    Yields (start source s) (merge ts) ⟨source, e, none⟩ ∧
      Ended (⟨source, e, none⟩ : Coalescer σ) := by
  constructor
  · cases h with
    | nil => exact .nil _
    | @cons _ s' _ t ts hnext hrest =>
        obtain ⟨first, others, c, hmerge, habsorb, hyields⟩ :=
          absorb_of_yields hrest hend hpieces
        have hpull : (start source s).pull = (.ok (some first), c) := by
          rw [pull, start]
          simp only [hnext, habsorb]
        rw [hmerge]
        exact .cons hpull hyields
  · have hpull : (⟨source, e, none⟩ : Coalescer σ).pull = (.ok none, ⟨source, e, none⟩) := by
      rw [Ended] at hend
      rw [pull]
      simp only [hend]
    exact hpull

/-- A list of pieces of the source is merged. -/
theorem drain_start_of_pieces {source : Text} {tokens : List Token}
    (hpieces : ∀ t ∈ tokens, t.IsPieceOf source) :
    drain (start source tokens) = ⟨merge tokens, none, ⟨source, [], none⟩⟩ := by
  obtain ⟨hmerge, hend⟩ := yields_merge (yields_list tokens) ended_nil hpieces
  exact drain_of_yields hmerge hend

end Coalescer

end JsoniqLexer

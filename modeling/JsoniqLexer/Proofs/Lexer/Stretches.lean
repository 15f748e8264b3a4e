import Mathlib.Data.List.SplitBy
import JsoniqLexer.Proofs.Lexer.Merge

/-!
# Coalescing joins the longest stretches

Tokens follow each other in stretches: each token has the category of the one before it and starts
where that one ends. Whatever the tokens are, with gaps, overlaps and empty ones among them, they fall
into longest stretches in one way (`isDivision_iff`). Where they are pieces of a source, a coalescer
gives one token for each stretch, the piece from the start of its first token to the end of its last
(`coalescing_joins_stretches`).
-/

set_option autoImplicit false

namespace JsoniqLexer

open TokenStream

namespace Token

/-- The second token has the category of the first and starts where it ends. -/
def ContinuedBy (t u : Token) : Prop := u.category = t.category ∧ u.start = t.stop

theorem continues_iff_continuedBy {t u : Token} :
    Coalescer.continues t u = true ↔ t.ContinuedBy u := continues_iff

/-- The stretches make up the tokens, and each is as long as it can be. -/
structure IsDivision (tokens : List Token) (stretches : List (List Token)) : Prop where
  flatten : stretches.flatten = tokens
  nonempty : ∀ stretch ∈ stretches, stretch ≠ []
  continued : ∀ stretch ∈ stretches, stretch.IsChain ContinuedBy
  /-- The first token of the next stretch does not continue the last one of a stretch. -/
  longest : stretches.IsChain fun stretch next =>
    ∃ t ∈ stretch.getLast?, ∃ u ∈ next.head?, ¬ t.ContinuedBy u

/-- The token stands for the stretch: it is the piece of the source from the start of the first of its
tokens to the end of the last, in their category. -/
structure StandsFor (source : Text) (stretch : List Token) (t : Token) : Prop where
  category : ∀ u ∈ stretch, u.category = t.category
  start : ∀ u ∈ stretch.head?, u.start = t.start
  stop : ∀ u ∈ stretch.getLast?, u.stop = t.stop
  piece : t.IsPieceOf source

variable {source : Text} {tokens : List Token} {stretches : List (List Token)}

/-- The longest stretches are where the list is split by whether a token continues the one before. -/
theorem isDivision_iff :
    IsDivision tokens stretches ↔ stretches = tokens.splitBy Coalescer.continues := by
  rw [eq_comm, List.splitBy_eq_iff]
  have hcontinued : (fun t u : Token => Coalescer.continues t u = true) = ContinuedBy := by
    funext t u
    exact propext continues_iff_continuedBy
  have hlongest : (fun a b : List Token =>
      ∃ ha hb, Coalescer.continues (a.getLast ha) (b.head hb) = false) =
        fun a b => ∃ t ∈ a.getLast?, ∃ u ∈ b.head?, ¬ t.ContinuedBy u := by
    funext a b
    apply propext
    constructor
    · rintro ⟨ha, hb, hnot⟩
      refine ⟨_, List.getLast_mem_getLast? ha, _, List.head_mem_head? hb, ?_⟩
      rw [← continues_iff_continuedBy, hnot]
      exact Bool.false_ne_true
    · rintro ⟨t, ht, u, hu, hnot⟩
      rw [← continues_iff_continuedBy, Bool.not_eq_true] at hnot
      have ha : a ≠ [] := List.ne_nil_of_mem (List.mem_of_mem_getLast? ht)
      have hb : b ≠ [] := List.ne_nil_of_mem (List.mem_of_mem_head? hu)
      refine ⟨ha, hb, ?_⟩
      rwa [List.getLast_of_mem_getLast? ht, List.head_of_mem_head? hu]
  rw [hcontinued, hlongest]
  constructor
  · rintro ⟨hflatten, hnonempty, hchains, hends⟩
    exact ⟨hflatten.symm, fun hnil => hnonempty [] hnil rfl, hchains, hends⟩
  · rintro ⟨hflatten, hnil, hchains, hends⟩
    refine ⟨hflatten.symm, ?_, hchains, hends⟩
    rintro stretch hstretch rfl
    exact hnil hstretch

/-- A stretch of pieces of the source is merged into one token, which stands for it. -/
theorem exists_merge_stretch {t : Token} {ts : List Token}
    (hchain : (t :: ts).IsChain ContinuedBy)
    (hpieces : ∀ u ∈ t :: ts, u.IsPieceOf source) :
    ∃ v, merge (t :: ts) = [v] ∧ StandsFor source (t :: ts) v := by
  induction ts generalizing t with
  | nil =>
      refine ⟨t, rfl, ?_, ?_, ?_, hpieces t List.mem_cons_self⟩
      · simp
      · simp
      · simp
  | cons u ts ih =>
      obtain ⟨⟨hcategory, hstart⟩, hrest⟩ := List.isChain_cons_cons.1 hchain
      obtain ⟨ht, hu, hts⟩ := by simpa only [List.forall_mem_cons] using hpieces
      -- the first two are joined; the join has the category of both and ends where the second ends
      have hjoined : (t.join u :: ts).IsChain ContinuedBy := by
        cases ts with
        | nil => exact .singleton _
        | cons w ts =>
            obtain ⟨⟨hnext, hmeet⟩, hlater⟩ := List.isChain_cons_cons.1 hrest
            exact .cons_cons ⟨hnext.trans hcategory, hmeet⟩ hlater
      obtain ⟨v, hmerge, hv⟩ := ih hjoined (List.forall_mem_cons.2 ⟨ht.join hu hstart, hts⟩)
      refine ⟨v, ?_, ?_, ?_, ?_, hv.piece⟩
      · rw [merge_cons, merge_cons,
          prepend_prepend_of_continues (continues_iff.2 ⟨hcategory, hstart⟩), ← merge_cons, hmerge]
      · obtain ⟨hown, hlater⟩ := List.forall_mem_cons.1 hv.category
        exact List.forall_mem_cons.2
          ⟨hown, List.forall_mem_cons.2 ⟨hcategory.trans hown, hlater⟩⟩
      · rintro w ⟨⟩
        exact hv.start (t.join u) rfl
      · intro w hw
        cases ts with
        | nil =>
            obtain rfl := Option.some.inj hw
            exact hv.stop (t.join u) rfl
        | cons x ts =>
            rw [List.getLast?_cons_cons, List.getLast?_cons_cons] at hw
            apply hv.stop w
            rwa [List.getLast?_cons_cons]

/-- Merging the tokens gives one token for each stretch. -/
theorem IsDivision.standsFor (h : IsDivision tokens stretches)
    (hpieces : ∀ t ∈ tokens, t.IsPieceOf source) :
    List.Forall₂ (StandsFor source) stretches (merge tokens) := by
  induction stretches generalizing tokens with
  | nil =>
      rw [← h.flatten]
      exact .nil
  | cons stretch stretches ih =>
      obtain ⟨hflatten, hnonempty, hchains, hends⟩ := h
      rw [← hflatten, List.flatten_cons, List.forall_mem_append] at hpieces
      obtain ⟨hne, hothers⟩ := List.forall_mem_cons.1 hnonempty
      obtain ⟨hchain, hlater⟩ := List.forall_mem_cons.1 hchains
      obtain ⟨t, ts, rfl⟩ := List.exists_cons_of_ne_nil hne
      obtain ⟨v, hmerge, hv⟩ := exists_merge_stretch hchain hpieces.1
      have hapart : ∀ a ∈ (t :: ts).getLast?, ∀ u ∈ stretches.flatten.head?,
          ¬ Coalescer.continues a u = true := by
        intro a ha u hu
        cases stretches with
        | nil => cases hu
        | cons next stretches =>
            obtain ⟨a', ha', u', hu', hnot⟩ := (List.isChain_cons_cons.1 hends).1
            obtain ⟨w, ws, rfl⟩ :=
              List.exists_cons_of_ne_nil (hothers next List.mem_cons_self)
            obtain rfl := Option.some.inj (ha'.symm.trans ha)
            obtain rfl := Option.some.inj (hu'.symm.trans hu)
            rwa [continues_iff_continuedBy]
      rw [← hflatten, List.flatten_cons, merge_append hapart, hmerge]
      exact .cons hv (ih ⟨rfl, hothers, hlater, hends.tail⟩ hpieces.2)

/-- Pieces of the source are merged into pieces of it. -/
theorem isPieceOf_of_mem_merge (h : ∀ t ∈ tokens, t.IsPieceOf source) :
    ∀ t ∈ merge tokens, t.IsPieceOf source := by
  induction tokens with
  | nil =>
      intro t ht
      cases ht
  | cons t tokens ih =>
      obtain ⟨ht, htokens⟩ := List.forall_mem_cons.1 h
      have hothers := ih htokens
      rw [merge_cons]
      cases hus : merge tokens with
      | nil => simpa [prepend] using ht
      | cons u us =>
          rw [hus] at hothers
          obtain ⟨hu, hus⟩ := List.forall_mem_cons.1 hothers
          rw [prepend]
          split
          · next hcontinues =>
            exact List.forall_mem_cons.2 ⟨ht.join hu (continues_iff.1 hcontinues).2, hus⟩
          · exact List.forall_mem_cons.2 ⟨ht, hothers⟩

/-- Tokens of which none continues the one before it stay as they are. -/
theorem merge_eq_self (h : tokens.IsChain fun t u => ¬ Coalescer.continues t u = true) :
    merge tokens = tokens := by
  induction tokens with
  | nil => rfl
  | cons t tokens ih =>
      cases tokens with
      | nil => rfl
      | cons u tokens =>
          obtain ⟨hnot, hchain⟩ := List.isChain_cons_cons.1 h
          rw [merge_cons, ih hchain, prepend, if_neg hnot]

end Token

open Token

/-- What a coalescer makes of tokens that fall into the given stretches. -/
structure JoinsStretches (source : Text) (tokens : List Token) (stretches : List (List Token))
    (merged : List Token) : Prop where
  division : IsDivision tokens stretches
  unique : ∀ others, IsDivision tokens others → others = stretches
  /-- No pull fails, and the last one finds the end. -/
  coalesced : ∃ last, drain (Coalescer.start source tokens) = ⟨merged, none, last⟩ ∧ Ended last
  standsFor : List.Forall₂ (StandsFor source) stretches merged
  text : textOf merged = textOf tokens
  separated : merged.IsChain fun t u => ¬ t.ContinuedBy u
  again : (drain (Coalescer.start source merged)).result = .ok merged

/-- Of any pieces of a source, in any order, a coalescer makes one token for each longest stretch. The
text stays the same, no two of these tokens could be joined, and coalescing them again changes
nothing. -/
theorem coalescing_joins_stretches {source : Text} {tokens : List Token}
    (hpieces : ∀ t ∈ tokens, t.IsPieceOf source) :
    ∃ stretches merged, JoinsStretches source tokens stretches merged := by
  have hdivision : IsDivision tokens (tokens.splitBy Coalescer.continues) := isDivision_iff.2 rfl
  have hapart := isChain_merge tokens
  obtain ⟨-, hend⟩ := Coalescer.yields_merge (yields_list tokens) ended_nil hpieces
  have hagain := Coalescer.drain_start_of_pieces (isPieceOf_of_mem_merge hpieces)
  rw [merge_eq_self hapart] at hagain
  refine ⟨tokens.splitBy Coalescer.continues, merge tokens, ?_⟩
  exact {
    division := hdivision
    unique := fun _ hother => isDivision_iff.1 hother
    coalesced := ⟨_, Coalescer.drain_start_of_pieces hpieces, hend⟩
    standsFor := hdivision.standsFor hpieces
    text := textOf_merge tokens
    separated := hapart.imp fun t u hnot => by rwa [← continues_iff_continuedBy]
    again := by rw [hagain]; rfl }

/-- Three tokens that are joined, an empty one among them, and one that goes back to the beginning. -/
theorem coalescing_joins_stretches_overlap :
    ∃ tokens : List Token, (∀ t ∈ tokens, t.IsPieceOf "aab".toList) ∧
      ∃ stretches merged, JoinsStretches "aab".toList tokens stretches merged ∧
        stretches.map List.length = [3, 1] ∧ merged.map Token.stop = [2, 3] := by
  let tokens : List Token := [⟨.identifier, ['a'], 0, 1⟩, ⟨.identifier, [], 1, 1⟩,
    ⟨.identifier, ['a'], 1, 2⟩, ⟨.identifier, ['a', 'a', 'b'], 0, 3⟩]
  have hpieces : ∀ t ∈ tokens, t.IsPieceOf "aab".toList := by
    unfold IsPieceOf
    decide +kernel
  obtain ⟨stretches, merged, hjoins⟩ := coalescing_joins_stretches hpieces
  refine ⟨tokens, hpieces, stretches, merged, hjoins, ?_, ?_⟩
  · rw [isDivision_iff.1 hjoins.division]
    decide +kernel
  · obtain ⟨last, hdrain, -⟩ := hjoins.coalesced
    have hstops : (drain (Coalescer.start "aab".toList tokens)).tokens.map Token.stop = [2, 3] := by
      decide +kernel
    rwa [hdrain] at hstops

end JsoniqLexer

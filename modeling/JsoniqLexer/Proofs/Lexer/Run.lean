import JsoniqLexer.Lexer.Stream

/-!
# Runs of a stream

A run takes tokens from a stream one after the other (`Yields`). A stream has ended when it gives no
token and stays as it is. Draining a stream is a run up to its end (`drain_of_yields`), all runs of a
stream that ends are beginnings of one run (`Yields.exists_append`), and calls of `next`, past the end
too, follow that run (`gives_of_yields`).
-/

set_option autoImplicit false

namespace JsoniqLexer.TokenStream

variable {σ : Type} [TokenStream σ]

/-- From the first stream the tokens can be taken in turn, and the second stream is left. -/
inductive Yields : σ → List Token → σ → Prop
  | nil (s : σ) : Yields s [] s
  | cons {s s' s'' : σ} {t : Token} {ts : List Token} :
      next s = (.ok (some t), s') → Yields s' ts s'' → Yields s (t :: ts) s''

/-- The stream gives no token and does not change. -/
def Ended (s : σ) : Prop := next s = (.ok none, s)

theorem Yields.single {s s' : σ} {t : Token} (h : next s = (.ok (some t), s')) : Yields s [t] s' :=
  .cons h (.nil s')

theorem Yields.append {s s' s'' : σ} {ts us : List Token} (h : Yields s ts s')
    (h' : Yields s' us s'') : Yields s (ts ++ us) s'' := by
  induction h with
  | nil s => exact h'
  | cons hnext _ ih => exact .cons hnext (ih h')

theorem yields_nil_iff {s s' : σ} : Yields s [] s' ↔ s' = s := by
  constructor
  · rintro ⟨⟩
    rfl
  · rintro rfl
    exact .nil _

theorem yields_cons_iff {s s'' : σ} {t : Token} {ts : List Token} :
    Yields s (t :: ts) s'' ↔ ∃ s', next s = (.ok (some t), s') ∧ Yields s' ts s'' := by
  constructor
  · rintro ⟨⟩
    next s' hnext hrest => exact ⟨s', hnext, hrest⟩
  · rintro ⟨s', hnext, hrest⟩
    exact .cons hnext hrest

/-- What every token of a run preserves holds after the run. -/
theorem Yields.preserves {p : σ → Prop}
    (hstep : ∀ {s s' : σ} {t : Token}, p s → next s = (.ok (some t), s') → p s') {s s' : σ}
    {ts : List Token} (h : Yields s ts s') (hs : p s) : p s' := by
  induction h with
  | nil s => exact hs
  | cons hnext _ ih => exact ih (hstep hs hnext)

/-- What every token of a run preserves, said of the stream and of the tokens so far, holds after the
run. -/
theorem Yields.preserves_concat {p : List Token → σ → Prop}
    (hstep : ∀ {ts : List Token} {s s' : σ} {t : Token}, p ts s → next s = (.ok (some t), s') →
      p (ts ++ [t]) s') {s s' : σ} {ts us : List Token} (h : Yields s us s') (hs : p ts s) :
    p (ts ++ us) s' := by
  induction h generalizing ts with
  | nil s => rwa [List.append_nil]
  | cons hnext _ ih =>
      rw [List.append_cons]
      exact ih (hstep hs hnext)

/-- A stream that goes along with another, token by token, goes along with its runs. -/
theorem Yields.exists_of_simulates {τ : Type} [TokenStream τ] {R : σ → τ → Prop}
    {f : Token → Token}
    (hstep : ∀ {s s' : σ} {u : τ} {t : Token}, R s u → next s = (.ok (some t), s') →
      ∃ u', next u = (.ok (some (f t)), u') ∧ R s' u')
    {s s' : σ} {u : τ} {ts : List Token} (hs : R s u) (h : Yields s ts s') :
    ∃ u', Yields u (ts.map f) u' ∧ R s' u' := by
  induction h generalizing u with
  | nil s => exact ⟨u, .nil u, hs⟩
  | cons hnext _ ih =>
      obtain ⟨v, hv, hR⟩ := hstep hs hnext
      obtain ⟨u', hyields, hu'⟩ := ih hR
      exact ⟨u', .cons hv hyields, hu'⟩

/-- Every token of a run has used up some of the supply. -/
theorem Yields.length_add_supply_le {s s' : σ} {ts : List Token} (h : Yields s ts s') :
    ts.length + supply s' ≤ supply s := by
  induction h with
  | nil s => simp
  | cons hnext _ ih =>
      have hlt := supply_lt hnext
      rw [List.length_cons]
      omega

/-- A run in two parts passes through a stream between them. -/
theorem Yields.exists_of_append {s s'' : σ} {ts us : List Token} (h : Yields s (ts ++ us) s'') :
    ∃ s', Yields s ts s' ∧ Yields s' us s'' := by
  induction ts generalizing s with
  | nil => exact ⟨s, .nil s, h⟩
  | cons t ts ih =>
      obtain ⟨m, hnext, hrest⟩ := yields_cons_iff.1 h
      obtain ⟨s', hts, hus⟩ := ih hrest
      exact ⟨s', .cons hnext hts, hus⟩

/-- The run up to the end of a stream goes on every other run. -/
theorem Yields.exists_append {s m e : σ} {ts all : List Token} (h : Yields s ts m)
    (hall : Yields s all e) (hend : Ended e) : ∃ later, all = ts ++ later ∧ Yields m later e := by
  induction h generalizing all with
  | nil s => exact ⟨all, rfl, hall⟩
  -- the stream decides what its first token is, so both runs begin alike
  | @cons s s' m t ts hnext _ ih =>
      cases all with
      | nil =>
          obtain rfl := yields_nil_iff.1 hall
          rw [Ended, hnext] at hend
          cases hend
      | cons u all =>
          obtain ⟨s'', hnext', hrest⟩ := yields_cons_iff.1 hall
          rw [hnext] at hnext'
          cases hnext'
          obtain ⟨later, rfl, hlater⟩ := ih hrest
          exact ⟨later, rfl, hlater⟩

/-- A stream that has ended gives nothing more. -/
theorem Yields.eq_nil_of_ended {s s' : σ} {ts : List Token} (h : Yields s ts s') (hend : Ended s) :
    ts = [] ∧ s' = s := by
  cases h with
  | nil => exact ⟨rfl, rfl⟩
  | cons hnext _ =>
      rw [Ended, hnext] at hend
      cases hend

/-- There is one run to the end. -/
theorem Yields.eq_of_ended {s e e' : σ} {ts us : List Token} (h : Yields s ts e) (hend : Ended e)
    (h' : Yields s us e') (hend' : Ended e') : us = ts ∧ e' = e := by
  obtain ⟨later, rfl, hlater⟩ := h.exists_append h' hend'
  obtain ⟨rfl, rfl⟩ := hlater.eq_nil_of_ended hend
  exact ⟨List.append_nil ts, rfl⟩

/-- More pulls than there are tokens find the end. -/
theorem take_of_yields {s e : σ} {ts : List Token} (h : Yields s ts e) (hend : Ended e) {n : Nat}
    (hlt : ts.length < n) : take n s = ⟨ts, none, e⟩ := by
  induction h generalizing n with
  | nil s =>
      obtain ⟨n, rfl⟩ : ∃ m, n = m + 1 := ⟨n - 1, by omega⟩
      rw [Ended] at hend
      rw [take, hend]
  | cons hnext _ ih =>
      obtain ⟨n, rfl⟩ : ∃ m, n = m + 1 := ⟨n - 1, by omega⟩
      rw [take, hnext]
      simp only
      rw [ih hend (by simpa using hlt)]

/-- Draining a stream is a run up to its end. -/
theorem drain_of_yields {s e : σ} {ts : List Token} (h : Yields s ts e) (hend : Ended e) :
    drain s = ⟨ts, none, e⟩ := by
  have hle := h.length_add_supply_le
  exact take_of_yields h hend (by omega)

theorem result_drain_of_yields {s e : σ} {ts : List Token} (h : Yields s ts e) (hend : Ended e) :
    (drain s).result = .ok ts := by
  rw [drain_of_yields h hend]
  rfl

/-- A stream that never gets stuck, in a way that its tokens preserve, has a run up to its end. -/
theorem exists_yields_ended {p : σ → Prop}
    (hstep : ∀ {s : σ}, p s → Ended s ∨ ∃ t s', next s = (.ok (some t), s') ∧ p s') {s : σ}
    (hs : p s) : ∃ ts e, Yields s ts e ∧ Ended e := by
  obtain ⟨n, hn⟩ : ∃ n, supply s = n := ⟨_, rfl⟩
  induction n using Nat.strongRecOn generalizing s with
  -- every token uses up some of the supply, so the end comes
  | ind n ih =>
      rcases hstep hs with hend | ⟨t, s', hnext, hs'⟩
      · exact ⟨[], s, .nil s, hend⟩
      · obtain ⟨ts, e, hts, hend⟩ := ih (supply s') (hn ▸ supply_lt hnext) hs' rfl
        exact ⟨t :: ts, e, .cons hnext hts, hend⟩

/-- The answers to `n` calls of `next`, whatever they are, and the stream afterwards. -/
def pulls : (n : Nat) → σ → List Pull × σ
  | 0, s => ([], s)
  | n + 1, s => ((next s).1 :: (pulls n (next s).2).1, (pulls n (next s).2).2)

/-- A stream that has ended answers every call in the same way. -/
theorem pulls_of_ended {s : σ} (hend : Ended s) (n : Nat) :
    pulls n s = (List.replicate n (.ok none), s) := by
  rw [Ended] at hend
  induction n with
  | zero => rfl
  | succ n ih => rw [pulls, hend, ih, List.replicate_succ]

/-- Calls of `next` follow the run up to the end and pass over the tokens in turn; past the end there
is none. -/
theorem pulls_of_yields {s e : σ} {ts : List Token} (h : Yields s ts e) (hend : Ended e) (n : Nat) :
    (pulls n s).1 = (List.range n).map (fun i => .ok ts[i]?) ∧
      Yields (pulls n s).2 (ts.drop n) e := by
  induction n generalizing s ts with
  | zero => exact ⟨rfl, h⟩
  | succ n ih =>
      cases h with
      | nil =>
          rw [pulls_of_ended hend, List.drop_nil]
          refine ⟨?_, .nil e⟩
          simp only [List.getElem?_nil, List.map_const', List.length_range]
      | @cons _ s' _ t ts hnext hrest =>
          obtain ⟨hanswers, hlater⟩ := ih hrest
          rw [pulls, hnext]
          refine ⟨?_, hlater⟩
          rw [hanswers, List.range_succ_eq_map, List.map_cons, List.map_map]
          rfl

/-- The stream answers call after call with these tokens, and then that there is none. -/
structure Gives (s : σ) (ts : List Token) : Prop where
  answers : ∀ n, (pulls n s).1 = (List.range n).map fun i => .ok ts[i]?
  /-- Wherever the calls stop, the stream as it is then gives the tokens that are left. -/
  resumed : ∀ n, (drain (pulls n s).2).result = .ok (ts.drop n)
  /-- After one answer that there is none, no other answer comes. -/
  fused : ∀ {n : Nat} {s' : σ}, next (pulls n s).2 = (.ok none, s') →
    ∀ m, (pulls m s').1 = List.replicate m (.ok none)

theorem gives_of_yields {s e : σ} {ts : List Token} (h : Yields s ts e) (hend : Ended e) :
    Gives s ts := by
  constructor
  · exact fun n => (pulls_of_yields h hend n).1
  · exact fun n => result_drain_of_yields (pulls_of_yields h hend n).2 hend
  · intro n s' hnone m
    -- a stream that answers so has no token left, so it has ended
    obtain ⟨-, hlater⟩ := pulls_of_yields h hend n
    cases hdrop : ts.drop n with
    | nil =>
        rw [hdrop, yields_nil_iff] at hlater
        have hnext : next e = (.ok none, s') := hlater ▸ hnone
        rw [Ended, hnext] at hend
        obtain ⟨-, rfl⟩ := Prod.mk.inj hend
        rw [pulls_of_ended hnext]
    | cons t later =>
        rw [hdrop, yields_cons_iff] at hlater
        obtain ⟨m', hnext, -⟩ := hlater
        rw [hnext] at hnone
        cases hnone

/-- A list gives its members and ends. -/
theorem yields_list (ts : List Token) : Yields ts ts ([] : List Token) := by
  induction ts with
  | nil => exact .nil []
  | cons t ts ih => exact .cons rfl ih

theorem ended_nil : Ended ([] : List Token) := rfl

end JsoniqLexer.TokenStream

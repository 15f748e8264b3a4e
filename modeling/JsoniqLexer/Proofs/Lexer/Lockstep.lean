import Mathlib.Data.List.Forall2
import JsoniqLexer.Proofs.Lexer.Run

/-!
# Streams in lockstep

Two streams are in lockstep where each answers what the other answers: a token for a token, the end
for the end, a fault for a fault (`Answers`), and goes on in lockstep. What is taken from them then
corresponds, however often they are pulled (`Lockstep.take`).
-/

set_option autoImplicit false

namespace JsoniqLexer.TokenStream

variable {σ τ : Type} [TokenStream σ] [TokenStream τ]

/-- Two answers of one kind, with related tokens or related faults. -/
inductive Answers (T : Token → Token → Prop) (F : Fault → Fault → Prop) : Pull → Pull → Prop
  | token {t u : Token} : T t u → Answers T F (.ok (some t)) (.ok (some u))
  | ended : Answers T F (.ok none) (.ok none)
  | fault {f g : Fault} : F f g → Answers T F (.error f) (.error g)

/-- Related streams answer each other, and are related afterwards. -/
def Lockstep (R : σ → τ → Prop) (T : Token → Token → Prop) (F : Fault → Fault → Prop) : Prop :=
  ∀ (s : σ) (u : τ), R s u → Answers T F (next s).1 (next u).1 ∧ R (next s).2 (next u).2

/-- What was taken from related streams: related tokens, no fault or related faults, and related
streams. -/
structure Taken.Corresponds (R : σ → τ → Prop) (T : Token → Token → Prop)
    (F : Fault → Fault → Prop) (a : Taken σ) (b : Taken τ) : Prop where
  tokens : List.Forall₂ T a.tokens b.tokens
  fault : Option.Rel F a.fault b.fault
  rest : R a.rest b.rest

variable {R : σ → τ → Prop} {T : Token → Token → Prop} {F : Fault → Fault → Prop}

omit [TokenStream σ] [TokenStream τ] in
/-- Where the tokens are related by a function, the second tokens are its values. -/
theorem Taken.Corresponds.tokens_eq_map {f : Token → Token} {a : Taken σ} {b : Taken τ}
    (h : a.Corresponds R (fun t u => f t = u) F b) : b.tokens = a.tokens.map f := by
  have hsame : List.Forall₂ (· = ·) (a.tokens.map f) b.tokens := by
    rw [List.forall₂_map_left_iff]
    exact h.tokens
  rw [List.forall₂_eq_eq_eq] at hsame
  exact hsame.symm

omit [TokenStream σ] [TokenStream τ] in
/-- Where a function has the same values at related tokens, its values are the same. -/
theorem Taken.Corresponds.map_tokens_eq {α : Type} {f : Token → α} {a : Taken σ} {b : Taken τ}
    (h : a.Corresponds R (fun t u => f t = f u) F b) : b.tokens.map f = a.tokens.map f := by
  have hsame : List.Forall₂ (· = ·) (a.tokens.map f) (b.tokens.map f) := by
    rw [List.forall₂_map_left_iff, List.forall₂_map_right_iff]
    exact h.tokens
  rw [List.forall₂_eq_eq_eq] at hsame
  exact hsame.symm

omit [TokenStream σ] [TokenStream τ] in
/-- Neither has a fault, or both have one and the faults are related. -/
theorem Taken.Corresponds.fault_cases {a : Taken σ} {b : Taken τ} (h : a.Corresponds R T F b) :
    (a.fault = none ∧ b.fault = none) ∨
      ∃ f g, a.fault = some f ∧ b.fault = some g ∧ F f g := by
  have hfault := h.fault
  generalize a.fault = first at hfault ⊢
  generalize b.fault = second at hfault ⊢
  cases hfault with
  | none => exact .inl ⟨rfl, rfl⟩
  | some hfault => exact .inr ⟨_, _, rfl, rfl, hfault⟩

/-- What is taken from streams in lockstep corresponds, after any number of pulls. -/
theorem Lockstep.take (h : Lockstep R T F) {s : σ} {u : τ} (hsu : R s u) (n : Nat) :
    (take n s).Corresponds R T F (take n u) := by
  induction n generalizing s u with
  | zero => exact ⟨.nil, .none, hsu⟩
  | succ n ih =>
      obtain ⟨hanswers, hrest⟩ := h s u hsu
      rw [TokenStream.take, TokenStream.take]
      cases hs : next s with
      | mk p s' =>
      cases hu : next u with
      | mk q u' =>
      rw [hs, hu] at hanswers hrest
      cases hanswers with
      | token htoken =>
          have hlater := ih hrest
          exact ⟨.cons htoken hlater.tokens, hlater.fault, hlater.rest⟩
      | ended => exact ⟨.nil, .none, hrest⟩
      | fault hfault => exact ⟨.nil, .some hfault, hrest⟩

end JsoniqLexer.TokenStream

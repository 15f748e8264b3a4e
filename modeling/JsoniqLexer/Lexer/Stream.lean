import JsoniqLexer.Lexer.Fault
import JsoniqLexer.Lexer.Token

/-!
# Streams of tokens

A stream gives one token at a time, or says that there is none, or that something went wrong; each
time it gives itself back as it is afterwards. Every token uses up some of a finite supply, so a
stream can be drained.
-/

set_option autoImplicit false

namespace JsoniqLexer

/-- What a stream answers: a token, the end, or a fault. -/
abbrev Pull := Except Fault (Option Token)

/-- A type whose values give tokens one at a time. -/
class TokenStream (σ : Type) where
  /-- The next token, and the stream after it. -/
  next : σ → Pull × σ
  /-- A bound on the number of tokens still to come. -/
  supply : σ → Nat
  /-- The supply never grows. -/
  supply_le : ∀ {s s' : σ} {p : Pull}, next s = (p, s') → supply s' ≤ supply s
  /-- Every token uses up some of the supply. -/
  supply_lt : ∀ {s s' : σ} {t : Token}, next s = (.ok (some t), s') → supply s' < supply s

namespace TokenStream

variable {σ : Type} [TokenStream σ]

/-- The result of taking tokens: those that came, the fault that stopped it if there was one, and
the stream afterwards. -/
structure Taken (σ : Type) where
  tokens : List Token
  fault : Option Fault
  rest : σ

/-- Takes at most `n` tokens. -/
def take : (n : Nat) → σ → Taken σ
  | 0, s => ⟨[], none, s⟩
  | n + 1, s =>
      match next s with
      | (.error f, s') => ⟨[], some f, s'⟩
      | (.ok none, s') => ⟨[], none, s'⟩
      | (.ok (some t), s') =>
          let later := take n s'
          ⟨t :: later.tokens, later.fault, later.rest⟩

/-- Takes every token; one pull more than the supply finds the end or the fault. -/
def drain (s : σ) : Taken σ := take (supply s + 1) s

/-- Passes over `n` tokens and gives the one after them; stops early at the end or at a fault. -/
def nth : (n : Nat) → σ → Pull × σ
  | 0, s => next s
  | n + 1, s =>
      match next s with
      | (.ok (some _), s') => nth n s'
      | stopped => stopped

/-- The tokens that were taken, or the fault that stopped it. -/
def Taken.result (taken : Taken σ) : Except Fault (List Token) :=
  match taken.fault with
  | some f => .error f
  | none => .ok taken.tokens

end TokenStream

/-- A list of tokens gives its members in order. -/
instance : TokenStream (List Token) where
  next
    | [] => (.ok none, [])
    | t :: ts => (.ok (some t), ts)
  supply := List.length
  supply_le := by
    intro s s' p h
    cases s with
    | nil =>
        simp only [Prod.mk.injEq] at h
        exact h.2 ▸ Nat.le_refl _
    | cons a s =>
        simp only [Prod.mk.injEq] at h
        rw [← h.2]
        simp
  supply_lt := by
    intro s s' t h
    cases s with
    | nil => simp at h
    | cons a s =>
        simp only [Prod.mk.injEq] at h
        rw [← h.2]
        simp

end JsoniqLexer

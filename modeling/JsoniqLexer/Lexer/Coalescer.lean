import JsoniqLexer.Lexer.Basic

/-!
# Merging neighbours

A coalescer reads a stream of tokens and joins those of one category that follow each other without
a gap. It holds the one token that it had to read ahead. The lexeme of a joined token is taken from
the source again, which fails where the tokens do not belong to it.
-/

set_option autoImplicit false

namespace JsoniqLexer

/-- A stream of tokens of a source, and the token read ahead. -/
structure Coalescer (σ : Type) where
  source : Text
  inner : σ
  pending : Option Token

namespace Coalescer

open TokenStream

variable {σ : Type} [TokenStream σ]

/-- A coalescer that has read nothing. -/
def start (source : Text) (inner : σ) : Coalescer σ := ⟨source, inner, none⟩

/-- `b` continues `a`: it has the same category and begins where `a` ends. -/
def continues (a b : Token) : Bool := b.category = a.category && b.start = a.stop

/-- The number of tokens still to come at most. -/
def supply (c : Coalescer σ) : Nat := TokenStream.supply c.inner + (if c.pending.isSome then 1 else 0)

/-- Joins to `current` what continues it. -/
def absorb (source : Text) (current : Token) (inner : σ) : Pull × Coalescer σ :=
  match _h : next inner with
  | (.error f, inner') => (.error f, ⟨source, inner', none⟩)
  | (.ok none, inner') => (.ok (some current), ⟨source, inner', none⟩)
  | (.ok (some t), inner') =>
      if continues current t then
        match source.slice? current.start t.stop with
        | none => (.error .badSlice, ⟨source, inner', none⟩)
        | some lexeme => absorb source (.ofLexeme current.category lexeme current.start) inner'
      else (.ok (some current), ⟨source, inner', some t⟩)
termination_by TokenStream.supply inner
decreasing_by exact supply_lt _h

/-- The next joined token. -/
def pull (c : Coalescer σ) : Pull × Coalescer σ :=
  match c.pending with
  | some t => absorb c.source t c.inner
  | none =>
      match next c.inner with
      | (.error f, inner) => (.error f, { c with inner })
      | (.ok none, inner) => (.ok none, { c with inner })
      | (.ok (some t), inner) => absorb c.source t inner

theorem supply_absorb_le (source : Text) (current : Token) (inner : σ) :
    supply (absorb source current inner).2 ≤ TokenStream.supply inner := by
  fun_induction absorb source current inner with
  | case1 current inner f inner' h => exact supply_le h
  | case2 current inner inner' h => exact supply_le h
  | case3 current inner t inner' h hcontinues hslice =>
      exact supply_le h
  | case4 current inner t inner' h hcontinues lexeme hslice ih =>
      exact Nat.le_trans ih (supply_le h)
  | case5 current inner t inner' h hcontinues => exact supply_lt h

theorem supply_pull_le (c : Coalescer σ) : supply c.pull.2 ≤ supply c := by
  rw [pull]
  split
  · next t hpending =>
    have := supply_absorb_le c.source t c.inner
    simp only [supply] at this ⊢
    omega
  · next hpending =>
    have hsupply : supply c = TokenStream.supply c.inner := by simp [supply, hpending]
    split
    · next f inner h => simpa [supply, hpending] using supply_le h
    · next inner h => simpa [supply, hpending] using supply_le h
    · next t inner h =>
      have := supply_absorb_le c.source t inner
      have := supply_lt h
      omega

theorem supply_pull_lt {c c' : Coalescer σ} {t : Token} (h : c.pull = (.ok (some t), c')) :
    supply c' < supply c := by
  rw [pull] at h
  split at h
  · next first hpending =>
    have hle := supply_absorb_le c.source first c.inner
    rw [h] at hle
    simp only [supply, hpending, Option.isSome_some, if_true] at hle ⊢
    omega
  · next hpending =>
    have hsupply : supply c = TokenStream.supply c.inner := by simp [supply, hpending]
    split at h
    · cases h
    · cases h
    · next first inner hnext =>
      have hle := supply_absorb_le c.source first inner
      rw [h] at hle
      exact hsupply ▸ Nat.lt_of_le_of_lt hle (supply_lt hnext)

instance : TokenStream (Coalescer σ) where
  next := pull
  supply := supply
  supply_le := by
    intro c c' p h
    have := supply_pull_le c
    rw [h] at this
    exact this
  supply_lt := supply_pull_lt

end Coalescer

/-- The tokens of a lexer, neighbours merged. -/
def Lexer.coalesce (l : Lexer) : Coalescer Lexer := .start l.cursor.source l

end JsoniqLexer

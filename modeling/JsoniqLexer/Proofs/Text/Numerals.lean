import Mathlib.Data.Nat.Basic
import JsoniqLexer.Proofs.Text.Beginnings

/-!
# Reading numerals

A numeral is a run of digits, and is read in a base of up to sixteen (`readNumeral?`). Where no digit
follows, what `Nat.toDigits` writes is read as the number that it was written for
(`readNumeral?_toDigits`).
-/

set_option autoImplicit false

namespace JsoniqLexer.Text

/-- The value of a digit, letters in either case; sixteen for what is no digit in any base. -/
def digitValue (c : Char) : Nat := "0123456789abcdef".toList.idxOf c.toLower

/-- The character is a digit in the base. -/
def isDigitOf (base : Nat) (c : Char) : Bool := decide (digitValue c < base)

/-- The number that a run of digits stands for. -/
def numeralValue (base : Nat) (digits : Text) : Nat :=
  digits.foldl (fun n c => base * n + digitValue c) 0

/-- The number at the beginning of a text, all digits there are taken, and what follows it. -/
def readNumeral? (base : Nat) (text : Text) : Option (Nat × Text) :=
  if text.takeWhile (isDigitOf base) = [] then none
  else some (numeralValue base (text.takeWhile (isDigitOf base)), text.dropWhile (isDigitOf base))

example : readNumeral? 16 "1fg".toList = some (31, ['g']) := by decide

theorem digitValue_digitChar {n : Nat} (h : n < 16) : digitValue n.digitChar = n := by
  have hall : ∀ n < 16, digitValue (Nat.digitChar n) = n := by decide
  exact hall n h

theorem length_lt_of_readNumeral? {base n : Nat} {text rest : Text}
    (h : readNumeral? base text = some (n, rest)) : rest.length < text.length := by
  rw [readNumeral?] at h
  split at h
  · cases h
  · next hne =>
    cases h
    have hparts : text.takeWhile (isDigitOf base) ++ text.dropWhile (isDigitOf base) = text :=
      List.takeWhile_append_dropWhile
    have hlength := congrArg List.length hparts
    rw [List.length_append] at hlength
    have hpos := List.length_pos_iff.2 hne
    omega

section

variable {base : Nat} (hlow : 1 < base) (hhigh : base ≤ 16)
include hlow hhigh

theorem isDigitOf_of_mem_toDigits {n : Nat} {c : Char} (h : c ∈ Nat.toDigits base n) :
    isDigitOf base c = true := by
  have hdigit {d : Nat} (hd : d < base) : isDigitOf base d.digitChar = true := by
    rw [isDigitOf, digitValue_digitChar (Nat.lt_of_lt_of_le hd hhigh)]
    exact decide_eq_true hd
  induction n using Nat.strongRecOn with
  | ind n ih =>
      rw [Nat.toDigits_eq_if hlow] at h
      split at h
      · next hn =>
        rw [List.mem_singleton.1 h]
        exact hdigit hn
      · next hn =>
        rcases List.mem_append.1 h with h | h
        · exact ih (n / base) (Nat.div_lt_self (by omega) hlow) h
        · rw [List.mem_singleton.1 h]
          exact hdigit (Nat.mod_lt n (by omega))

theorem newline_not_mem_toDigits (n : Nat) : '\n' ∉ Nat.toDigits base n := by
  intro hmem
  have hdigit := isDigitOf_of_mem_toDigits hlow hhigh hmem
  have hvalue : digitValue '\n' = 16 := by decide
  rw [isDigitOf, hvalue, decide_eq_true_eq] at hdigit
  omega

theorem numeralValue_toDigits (n : Nat) : numeralValue base (Nat.toDigits base n) = n := by
  induction n using Nat.strongRecOn with
  | ind n ih =>
      rw [Nat.toDigits_eq_if hlow]
      split
      · next hn =>
        rw [numeralValue, List.foldl_cons, List.foldl_nil, Nat.mul_zero, Nat.zero_add]
        exact digitValue_digitChar (by omega)
      -- the last digit is what is left over, the others are the quotient
      · next hn =>
        have hquotient := ih (n / base) (Nat.div_lt_self (by omega) hlow)
        have hdigit : n % base < 16 := Nat.lt_of_lt_of_le (Nat.mod_lt n (by omega)) hhigh
        rw [numeralValue] at hquotient ⊢
        rw [List.foldl_append, hquotient, List.foldl_cons, List.foldl_nil,
          digitValue_digitChar hdigit]
        exact Nat.div_add_mod n base

/-- A number is read back where no digit follows it. -/
theorem readNumeral?_toDigits {n : Nat} {rest : Text}
    (hrest : ∀ c ∈ rest.head?, isDigitOf base c = false) :
    readNumeral? base (Nat.toDigits base n ++ rest) = some (n, rest) := by
  have hdigits : ∀ c ∈ Nat.toDigits base n, isDigitOf base c = true := by
    intro c hc
    exact isDigitOf_of_mem_toDigits hlow hhigh hc
  rw [readNumeral?, takeWhile_run hdigits hrest, dropWhile_run hdigits hrest,
    if_neg Nat.toDigits_ne_nil, numeralValue_toDigits hlow hhigh]

end

end JsoniqLexer.Text

import Mathlib.Logic.Equiv.Basic
import JsoniqLexer.Proofs.Pattern.Extent
import JsoniqLexer.Proofs.Text.Offsets

/-!
# Expressions that do not tell characters apart

An expression that asserts nothing confuses two characters where each of its sets holds both of them or
neither (`Regex.confuses`). If it confuses whatever characters a relation relates, it matches with a text
every text that is related to it character by character (`Regex.matches_of_forall₂`). The relation may be
that of a character to the one that it is exchanged for (`Regex.confuses_swap`).
-/

set_option autoImplicit false

namespace JsoniqLexer.Pattern

/-- With a text, what is related to it is read, in any surroundings. -/
def Reading.Respects (R : Reading) (ρ : Char → Char → Prop) : Prop :=
  ∀ ⦃before before' : Option Char⦄ ⦃x x' rest rest' : Text⦄,
    List.Forall₂ ρ x x' → R before x rest → R before' x' rest'

theorem Reading.Respects.copies {R : Reading} {ρ : Char → Char → Prop} (h : R.Respects ρ) (n : Nat) :
    (R.copies n).Respects ρ := by
  induction n with
  | zero =>
      intro before before' x x' rest rest' hrelated hx
      obtain rfl : x = [] := hx
      exact List.forall₂_nil_left_iff.1 hrelated
  | succ n ih =>
      rintro before before' _ x' rest rest' hrelated ⟨y, z, rfl, hy, hz⟩
      obtain ⟨y', z', rfl, hyy, hzz⟩ := Text.exists_of_forall₂_append hrelated
      exact ⟨y', z', rfl, h hyy hy, ih hzz hz⟩

/-- A set with both of two characters, or with neither, holds a character if it holds the one that it
is exchanged for. -/
theorem CharSet.contains_swap {set : CharSet} {a b : Char} (h : set.contains a = set.contains b)
    (c : Char) : set.contains (Equiv.swap a b c) = set.contains c := by
  by_cases ha : c = a
  · rw [ha, Equiv.swap_apply_left, h]
  by_cases hb : c = b
  · rw [hb, Equiv.swap_apply_right, h]
  · rw [Equiv.swap_apply_of_ne_of_ne ha hb]

namespace Regex

/-- The expression asserts nothing, and each of its sets holds both characters or neither. -/
def confuses (a b : Char) : Regex → Bool
  | .empty => true
  | .char set => set.contains a == set.contains b
  | .look _ => false
  | .seq first second | .alt first second => first.confuses a b && second.confuses a b
  | .plus body _ | .star body _ => body.confuses a b

theorem confuses_self {r : Regex} (hplain : r.isPlain = true) (c : Char) :
    r.confuses c c = true := by
  induction r with
  | empty => rfl
  | char set => simp [confuses]
  | look assertion => cases hplain
  | seq a b iha ihb | alt a b iha ihb =>
      obtain ⟨ha, hb⟩ := Bool.and_eq_true_iff.1 hplain
      simp [confuses, iha ha, ihb hb]
  | plus body greedy ih | star body greedy ih => exact ih hplain

theorem confuses_comm (r : Regex) (a b : Char) : r.confuses a b = r.confuses b a := by
  induction r with
  | empty => rfl
  | char set => exact Bool.beq_comm
  | look assertion => rfl
  | seq first second ihf ihs | alt first second ihf ihs => rw [confuses, confuses, ihf, ihs]
  | plus body greedy ih | star body greedy ih => exact ih

/-- An expression that confuses two characters confuses each character with the one that it is
exchanged for. -/
theorem confuses_swap {r : Regex} {a b : Char} (h : r.confuses a b = true) (c : Char) :
    r.confuses c (Equiv.swap a b c) = true := by
  induction r with
  | empty => rfl
  | char set =>
      have hset : set.contains a = set.contains b := by simpa [confuses] using h
      simp [confuses, CharSet.contains_swap hset]
  | look assertion => cases h
  | seq first second ihf ihs | alt first second ihf ihs =>
      obtain ⟨hfirst, hsecond⟩ := Bool.and_eq_true_iff.1 h
      simp [confuses, ihf hfirst, ihs hsecond]
  | plus body greedy ih | star body greedy ih => exact ih h

/-- An expression that confuses related characters matches related texts alike. -/
theorem matches_of_forall₂ {r : Regex} {ρ : Char → Char → Prop}
    (h : ∀ c d, ρ c d → r.confuses c d = true) (hplain : r.isPlain = true) :
    r.Matches.Respects ρ := by
  induction r with
  | empty =>
      intro before before' x x' rest rest' hrelated hx
      obtain rfl : x = [] := hx
      exact List.forall₂_nil_left_iff.1 hrelated
  | char set =>
      rintro before before' _ x' rest rest' hrelated ⟨c, rfl, hc⟩
      obtain ⟨d, tail, hcd, htail, rfl⟩ := List.forall₂_cons_left_iff.1 hrelated
      obtain rfl := List.forall₂_nil_left_iff.1 htail
      have hsame : set.contains c = set.contains d := by simpa [confuses] using h c d hcd
      exact ⟨d, rfl, hsame ▸ hc⟩
  | look assertion => cases hplain
  | seq first second ihf ihs =>
      obtain ⟨hpf, hps⟩ := Bool.and_eq_true_iff.1 hplain
      have hfirst := ihf (fun c d hcd => (Bool.and_eq_true_iff.1 (h c d hcd)).1) hpf
      have hsecond := ihs (fun c d hcd => (Bool.and_eq_true_iff.1 (h c d hcd)).2) hps
      rintro before before' _ x' rest rest' hrelated ⟨y, z, rfl, hy, hz⟩
      obtain ⟨y', z', rfl, hyy, hzz⟩ := Text.exists_of_forall₂_append hrelated
      exact ⟨y', z', rfl, hfirst hyy hy, hsecond hzz hz⟩
  | alt preferred other ihp iho =>
      obtain ⟨hpp, hpo⟩ := Bool.and_eq_true_iff.1 hplain
      have hpreferred := ihp (fun c d hcd => (Bool.and_eq_true_iff.1 (h c d hcd)).1) hpp
      have hother := iho (fun c d hcd => (Bool.and_eq_true_iff.1 (h c d hcd)).2) hpo
      rintro before before' x x' rest rest' hrelated (hx | hx)
      · exact .inl (hpreferred hrelated hx)
      · exact .inr (hother hrelated hx)
  | plus body greedy ih | star body greedy ih =>
      rintro before before' x x' rest rest' hrelated ⟨n, hn, hx⟩
      exact ⟨n, hn, (ih h hplain).copies n hrelated hx⟩

end Regex

end JsoniqLexer.Pattern

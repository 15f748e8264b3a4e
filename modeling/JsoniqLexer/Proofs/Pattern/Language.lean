import JsoniqLexer.Pattern.Basic

/-!
# What a pattern matches

A `Reading` says which texts are read in which surroundings: it relates the character before a text,
the text, and what follows it. `Regex.Matches` gives every regular expression its reading by
recursion, without reference to programs and without preferences, and `Expr.Matches` does the same
for pattern expressions, where a repetition is any number of copies within its bounds.

`matches_expand` says that spelling out counted copies keeps the reading. `Pattern.Matches` is the
language of a pattern: the texts that its expression matches on their own.
-/

set_option autoImplicit false

namespace JsoniqLexer.Pattern

/-- The character before what follows `text`, where `before` stands before `text`. -/
def lastOf : (before : Option Char) → Text → Option Char
  | before, [] => before
  | _, c :: text => lastOf (some c) text

@[simp] theorem lastOf_nil (before : Option Char) : lastOf before [] = before := rfl

@[simp] theorem lastOf_cons (before : Option Char) (c : Char) (text : Text) :
    lastOf before (c :: text) = lastOf (some c) text := rfl

theorem lastOf_append (before : Option Char) (s t : Text) :
    lastOf before (s ++ t) = lastOf (lastOf before s) t := by
  induction s generalizing before with
  | nil => rfl
  | cons c s ih => exact ih (some c)

/-- The texts that are read between the character before them and what follows them. -/
abbrev Reading : Type := (before : Option Char) → (text rest : Text) → Prop

namespace Reading

/-- Only the empty text. -/
def nothing : Reading := fun _ text _ => text = []

/-- One character of a set. -/
def oneOf (set : CharSet) : Reading := fun _ text _ => ∃ c, text = [c] ∧ set.contains c = true

/-- The empty text where an assertion holds. -/
def here (a : Assertion) : Reading := fun before text rest =>
  text = [] ∧ a.holds before rest.head? = true

/-- One reading and then another. -/
def andThen (R S : Reading) : Reading := fun before text rest =>
  ∃ x y, text = x ++ y ∧ R before x (y ++ rest) ∧ S (lastOf before x) y rest

/-- One of two readings. -/
def either (R S : Reading) : Reading := fun before text rest => R before text rest ∨ S before text rest

/-- One of the readings of a family. -/
def anyOf {ι : Type} (p : ι → Prop) (R : ι → Reading) : Reading := fun before text rest =>
  ∃ i, p i ∧ R i before text rest

/-- A number of copies, one after the other. -/
def copies (R : Reading) : Nat → Reading
  | 0 => nothing
  | n + 1 => R.andThen (copies R n)

@[simp] theorem nothing_andThen (R : Reading) : nothing.andThen R = R := by
  funext before text rest
  apply propext
  constructor
  · rintro ⟨x, y, rfl, rfl, h⟩
    exact h
  · intro h
    exact ⟨[], text, rfl, rfl, h⟩

@[simp] theorem andThen_nothing (R : Reading) : R.andThen nothing = R := by
  funext before text rest
  apply propext
  constructor
  · rintro ⟨x, y, rfl, h, rfl⟩
    rw [List.append_nil]
    exact h
  · intro h
    exact ⟨text, [], (List.append_nil text).symm, h, rfl⟩

theorem andThen_assoc (R S T : Reading) : (R.andThen S).andThen T = R.andThen (S.andThen T) := by
  funext before text rest
  apply propext
  constructor
  · rintro ⟨_, z, rfl, ⟨x, y, rfl, hx, hy⟩, hz⟩
    rw [← List.append_assoc] at hx
    rw [lastOf_append] at hz
    exact ⟨x, y ++ z, List.append_assoc x y z, hx, y, z, rfl, hy, hz⟩
  · rintro ⟨x, _, rfl, hx, y, z, rfl, hy, hz⟩
    rw [List.append_assoc] at hx
    rw [← lastOf_append] at hz
    exact ⟨x ++ y, z, (List.append_assoc x y z).symm, ⟨x, y, rfl, hx, hy⟩, hz⟩

theorem either_andThen (R S T : Reading) :
    (R.either S).andThen T = (R.andThen T).either (S.andThen T) := by
  funext before text rest
  apply propext
  constructor
  · rintro ⟨x, y, htext, hx | hx, hy⟩
    · exact .inl ⟨x, y, htext, hx, hy⟩
    · exact .inr ⟨x, y, htext, hx, hy⟩
  · rintro (⟨x, y, htext, hx, hy⟩ | ⟨x, y, htext, hx, hy⟩)
    · exact ⟨x, y, htext, .inl hx, hy⟩
    · exact ⟨x, y, htext, .inr hx, hy⟩

theorem andThen_anyOf {ι : Type} (R : Reading) (p : ι → Prop) (S : ι → Reading) :
    R.andThen (anyOf p S) = anyOf p fun i => R.andThen (S i) := by
  funext before text rest
  apply propext
  constructor
  · rintro ⟨x, y, htext, hx, i, hi, hy⟩
    exact ⟨i, hi, x, y, htext, hx, hy⟩
  · rintro ⟨i, hi, x, y, htext, hx, hy⟩
    exact ⟨x, y, htext, hx, i, hi, hy⟩

@[simp] theorem copies_zero (R : Reading) : R.copies 0 = nothing := rfl

theorem copies_succ (R : Reading) (n : Nat) : R.copies (n + 1) = R.andThen (R.copies n) := rfl

@[simp] theorem copies_one (R : Reading) : R.copies 1 = R := by
  rw [copies_succ, copies_zero, andThen_nothing]

theorem copies_add (R : Reading) (m n : Nat) :
    R.copies (m + n) = (R.copies m).andThen (R.copies n) := by
  induction m with
  | zero => rw [Nat.zero_add, copies_zero, nothing_andThen]
  | succ m ih => rw [Nat.succ_add, copies_succ, ih, copies_succ, andThen_assoc]

theorem andThen_nil_iff {R S : Reading} {before : Option Char} {rest : Text} :
    (R.andThen S) before [] rest ↔ R before [] rest ∧ S before [] rest := by
  constructor
  · rintro ⟨x, y, hxy, hx, hy⟩
    obtain ⟨rfl, rfl⟩ := List.append_eq_nil_iff.1 hxy.symm
    exact ⟨hx, hy⟩
  · rintro ⟨hx, hy⟩
    exact ⟨[], [], rfl, hx, hy⟩

/-- Copies read the empty text where one of them does, and where there is none of them. -/
theorem copies_nil_iff {R : Reading} {n : Nat} {before : Option Char} {rest : Text} :
    R.copies n before [] rest ↔ n = 0 ∨ R before [] rest := by
  induction n with
  | zero => simp [nothing]
  | succ n ih =>
      rw [copies_succ, andThen_nil_iff, ih]
      constructor
      · intro h
        exact .inr h.1
      · rintro (h | h)
        · cases h
        · exact ⟨h, .inr h⟩

/-- Readings of copies whose numbers are the same are the same. -/
theorem anyOf_copies_congr {ι κ : Type} {p : ι → Prop} {q : κ → Prop} {f : ι → Nat} {g : κ → Nat}
    (R : Reading) (h : ∀ n, (∃ i, p i ∧ f i = n) ↔ ∃ k, q k ∧ g k = n) :
    (anyOf p fun i => R.copies (f i)) = anyOf q fun k => R.copies (g k) := by
  funext before text rest
  apply propext
  constructor
  · rintro ⟨i, hi, htext⟩
    obtain ⟨k, hk, heq⟩ := (h (f i)).1 ⟨i, hi, rfl⟩
    refine ⟨k, hk, ?_⟩
    simp only [heq]
    exact htext
  · rintro ⟨k, hk, htext⟩
    obtain ⟨i, hi, heq⟩ := (h (g k)).2 ⟨k, hk, rfl⟩
    refine ⟨i, hi, ?_⟩
    simp only [heq]
    exact htext

end Reading

/-- What a regular expression matches. Loops match any number of copies, a `plus` at least one. -/
def Regex.Matches : Regex → Reading
  | .empty => .nothing
  | .char set => .oneOf set
  | .look a => .here a
  | .seq first second => first.Matches.andThen second.Matches
  | .alt preferred other => preferred.Matches.either other.Matches
  | .plus body _ => .anyOf (fun n => 1 ≤ n) body.Matches.copies
  | .star body _ => .anyOf (fun _ => True) body.Matches.copies

/-- What a pattern expression matches. A repetition matches at least `min` copies and at most `max`,
or `min` copies where `max` is less. -/
def Expr.Matches : Expr → Reading
  | .empty => .nothing
  | .literal text => fun _ x _ => x = text
  | .chars set _ => .oneOf set
  | .assertion a => .here a
  | .capture _ body => body.Matches
  | .concat first rest => first.Matches.andThen rest.Matches
  | .alternate first rest => first.Matches.either rest.Matches
  | .repeated body min none _ => .anyOf (fun n => min ≤ n) body.Matches.copies
  | .repeated body min (some max) _ =>
      .anyOf (fun n => min ≤ n ∧ n ≤ Nat.max min max) body.Matches.copies

/-! ## Counted copies spelled out -/

namespace Regex

theorem matches_ofText (text : Text) : (ofText text).Matches = fun _ x _ => x = text := by
  induction text with
  | nil => rfl
  | cons c text ih =>
      -- the last character is no sequence, so one character is a case of its own
      have hsingle : (Regex.char (.single c)).Matches = fun _ x _ => x = [c] := by
        funext before x rest
        simp [Matches, Reading.oneOf]
      cases text with
      | nil => exact hsingle
      | cons d text =>
          funext before x rest
          rw [ofText, Matches, ih, hsingle]
          · simp [Reading.andThen]
          · exact List.cons_ne_nil d text

theorem matches_optional (body : Regex) (greedy : Bool) :
    (optional body greedy).Matches = .anyOf (fun n => n ≤ 1) body.Matches.copies := by
  funext before x rest
  have hiff : Reading.anyOf (fun n => n ≤ 1) body.Matches.copies before x rest ↔
      body.Matches before x rest ∨ x = [] := by
    constructor
    -- at most one copy is no copy or one
    · rintro ⟨n, hn, hx⟩
      match n with
      | 0 => exact .inr hx
      | 1 => exact .inl (Reading.copies_one body.Matches ▸ hx)
    · rintro (hx | hx)
      · exact ⟨1, Nat.le_refl 1, (Reading.copies_one body.Matches).symm ▸ hx⟩
      · exact ⟨0, Nat.zero_le 1, hx⟩
  rw [hiff, optional]
  cases greedy with
  | true => rfl
  | false => exact propext or_comm

theorem matches_copies (body : Regex) (n : Nat) :
    (copies body n).Matches = body.Matches.copies n := by
  induction n with
  | zero => rfl
  | succ n ih =>
      cases n with
      | zero => exact (Reading.copies_one body.Matches).symm
      | succ n => rw [copies, Matches, ih, ← Reading.copies_succ]

theorem matches_upTo (body : Regex) (greedy : Bool) (n : Nat) :
    (upTo body greedy n).Matches = .anyOf (fun k => k ≤ n) body.Matches.copies := by
  induction n with
  | zero =>
      funext before x rest
      refine propext ⟨fun hx => ⟨0, Nat.le_refl 0, hx⟩, ?_⟩
      rintro ⟨k, hk, hx⟩
      obtain rfl : k = 0 := Nat.le_zero.1 hk
      exact hx
  | succ n ih =>
      cases n with
      | zero => exact matches_optional body greedy
      | succ n =>
          -- one copy and then up to `n + 1` more, all of it optional
          rw [upTo, matches_optional, Matches, ih, Reading.andThen_anyOf]
          funext before x rest
          apply propext
          constructor
          · rintro ⟨k, hk, hx⟩
            match k with
            | 0 => exact ⟨0, Nat.zero_le _, hx⟩
            | 1 =>
                rw [Reading.copies_one] at hx
                obtain ⟨j, hj, hx⟩ := hx
                exact ⟨j + 1, Nat.succ_le_succ hj, hx⟩
          · rintro ⟨k, hk, hx⟩
            cases k with
            | zero => exact ⟨0, Nat.zero_le 1, hx⟩
            | succ k =>
                refine ⟨1, Nat.le_refl 1, ?_⟩
                rw [Reading.copies_one]
                exact ⟨k, Nat.le_of_succ_le_succ hk, hx⟩

theorem matches_atLeast (body : Regex) (reads greedy : Bool) (n : Nat) :
    (atLeast body reads greedy n).Matches = .anyOf (fun k => n ≤ k) body.Matches.copies := by
  match n with
  | 0 =>
      have hall : (fun k : Nat => 0 ≤ k) = fun _ => True := by simp
      cases reads with
      | true => rw [hall]; rfl
      -- where the body may read nothing, the loop is an optional `plus`
      | false =>
          rw [atLeast, if_neg Bool.false_ne_true, matches_optional, Matches]
          funext before x rest
          apply propext
          constructor
          · rintro ⟨k, hk, hx⟩
            match k with
            | 0 => exact ⟨0, Nat.le_refl 0, hx⟩
            | 1 =>
                rw [Reading.copies_one] at hx
                obtain ⟨j, -, hx⟩ := hx
                exact ⟨j, Nat.zero_le j, hx⟩
          · rintro ⟨k, -, hx⟩
            cases k with
            | zero => exact ⟨0, Nat.zero_le 1, hx⟩
            | succ k =>
                refine ⟨1, Nat.le_refl 1, ?_⟩
                rw [Reading.copies_one]
                exact ⟨k + 1, Nat.succ_le_succ (Nat.zero_le k), hx⟩
  | 1 => rfl
  | n + 2 =>
      -- all copies but one in front, the last one repeated
      rw [atLeast, Matches, matches_copies, Matches, Reading.andThen_anyOf]
      simp only [← Reading.copies_add]
      refine Reading.anyOf_copies_congr body.Matches fun m => ?_
      constructor
      · rintro ⟨k, hk, rfl⟩
        exact ⟨n + 1 + k, by omega, rfl⟩
      · rintro ⟨k, hk, rfl⟩
        exact ⟨k - (n + 1), by omega, by omega⟩

end Regex

/-- Spelling out counted copies keeps what an expression matches. -/
theorem Expr.matches_expand (e : Expr) : e.expand.Matches = e.Matches := by
  induction e with
  | empty => rfl
  | literal text => exact Regex.matches_ofText text
  | chars set unicode => rfl
  | assertion a => rfl
  | capture index body ih => exact ih
  | concat first rest ihf ihr => rw [expand, Regex.Matches, ihf, ihr, Matches]
  | alternate first rest ihf ihr => rw [expand, Regex.Matches, ihf, ihr, Matches]
  | repeated body min max greedy ih =>
      cases max with
      | none => rw [expand, Regex.matches_atLeast, ih, Matches]
      | some max =>
          rw [expand, Matches]
          split
          -- a bound that is not above `min` allows `min` copies only
          · next hle =>
            rw [Regex.matches_copies, ih]
            have hmin : Nat.max min max = min := Nat.max_eq_left hle
            funext before x rest
            refine propext ⟨fun hx => ⟨min, by omega, hx⟩, ?_⟩
            rintro ⟨n, hn, hx⟩
            obtain rfl : n = min := by omega
            exact hx
          -- `min` copies, and then as many of the others as are found
          · next hlt =>
            have hmax : Nat.max min max = max := Nat.max_eq_right (by omega)
            rw [Regex.Matches, Regex.matches_copies, Regex.matches_upTo, ih, Reading.andThen_anyOf,
              hmax]
            simp only [← Reading.copies_add]
            refine Reading.anyOf_copies_congr body.Matches fun n => ?_
            constructor
            · rintro ⟨k, hk, rfl⟩
              exact ⟨min + k, by omega, rfl⟩
            · rintro ⟨k, hk, rfl⟩
              exact ⟨k - min, by omega, by omega⟩

/-- The language of a pattern: the texts that its expression matches on their own. -/
def Matches (p : Pattern) (text : Text) : Prop :=
  ∃ e, parse? p.source = some e ∧ e.Matches none text []

end JsoniqLexer.Pattern

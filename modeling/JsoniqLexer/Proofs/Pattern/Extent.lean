import JsoniqLexer.Proofs.Pattern.Longest

/-!
# Which characters a match is made of

Bounds on the matches of an expression that are read off its form: the characters that may occur
(`letters`), that may come first (`firsts`) and after the first (`laters`), that are a match on
their own (`alone`), the number of characters where it is fixed (`width?`), whether a match always
leaves a set (`leaves`), and whether it always goes on with more of a set (`growsBy`). Two
expressions are compared through them: where `dominates` holds, no match of the second expression is
longer than a match of the first in the same place.
-/

set_option autoImplicit false

namespace JsoniqLexer.Pattern

theorem Reading.forall_mem_of_copies {R : Reading} {p : Char → Prop}
    (h : ∀ {before x rest}, R before x rest → ∀ c ∈ x, p c) {n : Nat} {before : Option Char}
    {x rest : Text} (hx : R.copies n before x rest) : ∀ c ∈ x, p c := by
  induction n generalizing before x with
  | zero =>
      obtain rfl : x = [] := hx
      simp
  | succ n ih =>
      obtain ⟨y, z, rfl, hy, hz⟩ := hx
      intro c hc
      exact (List.mem_append.1 hc).elim (h hy c) (ih hz c)

/-- Texts are read no matter what stands around them. -/
def Reading.IsPlain (R : Reading) : Prop :=
  ∀ ⦃before before' : Option Char⦄ ⦃x rest rest' : Text⦄, R before x rest → R before' x rest'

theorem Reading.IsPlain.copies {R : Reading} (h : R.IsPlain) (n : Nat) : (R.copies n).IsPlain := by
  induction n with
  | zero => exact fun _ _ _ _ _ hx => hx
  | succ n ih =>
      rintro before before' _ rest rest' ⟨y, z, rfl, hy, hz⟩
      exact ⟨y, z, rfl, h hy, ih hz⟩

/-- The first character of copies is the first character of one of them. -/
theorem Reading.copies_cons {R : Reading} {n : Nat} {before : Option Char} {c : Char}
    {x rest : Text} (hx : R.copies n before (c :: x) rest) :
    ∃ before' y rest', R before' (c :: y) rest' := by
  induction n generalizing before x with
  | zero => cases hx
  | succ n ih =>
      obtain ⟨y, z, hyz, hy, hz⟩ := hx
      -- copies of nothing in front do not count
      cases y with
      | nil =>
          rw [List.nil_append] at hyz
          subst hyz
          exact ih hz
      | cons d y =>
          obtain ⟨rfl, -⟩ := List.cons.inj hyz
          exact ⟨_, y, _, hy⟩

namespace Regex

/-- The expression asserts nothing about its surroundings. -/
def isPlain : Regex → Bool
  | .look _ => false
  | .seq a b | .alt a b => a.isPlain && b.isPlain
  | .plus body _ | .star body _ => body.isPlain
  | .empty | .char _ => true

/-- The expression may match the empty text. -/
def isNullable : Regex → Bool
  | .empty | .look _ | .star _ _ => true
  | .char _ => false
  | .seq a b => a.isNullable && b.isNullable
  | .alt a b => a.isNullable || b.isNullable
  | .plus body _ => body.isNullable

/-- The characters that a match may hold. -/
def letters : Regex → CharSet
  | .empty | .look _ => .empty
  | .char set => set
  | .seq a b | .alt a b => a.letters.union b.letters
  | .plus body _ | .star body _ => body.letters

/-- The characters that a match may begin with. -/
def firsts : Regex → CharSet
  | .empty | .look _ => .empty
  | .char set => set
  | .seq a b => if a.isNullable then a.firsts.union b.firsts else a.firsts
  | .alt a b => a.firsts.union b.firsts
  | .plus body _ | .star body _ => body.firsts

/-- The characters that a match may hold after its first. -/
def laters : Regex → CharSet
  | .empty | .look _ | .char _ => .empty
  | .seq a b => a.laters.union b.letters
  | .alt a b => a.laters.union b.laters
  | .plus body _ | .star body _ => body.letters

/-- The characters that are a match on their own. -/
def alone : Regex → CharSet
  | .empty | .look _ => .empty
  | .char set => set
  | .seq a b =>
      (if b.isNullable then a.alone else .empty).union (if a.isNullable then b.alone else .empty)
  | .alt a b => a.alone.union b.alone
  | .plus body _ | .star body _ => body.alone

/-- The number of characters of every match, where it is always the same. -/
def width? : Regex → Option Nat
  | .empty | .look _ => some 0
  | .char _ => some 1
  | .seq a b => a.width?.bind fun m => b.width?.map (m + ·)
  | .alt a b => if a.width? = b.width? then a.width? else none
  | .plus _ _ | .star _ _ => none

/-- Every match holds a character outside the set. -/
def leaves (set : CharSet) : Regex → Bool
  | .empty | .look _ | .star _ _ => false
  | .char own => own.isDisjoint set
  | .seq a b => a.leaves set || b.leaves set
  | .alt a b => a.leaves set && b.leaves set
  | .plus body _ => body.leaves set

/-- Every match goes on with any character of the set. -/
def growsBy (set : CharSet) : Regex → Bool
  | .plus (.char own) _ | .star (.char own) _ => set.isWithin own
  | .seq _ b => b.growsBy set
  | _ => false

/-- What an expression without assertions matches does not depend on the surroundings. -/
theorem isPlain_matches {r : Regex} (h : r.isPlain = true) : r.Matches.IsPlain := by
  induction r with
  | empty => exact fun _ _ _ _ _ hx => hx
  | char set => exact fun _ _ _ _ _ hx => hx
  | look a => cases h
  | seq a b iha ihb =>
      obtain ⟨ha, hb⟩ := Bool.and_eq_true_iff.1 h
      rintro before before' _ rest rest' ⟨y, z, rfl, hy, hz⟩
      exact ⟨y, z, rfl, iha ha hy, ihb hb hz⟩
  | alt a b iha ihb =>
      obtain ⟨ha, hb⟩ := Bool.and_eq_true_iff.1 h
      exact fun _ _ _ _ _ hx => hx.imp (fun hx => iha ha hx) (fun hx => ihb hb hx)
  | plus body greedy ih =>
      rintro before before' x rest rest' ⟨n, hn, hx⟩
      exact ⟨n, hn, Reading.IsPlain.copies (ih h) n hx⟩
  | star body greedy ih =>
      rintro before before' x rest rest' ⟨n, hn, hx⟩
      exact ⟨n, hn, Reading.IsPlain.copies (ih h) n hx⟩

theorem copies_oneOf_concat {set : CharSet} {n : Nat} {before : Option Char} {x rest rest' : Text}
    {c : Char} (hx : (Reading.oneOf set).copies n before x rest) (hc : set.contains c = true) :
    (Reading.oneOf set).copies (n + 1) before (x ++ [c]) rest' := by
  obtain ⟨rfl, hall⟩ := copies_oneOf_iff.1 hx
  rw [copies_oneOf_iff, List.forall_mem_append, List.forall_mem_singleton]
  exact ⟨List.length_append, hall, hc⟩

theorem matches_concat {r : Regex} {set : CharSet} (hplain : r.isPlain = true)
    (h : r.growsBy set = true) {before : Option Char} {x rest rest' : Text} {c : Char}
    (hx : r.Matches before x rest) (hc : set.contains c = true) :
    r.Matches before (x ++ [c]) rest' := by
  fun_induction growsBy set r generalizing before x with
  | case1 own greedy =>
      obtain ⟨n, hn, hx⟩ := hx
      exact ⟨n + 1, Nat.le_add_left 1 n, copies_oneOf_concat hx (CharSet.contains_of_isWithin h hc)⟩
  | case2 own greedy =>
      obtain ⟨n, -, hx⟩ := hx
      exact ⟨n + 1, trivial, copies_oneOf_concat hx (CharSet.contains_of_isWithin h hc)⟩
  | case3 a b ih =>
      obtain ⟨ha, hb⟩ := Bool.and_eq_true_iff.1 hplain
      obtain ⟨y, z, rfl, hy, hz⟩ := hx
      exact ⟨y, z ++ [c], List.append_assoc y z [c], isPlain_matches ha hy, ih hb h hz⟩
  | case4 r hplus hstar hseq => cases h

theorem isNullable_of_matches {r : Regex} {before : Option Char} {rest : Text}
    (h : r.Matches before [] rest) : r.isNullable = true := by
  induction r generalizing before rest with
  | empty => rfl
  | char set =>
      obtain ⟨c, hnil, -⟩ := h
      cases hnil
  | look a => rfl
  | seq a b iha ihb =>
      obtain ⟨ha, hb⟩ := Reading.andThen_nil_iff.1 h
      rw [isNullable, iha ha, ihb hb]
      rfl
  | alt a b iha ihb =>
      rcases h with h | h
      · rw [isNullable, iha h, Bool.true_or]
      · rw [isNullable, ihb h, Bool.or_true]
  | plus body greedy ih =>
      obtain ⟨n, hn, h⟩ := h
      rcases Reading.copies_nil_iff.1 h with rfl | h
      · cases hn
      · exact ih h
  | star body greedy ih => rfl

/-- Without assertions, an expression that may match the empty text matches it everywhere. -/
theorem matches_nil {r : Regex} (hplain : r.isPlain = true) (hnull : r.isNullable = true)
    (before : Option Char) (rest : Text) : r.Matches before [] rest := by
  induction r generalizing before rest with
  | empty => rfl
  | char set => cases hnull
  | look a => cases hplain
  | seq a b iha ihb =>
      obtain ⟨ha, hb⟩ := Bool.and_eq_true_iff.1 hplain
      obtain ⟨hna, hnb⟩ := Bool.and_eq_true_iff.1 hnull
      exact ⟨[], [], rfl, iha ha hna before rest, ihb hb hnb before rest⟩
  | alt a b iha ihb =>
      obtain ⟨ha, hb⟩ := Bool.and_eq_true_iff.1 hplain
      rcases Bool.or_eq_true_iff.1 hnull with hnull | hnull
      · exact .inl (iha ha hnull before rest)
      · exact .inr (ihb hb hnull before rest)
  | plus body greedy ih =>
      refine ⟨1, Nat.le_refl 1, ?_⟩
      rw [Reading.copies_one]
      exact ih hplain hnull before rest
  | star body greedy ih => exact ⟨0, trivial, rfl⟩

theorem matches_singleton {r : Regex} (hplain : r.isPlain = true) {c : Char}
    (hc : r.alone.contains c = true) (before : Option Char) (rest : Text) :
    r.Matches before [c] rest := by
  induction r generalizing before rest with
  | empty => cases hc
  | char set => exact ⟨c, rfl, hc⟩
  | look a => cases hc
  | seq a b iha ihb =>
      obtain ⟨ha, hb⟩ := Bool.and_eq_true_iff.1 hplain
      rw [alone, CharSet.contains_union, Bool.or_eq_true_iff] at hc
      -- one part reads the character, and the other one nothing
      rcases hc with hc | hc
      · split at hc
        · next hnull =>
          exact ⟨[c], [], rfl, iha ha hc before rest, matches_nil hb hnull (some c) rest⟩
        · cases hc
      · split at hc
        · next hnull =>
          exact ⟨[], [c], rfl, matches_nil ha hnull before (c :: rest), ihb hb hc before rest⟩
        · cases hc
  | alt a b iha ihb =>
      obtain ⟨ha, hb⟩ := Bool.and_eq_true_iff.1 hplain
      rw [alone, CharSet.contains_union, Bool.or_eq_true_iff] at hc
      rcases hc with hc | hc
      · exact .inl (iha ha hc before rest)
      · exact .inr (ihb hb hc before rest)
  | plus body greedy ih =>
      refine ⟨1, Nat.le_refl 1, ?_⟩
      rw [Reading.copies_one]
      exact ih hplain hc before rest
  | star body greedy ih =>
      refine ⟨1, trivial, ?_⟩
      rw [Reading.copies_one]
      exact ih hplain hc before rest

theorem contains_letters {r : Regex} {before : Option Char} {x rest : Text}
    (h : r.Matches before x rest) : ∀ c ∈ x, r.letters.contains c = true := by
  induction r generalizing before x rest with
  | empty =>
      obtain rfl : x = [] := h
      simp
  | char set =>
      obtain ⟨c, rfl, hc⟩ := h
      simpa [letters] using hc
  | look a =>
      obtain ⟨rfl, -⟩ := h
      simp
  | seq a b iha ihb =>
      obtain ⟨y, z, rfl, hy, hz⟩ := h
      intro c hc
      rw [letters, CharSet.contains_union]
      rcases List.mem_append.1 hc with hc | hc
      · rw [iha hy c hc, Bool.true_or]
      · rw [ihb hz c hc, Bool.or_true]
  | alt a b iha ihb =>
      intro c hc
      rw [letters, CharSet.contains_union]
      rcases h with h | h
      · rw [iha h c hc, Bool.true_or]
      · rw [ihb h c hc, Bool.or_true]
  | plus body greedy ih =>
      obtain ⟨n, -, h⟩ := h
      exact Reading.forall_mem_of_copies ih h
  | star body greedy ih =>
      obtain ⟨n, -, h⟩ := h
      exact Reading.forall_mem_of_copies ih h

theorem contains_firsts {r : Regex} {before : Option Char} {c : Char} {x rest : Text}
    (h : r.Matches before (c :: x) rest) : r.firsts.contains c = true := by
  induction r generalizing before x rest with
  | empty => cases h
  | char set =>
      obtain ⟨d, heq, hd⟩ := h
      obtain ⟨rfl, -⟩ := List.cons.inj heq
      exact hd
  | look a => cases h.1
  | seq a b iha ihb =>
      obtain ⟨y, z, hyz, hy, hz⟩ := h
      rw [firsts]
      -- where the first part reads nothing, the text begins with the second
      cases y with
      | nil =>
          rw [List.nil_append] at hyz
          subst hyz
          rw [if_pos (isNullable_of_matches hy), CharSet.contains_union, ihb hz, Bool.or_true]
      | cons d y =>
          obtain ⟨rfl, -⟩ := List.cons.inj hyz
          split
          · rw [CharSet.contains_union, iha hy, Bool.true_or]
          · exact iha hy
  | alt a b iha ihb =>
      rw [firsts, CharSet.contains_union]
      rcases h with h | h
      · rw [iha h, Bool.true_or]
      · rw [ihb h, Bool.or_true]
  | plus body greedy ih =>
      obtain ⟨n, -, h⟩ := h
      obtain ⟨_, y, _, hy⟩ := Reading.copies_cons h
      exact ih hy
  | star body greedy ih =>
      obtain ⟨n, -, h⟩ := h
      obtain ⟨_, y, _, hy⟩ := Reading.copies_cons h
      exact ih hy

theorem contains_laters {r : Regex} {before : Option Char} {c : Char} {x rest : Text}
    (h : r.Matches before (c :: x) rest) : ∀ d ∈ x, r.laters.contains d = true := by
  induction r generalizing before x rest with
  | empty => cases h
  | char set =>
      obtain ⟨e, heq, -⟩ := h
      obtain ⟨-, rfl⟩ := List.cons.inj heq
      simp
  | look a => cases h.1
  | seq a b iha ihb =>
      obtain ⟨y, z, hyz, hy, hz⟩ := h
      intro d hd
      rw [laters, CharSet.contains_union]
      -- where the first part reads something, only the second may go on after it
      cases y with
      | nil =>
          have hmem : d ∈ z := by
            rw [List.nil_append] at hyz
            rw [← hyz]
            exact List.mem_cons_of_mem c hd
          rw [contains_letters hz d hmem, Bool.or_true]
      | cons e y =>
          obtain ⟨rfl, rfl⟩ := List.cons.inj hyz
          rcases List.mem_append.1 hd with hd | hd
          · rw [iha hy d hd, Bool.true_or]
          · rw [contains_letters hz d hd, Bool.or_true]
  | alt a b iha ihb =>
      intro d hd
      rw [laters, CharSet.contains_union]
      rcases h with h | h
      · rw [iha h d hd, Bool.true_or]
      · rw [ihb h d hd, Bool.or_true]
  | plus body greedy ih =>
      intro d hd
      exact @contains_letters (.plus body greedy) _ _ _ h d (List.mem_cons_of_mem c hd)
  | star body greedy ih =>
      intro d hd
      exact @contains_letters (.star body greedy) _ _ _ h d (List.mem_cons_of_mem c hd)

theorem length_eq_of_width? {r : Regex} {before : Option Char} {x rest : Text} {n : Nat}
    (h : r.Matches before x rest) (hn : r.width? = some n) : x.length = n := by
  induction r generalizing before x rest n with
  | empty =>
      cases hn
      obtain rfl : x = [] := h
      rfl
  | char set =>
      cases hn
      obtain ⟨c, rfl, -⟩ := h
      rfl
  | look a =>
      cases hn
      obtain ⟨rfl, -⟩ := h
      rfl
  | seq a b iha ihb =>
      obtain ⟨y, z, rfl, hy, hz⟩ := h
      obtain ⟨k, hk, hmap⟩ := Option.bind_eq_some_iff.1 hn
      obtain ⟨j, hj, rfl⟩ := Option.map_eq_some_iff.1 hmap
      rw [List.length_append, iha hy hk, ihb hz hj]
  | alt a b iha ihb =>
      rw [width?] at hn
      split at hn
      · next heq =>
        rcases h with h | h
        · exact iha h hn
        · exact ihb h (heq ▸ hn)
      · cases hn
  | plus body greedy ih => cases hn
  | star body greedy ih => cases hn

theorem exists_not_contains {r : Regex} {set : CharSet} (hleaves : r.leaves set = true)
    {before : Option Char} {x rest : Text} (h : r.Matches before x rest) :
    ∃ c ∈ x, set.contains c = false := by
  induction r generalizing before x rest with
  | empty => cases hleaves
  | char own =>
      obtain ⟨c, rfl, hc⟩ := h
      exact ⟨c, List.mem_cons_self, CharSet.contains_eq_false_of_isDisjoint hleaves hc⟩
  | look a => cases hleaves
  | seq a b iha ihb =>
      obtain ⟨y, z, rfl, hy, hz⟩ := h
      rcases Bool.or_eq_true_iff.1 hleaves with hleaves | hleaves
      · obtain ⟨c, hc, hout⟩ := iha hleaves hy
        exact ⟨c, List.mem_append_left _ hc, hout⟩
      · obtain ⟨c, hc, hout⟩ := ihb hleaves hz
        exact ⟨c, List.mem_append_right _ hc, hout⟩
  | alt a b iha ihb =>
      obtain ⟨ha, hb⟩ := Bool.and_eq_true_iff.1 hleaves
      rcases h with h | h
      · exact iha ha h
      · exact ihb hb h
  -- there is one copy at least, and it leaves the set already
  | plus body greedy ih =>
      obtain ⟨n, hn, h⟩ := h
      obtain ⟨n, rfl⟩ : ∃ m, n = m + 1 := ⟨n - 1, by omega⟩
      obtain ⟨y, z, rfl, hy, -⟩ := h
      obtain ⟨c, hc, hout⟩ := ih hleaves hy
      exact ⟨c, List.mem_append_left _ hc, hout⟩
  | star body greedy ih => cases hleaves

/-- No match of `s` is longer than a match of `r` in the same place: the matches of `s` are single
characters, or begin differently, or consist of characters that no match of `r` keeps to. -/
def confines (r s : Regex) : Bool :=
  s.width? == some 1 || r.firsts.isDisjoint s.firsts || r.leaves s.letters

/-- The test `confines`, made after any number of single characters that both expressions begin
with. -/
def dominates : Regex → Regex → Bool
  | .seq (.char a) r, .seq (.char b) s =>
      (Regex.seq (.char a) r).confines (.seq (.char b) s) || !r.isNullable && r.dominates s
  | r, s => r.confines s

theorem prefix_of_confines {r s : Regex} (h : r.confines s = true) {before : Option Char}
    {x y tail rest : Text} (hne : x ≠ []) (htext : x ++ tail = y ++ rest)
    (hx : r.Matches before x tail) (hy : s.Matches before y rest) : y <+: x := by
  have hbegins : x <+: y ∨ y <+: x :=
    List.prefix_or_prefix_of_prefix (List.prefix_append x tail) ⟨rest, htext.symm⟩
  -- each of the three tests leaves nothing by which `y` could go beyond `x`
  rcases hbegins with ⟨more, rfl⟩ | hbegins
  · obtain ⟨c, x, rfl⟩ := List.exists_cons_of_ne_nil hne
    simp only [confines, Bool.or_eq_true, beq_iff_eq] at h
    rcases h with (h | h) | h
    · have hlength := length_eq_of_width? hy h
      have hmore : more = [] := by
        simp only [List.length_append, List.length_cons] at hlength
        exact List.length_eq_zero_iff.1 (by omega)
      rw [hmore, List.append_nil]
    · have hc := CharSet.contains_eq_false_of_isDisjoint h (contains_firsts hx)
      rw [contains_firsts hy] at hc
      cases hc
    · obtain ⟨d, hd, hout⟩ := exists_not_contains h hx
      rw [contains_letters hy d (List.mem_append_left _ hd)] at hout
      cases hout
  · exact hbegins

theorem prefix_of_dominates {r s : Regex} (h : r.dominates s = true) {before : Option Char}
    {x y tail rest : Text} (hne : x ≠ []) (htext : x ++ tail = y ++ rest)
    (hx : r.Matches before x tail) (hy : s.Matches before y rest) : y <+: x := by
  fun_induction dominates r s generalizing before x y with
  | case1 a r b s ih =>
      rcases Bool.or_eq_true_iff.1 h with h | h
      · exact prefix_of_confines h hne htext hx hy
      · obtain ⟨hnull, hdominates⟩ := Bool.and_eq_true_iff.1 h
        -- both begin with one character, the same one; the rests are compared
        obtain ⟨_, x, rfl, ⟨c, rfl, -⟩, hx⟩ := hx
        obtain ⟨_, y, rfl, ⟨d, rfl, -⟩, hy⟩ := hy
        obtain ⟨rfl, htail⟩ := List.cons.inj htext
        have hne : x ≠ [] := by
          rintro rfl
          rw [isNullable_of_matches hx] at hnull
          cases hnull
        exact List.prefix_cons_inj c |>.2 (ih hdominates hne htail hx hy)
  | case2 r s hother => exact prefix_of_confines h hne htext hx hy

end Regex

end JsoniqLexer.Pattern

import JsoniqLexer.Unicode.CaseFold
import JsoniqLexer.Unicode.Ranges

/-!
# Sets of characters

A set of characters is a list of ranges of code points in ascending order, which do not overlap and
whose ends are characters. Ranges are joined in `insertRange` and nowhere else, and there only where
no code point lies between them. The surrogates lie between U+D7FF and U+E000, so a range that ends
at the one and a range that begins at the other stay apart, and a set made of them is divided.

The complement is made of the gaps between the ranges. A gap reaches from the character after one
range to the character before the next. One gap of a divided set holds no character: its ends, put
in order, are U+D7FF and U+E000, so these two belong to the set and to its complement. What an
operation does to membership is said by `contains_union`, `contains_compl`, `contains_inter`,
`contains_diff` and `contains_symmDiff`.
-/

set_option autoImplicit false

namespace JsoniqLexer.Pattern

namespace CharSet

/-- Ranges in ascending order from `first` on: none is empty, none overlaps the next, and their ends
are characters. -/
def Ascending : (first : Nat) → List (Nat × Nat) → Prop
  | _, [] => True
  | first, (a, b) :: rest =>
      first ≤ a ∧ a ≤ b ∧ a.isValidChar ∧ b.isValidChar ∧ Ascending (b + 1) rest

/-- One of the ranges holds `n`. -/
def covers (ranges : List (Nat × Nat)) (n : Nat) : Bool :=
  ranges.any fun r => decide (r.1 ≤ n) && decide (n ≤ r.2)

/-- The last code point. -/
def lastCodePoint : Nat := 0x10FFFF

/-- The last character before the surrogates. -/
def beforeSurrogates : Nat := 0xD7FF

/-- The first character after the surrogates. -/
def afterSurrogates : Nat := 0xE000

/-- The next character. -/
def after (n : Nat) : Nat := if n = beforeSurrogates then afterSurrogates else n + 1

/-- The character before. -/
def before (n : Nat) : Nat := if n = afterSurrogates then beforeSurrogates else n - 1

/-- Ascending ranges with one more range merged in. -/
def insertRange (lo hi : Nat) : List (Nat × Nat) → List (Nat × Nat)
  | [] => [(lo, hi)]
  | (a, b) :: rest =>
      if hi + 1 < a then (lo, hi) :: (a, b) :: rest
      else if b + 1 < lo then (a, b) :: insertRange lo hi rest
      else insertRange (min lo a) (max hi b) rest

/-- Ascending ranges with all of `ranges` merged in. -/
def insertRanges : (ranges : List (Nat × Nat)) → List (Nat × Nat) → List (Nat × Nat)
  | [], into => into
  | (a, b) :: rest, into => insertRanges rest (insertRange a b into)

/-- The gap between a range that ends at `b` and one that begins at `a`, its lower end first. -/
def gap (b a : Nat) : List (Nat × Nat) :=
  if a ≤ b + 1 then []
  else if after b ≤ before a then [(after b, before a)]
  else [(before a, after b)]

/-- The gaps after a range that ends at `b`. -/
def gapsAfter (b : Nat) : List (Nat × Nat) → List (Nat × Nat)
  | [] => if b < lastCodePoint then [(after b, lastCodePoint)] else []
  | (a, c) :: rest => gap b a ++ gapsAfter c rest

/-- The gaps that the ascending ranges leave. -/
def gaps : List (Nat × Nat) → List (Nat × Nat)
  | [] => [(0, lastCodePoint)]
  | (a, b) :: rest => (if 0 < a then [(0, before a)] else []) ++ gapsAfter b rest

/-- What the ranges share with the range from `lo` to `hi`. -/
def clip (lo hi : Nat) : List (Nat × Nat) → List (Nat × Nat)
  | [] => []
  | (a, b) :: rest =>
      if max lo a ≤ min hi b then (max lo a, min hi b) :: clip lo hi rest else clip lo hi rest

/-- What two lists of ranges share. -/
def clipAll : (ranges others : List (Nat × Nat)) → List (Nat × Nat)
  | [], _ => []
  | (a, b) :: rest, others => clip a b others ++ clipAll rest others

/-- What the ascending ranges leave of the range from `lo` to `hi`. -/
def cut : (lo hi : Nat) → List (Nat × Nat) → List (Nat × Nat)
  | lo, hi, [] => [(lo, hi)]
  | lo, hi, (a, b) :: rest =>
      if b < lo then cut lo hi rest
      else if hi < a then [(lo, hi)]
      else
        (if lo < a then [(lo, before a)] else []) ++
          (if b < hi then cut (after b) hi rest else [])

/-- What the ascending ranges `others` leave of each of `ranges`. -/
def cutAll : (ranges others : List (Nat × Nat)) → List (Nat × Nat)
  | [], _ => []
  | (a, b) :: rest, others => cut a b others ++ cutAll rest others

/-- A range that ends at `b`, or one after it, ends before the surrogates where the next begins
after them. -/
def dividedAfter (b : Nat) : List (Nat × Nat) → Bool
  | [] => false
  | (a, c) :: rest =>
      decide (b = beforeSurrogates ∧ a = afterSurrogates) || dividedAfter c rest

/-- The character stands next to the surrogates. -/
def besideSurrogates (n : Nat) : Bool := decide (n = beforeSurrogates ∨ n = afterSurrogates)

theorem isValidChar_after {n : Nat} (hn : n.isValidChar) (hlt : n < lastCodePoint) :
    (after n).isValidChar := by
  rw [after]
  split <;> simp only [Nat.isValidChar, lastCodePoint, beforeSurrogates, afterSurrogates] at *
  all_goals omega

theorem isValidChar_before {n : Nat} (hn : n.isValidChar) (hlt : 0 < n) :
    (before n).isValidChar := by
  rw [before]
  split <;> simp only [Nat.isValidChar, beforeSurrogates, afterSurrogates] at *
  all_goals omega

theorem after_le_iff {m n : Nat} (hn : n.isValidChar) : after m ≤ n ↔ m < n := by
  rw [after]
  split <;> simp only [Nat.isValidChar, beforeSurrogates, afterSurrogates] at *
  all_goals omega

theorem le_before_iff {m n : Nat} (hm : m.isValidChar) (hn : n.isValidChar) (hlt : 0 < n) :
    m ≤ before n ↔ m < n := by
  rw [before]
  split <;> simp only [Nat.isValidChar, beforeSurrogates, afterSurrogates] at *
  all_goals omega

theorem before_lt {n : Nat} (hlt : 0 < n) : before n < n := by
  rw [before]
  split <;> simp only [beforeSurrogates, afterSurrogates] at *
  all_goals omega

theorem lt_after (n : Nat) : n < after n := by
  rw [after]
  split <;> simp only [beforeSurrogates, afterSurrogates] at *
  all_goals omega

/-- Of two characters with code points between them, but no character, one stands before the
surrogates and one after them. -/
theorem surrogates_of_before_lt_after {a b : Nat} (hb : b.isValidChar) (ha : a.isValidChar)
    (hlt : b + 1 < a) (h : before a < after b) : b = beforeSurrogates ∧ a = afterSurrogates := by
  rw [before, after] at h
  split at h <;> split at h <;>
    simp only [Nat.isValidChar, beforeSurrogates, afterSurrogates] at *
  all_goals omega

theorem isValidChar_lastCodePoint : lastCodePoint.isValidChar := by
  simp [Nat.isValidChar, lastCodePoint]

theorem le_lastCodePoint {n : Nat} (hn : n.isValidChar) : n ≤ lastCodePoint := by
  simp only [Nat.isValidChar, lastCodePoint] at *
  omega

theorem Ascending.mono {first later : Nat} {ranges : List (Nat × Nat)}
    (h : Ascending later ranges) (hle : first ≤ later) : Ascending first ranges := by
  cases ranges with
  | nil => trivial
  | cons r rest => exact ⟨Nat.le_trans hle h.1, h.2⟩

/-- Ranges up to `last` and ranges after it are ascending together. -/
theorem Ascending.append {first last : Nat} {xs ys : List (Nat × Nat)} (hxs : Ascending first xs)
    (hlast : ∀ r ∈ xs, r.2 ≤ last) (hys : Ascending (last + 1) ys) (hle : first ≤ last + 1) :
    Ascending first (xs ++ ys) := by
  induction xs generalizing first with
  | nil => exact hys.mono hle
  | cons r rest ih =>
      obtain ⟨a, b⟩ := r
      obtain ⟨ha, hab, hva, hvb, hrest⟩ := hxs
      have hb : b ≤ last := hlast (a, b) (by simp)
      exact ⟨ha, hab, hva, hvb, ih hrest (fun r hr => hlast r (by simp [hr])) (by omega)⟩

theorem ascending_insertRange {first lo hi : Nat} {ranges : List (Nat × Nat)}
    (h : Ascending first ranges) (hfirst : first ≤ lo) (hle : lo ≤ hi) (hlo : lo.isValidChar)
    (hhi : hi.isValidChar) : Ascending first (insertRange lo hi ranges) := by
  induction ranges generalizing first lo hi with
  | nil => exact ⟨hfirst, hle, hlo, hhi, trivial⟩
  | cons r rest ih =>
      obtain ⟨a, b⟩ := r
      obtain ⟨ha, hab, hva, hvb, hrest⟩ := h
      rw [insertRange]
      split
      · exact ⟨hfirst, hle, hlo, hhi, by omega, hab, hva, hvb, hrest⟩
      · split
        · exact ⟨ha, hab, hva, hvb, ih hrest (by omega) hle hlo hhi⟩
        · refine ih (hrest.mono (by omega)) (by omega) (by omega) ?_ ?_
          · rcases Nat.le_total lo a with hmin | hmin
            · rwa [Nat.min_eq_left hmin]
            · rwa [Nat.min_eq_right hmin]
          · rcases Nat.le_total hi b with hmax | hmax
            · rwa [Nat.max_eq_right hmax]
            · rwa [Nat.max_eq_left hmax]

theorem ascending_insertRanges {first later : Nat} {ranges into : List (Nat × Nat)}
    (h : Ascending first into) (hranges : Ascending later ranges) (hle : first ≤ later) :
    Ascending first (insertRanges ranges into) := by
  induction ranges generalizing later into with
  | nil => exact h
  | cons r rest ih =>
      obtain ⟨ha, hab, hva, hvb, hrest⟩ := hranges
      exact ih (ascending_insertRange h (Nat.le_trans hle ha) hab hva hvb) hrest (by omega)

/-- The gaps after a range ascend from its end on, and begin after it where it does not end before
the surrogates. -/
theorem ascending_gapsAfter {first b : Nat} {ranges : List (Nat × Nat)}
    (h : Ascending (b + 1) ranges) (hb : b.isValidChar)
    (hfirst : first ≤ b ∨ first ≤ b + 1 ∧ b ≠ beforeSurrogates) :
    Ascending first (gapsAfter b ranges) := by
  induction ranges generalizing first b with
  | nil =>
      rw [gapsAfter]
      split
      · next hlt =>
        have hnext := lt_after b
        exact ⟨by omega, (after_le_iff isValidChar_lastCodePoint).2 hlt,
          isValidChar_after hb hlt, isValidChar_lastCodePoint, trivial⟩
      · trivial
  | cons r rest ih =>
      obtain ⟨a, c⟩ := r
      obtain ⟨ha, hac, hva, hvc, hrest⟩ := h
      rw [gapsAfter, gap]
      have hlast := le_lastCodePoint hva
      have hlow := before_lt (n := a) (by omega)
      have hhigh := lt_after b
      have hvafter := isValidChar_after hb (by omega)
      have hvbefore := isValidChar_before hva (by omega)
      split
      · exact ih hrest hvc (by omega)
      · split
        · next hle => exact ⟨by omega, hle, hvafter, hvbefore, ih hrest hvc (by omega)⟩
        · next hle =>
          obtain ⟨rfl, rfl⟩ := surrogates_of_before_lt_after hb hva (by omega) (Nat.not_le.1 hle)
          have hswap : first ≤ before afterSurrogates := by
            simp only [before, beforeSurrogates, if_true] at *
            omega
          have hend : after beforeSurrogates = afterSurrogates := rfl
          refine ⟨hswap, by omega, hvbefore, hvafter, ih hrest hvc ?_⟩
          simp only [hend, beforeSurrogates, afterSurrogates] at *
          omega

theorem ascending_gaps {ranges : List (Nat × Nat)} (h : Ascending 0 ranges) :
    Ascending 0 (gaps ranges) := by
  cases ranges with
  | nil => exact ⟨Nat.zero_le _, Nat.zero_le _, by decide, isValidChar_lastCodePoint, trivial⟩
  | cons r rest =>
      obtain ⟨a, b⟩ := r
      obtain ⟨-, hab, hva, hvb, hrest⟩ := h
      rw [gaps]
      split
      · next hlt =>
        have hlow := before_lt hlt
        exact ⟨Nat.zero_le _, Nat.zero_le _, by decide, isValidChar_before hva hlt,
          ascending_gapsAfter hrest hvb (by omega)⟩
      · exact ascending_gapsAfter hrest hvb (by omega)

theorem ascending_clip {first start lo hi : Nat} {ranges : List (Nat × Nat)}
    (h : Ascending start ranges) (hlo : lo.isValidChar) (hhi : hi.isValidChar)
    (hfirst : first ≤ max lo start) : Ascending first (clip lo hi ranges) := by
  induction ranges generalizing first start with
  | nil => trivial
  | cons r rest ih =>
      obtain ⟨a, b⟩ := r
      obtain ⟨ha, hab, hva, hvb, hrest⟩ := h
      rw [clip]
      split
      · next hle =>
        refine ⟨by omega, hle, ?_, ?_, ih hrest (by omega)⟩
        · rcases Nat.le_total lo a with hmax | hmax
          · rwa [Nat.max_eq_right hmax]
          · rwa [Nat.max_eq_left hmax]
        · rcases Nat.le_total hi b with hmin | hmin
          · rwa [Nat.min_eq_left hmin]
          · rwa [Nat.min_eq_right hmin]
      · exact ih hrest (by omega)

theorem le_of_mem_clip {lo hi : Nat} {ranges : List (Nat × Nat)} {r : Nat × Nat}
    (h : r ∈ clip lo hi ranges) : r.2 ≤ hi := by
  induction ranges with
  | nil => simp [clip] at h
  | cons q rest ih =>
      obtain ⟨a, b⟩ := q
      rw [clip] at h
      split at h
      · rcases List.mem_cons.1 h with rfl | hrest
        · exact Nat.min_le_left _ _
        · exact ih hrest
      · exact ih h

theorem ascending_clipAll {first later : Nat} {ranges others : List (Nat × Nat)}
    (h : Ascending first ranges) (hothers : Ascending later others) :
    Ascending first (clipAll ranges others) := by
  induction ranges generalizing first with
  | nil => trivial
  | cons r rest ih =>
      obtain ⟨a, b⟩ := r
      obtain ⟨ha, hab, hva, hvb, hrest⟩ := h
      exact (ascending_clip hothers hva hvb (by omega)).append (fun r hr => le_of_mem_clip hr)
        (ih hrest) (by omega)

theorem ascending_cut {first lo hi : Nat} {ranges : List (Nat × Nat)}
    (h : Ascending first ranges) (hlo : lo.isValidChar) (hhi : hi.isValidChar) (hle : lo ≤ hi) :
    Ascending lo (cut lo hi ranges) := by
  induction ranges generalizing first lo with
  | nil => exact ⟨Nat.le_refl _, hle, hlo, hhi, trivial⟩
  | cons r rest ih =>
      obtain ⟨a, b⟩ := r
      obtain ⟨ha, hab, hva, hvb, hrest⟩ := h
      rw [cut]
      split
      · exact ih hrest hlo hle
      · split
        · exact ⟨Nat.le_refl _, hle, hlo, hhi, trivial⟩
        · have hlast := le_lastCodePoint hhi
          have hnext := lt_after b
          have htail : Ascending (after b) (if b < hi then cut (after b) hi rest else []) := by
            split
            · next hlt =>
              exact ih hrest (isValidChar_after hvb (by omega)) ((after_le_iff hhi).2 hlt)
            · trivial
          split
          · next hlt =>
            have hlow := before_lt (n := a) (by omega)
            exact ⟨Nat.le_refl _, (le_before_iff hlo hva (by omega)).2 hlt, hlo,
              isValidChar_before hva (by omega), htail.mono (by omega)⟩
          · exact htail.mono (by omega)

theorem le_of_mem_cut {lo hi : Nat} {ranges : List (Nat × Nat)} {r : Nat × Nat}
    (h : r ∈ cut lo hi ranges) : r.2 ≤ hi := by
  induction ranges generalizing lo with
  | nil =>
      rw [cut, List.mem_singleton] at h
      exact h ▸ Nat.le_refl hi
  | cons q rest ih =>
      obtain ⟨a, b⟩ := q
      rw [cut] at h
      split at h
      · exact ih h
      · split at h
        · exact List.mem_singleton.1 h ▸ Nat.le_refl hi
        · rcases List.mem_append.1 h with hlow | hhigh
          · split at hlow
            · rw [List.mem_singleton] at hlow
              have := before_lt (n := a) (by omega)
              subst hlow
              exact Nat.le_trans (Nat.le_of_lt this) (by omega)
            · simp at hlow
          · split at hhigh
            · exact ih hhigh
            · simp at hhigh

theorem ascending_cutAll {first later : Nat} {ranges others : List (Nat × Nat)}
    (h : Ascending first ranges) (hothers : Ascending later others) :
    Ascending first (cutAll ranges others) := by
  induction ranges generalizing first with
  | nil => trivial
  | cons r rest ih =>
      obtain ⟨a, b⟩ := r
      obtain ⟨ha, hab, hva, hvb, hrest⟩ := h
      exact ((ascending_cut hothers hva hvb hab).mono ha).append (fun r hr => le_of_mem_cut hr)
        (ih hrest) (by omega)

theorem covers_cons (a b n : Nat) (rest : List (Nat × Nat)) :
    covers ((a, b) :: rest) n = (decide (a ≤ n ∧ n ≤ b) || covers rest n) := by
  simp [covers]

theorem covers_append (n : Nat) (xs ys : List (Nat × Nat)) :
    covers (xs ++ ys) n = (covers xs n || covers ys n) :=
  List.any_append

theorem covers_insertRange (lo hi n : Nat) (ranges : List (Nat × Nat)) :
    covers (insertRange lo hi ranges) n = (decide (lo ≤ n ∧ n ≤ hi) || covers ranges n) := by
  induction ranges generalizing lo hi with
  | nil => simp [insertRange, covers]
  | cons r rest ih =>
      obtain ⟨a, b⟩ := r
      rw [insertRange]
      split
      · rw [covers_cons lo hi]
      · split
        · rw [covers_cons, ih, covers_cons, Bool.or_left_comm]
        · have hmerged : decide (min lo a ≤ n ∧ n ≤ max hi b) =
              (decide (lo ≤ n ∧ n ≤ hi) || decide (a ≤ n ∧ n ≤ b)) := by
            rw [← Bool.decide_or]
            exact decide_eq_decide.2 (by omega)
          rw [ih, covers_cons, hmerged, Bool.or_assoc]

theorem covers_insertRanges (n : Nat) (ranges into : List (Nat × Nat)) :
    covers (insertRanges ranges into) n = (covers into n || covers ranges n) := by
  induction ranges generalizing into with
  | nil => simp [insertRanges, covers]
  | cons r rest ih =>
      rw [insertRanges, ih, covers_insertRange, covers_cons]
      simp only [Bool.or_assoc, Bool.or_comm, Bool.or_left_comm]

/-- Below the first range, nothing is covered. -/
theorem covers_eq_false {first n : Nat} {ranges : List (Nat × Nat)} (h : Ascending first ranges)
    (hlt : n < first) : covers ranges n = false := by
  induction ranges generalizing first with
  | nil => rfl
  | cons r rest ih =>
      obtain ⟨a, b⟩ := r
      obtain ⟨ha, hab, -, -, hrest⟩ := h
      rw [covers_cons, ih hrest (by omega), Bool.or_false, decide_eq_false_iff_not]
      omega

/-- A gap holds the characters between its ends, except where these are the characters beside the
surrogates. -/
theorem covers_gap {a b n : Nat} (hb : b.isValidChar) (ha : a.isValidChar) (hn : n.isValidChar) :
    covers (gap b a) n =
      (decide (b < n ∧ n < a) ||
        decide (b = beforeSurrogates ∧ a = afterSurrogates) && besideSurrogates n) := by
  have hiff : covers (gap b a) n = true ↔ b < n ∧ n < a ∨
      (b = beforeSurrogates ∧ a = afterSurrogates) ∧
        (n = beforeSurrogates ∨ n = afterSurrogates) := by
    rw [gap]
    split
    · refine ⟨fun h => by simp [covers] at h, fun h => ?_⟩
      simp only [beforeSurrogates, afterSurrogates] at h
      omega
    · have hlow : after b ≤ n ↔ b < n := after_le_iff hn
      have hhigh := le_before_iff hn ha (by omega)
      split
      · next hle =>
        have hnot : ¬ (b = beforeSurrogates ∧ a = afterSurrogates) := by
          rintro ⟨rfl, rfl⟩
          exact absurd hle (by decide)
        simp [covers, hlow, hhigh, hnot]
      · next hle =>
        obtain ⟨rfl, rfl⟩ := surrogates_of_before_lt_after hb ha (by omega) (Nat.not_le.1 hle)
        simp only [Nat.isValidChar, covers, before, after, beforeSurrogates, afterSurrogates] at *
        simp
        omega
  rw [Bool.eq_iff_iff, hiff]
  simp [besideSurrogates]

theorem covers_gapsAfter {b n : Nat} {ranges : List (Nat × Nat)} (h : Ascending (b + 1) ranges)
    (hb : b.isValidChar) (hn : n.isValidChar) :
    covers (gapsAfter b ranges) n =
      (decide (b < n) && !covers ranges n || dividedAfter b ranges && besideSurrogates n) := by
  induction ranges generalizing b with
  | nil =>
      have hlast := le_lastCodePoint hn
      have hiff : after b ≤ n ↔ b < n := after_le_iff hn
      rw [gapsAfter, dividedAfter]
      split
      · simp [covers, hlast, hiff]
      · have hnot : ¬ b < n := by omega
        simp [covers, hnot]
  | cons r rest ih =>
      obtain ⟨a, c⟩ := r
      obtain ⟨ha, hac, hva, hvc, hrest⟩ := h
      rw [gapsAfter, covers_append, covers_gap hb hva hn, ih hrest hvc, covers_cons, dividedAfter]
      have hlow : n ≤ c → covers rest n = false := fun hle => covers_eq_false hrest (by omega)
      rw [Bool.eq_iff_iff]
      by_cases hle : n ≤ c
      · have hnot : ¬ c < n := by omega
        simp only [hlow hle, hle, hnot]
        cases dividedAfter c rest <;> cases besideSurrogates n <;> simp
      · have hbn : b < n := by omega
        have hcn : c < n := by omega
        have hna : ¬ n < a := by omega
        simp only [hle, hbn, hcn, hna]
        cases dividedAfter c rest <;> cases besideSurrogates n <;> cases covers rest n <;> simp

theorem covers_clip (lo hi n : Nat) (ranges : List (Nat × Nat)) :
    covers (clip lo hi ranges) n = (decide (lo ≤ n ∧ n ≤ hi) && covers ranges n) := by
  induction ranges with
  | nil => simp [clip, covers]
  | cons r rest ih =>
      obtain ⟨a, b⟩ := r
      have hshared : decide (max lo a ≤ n ∧ n ≤ min hi b) =
          (decide (lo ≤ n ∧ n ≤ hi) && decide (a ≤ n ∧ n ≤ b)) := by
        rw [← Bool.decide_and]
        exact decide_eq_decide.2 (by omega)
      rw [clip]
      split
      · rw [covers_cons, ih, covers_cons, hshared, Bool.and_or_distrib_left]
      · have hnone : decide (max lo a ≤ n ∧ n ≤ min hi b) = false := by
          rw [decide_eq_false_iff_not]
          omega
        rw [ih, covers_cons, Bool.and_or_distrib_left, ← hshared, hnone, Bool.false_or]

theorem covers_clipAll (n : Nat) (ranges others : List (Nat × Nat)) :
    covers (clipAll ranges others) n = (covers ranges n && covers others n) := by
  induction ranges with
  | nil => simp [clipAll, covers]
  | cons r rest ih =>
      obtain ⟨a, b⟩ := r
      rw [clipAll, covers_append, covers_clip, ih, covers_cons, Bool.and_or_distrib_right]

theorem covers_cut {first lo hi n : Nat} {ranges : List (Nat × Nat)}
    (h : Ascending first ranges) (hlo : lo.isValidChar) (hhi : hi.isValidChar)
    (hn : n.isValidChar) :
    covers (cut lo hi ranges) n = (decide (lo ≤ n ∧ n ≤ hi) && !covers ranges n) := by
  induction ranges generalizing first lo with
  | nil => simp [cut, covers]
  | cons r rest ih =>
      obtain ⟨a, b⟩ := r
      obtain ⟨ha, hab, hva, hvb, hrest⟩ := h
      have hlow : n ≤ b → covers rest n = false := fun hle => covers_eq_false hrest (by omega)
      rw [cut, covers_cons a b]
      split
      · rw [ih hrest hlo]
        by_cases hle : n ≤ b
        · have hnot : ¬ (lo ≤ n ∧ n ≤ hi) := by omega
          simp [hnot]
        · simp [hle]
      · split
        · by_cases hle : n ≤ hi
          · have hnone : covers rest n = false := hlow (by omega)
            have hnot : ¬ a ≤ n := by omega
            rw [hnone]
            simp [covers, hnot]
          · simp [covers, hle]
        · have hlast := le_lastCodePoint hhi
          have hhead : covers (if lo < a then [(lo, before a)] else []) n =
              decide (lo ≤ n ∧ n < a) := by
            split
            · next hlt => simp [covers, le_before_iff hn hva (by omega)]
            · have hnot : ¬ (lo ≤ n ∧ n < a) := by omega
              simp [covers, hnot]
          have htail : covers (if b < hi then cut (after b) hi rest else []) n =
              (decide (b < n ∧ n ≤ hi) && !covers rest n) := by
            split
            · next hlt =>
              simp only [ih hrest (isValidChar_after hvb (by omega)), after_le_iff hn]
            · have hnot : ¬ (b < n ∧ n ≤ hi) := by omega
              simp [covers, hnot]
          rw [covers_append, hhead, htail, Bool.eq_iff_iff]
          by_cases hle : n ≤ b
          · simp [hlow hle]
            omega
          · cases covers rest n <;> simp
            all_goals omega

theorem covers_cutAll {first later n : Nat} {ranges others : List (Nat × Nat)}
    (h : Ascending first ranges) (hothers : Ascending later others) (hn : n.isValidChar) :
    covers (cutAll ranges others) n = (covers ranges n && !covers others n) := by
  induction ranges generalizing first with
  | nil => simp [cutAll, covers]
  | cons r rest ih =>
      obtain ⟨a, b⟩ := r
      obtain ⟨-, -, hva, hvb, hrest⟩ := h
      rw [cutAll, covers_append, covers_cut hothers hva hvb hn, ih hrest, covers_cons,
        Bool.and_or_distrib_right]

end CharSet

/-- A set of characters, as inclusive ranges of code points. -/
structure CharSet where
  ranges : List (Nat × Nat)
  ascending : CharSet.Ascending 0 ranges
deriving DecidableEq, Repr

namespace CharSet

/-- No character. -/
def empty : CharSet := ⟨[], trivial⟩

/-- Every character. -/
def all : CharSet :=
  ⟨[(0, lastCodePoint)], Nat.zero_le _, Nat.zero_le _, by decide, isValidChar_lastCodePoint, trivial⟩

/-- The characters from `lo` to `hi`. -/
def range (lo hi : Char) : CharSet :=
  if h : lo.toNat ≤ hi.toNat then
    ⟨[(lo.toNat, hi.toNat)], Nat.zero_le _, h, lo.valid, hi.valid, trivial⟩
  else empty

/-- One character. -/
def single (c : Char) : CharSet :=
  ⟨[(c.toNat, c.toNat)], Nat.zero_le _, Nat.le_refl _, c.valid, c.valid, trivial⟩

/-- The characters of either set. -/
def union (s t : CharSet) : CharSet :=
  ⟨insertRanges t.ranges s.ranges, ascending_insertRanges s.ascending t.ascending (Nat.le_refl 0)⟩

/-- The set with one more character. -/
def insert (s : CharSet) (c : Char) : CharSet :=
  ⟨insertRange c.toNat c.toNat s.ranges,
    ascending_insertRange s.ascending (Nat.zero_le _) (Nat.le_refl _) c.valid c.valid⟩

/-- The characters of a list of ranges, in any order. -/
def ofRanges (ranges : List (Char × Char)) : CharSet :=
  ranges.foldl (fun set r => set.union (range r.1 r.2)) empty

/-- The characters of a table of code points. -/
def ofTable (table : Unicode.RangeTable) : CharSet :=
  table.foldr (fun r set => set.union (range (Char.ofNat r.1) (Char.ofNat r.2))) empty

/-- The characters in the gaps of the set: those outside it, and of a divided set also the two
beside the surrogates. -/
def compl (s : CharSet) : CharSet := ⟨gaps s.ranges, ascending_gaps s.ascending⟩

/-- The characters of both sets. -/
def inter (s t : CharSet) : CharSet :=
  ⟨clipAll s.ranges t.ranges, ascending_clipAll s.ascending t.ascending⟩

/-- The characters of the first set outside the second. -/
def diff (s t : CharSet) : CharSet :=
  ⟨cutAll s.ranges t.ranges, ascending_cutAll s.ascending t.ascending⟩

/-- The characters of exactly one of the sets. -/
def symmDiff (s t : CharSet) : CharSet := (s.union t).diff (s.inter t)

/-- The character `c` belongs to the set. -/
def contains (s : CharSet) (c : Char) : Bool := covers s.ranges c.toNat

/-- One range of the set ends before the surrogates and the next begins after them. -/
def isDivided (s : CharSet) : Bool :=
  match s.ranges with
  | [] => false
  | (_, b) :: rest => dividedAfter b rest

/-- The only member of a set that has just one. -/
def onlyMember? (s : CharSet) : Option Char :=
  match s.ranges with
  | [(lo, hi)] => if lo = hi then some (Char.ofNat lo) else none
  | _ => none

/-- The set with each pair of `pairs` completed that it meets. -/
def completePairs (pairs : List (Char × Char)) (s : CharSet) : CharSet :=
  pairs.foldl
    (fun set pair =>
      let set := if s.contains pair.1 then set.insert pair.2 else set
      if s.contains pair.2 then set.insert pair.1 else set)
    s

/-- The set closed under simple case folding. -/
def foldCase (s : CharSet) : CharSet := s.completePairs Unicode.caseFoldPairs

/-- The ASCII letters, upper case paired with lower case. -/
def asciiCasePairs : List (Char × Char) :=
  (List.range 26).map fun i => (Char.ofNat (0x41 + i), Char.ofNat (0x61 + i))

/-- The set closed under the case of ASCII letters. -/
def foldAsciiCase (s : CharSet) : CharSet := s.completePairs asciiCasePairs

@[simp] theorem contains_empty (c : Char) : empty.contains c = false := rfl

@[simp] theorem contains_single (c d : Char) : (single c).contains d = decide (d = c) := by
  rw [contains, single, covers_cons]
  simp only [covers, List.any_nil, Bool.or_false]
  refine decide_eq_decide.2 ⟨fun h => Char.toNat_inj.1 (by omega), ?_⟩
  rintro rfl
  omega

@[simp] theorem contains_range (lo hi c : Char) :
    (range lo hi).contains c = decide (lo.toNat ≤ c.toNat ∧ c.toNat ≤ hi.toNat) := by
  rw [range]
  split
  · simp [contains, covers]
  · rw [contains_empty, eq_comm, decide_eq_false_iff_not]
    omega

@[simp] theorem contains_union (s t : CharSet) (c : Char) :
    (s.union t).contains c = (s.contains c || t.contains c) :=
  covers_insertRanges c.toNat t.ranges s.ranges

/-- A character belongs to the complement if it is outside the set, or if it is one of the two that
a divided set shares with its complement. -/
theorem contains_compl (s : CharSet) (c : Char) :
    s.compl.contains c = (!s.contains c || s.isDivided && besideSurrogates c.toNat) := by
  obtain ⟨ranges, hranges⟩ := s
  have hc : c.toNat.isValidChar := c.valid
  have hlast := le_lastCodePoint hc
  cases ranges with
  | nil => simp [contains, compl, gaps, isDivided, covers, hlast]
  | cons r rest =>
      obtain ⟨a, b⟩ := r
      obtain ⟨-, hab, hva, hvb, hrest⟩ := hranges
      have hhead : covers (if 0 < a then [(0, before a)] else []) c.toNat =
          decide (c.toNat < a) := by
        split
        · next hlt => simp [covers, le_before_iff hc hva hlt]
        · have hnot : ¬ c.toNat < a := by omega
          simp [covers, hnot]
      simp only [contains, compl, gaps, isDivided]
      rw [covers_append, hhead, covers_gapsAfter hrest hvb hc, covers_cons]
      by_cases hle : c.toNat ≤ b
      · have hnone : covers rest c.toNat = false := covers_eq_false hrest (by omega)
        have hnot : ¬ b < c.toNat := by omega
        by_cases hlt : c.toNat < a
        · have hnotle : ¬ a ≤ c.toNat := by omega
          simp [hlt, hnone, hnotle]
        · have hge : a ≤ c.toNat := by omega
          simp [hlt, hle, hnot, hge]
      · have hbc : b < c.toNat := by omega
        have hnota : ¬ c.toNat < a := by omega
        simp [hle, hbc, hnota]

/-- A set that is not divided shares no character with its complement. -/
theorem contains_compl_of_not_isDivided {s : CharSet} (h : s.isDivided = false) (c : Char) :
    s.compl.contains c = !s.contains c := by
  rw [contains_compl, h, Bool.false_and, Bool.or_false]

@[simp] theorem contains_inter (s t : CharSet) (c : Char) :
    (s.inter t).contains c = (s.contains c && t.contains c) :=
  covers_clipAll c.toNat s.ranges t.ranges

@[simp] theorem contains_diff (s t : CharSet) (c : Char) :
    (s.diff t).contains c = (s.contains c && !t.contains c) :=
  covers_cutAll s.ascending t.ascending c.valid

@[simp] theorem contains_symmDiff (s t : CharSet) (c : Char) :
    (s.symmDiff t).contains c = (s.contains c != t.contains c) := by
  rw [symmDiff, contains_diff, contains_union, contains_inter]
  cases s.contains c <;> cases t.contains c <;> rfl

end CharSet

end JsoniqLexer.Pattern

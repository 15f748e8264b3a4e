import Mathlib.Order.Bounds.Basic
import JsoniqLexer.Proofs.Pattern.Search

/-!
# Programs that find the longest match

A search prefers matches by the order of choices, not by length. The two agree for a program that is
deterministic: from no place can two instructions read the same character, and `done` is always the
last choice. Then at most one thread is alive, it is never given up, and the match that is found is
the longest (`byteLength_le_of_matchLength?`). `Block.isDeterministic` decides the property by
searching once from every address at which a thread can start.
-/

set_option autoImplicit false

namespace JsoniqLexer.Pattern

/-- The sets have no member in common. -/
def CharSet.isDisjoint (s t : CharSet) : Bool := (s.inter t).ranges.isEmpty

theorem CharSet.contains_eq_false_of_isDisjoint {s t : CharSet} (h : s.isDisjoint t = true)
    {c : Char} (hc : s.contains c = true) : t.contains c = false := by
  have hinter : (s.inter t).contains c = false := by
    rw [isDisjoint, List.isEmpty_iff] at h
    simp [contains, covers, h]
  rw [contains_inter, hc, Bool.true_and] at hinter
  exact hinter

/-- The second set has all members of the first. -/
def CharSet.isWithin (s t : CharSet) : Bool := (s.diff t).ranges.isEmpty

theorem CharSet.contains_of_isWithin {s t : CharSet} (h : s.isWithin t = true) {c : Char}
    (hc : s.contains c = true) : t.contains c = true := by
  have hdiff : (s.diff t).contains c = false := by
    rw [isWithin, List.isEmpty_iff] at h
    simp [contains, covers, h]
  rw [contains_diff, hc, Bool.true_and] at hdiff
  simpa using hdiff

namespace Instr

/-- Where an instruction that reads a character goes on. -/
def next? : Instr → Option Nat
  | .char _ next => some next
  | _ => none

/-- The instruction asserts something. -/
def isLook : Instr → Bool
  | .look _ _ => true
  | _ => false

/-- The instruction reads no character of the set. -/
def avoids (set : CharSet) : Instr → Bool
  | .char other _ => set.isDisjoint other
  | _ => true

end Instr

namespace Block

/-- The addresses at which a thread can start: the entry, and where a character has been read. -/
def starts (p : Block) : List Nat := p.entry :: p.code.filterMap Instr.next?

/-- No two of the instructions read the same character, and none stands after `done`. -/
def isOrderly : List Instr → Bool
  | [] => true
  | .done :: rest => rest.isEmpty
  | .char set _ :: rest => rest.all (Instr.avoids set) && isOrderly rest
  | _ :: rest => isOrderly rest

/-- The program asserts nothing, and from each start the reachable instructions are orderly. -/
def isDeterministic (p : Block) : Bool :=
  p.code.all (fun instr => !instr.isLook) &&
    p.starts.all fun a => isOrderly (reachable p.code ⟨none, none⟩ [a])

/-- Where nothing is asserted, what is reachable does not depend on the place. -/
theorem reachable_congr {code : List Instr} (h : code.all (fun instr => !instr.isLook) = true)
    (here there : Place) (threads : List Nat) :
    reachable code here threads = reachable code there threads := by
  -- only an assertion looks at the place, and there is none
  have htargets (address : Nat) : targets code here address = targets code there address := by
    rw [targets, targets]
    split
    · rfl
    · next a next hinstr =>
      have := List.all_eq_true.1 h _ (List.mem_of_getElem? hinstr)
      simp [Instr.isLook] at this
    · rfl
  have hvisit (fuel : Nat) (waiting seen : List Nat) :
      visit code here fuel waiting seen = visit code there fuel waiting seen := by
    induction fuel generalizing waiting seen with
    | zero => rfl
    | succ fuel ih =>
        cases waiting with
        | nil => rfl
        | cons address waiting =>
            by_cases hmem : address ∈ seen
            · rw [visit_of_mem hmem, visit_of_mem hmem, ih]
            · rw [visit_of_not_mem hmem, visit_of_not_mem hmem, htargets, ih]
  rw [reachable, reachable, hvisit]

/-- Among orderly instructions, one at most reads a character. -/
theorem advance_eq_singleton {here : List Instr} (h : isOrderly here = true) {set : CharSet}
    {next : Nat} {c : Char} (hmem : Instr.char set next ∈ here) (hc : set.contains c = true) :
    advance c here = [next] := by
  -- instructions that avoid a set with `c` in it read nothing
  have hnone {rest : List Instr} {first : CharSet} (hfirst : first.contains c = true)
      (hall : rest.all (Instr.avoids first) = true) : advance c rest = [] := by
    refine List.eq_nil_iff_forall_not_mem.2 fun target htarget => ?_
    obtain ⟨other, hother, hcontains⟩ := exists_of_mem_advance htarget
    have havoids := List.all_eq_true.1 hall _ hother
    rw [CharSet.contains_eq_false_of_isDisjoint havoids hfirst] at hcontains
    cases hcontains
  induction here with
  | nil => simp at hmem
  | cons instr here ih =>
      cases instr with
      | char first target =>
          rw [isOrderly, Bool.and_eq_true] at h
          rw [advance]
          rcases List.mem_cons.1 hmem with heq | hmem
          · cases heq
            -- the first instruction reads `c`, so no later one does
            rw [if_pos hc, hnone hc h.1]
          · have havoids := List.all_eq_true.1 h.1 _ hmem
            have hfirst : first.contains c = false := by
              cases hfirst : first.contains c with
              | false => rfl
              -- a later instruction reads `c`, so the first one does not
              | true =>
                  rw [CharSet.contains_eq_false_of_isDisjoint havoids hfirst] at hc
                  cases hc
            rw [hfirst, if_neg Bool.false_ne_true]
            exact ih h.2 hmem
      | look a target => exact ih h ((List.mem_cons.1 hmem).resolve_left (by simp))
      | split first second => exact ih h ((List.mem_cons.1 hmem).resolve_left (by simp))
      | done =>
          rw [isOrderly, List.isEmpty_iff] at h
          rw [h] at hmem
          simp at hmem

/-- From a start of a deterministic program, a run ends with a match at least as long as every
beginning of the text that is accepted. -/
theorem le_of_run {p : Block} (h : p.isDeterministic = true) {a : Nat} (ha : a ∈ p.starts)
    {before : Option Char} {offset n : Nat} {best : Option Nat} {x rest : Text}
    (hx : Accepted p.code a before x rest)
    (hrun : run p.code [a] before offset best (x ++ rest) = some n) :
    offset + x.byteLength ≤ n := by
  obtain ⟨hlook, hstarts⟩ := Bool.and_eq_true_iff.1 h
  induction x generalizing a before offset best with
  -- `done` is reached here, and what is found later is not shorter
  | nil =>
      have halive : Alive p.code [a] before [] rest := ⟨a, List.mem_cons_self, hx⟩
      have hdone := List.contains_iff_mem.2 (alive_nil_iff.1 halive)
      rw [List.nil_append] at hrun
      cases rest with
      | nil =>
          have hhere : (reachable p.code ⟨before, none⟩ [a]).contains .done = true := hdone
          rw [run, if_pos hhere] at hrun
          cases hrun
          exact Nat.le_refl _
      | cons c rest =>
          have hhere : (reachable p.code ⟨before, some c⟩ [a]).contains .done = true := hdone
          rw [run, if_pos hhere] at hrun
          split at hrun
          · cases hrun
            exact Nat.le_refl _
          · rcases alive_of_run hrun with hn | ⟨y, _, _, hn, _⟩
            · cases hn
              exact Nat.le_refl _
            · rw [Text.byteLength_nil]
              omega
  -- one instruction reads `c`, and it goes on to another start, from which `x` is accepted
  | cons c x ih =>
      have halive : Alive p.code [a] before (c :: x) rest := ⟨a, List.mem_cons_self, hx⟩
      obtain ⟨set, next, hmem, hc, htail⟩ := alive_cons_iff.1 halive
      have horderly : isOrderly (reachable p.code ⟨before, some c⟩ [a]) = true := by
        rw [reachable_congr hlook _ ⟨none, none⟩]
        exact List.all_eq_true.1 hstarts a ha
      have hnext : next ∈ p.starts := by
        obtain ⟨_, _, b, _, hinstr⟩ := mem_reachable_iff.1 hmem
        exact List.mem_cons_of_mem _
          (List.mem_filterMap.2 ⟨_, List.mem_of_getElem? hinstr, rfl⟩)
      rw [List.cons_append, run, advance_eq_singleton horderly hmem hc] at hrun
      have hle := ih hnext htail hrun
      rw [Text.byteLength_cons]
      omega

end Block

namespace Regex

/-- A search with a deterministic program finds the longest match. -/
theorem byteLength_le_of_matchLength? {r : Regex} (h : r.program.isDeterministic = true)
    {x rest : Text} {n : Nat} (hx : r.Matches none x rest)
    (hn : r.program.matchLength? (x ++ rest) = some n) : x.byteLength ≤ n := by
  rw [← accepted_program] at hx
  have hle := Block.le_of_run h List.mem_cons_self hx hn
  omega

/-- The length that a deterministic program finds is the greatest of the lengths of matches. -/
theorem matchLength?_eq_some_iff {r : Regex} (h : r.program.isDeterministic = true) {text : Text}
    {n : Nat} :
    r.program.matchLength? text = some n ↔
      IsGreatest {k | ∃ x rest, text = x ++ rest ∧ r.Matches none x rest ∧ x.byteLength = k} n := by
  constructor
  · intro hn
    obtain ⟨x, rest, htext, hlength, hx⟩ := matches_of_matchLength? hn
    refine ⟨⟨x, rest, htext, hx, hlength⟩, ?_⟩
    rintro _ ⟨y, tail, rfl, hy, rfl⟩
    exact byteLength_le_of_matchLength? h hy hn
  · rintro ⟨⟨x, rest, rfl, hx, rfl⟩, hgreatest⟩
    cases hn : r.program.matchLength? (x ++ rest) with
    | none => exact absurd hx (matchLength?_eq_none_iff.1 hn x rest rfl)
    | some n =>
        obtain ⟨y, tail, htext, hlength, hy⟩ := matches_of_matchLength? hn
        have hle : n ≤ x.byteLength := hgreatest ⟨y, tail, htext, hy, hlength⟩
        have hge := byteLength_le_of_matchLength? h hx hn
        exact congrArg some (Nat.le_antisymm hle hge)

/-- Copies of one character of a set are texts over the set. -/
theorem copies_oneOf_iff {set : CharSet} {n : Nat} {before : Option Char} {x rest : Text} :
    (Reading.oneOf set).copies n before x rest ↔
      x.length = n ∧ ∀ c ∈ x, set.contains c = true := by
  induction n generalizing before x with
  | zero =>
      rw [List.length_eq_zero_iff]
      constructor
      · rintro rfl
        exact ⟨rfl, by simp⟩
      · exact And.left
  | succ n ih =>
      rw [Reading.copies_succ]
      constructor
      · rintro ⟨_, y, rfl, ⟨c, rfl, hc⟩, hy⟩
        obtain ⟨hlength, hall⟩ := ih.1 hy
        exact ⟨by simp [hlength], List.forall_mem_cons.2 ⟨hc, hall⟩⟩
      · rintro ⟨hlength, hall⟩
        cases x with
        | nil => simp at hlength
        | cons c x =>
            obtain ⟨hc, hx⟩ := List.forall_mem_cons.1 hall
            exact ⟨[c], x, rfl, ⟨c, rfl, hc⟩, ih.2 ⟨Nat.succ.inj hlength, hx⟩⟩

theorem matches_plus_char_iff {set : CharSet} {greedy : Bool} {before : Option Char}
    {x rest : Text} :
    (Regex.plus (.char set) greedy).Matches before x rest ↔
      x ≠ [] ∧ ∀ c ∈ x, set.contains c = true := by
  constructor
  · rintro ⟨n, hn, hx⟩
    obtain ⟨rfl, hall⟩ := copies_oneOf_iff.1 hx
    exact ⟨List.ne_nil_of_length_pos hn, hall⟩
  · rintro ⟨hne, hall⟩
    exact ⟨x.length, List.length_pos_iff.2 hne, copies_oneOf_iff.2 ⟨rfl, hall⟩⟩

/-- A greedy run of characters of a set goes up to the first other character. -/
theorem matchLength?_plus_char {set : CharSet} {run rest : Text} (hne : run ≠ [])
    (hrun : ∀ c ∈ run, set.contains c = true)
    (hrest : ∀ c ∈ rest.head?, set.contains c = false) :
    (Regex.plus (.char set) true).program.matchLength? (run ++ rest) = some run.byteLength := by
  -- the program is known but for the set, which no other instruction could meet
  have hdet : (Regex.plus (.char set) true).program.isDeterministic = true := rfl
  refine (matchLength?_eq_some_iff hdet).2 ⟨⟨run, rest, rfl, ?_, rfl⟩, ?_⟩
  · exact matches_plus_char_iff.2 ⟨hne, hrun⟩
  · rintro _ ⟨x, tail, htext, hx, rfl⟩
    obtain ⟨-, hall⟩ := matches_plus_char_iff.1 hx
    -- a match that goes beyond the run would hold the character after it
    rcases List.append_eq_append_iff.1 htext with ⟨more, rfl, hrest'⟩ | ⟨more, rfl, -⟩
    · cases more with
      | nil => simp
      | cons c more =>
          have hc := hrest c (by simp [hrest'])
          rw [hall c (by simp)] at hc
          cases hc
    · simp

/-- A run of characters of a set does not begin with another character. -/
theorem matchLength?_plus_char_eq_none {set : CharSet} {greedy : Bool} {text : Text}
    (h : ∀ c ∈ text.head?, set.contains c = false) :
    (Regex.plus (.char set) greedy).program.matchLength? text = none := by
  refine matchLength?_eq_none_iff.2 ?_
  rintro x rest rfl hx
  obtain ⟨hne, hall⟩ := matches_plus_char_iff.1 hx
  obtain ⟨c, x, rfl⟩ := List.exists_cons_of_ne_nil hne
  have hc := h c (by simp)
  rw [hall c List.mem_cons_self] at hc
  cases hc

end Regex

end JsoniqLexer.Pattern

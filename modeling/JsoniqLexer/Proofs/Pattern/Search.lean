import JsoniqLexer.Proofs.Pattern.Closure

/-!
# A search finds a match where there is one

A run gives up threads when a thread preferred to them has matched, and only then. So it ends with a
match exactly where its threads accept some beginning of the text (`isSome_run`), and the match that
it ends with is accepted (`alive_of_run`). For expressions: `matches_of_matchLength?` says that what
is found is matched, and `matchLength?_eq_none_iff` that nothing is found only where nothing matches.
-/

set_option autoImplicit false

namespace JsoniqLexer.Pattern

namespace Block

/-- Threads that read `c` go on where an instruction that reads it goes on. -/
theorem exists_of_mem_advance {c : Char} {here : List Instr} {next : Nat}
    (h : next ∈ advance c here) :
    ∃ set, Instr.char set next ∈ here ∧ set.contains c = true := by
  induction here with
  | nil => simp [advance] at h
  | cons instr here ih =>
      have htail (h : next ∈ advance c here) :
          ∃ set, Instr.char set next ∈ instr :: here ∧ set.contains c = true := by
        obtain ⟨set, hset, hc⟩ := ih h
        exact ⟨set, List.mem_cons_of_mem _ hset, hc⟩
      -- `advance` stops at `done` and skips whatever does not read `c`
      cases instr with
      | char set target =>
          rw [advance] at h
          split at h
          · next hc =>
            rcases List.mem_cons.1 h with rfl | h
            · exact ⟨set, List.mem_cons_self, hc⟩
            · exact htail h
          · exact htail h
      | look a target => exact htail h
      | split first second => exact htail h
      | done => simp [advance] at h

/-- No thread is given up where `done` is not reached. -/
theorem mem_advance {c : Char} {here : List Instr} {set : CharSet} {next : Nat}
    (hdone : Instr.done ∉ here) (h : Instr.char set next ∈ here) (hc : set.contains c = true) :
    next ∈ advance c here := by
  induction here with
  | nil => simp at h
  | cons instr here ih =>
      have hrest : Instr.done ∉ here := fun hmem => hdone (List.mem_cons_of_mem _ hmem)
      cases instr with
      | char other target =>
          rw [advance]
          rcases List.mem_cons.1 h with heq | h
          · cases heq
            rw [if_pos hc]
            exact List.mem_cons_self
          · split
            · exact List.mem_cons_of_mem _ (ih hrest h)
            · exact ih hrest h
      | look a target => exact ih hrest ((List.mem_cons.1 h).resolve_left (by simp))
      | split first second => exact ih hrest ((List.mem_cons.1 h).resolve_left (by simp))
      | done => exact absurd List.mem_cons_self hdone

variable {code : List Instr}

/-- A run ends with the match it started with or with one that its threads accept. -/
theorem alive_of_run {threads : List Nat} {before : Option Char} {offset n : Nat}
    {best : Option Nat} {text : Text}
    (h : run code threads before offset best text = some n) :
    best = some n ∨ ∃ x rest, text = x ++ rest ∧ n = offset + x.byteLength ∧
      Alive code threads before x rest := by
  induction text generalizing threads before offset best with
  | nil =>
      rw [run] at h
      split at h
      · next hdone =>
        cases h
        exact .inr ⟨[], [], rfl, rfl, alive_nil_iff.2 (List.contains_iff_mem.1 hdone)⟩
      · exact .inl h
  | cons c text ih =>
      rw [run] at h
      have hbest {b : Option Nat}
          (hb : b = if (reachable code ⟨before, some c⟩ threads).contains .done then some offset
            else best) (hn : b = some n) :
          best = some n ∨ ∃ x rest, c :: text = x ++ rest ∧ n = offset + Text.byteLength x ∧
            Alive code threads before x rest := by
        rw [hb] at hn
        split at hn
        · next hdone =>
          cases hn
          exact .inr ⟨[], c :: text, rfl, rfl, alive_nil_iff.2 (List.contains_iff_mem.1 hdone)⟩
        · exact .inl hn
      split at h
      · exact hbest rfl h
      · rcases ih h with hn | ⟨x, rest, rfl, hn, next, hnext, haccepted⟩
        · exact hbest rfl hn
        · obtain ⟨set, hset, hc⟩ := exists_of_mem_advance hnext
          refine .inr ⟨c :: x, rest, rfl, ?_, alive_cons_iff.2 ⟨set, next, hset, hc, haccepted⟩⟩
          rw [hn, Text.byteLength_cons, Nat.add_assoc]

/-- A run ends with a match if it started with one or its threads accept a beginning of the text. -/
theorem isSome_run {threads : List Nat} {before : Option Char} {offset : Nat} {best : Option Nat}
    {text : Text}
    (h : best.isSome = true ∨ ∃ x rest, text = x ++ rest ∧ Alive code threads before x rest) :
    (run code threads before offset best text).isSome = true := by
  induction text generalizing threads before offset best with
  | nil =>
      rw [run]
      rcases h with h | ⟨x, rest, htext, halive⟩
      · split
        · rfl
        · exact h
      · obtain ⟨rfl, rfl⟩ := List.append_eq_nil_iff.1 htext.symm
        have hdone : Instr.done ∈ reachable code ⟨before, none⟩ threads := alive_nil_iff.1 halive
        rw [if_pos (List.contains_iff_mem.2 hdone)]
        rfl
  | cons c text ih =>
      rw [run]
      by_cases hdone : Instr.done ∈ reachable code ⟨before, some c⟩ threads
      · rw [if_pos (List.contains_iff_mem.2 hdone)]
        split
        · rfl
        · exact ih (.inl rfl)
      · rw [if_neg (mt List.contains_iff_mem.1 hdone)]
        rcases h with h | ⟨x, rest, htext, halive⟩
        · split
          · exact h
          · exact ih (.inl h)
        · cases x with
          | nil =>
              have : rest = c :: text := htext.symm
              subst this
              exact absurd (alive_nil_iff.1 halive) hdone
          | cons d x =>
              obtain ⟨rfl, rfl⟩ := List.cons.inj htext
              obtain ⟨set, next, hset, hc, haccepted⟩ := alive_cons_iff.1 halive
              have hnext := mem_advance hdone hset hc
              split
              · next hnone =>
                rw [hnone] at hnext
                simp at hnext
              · exact ih (.inr ⟨x, rest, rfl, next, hnext, haccepted⟩)

end Block

/-- Every character belongs to the set of all of them. -/
theorem CharSet.contains_all (c : Char) : CharSet.all.contains c = true := by
  have hlast : c.toNat ≤ CharSet.lastCodePoint := CharSet.le_lastCodePoint c.valid
  simp only [contains, all, CharSet.covers, List.any_cons, List.any_nil, Bool.or_false,
    Bool.and_eq_true, decide_eq_true_eq]
  exact ⟨Nat.zero_le _, hlast⟩

namespace Regex

theorem alive_program (r : Regex) : Block.Alive r.program.code [r.program.entry] = r.Matches := by
  rw [← accepted_program]
  funext before text rest
  simp [Block.Alive]

/-- What a search finds is a beginning of the text that the expression matches. -/
theorem matches_of_matchLength? {r : Regex} {text : Text} {n : Nat}
    (h : r.program.matchLength? text = some n) :
    ∃ x rest, text = x ++ rest ∧ x.byteLength = n ∧ r.Matches none x rest := by
  rcases Block.alive_of_run h with hn | ⟨x, rest, htext, hn, halive⟩
  · cases hn
  · rw [alive_program] at halive
    exact ⟨x, rest, htext, by omega, halive⟩

/-- A search finds nothing only where the expression matches no beginning of the text. -/
theorem matchLength?_eq_none_iff {r : Regex} {text : Text} :
    r.program.matchLength? text = none ↔
      ∀ x rest, text = x ++ rest → ¬ r.Matches none x rest := by
  constructor
  · intro h x rest htext hx
    rw [← alive_program] at hx
    have hsome := @Block.isSome_run _ _ none 0 none text (.inr ⟨x, rest, htext, hx⟩)
    rw [Block.matchLength?] at h
    rw [h] at hsome
    cases hsome
  · intro h
    cases hn : r.program.matchLength? text with
    | none => rfl
    | some n =>
        obtain ⟨x, rest, htext, -, hx⟩ := matches_of_matchLength? hn
        exact absurd hx (h x rest htext)

/-- Where only one beginning of the text is matched, a search finds it. -/
theorem matchLength?_eq_some_of_unique {r : Regex} {x rest : Text} (hx : r.Matches none x rest)
    (hunique : ∀ y tail, x ++ rest = y ++ tail → r.Matches none y tail → y = x) :
    r.program.matchLength? (x ++ rest) = some x.byteLength := by
  cases hn : r.program.matchLength? (x ++ rest) with
  | none => exact absurd hx (matchLength?_eq_none_iff.1 hn x rest rfl)
  | some n =>
      obtain ⟨y, tail, htext, hlength, hy⟩ := matches_of_matchLength? hn
      rw [← hlength, hunique y tail htext hy]

/-- An expression for a text finds it where it stands. -/
theorem matchLength?_ofText_append (x rest : Text) :
    (ofText x).program.matchLength? (x ++ rest) = some x.byteLength := by
  refine matchLength?_eq_some_of_unique ?_ fun y tail _ hy => ?_
  · rw [matches_ofText]
  · rw [matches_ofText] at hy
    exact hy

/-- An expression for a text finds nothing where the text does not stand. -/
theorem matchLength?_ofText_eq_none {x text : Text} (h : ¬ x <+: text) :
    (ofText x).program.matchLength? text = none := by
  refine matchLength?_eq_none_iff.2 fun y rest htext hy => h ?_
  rw [matches_ofText] at hy
  obtain rfl : y = x := hy
  exact ⟨rest, htext.symm⟩

/-- An expression for one character of a set finds it if it comes first. -/
theorem matchLength?_char_of_contains {set : CharSet} {c : Char} {rest : Text}
    (hc : set.contains c = true) :
    (Regex.char set).program.matchLength? (c :: rest) = some c.utf8Size := by
  have hfound : (Regex.char set).program.matchLength? ([c] ++ rest) =
      some (Text.byteLength [c]) := by
    refine matchLength?_eq_some_of_unique ⟨c, rfl, hc⟩ ?_
    rintro y tail htext ⟨d, rfl, -⟩
    exact congrArg (fun e => [e]) (List.cons.inj htext).1.symm
  simpa using hfound

end Regex

end JsoniqLexer.Pattern

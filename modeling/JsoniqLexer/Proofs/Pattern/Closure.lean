import Mathlib.Data.Finset.Card
import Mathlib.Data.Finset.SDiff
import Mathlib.Logic.Relation
import JsoniqLexer.Proofs.Pattern.Layout

/-!
# The instructions that a run can reach without reading

`Block.visit` searches the instructions that lead on without reading a character. It finds all that
the threads lead to and nothing else (`mem_reachable_iff`): every address is expanded at most once
and adds at most two, so the fuel of `Block.reachable` never runs out. Hence what a list of threads
accepts can be read off the instructions that it reaches: `alive_nil_iff` and `alive_cons_iff`.
-/

set_option autoImplicit false

namespace JsoniqLexer.Pattern.Block

/-- Where an instruction leads on to without reading a character. -/
def targets (code : List Instr) (place : Place) (address : Nat) : List Nat :=
  match code[address]? with
  | some (.split first second) => [first, second]
  | some (.look a next) => if a.holds place.before place.after then [next] else []
  | _ => []

/-- One address leads on to another without reading a character. -/
def Leads (code : List Instr) (place : Place) (a b : Nat) : Prop := b ∈ targets code place a

theorem length_targets_le (code : List Instr) (place : Place) (address : Nat) :
    (targets code place address).length ≤ 2 := by
  rw [targets]
  split
  · exact Nat.le_refl 2
  · split
    · exact Nat.le_succ 1
    · exact Nat.zero_le 2
  · exact Nat.zero_le 2

theorem targets_eq_nil {code : List Instr} {place : Place} {address : Nat}
    (h : code.length ≤ address) : targets code place address = [] := by
  rw [targets, List.getElem?_eq_none h]

theorem visit_of_mem {code : List Instr} {place : Place} {fuel address : Nat}
    {waiting seen : List Nat} (h : address ∈ seen) :
    visit code place (fuel + 1) (address :: waiting) seen =
      visit code place fuel waiting seen := by
  rw [visit, if_pos h]

theorem visit_of_not_mem {code : List Instr} {place : Place} {fuel address : Nat}
    {waiting seen : List Nat} (h : address ∉ seen) :
    visit code place (fuel + 1) (address :: waiting) seen =
      visit code place fuel (targets code place address ++ waiting) (address :: seen) := by
  rw [visit, if_neg h, targets]
  cases hinstr : code[address]? with
  -- each kind of instruction adds what `targets` says it leads on to
  | none => rfl
  | some instr =>
      cases instr with
      | char set next => rfl
      | look a next =>
          simp only
          split <;> rfl
      | split first second => rfl
      | done => rfl

/-- The number of addresses of the program that have not been visited. -/
def unseen (code : List Instr) (seen : List Nat) : Nat :=
  (Finset.range code.length \ seen.toFinset).card

theorem unseen_nil (code : List Instr) : unseen code [] = code.length := by
  simp [unseen]

theorem unseen_cons_le (code : List Instr) (seen : List Nat) (address : Nat) :
    unseen code (address :: seen) ≤ unseen code seen := by
  refine Finset.card_le_card (Finset.sdiff_subset_sdiff (Finset.Subset.refl _) ?_)
  rw [List.toFinset_cons]
  exact Finset.subset_insert _ _

theorem unseen_cons_lt {code : List Instr} {seen : List Nat} {address : Nat}
    (hlt : address < code.length) (h : address ∉ seen) :
    unseen code (address :: seen) < unseen code seen := by
  refine Finset.card_lt_card ⟨?_, fun hsub => ?_⟩
  · refine Finset.sdiff_subset_sdiff (Finset.Subset.refl _) ?_
    rw [List.toFinset_cons]
    exact Finset.subset_insert _ _
  · have hmem : address ∈ Finset.range code.length \ seen.toFinset := by
      simp [hlt, h]
    have := hsub hmem
    simp at this

/-- Expanding an address pays for the addresses that it adds. -/
theorem length_targets_add_unseen {code : List Instr} {place : Place} {seen : List Nat}
    {address : Nat} (h : address ∉ seen) :
    (targets code place address).length + 2 * unseen code (address :: seen) ≤
      2 * unseen code seen := by
  -- an address outside of the program leads nowhere and costs nothing
  rcases Nat.lt_or_ge address code.length with hlt | hge
  · have hcard := unseen_cons_lt hlt h
    have hlength := length_targets_le code place address
    omega
  · rw [targets_eq_nil hge, List.length_nil]
    have hcard := unseen_cons_le code seen address
    omega

/-- With enough fuel, a search visits what is waiting and whatever it leads to: when every address
seen so far leads to addresses that are seen or waiting, every visited one leads to visited ones. -/
theorem visit_closed {code : List Instr} {place : Place} {fuel : Nat} {waiting seen : List Nat}
    (hfuel : waiting.length + 2 * unseen code seen < fuel)
    (hseen : ∀ a ∈ seen, ∀ b, Leads code place a b → b ∈ seen ∨ b ∈ waiting) :
    (∀ a, a ∈ seen ∨ a ∈ waiting → a ∈ visit code place fuel waiting seen) ∧
      ∀ a ∈ visit code place fuel waiting seen, ∀ b, Leads code place a b →
        b ∈ visit code place fuel waiting seen := by
  induction fuel generalizing waiting seen with
  | zero => omega
  | succ fuel ih =>
      cases waiting with
      | nil =>
          rw [visit]
          exact ⟨fun a ha => ha.resolve_right List.not_mem_nil,
            fun a ha b hb => (hseen a ha b hb).resolve_right List.not_mem_nil⟩
      | cons address waiting =>
          rw [List.length_cons] at hfuel
          -- an address seen before is dropped; a new one puts its targets in front of the waiting
          by_cases hmem : address ∈ seen
          · rw [visit_of_mem hmem]
            obtain ⟨hin, hclosed⟩ := @ih waiting seen (by omega) (by
              intro a ha b hb
              rcases hseen a ha b hb with hb | hb
              · exact .inl hb
              · rcases List.mem_cons.1 hb with rfl | hb
                · exact .inl hmem
                · exact .inr hb)
            refine ⟨fun a ha => hin a ?_, hclosed⟩
            rcases ha with ha | ha
            · exact .inl ha
            · rcases List.mem_cons.1 ha with rfl | ha
              · exact .inl hmem
              · exact .inr ha
          · rw [visit_of_not_mem hmem]
            -- the fuel that is left covers the targets, since the address is unseen no more
            have hpaid := @length_targets_add_unseen code place seen address hmem
            obtain ⟨hin, hclosed⟩ := @ih (targets code place address ++ waiting)
              (address :: seen) (by rw [List.length_append]; omega) (by
                intro a ha b hb
                rcases List.mem_cons.1 ha with rfl | ha
                · exact .inr (List.mem_append_left _ hb)
                · rcases hseen a ha b hb with hb | hb
                  · exact .inl (List.mem_cons_of_mem _ hb)
                  · rcases List.mem_cons.1 hb with rfl | hb
                    · exact .inl List.mem_cons_self
                    · exact .inr (List.mem_append_right _ hb))
            refine ⟨fun a ha => hin a ?_, hclosed⟩
            rcases ha with ha | ha
            · exact .inl (List.mem_cons_of_mem _ ha)
            · rcases List.mem_cons.1 ha with rfl | ha
              · exact .inl List.mem_cons_self
              · exact .inr (List.mem_append_right _ ha)

/-- A search visits only what it started with and what that leads to. -/
theorem leads_of_mem_visit {code : List Instr} {place : Place} {fuel : Nat}
    {waiting seen : List Nat} {b : Nat} (h : b ∈ visit code place fuel waiting seen) :
    b ∈ seen ∨ ∃ a ∈ waiting, Relation.ReflTransGen (Leads code place) a b := by
  induction fuel generalizing waiting seen with
  | zero => exact .inl h
  | succ fuel ih =>
      cases waiting with
      | nil => exact .inl h
      | cons address waiting =>
          by_cases hmem : address ∈ seen
          · rw [visit_of_mem hmem] at h
            refine (ih h).imp_right ?_
            rintro ⟨a, ha, hab⟩
            exact ⟨a, List.mem_cons_of_mem _ ha, hab⟩
          · rw [visit_of_not_mem hmem] at h
            -- what is found begins at the address, at one of its targets, or elsewhere
            rcases ih h with hb | ⟨a, ha, hab⟩
            · rcases List.mem_cons.1 hb with rfl | hb
              · exact .inr ⟨b, List.mem_cons_self, .refl⟩
              · exact .inl hb
            · rcases List.mem_append.1 ha with ha | ha
              · exact .inr ⟨address, List.mem_cons_self, .head ha hab⟩
              · exact .inr ⟨a, List.mem_cons_of_mem _ ha, hab⟩

/-- The reachable instructions are those that a thread leads to without reading a character. -/
theorem mem_reachable_iff {code : List Instr} {place : Place} {threads : List Nat}
    {instr : Instr} :
    instr ∈ reachable code place threads ↔
      ∃ a ∈ threads, ∃ b, Relation.ReflTransGen (Leads code place) a b ∧
        code[b]? = some instr := by
  have hfuel : threads.length + 2 * unseen code [] < threads.length + 2 * code.length + 1 := by
    rw [unseen_nil]
    omega
  obtain ⟨hin, hclosed⟩ := @visit_closed code place _ threads [] hfuel (by simp)
  rw [reachable, List.mem_filterMap]
  -- found and so led to; led to and so found, as what is found is closed under `Leads`
  constructor
  · rintro ⟨b, hb, hinstr⟩
    obtain ⟨a, ha, hab⟩ :=
      (leads_of_mem_visit (List.mem_reverse.1 hb)).resolve_left List.not_mem_nil
    exact ⟨a, ha, b, hab, hinstr⟩
  · rintro ⟨a, ha, b, hab, hinstr⟩
    refine ⟨b, List.mem_reverse.2 ?_, hinstr⟩
    clear hinstr
    induction hab with
    | refl => exact hin a (.inr ha)
    | tail _ hstep ih => exact hclosed _ ih _ hstep

/-! ## What a list of threads accepts -/

/-- One of the threads accepts. -/
def Alive (code : List Instr) (threads : List Nat) : Reading := fun before text rest =>
  ∃ a ∈ threads, Accepted code a before text rest

/-- What is accepted where an address leads to is accepted from the address. -/
theorem accepted_of_leads {code : List Instr} {before : Option Char} {text rest : Text} {a b : Nat}
    (h : Relation.ReflTransGen (Leads code ⟨before, (text ++ rest).head?⟩) a b)
    (hb : Accepted code b before text rest) : Accepted code a before text rest := by
  induction h using Relation.ReflTransGen.head_induction_on with
  | refl => exact hb
  -- only a choice and an assertion that holds here lead on
  | @head a c hac _ ih =>
      rw [Leads, targets] at hac
      split at hac
      · next first second hinstr =>
        refine accepted_of_split hinstr ?_
        rcases List.mem_cons.1 hac with rfl | hac
        · exact .inl ih
        · exact .inr (List.mem_singleton.1 hac ▸ ih)
      · next assertion next hinstr =>
        split at hac
        · next hholds =>
          obtain ⟨n, hc⟩ := ih
          rw [List.mem_singleton.1 hac] at hc
          exact ⟨n + 1, .look hinstr hholds hc⟩
        · simp at hac
      · simp at hac

/-- An accepted text is accepted from an instruction that reads, or from `done`. -/
theorem leads_of_accepts {code : List Instr} {steps a : Nat} {before : Option Char}
    {text rest : Text} (h : Accepts code steps a before text rest) :
    ∃ b, Relation.ReflTransGen (Leads code ⟨before, (text ++ rest).head?⟩) a b ∧
      ((text = [] ∧ code[b]? = some .done) ∨
        ∃ c tail set next, text = c :: tail ∧ code[b]? = some (.char set next) ∧
          set.contains c = true ∧ Accepted code next (some c) tail rest) := by
  induction h with
  | done h => exact ⟨_, .refl, .inl ⟨rfl, h⟩⟩
  -- instructions that read stop the search, the others are one link of the chain
  | char h hc htail => exact ⟨_, .refl, .inr ⟨_, _, _, _, rfl, h, hc, _, htail⟩⟩
  | look h ha _ ih =>
      obtain ⟨b, hb, hleaf⟩ := ih
      refine ⟨b, .head ?_ hb, hleaf⟩
      simp only [Leads, targets, h, ha, if_true, List.mem_singleton]
  | first h _ ih =>
      obtain ⟨b, hb, hleaf⟩ := ih
      refine ⟨b, .head ?_ hb, hleaf⟩
      simp [Leads, targets, h]
  | second h _ ih =>
      obtain ⟨b, hb, hleaf⟩ := ih
      refine ⟨b, .head ?_ hb, hleaf⟩
      simp [Leads, targets, h]

/-- Threads accept the empty text if they reach `done`. -/
theorem alive_nil_iff {code : List Instr} {threads : List Nat} {before : Option Char}
    {rest : Text} :
    Alive code threads before [] rest ↔
      Instr.done ∈ reachable code ⟨before, rest.head?⟩ threads := by
  rw [mem_reachable_iff]
  constructor
  · rintro ⟨a, ha, n, h⟩
    obtain ⟨b, hab, ⟨-, hdone⟩ | ⟨c, tail, _, _, htext, _⟩⟩ := leads_of_accepts h
    · exact ⟨a, ha, b, hab, hdone⟩
    · cases htext
  · rintro ⟨a, ha, b, hab, hdone⟩
    exact ⟨a, ha, accepted_of_leads hab ⟨0, .done hdone⟩⟩

/-- Threads accept a text if they reach an instruction that reads its first character and goes on
where the tail is accepted. -/
theorem alive_cons_iff {code : List Instr} {threads : List Nat} {before : Option Char} {c : Char}
    {text rest : Text} :
    Alive code threads before (c :: text) rest ↔
      ∃ set next, Instr.char set next ∈ reachable code ⟨before, some c⟩ threads ∧
        set.contains c = true ∧ Accepted code next (some c) text rest := by
  constructor
  · rintro ⟨a, ha, n, h⟩
    obtain ⟨b, hab, ⟨htext, -⟩ | ⟨_, _, set, next, htext, hinstr, hc, htail⟩⟩ := leads_of_accepts h
    · cases htext
    · cases htext
      exact ⟨set, next, mem_reachable_iff.2 ⟨a, ha, b, hab, hinstr⟩, hc, htail⟩
  · rintro ⟨set, next, hmem, hc, n, htail⟩
    obtain ⟨a, ha, b, hab, hinstr⟩ := mem_reachable_iff.1 hmem
    exact ⟨a, ha, accepted_of_leads hab ⟨n + 1, .char hinstr hc htail⟩⟩

end JsoniqLexer.Pattern.Block

import JsoniqLexer.Pattern.Program
import JsoniqLexer.Proofs.Pattern.Language

/-!
# What the layout of an expression accepts

`Accepts` follows the instructions of a program from an address to `done` and counts them, without
preferences. An expression that is laid out somewhere in a program accepts from its entry what it
matches and then what is accepted where it goes on (`accepted_layout`). So a program accepts from its
entry exactly what its expression matches (`accepted_program`).
-/

set_option autoImplicit false

namespace JsoniqLexer.Pattern

/-- From `address` on, `text` is read in a number of instructions and `done` is reached, `before`
being the character before the text and `rest` what follows it. -/
inductive Accepts (code : List Instr) :
    (steps address : Nat) → (before : Option Char) → (text rest : Text) → Prop where
  | done {address : Nat} {before : Option Char} {rest : Text} (h : code[address]? = some .done) :
      Accepts code 0 address before [] rest
  | char {steps address next : Nat} {set : CharSet} {c : Char} {before : Option Char}
      {text rest : Text} (h : code[address]? = some (.char set next)) (hc : set.contains c = true)
      (htail : Accepts code steps next (some c) text rest) :
      Accepts code (steps + 1) address before (c :: text) rest
  | look {steps address next : Nat} {a : Assertion} {before : Option Char} {text rest : Text}
      (h : code[address]? = some (.look a next))
      (ha : a.holds before (text ++ rest).head? = true)
      (htail : Accepts code steps next before text rest) :
      Accepts code (steps + 1) address before text rest
  | first {steps address first second : Nat} {before : Option Char} {text rest : Text}
      (h : code[address]? = some (.split first second))
      (htail : Accepts code steps first before text rest) :
      Accepts code (steps + 1) address before text rest
  | second {steps address first second : Nat} {before : Option Char} {text rest : Text}
      (h : code[address]? = some (.split first second))
      (htail : Accepts code steps second before text rest) :
      Accepts code (steps + 1) address before text rest

/-- What is accepted from an address in any number of instructions. -/
def Accepted (code : List Instr) (address : Nat) : Reading := fun before text rest =>
  ∃ steps, Accepts code steps address before text rest

section Inversion

variable {code : List Instr} {steps address : Nat} {before : Option Char} {text rest : Text}

theorem Accepts.of_done (h : code[address]? = some .done)
    (htext : Accepts code steps address before text rest) : text = [] := by
  -- only `done` stands at this address, so the other constructors are absurd
  cases htext with
  | done _ => rfl
  | char h' _ _ => rw [h] at h'; cases h'
  | look h' _ _ => rw [h] at h'; cases h'
  | first h' _ => rw [h] at h'; cases h'
  | second h' _ => rw [h] at h'; cases h'

theorem Accepts.of_char {set : CharSet} {next : Nat} (h : code[address]? = some (.char set next))
    (htext : Accepts code steps address before text rest) :
    ∃ c tail m, m < steps ∧ text = c :: tail ∧ set.contains c = true ∧
      Accepts code m next (some c) tail rest := by
  cases htext with
  | done h' => rw [h] at h'; cases h'
  | char h' hc htail =>
      rw [h] at h'
      cases h'
      exact ⟨_, _, _, Nat.lt_succ_self _, rfl, hc, htail⟩
  | look h' _ _ => rw [h] at h'; cases h'
  | first h' _ => rw [h] at h'; cases h'
  | second h' _ => rw [h] at h'; cases h'

theorem Accepts.of_look {a : Assertion} {next : Nat} (h : code[address]? = some (.look a next))
    (htext : Accepts code steps address before text rest) :
    a.holds before (text ++ rest).head? = true ∧
      ∃ m, m < steps ∧ Accepts code m next before text rest := by
  cases htext with
  | done h' => rw [h] at h'; cases h'
  | char h' _ _ => rw [h] at h'; cases h'
  | look h' ha htail =>
      rw [h] at h'
      cases h'
      exact ⟨ha, _, Nat.lt_succ_self _, htail⟩
  | first h' _ => rw [h] at h'; cases h'
  | second h' _ => rw [h] at h'; cases h'

theorem Accepts.of_split {first second : Nat} (h : code[address]? = some (.split first second))
    (htext : Accepts code steps address before text rest) :
    ∃ m, m < steps ∧
      (Accepts code m first before text rest ∨ Accepts code m second before text rest) := by
  cases htext with
  | done h' => rw [h] at h'; cases h'
  | char h' _ _ => rw [h] at h'; cases h'
  | look h' _ _ => rw [h] at h'; cases h'
  | first h' htail =>
      rw [h] at h'
      cases h'
      exact ⟨_, Nat.lt_succ_self _, .inl htail⟩
  | second h' htail =>
      rw [h] at h'
      cases h'
      exact ⟨_, Nat.lt_succ_self _, .inr htail⟩

/-- The choice of a loop goes on to another copy or leaves, whichever is preferred. -/
theorem Accepts.of_loop {greedy : Bool} {again leave : Nat}
    (h : code[address]? = some (.loop greedy again leave))
    (htext : Accepts code steps address before text rest) :
    ∃ m, m < steps ∧
      (Accepts code m again before text rest ∨ Accepts code m leave before text rest) := by
  cases greedy with
  | true => exact htext.of_split h
  | false =>
      obtain ⟨m, hm, htail⟩ := htext.of_split h
      exact ⟨m, hm, htail.symm⟩

end Inversion

theorem accepted_of_split {code : List Instr} {address first second : Nat}
    (h : code[address]? = some (.split first second)) {before : Option Char} {text rest : Text}
    (htail : Accepted code first before text rest ∨ Accepted code second before text rest) :
    Accepted code address before text rest := by
  rcases htail with ⟨n, htail⟩ | ⟨n, htail⟩
  · exact ⟨n + 1, .first h htail⟩
  · exact ⟨n + 1, .second h htail⟩

theorem accepted_of_loop {code : List Instr} {address again leave : Nat} {greedy : Bool}
    (h : code[address]? = some (.loop greedy again leave)) {before : Option Char}
    {text rest : Text}
    (htail : Accepted code again before text rest ∨ Accepted code leave before text rest) :
    Accepted code address before text rest := by
  cases greedy with
  | true => exact accepted_of_split h htail
  | false => exact accepted_of_split h htail.symm

theorem accepted_of_done {code : List Instr} {address : Nat} (h : code[address]? = some .done) :
    Accepted code address = .nothing := by
  funext before text rest
  apply propext
  constructor
  · rintro ⟨n, htext⟩
    exact htext.of_done h
  · rintro rfl
    exact ⟨0, .done h⟩

namespace Regex

/-- The instructions of an expression stand in a program from address `base` on. -/
def LaidOut (code : List Instr) (r : Regex) (base next : Nat) : Prop :=
  ∀ i, i < r.size → code[base + i]? = (r.layout base next).code[i]?

section Parts

variable {code : List Instr} {a b : Regex} {base next : Nat} {greedy : Bool}

theorem LaidOut.char {set : CharSet} (h : (Regex.char set).LaidOut code base next) :
    code[base]? = some (.char set next) :=
  h 0 (Nat.lt_succ_self 0)

theorem LaidOut.look {c : Assertion} (h : (Regex.look c).LaidOut code base next) :
    code[base]? = some (.look c next) :=
  h 0 (Nat.lt_succ_self 0)

theorem LaidOut.seq_right (h : (Regex.seq a b).LaidOut code base next) :
    b.LaidOut code (base + a.size) next := by
  intro i hi
  have hlength := length_layout a base (b.layout (base + a.size) next).entry
  have hcode := h (a.size + i) (Nat.add_lt_add_left hi _)
  rw [layout, ← Nat.add_assoc] at hcode
  rw [hcode, List.getElem?_append_right (by omega), hlength, Nat.add_sub_cancel_left]

theorem LaidOut.seq_left (h : (Regex.seq a b).LaidOut code base next) :
    a.LaidOut code base (b.layout (base + a.size) next).entry := by
  intro i hi
  have hlength := length_layout a base (b.layout (base + a.size) next).entry
  have hcode := h i (Nat.lt_of_lt_of_le hi (Nat.le_add_right _ _))
  rw [layout] at hcode
  rw [hcode, List.getElem?_append_left (by omega)]

theorem LaidOut.alt_choice (h : (Regex.alt a b).LaidOut code base next) :
    code[base]? = some (.split (a.layout (base + 1) next).entry
      (b.layout (base + 1 + a.size) next).entry) :=
  h 0 (Nat.succ_pos _)

theorem LaidOut.alt_left (h : (Regex.alt a b).LaidOut code base next) :
    a.LaidOut code (base + 1) next := by
  intro i hi
  have hlength := length_layout a (base + 1) next
  have hcode := h (i + 1) (Nat.succ_lt_succ (Nat.lt_of_lt_of_le hi (Nat.le_add_right _ _)))
  rw [layout, List.getElem?_cons_succ, List.getElem?_append_left (by omega)] at hcode
  rw [← hcode, Nat.add_right_comm, Nat.add_assoc]

theorem LaidOut.alt_right (h : (Regex.alt a b).LaidOut code base next) :
    b.LaidOut code (base + 1 + a.size) next := by
  intro i hi
  have hlength := length_layout a (base + 1) next
  have hcode := h (a.size + i + 1) (Nat.succ_lt_succ (Nat.add_lt_add_left hi _))
  rw [layout, List.getElem?_cons_succ, List.getElem?_append_right (by omega), hlength,
    Nat.add_sub_cancel_left] at hcode
  rw [← hcode]
  congr 1
  omega

theorem LaidOut.plus_choice (h : (Regex.plus a greedy).LaidOut code base next) :
    code[base]? = some (.loop greedy (a.layout (base + 1) base).entry next) :=
  h 0 (Nat.succ_pos _)

theorem LaidOut.plus_body (h : (Regex.plus a greedy).LaidOut code base next) :
    a.LaidOut code (base + 1) base := by
  intro i hi
  have hcode := h (i + 1) (Nat.succ_lt_succ hi)
  rw [layout, List.getElem?_cons_succ] at hcode
  rw [← hcode, Nat.add_right_comm, Nat.add_assoc]

theorem LaidOut.star_choice (h : (Regex.star a greedy).LaidOut code base next) :
    code[base]? = some (.loop greedy (a.layout (base + 1) base).entry next) :=
  h 0 (Nat.succ_pos _)

theorem LaidOut.star_body (h : (Regex.star a greedy).LaidOut code base next) :
    a.LaidOut code (base + 1) base := by
  intro i hi
  have hcode := h (i + 1) (Nat.succ_lt_succ hi)
  rw [layout, List.getElem?_cons_succ] at hcode
  rw [← hcode, Nat.add_right_comm, Nat.add_assoc]

end Parts

/-- What is accepted from `entry` in `steps` instructions is a beginning that `R` reads, and a rest
that is accepted from `next` in no more instructions. -/
def LeadsTo (code : List Instr) (R : Reading) (entry next : Nat) : Prop :=
  ∀ {steps : Nat} {before : Option Char} {text rest : Text},
    Accepts code steps entry before text rest →
      ∃ m ≤ steps, ∃ x y, text = x ++ y ∧ R before x (y ++ rest) ∧
        Accepts code m next (lastOf before x) y rest

/-- From the choice of a loop any number of copies of the body are read before it is left. -/
theorem leadsTo_loop {code : List Instr} {R : Reading} {greedy : Bool} {base entry next : Nat}
    (hchoice : code[base]? = some (.loop greedy entry next)) (hbody : LeadsTo code R entry base) :
    LeadsTo code (.anyOf (fun _ => True) R.copies) base next := by
  intro steps
  -- each round uses up the instruction of the choice, so the number of instructions goes down
  induction steps using Nat.strongRecOn with
  | ind steps ih =>
    intro before text rest htext
    -- once more through the body and back to the choice, or out of the loop
    obtain ⟨m, hm, htail | htail⟩ := htext.of_loop hchoice
    · obtain ⟨k, hk, x, y, rfl, hx, hy⟩ := hbody htail
      obtain ⟨j, hj, y, z, rfl, ⟨n, -, hcopies⟩, hz⟩ := ih k (by omega) hy
      rw [← lastOf_append] at hz
      rw [List.append_assoc] at hx
      exact ⟨j, by omega, x ++ y, z, (List.append_assoc x y z).symm,
        ⟨n + 1, trivial, x, y, rfl, hx, hcopies⟩, hz⟩
    · exact ⟨m, Nat.le_of_lt hm, [], text, rfl, ⟨0, trivial, rfl⟩, htail⟩

/-- What the layout of an expression accepts begins with something that the expression matches. -/
theorem leadsTo_layout {code : List Instr} {r : Regex} {base next : Nat}
    (h : r.LaidOut code base next) : LeadsTo code r.Matches (r.layout base next).entry next := by
  induction r generalizing base next with
  | empty => exact fun htext => ⟨_, Nat.le_refl _, [], _, rfl, rfl, htext⟩
  | char set =>
      intro steps before text rest htext
      obtain ⟨c, tail, m, hm, rfl, hc, htail⟩ := htext.of_char h.char
      exact ⟨m, Nat.le_of_lt hm, [c], tail, rfl, ⟨c, rfl, hc⟩, htail⟩
  | look a =>
      intro steps before text rest htext
      obtain ⟨ha, m, hm, htail⟩ := htext.of_look h.look
      exact ⟨m, Nat.le_of_lt hm, [], text, rfl, ⟨rfl, ha⟩, htail⟩
  | seq a b iha ihb =>
      intro steps before text rest htext
      obtain ⟨m, hm, x, _, rfl, hx, htail⟩ := iha h.seq_left htext
      obtain ⟨k, hk, y, z, rfl, hy, hz⟩ := ihb h.seq_right htail
      rw [← lastOf_append] at hz
      rw [List.append_assoc] at hx
      exact ⟨k, Nat.le_trans hk hm, x ++ y, z, (List.append_assoc x y z).symm,
        ⟨x, y, rfl, hx, hy⟩, hz⟩
  | alt a b iha ihb =>
      intro steps before text rest htext
      obtain ⟨m, hm, htail | htail⟩ := htext.of_split h.alt_choice
      · obtain ⟨k, hk, x, y, hxy, hx, hy⟩ := iha h.alt_left htail
        exact ⟨k, by omega, x, y, hxy, .inl hx, hy⟩
      · obtain ⟨k, hk, x, y, hxy, hx, hy⟩ := ihb h.alt_right htail
        exact ⟨k, by omega, x, y, hxy, .inr hx, hy⟩
  -- the first copy is read before the choice stands, the others through it
  | plus a greedy ih =>
      intro steps before text rest htext
      obtain ⟨m, hm, x, _, rfl, hx, htail⟩ := ih h.plus_body htext
      obtain ⟨k, hk, y, z, rfl, ⟨n, -, hcopies⟩, hz⟩ :=
        leadsTo_loop h.plus_choice (ih h.plus_body) htail
      rw [← lastOf_append] at hz
      rw [List.append_assoc] at hx
      exact ⟨k, Nat.le_trans hk hm, x ++ y, z, (List.append_assoc x y z).symm,
        ⟨n + 1, Nat.le_add_left 1 n, x, y, rfl, hx, hcopies⟩, hz⟩
  | star a greedy ih => exact leadsTo_loop h.star_choice (ih h.star_body)

/-- Copies of the body can be read one after the other through the choice of a loop. -/
theorem accepted_copies {code : List Instr} {R : Reading} {greedy : Bool} {base entry next : Nat}
    (hchoice : code[base]? = some (.loop greedy entry next))
    (hbody : ∀ before text rest, R.andThen (Accepted code base) before text rest →
      Accepted code entry before text rest)
    {n : Nat} {before : Option Char} {x y rest : Text}
    (hx : R.copies n before x (y ++ rest)) (hy : Accepted code next (lastOf before x) y rest) :
    Accepted code base before (x ++ y) rest := by
  induction n generalizing before x with
  | zero =>
      obtain rfl : x = [] := hx
      exact accepted_of_loop hchoice (.inr hy)
  | succ n ih =>
      obtain ⟨x, z, rfl, hhead, htail⟩ := hx
      rw [lastOf_append] at hy
      -- a copy is left, so the choice goes on to the body
      refine accepted_of_loop hchoice (.inl (hbody _ _ _ ?_))
      refine ⟨x, z ++ y, List.append_assoc x z y, ?_, ih htail hy⟩
      rw [List.append_assoc]
      exact hhead

/-- What an expression matches can be read in its layout. -/
theorem accepted_of_matches {code : List Instr} {r : Regex} {base next : Nat}
    (h : r.LaidOut code base next) {before : Option Char} {text rest : Text}
    (htext : r.Matches.andThen (Accepted code next) before text rest) :
    Accepted code (r.layout base next).entry before text rest := by
  induction r generalizing base next before text rest with
  | empty =>
      obtain ⟨x, y, rfl, rfl, hy⟩ := htext
      exact hy
  | char set =>
      obtain ⟨_, y, rfl, ⟨c, rfl, hc⟩, n, hy⟩ := htext
      exact ⟨n + 1, .char h.char hc hy⟩
  | look a =>
      obtain ⟨_, y, rfl, ⟨rfl, ha⟩, n, hy⟩ := htext
      exact ⟨n + 1, .look h.look ha hy⟩
  | seq a b iha ihb =>
      rw [Matches, Reading.andThen_assoc] at htext
      obtain ⟨x, y, rfl, hx, hy⟩ := htext
      exact iha h.seq_left ⟨x, y, rfl, hx, ihb h.seq_right hy⟩
  | alt a b iha ihb =>
      rw [Matches, Reading.either_andThen] at htext
      refine accepted_of_split h.alt_choice ?_
      exact htext.imp (iha h.alt_left) (ihb h.alt_right)
  -- the first copy leads to the choice, through which the others are read
  | plus a greedy ih =>
      obtain ⟨_, z, rfl, ⟨n, hn, hcopies⟩, hz⟩ := htext
      obtain ⟨n, rfl⟩ : ∃ m, n = m + 1 := ⟨n - 1, by omega⟩
      obtain ⟨x, y, rfl, hx, hy⟩ := hcopies
      rw [lastOf_append] at hz
      refine ih h.plus_body ⟨x, y ++ z, List.append_assoc x y z, ?_, ?_⟩
      · rw [List.append_assoc]
        exact hx
      · exact accepted_copies h.plus_choice (fun _ _ _ => ih h.plus_body) hy hz
  | star a greedy ih =>
      obtain ⟨x, y, rfl, ⟨n, -, hcopies⟩, hy⟩ := htext
      exact accepted_copies h.star_choice (fun _ _ _ => ih h.star_body) hcopies hy

/-- An expression laid out in a program accepts what it matches and then what is accepted where it
goes on. -/
theorem accepted_layout {code : List Instr} {r : Regex} {base next : Nat}
    (h : r.LaidOut code base next) :
    Accepted code (r.layout base next).entry = r.Matches.andThen (Accepted code next) := by
  funext before text rest
  refine propext ⟨?_, accepted_of_matches h⟩
  rintro ⟨n, htext⟩
  obtain ⟨m, -, x, y, hxy, hx, hy⟩ := leadsTo_layout h htext
  exact ⟨x, y, hxy, hx, m, hy⟩

theorem laidOut_program (r : Regex) : r.LaidOut r.program.code 0 r.size := by
  intro i hi
  have hlength := length_layout r 0 r.size
  rw [Nat.zero_add, program, List.getElem?_append_left (by omega)]

theorem done_program (r : Regex) : r.program.code[r.size]? = some .done := by
  have hlength := length_layout r 0 r.size
  rw [program, List.getElem?_append_right (by omega), hlength, Nat.sub_self]
  rfl

/-- The program of an expression accepts exactly what the expression matches. -/
theorem accepted_program (r : Regex) : Accepted r.program.code r.program.entry = r.Matches := by
  have hlayout := accepted_layout (laidOut_program r)
  rw [accepted_of_done (done_program r), Reading.andThen_nothing] at hlayout
  exact hlayout

end Regex

end JsoniqLexer.Pattern

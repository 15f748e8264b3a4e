import JsoniqLexer.Pattern.Regex

/-!
# Programs that match a regular expression

A program is a list of instructions, each of which names the instructions that may follow it. A
`Regex` is laid out in consecutive places by structural recursion; every construct knows where to
continue before its own instructions are placed, so none is changed afterwards.

A run keeps a list of threads, ordered by preference. `reachable` follows the instructions that read
nothing, first choice first, and never visits an instruction twice in one place; a thread that
arrives at `done` ends every thread after it. `of_matchLength?` says that a match is as long as some
beginning of the text, so it never ends inside a character.
-/

set_option autoImplicit false

namespace JsoniqLexer.Pattern

/-- An instruction; addresses count from the start of the program. -/
inductive Instr where
  /-- Reads one character of a set. -/
  | char (set : CharSet) (next : Nat)
  /-- Goes on only where an assertion holds. -/
  | look (a : Assertion) (next : Nat)
  /-- Goes on in two places, the first preferred. -/
  | split (first second : Nat)
  /-- The whole expression has matched. -/
  | done
deriving DecidableEq, Repr

/-- The choice of a loop between another copy and leaving. -/
def Instr.loop (greedy : Bool) (again leave : Nat) : Instr :=
  if greedy then .split again leave else .split leave again

/-- Instructions in consecutive places, and the address to start at. -/
structure Block where
  entry : Nat
  code : List Instr
deriving DecidableEq, Repr

/-- The number of instructions for an expression. -/
def Regex.size : Regex → Nat
  | .empty => 0
  | .char _ => 1
  | .look _ => 1
  | .seq a b => a.size + b.size
  | .alt a b => a.size + b.size + 1
  | .plus a _ => a.size + 1
  | .star a _ => a.size + 1

/-- The instructions for an expression from address `base` on, going on at `next`. The choice of a
loop stands before its body, which comes back to it: a `plus` is entered at the body and a `star` at
the choice. -/
def Regex.layout : Regex → (base next : Nat) → Block
  | .empty, _, next => ⟨next, []⟩
  | .char set, base, next => ⟨base, [.char set next]⟩
  | .look a, base, next => ⟨base, [.look a next]⟩
  | .seq a b, base, next =>
      let second := b.layout (base + a.size) next
      let first := a.layout base second.entry
      ⟨first.entry, first.code ++ second.code⟩
  | .alt a b, base, next =>
      let first := a.layout (base + 1) next
      let second := b.layout (base + 1 + a.size) next
      ⟨base, .split first.entry second.entry :: (first.code ++ second.code)⟩
  | .plus a greedy, base, next =>
      let body := a.layout (base + 1) base
      ⟨body.entry, .loop greedy body.entry next :: body.code⟩
  | .star a greedy, base, next =>
      let body := a.layout (base + 1) base
      ⟨base, .loop greedy body.entry next :: body.code⟩

/-- The program for an expression. -/
def Regex.program (r : Regex) : Block :=
  let body := r.layout 0 r.size
  ⟨body.entry, body.code ++ [.done]⟩

theorem Regex.length_layout (r : Regex) (base next : Nat) :
    (r.layout base next).code.length = r.size := by
  induction r generalizing base next with
  | empty => rfl
  | char set => rfl
  | look a => rfl
  | seq a b iha ihb => simp [layout, size, iha, ihb]
  | alt a b iha ihb => simp [layout, size, iha, ihb]
  | plus a greedy ih => simp [layout, size, ih]
  | star a greedy ih => simp [layout, size, ih]

namespace Block

/-- The characters around a place in a text. -/
structure Place where
  before : Option Char
  after : Option Char

/-- Addresses visited from the waiting ones without reading a character, last one first. The waiting
addresses are taken in order, and those that an instruction leads to come before them. -/
def visit (code : List Instr) (place : Place) : (fuel : Nat) → (waiting seen : List Nat) → List Nat
  | 0, _, seen => seen
  | _ + 1, [], seen => seen
  | fuel + 1, address :: waiting, seen =>
      if address ∈ seen then visit code place fuel waiting seen
      else
        match code[address]? with
        | some (.split first second) =>
            visit code place fuel (first :: second :: waiting) (address :: seen)
        | some (.look a next) =>
            if a.holds place.before place.after then
              visit code place fuel (next :: waiting) (address :: seen)
            else visit code place fuel waiting (address :: seen)
        | _ => visit code place fuel waiting (address :: seen)

/-- The instructions reachable from the threads without reading a character, in order of preference.
Each instruction is expanded once and adds at most two addresses, which bounds the search. -/
def reachable (code : List Instr) (place : Place) (threads : List Nat) : List Instr :=
  (visit code place (threads.length + 2 * code.length + 1) threads []).reverse.filterMap
    fun address => code[address]?

/-- Where the instructions go on after reading `c`; those after `done` are given up. -/
def advance (c : Char) : List Instr → List Nat
  | [] => []
  | .done :: _ => []
  | .char set next :: rest => if set.contains c then next :: advance c rest else advance c rest
  | _ :: rest => advance c rest

/-- The length in bytes of the preferred match, read on from `offset`: `best` is the length of the
match found so far, and a later one replaces it as long as a thread preferred to it is alive. -/
def run (code : List Instr) (threads : List Nat) (before : Option Char) (offset : Nat)
    (best : Option Nat) : Text → Option Nat
  | [] =>
      if (reachable code ⟨before, none⟩ threads).contains .done then some offset else best
  | c :: rest =>
      let here := reachable code ⟨before, some c⟩ threads
      let best := if here.contains .done then some offset else best
      match advance c here with
      | [] => best
      | next => run code next (some c) (offset + c.utf8Size) best rest

/-- The length in bytes of the preferred match at the start of `text`. -/
def matchLength? (program : Block) (text : Text) : Option Nat :=
  run program.code [program.entry] none 0 none text

/-- A run ends with the match it started with or with one that ends where some beginning of the
text ends. -/
theorem run_eq_some {code : List Instr} {threads : List Nat} {before : Option Char}
    {offset n : Nat} {best : Option Nat} {text : Text}
    (h : run code threads before offset best text = some n) :
    best = some n ∨ ∃ read rest, text = read ++ rest ∧ n = offset + read.byteLength := by
  induction text generalizing threads before offset best with
  | nil =>
      rw [run] at h
      split at h
      · exact .inr ⟨[], [], rfl, by simpa using (Option.some.inj h).symm⟩
      · exact .inl h
  | cons c rest ih =>
      rw [run] at h
      have here : ∀ {b : Bool}, (if b then some offset else best) = some n →
          best = some n ∨ ∃ read tail, c :: rest = read ++ tail ∧
            n = offset + Text.byteLength read := by
        intro b hb
        split at hb
        · exact .inr ⟨[], c :: rest, rfl, by simpa using (Option.some.inj hb).symm⟩
        · exact .inl hb
      split at h
      · exact here h
      · rcases ih h with hbest | ⟨read, tail, rfl, hn⟩
        · exact here hbest
        · exact .inr ⟨c :: read, tail, rfl, by simp [hn, Nat.add_assoc]⟩

/-- A match is as long as some beginning of the text. -/
theorem of_matchLength? {program : Block} {text : Text} {n : Nat}
    (h : program.matchLength? text = some n) :
    ∃ read rest, text = read ++ rest ∧ read.byteLength = n := by
  rcases run_eq_some h with hbest | ⟨read, rest, htext, hn⟩
  · simp at hbest
  · exact ⟨read, rest, htext, by simpa using hn.symm⟩

end Block

end JsoniqLexer.Pattern

import JsoniqLexer.Text.Utf8

/-!
# Reading a text from its beginning

`Text.after?` takes a fixed mark off the beginning of a text, and finds something exactly where the
text begins with it (`after?_eq_some_iff`). Of certain characters the longest run is taken off
(`takeWhile_run`). A `Reader` takes off one thing, and since less is left it can be asked again until
it finds nothing more (`Reader.all`).

What a text is read as is said with anything after it (`Reader.Reads`), so texts that are read can be
put one after the other.
-/

set_option autoImplicit false

namespace JsoniqLexer.Text

/-! ## Marks -/

/-- What follows a mark at the beginning of a text. -/
def after? : (mark text : Text) → Option Text
  | [], text => some text
  | _ :: _, [] => none
  | c :: mark, d :: text => if c = d then after? mark text else none

theorem after?_eq_some_iff {mark text rest : Text} :
    after? mark text = some rest ↔ text = mark ++ rest := by
  induction mark generalizing text with
  | nil => simp [after?]
  | cons c mark ih =>
      cases text with
      | nil => simp [after?]
      | cons d text =>
          by_cases hc : c = d
          · simp [after?, hc, ih]
          · simp [after?, hc, Ne.symm hc]

@[simp] theorem after?_append (mark rest : Text) : after? mark (mark ++ rest) = some rest := by
  rw [after?_eq_some_iff]

/-- Another character at the beginning is no mark. -/
theorem after?_cons_ne {c d : Char} (h : c ≠ d) (mark text : Text) :
    after? (c :: mark) (d :: text) = none := by
  simp [after?, h]

theorem length_le_of_after? {mark text rest : Text} (h : after? mark text = some rest) :
    mark.length + rest.length = text.length := by
  rw [after?_eq_some_iff] at h
  rw [h, List.length_append]

/-! ## Runs -/

/-- A longest run of certain characters is what is taken from the beginning. -/
theorem takeWhile_run {p : Char → Bool} {run rest : Text} (hrun : ∀ c ∈ run, p c = true)
    (hrest : ∀ c ∈ rest.head?, p c = false) : (run ++ rest).takeWhile p = run := by
  rw [List.takeWhile_append_of_pos hrun]
  cases rest with
  | nil => rw [List.takeWhile_nil, List.append_nil]
  | cons c rest =>
      have hc := hrest c rfl
      rw [List.takeWhile_cons_of_neg (by simp [hc]), List.append_nil]

/-- What follows a longest run of certain characters is what is left after it. -/
theorem dropWhile_run {p : Char → Bool} {run rest : Text} (hrun : ∀ c ∈ run, p c = true)
    (hrest : ∀ c ∈ rest.head?, p c = false) : (run ++ rest).dropWhile p = rest := by
  rw [List.dropWhile_append_of_pos hrun]
  cases rest with
  | nil => rfl
  | cons c rest =>
      have hc := hrest c rfl
      rw [List.dropWhile_cons_of_neg (by simp [hc])]

/-- What is true of the first character is true of the head. -/
theorem forall_head?_cons {p : Char → Prop} {c : Char} (h : p c) (rest : Text) :
    ∀ d ∈ (c :: rest).head?, p d := by
  intro d hd
  obtain rfl : c = d := Option.some.inj hd
  exact h

/-! ## Readers -/

/-- Takes one thing off the beginning of a text, if there is one, and leaves less. -/
structure Reader (α : Type) where
  next? : Text → Option (α × Text)
  shorter : ∀ {text rest : Text} {a : α}, next? text = some (a, rest) → rest.length < text.length

namespace Reader

variable {α β : Type}

/-- All that is found from the beginning on, and what is left where nothing more is found. -/
def all (r : Reader α) (text : Text) : List α × Text :=
  match _h : r.next? text with
  | none => ([], text)
  | some (a, rest) =>
      let later := r.all rest
      (a :: later.1, later.2)
termination_by text.length
decreasing_by exact r.shorter _h

variable {r : Reader α} {text rest : Text}

theorem all_of_none (h : r.next? text = none) : r.all text = ([], text) := by
  rw [all]
  split
  · rfl
  · next a rest hsome =>
    rw [h] at hsome
    cases hsome

theorem all_of_some {a : α} (h : r.next? text = some (a, rest)) :
    r.all text = (a :: (r.all rest).1, (r.all rest).2) := by
  rw [all]
  split
  · next hnone =>
    rw [h] at hnone
    cases hnone
  · next b tail hsome =>
    rw [h] at hsome
    cases hsome
    rfl

theorem length_all_le (r : Reader α) (text : Text) : (r.all text).2.length ≤ text.length := by
  fun_induction r.all text with
  | case1 text h => exact Nat.le_refl _
  | case2 text a rest h later ih =>
      apply Nat.le_trans ih
      exact Nat.le_of_lt (r.shorter h)

/-- The text is read as these, whatever follows. -/
def Reads (r : Reader α) (text : Text) (as : List α) : Prop :=
  ∀ rest, r.all (text ++ rest) = (as ++ (r.all rest).1, (r.all rest).2)

theorem reads_nil (r : Reader α) : r.Reads [] [] := by
  intro rest
  rfl

theorem reads_single {a : α} (h : ∀ rest, r.next? (text ++ rest) = some (a, rest)) :
    r.Reads text [a] := by
  intro rest
  rw [all_of_some (h rest)]
  rfl

theorem Reads.append {s t : Text} {as bs : List α} (hs : r.Reads s as) (ht : r.Reads t bs) :
    r.Reads (s ++ t) (as ++ bs) := by
  intro rest
  rw [List.append_assoc, hs, ht, List.append_assoc]

theorem reads_flatMap {f : β → Text} {g : β → List α} (h : ∀ b, r.Reads (f b) (g b)) (bs : List β) :
    r.Reads (bs.flatMap f) (bs.flatMap g) := by
  induction bs with
  | nil => exact r.reads_nil
  | cons b bs ih =>
      rw [List.flatMap_cons, List.flatMap_cons]
      exact (h b).append ih

/-- Where nothing more is found, reading has come to its end. -/
theorem Reads.all_append {as : List α} (h : r.Reads text as) (hrest : r.next? rest = none) :
    r.all (text ++ rest) = (as, rest) := by
  rw [h, all_of_none hrest, List.append_nil]

end Reader

end JsoniqLexer.Text

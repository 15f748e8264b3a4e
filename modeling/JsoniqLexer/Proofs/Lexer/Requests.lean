import Mathlib.Algebra.Ring.Nat
import JsoniqLexer.Lexer.Cursor
import JsoniqLexer.Proofs.Text.Offsets

/-!
# Requests to move on

A cursor may be asked to move on by any number of bytes, any number of times. It refuses to move by
nothing, past the end and into a character, and nothing else (`Cursor.refuses_iff`). What it has
granted up to now it accounts for: the position is the sum of the granted widths, and the texts
stepped over are the source up to there. One request keeps the account (`Accounts.request`), so any
number of them does (`requests_account_for_source`).

A cursor carries the proof that it stands between two characters. A `Pointer` carries none: it is an
offset into a text, and a move checks its target, then goes there, then cuts out what was stepped
over, which could still fail after the pointer has moved. Asked the same, it gives the same answers
and points to where the cursor stands (`Cursor.requests_pointer`).
-/

set_option autoImplicit false

namespace JsoniqLexer

/-- A request to move on by `width` bytes, with the text that was stepped over, or the fault for
which it was refused. -/
structure Request where
  width : Nat
  answer : Except Fault Text
deriving DecidableEq

namespace Request

def isGranted (r : Request) : Bool := r.answer.isOk

/-- The widths of the granted requests. -/
def granted (rs : List Request) : List Nat := (rs.filter isGranted).map width

/-- The texts stepped over. -/
def texts (rs : List Request) : List Text := rs.filterMap fun r => r.answer.toOption

section Lists

variable (width : Nat) (read : Text) (fault : Fault) (rs others : List Request)

@[simp] theorem granted_nil : granted [] = [] := rfl

@[simp] theorem granted_cons_ok : granted (⟨width, .ok read⟩ :: rs) = width :: granted rs := rfl

@[simp] theorem granted_cons_error : granted (⟨width, .error fault⟩ :: rs) = granted rs := rfl

@[simp] theorem granted_append : granted (rs ++ others) = granted rs ++ granted others := by
  rw [granted, List.filter_append, List.map_append]
  rfl

@[simp] theorem texts_nil : texts [] = [] := rfl

@[simp] theorem texts_cons_ok : texts (⟨width, .ok read⟩ :: rs) = read :: texts rs := rfl

@[simp] theorem texts_cons_error : texts (⟨width, .error fault⟩ :: rs) = texts rs := rfl

@[simp] theorem texts_append : texts (rs ++ others) = texts rs ++ texts others :=
  List.filterMap_append

end Lists

/-- Requests made one after the other, each of what the one before it has left. -/
def makeAll {σ : Type} (request : σ → Nat → Except Fault Text × σ) :
    σ → List Nat → List Request × σ
  | s, [] => ([], s)
  | s, width :: widths =>
      let first := request s width
      let later := makeAll request first.2 widths
      (⟨width, first.1⟩ :: later.1, later.2)

section MakeAll

variable {σ : Type} (request : σ → Nat → Except Fault Text × σ)

variable {request} in
theorem makeAll_cons {s next : σ} {width : Nat} {answer : Except Fault Text}
    (h : request s width = (answer, next)) (widths : List Nat) :
    makeAll request s (width :: widths) =
      (⟨width, answer⟩ :: (makeAll request next widths).1, (makeAll request next widths).2) := by
  simp only [makeAll, h]

theorem widths_makeAll (s : σ) (widths : List Nat) :
    (makeAll request s widths).1.map width = widths := by
  induction widths generalizing s with
  | nil => rfl
  | cons width widths ih => simp only [makeAll, List.map_cons, ih]

theorem makeAll_concat (s : σ) (widths : List Nat) (width : Nat) :
    makeAll request s (widths ++ [width]) =
      ((makeAll request s widths).1 ++ [⟨width, (request (makeAll request s widths).2 width).1⟩],
        (request (makeAll request s widths).2 width).2) := by
  induction widths generalizing s with
  | nil => rfl
  | cons first widths ih => simp only [List.cons_append, makeAll, ih]

end MakeAll

end Request

/-- An offset into a text, which may point anywhere. -/
structure Pointer where
  source : Text
  offset : Nat

namespace Pointer

def start (source : Text) : Pointer := ⟨source, 0⟩

/-- The text from the offset on; `none` where the text cannot be cut there. -/
def remaining? (p : Pointer) : Option Text := (p.source.splitAt? p.offset).map Prod.snd

def isAtEnd (p : Pointer) : Bool := p.offset == p.source.byteLength

/-- Checks the target, moves there and cuts out the text stepped over. A sum of offset and width that
is too large to be counted is refused before anything else is looked at; it does not wrap around. -/
def request (p : Pointer) (width : Nat) : Except Fault Text × Pointer :=
  let target := p.offset + width
  if width = 0 then (.error (.zeroWidth p.offset), p)
  else if Cursor.largestOffset < target then (.error .uncountable, p)
  else if p.source.byteLength < target then
    (.error (.pastEnd p.offset width p.source.byteLength), p)
  else if p.source.isBoundary target then
    let moved : Pointer := { p with offset := target }
    match p.source.slice? p.offset target with
    | some read => (.ok read, moved)
    | none => (.error .badSlice, moved)
  else (.error (.insideCharacter target), p)

def requests : Pointer → List Nat → List Request × Pointer := Request.makeAll request

end Pointer

namespace Cursor

variable {c next : Cursor} {width : Nat} {read : Text} {fault : Fault}

/-! ## One request -/

/-- The answer to a request, and the cursor afterwards. A refused move gives no new cursor. -/
def request (c : Cursor) (width : Nat) : Except Fault Text × Cursor :=
  match c.advance width with
  | .ok (read, next) => (.ok read, next)
  | .error fault => (.error fault, c)

theorem request_of_ok (h : c.advance width = .ok (read, next)) :
    c.request width = (.ok read, next) := by
  rw [request, h]

theorem request_of_error (h : c.advance width = .error fault) :
    c.request width = (.error fault, c) := by
  rw [request, h]

/-- A request is granted, with the move, or refused, with everything as it was. -/
theorem request_cases (c : Cursor) (width : Nat) :
    (∃ read next, c.advance width = .ok (read, next) ∧ c.request width = (.ok read, next)) ∨
      ∃ fault, c.advance width = .error fault ∧ c.request width = (.error fault, c) := by
  cases h : c.advance width with
  | ok moved => exact .inl ⟨moved.1, moved.2, rfl, request_of_ok h⟩
  | error fault => exact .inr ⟨fault, rfl, request_of_error h⟩

theorem request_eq_error_iff :
    (c.request width).1 = .error fault ↔ c.advance width = .error fault := by
  rcases c.request_cases width with ⟨read, next, hadvance, hrequest⟩ | ⟨f, hadvance, hrequest⟩
  · simp [hadvance, hrequest]
  · simp [hadvance, hrequest]

@[simp] theorem request_source (c : Cursor) (width : Nat) :
    (c.request width).2.source = c.source := by
  rcases c.request_cases width with ⟨read, next, hadvance, hrequest⟩ | ⟨fault, _, hrequest⟩
  · rw [hrequest]
    exact (advance_eq_ok_iff.1 hadvance).2.2.2.1
  · rw [hrequest]

/-- The source is cut after the position where the rest is. -/
theorem splitAt?_source (c : Cursor) :
    ∃ before, c.source.splitAt? c.position = some (before, c.remaining) ∧
      ∀ width, c.source.splitAt? (c.position + width) =
        (c.remaining.splitAt? width).map fun halves => (before ++ halves.1, halves.2) := by
  obtain ⟨before, hsource, hposition⟩ := c.valid
  refine ⟨before, Text.splitAt?_eq_some_iff.2 ⟨hsource, hposition⟩, fun width => ?_⟩
  rw [hsource, ← hposition, Text.splitAt?_append_add]

theorem isBoundary_position (c : Cursor) : c.source.isBoundary c.position = true := by
  obtain ⟨before, hsplit, -⟩ := c.splitAt?_source
  rw [Text.isBoundary, hsplit]
  rfl

theorem position_le_size (c : Cursor) : c.position ≤ c.size := by
  obtain ⟨before, hsource, hposition⟩ := c.valid
  rw [size, hsource, Text.byteLength_append, hposition]
  exact Nat.le_add_right _ _

/-- What is refused is a move by nothing, past the end, or into a character. -/
theorem refuses_iff :
    (∃ fault, (c.request width).1 = .error fault) ↔
      width = 0 ∨ c.size < c.position + width ∨ c.source.IsInside (c.position + width) := by
  obtain ⟨before, -, hsplit⟩ := c.splitAt?_source
  have hcut : c.remaining.splitAt? width = none ↔
      c.size < c.position + width ∨ c.source.IsInside (c.position + width) := by
    rw [size, ← Text.splitAt?_eq_none_iff, hsplit, Option.map_eq_none_iff]
  -- the rest cannot be cut exactly where the source cannot, past its end and inside of a character
  rw [← hcut]
  simp only [request_eq_error_iff, advance_eq_error_iff]
  constructor
  · rintro ⟨fault, ⟨hwidth, -⟩ | ⟨-, hnone, -⟩⟩
    · exact .inl hwidth
    · exact .inr hnone
  · intro h
    by_cases hwidth : width = 0
    · exact ⟨_, .inl ⟨hwidth, rfl⟩⟩
    · exact ⟨_, .inr ⟨hwidth, h.resolve_left hwidth, rfl⟩⟩

theorem stays_of_refused (h : (c.request width).1 = .error fault) : (c.request width).2 = c := by
  rw [request_of_error (request_eq_error_iff.1 h)]

/-! ## Any number of requests -/

def requests : Cursor → List Nat → List Request × Cursor := Request.makeAll request

/-- The cursor stands where the requests granted up to now have taken it. -/
structure Accounts (source : Text) (made : List Request) (c : Cursor) : Prop where
  source_eq : c.source = source
  position_eq : c.position = (Request.granted made).sum
  texts_append : (Request.texts made).flatten ++ c.remaining = source

theorem accounts_start (source : Text) : Accounts source [] (start source) := ⟨rfl, rfl, rfl⟩

variable {source : Text} {made : List Request}

/-- A granted request adds its width and its text to the account, a refused one adds nothing. -/
theorem Accounts.request (h : Accounts source made c) (width : Nat) :
    Accounts source (made ++ [⟨width, (c.request width).1⟩]) (c.request width).2 := by
  rcases c.request_cases width with ⟨read, next, hadvance, hrequest⟩ | ⟨fault, -, hrequest⟩
  · obtain ⟨-, hlength, hremaining, hsource, hposition⟩ := advance_eq_ok_iff.1 hadvance
    rw [hrequest]
    constructor
    · rw [hsource, h.source_eq]
    · simp [hposition, h.position_eq]
    · simp [← h.texts_append, hremaining]
  · rw [hrequest]
    constructor
    · exact h.source_eq
    · simp [h.position_eq]
    · simp [← h.texts_append]

theorem Accounts.requests (h : Accounts source made c) (widths : List Nat) :
    Accounts source (made ++ (c.requests widths).1) (c.requests widths).2 := by
  -- on the requests still to come; those made up to now are what the account is of
  induction widths generalizing c made with
  | nil => simpa [Cursor.requests, Request.makeAll] using h
  | cons width widths ih =>
      have hlater := ih (h.request width)
      rwa [List.append_assoc, List.singleton_append] at hlater

/-- Refused requests may be left out: the granted ones alone get the same answers. -/
theorem requests_granted (c : Cursor) (widths : List Nat) :
    c.requests (Request.granted (c.requests widths).1) =
      ((c.requests widths).1.filter Request.isGranted, (c.requests widths).2) := by
  induction widths generalizing c with
  | nil => rfl
  | cons width widths ih =>
      simp only [requests] at ih ⊢
      rcases c.request_cases width with ⟨read, next, -, hrequest⟩ | ⟨fault, -, hrequest⟩
      · rw [Request.makeAll_cons hrequest, Request.granted_cons_ok,
          Request.makeAll_cons hrequest, ih next]
        rfl
      · rw [Request.makeAll_cons hrequest, Request.granted_cons_error, ih c]
        rfl

/-! ## Pointers -/

/-- The place of the cursor, by its offset alone. -/
def pointer (c : Cursor) : Pointer := ⟨c.source, c.position⟩

theorem remaining?_pointer (c : Cursor) : c.pointer.remaining? = some c.remaining := by
  obtain ⟨before, hsplit, -⟩ := c.splitAt?_source
  rw [pointer, Pointer.remaining?, hsplit]
  rfl

theorem isAtEnd_pointer (c : Cursor) : c.pointer.isAtEnd = c.isAtEnd := by
  rw [Bool.eq_iff_iff, isAtEnd, List.isEmpty_iff, ← position_eq_size_iff]
  exact beq_iff_eq

/-- Where the cursor moves, the pointer passes its checks, and what it steps over can be cut out. -/
theorem request_pointer_of_ok (hsize : c.size ≤ largestOffset)
    (h : c.advance width = .ok (read, next)) :
    c.pointer.request width = (.ok read, next.pointer) := by
  obtain ⟨hread, hlength, hremaining, hsource, hposition⟩ := advance_eq_ok_iff.1 h
  obtain ⟨before, hbefore, hsplit⟩ := c.splitAt?_source
  have hcut : c.remaining.splitAt? width = some (read, next.remaining) :=
    Text.splitAt?_eq_some_iff.2 ⟨hremaining, hlength⟩
  have hwidth : width ≠ 0 := by
    rintro rfl
    exact hread ((Text.byteLength_eq_zero_iff read).1 hlength)
  have hwithin : c.position + width ≤ c.source.byteLength := by
    rw [← hposition, ← hsource]
    exact next.position_le_size
  -- this is where the size of the source matters: what is within it can be counted
  have hcounted : c.position + width ≤ largestOffset := Nat.le_trans hwithin hsize
  have hboundary : c.source.isBoundary (c.position + width) = true := by
    rw [Text.isBoundary, hsplit, hcut]
    rfl
  have hslice : c.source.slice? c.position (c.position + width) = some read := by
    rw [Text.slice?, if_pos (Nat.le_add_right _ _), hbefore, Option.bind_some,
      Nat.add_sub_cancel_left, hcut]
    rfl
  simp only [pointer, Pointer.request, if_neg hwidth, if_neg (Nat.not_lt.2 hcounted),
    if_neg (Nat.not_lt.2 hwithin), hboundary, if_true, hslice, hsource, hposition]

/-- Where the cursor refuses to move, one of the checks fails, the first one that can. -/
theorem request_pointer_of_error (h : c.advance width = .error fault) :
    c.pointer.request width = (.error fault, c.pointer) := by
  rcases advance_eq_error_iff.1 h with ⟨rfl, rfl⟩ | ⟨hwidth, hnone, rfl⟩
  · rfl
  obtain ⟨before, -, hsplit⟩ := c.splitAt?_source
  have hboundary : c.source.isBoundary (c.position + width) = false := by
    rw [Text.isBoundary, hsplit, hnone]
    rfl
  simp only [pointer, Pointer.request, refusal, if_neg hwidth, hboundary, Bool.false_eq_true,
    if_false]
  -- the reasons are looked for in the same order
  by_cases hcounted : largestOffset < c.position + width
  · simp only [if_pos hcounted]
  by_cases hpast : c.source.byteLength < c.position + width
  · have hsize : c.size < c.position + width := hpast
    simp only [if_neg hcounted, if_pos hpast, if_pos hsize]
    rfl
  · have hsize : ¬ c.size < c.position + width := hpast
    simp only [if_neg hcounted, if_neg hpast, if_neg hsize]

theorem request_pointer (hsize : c.size ≤ largestOffset) (width : Nat) :
    c.pointer.request width = ((c.request width).1, (c.request width).2.pointer) := by
  rcases c.request_cases width with ⟨read, next, hadvance, hrequest⟩ | ⟨fault, hadvance, hrequest⟩
  · rw [hrequest, request_pointer_of_ok hsize hadvance]
  · rw [hrequest, request_pointer_of_error hadvance]

theorem requests_pointer (hsize : c.size ≤ largestOffset) (widths : List Nat) :
    c.pointer.requests widths = ((c.requests widths).1, (c.requests widths).2.pointer) := by
  induction widths generalizing c with
  | nil => rfl
  | cons width widths ih =>
      have hnext : (c.request width).2.size ≤ largestOffset := by
        rwa [size, request_source]
      have hlater := ih hnext
      simp only [requests, Pointer.requests] at hlater ⊢
      rw [Request.makeAll_cons (request_pointer hsize width), hlater]
      rfl

/-! ## The account -/

/-- What holds of the cursor after any requests: what it has granted takes it where it stands,
between two characters of the source, and the next request is refused for no other reason than that
it asks for no move, or for one to a place where no cursor can stand. -/
structure Stands (source : Text) (made : List Request) (c : Cursor) : Prop
    extends Accounts source made c where
  boundary : source.isBoundary c.position = true
  within : c.position ≤ source.byteLength
  ended : c.isAtEnd = true ↔ c.remaining = []
  filled : c.remaining = [] ↔ c.position = source.byteLength
  refuses : ∀ width, (∃ fault, (c.request width).1 = .error fault) ↔
    width = 0 ∨ source.byteLength < c.position + width ∨ source.IsInside (c.position + width)
  stays : ∀ width fault, (c.request width).1 = .error fault → (c.request width).2 = c

theorem Accounts.stands (h : Accounts source made c) : Stands source made c := by
  have hsource : source = c.source := h.source_eq.symm
  refine { h with
    boundary := ?_, within := ?_, ended := ?_, filled := ?_, refuses := ?_, stays := ?_ }
  · rw [hsource]
    exact c.isBoundary_position
  · rw [hsource]
    exact c.position_le_size
  · rw [isAtEnd, List.isEmpty_iff]
  · rw [hsource]
    exact position_eq_size_iff.symm
  · intro width
    rw [hsource]
    exact refuses_iff
  · intro width fault
    exact stays_of_refused

/-- Whatever requests are made of a cursor, granted or refused, it stands where the granted ones have
taken it, as if no others had been made. A pointer into the same source, which checks its moves only
by their targets, gives the same answers and points to the same place. -/
theorem requests_account_for_source (source : Text) (widths : List Nat) :
    ∃ made c, (start source).requests widths = (made, c) ∧ made.map Request.width = widths ∧
      Stands source made c ∧
      (∀ width, (start source).requests (widths ++ [width]) =
        (made ++ [⟨width, (c.request width).1⟩], (c.request width).2)) ∧
      (start source).requests (Request.granted made) = (made.filter Request.isGranted, c) ∧
      (source.byteLength ≤ largestOffset →
        (Pointer.start source).requests widths = (made, c.pointer) ∧
          c.pointer.remaining? = some c.remaining ∧ c.pointer.isAtEnd = c.isAtEnd) := by
  have haccounts := (accounts_start source).requests widths
  rw [List.nil_append] at haccounts
  refine ⟨_, _, rfl, Request.widths_makeAll request (start source) widths, haccounts.stands, ?_,
    requests_granted (start source) widths, ?_⟩
  · exact Request.makeAll_concat request (start source) widths
  · intro hsize
    have hstart : (start source).size ≤ largestOffset := hsize
    exact ⟨requests_pointer hstart widths, remaining?_pointer _, isAtEnd_pointer _⟩

/-- Between two granted requests, one past the end, one too large to be counted, one for no move. -/
theorem requests_account_for_source_refused :
    Text.byteLength "é!".toList ≤ largestOffset ∧
      ∃ (made : List Request) (c : Cursor),
        (Pointer.start "é!".toList).requests [1, 2, 5, largestOffset, 0, 1] = (made, c.pointer) ∧
        made = [⟨1, .error (.insideCharacter 1)⟩, ⟨2, .ok ['é']⟩, ⟨5, .error (.pastEnd 2 5 3)⟩,
          ⟨largestOffset, .error .uncountable⟩, ⟨0, .error (.zeroWidth 2)⟩, ⟨1, .ok ['!']⟩] ∧
        c.position = 3 ∧ c.remaining = [] ∧
        (c.request 1).1 = .error (.pastEnd 3 1 3) ∧ (c.request 1).2 = c := by
  obtain ⟨made, c, hmade, -, hstands, -, -, hpointer⟩ :=
    requests_account_for_source "é!".toList [1, 2, 5, largestOffset, 0, 1]
  obtain ⟨hanswers, hcursor⟩ := Prod.mk.inj hmade
  have hsize : Text.byteLength "é!".toList ≤ largestOffset := by decide
  have hposition : c.position = 3 := by
    rw [hstands.position_eq, ← hanswers]
    decide
  have hrequest : (c.request 1).1 = .error (.pastEnd 3 1 3) := by
    rw [← hcursor]
    rfl
  refine ⟨hsize, made, c, (hpointer hsize).1, ?_, hposition, hstands.filled.2 hposition, hrequest,
    hstands.stays 1 _ hrequest⟩
  rw [← hanswers]
  decide

end Cursor

end JsoniqLexer

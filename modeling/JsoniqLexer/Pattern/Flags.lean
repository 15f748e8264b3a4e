import JsoniqLexer.Text.Utf8
import JsoniqLexer.Unicode.WhiteSpace

/-!
# Flags of the pattern language

Flags are set and cleared by the items between `(?` and `)` or `:`. Each flag may be named once and
the minus sign stands once, before at least one flag.
-/

set_option autoImplicit false

namespace JsoniqLexer.Pattern

/-- How the letters of a pattern are to be read. -/
structure Flags where
  /-- `i`: characters that fold together match each other. -/
  foldCase : Bool := false
  /-- `m`: the line anchors hold at line breaks. -/
  multiLine : Bool := false
  /-- `s`: the dot matches a newline too. -/
  dotAll : Bool := false
  /-- `U`: repetitions are lazy unless a question mark follows. -/
  swapGreed : Bool := false
  /-- `u`: classes range over all of Unicode. -/
  unicode : Bool := true
  /-- `R`: a carriage return is a line break as well. -/
  crlf : Bool := false
  /-- `x`: white space and comments in the pattern mean nothing. -/
  verbose : Bool := false
deriving DecidableEq, Repr

namespace Flags

/-- Sets or clears the flag of a letter; `none` for a letter without a flag. -/
def set? (flags : Flags) (letter : Char) (value : Bool) : Option Flags :=
  match letter with
  | 'i' => some { flags with foldCase := value }
  | 'm' => some { flags with multiLine := value }
  | 's' => some { flags with dotAll := value }
  | 'U' => some { flags with swapGreed := value }
  | 'u' => some { flags with unicode := value }
  | 'R' => some { flags with crlf := value }
  | 'x' => some { flags with verbose := value }
  | _ => none

/-- What follows a list of flag items. -/
inductive ItemsEnd where
  /-- A colon: the flags hold in the group that starts here. -/
  | group
  /-- A closing parenthesis: the flags hold from here on. -/
  | directive
deriving DecidableEq

/-- Reads flag items up to the colon or parenthesis. `named` are the letters read so far and
`clearing` tells whether the minus sign has been read. Refused are a letter without a flag, a letter
named twice, a second minus sign, one with nothing after it, and a list without an end. -/
def readItems (flags : Flags) (named : List Char) (clearing dangling : Bool) :
    Text → Option (Flags × List Char × ItemsEnd × Text)
  | [] => none
  | ':' :: rest => if dangling then none else some (flags, named, .group, rest)
  | ')' :: rest => if dangling then none else some (flags, named, .directive, rest)
  | '-' :: rest => if clearing then none else readItems flags named true true rest
  | letter :: rest =>
      if letter ∈ named then none
      else
        match flags.set? letter (!clearing) with
        | none => none
        | some flags => readItems flags (letter :: named) clearing false rest

/-- Reads the flag items after `(?`. A directive names at least one flag. -/
def read? (flags : Flags) (text : Text) : Option (Flags × ItemsEnd × Text) :=
  match flags.readItems [] false false text with
  | some (flags, named, stop, rest) =>
      if stop = .directive ∧ named = [] then none else some (flags, stop, rest)
  | none => none

/-- Drops a comment up to and including its newline. -/
def skipComment : Text → Text
  | [] => []
  | c :: rest => if c = '\n' then rest else skipComment rest

theorem skipComment_length (text : Text) : (skipComment text).length ≤ text.length := by
  induction text with
  | nil => simp [skipComment]
  | cons c rest ih =>
      rw [skipComment]
      split
      · simp
      · simp only [List.length_cons]
        omega

/-- Drops white space and comments. -/
def skipBlank : Text → Text
  | [] => []
  | c :: rest =>
      if Unicode.isWhiteSpace c then skipBlank rest
      else if c = '#' then
        have := skipComment_length rest
        skipBlank (skipComment rest)
      else c :: rest
termination_by text => text.length

/-- Drops what means nothing under the flags. -/
def skip (flags : Flags) (text : Text) : Text := if flags.verbose then skipBlank text else text

/-- Without the verbose flag every character means something. -/
theorem skip_of_not_verbose {flags : Flags} (h : flags.verbose = false) (text : Text) :
    flags.skip text = text := by
  simp [skip, h]

end Flags

end JsoniqLexer.Pattern

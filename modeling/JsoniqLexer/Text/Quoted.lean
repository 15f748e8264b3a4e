import JsoniqLexer.Text.Utf8
import JsoniqLexer.Unicode.Unprintable
import JsoniqLexer.Unicode.DefaultIgnorable
import JsoniqLexer.Unicode.GraphemeExtend

/-!
# Quoted texts

A text on one line, in double quotes, in which nothing is invisible: a quote and a backslash are
escaped, four controls are written by name, and every other character that has no printed form,
shows nothing, or would merge with the one before it is written as its code point.
-/

set_option autoImplicit false

namespace JsoniqLexer.Text.Quoted

/-- Lower-case hexadecimal digits, without padding. -/
def hexDigits (n : Nat) : Text := Nat.toDigits 16 n

/-- A character by its code point. -/
def codePoint (c : Char) : Text := "\\u\x7b".toList ++ hexDigits c.toNat ++ "\x7d".toList

/-- A character as it stands between the quotes. -/
def escape (c : Char) : Text :=
  match c with
  | '"' => "\\\"".toList
  | '\\' => "\\\\".toList
  | '\n' => "\\n".toList
  | '\r' => "\\r".toList
  | '\t' => "\\t".toList
  | '\x00' => "\\0".toList
  | c =>
      if Unicode.isUnprintable c || Unicode.isDefaultIgnorable c || Unicode.isCombining c then
        codePoint c
      else [c]

/-- The quoted form of a text. -/
def encode (text : Text) : Text := '"' :: text.flatMap escape ++ ['"']

end JsoniqLexer.Text.Quoted

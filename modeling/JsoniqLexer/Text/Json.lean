import JsoniqLexer.Text.Utf8

/-!
# Texts as JSON strings

A quote, a backslash and the controls below the space are escaped, five of the controls by name and
the others by four hexadecimal digits. Every other character stands for itself, also DEL and those
beyond ASCII.
-/

set_option autoImplicit false

namespace JsoniqLexer.Text.Json

/-- Lower-case hexadecimal digits of a control character, padded to four places. -/
def fourDigits (n : Nat) : Text :=
  let digits := Nat.toDigits 16 n
  List.replicate (4 - digits.length) '0' ++ digits

/-- A character as it stands between the quotes. -/
def escape (c : Char) : Text :=
  match c with
  | '"' => "\\\"".toList
  | '\\' => "\\\\".toList
  | '\x08' => "\\b".toList
  | '\x0c' => "\\f".toList
  | '\n' => "\\n".toList
  | '\r' => "\\r".toList
  | '\t' => "\\t".toList
  | c => if c.toNat < 0x20 then "\\u".toList ++ fourDigits c.toNat else [c]

/-- The JSON string for a text. -/
def encode (text : Text) : Text := '"' :: text.flatMap escape ++ ['"']

/-- The JSON string for a fixed word of the program. -/
def encodeString (word : String) : Text := encode word.toList

end JsoniqLexer.Text.Json

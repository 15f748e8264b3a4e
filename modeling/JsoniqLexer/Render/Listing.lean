import JsoniqLexer.Tokenize
import JsoniqLexer.Text.Json
import JsoniqLexer.Text.Quoted

/-!
# Token listings

Tokens as lines of text, each with its category and its quoted lexeme, and tokens as JSON records.
Both can tell where a token stands in the source, which fails for tokens that do not belong to it.
-/

set_option autoImplicit false

namespace JsoniqLexer

open Text (Json.encode Json.encodeString)

/-- The decimal digits of a number. -/
def decimal (n : Nat) : Text := Nat.toDigits 10 n

/-- The place of an offset in the source, or a fault. -/
def Position.ofOffset (source : Text) (offset : Nat) : Except Fault Position :=
  match Position.ofOffset? source offset with
  | some p => .ok p
  | none => .error .badSlice

namespace Listing

/-- The place of a token: line and column of its start and of its end. -/
def range (source : Text) (t : Token) : Except Fault Text :=
  match Position.ofOffset source t.start, Position.ofOffset source t.stop with
  | .ok first, .ok last => .ok (" [" ++ first.render ++ "-" ++ last.render ++ "]").toList
  | .error f, _ => .error f
  | _, .error f => .error f

/-- A token as a line: its category, its quoted lexeme, and its place if `spans`. -/
def line (source : Text) (spans : Bool) (t : Token) : Except Fault Text :=
  let head := t.category.label.toList ++ ' ' :: Text.Quoted.encode t.lexeme
  if spans then
    match range source t with
    | .ok place => .ok (head ++ place ++ ['\n'])
    | .error f => .error f
  else .ok (head ++ ['\n'])

/-- The tokens as lines. -/
def lines (source : Text) (spans : Bool) : List Token → Except Fault Text
  | [] => .ok []
  | t :: ts =>
      match line source spans t with
      | .error f => .error f
      | .ok first =>
          match lines source spans ts with
          | .error f => .error f
          | .ok rest => .ok (first ++ rest)

end Listing

namespace JsonRecord

/-- The fields of a token in JSON. -/
def tokenFields (t : Token) : List (String × Text) :=
  [ ("category", Json.encodeString t.category.label), ("lexeme", Json.encode t.lexeme),
    ("start", decimal t.start), ("end", decimal t.stop) ]

/-- A JSON object on one line, without blanks. -/
def compact (fields : List (String × Text)) : Text :=
  let members := fields.map fun field => Json.encodeString field.1 ++ ':' :: field.2
  '\x7b' :: [','].intercalate members ++ ['\x7d']

/-- A JSON object as a member of an array, one field a line. -/
def indented (fields : List (String × Text)) : Text :=
  let members := fields.map fun field =>
    "    ".toList ++ Json.encodeString field.1 ++ ": ".toList ++ field.2
  "  \x7b\n".toList ++ ",\n".toList.intercalate members ++ "\n  \x7d".toList

/-- A token as a JSON object. -/
def ofToken (t : Token) : Text := compact (tokenFields t)

/-- How a text ends, as JSON: a word, or an object around the state and the offset. -/
def ofTermination : Termination → Text
  | .complete => Json.encodeString "Complete"
  | .unterminated state openedAt =>
      compact [("Unterminated", compact
        [("state", Json.encodeString state.label), ("opened_at", decimal openedAt)])]

/-- The fields of a token with the line and column of its start. -/
def placedFields (source : Text) (t : Token) : Except Fault (List (String × Text)) :=
  match Position.ofOffset source t.start with
  | .ok p => .ok (tokenFields t ++ [("line", decimal p.line), ("column", decimal p.column)])
  | .error f => .error f

/-- The placed records of tokens. -/
def placedRecords (source : Text) : List Token → Except Fault (List Text)
  | [] => .ok []
  | t :: ts =>
      match placedFields source t with
      | .error f => .error f
      | .ok fields =>
          match placedRecords source ts with
          | .error f => .error f
          | .ok records => .ok (indented fields :: records)

/-- The tokens as a JSON array of records, an empty one on one line. -/
def ofTokens (source : Text) (tokens : List Token) : Except Fault Text :=
  match placedRecords source tokens with
  | .error f => .error f
  | .ok [] => .ok "[]".toList
  | .ok records => .ok ("[\n".toList ++ ",\n".toList.intercalate records ++ "\n]".toList)

end JsonRecord

end JsoniqLexer

import LiveServices.Json.Basic
import LiveServices.Text.Quoted

/-!
# Writing JSON

Documents are written on one line (`Json.compact`) or over several with two blanks of indentation
(`Json.pretty`). Strings escape the quote, the backslash and the control characters below the
blank; every other character stands for itself.
-/

namespace LiveServices.Json

/-- Two hexadecimal digits of a number below 256. -/
def hexByte (n : Nat) : String :=
  String.ofList [Nat.digitChar (n / 16), Nat.digitChar (n % 16)]

/-- One character of a string. -/
def escapeChar (c : Char) : String :=
  match c with
  | '"' => "\\\""
  | '\\' => "\\\\"
  | '\n' => "\\n"
  | '\r' => "\\r"
  | '\t' => "\\t"
  | '\x08' => "\\b"
  | '\x0c' => "\\f"
  | c => if c.toNat < 0x20 then "\\u00" ++ hexByte c.toNat else c.toString

/-- A string with its quotes. -/
def quoted (s : String) : String := "\"" ++ String.join (s.toList.map escapeChar) ++ "\""

mutual
/-- A document on one line. -/
def compact : Json → String
  | null | decimal | unreadable => "null"
  | bool b => if b then "true" else "false"
  | integer n => toString n
  | text s => quoted s
  | array items => "[" ++ ",".intercalate (compactItems items) ++ "]"
  | object members => "\x7b" ++ ",".intercalate (compactMembers members) ++ "\x7d"

/-- The items of an array, each on one line. -/
def compactItems : List Json → List String
  | [] => []
  | j :: js => j.compact :: compactItems js

/-- The members of an object, each on one line. -/
def compactMembers : List (String × Json) → List String
  | [] => []
  | (k, j) :: js => (quoted k ++ ":" ++ j.compact) :: compactMembers js
end

/-- A line break and the indentation of a depth. -/
def lineBreak (depth : Nat) : String := "\n" ++ String.ofList (List.replicate (2 * depth) ' ')

/-- Parts between brackets, each on a line of its own; no parts stand on the same line. -/
def block (opening closing : String) (depth : Nat) (parts : List String) : String :=
  if parts.isEmpty then opening ++ closing
  else
    opening ++ lineBreak (depth + 1) ++ ("," ++ lineBreak (depth + 1)).intercalate parts ++
      lineBreak depth ++ closing

mutual
/-- A document over several lines, inside as many brackets as its depth. -/
def prettyAt (depth : Nat) : Json → String
  | null | decimal | unreadable => "null"
  | bool b => if b then "true" else "false"
  | integer n => toString n
  | text s => quoted s
  | array items => block "[" "]" depth (prettyItems (depth + 1) items)
  | object members => block "\x7b" "\x7d" depth (prettyMembers (depth + 1) members)

/-- The items of an array at a depth. -/
def prettyItems (depth : Nat) : List Json → List String
  | [] => []
  | j :: js => j.prettyAt depth :: prettyItems depth js

/-- The members of an object at a depth. -/
def prettyMembers (depth : Nat) : List (String × Json) → List String
  | [] => []
  | (k, j) :: js => (quoted k ++ ": " ++ j.prettyAt depth) :: prettyMembers depth js
end

/-- A document over several lines. -/
def pretty (j : Json) : String := j.prettyAt 0

end LiveServices.Json

import LiveServices.Toml.Number
import LiveServices.Toml.Table
import LiveServices.Toml.Text

/-!
# The values of a TOML document

A value is a string, a number, a date, a truth value, an array, or an inline table. Arrays may go
over several lines and end with a comma; an inline table stands on one line, and its keys may be
dotted.

Values may be nested to a depth of 79, and a key has 79 parts at most. Each call of the recursive
readers consumes a character, so a bound of one more than the length of the text is never reached.
-/

namespace LiveServices.Toml

/-- How deeply values may be nested, and how many parts a key may have. -/
def room : Nat := 79

/-- A key: its parts, with points between them and blanks around each. -/
def keyParts? : Nat → List Char → Option (List String × List Char)
  | 0, _ => none
  | fuel + 1, cs => do
    let (part, rest) ← keyPart? (skipBlanks cs)
    match skipBlanks rest with
    | '.' :: cs =>
      let (parts, rest) ← keyParts? fuel cs
      pure (part :: parts, rest)
    | rest => pure ([part], rest)

/-- A key: the tables on the way, and the name in the last of them. -/
def key? (fuel : Nat) (cs : List Char) : Option (List String × String × List Char) := do
  let (parts, rest) ← keyParts? fuel cs
  if room < parts.length then none
  else match parts.getLast? with
    | some name => pure (parts.dropLast, name, rest)
    | none => none

mutual

/-- A value, and the text after it. -/
def value? : Nat → Nat → List Char → Option (Json × List Char)
  | 0, _, _ => none
  | fuel + 1, room, cs =>
    match cs with
    | '[' :: cs =>
      if room = 0 then none
      else (items? fuel (room - 1) cs).map fun (js, rest) => (.array js, rest)
    | '{' :: cs =>
      if room = 0 then none
      else
        match skipBlanks cs with
        | '}' :: rest => some (.object [], rest)
        | cs => do
          let (entries, rest) ← pairs? fuel (room - 1) [] cs
          pure (.object (Node.members entries), rest)
    | 't' :: 'r' :: 'u' :: 'e' :: rest => some (.bool true, rest)
    | 'f' :: 'a' :: 'l' :: 's' :: 'e' :: rest => some (.bool false, rest)
    | cs =>
      match string? cs with
      | some (s, rest) => some (.text (String.ofList s), rest)
      | none => number? cs

/-- The items of an array up to its closing bracket, and the text after that. -/
def items? : Nat → Nat → List Char → Option (List Json × List Char)
  | 0, _, _ => none
  | fuel + 1, room, cs =>
    match skipFiller false cs with
    | ']' :: rest => some ([], rest)
    | cs => do
      let (j, rest) ← value? fuel room cs
      match skipFiller false rest with
      | ',' :: cs =>
        let (js, rest) ← items? fuel room cs
        pure (j :: js, rest)
      | ']' :: rest => pure ([j], rest)
      | _ => none

/-- The pairs of an inline table up to its closing brace, added to these entries, and the text
after that. -/
def pairs? : Nat → Nat → Entries → List Char → Option (Entries × List Char)
  | 0, _, _, _ => none
  | fuel + 1, room, entries, cs => do
    let (path, name, rest) ← key? fuel cs
    match rest with
    | '=' :: cs =>
      let (j, rest) ← value? fuel room (skipBlanks cs)
      let entries ← Node.assign path name j entries
      match skipBlanks rest with
      | ',' :: cs => pairs? fuel room entries cs
      | '}' :: rest => pure (entries, rest)
      | _ => none
    | _ => none

end

end LiveServices.Toml

import LiveServices.Json.Basic

/-!
# Reading JSON

`Json.read?` gives the document of a text, or `none` if the text is none. Each call of the
recursive readers consumes a character, so a bound of one more than the length of the text is
never reached.
-/

namespace LiveServices.Json

/-- The characters that may stand between the tokens of a document. -/
def isSpace (c : Char) : Bool := c == ' ' || c == '\n' || c == '\t' || c == '\r'

/-- The text from its next token. -/
def skip (cs : List Char) : List Char := cs.dropWhile isSpace

/-- The character of a one-letter escape. -/
def letterEscape? : Char → Option Char
  | '"' => some '"'
  | '\\' => some '\\'
  | '/' => some '/'
  | 'b' => some '\x08'
  | 'f' => some '\x0c'
  | 'n' => some '\n'
  | 'r' => some '\r'
  | 't' => some '\t'
  | _ => none

/-- The code units of a string after its opening quote, and the text after its closing quote. An
escape of four digits may be half of a surrogate pair. -/
def units? : List Char → Option (List Nat × List Char)
  | '"' :: cs => some ([], cs)
  | '\\' :: 'u' :: a :: b :: c :: d :: cs => do
    let n ← Text.hexNumber? [a, b, c, d]
    let (ns, rest) ← units? cs
    pure (n :: ns, rest)
  | '\\' :: c :: cs => do
    let e ← letterEscape? c
    let (ns, rest) ← units? cs
    pure (e.toNat :: ns, rest)
  | c :: cs =>
    if c.toNat < 0x20 then none
    else do
      let (ns, rest) ← units? cs
      pure (c.toNat :: ns, rest)
  | [] => none

/-- Whether a code unit is the first half of a surrogate pair. -/
def isHigh (n : Nat) : Bool := 0xD800 ≤ n && n < 0xDC00

/-- Whether a code unit is the second half of a surrogate pair. -/
def isLow (n : Nat) : Bool := 0xDC00 ≤ n && n < 0xE000

/-- The characters of code units, if no half of a pair stands alone. -/
def charsOfUnits? : List Nat → Option (List Char)
  | [] => some []
  | [n] => if isHigh n || isLow n then none else some [Char.ofNat n]
  | n :: m :: ns =>
    if isHigh n then
      if isLow m then
        (charsOfUnits? ns).map (Char.ofNat (0x10000 + (n - 0xD800) * 0x400 + (m - 0xDC00)) :: ·)
      else none
    else if isLow n then none
    else (charsOfUnits? (m :: ns)).map (Char.ofNat n :: ·)

/-- A string after its opening quote. The text of a string with half a surrogate pair is absent. -/
def string? (cs : List Char) : Option (Option String × List Char) := do
  let (ns, rest) ← units? cs
  pure ((charsOfUnits? ns).map String.ofList, rest)

/-- The digits at the front of a text. -/
def digits (cs : List Char) : List Char × List Char := cs.span Char.isDigit

/-- The text after a fraction, the text itself if it has none; `none` if the fraction has no
digits. The flag says whether there was one. -/
def fraction? : List Char → Option (Bool × List Char)
  | '.' :: cs =>
    match digits cs with
    | ([], _) => none
    | (_, rest) => some (true, rest)
  | cs => some (false, cs)

/-- The text after an exponent, in the way of `fraction?`. -/
def exponent? : List Char → Option (Bool × List Char)
  | c :: cs =>
    if c = 'e' ∨ c = 'E' then
      let cs := match cs with
        | '+' :: cs => cs
        | '-' :: cs => cs
        | cs => cs
      match digits cs with
      | ([], _) => none
      | (_, rest) => some (true, rest)
    else some (false, c :: cs)
  | [] => some (false, [])

/-- The number of a sign and digits. Zero with a minus sign is no integer. -/
def ofDigits (negative : Bool) (ds : List Char) : Json :=
  match Text.natural? ds with
  | none => decimal
  | some n =>
    if negative then if n = 0 ∨ UInt64.size / 2 < n then decimal else integer (-(n : Int))
    else if n < UInt64.size then integer n else decimal

/-- A number after its sign. -/
def number? (negative : Bool) (cs : List Char) : Option (Json × List Char) := do
  let (ds, rest) := digits cs
  if ds.isEmpty || (ds.head? == some '0' && ds.length > 1) then none
  let (hasFraction, rest) ← fraction? rest
  let (hasExponent, rest) ← exponent? rest
  pure (if hasFraction || hasExponent then decimal else ofDigits negative ds, rest)

/-- The text after a word. -/
def word? (w : String) (cs : List Char) : Option (List Char) :=
  let w := w.toList
  if w.isPrefixOf cs then some (cs.drop w.length) else none

/-- An object of members, some of which may have an unreadable name. -/
def ofMembers (members : List (Option String × Json)) : Json :=
  match members.mapM fun m => m.1.map fun name => (name, m.2) with
  | some members => object members
  | none => unreadable

mutual
/-- A document at the front of a text, and the text after it. -/
def value? : Nat → List Char → Option (Json × List Char)
  | 0, _ => none
  | fuel + 1, cs =>
    match skip cs with
    | '{' :: cs =>
      match skip cs with
      | '}' :: rest => some (object [], rest)
      | cs => (members? fuel cs).map fun (ms, rest) => (ofMembers ms, rest)
    | '[' :: cs =>
      match skip cs with
      | ']' :: rest => some (array [], rest)
      | cs => (items? fuel cs).map fun (js, rest) => (array js, rest)
    | '"' :: cs => (string? cs).map fun (s, rest) => ((s.map text).getD unreadable, rest)
    | '-' :: cs => number? true cs
    | 't' :: cs => (word? "rue" cs).map fun rest => (bool true, rest)
    | 'f' :: cs => (word? "alse" cs).map fun rest => (bool false, rest)
    | 'n' :: cs => (word? "ull" cs).map fun rest => (null, rest)
    | cs => number? false cs

/-- The items of an array up to its closing bracket, and the text after that. -/
def items? : Nat → List Char → Option (List Json × List Char)
  | 0, _ => none
  | fuel + 1, cs => do
    let (j, rest) ← value? fuel cs
    match skip rest with
    | ',' :: cs =>
      let (js, rest) ← items? fuel cs
      pure (j :: js, rest)
    | ']' :: rest => pure ([j], rest)
    | _ => none

/-- The members of an object up to its closing brace, and the text after that. -/
def members? : Nat → List Char → Option (List (Option String × Json) × List Char)
  | 0, _ => none
  | fuel + 1, cs =>
    match skip cs with
    | '"' :: cs => do
      let (name, rest) ← string? cs
      match skip rest with
      | ':' :: cs =>
        let (j, rest) ← value? fuel cs
        match skip rest with
        | ',' :: cs =>
          let (ms, rest) ← members? fuel cs
          pure ((name, j) :: ms, rest)
        | '}' :: rest => pure ([(name, j)], rest)
        | _ => none
      | _ => none
    | _ => none
end

/-- The document of a text. -/
def read? (s : String) : Option Json := do
  let cs := s.toList
  let (j, rest) ← value? (cs.length + 1) cs
  if (skip rest).isEmpty then some j else none

end LiveServices.Json

import LiveServices.Json.Basic

/-!
# The numbers and dates in a TOML document

Integers are signed and of 64 bits, in decimal or with one of the marks `0x`, `0o` and `0b`.
Digits may be grouped by single underscores. Other numbers are read but not kept: they become
`decimal`, and only one that is too large for a double is refused.

Dates are checked against the calendar. A date stands in the document's tree as an object of one
member, its text in the normal form.
-/

namespace LiveServices.Toml

/-! ## Digits -/

/-- Digits, and digits after single underscores. -/
def moreDigits (isDigit : Char → Bool) : List Char → List Char × List Char
  | '_' :: c :: cs =>
    if isDigit c then
      let (ds, rest) := moreDigits isDigit cs
      (c :: ds, rest)
    else ([], '_' :: c :: cs)
  | c :: cs =>
    if isDigit c then
      let (ds, rest) := moreDigits isDigit cs
      (c :: ds, rest)
    else ([], c :: cs)
  | [] => ([], [])

/-- One or more grouped digits. -/
def digits? (isDigit : Char → Bool) : List Char → Option (List Char × List Char)
  | c :: cs =>
    if isDigit c then
      let (ds, rest) := moreDigits isDigit cs
      some (c :: ds, rest)
    else none
  | [] => none

/-- The number that digits denote in a base. -/
def inBase (base : Nat) (ds : List Char) : Nat :=
  ds.foldl (fun n c => base * n + (Text.hexValue? c).getD 0) 0

/-- An optional sign; the flag is set by a minus. -/
def sign : List Char → Bool × List Char
  | '-' :: cs => (true, cs)
  | '+' :: cs => (false, cs)
  | cs => (false, cs)

/-- The digits of a whole decimal number: a zero alone, or digits that do not begin with one. -/
def wholeDigits? : List Char → Option (List Char × List Char)
  | '0' :: cs => some (['0'], cs)
  | cs => digits? Char.isDigit cs

/-! ## Integers -/

/-- An integer of 64 bits. -/
def ofInt? (n : Int) : Option Json := (Text.toLong? n).map .ofLong

/-- Digits of a base after its mark. -/
def marked? (base : Nat) (cs : List Char) : Option (Json × List Char) := do
  let (ds, rest) ← digits? (fun c => (Text.hexValue? c).any fun d => d < base) cs
  pure (← ofInt? (inBase base ds), rest)

/-- An integer. -/
def integer? : List Char → Option (Json × List Char)
  | '0' :: 'x' :: cs => marked? 16 cs
  | '0' :: 'o' :: cs => marked? 8 cs
  | '0' :: 'b' :: cs => marked? 2 cs
  | cs => do
    let (negative, cs) := sign cs
    let (ds, rest) ← wholeDigits? cs
    let n : Int := inBase 10 ds
    pure (← ofInt? (if negative then -n else n), rest)

/-! ## Other numbers -/

/-- Whether a decimal number is rounded to infinity: the bound is half a step above the largest
double. -/
def isTooLarge (ds : List Char) (exponent : Int) : Bool :=
  let ds := ds.dropWhile (· == '0')
  if ds.isEmpty || ds.length + exponent < 300 then false
  else if 320 < ds.length + exponent then true
  else
    let m := inBase 10 ds
    let bound := Nat.pow 2 1024 - Nat.pow 2 970
    if 0 ≤ exponent then bound ≤ m * Nat.pow 10 exponent.toNat
    else bound * Nat.pow 10 (-exponent).toNat ≤ m

/-- The fraction of a number, after its whole part. -/
def fraction? : List Char → Option (List Char × List Char)
  | '.' :: cs => digits? Char.isDigit cs
  | _ => none

/-- The exponent of a number. -/
def exponent? : List Char → Option (Int × List Char)
  | c :: cs =>
    if c = 'e' ∨ c = 'E' then do
      let (negative, cs) := sign cs
      let (ds, rest) ← digits? Char.isDigit cs
      let n : Int := inBase 10 ds
      pure (if negative then -n else n, rest)
    else none
  | [] => none

/-- A number with a fraction or an exponent. -/
def decimal? (cs : List Char) : Option (Json × List Char) := do
  let (negative, cs) := sign cs
  let (whole, rest) ← wholeDigits? cs
  let (part, exponent, rest) ← match fraction? rest with
    | some (part, rest) =>
      match exponent? rest with
      | some (e, rest) => some (part, e, rest)
      | none => some (part, 0, rest)
    | none => (exponent? rest).map fun (e, rest) => ([], e, rest)
  if !negative && isTooLarge (whole ++ part) (exponent - part.length) then none
  else pure (.decimal, rest)

/-- The numbers that have a name. -/
def named? (cs : List Char) : Option (Json × List Char) :=
  match (sign cs).2 with
  | 'i' :: 'n' :: 'f' :: rest => some (.decimal, rest)
  | 'n' :: 'a' :: 'n' :: rest => some (.decimal, rest)
  | _ => none

/-! ## Dates -/

/-- A number of exactly two digits that is not above a bound. -/
def two? (bound : Nat) : List Char → Option (Nat × List Char)
  | a :: b :: cs => do
    let n ← Text.natural? [a, b]
    if n ≤ bound then some (n, cs) else none
  | _ => none

/-- A number as text of at least so many digits. -/
def padded (width n : Nat) : String :=
  let s := toString n
  String.ofList (List.replicate (width - s.length) '0') ++ s

/-- The text after a character. -/
def after? (c : Char) : List Char → Option (List Char)
  | d :: cs => if d = c then some cs else none
  | [] => none

/-- The number of days of a month. -/
def daysOf (year month : Nat) : Nat :=
  if month = 2 then
    if year % 4 = 0 ∧ (year % 100 ≠ 0 ∨ year % 400 = 0) then 29 else 28
  else if month = 4 ∨ month = 6 ∨ month = 9 ∨ month = 11 then 30
  else 31

/-- A day in normal form. -/
def day? : List Char → Option (String × List Char)
  | a :: b :: c :: d :: '-' :: cs => do
    let year ← Text.natural? [a, b, c, d]
    let (month, cs) ← two? 12 cs
    let cs ← after? '-' cs
    let (day, cs) ← two? 31 cs
    if month = 0 ∨ day = 0 ∨ daysOf year month < day then none
    else pure (padded 4 year ++ "-" ++ padded 2 month ++ "-" ++ padded 2 day, cs)
  | _ => none

/-- The fraction of a second in normal form: nine digits at most, without zeros at the end. -/
def secondPart : List Char → String × List Char
  | '.' :: cs =>
    match cs.span Char.isDigit with
    | ([], _) => ("", '.' :: cs)
    | (ds, rest) =>
      let kept := (((ds.take 9).reverse).dropWhile (· == '0')).reverse
      (if kept.isEmpty then "" else "." ++ String.ofList kept, rest)
  | cs => ("", cs)

/-- A time of day in normal form. The last minute may have an extra second. -/
def time? (cs : List Char) : Option (String × List Char) := do
  let (hour, cs) ← two? 23 cs
  let (minute, cs) ← two? 59 (← after? ':' cs)
  let (second, cs) ← two? 60 (← after? ':' cs)
  let (part, cs) := secondPart cs
  pure (padded 2 hour ++ ":" ++ padded 2 minute ++ ":" ++ padded 2 second ++ part, cs)

/-- The distance from universal time in normal form. -/
def offset? : List Char → Option (String × List Char)
  | 'Z' :: cs | 'z' :: cs => some ("Z", cs)
  | c :: cs =>
    if c = '+' ∨ c = '-' then do
      let (hours, cs) ← two? 23 cs
      let (minutes, cs) ← two? 59 (← after? ':' cs)
      let sign := if c = '-' ∧ 60 * hours + minutes ≠ 0 then "-" else "+"
      pure (sign ++ padded 2 hours ++ ":" ++ padded 2 minutes, cs)
    else none
  | [] => none

/-- The time that may follow a day. -/
def dayTime? : List Char → Option (String × List Char)
  | c :: cs =>
    if c = 'T' ∨ c = 't' ∨ c = ' ' then do
      let (time, rest) ← time? cs
      match offset? rest with
      | some (offset, rest) => pure ("T" ++ time ++ offset, rest)
      | none => pure ("T" ++ time, rest)
    else none
  | [] => none

/-- The name of the member that holds the text of a date. -/
def dateKey : String := "$__toml_private_datetime"

/-- A date, a time, or both. -/
def date? (cs : List Char) : Option (Json × List Char) := do
  let (text, rest) ← match day? cs with
    | some (day, rest) =>
      match dayTime? rest with
      | some (time, rest) => some (day ++ time, rest)
      | none => some (day, rest)
    | none => time? cs
  pure (.object [(dateKey, .text text)], rest)

/-- A number or a date. -/
def number? (cs : List Char) : Option (Json × List Char) :=
  date? cs <|> decimal? cs <|> named? cs <|> integer? cs

end LiveServices.Toml

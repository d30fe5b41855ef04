import LiveServices.Text.Numeral

/-!
# The texts in a TOML document

What stands between the parts of a document, and the four forms of strings. A line ends with a
line feed, before which a carriage return may stand. Comments and strings hold no control
character but the tab.

Each reader takes the text from its own first character on, or from the one after the delimiter
named in its comment, and returns what it read with the text that follows.
-/

namespace LiveServices.Toml

/-! ## Between the parts -/

/-- The blanks within a line. -/
def isBlank (c : Char) : Bool := c == ' ' || c == '\t'

/-- The characters that comments and strings may hold. -/
def isPlain (c : Char) : Bool := c == '\t' || (0x20 ≤ c.toNat && c.toNat != 0x7F)

/-- The text after the blanks at its front. -/
def skipBlanks (cs : List Char) : List Char := cs.dropWhile isBlank

/-- The text after a line break. -/
def newline? : List Char → Option (List Char)
  | '\n' :: cs => some cs
  | '\r' :: '\n' :: cs => some cs
  | _ => none

/-- The text after the end of a line, before which blanks and a comment may stand. The end of the
document is the end of a line. -/
def endLine? (cs : List Char) : Option (List Char) :=
  let rest := match skipBlanks cs with
    | '#' :: cs => cs.dropWhile isPlain
    | cs => cs
  if rest.isEmpty then some [] else newline? rest

/-- The text after blanks, line breaks and comments; the flag says whether it begins in a
comment. -/
def skipFiller : Bool → List Char → List Char
  | _, '\n' :: cs => skipFiller false cs
  | _, '\r' :: '\n' :: cs => skipFiller false cs
  | true, c :: cs => if isPlain c then skipFiller true cs else c :: cs
  | false, c :: cs =>
    if isBlank c then skipFiller false cs
    else if c == '#' then skipFiller true cs
    else c :: cs
  | _, [] => []

/-! ## Strings -/

/-- The character of a code point. -/
def scalar? (n : Nat) : Option Char :=
  if h : n.isValidChar then some (Char.ofNatAux n h) else none

/-- The character of a one-letter escape. -/
def letterEscape? : Char → Option Char
  | '"' => some '"'
  | '\\' => some '\\'
  | 'b' => some '\x08'
  | 'f' => some '\x0c'
  | 'n' => some '\n'
  | 'r' => some '\r'
  | 't' => some '\t'
  | _ => none

/-- The character of an escape with hexadecimal digits. -/
def hexEscape? (cs : List Char) : Option Char := (Text.hexNumber? cs).bind scalar?

/-- A character before what was read of the rest. -/
def before (c : Char) (r : List Char × List Char) : List Char × List Char := (c :: r.1, r.2)

/-- A string in double quotes, after the opening quote. -/
def basic? : List Char → Option (List Char × List Char)
  | '"' :: cs => some ([], cs)
  | '\\' :: 'u' :: a :: b :: c :: d :: cs => do
    let e ← hexEscape? [a, b, c, d]
    pure (before e (← basic? cs))
  | '\\' :: 'U' :: a :: b :: c :: d :: e :: f :: g :: h :: cs => do
    let e ← hexEscape? [a, b, c, d, e, f, g, h]
    pure (before e (← basic? cs))
  | '\\' :: c :: cs => do
    let e ← letterEscape? c
    pure (before e (← basic? cs))
  | c :: cs => if isPlain c then (basic? cs).map (before c) else none
  | [] => none

/-- A string in single quotes, after the opening quote. It has no escapes. -/
def literal? : List Char → Option (List Char × List Char)
  | '\'' :: cs => some ([], cs)
  | c :: cs => if isPlain c then (literal? cs).map (before c) else none
  | [] => none

/-- The quotes that belong to a string of many lines after three quotes: the three that end it are
the last of up to five. -/
def closing (quote : Char) : List Char → List Char × List Char
  | a :: b :: cs =>
    if a = quote then
      if b = quote then ([quote, quote], cs) else ([quote], b :: cs)
    else ([], a :: b :: cs)
  | [a] => if a = quote then ([quote], []) else ([], [a])
  | [] => ([], [])

/-- Whether a line ends after blanks. -/
def endsLine (cs : List Char) : Bool := (newline? (skipBlanks cs)).isSome

/-- A string of many lines in double quotes. A backslash at the end of a line takes away the
blanks and line breaks that follow; the flag says that they are being taken away. -/
def longBasic? : Bool → List Char → Option (List Char × List Char)
  | _, '"' :: '"' :: '"' :: cs => some (closing '"' cs)
  | true, '\n' :: cs => longBasic? true cs
  | true, '\r' :: '\n' :: cs => longBasic? true cs
  | true, ' ' :: cs => longBasic? true cs
  | true, '\t' :: cs => longBasic? true cs
  | _, '\n' :: cs => (longBasic? false cs).map (before '\n')
  | _, '\r' :: '\n' :: cs => (longBasic? false cs).map (before '\n')
  | _, '\\' :: 'u' :: a :: b :: c :: d :: cs => do
    let e ← hexEscape? [a, b, c, d]
    pure (before e (← longBasic? false cs))
  | _, '\\' :: 'U' :: a :: b :: c :: d :: e :: f :: g :: h :: cs => do
    let e ← hexEscape? [a, b, c, d, e, f, g, h]
    pure (before e (← longBasic? false cs))
  | _, '\\' :: c :: cs =>
    if endsLine (c :: cs) then longBasic? true (c :: cs)
    else do
      let e ← letterEscape? c
      pure (before e (← longBasic? false cs))
  | _, c :: cs => if isPlain c then (longBasic? false cs).map (before c) else none
  | _, [] => none

/-- A string of many lines in single quotes. -/
def longLiteral? : List Char → Option (List Char × List Char)
  | '\'' :: '\'' :: '\'' :: cs => some (closing '\'' cs)
  | '\n' :: cs => (longLiteral? cs).map (before '\n')
  | '\r' :: '\n' :: cs => (longLiteral? cs).map (before '\n')
  | c :: cs => if isPlain c then (longLiteral? cs).map (before c) else none
  | [] => none

/-- The text after a line break directly behind the opening quotes of a string of many lines. -/
def skipFirstBreak (cs : List Char) : List Char := (newline? cs).getD cs

/-- A string, from its opening quotes on. -/
def string? : List Char → Option (List Char × List Char)
  | '"' :: '"' :: '"' :: cs => longBasic? false (skipFirstBreak cs)
  | '"' :: cs => basic? cs
  | '\'' :: '\'' :: '\'' :: cs => longLiteral? (skipFirstBreak cs)
  | '\'' :: cs => literal? cs
  | _ => none

/-! ## Keys -/

/-- The characters of a bare key. -/
def isBare (c : Char) : Bool := c.isAlphanum || c == '-' || c == '_'

/-- One part of a key: quoted on one line, or bare. -/
def keyPart? : List Char → Option (String × List Char)
  | '"' :: cs => (basic? cs).map fun (s, rest) => (String.ofList s, rest)
  | '\'' :: cs => (literal? cs).map fun (s, rest) => (String.ofList s, rest)
  | cs =>
    match cs.span isBare with
    | ([], _) => none
    | (s, rest) => some (String.ofList s, rest)

end LiveServices.Toml

import LiveServices.Toml.Value

/-!
# Reading TOML

A document is a list of sections. The first one belongs to the document itself, each other one to
the header before it. `Toml.read?` gives the tree of a text, or `none` if the text is no document.
-/

namespace LiveServices.Toml

/-- A line of a document that says something. -/
inductive Statement where
  /-- A header in brackets: the tables on the way, and the name of the table. -/
  | header (path : List String) (name : String)
  /-- A header in double brackets. -/
  | another (path : List String) (name : String)
  /-- A key with its value. -/
  | assign (path : List String) (name : String) (value : Json)

/-- The text after so many closing brackets and the end of the line. -/
def closeHeader? : Nat → List Char → Option (List Char)
  | 0, cs => endLine? cs
  | n + 1, cs => (after? ']' cs).bind (closeHeader? n)

/-- A statement up to the end of its line, and the text after that. -/
def statement? (fuel : Nat) : List Char → Option (Statement × List Char)
  | '[' :: '[' :: cs => do
    let (path, name, rest) ← key? fuel cs
    pure (.another path name, ← closeHeader? 2 rest)
  | '[' :: cs => do
    let (path, name, rest) ← key? fuel cs
    pure (.header path name, ← closeHeader? 1 rest)
  | cs => do
    let (path, name, rest) ← key? fuel cs
    let (j, rest) ← value? fuel room (skipBlanks (← after? '=' rest))
    pure (.assign path name j, ← endLine? rest)

/-- The statements of a text. Each one takes at least a character. -/
def statements? : Nat → List Char → Option (List Statement)
  | 0, _ => none
  | fuel + 1, cs =>
    match skipFiller false cs with
    | [] => some []
    | cs => do
      let (s, rest) ← statement? fuel cs
      pure (s :: (← statements? fuel rest))

/-- A table with the keys and values added that stand before the next header. -/
def fill : List Statement → Entries → Option Entries
  | .assign path name j :: rest, entries => do fill rest (← Node.assign path name j entries)
  | _, entries => some entries

/-- The document with the sections of these statements added. Keys with values are added with the
header before them. -/
def addSections : List Statement → Entries → Option Entries
  | [], entries => some entries
  | .header path name :: rest, entries => do
    addSections rest (← Node.give path name (fill rest) entries)
  | .another path name :: rest, entries => do
    addSections rest (← Node.giveAnother path name (fill rest) entries)
  | .assign _ _ _ :: rest, entries => addSections rest entries

/-- The document of a text. A byte-order mark may stand before it. -/
def read? (s : String) : Option Json := do
  let cs := match s.toList with
    | '\uFEFF' :: cs => cs
    | cs => cs
  let statements ← statements? (cs.length + 1) cs
  let entries ← addSections statements (← fill statements [])
  pure (.object (Node.members entries))

end LiveServices.Toml

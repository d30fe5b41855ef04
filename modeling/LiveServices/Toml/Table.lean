import LiveServices.Json.Basic

/-!
# The tables of a TOML document

A document builds a tree of tables. Each table remembers what brought it about, since that decides
what may be added to it later: a table is given by one header only, a table that dotted keys made
is given by no header, and dotted keys add to no table that was given already.
-/

namespace LiveServices.Toml

/-- What brought a table about. -/
inductive Origin where
  /-- It is on the way to another table that has a header. -/
  | passed
  /-- It is on the way of a dotted key. -/
  | dotted
  /-- It has a header. -/
  | given
  deriving DecidableEq

/-- A part of a document under construction. -/
inductive Node where
  /-- A value; nothing can be added to it. -/
  | value (json : Json)
  | table (origin : Origin) (entries : List (String × Node))
  /-- The tables of headers in double brackets, the last one first. -/
  | tables (items : List (List (String × Node)))

/-- The entries of a table. -/
abbrev Entries := List (String × Node)

namespace Node

mutual

/-- The document of a part. -/
def toJson : Node → Json
  | value j => j
  | table _ entries => .object (members entries)
  | tables items => .array (objects items).reverse

/-- The members of a table. -/
def members : List (String × Node) → List (String × Json)
  | [] => []
  | (name, node) :: entries => (name, node.toJson) :: members entries

/-- The tables of a list. -/
def objects : List (List (String × Node)) → List Json
  | [] => []
  | entries :: items => .object (members entries) :: objects items

end

/-- Replace an entry, or add it. -/
def put (name : String) (node : Node) : Entries → Entries
  | [] => [(name, node)]
  | entry :: entries =>
    if entry.1 = name then (name, node) :: entries else entry :: put name node entries

/-- Change the table at the end of a path. Tables that are missing on the way are added, and of
tables with one name the last is entered. Dotted keys enter no table that was given by its header.
The change is told what brought its table about. -/
def change (isDotted : Bool) (f : Origin → Entries → Option Entries) :
    List String → Origin → Entries → Option Entries
  | [], origin, entries => f origin entries
  | name :: path, _, entries =>
    match entries.lookup name with
    | none => do
      let origin := if isDotted then .dotted else .passed
      pure (put name (.table origin (← change isDotted f path origin [])) entries)
    | some (value _) => none
    | some (table origin inner) =>
      if isDotted ∧ origin = .given then none
      else do pure (put name (.table origin (← change isDotted f path origin inner)) entries)
    | some (tables []) => none
    | some (tables (inner :: earlier)) => do
      pure (put name (.tables ((← change isDotted f path .given inner) :: earlier)) entries)

/-- Add a value under a key: the tables on the way, and the name in the last of them. The last one
has to be the table itself or one that dotted keys made. -/
def assign (path : List String) (name : String) (j : Json) (entries : Entries) : Option Entries :=
  change true (fun origin inner =>
    if !path.isEmpty && origin ≠ .dotted then none
    else if (inner.lookup name).isSome then none
    else some (inner ++ [(name, .value j)])) path .given entries

/-- The entries that the table of a header begins with, if it may be given by one: those that the
headers of its inner tables made. -/
def begun? (name : String) (entries : Entries) : Option Entries :=
  match entries.lookup name with
  | none => some []
  | some (table .passed inner) => some inner
  | some _ => none

/-- Give a table under a header, as a function of the entries it begins with. -/
def give (path : List String) (name : String) (fill : Entries → Option Entries)
    (entries : Entries) : Option Entries :=
  change false (fun _ parent => do
    pure (put name (.table .given (← fill (← begun? name parent))) parent)) path .given entries

/-- Add a table to the list of a header in double brackets. -/
def giveAnother (path : List String) (name : String) (fill : Entries → Option Entries)
    (entries : Entries) : Option Entries :=
  change false (fun _ parent => do
    let earlier ← match parent.lookup name with
      | none => some []
      | some (tables items) => some items
      | some _ => none
    pure (put name (.tables ((← fill []) :: earlier)) parent)) path .given entries

end Node

end LiveServices.Toml

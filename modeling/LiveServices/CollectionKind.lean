import LiveServices.Json.Shape

/-!
# Kinds of collections

A collection keeps its entries in the order of insertion or in sorted order, and it either takes
every entry or refuses one that equals an entry it has.
-/

namespace LiveServices

/-- How a collection stores its entries. -/
inductive CollectionKind where
  /-- Insertion order, every entry taken. -/
  | list
  /-- Insertion order, equal entries refused. -/
  | set
  /-- Sorted order, every entry taken. -/
  | sortedList
  /-- Sorted order, an entry refused if one compares equal. -/
  | sortedSet
  deriving DecidableEq, Inhabited

namespace CollectionKind

/-- The name of a kind. -/
def name : CollectionKind → String
  | list => "list"
  | set => "set"
  | sortedList => "sortedList"
  | sortedSet => "sortedSet"

/-- All kinds. -/
def all : List CollectionKind := [list, set, sortedList, sortedSet]

/-- The kind of a name. -/
def ofName? (s : String) : Option CollectionKind := all.find? fun k => k.name == s

/-- Whether entries stand in sorted order. -/
def isSorted : CollectionKind → Bool
  | sortedList | sortedSet => true
  | list | set => false

/-- The kind that stands in a document. -/
def ofJson? (d : Dialect) (j : Json) : Option CollectionKind := (j.choice? d).bind ofName?

/-- The form of a kind in a document. -/
def toJson (k : CollectionKind) : Json := .text k.name

@[simp] theorem ofName?_name (k : CollectionKind) : ofName? k.name = some k := by
  cases k <;> simp [ofName?, all, name]

@[simp] theorem ofJson?_toJson (d : Dialect) (k : CollectionKind) :
    ofJson? d k.toJson = some k := by simp [ofJson?, toJson, Json.choice?]

end CollectionKind

end LiveServices

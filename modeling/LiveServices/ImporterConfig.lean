import LiveServices.CollectionKind
import LiveServices.Filter.Parser
import LiveServices.Text.Blank
import LiveServices.Toml.Reader

/-!
# Importer configuration

What an importer is called, which services it wants, whether it needs one, how it stores them, and
whether it hands out proxies. Every part has a default, so the empty document is a configuration.

`validate` accepts a configuration that can be built: its name is not blank, only a sorted
collection has a sort key, and the filter is in the grammar; the first of these that fails is the
one reported.
-/

namespace LiveServices

/-- The configuration of an importer. -/
structure ImporterConfig where
  beanName : String := "serviceCollection"
  filter : String := "(objectClass=*)"
  mandatory : Bool := true
  collection : CollectionKind := .list
  sortBy : Option String := none
  proxies : Bool := false
  deriving DecidableEq

namespace ImporterConfig

/-- The filter of a configuration. -/
def parsedFilter (c : ImporterConfig) : Except Failure ServiceFilter := ServiceFilter.parse c.filter

/-- The reason why a configuration cannot be built, if there is one. -/
def validate (c : ImporterConfig) : Except Failure Unit :=
  if Text.isBlankText c.beanName then .error (.config "beanName must not be empty")
  else if c.sortBy.isSome && !c.collection.isSorted then
    .error (.config ("sortBy requires a sorted collection, got '" ++ c.collection.name ++ "'"))
  else c.parsedFilter.map fun _ => ()

/-! ## Documents -/

/-- The form of a configuration; an unset sort key is left out. -/
def toJson (c : ImporterConfig) : Json :=
  .object ([("beanName", .text c.beanName), ("filter", .text c.filter),
      ("mandatory", .bool c.mandatory), ("collection", c.collection.toJson)] ++
    (match c.sortBy with
      | some key => [("sortBy", .text key)]
      | none => []) ++
    [("proxies", .bool c.proxies)])

/-- An optional text, which may be null. -/
def sortKey? : Json → Option (Option String)
  | .null => some none
  | j => j.text?.map some

/-- The configuration of a form. A field that is absent has its default. -/
def ofJson? (d : Dialect) (j : Json) : Option ImporterConfig := do
  let default : ImporterConfig := {}
  match ← j.fields? d ["beanName", "filter", "mandatory", "collection", "sortBy", "proxies"] with
  | [beanName, filter, mandatory, collection, sortBy, proxies] =>
    pure {
      beanName := ← Json.orDefault default.beanName Json.text? beanName
      filter := ← Json.orDefault default.filter Json.text? filter
      mandatory := ← Json.orDefault default.mandatory Json.bool? mandatory
      collection := ← Json.orDefault default.collection (CollectionKind.ofJson? d) collection
      sortBy := ← Json.orDefault default.sortBy sortKey? sortBy
      proxies := ← Json.orDefault default.proxies Json.bool? proxies }
  | _ => none

/-- The valid configuration that a TOML text holds. -/
def ofToml (s : String) : Except Failure ImporterConfig := do
  match (Toml.read? s).bind (ofJson? .toml) with
  | none => throw .toml
  | some c =>
    c.validate
    pure c

/-! ## Text -/

/-- The inspection text of a truth value. -/
def truth (b : Bool) : String := if b then "true" else "false"

/-- The inspection text of a kind. -/
def kindText : CollectionKind → String
  | .list => "List"
  | .set => "Set"
  | .sortedList => "SortedList"
  | .sortedSet => "SortedSet"

/-- The inspection text of a configuration. -/
def inspect (c : ImporterConfig) : String :=
  Text.record "ImporterConfig" [("bean_name", Text.quote c.beanName),
    ("filter", Text.quote c.filter), ("mandatory", truth c.mandatory),
    ("collection", kindText c.collection), ("sort_by", Text.optional (c.sortBy.map Text.quote)),
    ("proxies", truth c.proxies)]

end ImporterConfig

end LiveServices

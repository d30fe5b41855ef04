import LiveServices.Json.Basic

/-!
# The shapes of records and choices in documents

A record stands in a document as an object of its fields, or as an array of them in the order of
declaration. Fields that the record does not know are skipped; a known field that is repeated
makes the object no record. A choice without data stands as its name, or as an object of that one
name.

JSON and TOML differ in two details, which a `Dialect` lists.
-/

namespace LiveServices

/-- Where the readers of records and choices differ. -/
structure Dialect where
  /-- Whether the array of a record may have items after its last field. -/
  allowsExtraItems : Bool
  /-- What stands beside the name of a choice without data. -/
  isEmptyPayload : Json → Bool

namespace Dialect

/-- JSON: arrays of records are exact, and a choice has the payload `null`. -/
def json : Dialect where
  allowsExtraItems := false
  isEmptyPayload
    | .null => true
    | _ => false

/-- TOML: items after the last field are skipped, and a choice has an empty array or table. -/
def toml : Dialect where
  allowsExtraItems := true
  isEmptyPayload
    | .array [] | .object [] => true
    | _ => false

end Dialect

namespace Json

/-- The values of the members with this name. -/
def valuesOf (members : List (String × Json)) (name : String) : List Json :=
  (members.filter fun m => m.1 == name).map (·.2)

/-- The value of the one member with this name: absent if there is none, and no field at all if it
is repeated. -/
def field? (members : List (String × Json)) (name : String) : Option (Option Json) :=
  match valuesOf members name with
  | [] => some none
  | [j] => some (some j)
  | _ => none

/-- The fields of a record, in the order of their names; a field may be absent. -/
def fields? (d : Dialect) (names : List String) : Json → Option (List (Option Json))
  | object members => names.mapM (field? members)
  | array items =>
    if !d.allowsExtraItems && names.length < items.length then none
    else some (names.mapIdx fun i _ => items[i]?)
  | _ => none

/-- A field of a record with a default. -/
def orDefault (default : α) (read : Json → Option α) : Option Json → Option α
  | none => some default
  | some j => read j

/-- The name of a choice without data. -/
def choice? (d : Dialect) : Json → Option String
  | text name => some name
  | object [(name, payload)] => if d.isEmptyPayload payload then some name else none
  | _ => none

end Json

end LiveServices

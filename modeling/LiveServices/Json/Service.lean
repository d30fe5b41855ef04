import LiveServices.Event
import LiveServices.Json.Shape

/-!
# Services in documents

The JSON forms of property values, property maps, references and events, each a writer `toJson`
beside a reader `ofJson?`. A value's kind is read off its form alone: a truth value, an integer of
64 bits, a text, or an array of texts.
-/

namespace LiveServices

namespace PropertyValue

/-- The form of a property value. -/
def toJson : PropertyValue → Json
  | bool b => .bool b
  | long v => .ofLong v
  | text s => .text s
  | list items => .ofList .text items

/-- The property value of a form. -/
def ofJson? : Json → Option PropertyValue
  | .bool b => some (bool b)
  | .integer n => (Text.toLong? n).map long
  | .text s => some (text s)
  | .array items => (items.mapM Json.text?).map list
  | _ => none

/-- A property value is read back from its form. -/
theorem ofJson?_toJson (v : PropertyValue) : ofJson? v.toJson = some v := by
  cases v with
  | bool b => rfl
  | long v => simp [toJson, ofJson?, Json.ofLong, Text.toLong?_toInt]
  | text s => rfl
  | list items =>
    have h : (items.map Json.text).mapM Json.text? = some items := by
      induction items with
      | nil => rfl
      | cons s ss ih => simp [Json.text?, ih]
    simp [toJson, ofJson?, Json.ofList, h]

end PropertyValue

namespace Properties

/-- The form of a property map. -/
def toJson (p : Properties) : Json := .object (p.entries.map fun e => (e.1, e.2.toJson))

/-- The property map of a form; of several values for one key the last one counts. -/
def ofJson? : Json → Option Properties
  | .object members =>
    (members.mapM fun m => (PropertyValue.ofJson? m.2).map fun v => (m.1, v)).map ofList
  | _ => none

end Properties

namespace ServiceReference

/-- The form of a reference. -/
def toJson (r : ServiceReference) : Json :=
  .object [("id", .ofId r.id), ("properties", r.properties.toJson)]

/-- The reference of a form. Its properties are taken as they are: no identity is added. -/
def ofJson? (j : Json) : Option ServiceReference := do
  match ← j.fields? .json ["id", "properties"] with
  | [some id, some properties] => pure ⟨← id.id?, ← Properties.ofJson? properties⟩
  | _ => none

end ServiceReference

namespace EventKind

/-- The form of an event kind. -/
def toJson (k : EventKind) : Json := .text k.name

/-- The event kind of a form. -/
def ofJson? (j : Json) : Option EventKind := (j.choice? .json).bind ofName?

/-- An event kind is read back from its form. -/
theorem ofJson?_toJson (k : EventKind) : ofJson? k.toJson = some k := by
  cases k <;> simp [toJson, ofJson?, Json.choice?, ofName?, all, name]

end EventKind

namespace ServiceEvent

/-- The form of an event. -/
def toJson (e : ServiceEvent) : Json :=
  .object [("kind", e.kind.toJson), ("reference", e.reference.toJson)]

/-- The event of a form. -/
def ofJson? (j : Json) : Option ServiceEvent := do
  match ← j.fields? .json ["kind", "reference"] with
  | [some kind, some reference] =>
    pure ⟨← EventKind.ofJson? kind, ← ServiceReference.ofJson? reference⟩
  | _ => none

end ServiceEvent

end LiveServices

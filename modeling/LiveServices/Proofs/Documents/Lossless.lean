import LiveServices.ImporterConfig
import LiveServices.Json.Service
import LiveServices.Proofs.Documents.Texts
import LiveServices.Proofs.Properties.Entries

/-!
# Documents lose nothing

The readers and writers of property values, property maps, references, events and importer
configurations are inverse: what was written is read back with all its fields, from the tree and
from its text (`Lossless`). The form of a property value says its kind (`PropertyValue.ofJson?`
reads an array as a list and an integer as a long, and no kind has two forms), and the entries of
a map stand in its form as they stand in the map.
-/

namespace LiveServices

/-- A reader that gives back everything that was written. -/
structure Lossless (toJson : α → Json) (ofJson? : Json → Option α) : Prop where
  /-- Every value is read back from its form. -/
  form : ∀ a, ofJson? (toJson a) = some a
  /-- Every value is read back from the text of its form. -/
  text : ∀ a, (Json.read? (toJson a).compact).bind ofJson? = some a

/-- A reader that inverts a writer of exact documents also inverts the writing of their texts. -/
theorem Lossless.of_exact {toJson : α → Json} {ofJson? : Json → Option α}
    (hform : ∀ a, ofJson? (toJson a) = some a) (hexact : ∀ a, (toJson a).Exact) :
    Lossless toJson ofJson? where
  form := hform
  text a := by rw [Json.read?_compact (hexact a), Option.bind_some, hform]

/-- An identity is an integer of 64 bits without a sign, which a document can hold. -/
theorem Json.exact_ofId (id : UInt64) : (Json.ofId id).Exact :=
  ⟨Int.le_trans (by decide) (Int.natCast_nonneg _), Int.ofNat_lt.2 id.toNat_lt⟩

namespace PropertyValue

/-- A long is an integer of 64 bits with a sign, and the other values are no numbers. -/
theorem exact_toJson (v : PropertyValue) : v.toJson.Exact := by
  cases v with
  | bool b => trivial
  | long v => exact ⟨v.le_toInt, Int.lt_trans v.toInt_lt (by decide)⟩
  | text s => trivial
  | list items =>
    refine Json.exactItems_iff.2 fun j hj => ?_
    obtain ⟨s, -, rfl⟩ := List.mem_map.1 hj
    trivial

end PropertyValue

namespace Properties

/-- The entries are read in the order in which they were written, which is the order of a map. -/
theorem ofJson?_toJson (p : Properties) : ofJson? p.toJson = some p := by
  have hentries : (p.entries.map fun e => (e.1, e.2.toJson)).mapM
      (fun m => (PropertyValue.ofJson? m.2).map fun v => (m.1, v)) = some p.entries :=
    Json.mapM_map (fun e => by rw [PropertyValue.ofJson?_toJson, Option.map_some]) p.entries
  rw [toJson, ofJson?, hentries, Option.map_some, ofList_entries]

theorem exact_toJson (p : Properties) : p.toJson.Exact := by
  refine Json.exactMembers_iff.2 fun m hm => ?_
  obtain ⟨e, -, rfl⟩ := List.mem_map.1 hm
  exact e.2.exact_toJson

end Properties

namespace ServiceReference

/-- Both fields are written, so both are found. The properties are taken as they are, whatever they
say of the identity. -/
theorem ofJson?_toJson (r : ServiceReference) : ofJson? r.toJson = some r := by
  have hfields : r.toJson.fields? .json ["id", "properties"] =
      some [some (.ofId r.id), some r.properties.toJson] := rfl
  simp [ofJson?, hfields, Properties.ofJson?_toJson, Json.id?_ofId]

theorem exact_toJson (r : ServiceReference) : r.toJson.Exact := by
  refine Json.exactMembers_iff.2 fun m hm => ?_
  rcases List.mem_pair.1 hm with rfl | rfl
  · exact Json.exact_ofId r.id
  · exact r.properties.exact_toJson

end ServiceReference

namespace ServiceEvent

/-- An event is read back with its kind and its reference. -/
theorem ofJson?_toJson (e : ServiceEvent) : ofJson? e.toJson = some e := by
  have hfields : e.toJson.fields? .json ["kind", "reference"] =
      some [some e.kind.toJson, some e.reference.toJson] := rfl
  simp [ofJson?, hfields, EventKind.ofJson?_toJson, ServiceReference.ofJson?_toJson]

theorem exact_toJson (e : ServiceEvent) : e.toJson.Exact := by
  refine Json.exactMembers_iff.2 fun m hm => ?_
  rcases List.mem_pair.1 hm with rfl | rfl
  · trivial
  · exact e.reference.exact_toJson

end ServiceEvent

namespace ImporterConfig

/-- A sort key that is a text is set. -/
theorem sortKey?_text (key : String) : sortKey? (.text key) = some (some key) := rfl

/-- Every configuration is read back from its form. A sort key that is left out reads as unset. -/
theorem ofJson?_toJson (d : Dialect) (c : ImporterConfig) : ofJson? d c.toJson = some c := by
  obtain ⟨beanName, filter, mandatory, collection, sortBy, proxies⟩ := c
  cases sortBy with
  | none =>
    have hfields : (toJson ⟨beanName, filter, mandatory, collection, none, proxies⟩).fields? d
        ["beanName", "filter", "mandatory", "collection", "sortBy", "proxies"] =
        some [some (.text beanName), some (.text filter), some (.bool mandatory),
          some collection.toJson, none, some (.bool proxies)] := rfl
    simp [ofJson?, hfields, Json.orDefault, Json.text?, Json.bool?]
  | some key =>
    have hfields : (toJson ⟨beanName, filter, mandatory, collection, some key, proxies⟩).fields? d
        ["beanName", "filter", "mandatory", "collection", "sortBy", "proxies"] =
        some [some (.text beanName), some (.text filter), some (.bool mandatory),
          some collection.toJson, some (.text key), some (.bool proxies)] := rfl
    simp [ofJson?, hfields, Json.orDefault, Json.text?, Json.bool?, sortKey?_text]

/-- A configuration has texts and truth values only. -/
theorem exact_toJson (c : ImporterConfig) : c.toJson.Exact := by
  obtain ⟨beanName, filter, mandatory, collection, sortBy, proxies⟩ := c
  cases sortBy <;> simp [toJson, CollectionKind.toJson, Json.Exact, Json.ExactMembers]

end ImporterConfig

/-- **Documents lose nothing.** Every property value, property map, reference, event and importer
configuration is read back from its form, and from the text of its form. -/
theorem documents_lossless :
    Lossless PropertyValue.toJson PropertyValue.ofJson? ∧
    Lossless Properties.toJson Properties.ofJson? ∧
    Lossless ServiceReference.toJson ServiceReference.ofJson? ∧
    Lossless ServiceEvent.toJson ServiceEvent.ofJson? ∧
    Lossless ImporterConfig.toJson (ImporterConfig.ofJson? .json) :=
  ⟨.of_exact PropertyValue.ofJson?_toJson PropertyValue.exact_toJson,
    .of_exact Properties.ofJson?_toJson Properties.exact_toJson,
    .of_exact ServiceReference.ofJson?_toJson ServiceReference.exact_toJson,
    .of_exact ServiceEvent.ofJson?_toJson ServiceEvent.exact_toJson,
    .of_exact (ImporterConfig.ofJson?_toJson .json) ImporterConfig.exact_toJson⟩

end LiveServices

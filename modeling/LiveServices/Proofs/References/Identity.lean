import LiveServices.Json.Service
import LiveServices.Proofs.Filter.Numerals
import LiveServices.Proofs.Properties.Entries
import Mathlib.Data.List.Forall2

/-!
# The identity of a reference among its properties

A reference that `ServiceReference.new` made finds its identity under `service.id`, as a signed
integer of the same bits, whatever properties it was given (`ServiceReference.carriesIdentity_new`).

The reader of documents adds nothing to the properties. What it finds under a key is the last
member of the name that the look-up comes to (`Properties.lookup_of_ofJson?`), so a reference or an
event that was read carries the identity if its document states it there, and only then
(`ServiceReference.carriesIdentity_iff_states`, `ServiceEvent.carriesIdentity_iff_states`).
-/

namespace LiveServices

/-! ## Property maps that were read -/

/-- The names of the members of an object. -/
def Json.names : Json → List String
  | .object members => members.map (·.1)
  | _ => []

/-- A member is read as a long only if it is an integer of 64 bits with a sign. -/
theorem PropertyValue.ofJson?_eq_long_iff {j : Json} {v : Int64} :
    ofJson? j = some (long v) ↔ j = .ofLong v := by
  constructor
  · intro h
    cases j with
    | integer n =>
      obtain ⟨w, hw, heq⟩ := Option.map_eq_some_iff.1 h
      rw [Json.ofLong, Text.toLong?_eq_some_iff.1 hw, long.inj heq]
    | array items =>
      obtain ⟨_, _, heq⟩ := Option.map_eq_some_iff.1 h
      cases heq
    | _ => cases h
  · rintro rfl
    exact ofJson?_toJson (long v)

namespace Properties

variable {j : Json} {p : Properties} {key : String} {value : PropertyValue}

/-- The members of an object and the entries that they are read as, side by side. -/
def ReadAs (members : List (String × Json)) (entries : List (String × PropertyValue)) : Prop :=
  List.Forall₂ (fun m e => m.1 = e.1 ∧ PropertyValue.ofJson? m.2 = some e.2) members entries

/-- Members that were all read were read one by one. -/
theorem readAs_of_mapM {members : List (String × Json)} {entries : List (String × PropertyValue)}
    (h : members.mapM (fun m => (PropertyValue.ofJson? m.2).map fun v => (m.1, v)) =
      some entries) : ReadAs members entries := by
  induction members generalizing entries with
  | nil =>
    obtain rfl := Option.some.inj h
    exact .nil
  | cons m members ih =>
    simp only [List.mapM_cons, Option.bind_eq_bind, Option.pure_def, Option.bind_eq_some_iff,
      Option.map_eq_some_iff, Option.some_inj] at h
    obtain ⟨_, ⟨v, hv, rfl⟩, rest, hrest, rfl⟩ := h
    exact .cons ⟨rfl, hv⟩ (ih hrest)

namespace ReadAs

variable {members : List (String × Json)} {entries : List (String × PropertyValue)}

/-- The first member of a name is read as the first entry of the key. -/
theorem find?_eq (h : ReadAs members entries) (key : String) :
    (entries.find? fun e => e.1 == key).map (·.2) =
      ((members.find? fun m => m.1 == key).map (·.2)).bind PropertyValue.ofJson? := by
  induction h with
  | nil => rfl
  | @cons m e members entries hme _ ih =>
    obtain ⟨hname, hvalue⟩ := hme
    rw [List.find?_cons, List.find?_cons, hname]
    cases e.1 == key with
    | true => exact hvalue.symm
    | false => exact ih

/-- The entries that are read have the names of the members. -/
theorem keys_eq (h : ReadAs members entries) : entries.map (·.1) = members.map (·.1) := by
  induction h with
  | nil => rfl
  | cons hme _ ih => rw [List.map_cons, List.map_cons, hme.1, ih]

end ReadAs

theorem exists_of_ofJson? (h : ofJson? j = some p) :
    ∃ members entries, j = .object members ∧ ReadAs members entries ∧ p = ofList entries := by
  cases j with
  | object members =>
    obtain ⟨entries, hentries, rfl⟩ := Option.map_eq_some_iff.1 h
    exact ⟨members, entries, rfl, readAs_of_mapM hentries, rfl⟩
  | _ => cases h

/-- A map that was read has under a key what its document has there. -/
theorem find?_of_ofJson? (h : ofJson? j = some p) (key : String) :
    p.find? key = (j.get? key).bind PropertyValue.ofJson? := by
  obtain ⟨members, entries, rfl, hread, rfl⟩ := exists_of_ofJson? h
  rw [find?_ofList]
  exact ReadAs.find?_eq (List.forall₂_reverse_iff.2 hread) key

/-- A map that was read has the names of its document. -/
theorem mem_keys_of_ofJson? (h : ofJson? j = some p) : key ∈ p.keys ↔ key ∈ j.names := by
  obtain ⟨members, entries, rfl, hread, rfl⟩ := exists_of_ofJson? h
  rw [mem_keys_ofList, hread.keys_eq]
  rfl

/-- Which key a look-up comes to depends on which keys are there only. -/
theorem meets_congr {keys keys' : List String} (h : ∀ k, k ∈ keys ↔ k ∈ keys') {name : String} :
    Meets keys key name ↔ Meets keys' key name := by
  constructor
  · rintro ⟨hmem, hsame, hexact, hleast⟩
    exact ⟨(h _).1 hmem, hsame, fun hkey => hexact ((h _).2 hkey),
      fun hkey other hother => hleast (fun hkey' => hkey ((h _).1 hkey')) other ((h _).2 hother)⟩
  · rintro ⟨hmem, hsame, hexact, hleast⟩
    exact ⟨(h _).2 hmem, hsame, fun hkey => hexact ((h _).1 hkey),
      fun hkey other hother => hleast (fun hkey' => hkey ((h _).2 hkey')) other ((h _).1 hother)⟩

/-- **Reading maps.** What is looked up in a map that was read is what its document has under the
name that the look-up comes to. -/
theorem lookup_of_ofJson? (h : ofJson? j = some p) : p.lookup key = some value ↔
    ∃ name, Meets j.names key name ∧
      (j.get? name).bind PropertyValue.ofJson? = some value := by
  simp only [lookup_eq_some_iff, find?_of_ofJson? h, meets_congr fun _ => mem_keys_of_ofJson? h]

end Properties

/-! ## References -/

namespace ServiceReference

/-- The property `service.id` of a reference is the identity of the reference, as a signed
integer. -/
def CarriesIdentity (r : ServiceReference) : Prop :=
  r.property serviceIdKey = some (.long r.id.toInt64)

instance (r : ServiceReference) : Decidable r.CarriesIdentity := inferInstanceAs (Decidable (_ = _))

/-- A reference that is made has its identity put among its properties, in place of what was
there. -/
theorem carriesIdentity_new (id : UInt64) (properties : Properties) :
    (new id properties).CarriesIdentity := Properties.lookup_insert_self ..

/-- A document of a reference states the identity among the properties: the look-up of `service.id`
comes to a member that is the identity, as a signed integer. -/
def States (j : Json) : Prop :=
  ∃ id properties n name, j.fields? .json ["id", "properties"] = some [some id, some properties] ∧
    id.id? = some n ∧ Properties.Meets properties.names serviceIdKey name ∧
    properties.get? name = some (.ofLong n.toInt64)

theorem exists_of_ofJson? {j : Json} {r : ServiceReference} (h : ofJson? j = some r) :
    ∃ id properties, j.fields? .json ["id", "properties"] = some [some id, some properties] ∧
      id.id? = some r.id ∧ Properties.ofJson? properties = some r.properties := by
  obtain ⟨fields, hfields, h⟩ := Option.bind_eq_some_iff.1 h
  split at h
  · next id properties =>
    obtain ⟨n, hn, h⟩ := Option.bind_eq_some_iff.1 h
    obtain ⟨map, hmap, h⟩ := Option.bind_eq_some_iff.1 h
    obtain rfl := Option.some.inj h
    exact ⟨id, properties, hfields, hn, hmap⟩
  · cases h

/-- **Reading references.** A reference that was read carries its identity just if its document
states it. -/
theorem carriesIdentity_iff_states {j : Json} {r : ServiceReference} (h : ofJson? j = some r) :
    r.CarriesIdentity ↔ States j := by
  obtain ⟨id, properties, hfields, hid, hproperties⟩ := exists_of_ofJson? h
  rw [CarriesIdentity, property, Properties.lookup_of_ofJson? hproperties]
  simp only [Option.bind_eq_some_iff, PropertyValue.ofJson?_eq_long_iff, exists_eq_right]
  constructor
  · rintro ⟨name, hmeets, hvalue⟩
    exact ⟨id, properties, r.id, name, hfields, hid, hmeets, hvalue⟩
  · rintro ⟨id', properties', n, name, hfields', hid', hmeets, hvalue⟩
    rw [hfields'] at hfields
    cases hfields
    rw [hid'] at hid
    cases hid
    exact ⟨name, hmeets, hvalue⟩

end ServiceReference

/-! ## Events -/

namespace ServiceEvent

/-- A document of an event states the identity of the service: the document of its reference
does. -/
def States (j : Json) : Prop :=
  ∃ kind reference, j.fields? .json ["kind", "reference"] = some [some kind, some reference] ∧
    ServiceReference.States reference

theorem exists_of_ofJson? {j : Json} {e : ServiceEvent} (h : ofJson? j = some e) :
    ∃ kind reference, j.fields? .json ["kind", "reference"] = some [some kind, some reference] ∧
      ServiceReference.ofJson? reference = some e.reference := by
  obtain ⟨fields, hfields, h⟩ := Option.bind_eq_some_iff.1 h
  split at h
  · next kind reference =>
    obtain ⟨k, -, h⟩ := Option.bind_eq_some_iff.1 h
    obtain ⟨r, hr, h⟩ := Option.bind_eq_some_iff.1 h
    obtain rfl := Option.some.inj h
    exact ⟨kind, reference, hfields, hr⟩
  · cases h

/-- **Reading events.** The service of an event that was read carries its identity just if the
document of the event states it. -/
theorem carriesIdentity_iff_states {j : Json} {e : ServiceEvent} (h : ofJson? j = some e) :
    e.reference.CarriesIdentity ↔ States j := by
  obtain ⟨kind, reference, hfields, hreference⟩ := exists_of_ofJson? h
  rw [ServiceReference.carriesIdentity_iff_states hreference]
  constructor
  · exact fun hstates => ⟨kind, reference, hfields, hstates⟩
  · rintro ⟨kind', reference', hfields', hstates⟩
    rw [hfields'] at hfields
    cases hfields
    exact hstates

end ServiceEvent

end LiveServices

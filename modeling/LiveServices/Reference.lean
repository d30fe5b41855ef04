import LiveServices.Property

/-!
# Service references

A reference is the handle of one service: its identity and its properties. Two references are
interchangeable when they have the same identity, whatever their properties; `==` is that
relation, while `=` compares all fields.

A reference made by `ServiceReference.new` carries its identity as the property `service.id`; one
that was read from a document carries what the document says.
-/

namespace LiveServices

/-- The handle of one service. -/
structure ServiceReference where
  id : UInt64
  properties : Properties

namespace ServiceReference

/-- The key that holds the identity of a service. -/
def serviceIdKey : String := "service.id"

/-- The key that holds the rank of a service. -/
def rankingKey : String := "service.ranking"

/-- The key that holds the interfaces of a service. -/
def objectClassKey : String := "objectClass"

instance : BEq ServiceReference := ⟨fun a b => a.id == b.id⟩

/-- References of one service are interchangeable. -/
theorem beq_iff {a b : ServiceReference} : (a == b) = true ↔ a.id = b.id := by
  show (a.id == b.id) = true ↔ _
  simp

/-- The reference of a service with these properties. Its identity becomes a property too, written
as a signed integer of the same 64 bits. -/
def new (id : UInt64) (properties : Properties) : ServiceReference :=
  ⟨id, properties.insert serviceIdKey (.long id.toInt64)⟩

/-- The value of a property. -/
def property (r : ServiceReference) (key : String) : Option PropertyValue :=
  r.properties.lookup key

/-- The rank of a service; zero without an integer rank. -/
def ranking (r : ServiceReference) : Int64 :=
  ((r.property rankingKey).bind PropertyValue.long?).getD 0

/-- Higher ranks first, and of equal ranks the older service first. -/
def naturalOrder (a b : ServiceReference) : Ordering :=
  (compare b.ranking a.ranking).then (compare a.id b.id)

/-- The order by one property; a service that lacks it comes after one that has it. -/
def orderBy (key : String) (a b : ServiceReference) : Ordering :=
  match a.property key, b.property key with
  | some x, some y => x.order y
  | some _, none => .lt
  | none, some _ => .gt
  | none, none => .eq

/-- The text of a reference, as messages show it. -/
def display (r : ServiceReference) : String :=
  "ServiceReference[id=" ++ Text.ofId r.id ++
    (match r.property objectClassKey with
      | some classes => ", " ++ objectClassKey ++ "=" ++ classes.display
      | none => "") ++ "]"

/-- The inspection text of a reference. -/
def inspect (r : ServiceReference) : String :=
  Text.record "ServiceReference" [("id", Text.ofId r.id), ("properties", r.properties.inspect)]

@[simp] theorem id_new (id : UInt64) (p : Properties) : (new id p).id = id := rfl

end ServiceReference

end LiveServices

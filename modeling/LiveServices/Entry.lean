import LiveServices.Failure
import LiveServices.Reference

/-!
# Entries

An entry is what a collection hands out for a service. Collections are generic in their entries:
all that they ask of one is equality, by which an entry is found again for removal, the
reference it stands for, and its texts.

Some entries are valid only until they are released. Such an entry has a serial number, and it
is valid as long as that number was not released. The number 0 is never released: an entry made
by hand has it.
-/

namespace LiveServices

/-- What collections ask of their entries. -/
class ServiceEntry (E : Type) extends BEq E where
  /-- The service that the entry stands for. -/
  reference : E → ServiceReference
  /-- The serial number of an entry that ends with its release. -/
  serial? : E → Option Nat
  /-- The inspection text of an entry, given whether it is still valid. -/
  inspect : Bool → E → String

/-- An entry as an answer shows it: its service, and whether it is valid if it can end. -/
structure EntryView where
  id : UInt64
  valid? : Option Bool
  deriving DecidableEq

namespace ServiceEntry

variable {E : Type} [ServiceEntry E]

/-- Whether an entry is valid after these releases. -/
def isValid (released : List Nat) (e : E) : Bool :=
  match serial? e with
  | some n => !released.contains n
  | none => true

/-- The view of an entry after these releases. -/
def view (released : List Nat) (e : E) : EntryView :=
  ⟨(reference e).id, (serial? e).map fun n => !released.contains n⟩

/-- The inspection text of an entry after these releases. -/
def text (released : List Nat) (e : E) : String := inspect (isValid released e) e

/-- What an entry answers to a call: its service, or that the service is gone. -/
def invoke (released : List Nat) (e : E) : Except Failure ServiceReference :=
  if isValid released e then .ok (reference e)
  else .error (.serviceUnavailable ("(service.id=" ++ Text.ofId (reference e).id ++ ")"))

end ServiceEntry

/-- The entries that the factories of this library make. -/
inductive Entry where
  /-- The reference itself. -/
  | reference (service : ServiceReference)
  /-- A proxy, valid until it is released. -/
  | proxy (serial : Nat) (service : ServiceReference)
  /-- An entry of a scripted factory. A ghost equals nothing, not even itself. -/
  | scripted (service : ServiceReference) (isGhost : Bool)

namespace Entry

/-- The service that an entry stands for. -/
def service : Entry → ServiceReference
  | reference r => r
  | proxy _ r => r
  | scripted r _ => r

/-- Whether an entry equals nothing. -/
def isGhost : Entry → Bool
  | scripted _ ghost => ghost
  | _ => false

/-- The serial number of a proxy. -/
def serial? : Entry → Option Nat
  | proxy n _ => some n
  | _ => none

/-- The inspection text of an entry, given whether it is valid. -/
def inspect (valid : Bool) : Entry → String
  | reference r => r.inspect
  | proxy _ r =>
    Text.record "ServiceProxy" [("service_id", Text.ofId r.id),
      ("valid", if valid then "true" else "false")]
  | scripted r _ => "Scripted#" ++ Text.ofId r.id

/-- Entries are interchangeable when they stand for one service and neither is a ghost. -/
instance : ServiceEntry Entry where
  beq a b := !a.isGhost && !b.isGhost && a.service == b.service
  reference := service
  serial? := serial?
  inspect := inspect

/-- Entries are equal if they stand for one service; a ghost equals nothing. -/
theorem beq_iff {a b : Entry} :
    (a == b) = true ↔ a.isGhost = false ∧ b.isGhost = false ∧ a.service.id = b.service.id := by
  show (!a.isGhost && !b.isGhost && a.service == b.service) = true ↔ _
  simp [ServiceReference.beq_iff, and_assoc]

end Entry

end LiveServices

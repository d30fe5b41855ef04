import LiveServices.Reference

/-!
# Service events

A registry tells its listeners about services by events of four kinds. An importer understands
three of them as notifications: a service appeared, was updated, or disappeared. An event that a
service's properties ceased to match is none of these.
-/

namespace LiveServices

/-- What happened to a service. -/
inductive EventKind where
  | registered
  | modified
  | modifiedEndmatch
  | unregistering
  deriving DecidableEq

namespace EventKind

/-- The kind as messages show it. -/
def display : EventKind → String
  | registered => "REGISTERED"
  | modified => "MODIFIED"
  | modifiedEndmatch => "MODIFIED_ENDMATCH"
  | unregistering => "UNREGISTERING"

/-- The kind as documents name it. -/
def name : EventKind → String
  | registered => "registered"
  | modified => "modified"
  | modifiedEndmatch => "modifiedEndmatch"
  | unregistering => "unregistering"

/-- All kinds. -/
def all : List EventKind := [registered, modified, modifiedEndmatch, unregistering]

/-- The kind that documents give this name. -/
def ofName? (s : String) : Option EventKind := all.find? fun k => k.name == s

end EventKind

/-- A service event: its kind and the service that it is about. -/
structure ServiceEvent where
  kind : EventKind
  reference : ServiceReference

namespace ServiceEvent

/-- The event that a service was registered. -/
def registered (reference : ServiceReference) : ServiceEvent := ⟨.registered, reference⟩

/-- The event that the properties of a service were replaced. -/
def modified (reference : ServiceReference) : ServiceEvent := ⟨.modified, reference⟩

/-- The event that a service is being taken away. -/
def unregistering (reference : ServiceReference) : ServiceEvent := ⟨.unregistering, reference⟩

/-- Events are interchangeable when kind and identity agree. -/
instance : BEq ServiceEvent := ⟨fun a b => a.kind == b.kind && a.reference == b.reference⟩

/-- The text of an event, as messages show it. -/
def display (e : ServiceEvent) : String :=
  "ServiceEvent[" ++ e.kind.display ++ " " ++ e.reference.display ++ "]"

end ServiceEvent

/-- What an importer understands from an event. -/
inductive Notification where
  | appeared
  | updated
  | disappeared
  deriving DecidableEq

namespace Notification

/-- The notification of an event kind, if importers understand it. -/
def ofKind? : EventKind → Option Notification
  | .registered => some appeared
  | .modified => some updated
  | .unregistering => some disappeared
  | .modifiedEndmatch => none

/-- The text of a notification. -/
def display : Notification → String
  | appeared => "appeared"
  | updated => "updated"
  | disappeared => "disappeared"

/-- The notification with this text. -/
def ofName? (s : String) : Option Notification :=
  [appeared, updated, disappeared].find? fun n => n.display == s

end Notification

end LiveServices

import LiveServices.Hub.Reconcile

/-!
# Delivering events

A change of the registry is delivered as an event to every subscription whose filter accepts it,
in the order of the subscriptions. Who is told is decided before the first one is told. A
subscription is told at once of the services that are there already.

A listener of its own may panic. Its panic ends the delivery, and with it the operation.
-/

namespace LiveServices

/-- A computation that may end before its result. -/
abbrev Act (E : Type) (α : Type) := ExceptT Trouble (Run E) α

namespace Run

variable {E : Type} [ServiceEntry E] (nested : Nested E)

/-- Tell the target of a subscription of an event. -/
def tell (target : Target E) (event : ServiceEvent) : Act E Unit :=
  match target with
  | .importer c => serviceChanged nested c event
  | .observer l => do
    match ← call nested l (.event event) with
    | .panic message => throw (.panicked message)
    | .done | .fail _ => pure ()

/-- Deliver an event to a subscription. -/
def deliver (s : Subscription E) (event : ServiceEvent) : Act E Unit := do
  modify fun h => { h with registry.delivered := h.registry.delivered + 1 }
  record (E := E) (.delivered s.id event)
  tell nested s.target event

/-- Deliver an event to each subscription whose filter passes a test. -/
def deliverAll (event : ServiceEvent) (wants : ServiceFilter → Bool) : Act E Unit := do
  ((← get).registry.subscriptions.filter fun s => wants s.filter).forM fun s =>
    deliver nested s event

/-- Register a service. -/
def register (properties : Properties) : Act E ServiceReference := do
  let service ← (onRegistry fun registry => registry.add properties : Run E ServiceReference)
  deliverAll nested (.registered service) fun filter => filter.accepts service.properties
  pure service

/-- Replace the properties of a service. A filter that accepted only the old ones is told that the
service ceased to match. -/
def setProperties (id : UInt64) (properties : Properties) : Act E ServiceReference := do
  match (← get).registry.get? id with
  | none => throw (.failed (Registry.unknownService id))
  | some old =>
    let service := ServiceReference.new id properties
    modify fun h => { h with registry := h.registry.put service }
    deliverAll nested (.modified service) fun filter => filter.accepts service.properties
    deliverAll nested ⟨.modifiedEndmatch, service⟩ fun filter =>
      !filter.accepts service.properties && filter.accepts old.properties
    pure service

/-- Take a service away. -/
def unregister (id : UInt64) : Act E Unit := do
  match (← get).registry.get? id with
  | none => throw (.failed (Registry.unknownService id))
  | some service =>
    modify fun h => { h with registry := h.registry.remove id }
    deliverAll nested (.unregistering service) fun filter => filter.accepts service.properties

/-- Subscribe to the services that a filter accepts. Those that are there are reported at once. -/
def subscribe (filter : ServiceFilter) (target : Target E) : Act E UInt64 := do
  let s ← (onRegistry fun registry => registry.subscribe filter target : Run E (Subscription E))
  ((← get).registry.references filter).forM fun service => deliver nested s (.registered service)
  pure s.id

/-- End a subscription; says whether there was one. -/
def unsubscribe (id : UInt64) : Run E Bool := onRegistry fun registry => registry.unsubscribe id

end Run

end LiveServices

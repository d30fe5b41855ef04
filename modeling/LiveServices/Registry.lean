import LiveServices.Collection
import LiveServices.Filter.Match

/-!
# Registries

A registry knows the services that are there and who is subscribed to news of them. Services are
numbered from 1 and subscriptions from 0, in the order in which they came; no number is used
again.
-/

namespace LiveServices

/-- Who is told of an event. -/
inductive Target (E : Type) where
  /-- The importer of a collection. -/
  | importer (collection : Nat)
  /-- A listener of its own. -/
  | observer (listener : Attached E)

/-- A subscription to the events of the services that a filter accepts. -/
structure Subscription (E : Type) where
  id : UInt64
  filter : ServiceFilter
  target : Target E

/-- The text of the number of a subscription. -/
def Subscription.displayId (id : UInt64) : String := "listener-" ++ Text.ofId id

/-- A registry of services. -/
structure Registry (E : Type) where
  services : List ServiceReference := []
  subscriptions : List (Subscription E) := []
  nextService : UInt64 := 1
  nextSubscription : UInt64 := 0
  /-- The number of events that were delivered. -/
  delivered : Nat := 0

namespace Registry

variable {E : Type}

/-- The service with this identity. -/
def get? (r : Registry E) (id : UInt64) : Option ServiceReference :=
  Roster.find? ServiceReference.id id r.services

/-- The services that a filter accepts. -/
def references (r : Registry E) (filter : ServiceFilter) : List ServiceReference :=
  r.services.filter fun s => filter.accepts s.properties

/-- The registry with a service as its reference says. -/
def put (r : Registry E) (s : ServiceReference) : Registry E :=
  { r with services := Roster.insert ServiceReference.id s r.services }

/-- The registry with a new service. -/
def add (r : Registry E) (properties : Properties) : ServiceReference × Registry E :=
  let service := ServiceReference.new r.nextService properties
  (service, { r.put service with nextService := r.nextService + 1 })

/-- The registry without a service. -/
def remove (r : Registry E) (id : UInt64) : Registry E :=
  { r with services := Roster.erase ServiceReference.id id r.services }

/-- The registry with a new subscription. -/
def subscribe (r : Registry E) (filter : ServiceFilter) (target : Target E) :
    Subscription E × Registry E :=
  let s : Subscription E := ⟨r.nextSubscription, filter, target⟩
  (s, { r with
    subscriptions := Roster.insert Subscription.id s r.subscriptions
    nextSubscription := r.nextSubscription + 1 })

/-- The registry without a subscription, and whether there was one. -/
def unsubscribe (r : Registry E) (id : UInt64) : Bool × Registry E :=
  ((Roster.find? Subscription.id id r.subscriptions).isSome,
    { r with subscriptions := Roster.erase Subscription.id id r.subscriptions })

/-- The failure to find a service. -/
def unknownService (id : UInt64) : Failure := .notFound ("service " ++ Text.ofId id)

end Registry

end LiveServices

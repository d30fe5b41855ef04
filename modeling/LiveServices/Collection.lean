import LiveServices.Factory
import LiveServices.ImporterConfig
import LiveServices.Roster
import LiveServices.Sequence.Live

/-!
# Service collections

A collection holds an entry for each service that it admitted. Its index says which services these
are and keeps what is needed to let them go; its storage is the sequence of their entries, in the
order that its mode keeps. Readers see the storage only.

A plan says how a collection is to be built, and `Plan.build` says what a plan must not lack.
-/

namespace LiveServices

/-- A listener that was attached: its number, and the collection that it watches. -/
structure Attached (E : Type) where
  key : Nat
  home : Nat
  listener : Listener E

/-- What a collection keeps for a service that it admitted: the number of the attempt that made
the entry, the entry, the reference it was made for, and its release action. -/
structure Holding (E : Type) where
  serial : Nat
  entry : E
  reference : ServiceReference
  release : Option (Release E)

/-- The identity of the service of a holding. -/
def Holding.id (h : Holding E) : UInt64 := h.reference.id

/-- The locks of a collection. Whoever has one and takes it again waits for ever. -/
inductive Lock where
  | subscription
  | index
  | storage
  | lifecycleListeners
  | stateListeners
  deriving DecidableEq

/-- A collection of entries for the services that match a filter. -/
structure Collection (E : Type) where
  dependency : Dependency
  mode : Mode E
  factory : Factory E
  /-- The services that are in the collection. -/
  index : List (Holding E) := []
  storage : LiveSequence E := .empty
  /-- A closed collection admits no service. -/
  closed : Bool := false
  /-- The subscription to the registry. -/
  subscription : Option UInt64 := none
  lifecycleListeners : List (Attached E) := []
  stateListeners : List (Attached E) := []
  /-- The locks that are taken. -/
  locks : List Lock := []
  /-- A dropped collection answers no question. -/
  dropped : Bool := false
  /-- The number of commands that are at work on the collection. -/
  users : Nat := 0

namespace Collection

variable {E : Type}

/-- What stands for a collection that is not there. -/
def absent : Collection E where
  dependency := ⟨"", ⟨"", .or []⟩, false⟩
  mode := .list
  factory := ⟨"", fun _ _ => .failed (.illegalState "no collection")⟩
  closed := true
  dropped := true

/-- The identities of the services in the collection, in rising order. -/
def identities (k : Collection E) : List UInt64 := k.index.map Holding.id

/-- The services in the collection with the serial numbers of their entries. -/
def census (k : Collection E) : List (Nat × UInt64) := k.index.map fun h => (h.serial, h.id)

/-- Whether a service is in the collection. -/
def hasIdentity (k : Collection E) (id : UInt64) : Bool := k.identities.contains id

/-- The number of entries. -/
def size (k : Collection E) : Nat := k.storage.items.length

/-- Whether the collection has what it needs. -/
def isSatisfied (k : Collection E) : Bool := k.dependency.isSatisfied k.size

/-- The failure of reading the collection while it lacks what it needs. -/
def check (k : Collection E) : Except Failure Unit := k.dependency.check k.size

/-- An answer that is given only if the collection has what it needs. -/
def checked (k : Collection E) (answer : Answer) : Answer :=
  match k.check with
  | .ok () => answer
  | .error f => .failed f

/-! ## Answers -/

variable [ServiceEntry E]

/-- The inspection text of the entries, after these releases. -/
def describe (released : List Nat) (k : Collection E) : String :=
  Text.bracketed (k.storage.items.map (ServiceEntry.text released))

/-- The inspection text of the collection. -/
def inspect (k : Collection E) : String :=
  Text.record "ServiceCollection" [("dependency", k.dependency.inspect),
    ("mode", k.mode.inspect), ("size", toString k.size)]

/-- The answer to a question, after these releases. -/
def answer (released : List Nat) (k : Collection E) : Question E → Answer
  | .isInitialized => .truth k.subscription.isSome
  | .isDestroyed | .isClosed => .truth k.closed
  | .isSatisfied => .truth k.isSatisfied
  | .mandatoryCheck => k.checked .done
  | .dependency => .dependency k.dependency
  | .len => k.checked (.count k.size)
  | .isEmpty => k.checked (.truth k.storage.items.isEmpty)
  | .contains entry => k.checked (.truth (k.storage.contains entry))
  | .containsAll entries => k.checked (.truth (k.storage.containsAll entries))
  | .get index =>
    k.checked (.entry (k.storage.items[index]?.map (ServiceEntry.view released)))
  | .toVec => k.checked (.entries (k.storage.items.map (ServiceEntry.view released)))
  | .toVecInto buffer =>
    match k.check with
    | .ok () =>
      let (count, copies) := k.storage.copyInto buffer
      .copied (.ok count) (copies.map (ServiceEntry.view released))
    | .error f => .copied (.error f) (buffer.map (ServiceEntry.view released))
  | .properties =>
    k.checked (.properties (k.storage.items.map fun e => (ServiceEntry.reference e).properties))
  | .describe => k.checked (.inspection (k.describe released))
  | .debug => .inspection k.inspect
  | .serviceIds | .identities => .ids k.identities
  | .write w => .failed (.unsupportedOperation w.operation)
  | .listenerCounts => .listeners k.lifecycleListeners.length k.stateListeners.length
  | .containsIdentity id => .truth (k.hasIdentity id)
  | .listenerName => .text k.dependency.beanName

end Collection

/-- The locks that a question takes and gives back, one after the other. -/
def Question.locks : Question E → List Lock
  | isInitialized => [.subscription]
  | isDestroyed | isClosed | serviceIds | identities | containsIdentity _ => [.index]
  | dependency | write _ | listenerName => []
  | listenerCounts => [.lifecycleListeners, .stateListeners]
  | _ => [.storage]

/-! ## Plans -/

/-- How a collection is to be built. -/
structure Plan (E : Type) where
  /-- Whether there is a registry to watch. -/
  hasRegistry : Bool := false
  factory : Option (Factory E) := none
  filter : Option ServiceFilter := none
  beanName : String := "serviceCollection"
  mandatory : Bool := true
  mode : Mode E := .list
  lifecycleListeners : List (Listener E) := []
  stateListeners : List (Listener E) := []

namespace Plan

variable {E : Type}

/-- The plan that an importer configuration makes; its filter has to be in the grammar. -/
def ofConfig [ServiceEntry E] (config : ImporterConfig) (factory : Factory E) :
    Except Failure (Plan E) := do
  config.validate
  let order := match config.sortBy with
    | some key => ServiceReference.orderBy key
    | none => ServiceReference.naturalOrder
  pure {
    hasRegistry := true
    factory := some factory
    filter := some (← config.parsedFilter)
    beanName := config.beanName
    mandatory := config.mandatory
    mode := .ofKind config.collection fun a b =>
      order (ServiceEntry.reference a) (ServiceEntry.reference b) }

/-- Listeners with their numbers. -/
def attach (home key : Nat) (listeners : List (Listener E)) : List (Attached E) :=
  listeners.mapIdx fun i l => ⟨key + i, home, l⟩

/-- The number of listeners that a plan attaches. -/
def listenerCount (p : Plan E) : Nat := p.lifecycleListeners.length + p.stateListeners.length

/-- The collection of a plan, with its own number and the first number for its listeners. -/
def build (p : Plan E) (number key : Nat) : Except Failure (Collection E) :=
  if !p.hasRegistry then .error (.config "service registry is required")
  else match p.factory, p.filter with
    | none, _ => .error (.config "entry factory is required")
    | some _, none => .error (.config "service filter is required")
    | some factory, some filter =>
      .ok {
        dependency := ⟨p.beanName, filter, p.mandatory⟩
        mode := p.mode
        factory := factory
        lifecycleListeners := attach number key p.lifecycleListeners
        stateListeners := attach number (key + p.lifecycleListeners.length) p.stateListeners }

end Plan

end LiveServices

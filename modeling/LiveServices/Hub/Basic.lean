import LiveServices.Registry

/-!
# Hubs

A hub is a registry with the collections that watch it, the iterators and entries that were
handed out, and a trace of everything that happened. All effects of the library are changes of a
hub: a `Run` reads and changes one, and may halt.

A run halts for two reasons only, a lock that it waits for while it holds it, and commands
nested deeper than allowed. Failures and panics are no halts; they are values, which is what
lets a caller go on after them with the hub as it then is.

The moments of a trace carry what could be seen when they came: a callback or a release falls
into the middle of an operation, and the state of that time is gone when the operation has
returned. For the same reason a hub keeps every state in which a collection was: all changes of
a collection go through `Hub.update`, which puts the state before the change into `Hub.past`.
-/

namespace LiveServices

/-- A listener as the trace names it: its number, the collection that it watches, and its name. -/
structure ListenerTag where
  key : Nat
  home : Nat
  name : String
  reporting : Reporting
  deriving DecidableEq

/-- The tag of a listener. -/
def Attached.tag (a : Attached E) : ListenerTag :=
  ⟨a.key, a.home, a.listener.name, a.listener.reporting⟩

/-- The services that are in each collection, with the serial numbers of their entries. -/
abbrev Census := List (List (Nat × UInt64))

/-- What a listener could see when it was called: the locks taken in its collection, the
services in all collections, the answer of its collection to a question for the size, and the
entry that it is told of. A collection that is not there answers nothing. -/
structure Glimpse where
  locks : List Lock
  census : Census
  size : Option (Except Failure Nat)
  entry : Option EntryView

/-- What is called under guard, so that its failure or panic goes no further. -/
inductive Guarded where
  | bind
  | unbind
  | satisfied
  | unsatisfied
  | release
  deriving DecidableEq

/-- The name of a guarded call in messages. -/
def Guarded.name : Guarded → String
  | bind => "bind"
  | unbind => "unbind"
  | satisfied => "importer_satisfied"
  | unsatisfied => "importer_unsatisfied"
  | release => "release"

/-- Something that happened in a run. -/
inductive Moment (E : Type) where
  /-- An event was delivered to a subscription. -/
  | delivered (subscription : UInt64) (event : ServiceEvent)
  /-- A factory was called. -/
  | attempted (collection serial : Nat) (service : UInt64)
  /-- A factory made an entry. -/
  | created (collection serial : Nat) (service : UInt64) (hasRelease : Bool)
  /-- A listener was called. -/
  | called (listener : ListenerTag) (callback : Callback E) (glimpse : Glimpse)
  /-- A listener gave a command, and this was the answer. -/
  | commanded (listener : ListenerTag) (command : String) (answer : Answer)
  /-- The release action of an entry began. -/
  | releasing (collection serial : Nat) (service : UInt64) (census : Census) (announced : Bool)
  /-- A guarded call failed. -/
  | guardedFailure (what : Guarded) (name : String) (service : UInt64) (error : String)
  /-- A guarded call panicked. -/
  | guardedPanic (what : Guarded) (name : String) (service : UInt64) (message : Option String)
  /-- An entry that was taken away could not be released. -/
  | unreleased (service : UInt64) (entry : String)
  /-- An importer could not process an event. -/
  | eventFailure (error : String)
  /-- An importer panicked on an event. -/
  | eventPanic
  /-- A command came to its end, whoever gave it. -/
  | ended (census : Census)

/-- An iterator over a collection. -/
structure Traversal where
  collection : Nat
  cursor : Nat

/-- A registry, its collections, what was handed out, and what happened. -/
structure Hub (E : Type) where
  registry : Registry E := {}
  collections : List (Collection E) := []
  /-- The iterators by name. -/
  traversals : List (String × Traversal) := []
  /-- The entries that are kept by name. -/
  kept : List (String × E) := []
  /-- The number of attempts to make an entry. -/
  attempts : Nat := 0
  /-- The serial numbers of the entries that were released. -/
  released : List Nat := []
  /-- The number of listeners that were attached. -/
  listeners : Nat := 0
  /-- What happened, the latest first. -/
  trace : List (Moment E) := []
  /-- The states in which collections were before they changed, with their numbers, the latest
  first. -/
  past : List (Nat × Collection E) := []

namespace Hub

variable {E : Type}

/-- The collection of a number. -/
def collection (h : Hub E) (c : Nat) : Collection E := h.collections[c]?.getD .absent

/-- The services that are in each collection now. -/
def census (h : Hub E) : Census := h.collections.map Collection.census

/-- The hub with a collection changed. -/
def update (h : Hub E) (c : Nat) (f : Collection E → Collection E) : Hub E :=
  { h with collections := h.collections.modify c f, past := (c, h.collection c) :: h.past }

/-- The hub with another moment in its trace. -/
def record (h : Hub E) (m : Moment E) : Hub E := { h with trace := m :: h.trace }

/-- What these listeners were told, the latest first. -/
def told (h : Hub E) (who : ListenerTag → Bool) : List (Callback E) :=
  h.trace.filterMap fun
    | .called tag callback _ => if who tag then some callback else none
    | _ => none

/-- What a listener was told, the latest first. -/
def history (h : Hub E) (tag : ListenerTag) : List (Callback E) := h.told (· == tag)

/-- The hub with one more collection, and the reason if it could not be built. -/
def addCollection (h : Hub E) (plan : Plan E) : Option Failure × Hub E :=
  match plan.build h.collections.length h.listeners with
  | .ok k =>
    (none, { h with
      collections := h.collections ++ [k]
      listeners := h.listeners + plan.listenerCount })
  | .error f => (some f, { h with collections := h.collections ++ [.absent] })

/-- The hub in which nothing happened yet, with the collections of these plans. -/
def ofPlans (plans : List (Plan E)) : Hub E :=
  plans.foldl (fun h plan => (h.addCollection plan).2) {}

end Hub

/-- Why a run halts. -/
inductive Halt where
  /-- It waits for a lock that it holds itself. -/
  | deadlock (lock : Lock)
  /-- Its commands are nested too deeply. -/
  | tooDeep
  deriving DecidableEq

/-- A computation on a hub. -/
abbrev Run (E : Type) (α : Type) := StateT (Hub E) (Except Halt) α

/-- How an operation ends that does not reach its result. -/
inductive Trouble where
  | failed (failure : Failure)
  /-- A panic, with its message if it has one. -/
  | panicked (message : Option String)
  deriving DecidableEq

namespace Run

variable {E α : Type}

/-- A collection as it is now. -/
def collection (c : Nat) : Run E (Collection E) := do pure ((← get).collection c)

/-- Change a collection. -/
def update (c : Nat) (f : Collection E → Collection E) : Run E Unit := modify (·.update c f)

/-- Add a moment to the trace. -/
def record (m : Moment E) : Run E Unit := modify (·.record m)

/-- Take a lock. -/
def acquire (c : Nat) (lock : Lock) : Run E Unit := do
  if (← collection c).locks.contains lock then throw (.deadlock lock)
  update c fun k => { k with locks := lock :: k.locks }

/-- Give a lock back. -/
def giveBack (c : Nat) (lock : Lock) : Run E Unit :=
  update c fun k => { k with locks := k.locks.erase lock }

/-- A computation under a lock. -/
def locked (c : Nat) (lock : Lock) (body : Run E α) : Run E α := do
  acquire c lock
  let a ← body
  giveBack c lock
  pure a

/-- The number of the next attempt to make an entry. Attempts are numbered from 1. -/
def nextAttempt : Run E Nat :=
  modifyGet fun h => (h.attempts + 1, { h with attempts := h.attempts + 1 })

/-- Change the registry and return what came of it. -/
def onRegistry (f : Registry E → α × Registry E) : Run E α :=
  modifyGet fun h => ((f h.registry).1, { h with registry := (f h.registry).2 })

/-- A listener with its number. -/
def attach (home : Nat) (l : Listener E) : Run E (Attached E) :=
  modifyGet fun h => (⟨h.listeners, home, l⟩, { h with listeners := h.listeners + 1 })

/-- Attach a listener to a collection that is told of every entry. -/
def addLifecycleListener (c : Nat) (listener : Listener E) : Run E Unit := do
  let l ← attach c listener
  locked c .lifecycleListeners do
    update c fun k => { k with lifecycleListeners := k.lifecycleListeners ++ [l] }

/-- Attach a listener to a collection that is told whether its dependency is met. -/
def addStateListener (c : Nat) (listener : Listener E) : Run E Unit := do
  let l ← attach c listener
  locked c .stateListeners do
    update c fun k => { k with stateListeners := k.stateListeners ++ [l] }

end Run

end LiveServices

import LiveServices.Dependency
import LiveServices.Entry
import LiveServices.Event

/-!
# Commands and listeners

A running system is driven by commands. A listener is told of things by callbacks, and it may
answer a callback with commands of its own before it finishes, so commands and listeners are
defined together.

A listener is a function of everything that it was told before and of what it is told now. So it
can count, change its mind, and depend on the whole run up to this moment; what it cannot do is
answer differently when the same run is repeated.
-/

namespace LiveServices

/-- What a listener is told. -/
inductive Callback (E : Type) where
  /-- An entry was added for a service. -/
  | bind (entry : E) (reference : ServiceReference)
  /-- The entry of a service was taken away. -/
  | unbind (entry : E) (reference : ServiceReference)
  /-- A mandatory dependency came to be met. -/
  | satisfied (dependency : Dependency)
  /-- A mandatory dependency ceased to be met. -/
  | unsatisfied (dependency : Dependency)
  /-- A registry reports an event. -/
  | event (event : ServiceEvent)

/-- The name of a callback. -/
def Callback.name : Callback E → String
  | bind _ _ => "bind"
  | unbind _ _ => "unbind"
  | satisfied _ => "satisfied"
  | unsatisfied _ => "unsatisfied"
  | event e => e.kind.name

/-- How a call ends. -/
inductive Finish where
  | done
  | fail (failure : Failure)
  /-- A panic, with its message if it has one. -/
  | panic (message : Option String)
  deriving DecidableEq

/-- How much of a listener's calls a log shows. -/
inductive Reporting where
  /-- Nothing. -/
  | silent
  /-- Each call. -/
  | calls
  /-- Each call, with the size of the listener's collection at that moment. -/
  | callsWithSize
  deriving DecidableEq

/-- A write of a read-only collection. -/
inductive Write where
  | add
  | addAll
  | remove
  | removeAll
  | retainAll
  | clear
  deriving DecidableEq

namespace Write

/-- The name of a write. -/
def name : Write → String
  | add => "add"
  | addAll => "addAll"
  | remove => "remove"
  | removeAll => "removeAll"
  | retainAll => "retainAll"
  | clear => "clear"

/-- The operation that a refused write names. -/
def operation : Write → String
  | add => "add"
  | addAll => "add_all"
  | remove => "remove"
  | removeAll => "remove_all"
  | retainAll => "retain_all"
  | clear => "clear"

end Write

/-- A question to a collection. It changes nothing. -/
inductive Question (E : Type) where
  | isInitialized
  | isDestroyed
  | isSatisfied
  | mandatoryCheck
  | dependency
  | len
  | isEmpty
  | contains (entry : E)
  | containsAll (entries : List E)
  | get (index : Nat)
  | toVec
  /-- Copy the entries into a buffer that holds these. -/
  | toVecInto (buffer : List E)
  | properties
  | describe
  | debug
  | serviceIds
  /-- A write, which is always refused. -/
  | write (write : Write)
  | listenerCounts
  | containsIdentity (id : UInt64)
  | identities
  | isClosed
  | listenerName

/-- The name of a question. -/
def Question.name : Question E → String
  | isInitialized => "isInitialized"
  | isDestroyed => "isDestroyed"
  | isSatisfied => "isSatisfied"
  | mandatoryCheck => "mandatoryCheck"
  | dependency => "dependency"
  | len => "len"
  | isEmpty => "isEmpty"
  | contains _ => "contains"
  | containsAll _ => "containsAll"
  | get _ => "get"
  | toVec => "toVec"
  | toVecInto _ => "toVecInto"
  | properties => "properties"
  | describe => "describe"
  | debug => "debug"
  | serviceIds => "serviceIds"
  | write w => w.name
  | listenerCounts => "listenerCounts"
  | containsIdentity _ => "containsIdentity"
  | identities => "identities"
  | isClosed => "isClosed"
  | listenerName => "listenerName"

/-- What came of a notification. -/
inductive Reconciled where
  | admitted
  | retracted
  | unchanged
  deriving DecidableEq

/-- The answer to a command. -/
inductive Answer where
  | done
  | truth (value : Bool)
  | count (value : Nat)
  | text (value : String)
  /-- A text for inspection. -/
  | inspection (value : String)
  | reference (value : Option ServiceReference)
  | ids (values : List UInt64)
  | entry (value : Option EntryView)
  | entries (values : List EntryView)
  | properties (values : List Properties)
  | outcome (value : Reconciled)
  /-- The number of entries copied, and the buffer afterwards. -/
  | copied (count : Except Failure Nat) (buffer : List EntryView)
  /-- The numbers of services and listeners of the registry, and of the events it delivered. -/
  | registry (services listeners delivered : Nat)
  | dependency (value : Dependency)
  /-- The numbers of lifecycle and state listeners. -/
  | listeners (lifecycle state : Nat)
  /-- Whether a proxy is valid, what it answers to a call, and its inspection text; absent for an
  entry that is no proxy. -/
  | probe (value : Option (Bool × Except Failure String × String))
  | failed (failure : Failure)
  /-- The command panicked, with this message if it has one. -/
  | panicked (message : Option String)
  /-- There is no such collection. -/
  | noCollection
  /-- There is no iterator of that name. -/
  | noIterator
  /-- There is no entry of that name. -/
  | noEntry
  /-- The command was none. -/
  | notUnderstood

mutual

/-- A command to a running system. Collections are named by their numbers, iterators and entries
that are kept by the names given to them. -/
inductive Command (E : Type) where
  | register (properties : Properties)
  | setProperties (id : UInt64) (properties : Properties)
  | unregister (id : UInt64)
  | getService (id : UInt64)
  | references (filter : String)
  | registry
  /-- Subscribe a listener to the registry; `home` is the collection that it watches. -/
  | addListener (home : Nat) (filter : String) (listener : Listener E)
  | removeListener (id : UInt64)
  /-- Subscribe a collection to the registry. -/
  | start (collection : Nat)
  | destroy (collection : Nat)
  | drop (collection : Nat)
  | ask (collection : Nat) (question : Question E)
  | addLifecycleListener (collection : Nat) (listener : Listener E)
  | addStateListener (collection : Nat) (listener : Listener E)
  | iter (collection : Nat) (name : String)
  | tryNext (name : String)
  | next (name : String)
  | hasNext (name : String)
  | drain (name : String)
  | iterRemove (name : String)
  | dropIter (name : String)
  | hold (collection : Nat) (index : Nat) (name : String)
  | probe (name : String)
  | reconcile (collection : Nat) (event : ServiceEvent)
  | apply (collection : Nat) (notification : Notification) (reference : ServiceReference)
  | serviceChanged (collection : Nat) (event : ServiceEvent)
  /-- A command that could not be read, with the answer to it. If it was meant for a collection then
  that has to be there. -/
  | unreadable (collection : Option Nat) (name : String) (answer : Answer)

/-- What a listener does when it is called: commands, and then how the call ends. -/
inductive Response (E : Type) where
  | mk (commands : List (Command E)) (finish : Finish)

/-- A listener: its name, what a log shows of its calls, and what it does in response to a
callback after those that came before, the latest of them first. -/
inductive Listener (E : Type) where
  | mk (name : String) (reporting : Reporting)
    (respond : List (Callback E) → Callback E → Response E)

end

namespace Response

/-- The commands of a response. -/
def commands : Response E → List (Command E)
  | mk commands _ => commands

/-- How the call ends. -/
def finish : Response E → Finish
  | mk _ finish => finish

/-- Nothing is done. -/
def silent : Response E := mk [] .done

end Response

instance : Inhabited (Command E) := ⟨.registry⟩

instance : Inhabited (Listener E) := ⟨.mk "" .silent fun _ _ => .silent⟩

namespace Listener

/-- The name of a listener. -/
def name : Listener E → String
  | mk name _ _ => name

/-- What a log shows of a listener's calls. -/
def reporting : Listener E → Reporting
  | mk _ reporting _ => reporting

/-- What a listener does in response to a callback. -/
def respond : Listener E → List (Callback E) → Callback E → Response E
  | mk _ _ respond => respond

/-- A listener that gives no commands. It may fail and panic. -/
def IsPassive (l : Listener E) : Prop := ∀ told callback, (l.respond told callback).commands = []

end Listener

/-- The name of a command. -/
def Command.name : Command E → String
  | register _ => "register"
  | setProperties _ _ => "setProperties"
  | unregister _ => "unregister"
  | getService _ => "getService"
  | references _ => "references"
  | registry => "registry"
  | addListener _ _ _ => "addListener"
  | removeListener _ => "removeListener"
  | start _ => "initialize"
  | destroy _ => "destroy"
  | drop _ => "drop"
  | ask _ question => question.name
  | addLifecycleListener _ _ => "addLifecycleListener"
  | addStateListener _ _ => "addStateListener"
  | iter _ _ => "iter"
  | tryNext _ => "tryNext"
  | next _ => "next"
  | hasNext _ => "hasNext"
  | drain _ => "drain"
  | iterRemove _ => "iterRemove"
  | dropIter _ => "dropIter"
  | hold _ _ _ => "hold"
  | probe _ => "probe"
  | reconcile _ _ => "reconcile"
  | apply _ _ _ => "apply"
  | serviceChanged _ _ => "serviceChanged"
  | unreadable _ name _ => name

end LiveServices

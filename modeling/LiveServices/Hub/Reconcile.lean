import LiveServices.Hub.Callbacks

/-!
# Reconciling a collection with events

The importer of a collection follows the events of the registry. Whether a service is admitted
or taken away is decided under the lock of the index, together with the change of the storage.
Listeners are called and entries are released after the lock was given back.

`apply` is idempotent in each direction: a service that is there is not admitted again, and one
that is not there is not taken away. `shutdown` closes the collection first, so that nothing is
admitted while the services are taken away one by one.
-/

namespace LiveServices

/-- What was decided about a service that appeared. -/
inductive Admission (E : Type) where
  /-- The collection is closed or has the service. -/
  | ignored
  /-- The storage refused the entry. -/
  | refused (serial : Nat) (release : Option (Release E))
  /-- The entry was added; `first` if the dependency is met by it. -/
  | admitted (entry : E) (first : Bool)

/-- What was taken away of a service that disappeared: its holding, whether the storage had the
entry, and whether the dependency is unmet now. -/
structure Removal (E : Type) where
  holding : Holding E
  wasStored : Bool
  isLast : Bool

namespace Run

variable {E : Type} [ServiceEntry E] (nested : Nested E)

/-! ## Under the lock of the index -/

/-- Add an entry to the storage; says whether it was taken. -/
def store (c : Nat) (entry : E) : Run E Bool :=
  locked c .storage do
    let k ← collection c
    let (taken, storage) := k.storage.append k.mode entry
    update c fun k => { k with storage := storage }
    pure taken

/-- Remove an entry from the storage; says whether there was one. -/
def unstore (c : Nat) (entry : E) : Run E Bool :=
  locked c .storage do
    let (found, storage) := (← collection c).storage.removeOne entry
    update c fun k => { k with storage := storage }
    pure found

/-- The number of entries in the storage. -/
def storedSize (c : Nat) : Run E Nat := locked c .storage do pure (← collection c).size

/-- Judge a service that appeared or was updated: make its entry and store it, unless the
collection is closed or has the service. -/
def judge (c : Nat) (r : ServiceReference) : Run E (Except Trouble (Admission E)) := do
  let k ← collection c
  if k.closed || k.hasIdentity r.id then
    pure (.ok .ignored)
  else
    let serial ← nextAttempt
    record (.attempted c serial r.id)
    match k.factory.create serial r with
    | .failed f => pure (.error (.failed (.entryCreation r.id f.message)))
    | .panicked message => pure (.error (.panicked message))
    | .made entry release =>
      record (.created c serial r.id release.isSome)
      if ← store c entry then
        let size ← storedSize c
        update c fun k =>
          { k with index := Roster.insert Holding.id ⟨serial, entry, r, release⟩ k.index }
        pure (.ok (.admitted entry (k.dependency.mandatory && size == 1)))
      else
        pure (.ok (.refused serial release))

/-- Decide about a service that appeared or was updated. -/
def consider (c : Nat) (r : ServiceReference) : Run E (Except Trouble (Admission E)) :=
  locked c .index (judge c r)

/-- Take a service out of the index and its entry out of the storage. -/
def takeOut (c : Nat) (id : UInt64) : Run E (Option (Removal E)) := do
  match Roster.find? Holding.id id (← collection c).index with
  | none => pure none
  | some holding =>
    update c fun k => { k with index := Roster.erase Holding.id id k.index }
    let wasStored ← unstore c holding.entry
    let size ← storedSize c
    pure (some ⟨holding, wasStored, (← collection c).dependency.mandatory && size == 0⟩)

/-- Take away a service, if the collection has it. -/
def retract (c : Nat) (id : UInt64) : Run E (Option (Removal E)) := locked c .index (takeOut c id)

/-! ## After the lock -/

/-- Tell the listeners that an entry was added; `first` if the dependency came to be met. -/
def announceAdmission (c : Nat) (entry : E) (r : ServiceReference) (first : Bool) : Run E Unit := do
  bind nested c entry r
  if first then satisfied nested c r.id

/-- What follows a decision about a service that appeared. -/
def afterAdmission (c : Nat) (r : ServiceReference) : Admission E → Run E Reconciled
  | .ignored => pure .unchanged
  | .refused _ none => pure .unchanged
  | .refused serial (some release) => do
    let name := (← collection c).factory.name
    let _ ← settle .release name r.id (← runRelease nested c serial r.id release)
    pure .unchanged
  | .admitted entry first => do
    announceAdmission nested c entry r first
    pure .admitted

/-- The end of the release of a service's entry: a failure names the service. -/
def releaseFinish (service : UInt64) : Finish → Finish
  | .fail f => .fail (.release service f.message)
  | finish => finish

/-- Tell the listeners that an entry was taken away, if the storage had it. -/
def announceRemoval (c : Nat) (removal : Removal E) : Run E Unit := do
  if removal.wasStored then
    unbind nested c removal.holding.entry removal.holding.reference
    if removal.isLast then unsatisfied nested c removal.holding.id

/-- Run the release action of an entry that was taken away, if it has one. -/
def letGo (c : Nat) (holding : Holding E) : Run E Unit :=
  match holding.release with
  | none => pure ()
  | some release => do
    let name := (← collection c).factory.name
    let finish ← runRelease nested c holding.serial holding.id release
    unless ← settle .release name holding.id (releaseFinish holding.id finish) do
      record (.unreleased holding.id (ServiceEntry.text (← get).released holding.entry))

/-- What follows when a service was taken away. -/
def afterRemoval (c : Nat) (removal : Removal E) : Run E Reconciled := do
  announceRemoval nested c removal
  letGo nested c removal.holding
  pure (if removal.wasStored then .retracted else .unchanged)

/-- Take away a service and say whether the storage had it. -/
def remove (c : Nat) (id : UInt64) : Run E Reconciled := do
  match ← retract c id with
  | some removal => afterRemoval nested c removal
  | none => pure .unchanged

/-! ## Notifications and events -/

/-- Apply a notification about a service. -/
def apply (c : Nat) (notification : Notification) (r : ServiceReference) :
    Run E (Except Trouble Reconciled) := do
  match notification with
  | .appeared | .updated =>
    match ← consider c r with
    | .ok admission => return .ok (← afterAdmission nested c r admission)
    | .error t => return .error t
  | .disappeared => return .ok (← remove nested c r.id)

/-- Reconcile a collection with an event. An event that is no notification is a failure. -/
def reconcile (c : Nat) (event : ServiceEvent) : Run E (Except Trouble Reconciled) :=
  match Notification.ofKind? event.kind with
  | some notification => apply nested c notification event.reference
  | none => pure (.error (.failed (.unrecognizedEvent event.display)))

/-- Let the importer of a collection process an event. Its failure or panic goes no further. -/
def serviceChanged (c : Nat) (event : ServiceEvent) : Run E Unit := do
  match ← reconcile nested c event with
  | .ok _ => pure ()
  | .error (.failed f) => record (.eventFailure f.message)
  | .error (.panicked _) => record .eventPanic

/-! ## Shutdown -/

/-- Close a collection. Returns the services that were in it. -/
def close (c : Nat) : Run E (List UInt64) :=
  locked c .index do
    update c fun k => { k with closed := true }
    pure (← collection c).identities

/-- Take away these services. Returns how many of them were stored. -/
def removeAll (c : Nat) : List UInt64 → Run E Nat
  | [] => pure 0
  | id :: ids => do
    let outcome ← remove nested c id
    let rest ← removeAll c ids
    pure (if outcome = .retracted then rest + 1 else rest)

/-- Leave nothing in a collection. -/
def clear (c : Nat) : Run E Unit :=
  locked c .index do
    update c fun k => { k with index := [] }
    locked c .storage do
      update c fun k => { k with storage := k.storage.clear }

/-- Close a collection and take away all its services. Returns how many of them were stored. -/
def shutdown (c : Nat) : Run E Nat := do
  let live ← close c
  let count ← removeAll nested c live
  clear c
  pure count

end Run

end LiveServices

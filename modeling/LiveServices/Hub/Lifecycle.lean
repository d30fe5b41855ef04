import LiveServices.Hub.Delivery

/-!
# The life of a collection

A collection is started once, by a subscription to the registry, and destroyed once: further
calls find nothing to take away. The subscription is made, and the services that are there are
reported, under the lock of the subscription.

A collection that is dropped is gone at once for every later command. If it is subscribed then
it is destroyed, but not under the hands of the commands that are at work on it: the last of
them does it when it is through.
-/

namespace LiveServices.Run

variable {E : Type} [ServiceEntry E] (nested : Nested E)

/-- Whether a collection is closed. -/
def isClosed (c : Nat) : Run E Bool := locked c .index do pure (← collection c).closed

/-- The failure of reading a collection now, if it lacks what it needs. -/
def available (c : Nat) : Run E (Except Failure Unit) :=
  locked c .storage do pure (← collection c).check

/-- Subscribe a collection, unless it was subscribed or destroyed before. -/
def begin (c : Nat) : Act E Unit := do
  let k ← collection (E := E) c
  if k.subscription.isSome then
    throw (.failed (.illegalState "collection already initialized"))
  if ← isClosed (E := E) c then
    throw (.failed (.illegalState "collection already destroyed"))
  let id ← subscribe nested k.dependency.filter (.importer c)
  update (E := E) c fun k => { k with subscription := some id }

/-- Start a collection. A mandatory one that has no service then is unavailable, but it stays
subscribed. -/
def start (c : Nat) : Act E Unit := do
  ExceptT.mk (locked c .subscription (begin nested c))
  match ← available (E := E) c with
  | .ok () => pure ()
  | .error f => throw (.failed f)

/-- End the subscription of a collection, if it has one. -/
def endSubscription (c : Nat) : Run E Unit :=
  locked c .subscription do
    match (← collection c).subscription with
    | none => pure ()
    | some id =>
      update c fun k => { k with subscription := none }
      let _ ← unsubscribe id

/-- Destroy a collection. Returns the number of services that were taken away. -/
def destroy (c : Nat) : Run E Nat := do
  endSubscription c
  shutdown nested c

/-- Destroy a collection that was dropped, if it is subscribed and no command is at work on it. -/
def dispose (c : Nat) : Run E Unit := do
  let k ← collection c
  if k.dropped && k.users == 0 && k.subscription.isSome then
    let _ ← destroy nested c

/-- Drop a collection; says whether it was there. -/
def drop (c : Nat) : Run E Bool := do
  if (← collection c).dropped then pure false
  else
    update c fun k => { k with dropped := true }
    dispose nested c
    pure true

/-- The work of a command on a collection. -/
def workOn (c : Nat) (work : Run E α) : Run E α := do
  update c fun k => { k with users := k.users + 1 }
  let a ← work
  update c fun k => { k with users := k.users - 1 }
  dispose nested c
  pure a

end LiveServices.Run

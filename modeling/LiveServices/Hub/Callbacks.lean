import LiveServices.Hub.Basic

/-!
# Calling listeners and release actions

A listener may give commands while it is called, so every function that calls one is given
`nested`, the way in which such commands are executed. A command that panics takes its giver
with it: the commands that were to follow are not given, and the call ends with that panic. The
calls of a collection's listeners and of release actions are guarded: a failure or a panic is
recorded and goes no further.
-/

namespace LiveServices

/-- How the commands of listeners are executed. -/
abbrev Nested (E : Type) := Command E → Run E Answer

namespace Run

variable {E : Type} [ServiceEntry E] (nested : Nested E)

/-- The entry that a callback is about. -/
def entryOf? : Callback E → Option E
  | .bind entry _ | .unbind entry _ => some entry
  | _ => none

/-- What a listener of a collection can see now. -/
def glimpse (home : Nat) (callback : Callback E) : Run E Glimpse := do
  let h ← get
  let k := h.collection home
  pure {
    locks := k.locks
    census := h.census
    size := if k.dropped then none else some (k.check.map fun _ => k.size)
    entry := (entryOf? callback).map (ServiceEntry.view h.released) }

/-- Give these commands one after the other, note their answers, and then finish. The panic of a
command is the end of this. -/
def give (note : Command E → Answer → Run E Unit) (finish : Finish) :
    List (Command E) → Run E Finish
  | [] => pure finish
  | command :: commands => do
    match ← nested command with
    | .panicked message => pure (.panic message)
    | answer => do
      note command answer
      give note finish commands

/-- Call a listener: it is told of something, gives its commands, and finishes. -/
def call (l : Attached E) (callback : Callback E) : Run E Finish := do
  let response := l.listener.respond ((← get).history l.tag) callback
  record (.called l.tag callback (← glimpse l.home callback))
  let note := fun command answer => record (.commanded l.tag command.name answer)
  give nested note response.finish response.commands

/-- Whether a guarded call was done; its failure or panic is recorded. -/
def settle (what : Guarded) (name : String) (service : UInt64) : Finish → Run E Bool
  | .done => pure true
  | .fail f => do
    record (.guardedFailure what name service f.message)
    pure false
  | .panic message => do
    record (.guardedPanic what name service message)
    pure false

/-- Call these listeners one after the other under guard. -/
def callAll (what : Guarded) (service : UInt64) (callback : Callback E)
    (listeners : List (Attached E)) : Run E Unit :=
  listeners.forM fun l => do
    let finish ← call nested l callback
    let _ ← settle what l.listener.name service finish

/-- The lifecycle listeners of a collection. -/
def lifecycleListeners (c : Nat) : Run E (List (Attached E)) :=
  locked c .lifecycleListeners do pure (← collection c).lifecycleListeners

/-- The state listeners of a collection. -/
def stateListeners (c : Nat) : Run E (List (Attached E)) :=
  locked c .stateListeners do pure (← collection c).stateListeners

/-- Tell the lifecycle listeners that an entry was added. -/
def bind (c : Nat) (entry : E) (r : ServiceReference) : Run E Unit := do
  callAll nested .bind r.id (.bind entry r) (← lifecycleListeners c)

/-- Tell the lifecycle listeners that an entry was taken away. -/
def unbind (c : Nat) (entry : E) (r : ServiceReference) : Run E Unit := do
  callAll nested .unbind r.id (.unbind entry r) (← lifecycleListeners c)

/-- Tell the state listeners that the dependency came to be met. -/
def satisfied (c : Nat) (service : UInt64) : Run E Unit := do
  let dependency := (← collection c).dependency
  callAll nested .satisfied service (.satisfied dependency) (← stateListeners c)

/-- Tell the state listeners that the dependency ceased to be met. -/
def unsatisfied (c : Nat) (service : UInt64) : Run E Unit := do
  let dependency := (← collection c).dependency
  callAll nested .unsatisfied service (.unsatisfied dependency) (← stateListeners c)

/-- Run a release action. From its beginning on the entry is invalid. -/
def runRelease (c serial : Nat) (service : UInt64) (release : Release E) : Run E Finish := do
  record (.releasing c serial service (← get).census release.announced)
  modify fun h => { h with released := serial :: h.released }
  give nested (fun _ _ => pure ()) release.response.finish release.response.commands

end Run

end LiveServices

import LiveServices.Factory

/-!
# Scripted listeners and factories

Listeners and factories that follow a table, for rehearsing how a system behaves when its parts
misbehave. A scripted listener gives the commands that its script has for a callback, as often as
its limit allows, and then finishes as its script says. A scripted factory fails, panics, or makes
entries and release actions that do.
-/

namespace LiveServices

/-- What a scripted listener does. Callbacks are named as `Callback.name` names them. -/
structure ListenerScript (E : Type) where
  name : String := "L"
  /-- Whether a log shows the size of the collection with each call. -/
  observes : Bool := false
  /-- The commands in response to a callback. -/
  reactions : List (String × List (Command E)) := []
  /-- How many callbacks are reacted to. -/
  limit : Nat := 1
  panics : List String := []
  failures : List String := []
  /-- Whether the message of a panic says who panicked, and when. -/
  formatted : Bool := false

namespace ListenerScript

variable {E : Type}

/-- The commands of a script for a callback. -/
def commands? (s : ListenerScript E) (callback : Callback E) : Option (List (Command E)) :=
  s.reactions.lookup callback.name

/-- The number of callbacks that were reacted to, or would have been. -/
def reactionCount (s : ListenerScript E) (past : List (Callback E)) : Nat :=
  past.countP fun callback => (s.commands? callback).isSome

/-- The message of a panic in a callback. -/
def panicMessage (s : ListenerScript E) (callback : Callback E) : String :=
  if s.formatted then s.name ++ " exploded in " ++ callback.name else "exploded"

/-- How a call of the listener ends. -/
def finish (s : ListenerScript E) (callback : Callback E) : Finish :=
  if s.panics.contains callback.name then .panic (some (s.panicMessage callback))
  else if s.failures.contains callback.name then .fail (.listener s.name "refused")
  else .done

/-- The response of the listener to a callback, after these. -/
def respond (s : ListenerScript E) (past : List (Callback E)) (callback : Callback E) :
    Response E :=
  let commands :=
    if s.reactionCount past < s.limit then (s.commands? callback).getD [] else []
  .mk commands (s.finish callback)

/-- The listener that follows a script. -/
def toListener (s : ListenerScript E) : Listener E :=
  .mk s.name (if s.observes then .callsWithSize else .calls) s.respond

end ListenerScript

/-- A listener that shows nothing of itself and never ends a call well. -/
def Listener.anonymous (name : String) : Listener E :=
  .mk name .silent fun _ callback => .mk [] <|
    match callback with
    | .bind _ _ => .fail (.internal "anonymous bind")
    | .unbind _ _ => .fail (.internal "anonymous unbind")
    | .satisfied _ => .fail (.illegalState "anonymous satisfied")
    | .unsatisfied _ => .panic none
    | .event _ => .done

/-- What a scripted factory does, by the identities of services. -/
structure FactoryScript where
  name : String := "scripted"
  panics : List UInt64 := []
  failures : List UInt64 := []
  /-- Whether services of negative rank are refused. -/
  rejectsNegativeRanking : Bool := false
  /-- The identities that entries have in place of those of their services. -/
  aliases : List (UInt64 × UInt64) := []
  ghosts : List UInt64 := []
  /-- The services whose entries have no release action. -/
  unreleased : List UInt64 := []
  releasePanics : List UInt64 := []
  releaseFailures : List UInt64 := []

namespace FactoryScript

/-- The entry for a service. -/
def entry (s : FactoryScript) (r : ServiceReference) : Entry :=
  let service := match s.aliases.lookup r.id with
    | some id => ServiceReference.new id r.properties
    | none => r
  .scripted service (s.ghosts.contains r.id)

/-- The release action for a service. -/
def release (s : FactoryScript) (r : ServiceReference) : Option (Release Entry) :=
  if s.unreleased.contains r.id then none
  else some ⟨true, .mk [] <|
    if s.releasePanics.contains r.id then
      .panic (some ("release " ++ Text.ofId r.id ++ " exploded"))
    else if s.releaseFailures.contains r.id then .fail (.internal "release refused")
    else .done⟩

/-- The factory that follows a script. -/
def toFactory (s : FactoryScript) : Factory Entry where
  name := s.name
  create _ r :=
    if s.panics.contains r.id then .panicked (some "factory exploded")
    else if s.failures.contains r.id then .failed (.internal "cannot create")
    else if s.rejectsNegativeRanking && r.ranking < 0 then .failed (.config "negative ranking")
    else .made (s.entry r) (s.release r)

end FactoryScript

end LiveServices

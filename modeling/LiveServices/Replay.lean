import LiveServices.Hub.Execute
import LiveServices.Transcript

/-!
# Replaying scenarios

A replay builds the importer of a scenario on an empty registry, carries out the steps, and
destroys the importer. What it tells of callbacks is read off the trace of the hub.

Steps are carried out in batches. In a sequential replay each step is a batch; in a parallel one
neighbouring registrations are, and `arrange` says in which order those of a batch are carried
out. The names of a batch become known when all of it is done, in the order of the steps.
-/

namespace LiveServices

/-- The record of a moment, if it is a callback. -/
def Moment.record? : Moment E → Option Record
  | .called _ (.bind _ r) _ => some (.bind r.id r.name?)
  | .called _ (.unbind _ r) _ => some (.unbind r.id r.name?)
  | .called _ (.satisfied d) _ => some (.satisfied d.beanName)
  | .called _ (.unsatisfied d) _ => some (.unsatisfied d.beanName)
  | _ => none

/-- What a read of a collection tells. -/
def Collection.readRecord [ServiceEntry E] (k : Collection E) : Record :=
  match k.check with
  | .ok () =>
    .read (some k.size) (k.storage.items.map fun e => (ServiceEntry.reference e).label) none
  | .error f => .read none [] (some f.message)

/-- A replay under way: the hub, the services by their names, and the records so far. -/
structure Replay where
  hub : Hub Entry
  names : List (String × UInt64) := []
  records : List Record := []

/-- A stage of a replay. -/
abbrev Stage (α : Type) := StateT Replay (Except ScenarioFailure) α

namespace Replay

/-- The listener of a replay, which does nothing: being called is enough to be in the trace. -/
def listener : Listener Entry := .mk "transcript" .silent fun _ _ => .silent

/-- The plan of a scenario's importer. -/
def plan (config : ImporterConfig) : Except Failure (Plan Entry) := do
  let plan ← Plan.ofConfig config (.ofProxies config.proxies)
  pure { plan with lifecycleListeners := [listener], stateListeners := [listener] }

/-- The number of the importer's collection. -/
def importer : Nat := 0

/-- Listeners of a replay give no commands. -/
def nested : Nested Entry := Run.run 0

/-- The hub of a scenario before its first step. -/
def hubOf (config : ImporterConfig) : Except Failure (Hub Entry) := do
  match ({} : Hub Entry).addCollection (← plan config) with
  | (none, h) => pure h
  | (some f, _) => throw f

/-- Add a record. -/
def tell (r : Record) : Stage Unit := modify fun p => { p with records := p.records ++ [r] }

/-- Carry out an operation on the hub, and tell of the callbacks that it led to. -/
def perform (act : Run Entry α) : Stage α := do
  let p ← get
  match act p.hub with
  | .error halt => throw (.halted halt)
  | .ok (a, hub) =>
    let moments := (hub.trace.take (hub.trace.length - p.hub.trace.length)).reverse
    set { p with hub := hub, records := p.records ++ moments.filterMap Moment.record? }
    pure a

/-- The result of an operation that has to succeed. -/
def performed (act : Act Entry α) : Stage α := do
  match ← perform act.run with
  | .ok a => pure a
  | .error (.failed f) => throw (.failure f)
  | .error (.panicked _) => throw .panicked

/-- Start the importer. That there is no service yet is no failure. -/
def start : Stage Unit := do
  match ← perform (Run.start nested importer).run with
  | .ok () => tell (.initialized ((← get).hub.collection importer).isSatisfied none)
  | .error (.failed (.serviceUnavailable filter)) =>
    tell (.initialized false (some (Failure.serviceUnavailable filter).message))
  | .error (.failed f) => throw (.failure f)
  | .error (.panicked _) => throw .panicked

/-- The service of a name. -/
def service (name : String) : Stage UInt64 := do
  match (← get).names.lookup name with
  | some id => pure id
  | none => throw (.unknown name)

/-- Forget a name. -/
def forget (name : String) : Stage Unit :=
  modify fun p => { p with names := p.names.filter fun entry => entry.1 != name }

/-- Let a name stand for a service. -/
def know (name : String) (id : UInt64) : Stage Unit := do
  forget name
  modify fun p => { p with names := (name, id) :: p.names }

/-- Carry out a step. Returns the service that it registered. -/
def carryOut : Step → Stage (Option UInt64)
  | .register name properties => do
    let r ← performed (Run.register nested (serviceProperties name properties))
    pure (some r.id)
  | .modify name properties => do
    let id ← service name
    let _ ← performed (Run.setProperties nested id (serviceProperties name properties))
    pure none
  | .unregister name => do
    let id ← service name
    forget name
    performed (Run.unregister nested id)
    pure none
  | .read => do
    tell ((← get).hub.collection importer).readRecord
    pure none

/-- A step with its number, counted from 1. -/
abbrev Numbered := Nat × Step

/-- Learn the name of a step that registered a service. -/
def learn (registered : List (Nat × Option UInt64)) : Numbered → Stage Unit
  | (n, .register name _) =>
    match registered.lookup n with
    | some (some id) => know name id
    | _ => pure ()
  | _ => pure ()

/-- Carry out a batch of steps in an arranged order. -/
def carryOutBatch (arrange : List Numbered → List Numbered) (batch : List Numbered) :
    Stage Unit := do
  batch.forM fun (n, step) => tell (.step n step.display)
  let registered ← (arrange batch).mapM fun (n, step) => do
    let id ← carryOut step
    pure (n, id)
  batch.forM (learn registered)

/-- Carry out all batches from the start of the importer to its end. -/
def run (arrange : List Numbered → List Numbered) (batches : List (List Numbered)) :
    Stage Unit := do
  start
  batches.forM (carryOutBatch arrange)
  let retracted ← perform (Run.destroy nested importer)
  tell (.destroyed retracted)

end Replay

namespace Scenario

/-- The steps of a scenario with their numbers. -/
def numbered (s : Scenario) : List Replay.Numbered := s.steps.mapIdx fun i step => (i + 1, step)

/-- The records of a scenario's replay in these batches. -/
def replayBatches (s : Scenario) (arrange : List Replay.Numbered → List Replay.Numbered)
    (batches : List (List Replay.Numbered)) : Except ScenarioFailure (List Record) := do
  match Replay.hubOf s.importer with
  | .error f => throw (.failure f)
  | .ok hub =>
    let ((), p) ← Replay.run arrange batches { hub := hub }
    pure p.records

/-- The records of a replay of one step after the other. -/
def replay (s : Scenario) : Except ScenarioFailure (List Record) :=
  s.replayBatches id (s.numbered.map fun step => [step])

/-- The records of a replay in which neighbouring registrations are carried out together, in an
arranged order. -/
def replayParallel (s : Scenario) (arrange : List Replay.Numbered → List Replay.Numbered) :
    Except ScenarioFailure (List Record) :=
  s.replayBatches arrange
    (s.numbered.splitBy fun a b => a.2.isRegister && b.2.isRegister)

end Scenario

end LiveServices

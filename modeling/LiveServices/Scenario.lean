import LiveServices.Hub.Basic
import LiveServices.ImporterConfig
import LiveServices.Json.Service

/-!
# Scenarios

A scenario is the configuration of one importer and a list of steps: services are registered,
modified and unregistered under names of the scenario's own, and the collection is read. A valid
scenario has a valid configuration, registers no name that is live, and modifies and unregisters
only names that are.
-/

namespace LiveServices

/-- A step of a scenario. -/
inductive Step where
  | register (name : String) (properties : Properties)
  | modify (name : String) (properties : Properties)
  | unregister (name : String)
  | read
  deriving DecidableEq

/-- A scenario. -/
structure Scenario where
  importer : ImporterConfig := {}
  steps : List Step := []
  deriving DecidableEq

/-- Why a scenario cannot be read or replayed. -/
inductive ScenarioFailure where
  /-- The file is no TOML document, or none of a scenario. -/
  | unreadable
  /-- A step registers a name that is live. -/
  | alreadyRegistered (step : Nat) (name : String)
  /-- A step needs a name that is not live. -/
  | unknownAtStep (step : Nat) (name : String)
  /-- A name is not live when it is needed. -/
  | unknown (name : String)
  | failure (failure : Failure)
  | panicked
  | halted (halt : Halt)
  deriving DecidableEq

namespace ScenarioFailure

/-- The wording of a failure. -/
def message : ScenarioFailure → String
  | unreadable => "invalid scenario file"
  | alreadyRegistered step name =>
    "step " ++ toString step ++ ": service '" ++ name ++ "' is already registered"
  | unknownAtStep step name => "step " ++ toString step ++ ": unknown service '" ++ name ++ "'"
  | unknown name => "unknown service '" ++ name ++ "'"
  | failure f => f.message
  | panicked => "panicked"
  | halted _ => "halted"

end ScenarioFailure

namespace Step

/-- Whether a step registers a service. -/
def isRegister : Step → Bool
  | register _ _ => true
  | _ => false

/-- The text of a step. -/
def display : Step → String
  | register name _ => "register " ++ name
  | modify name _ => "modify " ++ name
  | unregister name => "unregister " ++ name
  | read => "read"

/-- The form of a step. -/
def toJson : Step → Json
  | register name properties =>
    .object [("action", .text "register"), ("name", .text name),
      ("properties", properties.toJson)]
  | modify name properties =>
    .object [("action", .text "modify"), ("name", .text name), ("properties", properties.toJson)]
  | unregister name => .object [("action", .text "unregister"), ("name", .text name)]
  | read => .object [("action", .text "read")]

/-- The step of an action and the form of its data. -/
def ofAction? (action : String) (data : Json) : Option Step := do
  match action with
  | "register" =>
    match ← data.fields? .json ["name", "properties"] with
    | [some name, properties] =>
      pure (register (← name.text?) (← Json.orDefault {} Properties.ofJson? properties))
    | _ => none
  | "modify" =>
    match ← data.fields? .json ["name", "properties"] with
    | [some name, some properties] =>
      pure (modify (← name.text?) (← Properties.ofJson? properties))
    | _ => none
  | "unregister" =>
    match ← data.fields? .json ["name"] with
    | [some name] => pure (unregister (← name.text?))
    | _ => none
  | "read" => (data.fields? .json []).map fun _ => read
  | _ => none

/-- The step of a form: an object with the member `action`, or an array that begins with the
action. -/
def ofJson? : Json → Option Step
  | .object members => do
    match ← Json.field? members "action" with
    | some action => ofAction? (← action.text?) (.object members)
    | none => none
  | .array (action :: data) => do ofAction? (← action.text?) (.array data)
  | _ => none

end Step

namespace Scenario

/-- The scenario of a form. -/
def ofJson? (j : Json) : Option Scenario := do
  match ← j.fields? .toml ["importer", "step"] with
  | [importer, steps] =>
    pure {
      importer := ← Json.orDefault {} (ImporterConfig.ofJson? .toml) importer
      steps := ← Json.orDefault [] (fun j => j.array?.bind (List.mapM Step.ofJson?)) steps }
  | _ => none

/-- The scenario that a TOML text holds, whether or not it is valid. -/
def parse? (s : String) : Option Scenario := (Toml.read? s).bind ofJson?

/-! ## Validation -/

/-- The first step, counted from this number, that does not fit the names that are live. -/
def validateSteps : Nat → List String → List Step → Except ScenarioFailure Unit
  | _, _, [] => .ok ()
  | n, live, .register name _ :: steps =>
    if live.contains name then .error (.alreadyRegistered n name)
    else validateSteps (n + 1) (live ++ [name]) steps
  | n, live, .modify name _ :: steps =>
    if live.contains name then validateSteps (n + 1) live steps
    else .error (.unknownAtStep n name)
  | n, live, .unregister name :: steps =>
    if live.contains name then validateSteps (n + 1) (live.erase name) steps
    else .error (.unknownAtStep n name)
  | n, live, .read :: steps => validateSteps (n + 1) live steps

/-- The reason why a scenario is not valid, if there is one. -/
def validate (s : Scenario) : Except ScenarioFailure Unit :=
  match s.importer.validate with
  | .error f => .error (.failure f)
  | .ok () => validateSteps 1 [] s.steps

/-- The valid scenario that a TOML text holds. -/
def ofToml (text : String) : Except ScenarioFailure Scenario := do
  match parse? text with
  | none => throw .unreadable
  | some s =>
    s.validate
    pure s

end Scenario

/-! ## Names of services -/

/-- The key under which a service has its name. -/
def nameKey : String := "name"

/-- The properties of a service of a scenario: its name is a property unless it has one. -/
def serviceProperties (name : String) (properties : Properties) : Properties :=
  properties.insertIfAbsent nameKey (.text name)

/-- The name of a service, as a transcript shows it. -/
def ServiceReference.name? (r : ServiceReference) : Option String :=
  (r.property nameKey).map PropertyValue.display

/-- What a transcript calls a service. -/
def ServiceReference.label (r : ServiceReference) : String := r.name?.getD (Text.ofId r.id)

end LiveServices

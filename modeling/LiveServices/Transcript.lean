import LiveServices.Json.Writer
import LiveServices.Scenario

/-!
# Transcripts

A transcript is what a replay tells: its steps, the callbacks that they led to, what was read, and
how the importer began and ended. It is written as text, a line for each record, or as JSON.
-/

namespace LiveServices

/-- A record of a transcript. -/
inductive Record where
  /-- A step began. -/
  | step (index : Nat) (text : String)
  /-- The importer was started. -/
  | initialized (isSatisfied : Bool) (error : Option String)
  | bind (service : UInt64) (name : Option String)
  | unbind (service : UInt64) (name : Option String)
  | satisfied (importer : String)
  | unsatisfied (importer : String)
  /-- The collection was read. -/
  | read (size : Option Nat) (services : List String) (error : Option String)
  /-- The importer was destroyed. -/
  | destroyed (retracted : Nat)
  deriving DecidableEq

namespace Record

/-- The text of a service in a record. -/
def service (id : UInt64) (name : Option String) : String :=
  "service " ++ Text.ofId id ++
    match name with
    | some name => " (" ++ name ++ ")"
    | none => ""

/-- The line of a record. -/
def display : Record → String
  | step index text => "#" ++ toString index ++ " " ++ text
  | initialized isSatisfied error =>
    "  initialized (satisfied=" ++ (if isSatisfied then "true" else "false") ++ ")" ++
      match error with
      | some e => ": " ++ e
      | none => ""
  | bind id name => "  bind        " ++ service id name
  | unbind id name => "  unbind      " ++ service id name
  | satisfied importer => "  satisfied   " ++ importer
  | unsatisfied importer => "  unsatisfied " ++ importer
  | read _ _ (some e) => "  read        error: " ++ e
  | read (some size) services none =>
    "  read        size=" ++ toString size ++ " " ++ Text.bracketed services
  | read none _ none => "  read"
  | destroyed retracted => "destroyed (" ++ toString retracted ++ " retracted)"

/-- The form of a record. -/
def toJson : Record → Json
  | step index text =>
    .object [("event", .text "step"), ("index", .ofNat index), ("step", .text text)]
  | initialized isSatisfied error =>
    .object [("event", .text "initialized"), ("satisfied", .bool isSatisfied),
      ("error", .ofOption .text error)]
  | bind id name =>
    .object [("event", .text "bind"), ("service_id", .ofId id), ("name", .ofOption .text name)]
  | unbind id name =>
    .object [("event", .text "unbind"), ("service_id", .ofId id), ("name", .ofOption .text name)]
  | satisfied importer => .object [("event", .text "satisfied"), ("importer", .text importer)]
  | unsatisfied importer => .object [("event", .text "unsatisfied"), ("importer", .text importer)]
  | read size services error =>
    .object [("event", .text "read"), ("size", .ofOption .ofNat size),
      ("services", .ofList .text services), ("error", .ofOption .text error)]
  | destroyed retracted => .object [("event", .text "destroyed"), ("retracted", .ofNat retracted)]

/-- Whether a record is that of a step. -/
def isStep : Record → Bool
  | step _ _ => true
  | _ => false

end Record

namespace Transcript

/-- The text of a transcript. -/
def text (records : List Record) : String := "\n".intercalate (records.map Record.display)

/-- The form of a transcript. -/
def toJson (records : List Record) : Json := .ofList Record.toJson records

end Transcript

end LiveServices

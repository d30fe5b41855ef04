import LiveServices.Text.Numeral

/-!
# Failures

Every failure that the library reports is one value of `Failure`. `Failure.message` is the only
place where their wording is chosen. A document or file that cannot be read fails with a cause
alone: what went wrong inside it is not part of the value.
-/

namespace LiveServices

/-- A reported failure. -/
inductive Failure where
  /-- A configuration that contradicts itself or lacks a part. -/
  | config (reason : String)
  /-- A mandatory collection was read while empty. -/
  | serviceUnavailable (filter : String)
  /-- A write to a read-only collection. -/
  | unsupportedOperation (operation : String)
  /-- An operation at a time when it is not allowed. -/
  | illegalState (reason : String)
  /-- No entry could be made for a service. -/
  | entryCreation (service : UInt64) (reason : String)
  /-- An event of a kind that importers do not understand. -/
  | unrecognizedEvent (event : String)
  /-- A listener refused its callback. -/
  | listener (name : String) (reason : String)
  /-- The release action of an entry failed. -/
  | release (service : UInt64) (reason : String)
  /-- A filter text that is not in the grammar. -/
  | invalidFilter (filter : String) (reason : String)
  /-- Something that was named is not there. -/
  | notFound (what : String)
  /-- A failure with no kind of its own. -/
  | internal (reason : String)
  /-- A file could not be read. -/
  | io
  /-- A JSON document could not be read as what was asked for. -/
  | json
  /-- A TOML document could not be read as what was asked for. -/
  | toml
  deriving DecidableEq

namespace Failure

/-- The wording of a failure; the failures of documents have none. -/
def message? : Failure → Option String
  | config reason => some ("Configuration error: " ++ reason)
  | serviceUnavailable filter =>
    some ("Service unavailable: no service matches filter " ++ filter)
  | unsupportedOperation operation =>
    some ("Unsupported operation: " ++ operation ++ " (collection is read-only)")
  | illegalState reason => some ("Illegal state: " ++ reason)
  | entryCreation service reason =>
    some ("Entry creation failed for service " ++ Text.ofId service ++ ": " ++ reason)
  | unrecognizedEvent event => some ("Unrecognized service event: " ++ event)
  | listener name reason => some ("Listener '" ++ name ++ "' failed: " ++ reason)
  | release service reason =>
    some ("Release action failed for service " ++ Text.ofId service ++ ": " ++ reason)
  | invalidFilter filter reason => some ("Invalid filter '" ++ filter ++ "': " ++ reason)
  | notFound what => some ("Not found: " ++ what)
  | internal reason => some ("Internal error: " ++ reason)
  | io | json | toml => none

/-- The wording of a failure, empty for the failures of documents. -/
def message (f : Failure) : String := f.message?.getD ""

/-- Whether the operation may succeed later without a change by the caller: only a service that is
missing now may still be registered. -/
def isRetryable : Failure → Bool
  | serviceUnavailable _ => true
  | _ => false

/-- Whether the failure is one that a user can act on. -/
def isUserFacing : Failure → Bool
  | serviceUnavailable _ | unsupportedOperation _ | invalidFilter _ _ | config _ | notFound _ =>
    true
  | _ => false

end Failure

end LiveServices

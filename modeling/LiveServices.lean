import LiveServices.Collection
import LiveServices.CollectionKind
import LiveServices.Command
import LiveServices.CommandLine
import LiveServices.Dependency
import LiveServices.Entry
import LiveServices.Event
import LiveServices.Factory
import LiveServices.Failure
import LiveServices.Filter.Basic
import LiveServices.Filter.Match
import LiveServices.Filter.Parser
import LiveServices.Hub.Basic
import LiveServices.Hub.Callbacks
import LiveServices.Hub.Delivery
import LiveServices.Hub.Execute
import LiveServices.Hub.Lemmas
import LiveServices.Hub.Lifecycle
import LiveServices.Hub.Reading
import LiveServices.Hub.Reconcile
import LiveServices.ImporterConfig
import LiveServices.Json.Basic
import LiveServices.Json.Reader
import LiveServices.Json.Service
import LiveServices.Json.Shape
import LiveServices.Json.Writer
import LiveServices.Main
import LiveServices.Proofs.Callbacks.Accounting
import LiveServices.Proofs.Callbacks.Agreement
import LiveServices.Proofs.Callbacks.Balance
import LiveServices.Proofs.Callbacks.Settled
import LiveServices.Proofs.Calm.Calls
import LiveServices.Proofs.Calm.Delivery
import LiveServices.Proofs.Calm.Endings
import LiveServices.Proofs.Calm.Matches
import LiveServices.Proofs.Calm.Refusals
import LiveServices.Proofs.Calm.Removals
import LiveServices.Proofs.Calm.Sections
import LiveServices.Proofs.Calm.Start
import LiveServices.Proofs.Destruction.Finality
import LiveServices.Proofs.Destruction.Spent
import LiveServices.Proofs.Filter.Grammar
import LiveServices.Proofs.Filter.Reading
import LiveServices.Proofs.Index.Correspondence
import LiveServices.Proofs.Index.Identified
import LiveServices.Proofs.Interleaving.Independence
import LiveServices.Proofs.Interleaving.Turns
import LiveServices.Proofs.Isolation.Commands
import LiveServices.Proofs.Isolation.Operations
import LiveServices.Proofs.Isolation.Outcomes
import LiveServices.Proofs.Isolation.Shadows
import LiveServices.Proofs.Isolation.Unfailing
import LiveServices.Proofs.Locks.Calls
import LiveServices.Proofs.Locks.Replay
import LiveServices.Proofs.Locks.Unheld
import LiveServices.Proofs.Logs.Following
import LiveServices.Proofs.Logs.Linearization
import LiveServices.Proofs.Logs.Replayed
import LiveServices.Proofs.Mirror.Joining
import LiveServices.Proofs.Mirror.Reversal
import LiveServices.Proofs.Proxies.Handles
import LiveServices.Proofs.Proxies.Validity
import LiveServices.Proofs.Registry.Replica
import LiveServices.Proofs.Registry.Stream
import LiveServices.Proofs.Releases.Conservation
import LiveServices.Proofs.Replays.Names
import LiveServices.Proofs.Replays.Stages
import LiveServices.Proofs.Replays.Validated
import LiveServices.Proofs.Run.Built
import LiveServices.Proofs.Run.Course
import LiveServices.Proofs.Run.Endings
import LiveServices.Proofs.Run.Glimpses
import LiveServices.Proofs.Run.Keeps
import LiveServices.Proofs.Run.Locked
import LiveServices.Proofs.Run.Onward
import LiveServices.Proofs.Run.Sections
import LiveServices.Proofs.Run.Steps
import LiveServices.Proofs.Sequence.Calls
import LiveServices.Proofs.Sequence.Places
import LiveServices.Proofs.Sequence.Representation
import LiveServices.Proofs.Sequence.Traversal
import LiveServices.Proofs.Transcripts.Consistent
import LiveServices.Proofs.Transcripts.Explained
import LiveServices.Proofs.Transcripts.Shown
import LiveServices.Proofs.Transcripts.Telling
import LiveServices.Property
import LiveServices.Reference
import LiveServices.Registry
import LiveServices.Replay
import LiveServices.Roster
import LiveServices.Scenario
import LiveServices.Script
import LiveServices.Sequence.Live
import LiveServices.Sequence.Search
import LiveServices.Text.Blank
import LiveServices.Text.Case
import LiveServices.Text.Numeral
import LiveServices.Text.Quoted
import LiveServices.Toml.Number
import LiveServices.Toml.Reader
import LiveServices.Toml.Table
import LiveServices.Toml.Text
import LiveServices.Toml.Value
import LiveServices.Transcript
import LiveServices.Proofs.Index.Canonical
import LiveServices.Proofs.Deliveries.Obligations
import LiveServices.Proofs.Deliveries.Rounds
import LiveServices.Proofs.Deliveries.Underway
import LiveServices.Proofs.Deliveries.Once
import LiveServices.Proofs.Kinds.Agreement
import LiveServices.Proofs.Kinds.Commands
import LiveServices.Proofs.Kinds.Outcomes
import LiveServices.Proofs.Arrangements.Depicted
import LiveServices.Proofs.Arrangements.Orderless
import LiveServices.Proofs.Filter.Wildcards
import LiveServices.Proofs.Filter.Positions
import LiveServices.Proofs.References.Comparing
import LiveServices.Proofs.Once.Advances
import LiveServices.Proofs.Once.Lives
import LiveServices.Proofs.Once.Orderly
import LiveServices.Proofs.Once.Readers
import LiveServices.Proofs.Once.Services
import LiveServices.Proofs.Once.Untold
import LiveServices.Proofs.Once.Yields
import LiveServices.Proofs.Sequence.Ahead
import LiveServices.Proofs.Filter.Trimmed
import LiveServices.Proofs.Filter.Numerals
import LiveServices.Proofs.Filter.Integers
import LiveServices.Proofs.Futile.Likeness
import LiveServices.Proofs.Futile.Upshots
import LiveServices.Proofs.Futile.Agreement
import LiveServices.Proofs.Futile.Events
import LiveServices.Proofs.Properties.Entries
import LiveServices.Proofs.Filter.Caseless
import LiveServices.Proofs.Documents.Tokens
import LiveServices.Proofs.Documents.Texts
import LiveServices.Proofs.Documents.Lossless
import LiveServices.Proofs.References.Identity
import LiveServices.Proofs.References.Genuine
import LiveServices.Proofs.References.Carried

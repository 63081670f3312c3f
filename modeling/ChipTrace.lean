import ChipTrace.Capture.Bare
import ChipTrace.Capture.Bodies
import ChipTrace.Capture.Conflicts
import ChipTrace.Capture.Envelope
import ChipTrace.Capture.Evidence
import ChipTrace.Capture.Idempotence
import ChipTrace.Capture.Normalize
import ChipTrace.Capture.Promotion
import ChipTrace.Capture.Reaccepted
import ChipTrace.Capture.Refusals
import ChipTrace.Capture.Repromotion
import ChipTrace.Capture.Settled
import ChipTrace.Capture.Stored
import ChipTrace.Capture.Texts
import ChipTrace.Capture.Unread
import ChipTrace.Capture.Validators
import ChipTrace.CloudPlatform.Handover
import ChipTrace.CloudPlatform.Jobs
import ChipTrace.CloudPlatform.Limits
import ChipTrace.CloudPlatform.Ordered
import ChipTrace.CloudPlatform.Scheduler
import ChipTrace.Collector.Replies
import ChipTrace.Gateway.Clashes
import ChipTrace.Gateway.ClientClose
import ChipTrace.Gateway.ExportOnce
import ChipTrace.Gateway.ExportScan
import ChipTrace.Gateway.Names
import ChipTrace.Gateway.Tracker
import ChipTrace.Gateway.UsageExport
import ChipTrace.Ingest.Attribution
import ChipTrace.Ingest.Derive
import ChipTrace.Ingest.Derived
import ChipTrace.Ingest.Hook
import ChipTrace.Ingest.Identity
import ChipTrace.Ingest.Prepare
import ChipTrace.Ingest.Refusals
import ChipTrace.Ingest.Retention
import ChipTrace.Ingest.Revalidation
import ChipTrace.Interaction.Frames
import ChipTrace.Interaction.Framing
import ChipTrace.Interaction.Ranges
import ChipTrace.Interaction.RuntimeIntegrity
import ChipTrace.Interaction.Sse
import ChipTrace.Interaction.ToolCompleteness
import ChipTrace.Ledger.Invariant
import ChipTrace.Ledger.Leases
import ChipTrace.Ledger.Ops
import ChipTrace.Ledger.Representation
import ChipTrace.Ledger.Startup
import ChipTrace.Ledger.Transactions
import ChipTrace.Ledger.Types
import ChipTrace.Lib.ByteLines
import ChipTrace.Lib.Bytes
import ChipTrace.Lib.Champion
import ChipTrace.Lib.Checked
import ChipTrace.Lib.Classes
import ChipTrace.Lib.Decimal
import ChipTrace.Lib.Effects
import ChipTrace.Lib.GroupedOrder
import ChipTrace.Lib.Grouping
import ChipTrace.Lib.Interleave
import ChipTrace.Lib.Json.Basic
import ChipTrace.Lib.Json.RoundTrip
import ChipTrace.Lib.Json.Size
import ChipTrace.Lib.Json.Text
import ChipTrace.Lib.Json.Validity
import ChipTrace.Lib.KeepFirst
import ChipTrace.Lib.Lines
import ChipTrace.Lib.ListSum
import ChipTrace.Lib.Machine
import ChipTrace.Lib.OrdMap
import ChipTrace.Lib.OrdSet
import ChipTrace.Lib.Paging
import ChipTrace.Lib.Pairing
import ChipTrace.Lib.ParentTree
import ChipTrace.Lib.Preference
import ChipTrace.Lib.Result
import ChipTrace.Lib.SecondaryIndex
import ChipTrace.Lib.Tally
import ChipTrace.Lib.Text
import ChipTrace.Lib.UnionFind
import ChipTrace.Lib.Utf8Check
import ChipTrace.Lib.Windows
import ChipTrace.Maas.Packing
import ChipTrace.Publish.Artifact
import ChipTrace.Publish.Commit
import ChipTrace.Publish.Concurrent
import ChipTrace.Publish.Keys
import ChipTrace.Publish.Plans
import ChipTrace.Publish.Publisher
import ChipTrace.Publish.Publishing
import ChipTrace.Publish.Verifier
import ChipTrace.Quality.Conservation
import ChipTrace.Quality.Counters
import ChipTrace.Quality.Coverage
import ChipTrace.Quality.Durable
import ChipTrace.Quality.Summary
import ChipTrace.RawArchive.Agreement
import ChipTrace.RawArchive.Archiver
import ChipTrace.RawArchive.Archiving
import ChipTrace.RawArchive.Commit
import ChipTrace.RawArchive.Concurrent
import ChipTrace.RawArchive.Keys
import ChipTrace.RawArchive.Manifest
import ChipTrace.RawArchive.Restore
import ChipTrace.RawArchive.Segment
import ChipTrace.RawArchive.Types
import ChipTrace.RawArchive.Validation
import ChipTrace.Relay.BudgetProgress
import ChipTrace.Relay.Config
import ChipTrace.Relay.DeliverMany
import ChipTrace.Relay.Delivery
import ChipTrace.Relay.Receipt
import ChipTrace.Relay.Renormalization
import ChipTrace.Relay.Verdicts
import ChipTrace.Sessions.Assembly
import ChipTrace.Sessions.Batches
import ChipTrace.Sessions.CaptureOrder
import ChipTrace.Sessions.Deliveries
import ChipTrace.Sessions.Descent
import ChipTrace.Sessions.Doubled
import ChipTrace.Sessions.Epochs
import ChipTrace.Sessions.Identity
import ChipTrace.Sessions.Lifecycle
import ChipTrace.Sessions.Lineage
import ChipTrace.Sessions.Links
import ChipTrace.Sessions.Publication
import ChipTrace.Sessions.Reading
import ChipTrace.Sessions.Records
import ChipTrace.Sessions.Requests
import ChipTrace.Sessions.Selection
import ChipTrace.Sessions.Settlement
import ChipTrace.Sessions.Snapshots
import ChipTrace.Sessions.Types
import ChipTrace.Sessions.Usage
import ChipTrace.SourceContext.Audit
import ChipTrace.SourceContext.Conservation
import ChipTrace.SourceContext.Exact
import ChipTrace.SourceContext.Ready
import ChipTrace.Store.Accounts
import ChipTrace.Store.Acknowledged
import ChipTrace.Store.Batching
import ChipTrace.Store.Conservation
import ChipTrace.Store.Counters
import ChipTrace.Store.Decisions
import ChipTrace.Store.Durability
import ChipTrace.Store.Kept
import ChipTrace.Store.Layout
import ChipTrace.Store.Ledger
import ChipTrace.Store.Recovery
import ChipTrace.Store.Reopening
import ChipTrace.Store.Rules
import ChipTrace.Store.Serving
import ChipTrace.Store.Steady
import ChipTrace.Store.Types
import ChipTrace.Store.Verdicts
import ChipTrace.Store.Writer
import ChipTrace.Telemetry.Delivery
import ChipTrace.Telemetry.Hierarchy
import ChipTrace.Telemetry.Parents
import ChipTrace.Telemetry.Records
import ChipTrace.Telemetry.Trees
import ChipTrace.TurnIdentity.Contents
import ChipTrace.TurnIdentity.Index
import ChipTrace.TurnIdentity.Resolution
import ChipTrace.Turns.Boundaries
import ChipTrace.Turns.Compaction
import ChipTrace.Turns.Otlp
import ChipTrace.Turns.Pages
import ChipTrace.Turns.Tiles

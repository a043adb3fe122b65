import Apdl.Lib.StepMachine
import Apdl.Lib.Check
import Apdl.Lib.Table
import Apdl.Lib.Utf16
import Apdl.Lib.Double
import Apdl.Lib.Json
import Apdl.Flags.Targeting
import Apdl.Config.Schemas
import Apdl.Config.ExperimentFlag
import Apdl.Config.Outbox.Model
import Apdl.Config.Outbox.Order
import Apdl.Config.Sse.Model
import Apdl.Config.Sse.Handoff
import Apdl.Config.Mutations.Model
import Apdl.Config.Mutations.Effect
import Apdl.Config.Mutations.Backing
import Apdl.Config.Mutations.Lifecycle
import Apdl.Flags.Evaluator
import Apdl.Flags.Parity
import Apdl.Lib.Traverse
import Apdl.Flags.Wire.Model
import Apdl.Lib.Document
import Apdl.Lib.Binary64
import Apdl.Lib.Extremum
import Apdl.Pipeline.Frontier.Model
import Apdl.Pipeline.Frontier.Stores
import Apdl.Pipeline.Frontier.Sound
import Apdl.Lib.Sql
import Apdl.Query.Analysis.Model
import Apdl.Query.Analysis.Reference
import Apdl.Query.Analysis.Correct
import Apdl.Sdk.Queue.Model
import Apdl.Sdk.Queue.Consent
import Apdl.Lib.Pattern
import Apdl.Sdk.Connection.Model
import Apdl.Sdk.Connection.Reference
import Apdl.Sdk.Connection.Decode
import Apdl.Lib.Register
import Apdl.Sdk.Cache.Model
import Apdl.Sdk.Cache.Converge
import Apdl.Sdk.Cache.Invariant
import Apdl.Pipeline.Frontier.Held
import Apdl.Pipeline.Frontier.Counts
import Apdl.Pipeline.Marker.Model
import Apdl.Pipeline.Marker.Once
import Apdl.Pipeline.Marker.Quarantine
import Apdl.Flags.Wire.Grammar
import Apdl.Flags.Wire.Parity
import Apdl.Config.ClientFlag
import Apdl.Config.Evaluation
import Apdl.Ingest.Model
import Apdl.Ingest.Batch
import Apdl.Ingest.Contract
import Apdl.Ingest.Route
import Apdl.Ingest.Privacy
import Apdl.Pipeline.Writer.Event
import Apdl.Pipeline.Writer.Handoff
import Apdl.Lib.Decimal
import Apdl.Config.FlagCache
import Apdl.Config.Sse.Admission
import Apdl.Lib.PyEqual
import Apdl.Config.Exposure
import Apdl.Lib.Jsonb
import Apdl.Lib.Cursor
import Apdl.Sdk.Offline.Model
import Apdl.Sdk.Offline.Leases
import Apdl.Sdk.PyQueue.Ledger
import Apdl.Sdk.PyQueue.Delivery
import Apdl.Sdk.PyQueue.Shutdown
import Apdl.Ingest.RateLimit.Model
import Apdl.Lib.TokenBucket
import Apdl.Ingest.RateLimit.Bounds
import Apdl.Lib.Placeholder
import Apdl.Query.Sql.Noninterference
import Apdl.Query.Arms
import Apdl.Agents.Lease.Exclusive
import Apdl.Agents.ClientCache.Slots
import Apdl.Lib.Rows
import Apdl.Agents.Approval.Cancellation
import Apdl.Agents.Approval.Gates
import Apdl.Config.Mutations.Identity
import Apdl.Codegen.Changeset.CiProjection
import Apdl.Codegen.Changeset.Convergence
import Apdl.Codegen.Changeset.Lifecycle
import Apdl.Codegen.Changeset.RepairBounds
import Apdl.Codegen.Changeset.Idempotency
import Apdl.Sdk.Health.Accepted
import Apdl.Vault.Commit
import Apdl.Agents.Quota.Bound
import Apdl.Pipeline.Postgres.Ledger
import Apdl.Codegen.Safety.PrePush
import Apdl.Codegen.Changeset.CiAggregation
import Apdl.Lib.PyValue
import Apdl.Agents.Safety.Model
import Apdl.Agents.Safety.Valid
import Apdl.Agents.Safety.BlastRadius
import Apdl.Flags.Raw
import Apdl.Agents.Populations
import Apdl.Lib.Script
import Apdl.Pipeline.Deletion.Model
import Apdl.Pipeline.Deletion.Kept
import Apdl.Pipeline.Deletion.Convergence
import Apdl.Pipeline.Maintenance.Model
import Apdl.Pipeline.Maintenance.Gate
import Apdl.Lib.NumberText
import Apdl.Lib.JsonText
import Apdl.Lib.JsonRoundTrip
import Apdl.Lib.JsonSize
import Apdl.Agents.ToolLoop.Model
import Apdl.Agents.ToolLoop.Budget
import Apdl.Flags.Rollout
import Apdl.Flags.HashParity
import Apdl.Flags.Assignment
import Apdl.Sdk.Bisection
import Apdl.Pipeline.Writer.Isolation
import Apdl.Pipeline.Writer.StreamIdText
import Apdl.Lib.Packing
import Apdl.Sdk.Offline.Eviction
import Apdl.Sdk.Cache.Persist
import Apdl.Pipeline.Frontier.Reconcile
import Apdl.Query.Decision.Final

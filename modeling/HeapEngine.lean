import HeapEngine.Database.Commit
import HeapEngine.Database.Record
import HeapEngine.Database.Scan
import HeapEngine.Database.Waiting
import HeapEngine.Json.Form
import HeapEngine.Json.Reader
import HeapEngine.Proofs.Database.Atomic
import HeapEngine.Proofs.Database.Isolation
import HeapEngine.Settings.Environment
import HeapEngine.SortedMap.Lookup
import HeapEngine.Table.Detached
import HeapEngine.Value.Display
import HeapEngine.Proofs.Page.Twins
import HeapEngine.Proofs.Page.Encodable
import HeapEngine.Proofs.Database.Steps
import HeapEngine.Proofs.Database.Steps.Commands
import HeapEngine.Proofs.Database.Durable
import HeapEngine.Proofs.Database.Transparent.Pairs
import HeapEngine.Proofs.Database.Transparent.Records
import HeapEngine.Proofs.Database.Transparent.Commit
import HeapEngine.Proofs.Database.Transparent
import HeapEngine.Proofs.Locks.Traffic
import HeapEngine.Proofs.Database.Settle
import HeapEngine.Proofs.Database.Residency
import HeapEngine.Proofs.Database.Tracking
import HeapEngine.Proofs.Database.Unhindered
import HeapEngine.Proofs.Locks.Compatible
import HeapEngine.Proofs.Locks.Waking
import HeapEngine.Proofs.Storage.Equivalence
import HeapEngine.Proofs.Page.Layout
import HeapEngine.Proofs.Page.Exact
import HeapEngine.Proofs.Commutes
import HeapEngine.Proofs.Storage.Commuting
import HeapEngine.Proofs.Database.Commuting
import HeapEngine.Proofs.Database.Registrations
import HeapEngine.Proofs.Database.Spared
import HeapEngine.Proofs.Database.Answers
import HeapEngine.Proofs.Database.FirstFit
import HeapEngine.Proofs.Operation
import HeapEngine.Proofs.Pool.Recency
import HeapEngine.Proofs.Storage.Counts
import HeapEngine.Proofs.Database.Memory
import HeapEngine.Proofs.Database.Recency
import HeapEngine.Proofs.Database.Acquiring
import HeapEngine.Proofs.Database.Footprint
import HeapEngine.Proofs.Database.Checkpoint
import HeapEngine.Proofs.Page.Faithful
import HeapEngine.Proofs.Page.Corruption
import HeapEngine.Proofs.Database.Culling
import HeapEngine.Proofs.Page.Refill
import HeapEngine.Proofs.Value.Equality
import HeapEngine.Proofs.Value.Chain
import HeapEngine.Proofs.Locks.Releasing
import HeapEngine.Proofs.Page.Undo
import HeapEngine.Proofs.Page.Gaps
import HeapEngine.Proofs.Settings
import HeapEngine.Proofs.Database.Adopting
import HeapEngine.Proofs.Database.Rejected

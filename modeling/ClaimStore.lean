import ClaimStore.Backend
import ClaimStore.Batch
import ClaimStore.Buffer
import ClaimStore.Bytes
import ClaimStore.Cache
import ClaimStore.Client
import ClaimStore.Config.Decode
import ClaimStore.Config.Environment
import ClaimStore.Config.Load
import ClaimStore.Config.Options
import ClaimStore.Config.Setting
import ClaimStore.Description
import ClaimStore.Flexbuffer.Cursor
import ClaimStore.Flexbuffer.Layout
import ClaimStore.Flexbuffer.Tree
import ClaimStore.Flexbuffer.Writer
import ClaimStore.Load
import ClaimStore.Meter
import ClaimStore.Number.Binary
import ClaimStore.Number.Decimal
import ClaimStore.Number.Double
import ClaimStore.Number.Power
import ClaimStore.Number.Single
import ClaimStore.Pool.Claim
import ClaimStore.Pool.Key
import ClaimStore.Pool.State
import ClaimStore.PoolStore
import ClaimStore.Proofs.Batching
import ClaimStore.Proofs.Delivery
import ClaimStore.Proofs.Granting
import ClaimStore.Queue
import ClaimStore.Record
import ClaimStore.Registry
import ClaimStore.Request
import ClaimStore.Retry.Cursor
import ClaimStore.Retry.Iterator
import ClaimStore.Retry.Jitter
import ClaimStore.Retry.Loop
import ClaimStore.Retry.Policy
import ClaimStore.Snapshot
import ClaimStore.Sorting
import ClaimStore.Storage.Frame
import ClaimStore.Storage.Shape
import ClaimStore.Table
import ClaimStore.Text.Blank
import ClaimStore.Text.Digits
import ClaimStore.Text.Quoted
import ClaimStore.Text.Unprintable
import ClaimStore.Time.Clock
import ClaimStore.Time.Duration
import ClaimStore.Time.DurationText
import ClaimStore.Time.Timestamp
import ClaimStore.Timeline
import ClaimStore.Toml.Document
import ClaimStore.Toml.Lexeme
import ClaimStore.Toml.Scalar
import ClaimStore.Toml.Writer
import ClaimStore.Units
import ClaimStore.Version
import ClaimStore.Worker
import ClaimStore.Proofs.Worker.Turns
import ClaimStore.Proofs.Resolving
import ClaimStore.Proofs.Triggering
import ClaimStore.Proofs.Storage.Cuts
import ClaimStore.Proofs.Reception
import ClaimStore.Proofs.Isolation
import ClaimStore.Proofs.Config.Layers
import ClaimStore.Proofs.Pool.Units
import ClaimStore.Proofs.Pool.Coverage
import ClaimStore.Proofs.Visibility
import ClaimStore.Proofs.Shutdown
import ClaimStore.Proofs.Readers.System
import ClaimStore.Proofs.Readers
import ClaimStore.Proofs.Atomicity
import ClaimStore.Proofs.Number.Growth
import ClaimStore.Proofs.Time.Scaling
import ClaimStore.Proofs.Retry.Pauses
import ClaimStore.Proofs.Reception.Patience
import ClaimStore.Proofs.Pool.Queries
import ClaimStore.Proofs.Pool.Runs
import ClaimStore.Proofs.Recovery
import ClaimStore.Proofs.Pool.Refusals
import ClaimStore.Proofs.Pool.Grammar
import ClaimStore.Proofs.Records.Singles
import ClaimStore.Proofs.Records.CreateDelete
import ClaimStore.Proofs.Records.Generations
import ClaimStore.Proofs.Storage.Bounds
import ClaimStore.Proofs.Readers.Attempts
import ClaimStore.Proofs.Retry.Iterators
import ClaimStore.Proofs.Config.Fields
import ClaimStore.Proofs.Config.Layering
import ClaimStore.Proofs.Config.Texts
import ClaimStore.Proofs.Storage.Rooms
import ClaimStore.Proofs.Draining
import ClaimStore.Proofs.Metering

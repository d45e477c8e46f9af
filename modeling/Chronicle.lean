import Chronicle.Bench.Engine
import Chronicle.Bench.StreamRun
import Chronicle.Client
import Chronicle.Config
import Chronicle.CriticalSection.Tickets
import Chronicle.Driver.Handlers
import Chronicle.Gateway.Command
import Chronicle.Gateway.Query
import Chronicle.Metrics.Exposition
import Chronicle.Proofs.CriticalSection.Exclusion
import Chronicle.Proofs.CriticalSection.Visitors
import Chronicle.Proofs.Gateway.Atomicity
import Chronicle.Proofs.Gateway.Conflict
import Chronicle.Proofs.Gateway.Consistency
import Chronicle.Proofs.Gateway.Crowd
import Chronicle.Proofs.Gateway.Effect
import Chronicle.Proofs.Gateway.LifeCycle
import Chronicle.Proofs.Gateway.Local
import Chronicle.Proofs.Gateway.Plan
import Chronicle.Proofs.Gateway.Replay
import Chronicle.Proofs.Gateway.Serial
import Chronicle.Proofs.Gateway.Stages
import Chronicle.Proofs.Registry.Coherence
import Chronicle.Proofs.Registry.Order
import Chronicle.Proofs.Store.Log
import Chronicle.Proofs.Store.Segments
import Chronicle.Proofs.Store.Versions
import Chronicle.Proofs.Stream.Arrival
import Chronicle.Proofs.Stream.Batch
import Chronicle.Proofs.Stream.Forms
import Chronicle.Proofs.Stream.Loss
import Chronicle.Stream.EventStream
import Chronicle.Proofs.Store.SaveLoad
import Chronicle.Proofs.Bench.Codec
import Chronicle.Proofs.StoredTypes
import Chronicle.Proofs.Metadata
import Chronicle.Proofs.Store.Journal
import Chronicle.Proofs.CriticalSection.Line
import Chronicle.Proofs.CriticalSection.Turns
import Chronicle.Proofs.Stream.Shutdown
import Chronicle.Proofs.Stream.Lifecycle
import Chronicle.Proofs.Stream.Tally
import Chronicle.Proofs.Driver.Resubmission
import Chronicle.Proofs.Gateway.Tally
import Chronicle.Proofs.Config
import Chronicle.Proofs.Client
import Chronicle.Proofs.CommandName

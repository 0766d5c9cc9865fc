import AlertStatus.Session
import AlertStatus.Settings
import AlertStatus.Status.Debounce
import AlertStatus.Proofs.Status.Coherence
import AlertStatus.Proofs.Data.Maps
import AlertStatus.Proofs.Json.Numeral
import AlertStatus.Proofs.Json.Lexing
import AlertStatus.Proofs.Json.Rereading
import AlertStatus.Proofs.Json.Structures
import AlertStatus.Proofs.Status.Document
import AlertStatus.Proofs.Data.Ensures
import AlertStatus.Proofs.Store.Records
import AlertStatus.Proofs.Store.Faults
import AlertStatus.Proofs.Status.Runs
import AlertStatus.Proofs.Status.Expiry
import AlertStatus.Proofs.Text.ByteOrder
import AlertStatus.Proofs.Engine.Sweep
import AlertStatus.Proofs.Event.Document
import AlertStatus.Proofs.Event.Update
import AlertStatus.Proofs.Event.Merging
import AlertStatus.Proofs.Event.Retention
import AlertStatus.Proofs.Store.World
import AlertStatus.Proofs.Engine.Steps
import AlertStatus.Proofs.Engine.Agreement
import AlertStatus.Proofs.Engine.Incident
import AlertStatus.Proofs.Decimal.Rounding
import AlertStatus.Proofs.Decimal.Shortest
import AlertStatus.Proofs.Json.Scaling
import AlertStatus.Proofs.Json.Number
import AlertStatus.Proofs.Json.Soundness
import AlertStatus.Proofs.Status.Oscillation
import AlertStatus.Proofs.Engine.Unreadable
import AlertStatus.Proofs.Engine.Failure
import AlertStatus.Proofs.Engine.Chronicle
import AlertStatus.Proofs.Status.Adoption
import AlertStatus.Proofs.Data.Matching
import AlertStatus.Proofs.Store.Linked
import AlertStatus.Proofs.Status.Renewal
import AlertStatus.Proofs.Status.Forgetting
import AlertStatus.Proofs.Engine.Lockstep
import AlertStatus.Proofs.Store.Twins
import AlertStatus.Proofs.Engine.Equivalence
import AlertStatus.Proofs.Store.Region
import AlertStatus.Proofs.Engine.Independence
import AlertStatus.Proofs.Status.Threshold
import AlertStatus.Proofs.Status.Relapse
import AlertStatus.Proofs.Engine.Settling
import AlertStatus.Proofs.Status.Order
import AlertStatus.Proofs.Event.Address
import AlertStatus.Proofs.Engine.Sharing
import AlertStatus.Proofs.Engine.Cancellation
import AlertStatus.Proofs.Data.Refusal
import AlertStatus.Proofs.Http.Refusal
import AlertStatus.Proofs.Store.Archiving
import AlertStatus.Proofs.Engine.Lossless
import AlertStatus.Proofs.Engine.Recording
import AlertStatus.Proofs.Store.Custody
import AlertStatus.Proofs.Engine.Pinning
import AlertStatus.Proofs.Engine.Acknowledgement
import AlertStatus.Proofs.Engine.Atomicity
import AlertStatus.Proofs.Engine.Retry
import AlertStatus.Proofs.Engine.Isolation
import AlertStatus.Proofs.Event.Absorption
import AlertStatus.Proofs.Engine.Redelivery
import AlertStatus.Proofs.Status.Repetition
import AlertStatus.Proofs.Status.Unbounded
import AlertStatus.Proofs.Event.Normal
import AlertStatus.Proofs.Status.Index
import AlertStatus.Proofs.Engine.Patching

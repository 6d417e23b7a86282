import FaultContainment.Quarantine
import FaultContainment.Coordinator
import FaultContainment.Durability.Journal
import FaultContainment.Durability.Corruption
import FaultContainment.Durability.FailedRecovery
import FaultContainment.Transport.Wire
import FaultContainment.Documents.RoundTrip
import FaultContainment.Documents.Canonical
import FaultContainment.Dispatching.Lifecycle
import FaultContainment.Dispatching.HandOff
import FaultContainment.Dispatching.Reports
import FaultContainment.Dispatching.WriteAhead
import FaultContainment.Dispatching.Authentic
import FaultContainment.Dispatching.Stale
import FaultContainment.Radius.Fixpoint
import FaultContainment.Radius.Leaks
import FaultContainment.Releases
import FaultContainment.Incarnations
import FaultContainment.Rejections
import FaultContainment.Membership.Runs
import FaultContainment.References
import FaultContainment.Reassessment
import FaultContainment.Transport.Messages
import FaultContainment.Agreement
import FaultContainment.OperatorReports
import FaultContainment.Radius.Monotone
import FaultContainment.Ownership
import FaultContainment.Deduplication
import FaultContainment.Upkeep.Grants
import FaultContainment.Regrowth
import FaultContainment.AuthorityLoss
import FaultContainment.Transport.Frames
import FaultContainment.Durability.ReadBack
import FaultContainment.Radius.Indexes
import FaultContainment.Detail.Utf8Scan
import FaultContainment.Detail.Sha256
import FaultContainment.IdentityText
import FaultContainment.Preview
import FaultContainment.Control
import FaultContainment.Answers
import FaultContainment.Replay.Crash
import FaultContainment.Lib.Threads
import FaultContainment.Sessions.Handlers
import FaultContainment.Sessions.Outline
import FaultContainment.Sessions.Peers
import FaultContainment.Sessions.Identity
import FaultContainment.Sessions.Replica

import PaxosBus.Library.Transition
import PaxosBus.Common.Configuration
import PaxosBus.Common.Transport
import PaxosBus.Bus.Message
import PaxosBus.Bus.Replica
import PaxosBus.Bus.Client
import PaxosBus.Bus.Slots
import PaxosBus.Bus.System
import PaxosBus.Bus.Inflight
import PaxosBus.Bus.Committed
import PaxosBus.Common.Log
import PaxosBus.Spec.MergeLogs
import PaxosBus.Spec.Window
import PaxosBus.Spec.Vote
import PaxosBus.Spec.Phases
import PaxosBus.Spec.Assembly
import PaxosBus.Spec.MergedLog
import PaxosBus.Library.Quorum
import PaxosBus.Library.ViewLogs
import PaxosBus.Library.Handler
import PaxosBus.Common.ReplicaLog
import PaxosBus.Common.QuorumSet
import PaxosBus.Vr.Message
import PaxosBus.Vr.Replica
import PaxosBus.Vr.System
import PaxosBus.Vr.Definedness
import PaxosBus.Vr.Backing
import PaxosBus.Spec.FastQuorum
import PaxosBus.Vr.Operation
import PaxosBus.Vr.Transfer
import PaxosBus.Vr.ViewChange
import PaxosBus.Vr.Recovery
import PaxosBus.Vr.Invariant
import PaxosBus.Vr.Safety
import PaxosBus.Vr.Recovering
import PaxosBus.Library.Trace
import PaxosBus.Vr.Execution
import PaxosBus.Bus.Agreement
import PaxosBus.FastPaxos.Message
import PaxosBus.FastPaxos.Replica
import PaxosBus.FastPaxos.System
import PaxosBus.FastPaxos.Course
import PaxosBus.FastPaxos.Commitment
import PaxosBus.FastPaxos.Following
import PaxosBus.FastPaxos.Leading
import PaxosBus.FastPaxos.Invariant
import PaxosBus.FastPaxos.Agreement
import PaxosBus.FastPaxos.Durability
import PaxosBus.NoPaxos.Log
import PaxosBus.NoPaxos.Message
import PaxosBus.NoPaxos.Replica
import PaxosBus.NoPaxos.Client
import PaxosBus.NoPaxos.System
import PaxosBus.NoPaxos.Representation
import PaxosBus.NoPaxos.Rewinding
import PaxosBus.Bus.Accounting
import PaxosBus.Bus.Durability
import PaxosBus.Library.Bytes
import PaxosBus.Udp.Packet
import PaxosBus.Udp.Transport
import PaxosBus.Udp.Reassembly
import PaxosBus.Udp.OrderedMulticast
import PaxosBus.Library.Moves
import PaxosBus.NoPaxos.Moves
import PaxosBus.NoPaxos.Tracing
import PaxosBus.NoPaxos.Handling
import PaxosBus.NoPaxos.Shifts
import PaxosBus.NoPaxos.Dispatching
import PaxosBus.NoPaxos.Transferring
import PaxosBus.Library.Climbing
import PaxosBus.NoPaxos.Electing
import PaxosBus.Library.Returning
import PaxosBus.NoPaxos.Returning
import PaxosBus.NoPaxos.Installing
import PaxosBus.NoPaxos.Patching
import PaxosBus.NoPaxos.Requesting
import PaxosBus.NoPaxos.Adopting
import PaxosBus.NoPaxos.Merging
import PaxosBus.Library.Ascent
import PaxosBus.NoPaxos.Executing
import PaxosBus.NoPaxos.Completing
import PaxosBus.NoPaxos.Answering
import PaxosBus.Library.OrderedSet
import PaxosBus.NoPaxos.Pending
import PaxosBus.NoPaxos.Pointing
import PaxosBus.Spec.Message
import PaxosBus.Spec.Replica
import PaxosBus.Spec.Client
import PaxosBus.Spec.System
import PaxosBus.Common.HashChain
import PaxosBus.Spec.Conduct
import PaxosBus.Spec.Installing
import PaxosBus.Spec.Handling
import PaxosBus.Spec.Dispatching
import PaxosBus.Spec.Reading
import PaxosBus.Spec.Changing
import PaxosBus.Spec.Entering
import PaxosBus.Spec.Coherence
import PaxosBus.Spec.Syncing
import PaxosBus.Spec.Accessing
import PaxosBus.Spec.Joining
import PaxosBus.Bus.Frontier
import PaxosBus.Bus.Recovery
import PaxosBus.Bus.Gate
import PaxosBus.Bus.Detection
import PaxosBus.Bus.Counting
import PaxosBus.Bus.Writes
import PaxosBus.Bus.Restart
import PaxosBus.Spec.Rollback
import PaxosBus.Vr.Batching
import PaxosBus.Vr.Leading
import PaxosBus.Library.Tiling
import PaxosBus.Vr.Batches
import PaxosBus.Vr.Closing
import PaxosBus.Vr.Voting
import PaxosBus.Vr.Voters
import PaxosBus.Vr.Sufficing
import PaxosBus.Spec.Replies
import PaxosBus.Spec.Replying
import PaxosBus.Spec.Comparing
import PaxosBus.Common.Lookups
import PaxosBus.Common.HashedRuns
import PaxosBus.Common.Splicing
import PaxosBus.Bus.Spacing
import PaxosBus.Udp.Decoding
import PaxosBus.Udp.Malformed
import PaxosBus.Udp.Reordering
import PaxosBus.Udp.RoundTrip
import PaxosBus.Common.ConfigurationFile
import PaxosBus.Common.ConfigurationParsing
import PaxosBus.FastPaxos.Indices
import PaxosBus.FastPaxos.Service
import PaxosBus.Unreplicated.Service
import PaxosBus.Simulated.Numbering
import PaxosBus.Simulated.Timeout
import PaxosBus.Bus.CatchingUp
import PaxosBus.Library.Recounting
import PaxosBus.Vr.Answers
import PaxosBus.Vr.Service

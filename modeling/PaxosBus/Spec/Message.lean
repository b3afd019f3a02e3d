import PaxosBus.Spec.MergeLogs

/-!
# Messages of Speculative Paxos

One constructor for each message of `spec-proto.proto`. The hash of an empty log
is the empty string where a message asks for the hash at an operation number,
hence the optional hashes.
-/

set_option autoImplicit false

namespace PaxosBus.Spec

open PaxosBus.Common

variable {Hash : Type}

/-- An endpoint of the transport: a client, or one replica. -/
inductive Address where
  | client (clientid : Nat)
  | replica (replicaIdx : Nat)
deriving DecidableEq, Repr

/-- A client's request. -/
structure RequestMessage where
  req : Request
deriving DecidableEq, Repr

/-- A replica has executed the request at `opnum`, after the log with the given hash. -/
structure SpeculativeReplyMessage (Hash : Type) where
  clientreqid : Nat
  replicaidx : Nat
  view : Nat
  opnum : Nat
  loghash : Hash
  reply : String
  committed : Bool
deriving DecidableEq, Repr

/-- A request that is executed at once and not replicated. -/
structure UnloggedRequestMessage where
  op : String
deriving DecidableEq, Repr

/-- The result of an unlogged request. -/
structure UnloggedReplyMessage where
  reply : String
deriving DecidableEq, Repr

/-- The leader says how far its log goes, and how far it is committed. -/
structure SyncMessage (Hash : Type) where
  view : Nat
  lastcommitted : Nat
  lastcommittedhash : Option Hash
  lastspeculative : Nat
deriving DecidableEq, Repr

/-- The hash of the sender's log at `lastspeculative`. -/
structure SyncReplyMessage (Hash : Type) where
  view : Nat
  lastspeculative : Nat
  lastspeculativehash : Option Hash
  replicaidx : Nat
deriving DecidableEq, Repr

/-- A client has found the replicas of a view in disagreement. -/
structure RequestViewChangeMessage where
  view : Nat
deriving DecidableEq, Repr

/-- The sender has left its view for `view`. -/
structure StartViewChangeMessage where
  view : Nat
  replicaidx : Nat
  lastcommitted : Nat
deriving DecidableEq, Repr

/-- The leader of a view has started it with the log that ends in `entries`. -/
structure StartViewMessage (Hash : Type) where
  view : Nat
  lastspeculative : Nat
  lastcommitted : Nat
  entries : List (LogEntry Hash)
deriving DecidableEq, Repr

/-- The sender has entered the view with a log up to `lastspeculative`. -/
structure InViewMessage where
  view : Nat
  lastspeculative : Nat
  replicaidx : Nat
deriving DecidableEq, Repr

/-- The sender asks for a longer `StartViewMessage`. -/
structure FillLogGapMessage where
  view : Nat
  lastcommitted : Nat
deriving DecidableEq, Repr

/-- The sender asks for a longer `DoViewChangeMessage`. -/
structure FillDVCGapMessage where
  view : Nat
  lastcommitted : Nat
deriving DecidableEq, Repr

/-- A message of the protocol. -/
inductive Message (Hash : Type) where
  | request (msg : RequestMessage)
  | reply (msg : SpeculativeReplyMessage Hash)
  | unloggedRequest (msg : UnloggedRequestMessage)
  | unloggedReply (msg : UnloggedReplyMessage)
  | sync (msg : SyncMessage Hash)
  | syncReply (msg : SyncReplyMessage Hash)
  | requestViewChange (msg : RequestViewChangeMessage)
  | startViewChange (msg : StartViewChangeMessage)
  | doViewChange (msg : DoViewChangeMessage Hash)
  | startView (msg : StartViewMessage Hash)
  | inView (msg : InViewMessage)
  | fillLogGap (msg : FillLogGapMessage)
  | fillDVCGap (msg : FillDVCGapMessage)
deriving DecidableEq, Repr

/-- Where a replica sends a message: one endpoint, or every other replica. -/
inductive Destination where
  | one (addr : Address)
  | others
deriving DecidableEq, Repr

/-- `ReplicaStatus`, as far as this protocol uses it. -/
inductive Status where
  | normal
  | viewChange
deriving DecidableEq, Repr

/-- Which of the leader's quorums a commit rests on. -/
inductive Route where
  | syncReply
  | inView
deriving DecidableEq, Repr

/-- What a handler of a replica does besides changing its state: it sends messages, answers to a
`SyncMessage` among them, and marks the accesses to entries of a `DoViewChangeMessage` by operation
number, the views it enters and the commits by a quorum at a leader. Answers and marks are with where
the replica is then, and the log that it has there. -/
inductive Output (Hash : Type) where
  | send (destination : Destination) (msg : Message Hash)
  | read (msg : DoViewChangeMessage Hash) (opnum : Nat)
  | answering (replicaIdx : Nat) (msg : SyncReplyMessage Hash) (status : Status) (view : Nat)
      (log : List (LogEntry Hash))
  | entering (view : Nat) (log : List (LogEntry Hash))
  | committing (route : Route) (status : Status) (view opnum : Nat) (log : List (LogEntry Hash))
deriving DecidableEq, Repr

end PaxosBus.Spec

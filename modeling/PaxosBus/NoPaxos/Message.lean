import PaxosBus.NoPaxos.Log

/-!
# Messages of NOPaxos

One constructor for each message of `nopaxos-proto.proto`. The transport has
written the timestamp of the sequencer into a client's request.
-/

set_option autoImplicit false

namespace PaxosBus.NoPaxos

open PaxosBus.Common

/-- An endpoint of the transport: a client, or one replica. -/
inductive Address where
  | client (clientid : Nat)
  | replica (replicaIdx : Nat)
deriving DecidableEq, Repr

/-- A `Request` of which no field is set. -/
def noopRequest : Request := { op := "", clientid := 0, clientreqid := 0 }

/-- A client's request, which the sequencer has numbered. -/
structure RequestMessage where
  sessnum : Nat
  msgnum : Nat
  req : Request
deriving DecidableEq, Repr

/-- A replica has put the request at `opnum`; the leader says what the result is. -/
structure ReplyMessage where
  view : Nat
  sessnum : Nat
  opnum : Nat
  clientreqid : Nat
  replicaIdx : Nat
  reply : Option String
deriving DecidableEq, Repr

/-- A request that is executed at once and not replicated. -/
structure UnloggedRequestMessage where
  op : String
deriving DecidableEq, Repr

/-- The result of an unlogged request. -/
structure UnloggedReplyMessage where
  reply : String
deriving DecidableEq, Repr

/-- The sender has not received the operation at `opnum`. -/
structure GapRequestMessage where
  view : Nat
  sessnum : Nat
  opnum : Nat
deriving DecidableEq, Repr

/-- What the sender has at `opnum`. -/
structure GapReplyMessage where
  view : Nat
  sessnum : Nat
  opnum : Nat
  isfound : Bool
  isgap : Bool
  replicaIdx : Nat
  req : Request := noopRequest
deriving DecidableEq, Repr

/-- The sender asks for the entries from `begin_` to before `end_`. -/
structure StateTransferRequestMessage where
  sessnum : Nat
  view : Nat
  begin_ : Nat
  end_ : Nat
deriving DecidableEq, Repr

/-- The entries that were asked for. -/
structure StateTransferReplyMessage where
  sessnum : Nat
  view : Nat
  begin_ : Nat
  end_ : Nat
  entries : List Entry
deriving DecidableEq, Repr

/-- The leader has a NOOP at `opnum`. -/
structure GapCommitMessage where
  sessnum : Nat
  view : Nat
  opnum : Nat
deriving DecidableEq, Repr

/-- The sender has a NOOP at `opnum` as well. -/
structure GapCommitReplyMessage where
  sessnum : Nat
  view : Nat
  opnum : Nat
  replicaIdx : Nat
deriving DecidableEq, Repr

/-- The sender has left for a session and view. -/
structure ViewChangeRequestMessage where
  sessnum : Nat
  view : Nat
deriving DecidableEq, Repr

/-- What the sender brings to a session and view. -/
structure ViewChangeMessage where
  sessnum : Nat
  view : Nat
  lastnormalsessnum : Nat
  lastnormalview : Nat
  lastop : Nat
  committedgaps : List Nat
  replicaIdx : Nat
deriving DecidableEq, Repr

/-- What a session and view start with: the log of the last one that its leader knows of, up to
`lastop`, with these gaps. -/
structure StartViewMessage where
  sessnum : Nat
  view : Nat
  lastnormalsessnum : Nat
  lastnormalview : Nat
  lastop : Nat
  committedgaps : List Nat
deriving DecidableEq, Repr

/-- The sender has entered the session and view. -/
structure StartViewReplyMessage where
  sessnum : Nat
  view : Nat
  replicaIdx : Nat
deriving DecidableEq, Repr

/-- The sender asks for the last `SyncPrepare`. -/
structure SyncPrepareRequestMessage where
  sessnum : Nat
  view : Nat
deriving DecidableEq, Repr

/-- The leader has a log up to `lastop` with these gaps. -/
structure SyncPrepareMessage where
  sessnum : Nat
  view : Nat
  lastop : Nat
  committedgaps : List Nat
deriving DecidableEq, Repr

/-- The sender has the leader's log up to the point. -/
structure SyncPrepareReplyMessage where
  sessnum : Nat
  view : Nat
  syncpoint : Nat
  replicaIdx : Nat
deriving DecidableEq, Repr

/-- The leader has committed everything up to the point. -/
structure SyncCommitMessage where
  sessnum : Nat
  view : Nat
  syncpoint : Nat
deriving DecidableEq, Repr

/-- Any message of the protocol. -/
inductive Message where
  | request (msg : RequestMessage)
  | reply (msg : ReplyMessage)
  | unloggedRequest (msg : UnloggedRequestMessage)
  | unloggedReply (msg : UnloggedReplyMessage)
  | gapRequest (msg : GapRequestMessage)
  | gapReply (msg : GapReplyMessage)
  | gapCommit (msg : GapCommitMessage)
  | gapCommitReply (msg : GapCommitReplyMessage)
  | stateTransferRequest (msg : StateTransferRequestMessage)
  | stateTransferReply (msg : StateTransferReplyMessage)
  | viewChangeRequest (msg : ViewChangeRequestMessage)
  | viewChange (msg : ViewChangeMessage)
  | startView (msg : StartViewMessage)
  | startViewReply (msg : StartViewReplyMessage)
  | syncPrepareRequest (msg : SyncPrepareRequestMessage)
  | syncPrepare (msg : SyncPrepareMessage)
  | syncPrepareReply (msg : SyncPrepareReplyMessage)
  | syncCommit (msg : SyncCommitMessage)
deriving DecidableEq, Repr

/-- Where a message goes: to one endpoint, or to all the other replicas. -/
inductive Destination where
  | one (addr : Address)
  | others
deriving DecidableEq, Repr

/-- What a handler puts out: messages, and marks in the history of the run. `entering` marks a call
of `EnterView`, with the session and view before and after it, whether the replica leads the new
view, its last sync point and its last operation, and `entered` that the view is entered, with the
log at that moment. `gapCommitted` marks that the leader goes back to normal after a gap agreement,
and `merged` which last session and view the leader finds in a quorum for a view change: its own is
`own`, and those of the messages are `others`. `transferStarted` marks that a replica starts to wait
for the operations before `end_`, `processing` what a call of `ProcessNextOperation` finds as the
end of the awaited operations and as gaps, and `transferEnded` a call of `stateTransferCallback`,
with the length of the log at that moment. `executed` marks an `Execute` upcall, with its result and
whether `UpdateClientTable` is to store the result, and `repeated` a request that is the last one of
its client to be executed already, and whether the replica answers it again. -/
inductive Output where
  | send (dst : Destination) (msg : Message)
  | entering (current next : Nat × Nat) (leads : Bool) (point lastOp : Nat)
  | entered (sessnum view : Nat) (log : List Entry)
  | gapCommitted (sessnum view opnum : Nat)
  | merged (own : Nat × Nat) (others : List (Nat × Nat)) (latest : Nat × Nat)
  | transferStarted (end_ : Nat)
  | processing (opnum end_ : Nat) (committedgaps : List Nat)
  | transferEnded (end_ length : Nat)
  | executed (opnum : Nat) (request : Request) (result : String) (stored : Bool)
  | repeated (request : Request) (answers : Bool)
deriving DecidableEq, Repr

end PaxosBus.NoPaxos

import Mathlib.Algebra.Group.Nat.Defs
import PaxosBus.Common.Log

/-!
# Messages of Viewstamped Replication

One constructor for each message of `vr-proto.proto`, and what a handler can put
out: messages, upcalls to the application, and marks in the run's history.
-/

set_option autoImplicit false

namespace PaxosBus.Vr

open PaxosBus.Common

/-- The logs of this protocol are kept without hashes. -/
abbrev Entry := LogEntry Unit

/-- An endpoint of the transport: a client, or one replica. -/
inductive Address where
  | client (clientAddr : Nat)
  | replica (replicaIdx : Nat)
deriving DecidableEq, Repr

/-- A client's request. -/
structure RequestMessage where
  req : Request
deriving DecidableEq, Repr

/-- The result of a request. -/
structure ReplyMessage where
  view : Nat := 0
  opnum : Nat := 0
  reply : String := ""
  clientreqid : Nat := 0
deriving DecidableEq, Repr

/-- A request that is executed at once and not replicated. -/
structure UnloggedRequestMessage where
  op : String
deriving DecidableEq, Repr

/-- The result of an unlogged request. -/
structure UnloggedReplyMessage where
  reply : String
deriving DecidableEq, Repr

/-- The leader assigns a batch of requests to the numbers from `batchstart` to `opnum`. -/
structure PrepareMessage where
  view : Nat := 0
  opnum : Nat := 0
  batchstart : Nat := 0
  request : List Request := []
deriving DecidableEq, Repr

/-- A replica has everything up to `opnum` in its log. -/
structure PrepareOKMessage where
  view : Nat
  opnum : Nat
  replicaidx : Nat
deriving DecidableEq, Repr

/-- The leader has committed everything up to `opnum`. -/
structure CommitMessage where
  view : Nat
  opnum : Nat
deriving DecidableEq, Repr

/-- A replica asks for the log after its last committed operation. -/
structure RequestStateTransferMessage where
  view : Nat
  opnum : Nat
deriving DecidableEq, Repr

/-- The part of the log that was asked for. -/
structure StateTransferMessage where
  view : Nat
  opnum : Nat
  entries : List Entry
deriving DecidableEq, Repr

/-- A replica wants the view to change. -/
structure StartViewChangeMessage where
  view : Nat
  replicaidx : Nat
  lastcommitted : Nat
deriving DecidableEq, Repr

/-- A replica's vote for a view, with its log for the leader of that view. The field
`lastnormalview` is filled with the view of the last log entry. `normalView` is not in the
message: it records the last view in which the sender's status was normal. -/
structure DoViewChangeMessage where
  view : Nat
  lastnormalview : Nat
  lastop : Nat
  lastcommitted : Nat
  entries : List Entry
  replicaidx : Nat
  normalView : Nat
deriving DecidableEq, Repr

/-- The log that a view starts with. -/
structure StartViewMessage where
  view : Nat
  lastop : Nat
  lastcommitted : Nat
  entries : List Entry
deriving DecidableEq, Repr

/-- A replica that has lost its state asks for it. -/
structure RecoveryMessage where
  replicaidx : Nat
  nonce : Nat
deriving DecidableEq, Repr

/-- The answer to a recovering replica; only a leader fills in the log. -/
structure RecoveryResponseMessage where
  view : Nat
  nonce : Nat
  entries : List Entry := []
  lastop : Nat := 0
  lastcommitted : Nat := 0
  replicaidx : Nat
deriving DecidableEq, Repr

/-- Any message of the protocol. -/
inductive Message where
  | request (msg : RequestMessage)
  | reply (msg : ReplyMessage)
  | unloggedRequest (msg : UnloggedRequestMessage)
  | unloggedReply (msg : UnloggedReplyMessage)
  | prepare (msg : PrepareMessage)
  | prepareOK (msg : PrepareOKMessage)
  | commit (msg : CommitMessage)
  | requestStateTransfer (msg : RequestStateTransferMessage)
  | stateTransfer (msg : StateTransferMessage)
  | startViewChange (msg : StartViewChangeMessage)
  | doViewChange (msg : DoViewChangeMessage)
  | startView (msg : StartViewMessage)
  | recovery (msg : RecoveryMessage)
  | recoveryResponse (msg : RecoveryResponseMessage)
deriving DecidableEq, Repr

/-- Where a message goes: to one endpoint, or to all the other replicas. -/
inductive Destination where
  | one (addr : Address)
  | others
deriving DecidableEq, Repr

/-- What a handler puts out. The last two are marks for the run's history: the leader of
`view` has `PrepareOK(view, opnum)` from enough other replicas while its log is `entries`; the
leader of `view` has entered it with the log `entries`. -/
inductive Output where
  | send (dst : Destination) (msg : Message)
  | execute (opnum : Nat) (request : Request)
  | prepared (view opnum : Nat) (entries : List Entry)
  | started (view : Nat) (entries : List Entry)
deriving DecidableEq, Repr

end PaxosBus.Vr

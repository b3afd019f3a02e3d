import PaxosBus.Common.Log

/-!
# Messages of Fast Paxos

One constructor for each message of `fastpaxos-proto.proto`.
-/

set_option autoImplicit false

namespace PaxosBus.FastPaxos

open PaxosBus.Common

/-- The logs of this protocol are kept without hashes. -/
abbrev Entry := LogEntry Unit

/-- An endpoint of the transport: a client, or one replica. -/
inductive Address where
  | client (clientAddr : Nat)
  | replica (replicaIdx : Nat)
deriving DecidableEq, Repr

/-- A client's request. -/
structure RequestMessage where
  req : Request
deriving DecidableEq, Repr

/-- The result of a request. -/
structure ReplyMessage where
  view : Nat := 0
  opnum : Nat := 0
  reply : String := ""
  clientreqid : Nat := 0
deriving DecidableEq, Repr

/-- A request that is executed at once and not replicated. -/
structure UnloggedRequestMessage where
  op : String
deriving DecidableEq, Repr

/-- The result of an unlogged request. -/
structure UnloggedReplyMessage where
  reply : String
deriving DecidableEq, Repr

/-- The sender has the request at `opnum`: because a `Prepare` put it there if `slowpath` is not
zero, and otherwise because it was the next that reached the sender. -/
structure PrepareOKMessage where
  view : Nat
  opnum : Nat
  replicaIdx : Nat
  req : Request
  slowpath : Nat
deriving DecidableEq, Repr

/-- The leader has the request at `opnum`. -/
structure PrepareMessage where
  view : Nat := 0
  opnum : Nat := 0
  req : Request := { op := "", clientid := 0, clientreqid := 0 }
deriving DecidableEq, Repr

/-- The leader has committed everything up to `opnum`, where it has the request. -/
structure CommitMessage where
  view : Nat
  opnum : Nat
  req : Request
deriving DecidableEq, Repr

/-- A replica asks for the log after its last committed operation. -/
structure RequestStateTransferMessage where
  view : Nat
  opnum : Nat
deriving DecidableEq, Repr

/-- The part of the log that was asked for. -/
structure StateTransferMessage where
  view : Nat
  opnum : Nat
  entries : List Entry
  lastop : Nat
deriving DecidableEq, Repr

/-- Any message of the protocol. -/
inductive Message where
  | request (msg : RequestMessage)
  | reply (msg : ReplyMessage)
  | unloggedRequest (msg : UnloggedRequestMessage)
  | unloggedReply (msg : UnloggedReplyMessage)
  | prepare (msg : PrepareMessage)
  | prepareOK (msg : PrepareOKMessage)
  | commit (msg : CommitMessage)
  | requestStateTransfer (msg : RequestStateTransferMessage)
  | stateTransfer (msg : StateTransferMessage)
deriving DecidableEq, Repr

/-- Where a message goes: to one endpoint, or to all the other replicas. -/
inductive Destination where
  | one (addr : Address)
  | others
deriving DecidableEq, Repr

/-- What a handler puts out. -/
structure Send where
  dst : Destination
  msg : Message
deriving DecidableEq, Repr

end PaxosBus.FastPaxos

import Mathlib.Algebra.Group.Nat.Defs
import PaxosBus.Common.Configuration

/-!
# Messages of the PaxosBus protocol

One constructor for each message of `paxosbus-proto.proto`. A slot is named by
the pair of a client id and a sequence number, which doubles as the log slot.
-/

set_option autoImplicit false

namespace PaxosBus.Bus

open PaxosBus.Common

/-- An endpoint of the transport: the process of one client, or one replica. -/
inductive Address where
  | client (clientId : Nat)
  | replica (replicaIdx : Nat)
deriving DecidableEq, Repr

/-- Clock synchronisation, sent by a client before its data phase. -/
structure SyncMessage where
  clientId : Nat
  sendTimeNs : Nat
  intervalMs : Nat
  startDelayMs : Nat
deriving DecidableEq, Repr

/-- One attempt of a logical request, occupying one slot of the client's stream. -/
structure DataMessage where
  clientId : Nat
  seqNum : Nat
  sendTimeNs : Nat
  payload : String
  appReqId : Nat
deriving DecidableEq, Repr

/-- Acknowledgement of a data message, unicast to the client. -/
structure DataReplyMessage where
  clientId : Nat
  seqNum : Nat
  viewId : Nat
  logSlotNum : Nat
  replicaIdx : Nat
deriving DecidableEq, Repr

/-- A follower asks the leader for a slot it is missing. -/
structure GapRequestMessage where
  clientId : Nat
  seqNum : Nat
  viewId : Nat
  replicaIdx : Nat
deriving DecidableEq, Repr

/-- The leader serves a slot to the follower that asked for it. -/
structure GapReplyMessage where
  clientId : Nat
  seqNum : Nat
  viewId : Nat
  replicaIdx : Nat
  found : Bool
  sendTimeNs : Nat
  payload : String
deriving DecidableEq, Repr

/-- The leader commits a slot as a NoOp. -/
structure GapCommitMessage where
  clientId : Nat
  seqNum : Nat
  viewId : Nat
deriving DecidableEq, Repr

/-- A follower acknowledges a NoOp commit. -/
structure GapCommitReplyMessage where
  clientId : Nat
  seqNum : Nat
  viewId : Nat
  replicaIdx : Nat
deriving DecidableEq, Repr

/-- Any message of the protocol. -/
inductive Message where
  | sync (msg : SyncMessage)
  | data (msg : DataMessage)
  | dataReply (msg : DataReplyMessage)
  | gapRequest (msg : GapRequestMessage)
  | gapReply (msg : GapReplyMessage)
  | gapCommit (msg : GapCommitMessage)
  | gapCommitReply (msg : GapCommitReplyMessage)
deriving DecidableEq, Repr

/-- A message handed to the transport for one destination. -/
structure Send where
  dst : Address
  msg : Message
deriving DecidableEq, Repr

/-- A message on its way from one endpoint to another. -/
structure Packet where
  src : Address
  dst : Address
  msg : Message
deriving DecidableEq, Repr

/-- `Transport::SendMessageToAll` by a client: one copy for each replica. -/
def sendToReplicas (config : Configuration) (msg : Message) : List Send :=
  (List.range config.n).map fun idx => { dst := .replica idx, msg }

/-- `Transport::SendMessageToAll` by a replica skips the sender's own address. -/
def sendToOthers (config : Configuration) (self : Nat) (msg : Message) : List Send :=
  ((List.range config.n).filter (· ≠ self)).map fun idx => { dst := .replica idx, msg }

/-- What a replica broadcasts reaches other replicas only. -/
@[simp] theorem mem_sendToOthers {config : Configuration} {self : Nat} {msg : Message}
    {send : Send} : send ∈ sendToOthers config self msg ↔
      ∃ idx, idx < config.n ∧ idx ≠ self ∧ send = ⟨.replica idx, msg⟩ := by
  simp only [sendToOthers, List.mem_map, List.mem_filter, List.mem_range, decide_eq_true_eq]
  constructor
  · rintro ⟨idx, ⟨bounded, other⟩, rfl⟩
    exact ⟨idx, bounded, other, rfl⟩
  · rintro ⟨idx, bounded, other, rfl⟩
    exact ⟨idx, ⟨bounded, other⟩, rfl⟩

/-- What a client broadcasts reaches every replica. -/
@[simp] theorem mem_sendToReplicas {config : Configuration} {msg : Message} {send : Send} :
    send ∈ sendToReplicas config msg ↔ ∃ idx, idx < config.n ∧ send = ⟨.replica idx, msg⟩ := by
  simp only [sendToReplicas, List.mem_map, List.mem_range]
  constructor
  · rintro ⟨idx, bounded, rfl⟩
    exact ⟨idx, bounded, rfl⟩
  · rintro ⟨idx, bounded, rfl⟩
    exact ⟨idx, bounded, rfl⟩

end PaxosBus.Bus

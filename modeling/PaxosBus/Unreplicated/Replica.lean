import PaxosBus.Common.ReplicaLog
import PaxosBus.Library.Handler

/-!
# The replica that is not replicated

`UnreplicatedReplica` executes each request as it comes, and answers a duplicate
with the reply that it has sent. A failed `ASSERT` or a `Panic` stops it.
-/

set_option autoImplicit false

namespace PaxosBus.Unreplicated

open PaxosBus.Common PaxosBus.Library

/-- An endpoint of the transport: a client, or one replica. -/
inductive Address where
  | client (clientAddr : Nat)
  | replica (replicaIdx : Nat)
deriving DecidableEq, Repr

/-- A client's request. -/
structure RequestMessage where
  req : Request
deriving DecidableEq, Repr

/-- The result of a request. -/
structure ReplyMessage where
  view : Nat := 0
  opnum : Nat := 0
  req : Request := { op := "", clientid := 0, clientreqid := 0 }
  reply : String := ""
deriving DecidableEq, Repr

/-- A request that is not logged. -/
structure UnloggedRequestMessage where
  req : Request
deriving DecidableEq, Repr

/-- The result of an unlogged request. -/
structure UnloggedReplyMessage where
  reply : String
deriving DecidableEq, Repr

/-- Any message of the protocol. -/
inductive Message where
  | request (msg : RequestMessage)
  | reply (msg : ReplyMessage)
  | unloggedRequest (msg : UnloggedRequestMessage)
  | unloggedReply (msg : UnloggedReplyMessage)
deriving DecidableEq, Repr

/-- What a handler puts out: a message to one endpoint. -/
structure Send where
  dst : Address
  msg : Message
deriving DecidableEq, Repr

/-- What the application answers to the upcalls of one step. -/
structure App where
  execute : Request → String := fun _ => ""
  executeUnlogged : String → String := fun _ => ""

/-- `ClientTableEntry`. -/
structure ClientTableEntry where
  lastReqId : Nat := 0
  reply : ReplyMessage := {}
deriving DecidableEq, Repr

/-- The state of an `UnreplicatedReplica`. The last field is history that no handler reads: the
requests that the replica has had the application execute, in order. -/
structure Replica where
  lastOp : Nat := 0
  log : Log Unit := Log.new ⟨fun _ _ _ => (), ()⟩ false
  clientTable : Nat → Option ClientTableEntry := fun _ => none
  executed : List Request := []

/-- A piece of the replica's program. -/
abbrev Run (α : Type) := Handler Replica Send α

open Handler

/-- `Transport::SendMessage`. -/
def sendMessage (remote : Address) (msg : Message) : Run Unit := emit { dst := remote, msg := msg }

namespace Replica

/-- `clientTable[clientid]`, which creates an entry where there is none. -/
def tableEntry (r : Replica) (clientid : Nat) : ClientTableEntry := (r.clientTable clientid).getD {}

/-- Replace the table entry of a client. -/
def setTableEntry (r : Replica) (clientid : Nat) (entry : ClientTableEntry) : Replica :=
  { r with clientTable := Function.update r.clientTable clientid (some entry) }

end Replica

variable (app : App)

/-- `UnreplicatedReplica::UpdateClientTable`. -/
def updateClientTable (req : Request) (reply : ReplyMessage) : Run Unit := do
  let r ← get
  let entry := r.tableEntry req.clientid
  modify (·.setTableEntry req.clientid entry)
  require (entry.lastReqId ≤ req.clientreqid)
  if entry.lastReqId = req.clientreqid then
    pure ()
  else
    modify (·.setTableEntry req.clientid { lastReqId := req.clientreqid, reply := reply })

/-- The part of `HandleRequest` that handles a request which is not a duplicate. -/
def executeRequest (remote : Address) (msg : RequestMessage) : Run Unit := do
  modify fun r => { r with lastOp := r.lastOp + 1 }
  let r ← get
  let log ← demand (r.log.append { view := 0, opnum := r.lastOp } msg.req .received)
  modify fun r => { r with log := log, executed := r.executed ++ [msg.req] }
  let reply : ReplyMessage :=
    { view := 0, opnum := 0, req := msg.req, reply := app.execute msg.req }
  sendMessage remote (.reply reply)
  updateClientTable msg.req reply

/-- `UnreplicatedReplica::HandleRequest`. -/
def handleRequest (remote : Address) (msg : RequestMessage) : Run Unit := do
  let r ← get
  match r.clientTable msg.req.clientid with
  | none => executeRequest app remote msg
  | some entry =>
    if msg.req.clientreqid < entry.lastReqId then
      pure ()
    else if msg.req.clientreqid = entry.lastReqId then
      sendMessage remote (.reply entry.reply)
    else
      executeRequest app remote msg

/-- `UnreplicatedReplica::HandleUnloggedRequest`. -/
def handleUnloggedRequest (remote : Address) (msg : UnloggedRequestMessage) : Run Unit :=
  sendMessage remote (.unloggedReply { reply := app.executeUnlogged msg.req.op })

/-- `UnreplicatedReplica::ReceiveMessage`. A reply is no message for a replica. -/
def receiveMessage (remote : Address) : Message → Run Unit
  | .request msg => handleRequest app remote msg
  | .unloggedRequest msg => handleUnloggedRequest app remote msg
  | .reply _ => stop
  | .unloggedReply _ => stop

/-! ## What the replica does with a request -/

/-- What a replica is like between two messages. -/
structure Replica.Sound (r : Replica) : Prop where
  start : r.log.start = 1
  log : r.log.requests = r.executed
  lastOp : r.lastOp = r.executed.length
  /-- The table knows the last request of each client that has been executed. -/
  table : ∀ req ∈ r.executed, 0 < req.clientreqid → ∃ entry,
    r.clientTable req.clientid = some entry ∧ req.clientreqid ≤ entry.lastReqId

variable {app} {r : Replica} {remote : Address} {msg : RequestMessage}

/-- The client table does not know the request. -/
def Replica.Fresh (r : Replica) (req : Request) : Prop :=
  ∀ entry, r.clientTable req.clientid = some entry → entry.lastReqId < req.clientreqid

/-- The reply to a request that the replica executes. -/
def reply (app : App) (req : Request) : ReplyMessage where
  req := req
  reply := app.execute req

/-- The replica after it has executed a request. -/
def Replica.execute (r : Replica) (app : App) (req : Request) (log : Log Unit) : Replica where
  lastOp := r.lastOp + 1
  log := log
  clientTable := Function.update r.clientTable req.clientid
    (some { lastReqId := req.clientreqid, reply := reply app req })
  executed := r.executed ++ [req]

/-- The next operation can always be appended. -/
theorem Replica.Sound.appends (sound : r.Sound) (req : Request) :
    ∃ log, r.log.append { view := 0, opnum := r.lastOp + 1 } req .received = some log := by
  have appendable : r.log.Appendable { view := 0, opnum := r.lastOp + 1 } := by
    have length := congrArg List.length sound.log
    rw [Log.length_requests] at length
    rw [Log.appendable_iff, sound.start, sound.lastOp, length]
    exact Nat.add_comm _ _
  unfold Log.append
  rw [dif_pos appendable]
  exact ⟨_, rfl⟩

/-- A fresh request is newer than what the client table has for its client. -/
theorem Replica.Fresh.tableEntry_lt (fresh : r.Fresh msg.req) (positive : 0 < msg.req.clientreqid) :
    (r.tableEntry msg.req.clientid).lastReqId < msg.req.clientreqid := by
  unfold Replica.tableEntry
  cases found : r.clientTable msg.req.clientid with
  | none => exact positive
  | some entry => exact fresh entry found

/-- A newer request replaces what the client table has for its client. -/
theorem updateClientTable_eq {req : Request} {reply : ReplyMessage}
    (newer : (r.tableEntry req.clientid).lastReqId < req.clientreqid) :
    updateClientTable req reply r =
      ⟨{ r with
          clientTable := Function.update r.clientTable req.clientid
            (some { lastReqId := req.clientreqid, reply := reply }) }, [], some ()⟩ := by
  unfold updateClientTable
  rw [get_bind]
  show (require _ >>= _) (r.setTableEntry req.clientid (r.tableEntry req.clientid)) = _
  rw [require_bind, if_pos (Nat.le_of_lt newer), if_neg (Nat.ne_of_lt newer)]
  show (⟨(r.setTableEntry _ _).setTableEntry _ _, [], some ()⟩ : Outcome Replica Send Unit) = _
  unfold Replica.setTableEntry
  rw [Function.update_idem]

/-- A fresh request is executed, and no assertion fails. -/
theorem executeRequest_eq {log : Log Unit} (fresh : r.Fresh msg.req)
    (positive : 0 < msg.req.clientreqid)
    (appended : r.log.append { view := 0, opnum := r.lastOp + 1 } msg.req .received = some log) :
    executeRequest app remote msg r =
      ⟨r.execute app msg.req log, [⟨remote, .reply (reply app msg.req)⟩], some ()⟩ := by
  have newer := fresh.tableEntry_lt positive
  unfold executeRequest
  show (demand (r.log.append _ _ _) >>= _) { r with lastOp := r.lastOp + 1 } = _
  rw [demand_bind, appended]
  have updated : updateClientTable msg.req (reply app msg.req) { r with
      lastOp := r.lastOp + 1, log := log, executed := r.executed ++ [msg.req] } = _ :=
    updateClientTable_eq newer
  show Outcome.mk (updateClientTable msg.req (reply app msg.req) _).state
    ([_] ++ (updateClientTable msg.req (reply app msg.req) _).outputs)
    (updateClientTable msg.req (reply app msg.req) _).value = _
  rw [updated]
  rfl

/-- Executing a request leaves the replica sound. -/
theorem Replica.Sound.execute (sound : r.Sound) {req : Request} {log : Log Unit}
    (fresh : r.Fresh req)
    (appended : r.log.append { view := 0, opnum := r.lastOp + 1 } req .received = some log) :
    (r.execute app req log).Sound where
  start := (Log.of_append appended).2.1.trans sound.start
  log := by
    show log.requests = r.executed ++ [req]
    rw [Log.requests_of_append appended, sound.log]
  lastOp := by
    show r.lastOp + 1 = (r.executed ++ [req]).length
    rw [List.length_append, sound.lastOp]
    rfl
  table := by
    intro other member positive
    show ∃ entry, Function.update r.clientTable req.clientid _ other.clientid = some entry ∧ _
    by_cases who : other.clientid = req.clientid
    · rw [who, Function.update_self]
      refine ⟨_, rfl, ?_⟩
      rcases List.mem_append.mp member with before | new
      · obtain ⟨entry, known, le⟩ := sound.table other before positive
        exact le.trans (Nat.le_of_lt (fresh entry (who ▸ known)))
      · obtain rfl := List.mem_singleton.mp new
        exact Nat.le_refl _
    · rw [Function.update_of_ne who]
      rcases List.mem_append.mp member with before | new
      · exact sound.table other before positive
      · obtain rfl := List.mem_singleton.mp new
        exact absurd rfl who

/-- What the replica does with a request: it ignores a stale one, repeats the reply to the last
one of the client, and executes a fresh one. -/
theorem handleRequest_cases (sound : r.Sound) (positive : 0 < msg.req.clientreqid) :
    (∃ entry, r.clientTable msg.req.clientid = some entry ∧
        msg.req.clientreqid < entry.lastReqId ∧
        handleRequest app remote msg r = ⟨r, [], some ()⟩) ∨
      (∃ entry, r.clientTable msg.req.clientid = some entry ∧
        msg.req.clientreqid = entry.lastReqId ∧
        handleRequest app remote msg r = ⟨r, [⟨remote, .reply entry.reply⟩], some ()⟩) ∨
      ∃ log, r.Fresh msg.req ∧
        r.log.append { view := 0, opnum := r.lastOp + 1 } msg.req .received = some log ∧
        handleRequest app remote msg r =
          ⟨r.execute app msg.req log, [⟨remote, .reply (reply app msg.req)⟩], some ()⟩ := by
  obtain ⟨log, appended⟩ := sound.appends msg.req
  unfold handleRequest
  rw [get_bind]
  cases found : r.clientTable msg.req.clientid with
  | none =>
      have fresh : r.Fresh msg.req := by
        intro entry known
        cases found.symm.trans known
      exact .inr (.inr ⟨log, fresh, appended, executeRequest_eq fresh positive appended⟩)
  | some entry =>
      simp only
      rcases Nat.lt_trichotomy msg.req.clientreqid entry.lastReqId with older | same | newer
      · rw [if_pos older]
        exact .inl ⟨entry, rfl, older, rfl⟩
      · rw [if_neg (Nat.not_lt.mpr (Nat.le_of_eq same.symm)), if_pos same]
        exact .inr (.inl ⟨entry, rfl, same, rfl⟩)
      · have fresh : r.Fresh msg.req := by
          intro known there
          cases found.symm.trans there
          exact newer
        rw [if_neg (Nat.not_lt.mpr (Nat.le_of_lt newer)), if_neg (Nat.ne_of_gt newer)]
        exact .inr (.inr ⟨log, fresh, appended, executeRequest_eq fresh positive appended⟩)

end PaxosBus.Unreplicated

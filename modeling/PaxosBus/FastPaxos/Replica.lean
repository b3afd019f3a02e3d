import PaxosBus.Common.Configuration
import PaxosBus.Common.QuorumSet
import PaxosBus.Common.ReplicaLog
import PaxosBus.FastPaxos.Message
import PaxosBus.Library.Handler

/-!
# The replica of Fast Paxos

The handlers and timer callbacks of `FastPaxosReplica`. A failed `ASSERT` or a
`Panic` stops the replica with what it has done by then; the checks that only a
`PARANOID` build makes are not there. Numbers of views and operations are
unbounded. A timeout is a flag that says whether it is running; it stays running
when it fires.
-/

set_option autoImplicit false

namespace PaxosBus.FastPaxos

open PaxosBus.Common PaxosBus.Library
open Std (TreeMap)

/-- `ReplicaStatus`. -/
inductive Status where
  | normal
  | viewChange
  | recovering
  | gapCommit
deriving DecidableEq, Repr

/-- What the application answers to the upcalls of one step. -/
structure App where
  execute : Nat → Request → String := fun _ _ => ""
  executeUnlogged : String → String := fun _ => ""

/-- What a replica is constructed with. -/
structure Setup where
  configuration : Configuration
  replicaIdx : Nat

/-- `ClientTableEntry`. -/
structure ClientTableEntry where
  lastReqId : Nat := 0
  replied : Bool := false
  reply : ReplyMessage := {}
deriving DecidableEq, Repr

/-- The state of a `FastPaxosReplica`. The last field is history that no handler reads: the
requests that the replica has had the application execute, in order. -/
structure Replica where
  status : Status := .normal
  view : Nat := 0
  lastCommitted : Nat := 0
  lastFastPath : Nat := 0
  lastSlowPath : Nat := 0
  lastRequestStateTransferView : Nat := 0
  lastRequestStateTransferOpnum : Nat := 0
  pendingPrepares : List (Address × PrepareMessage) := []
  pendingPrepareOKs : List (Address × PrepareOKMessage) := []
  lastPrepare : PrepareMessage := {}
  log : Log Unit := Log.new ⟨fun _ _ _ => (), ()⟩ false
  clientAddresses : Nat → Option Address := fun _ => none
  clientTable : Nat → Option ClientTableEntry := fun _ => none
  slowPrepareOKQuorum : QuorumSet Viewstamp PrepareOKMessage
  fastPrepareOKQuorum : QuorumSet Viewstamp PrepareOKMessage
  stateTransferTimeout : Bool := true
  resendPrepareTimeout : Bool := false
  executed : List Request := []

/-- A piece of a replica's program. -/
abbrev Run (α : Type) := Handler Replica Send α

namespace Setup

variable (setup : Setup)

/-- `FastPaxosReplica::AmLeader` in a view. -/
def AmLeader (view : Nat) : Prop := setup.configuration.getLeaderIndex view = setup.replicaIdx

instance (view : Nat) : Decidable (setup.AmLeader view) :=
  inferInstanceAs (Decidable (_ = _))

end Setup

open Handler

/-- `Transport::SendMessageToAll`. -/
def sendToAll (msg : Message) : Run Unit := emit { dst := .others, msg := msg }

/-- `Transport::SendMessageToReplica`. -/
def sendToReplica (replicaIdx : Nat) (msg : Message) : Run Unit :=
  emit { dst := .one (.replica replicaIdx), msg := msg }

/-- `Transport::SendMessage`. -/
def sendMessage (remote : Address) (msg : Message) : Run Unit :=
  emit { dst := .one remote, msg := msg }

namespace Replica

/-- `clientTable[clientid]`, which creates an entry where there is none. -/
def tableEntry (r : Replica) (clientid : Nat) : ClientTableEntry := (r.clientTable clientid).getD {}

/-- Replace the table entry of a client. -/
def setTableEntry (r : Replica) (clientid : Nat) (entry : ClientTableEntry) : Replica :=
  { r with clientTable := Function.update r.clientTable clientid (some entry) }

/-- The part of `CommitUpTo` that stores a reply in the client table. -/
def storeReply (r : Replica) (request : Request) (reply : ReplyMessage) : Replica :=
  if (r.tableEntry request.clientid).lastReqId ≤ request.clientreqid then
    r.setTableEntry request.clientid
      { lastReqId := request.clientreqid, replied := true, reply := reply }
  else
    r

/-- `FastPaxosReplica::EnterView`. -/
def enterView (r : Replica) (newview : Nat) : Replica :=
  { r with
    view := newview
    status := .normal
    fastPrepareOKQuorum := r.fastPrepareOKQuorum.clear
    slowPrepareOKQuorum := r.slowPrepareOKQuorum.clear }

/-- `FastPaxosReplica::UpdateClientTable`. -/
def updateClientTable (r : Replica) (req : Request) : Replica :=
  let entry := r.tableEntry req.clientid
  if req.clientreqid ≤ entry.lastReqId then
    r.setTableEntry req.clientid entry
  else
    r.setTableEntry req.clientid { lastReqId := req.clientreqid }

/-- The end of `CommitUpTo`: what is committed was on the slow path. -/
def raiseSlowPath (r : Replica) : Replica :=
  { r with lastSlowPath := max r.lastSlowPath r.lastCommitted }

end Replica

variable (setup : Setup) (app : App)

/-- One round of the loop of `CommitUpTo`. -/
def commitNext : Run Unit := do
  modify fun r => { r with lastCommitted := r.lastCommitted + 1 }
  let r ← get
  let opnum := r.lastCommitted
  let entry ← demand (r.log.find opnum)
  modify fun r => { r with executed := r.executed ++ [entry.request] }
  let reply : ReplyMessage :=
    { view := entry.viewstamp.view, opnum := entry.viewstamp.opnum,
      reply := app.execute opnum entry.request, clientreqid := entry.request.clientreqid }
  modify fun r => { r with log := (r.log.setStatus opnum .committed).1 }
  modify (·.storeReply entry.request reply)
  match r.clientAddresses entry.request.clientid with
  | some addr => sendMessage addr (.reply reply)
  | none => pure ()

/-- `FastPaxosReplica::CommitUpTo`. -/
def commitUpTo (upto : Nat) : Run Unit := do
  let r ← get
  repeated (upto - r.lastCommitted) (commitNext app)
  modify (·.raiseSlowPath)
  let r ← get
  require (r.lastCommitted ≤ r.lastFastPath)

/-- One round of the loop of `SendPrepareOKs`. -/
def sendPrepareOK (i : Nat) : Run Unit := do
  let r ← get
  if i ≤ r.lastCommitted then
    pure ()
  else
    let entry ← demand (r.log.find i)
    require (entry.state = .prepared)
    modify (·.updateClientTable entry.request)
    sendToReplica (setup.configuration.getLeaderIndex r.view)
      (.prepareOK { view := r.view, opnum := i, replicaIdx := setup.replicaIdx,
                    req := entry.request, slowpath := 1 })

/-- `FastPaxosReplica::SendPrepareOKs`. -/
def sendPrepareOKs (oldLastOp : Nat) : Run Unit := do
  let r ← get
  forEach (List.range' oldLastOp (r.lastSlowPath + 1 - oldLastOp)) (sendPrepareOK setup)

/-- `FastPaxosReplica::RequestStateTransfer`. -/
def requestStateTransfer : Run Unit := do
  let r ← get
  if r.lastRequestStateTransferOpnum ≠ 0 ∧ r.lastRequestStateTransferView = r.view ∧
      r.lastRequestStateTransferOpnum = r.lastCommitted then
    pure ()
  else
    modify fun r =>
      { r with
        lastRequestStateTransferView := r.view
        lastRequestStateTransferOpnum := r.lastCommitted }
    sendToAll (.requestStateTransfer { view := r.view, opnum := r.lastCommitted })

/-- `FastPaxosReplica::ResendPrepare`. -/
def resendPrepare : Run Unit := do
  let r ← get
  require (setup.AmLeader r.view)
  if r.lastSlowPath = r.lastCommitted then
    pure ()
  else
    modify fun r => { r with resendPrepareTimeout := true }
    sendToAll (.prepare r.lastPrepare)

/-- The quorum branch of `HandlePrepareOK`, for a quorum that needs `numRequired` messages. -/
def commitPrepared (msg : PrepareOKMessage) (request : Request) (numRequired : Nat)
    (msgs : TreeMap Nat PrepareOKMessage) : Run Unit := do
  commitUpTo app msg.opnum
  if numRequired < msgs.size then
    pure ()
  else
    let r ← get
    sendToAll (.commit { view := r.view, opnum := r.lastCommitted, req := request })

/-- The part of `HandlePrepareOK` that counts an acknowledgement of the leader's request. -/
def countPrepareOK (msg : PrepareOKMessage) (request : Request) : Run Unit := do
  let r ← get
  let vs : Viewstamp := { view := msg.view, opnum := msg.opnum }
  if msg.slowpath ≠ 0 then
    let (quorum, found) := r.slowPrepareOKQuorum.addAndCheckForQuorum vs msg.replicaIdx msg
    modify fun r => { r with slowPrepareOKQuorum := quorum }
    match found with
    | none => pure ()
    | some msgs => commitPrepared app msg request quorum.numRequired msgs
  else
    let (quorum, found) := r.fastPrepareOKQuorum.addAndCheckForQuorum vs msg.replicaIdx msg
    modify fun r => { r with fastPrepareOKQuorum := quorum }
    match found with
    | none => pure ()
    | some msgs => commitPrepared app msg request quorum.numRequired msgs

/-- `FastPaxosReplica::HandlePrepareOK`. -/
def handlePrepareOK (remote : Address) (msg : PrepareOKMessage) : Run Unit := do
  let r ← get
  if r.status ≠ .normal then
    pure ()
  else if msg.view < r.view then
    pure ()
  else if r.view < msg.view then
    requestStateTransfer
  else if ¬ setup.AmLeader r.view then
    pure ()
  else if msg.opnum ≤ r.lastCommitted then
    pure ()
  else if r.lastSlowPath < msg.opnum then
    modify fun r => { r with pendingPrepareOKs := r.pendingPrepareOKs ++ [(remote, msg)] }
  else
    let entry ← demand (r.log.find msg.opnum)
    require (entry.state = .prepared)
    if msg.slowpath = 0 ∧ (entry.request.clientid ≠ msg.req.clientid ∨
        entry.request.clientreqid ≠ msg.req.clientreqid) then
      resendPrepare setup
    else
      countPrepareOK app msg entry.request

/-- The part of `HandleRequest` in which the leader adds a new request. -/
def acceptRequest (msg : RequestMessage) : Run Unit := do
  let r ← get
  require (r.lastFastPath = r.lastSlowPath)
  let opnum := r.lastSlowPath + 1
  let log ← demand (r.log.append { view := r.view, opnum := opnum } msg.req .prepared)
  modify fun r =>
    { r with
      lastSlowPath := opnum
      lastFastPath := opnum
      log := log
      lastPrepare := { view := r.view, opnum := opnum, req := msg.req }
      resendPrepareTimeout := true }
  let r ← get
  modify fun r => { r with pendingPrepareOKs := [] }
  forEach r.pendingPrepareOKs fun (remote, prepareOK) => handlePrepareOK setup app remote prepareOK

/-- The part of `HandleRequest` in which a follower guesses where the leader adds a request. -/
def guessRequest (msg : RequestMessage) : Run Unit := do
  let r ← get
  let opnum := r.lastFastPath + 1
  let log ← demand (r.log.append { view := r.view, opnum := opnum } msg.req .prepared)
  modify fun r => { r with lastFastPath := opnum, log := log }
  sendToReplica (setup.configuration.getLeaderIndex r.view)
    (.prepareOK { view := r.view, opnum := opnum, replicaIdx := setup.replicaIdx,
                  req := msg.req, slowpath := 0 })

/-- The part of `HandleRequest` that handles a request which is not a duplicate. -/
def newRequest (msg : RequestMessage) : Run Unit := do
  modify (·.updateClientTable msg.req)
  let r ← get
  if setup.AmLeader r.view then
    acceptRequest setup app msg
  else
    guessRequest setup msg

/-- `FastPaxosReplica::HandleRequest`. -/
def handleRequest (remote : Address) (msg : RequestMessage) : Run Unit := do
  let r ← get
  if r.status ≠ .normal then
    pure ()
  else
    modify fun r =>
      { r with
        clientAddresses := Function.update r.clientAddresses msg.req.clientid (some remote) }
    match r.clientTable msg.req.clientid with
    | none => newRequest setup app msg
    | some entry =>
      if msg.req.clientreqid < entry.lastReqId then
        pure ()
      else if msg.req.clientreqid = entry.lastReqId then
        if entry.replied then
          sendMessage remote (.reply entry.reply)
        else
          pure ()
      else
        newRequest setup app msg

/-- `FastPaxosReplica::HandleUnloggedRequest`. -/
def handleUnloggedRequest (remote : Address) (msg : UnloggedRequestMessage) : Run Unit := do
  let r ← get
  if r.status ≠ .normal then
    pure ()
  else
    sendMessage remote (.unloggedReply { reply := app.executeUnlogged msg.op })

/-- The part of `HandlePrepare` that puts the leader's next request into the log. -/
def installPrepare (msg : PrepareMessage) : Run Unit := do
  let r ← get
  if r.lastFastPath < msg.opnum then
    require (msg.opnum = r.lastFastPath + 1)
    let log ← demand (r.log.append { view := msg.view, opnum := msg.opnum } msg.req .prepared)
    modify fun r =>
      { r with lastFastPath := r.lastFastPath + 1, lastSlowPath := r.lastSlowPath + 1, log := log }
  else
    require (msg.opnum = r.lastSlowPath + 1)
    let entry ← demand (r.log.find msg.opnum)
    require (entry.state = .prepared)
    let replaced ← demand (r.log.setRequest msg.opnum msg.req)
    modify fun r => { r with lastSlowPath := r.lastSlowPath + 1, log := replaced.1 }

/-- `FastPaxosReplica::HandlePrepare`. -/
def handlePrepare (remote : Address) (msg : PrepareMessage) : Run Unit := do
  let r ← get
  let reply : PrepareOKMessage :=
    { view := msg.view, opnum := msg.opnum, replicaIdx := setup.replicaIdx, req := msg.req,
      slowpath := 1 }
  if r.status ≠ .normal then
    pure ()
  else if msg.view < r.view then
    pure ()
  else if r.view < msg.view then
    requestStateTransfer
    modify fun r => { r with pendingPrepares := r.pendingPrepares ++ [(remote, msg)] }
  else
    require (¬ setup.AmLeader r.view)
    if msg.opnum ≤ r.lastSlowPath then
      sendToReplica (setup.configuration.getLeaderIndex r.view) (.prepareOK reply)
    else if r.lastSlowPath + 1 < msg.opnum then
      requestStateTransfer
      modify fun r => { r with pendingPrepares := r.pendingPrepares ++ [(remote, msg)] }
    else
      installPrepare msg
      modify (·.updateClientTable msg.req)
      sendToReplica (setup.configuration.getLeaderIndex r.view) (.prepareOK reply)

/-- `FastPaxosReplica::HandleCommit`. -/
def handleCommit (msg : CommitMessage) : Run Unit := do
  let r ← get
  if r.status ≠ .normal then
    pure ()
  else if msg.view < r.view then
    pure ()
  else if r.view < msg.view then
    requestStateTransfer
  else
    require (¬ setup.AmLeader r.view)
    if msg.opnum ≤ r.lastCommitted then
      pure ()
    else if r.lastFastPath < msg.opnum then
      requestStateTransfer
    else if r.lastSlowPath < msg.opnum then
      if r.lastSlowPath + 1 < msg.opnum then
        pure ()
      else
        let entry ← demand (r.log.find msg.opnum)
        require (entry.state = .prepared)
        let replaced ← demand (r.log.setRequest msg.opnum msg.req)
        modify fun r => { r with log := replaced.1 }
        commitUpTo app msg.opnum
    else
      commitUpTo app msg.opnum

/-- `FastPaxosReplica::HandleRequestStateTransfer`. -/
def handleRequestStateTransfer (remote : Address) (msg : RequestStateTransferMessage) :
    Run Unit := do
  let r ← get
  if r.status ≠ .normal then
    pure ()
  else if r.view < msg.view then
    requestStateTransfer
  else if ¬ setup.AmLeader r.view then
    pure ()
  else
    require (r.lastSlowPath = r.lastFastPath)
    sendMessage remote (.stateTransfer
      { view := r.view, opnum := r.lastCommitted, lastop := r.lastSlowPath,
        entries := r.log.dump (msg.opnum + 1) })

/-- One round of the loop of `HandleStateTransfer`, which changes `oldLastSlowPath`. -/
def transferEntry (oldLastSlowPath : Nat) (newEntry : Entry) : Run Nat := do
  let r ← get
  let vs : Viewstamp := { view := newEntry.viewstamp.view, opnum := newEntry.viewstamp.opnum }
  if newEntry.viewstamp.opnum ≤ r.lastCommitted then
    pure oldLastSlowPath
  else if newEntry.viewstamp.opnum ≤ r.lastSlowPath then
    let entry ← demand (r.log.find newEntry.viewstamp.opnum)
    require (entry.viewstamp.opnum = newEntry.viewstamp.opnum)
    require (entry.viewstamp.view ≤ newEntry.viewstamp.view)
    if entry.viewstamp.view = newEntry.viewstamp.view then
      require (entry.state = .prepared)
      pure oldLastSlowPath
    else
      require (entry.state ≠ .committed)
      let cut ← demand (r.log.removeAfter newEntry.viewstamp.opnum)
      let log ← demand (cut.append vs newEntry.request .prepared)
      modify fun r => { r with lastSlowPath := newEntry.viewstamp.opnum, log := log }
      pure newEntry.viewstamp.opnum
  else if newEntry.viewstamp.opnum ≤ r.lastFastPath then
    let entry ← demand (r.log.find newEntry.viewstamp.opnum)
    require (entry.state = .prepared)
    let replaced ← demand (r.log.setRequest newEntry.viewstamp.opnum newEntry.request)
    modify fun r => { r with log := replaced.1, lastSlowPath := r.lastSlowPath + 1 }
    pure oldLastSlowPath
  else
    require (newEntry.viewstamp.opnum = r.lastSlowPath + 1)
    let log ← demand (r.log.append vs newEntry.request .prepared)
    modify fun r =>
      { r with lastSlowPath := r.lastSlowPath + 1, lastFastPath := r.lastFastPath + 1, log := log }
    pure oldLastSlowPath

/-- The loop of `HandleStateTransfer`. -/
def transferEntries (oldLastSlowPath : Nat) : List Entry → Run Nat
  | [] => pure oldLastSlowPath
  | newEntry :: rest => do
    let oldLastSlowPath ← transferEntry oldLastSlowPath newEntry
    transferEntries oldLastSlowPath rest

/-- The part of `HandleStateTransfer` after the entries are merged and the view is entered. -/
def completeTransfer (msg : StateTransferMessage) (oldLastSlowPath : Nat) : Run Unit := do
  let r ← get
  require (msg.opnum ≤ r.lastSlowPath)
  require (r.lastSlowPath ≤ r.lastFastPath)
  commitUpTo app msg.opnum
  sendPrepareOKs setup oldLastSlowPath
  let r ← get
  modify fun r => { r with pendingPrepares := [] }
  forEach r.pendingPrepares fun (remote, prepare) => handlePrepare setup remote prepare

/-- `FastPaxosReplica::HandleStateTransfer`. -/
def handleStateTransfer (msg : StateTransferMessage) : Run Unit := do
  let r ← get
  if msg.view < r.view then
    pure ()
  else
    let oldLastSlowPath ← transferEntries r.lastSlowPath msg.entries
    if r.view < msg.view then
      modify (·.enterView msg.view)
      completeTransfer setup app msg oldLastSlowPath
    else
      completeTransfer setup app msg oldLastSlowPath

/-- `FastPaxosReplica::ReceiveMessage`. A reply is no message for a replica. -/
def receiveMessage (remote : Address) : Message → Run Unit
  | .request msg => handleRequest setup app remote msg
  | .unloggedRequest msg => handleUnloggedRequest app remote msg
  | .prepare msg => handlePrepare setup remote msg
  | .prepareOK msg => handlePrepareOK setup app remote msg
  | .commit msg => handleCommit setup app msg
  | .requestStateTransfer msg => handleRequestStateTransfer setup remote msg
  | .stateTransfer msg => handleStateTransfer setup app msg
  | .reply _ => stop
  | .unloggedReply _ => stop

/-- The timeouts of a replica. -/
inductive Timer where
  | stateTransfer
  | resendPrepare
deriving DecidableEq, Repr

/-- `Timeout::Active`. -/
def Replica.active (r : Replica) : Timer → Bool
  | .stateTransfer => r.stateTransferTimeout
  | .resendPrepare => r.resendPrepareTimeout

/-- The callbacks that the constructor gives the timeouts. -/
def fireTimer : Timer → Run Unit
  | .stateTransfer =>
    modify fun r =>
      { r with lastRequestStateTransferView := 0, lastRequestStateTransferOpnum := 0 }
  | .resendPrepare => resendPrepare setup

/-- A replica as `FastPaxosReplica` constructs it; it cannot be constructed to recover. -/
def Replica.constructed (configuration : Configuration) : Replica where
  slowPrepareOKQuorum := { numRequired := configuration.quorumSize - 1 }
  fastPrepareOKQuorum := { numRequired := configuration.fastQuorumSize - 1 }

end PaxosBus.FastPaxos

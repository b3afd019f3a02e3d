import PaxosBus.Common.Configuration
import PaxosBus.Common.QuorumSet
import PaxosBus.Library.Handler
import PaxosBus.NoPaxos.Message

/-!
# The replica of NOPaxos

The handlers and timer callbacks of `NOPaxosReplica`. A failed `ASSERT`, a
`Panic`, a read through a null pointer or a loop over a quorum that has been
cleared under it stops the replica with what it has done by then. Numbers of
sessions, views, messages and operations are unbounded. A timeout is a flag that
says whether it is running; it stays running when it fires.
-/

set_option autoImplicit false

namespace PaxosBus.NoPaxos

open PaxosBus.Common PaxosBus.Library
open Std (TreeMap)

/-- `ReplicaStatus`, as far as this protocol uses it. -/
inductive Status where
  | normal
  | viewChange
  | gapCommit
deriving DecidableEq, Repr

/-- What the application answers to the upcalls of one step, and which of the pending requests
comes first in their set when they are of several sessions, for which the comparison of the set is
no order. -/
structure App where
  execute : Nat → Request → String := fun _ _ => ""
  executeUnlogged : String → String := fun _ => ""
  first : List RequestMessage → Nat := fun _ => 0

/-- What a replica is constructed with. -/
structure Setup where
  configuration : Configuration
  replicaIdx : Nat

/-- `ClientTableEntry`. -/
structure ClientTableEntry where
  lastReqId : Nat := 0
  reply : String := ""
deriving DecidableEq, Repr

/-- What `stateTransferCallback` holds. -/
inductive Callback where
  | unset
  | enterView
  | processSyncPrepare (syncpoint : Nat)
deriving DecidableEq, Repr

/-- The state of a `NOPaxosReplica`. -/
structure Replica where
  status : Status := .normal
  view : Nat := 0
  sessnum : Nat := 0
  lastOp : Nat := 0
  nextMsgnum : Nat := 1
  lastNormalView : Nat := 0
  lastNormalSessnum : Nat := 0
  lastCommittedOp : Nat := 0
  lastExecutedOp : Nat := 0
  log : Log := {}
  clientAddresses : Nat → Option Address := fun _ => none
  clientTable : Nat → Option ClientTableEntry := fun _ => none
  pendingRequests : List RequestMessage := []
  gapReplyQuorum : QuorumSet Nat GapReplyMessage
  gapCommitQuorum : QuorumSet Nat GapCommitReplyMessage
  viewChangeQuorum : QuorumSet (Nat × Nat) ViewChangeMessage
  startViewQuorum : QuorumSet (Nat × Nat) StartViewReplyMessage
  syncPrepareQuorum : QuorumSet Nat SyncPrepareReplyMessage
  committedGaps : OpnumSet := {}
  startGapRequestTimeout : Bool := false
  gapRequestTimeout : Bool := false
  gapCommitTimeout : Bool := false
  viewChangeTimeout : Bool := false
  stateTransferTimeout : Bool := false
  startViewTimeout : Bool := false
  syncTimeout : Bool := false
  leaderSyncHeardTimeout : Bool := false
  stateTransferOpBegin : Nat := 0
  stateTransferOpEnd : Nat := 0
  stateTransferReplicaIdx : Nat := 0
  stateTransferCallback : Callback := .unset
  startViewLastNormalSessnum : Nat := 0
  startViewLastNormalView : Nat := 0
  startViewLastOp : Nat := 0
  startViewCommittedGaps : OpnumSet := {}
  leaderLastSyncPreparePoint : Nat := 0
  leaderLastSyncCommittedGaps : OpnumSet := {}
  receivedSyncPreparePoints : OpnumSet := {}
  receivedSyncCommitPoints : OpnumSet := {}

/-- A piece of a replica's program. -/
abbrev Run (α : Type) := Handler Replica Output α

namespace Setup

variable (setup : Setup)

/-- `NOPaxosReplica::AmLeader` in a view. -/
def AmLeader (view : Nat) : Prop := setup.configuration.getLeaderIndex view = setup.replicaIdx

instance (view : Nat) : Decidable (setup.AmLeader view) :=
  inferInstanceAs (Decidable (_ = _))

end Setup

open Handler

/-- `Transport::SendMessageToAll`. -/
def sendToAll (msg : Message) : Run Unit := emit (.send .others msg)

/-- `Transport::SendMessageToReplica`. -/
def sendToReplica (replicaIdx : Nat) (msg : Message) : Run Unit :=
  emit (.send (.one (.replica replicaIdx)) msg)

/-- `Transport::SendMessage`. -/
def sendMessage (remote : Address) (msg : Message) : Run Unit := emit (.send (.one remote) msg)

namespace Replica

/-- `clientTable[clientid]`, which creates an entry where there is none. -/
def tableEntry (r : Replica) (clientid : Nat) : ClientTableEntry := (r.clientTable clientid).getD {}

/-- Replace the table entry of a client. -/
def setTableEntry (r : Replica) (clientid : Nat) (entry : ClientTableEntry) : Replica :=
  { r with clientTable := Function.update r.clientTable clientid (some entry) }

/-- `NOPaxosReplica::AddPendingRequest`. A request with the same timestamp is the same element of
the set. -/
def addPendingRequest (r : Replica) (msg : RequestMessage) : Replica :=
  if r.pendingRequests.any fun other =>
      other.sessnum = msg.sessnum ∧ other.msgnum = msg.msgnum then
    r
  else
    { r with pendingRequests := r.pendingRequests ++ [msg] }

/-- `NOPaxosReplica::ClearTimeoutAndQuorums`. -/
def clearTimeoutAndQuorums (r : Replica) : Replica :=
  { r with
    startGapRequestTimeout := false
    gapRequestTimeout := false
    gapReplyQuorum := r.gapReplyQuorum.clear
    gapCommitTimeout := false
    gapCommitQuorum := r.gapCommitQuorum.clear
    viewChangeTimeout := false
    viewChangeQuorum := r.viewChangeQuorum.clear
    stateTransferTimeout := false
    startViewTimeout := false
    startViewQuorum := r.startViewQuorum.clear
    syncTimeout := false
    syncPrepareQuorum := r.syncPrepareQuorum.clear
    leaderSyncHeardTimeout := false
    receivedSyncPreparePoints := {}
    receivedSyncCommitPoints := {}
    stateTransferOpBegin := 0
    stateTransferOpEnd := 0 }

/-- The number of the next message of a session: it is reset when the log does not reach into the
session. -/
def resetMsgnum (r : Replica) (newsessnum : Nat) : Nat :=
  if r.log.lastViewstamp.sessnum < newsessnum then 1 else r.nextMsgnum

end Replica

variable (setup : Setup) (app : App)

/-! ## Messages of a replica of its own accord -/

/-- `NOPaxosReplica::SendGapRequest`. -/
def sendGapRequest : Run Unit := do
  let r ← get
  let msg : GapRequestMessage := { view := r.view, sessnum := r.sessnum, opnum := r.lastOp + 1 }
  if setup.AmLeader r.view then
    sendToAll (.gapRequest msg)
    modify fun r => { r with gapRequestTimeout := true }
  else
    sendToReplica (setup.configuration.getLeaderIndex r.view) (.gapRequest msg)
    modify fun r => { r with gapRequestTimeout := true }

/-- `NOPaxosReplica::SendGapCommit`. -/
def sendGapCommit : Run Unit := do
  let r ← get
  require (setup.AmLeader r.view)
  require (r.status = .gapCommit)
  sendToAll (.gapCommit { sessnum := r.sessnum, view := r.view, opnum := r.lastOp })
  modify fun r => { r with gapCommitTimeout := true }

/-- The message with which a replica joins a view change. -/
def Replica.viewChangeMessage (r : Replica) : ViewChangeMessage where
  sessnum := r.sessnum
  view := r.view
  lastnormalsessnum := r.lastNormalSessnum
  lastnormalview := r.lastNormalView
  lastop := r.lastOp
  committedgaps := r.committedGaps.elements
  replicaIdx := setup.replicaIdx

/-- `NOPaxosReplica::SendViewChange`. -/
def sendViewChange : Run Unit := do
  let r ← get
  sendToAll (.viewChangeRequest { sessnum := r.sessnum, view := r.view })
  if setup.AmLeader r.view then
    modify fun r => { r with viewChangeTimeout := true }
  else
    sendToReplica (setup.configuration.getLeaderIndex r.view)
      (.viewChange (r.viewChangeMessage setup))
    modify fun r => { r with viewChangeTimeout := true }

/-- `NOPaxosReplica::SendStateTransferRequest`. -/
def sendStateTransferRequest : Run Unit := do
  let r ← get
  sendToReplica r.stateTransferReplicaIdx
    (.stateTransferRequest
      { sessnum := r.sessnum, view := r.view, begin_ := r.stateTransferOpBegin,
        end_ := r.stateTransferOpEnd })
  modify fun r => { r with stateTransferTimeout := true }

/-- The message with which a leader starts a view. -/
def Replica.startViewMessage (r : Replica) : StartViewMessage where
  sessnum := r.sessnum
  view := r.view
  lastnormalsessnum := r.startViewLastNormalSessnum
  lastnormalview := r.startViewLastNormalView
  lastop := r.startViewLastOp
  committedgaps := r.startViewCommittedGaps.elements

/-- `NOPaxosReplica::SendStartView`. -/
def sendStartView : Run Unit := do
  let r ← get
  require (setup.AmLeader r.view)
  sendToAll (.startView r.startViewMessage)
  modify fun r => { r with startViewTimeout := true }

/-- `NOPaxosReplica::SendStartViewReply`. -/
def sendStartViewReply : Run Unit := do
  let r ← get
  require (¬ setup.AmLeader r.view)
  require (r.status ≠ .viewChange)
  sendToReplica (setup.configuration.getLeaderIndex r.view)
    (.startViewReply
      { sessnum := r.sessnum, view := r.view, replicaIdx := setup.replicaIdx })

/-- `NOPaxosReplica::SendSyncPrepare`. -/
def sendSyncPrepare : Run Unit := do
  let r ← get
  require (setup.AmLeader r.view)
  modify fun r =>
    { r with
      leaderLastSyncPreparePoint := r.lastOp
      leaderLastSyncCommittedGaps := r.committedGaps }
  sendToAll (.syncPrepare
    { sessnum := r.sessnum, view := r.view, lastop := r.lastOp,
      committedgaps := r.committedGaps.elements })

/-- `NOPaxosReplica::SendSyncCommit`. -/
def sendSyncCommit : Run Unit := do
  let r ← get
  require (setup.AmLeader r.view)
  sendToAll (.syncCommit
    { sessnum := r.sessnum, view := r.view, syncpoint := r.lastCommittedOp })

/-! ## Execution -/

/-- `NOPaxosReplica::UpdateClientTable`. -/
def updateClientTable (req : Request) (reply : String) : Run Unit := do
  let r ← get
  let entry := r.tableEntry req.clientid
  require (entry.lastReqId ≤ req.clientreqid)
  if entry.lastReqId = req.clientreqid then
    modify (·.setTableEntry req.clientid entry)
  else if setup.AmLeader r.view then
    modify (·.setTableEntry req.clientid { lastReqId := req.clientreqid, reply := reply })
  else
    modify (·.setTableEntry req.clientid { entry with lastReqId := req.clientreqid })

/-- The part of `ExecuteUptoOp` that tells the client the result. -/
def replyExecuted (op : Nat) (entry : Entry) (reply : String) : Run Unit := do
  let r ← get
  if setup.AmLeader entry.viewstamp.view then
    match r.clientAddresses entry.request.clientid with
    | some addr =>
      sendMessage addr (.reply
        { view := entry.viewstamp.view, sessnum := entry.viewstamp.sessnum, opnum := op,
          clientreqid := entry.request.clientreqid, replicaIdx := setup.replicaIdx,
          reply := some reply })
    | none => pure ()
  else
    pure ()

/-- `UpdateClientTable` stores the result of a request. -/
def Replica.stores (setup : Setup) (r : Replica) (req : Request) : Bool :=
  decide ((r.tableEntry req.clientid).lastReqId ≠ req.clientreqid ∧ setup.AmLeader r.view)

/-- The part of `ExecuteUptoOp` that executes a request which is not the last of its client. -/
def executeNew (op : Nat) (entry : Entry) : Run Unit := do
  let r ← get
  let reply := app.execute op entry.request
  emit (.executed op entry.request reply (r.stores setup entry.request))
  updateClientTable setup entry.request reply
  replyExecuted setup op entry reply

/-- The part of `ExecuteUptoOp` that answers the last request of a client again. -/
def answerAgain (op : Nat) (entry : Entry) (reply : String) : Run Unit := do
  emit (.repeated entry.request (decide (setup.AmLeader entry.viewstamp.view)))
  replyExecuted setup op entry reply

/-- One round of the loop of `ExecuteUptoOp`. -/
def executeNext : Run Unit := do
  let r ← get
  let op := r.lastExecutedOp + 1
  require (op ≤ r.lastOp)
  let entry ← demand (r.log.find op)
  modify fun r => { r with lastExecutedOp := op }
  if entry.state = .received then
    match r.clientTable entry.request.clientid with
    | none => executeNew setup app op entry
    | some last =>
      if entry.request.clientreqid < last.lastReqId then
        pure ()
      else if entry.request.clientreqid = last.lastReqId then
        answerAgain setup op entry last.reply
      else
        executeNew setup app op entry
  else
    pure ()

/-- `NOPaxosReplica::ExecuteUptoOp`. -/
def executeUptoOp (opnum : Nat) : Run Unit := do
  let r ← get
  if opnum ≤ r.lastExecutedOp then
    pure ()
  else
    require (opnum ≤ r.lastOp)
    repeated (opnum - r.lastExecutedOp) (executeNext setup app)

/-- `NOPaxosReplica::CommitUptoOp`. -/
def commitUptoOp (opnum : Nat) : Run Unit := do
  let r ← get
  if opnum ≤ r.lastCommittedOp then
    pure ()
  else
    require (opnum ≤ r.lastOp)
    modify fun r => { r with lastCommittedOp := opnum }
    if setup.AmLeader r.view then
      sendSyncCommit setup
      executeUptoOp setup app opnum
    else
      executeUptoOp setup app opnum

/-! ## Entering a view -/

/-- What `EnterView` changes before the leader and the others part. -/
def Replica.entering (r : Replica) (newsessnum newview : Nat) : Replica :=
  { r with
    nextMsgnum := r.resetMsgnum newsessnum
    sessnum := newsessnum
    view := newview
    lastNormalSessnum := newsessnum
    lastNormalView := newview
    status := .normal }

/-- The part of `EnterView` in which the leader starts the view. -/
def leadView : Run Unit := do
  let r ← get
  executeUptoOp setup app r.lastOp
  modify fun r => { r with syncTimeout := true }
  let r ← get
  require (r.leaderLastSyncPreparePoint ≤ r.lastOp)
  modify fun r =>
    { r with
      leaderLastSyncPreparePoint := r.lastOp
      leaderLastSyncCommittedGaps := r.committedGaps }
  sendStartView setup

/-- The part of `EnterView` in which another replica follows the leader. -/
def followView : Run Unit := do
  modify fun r =>
    { r with
      leaderSyncHeardTimeout := true
      receivedSyncPreparePoints := r.receivedSyncPreparePoints.insert r.lastOp }
  sendStartViewReply setup

/-- `NOPaxosReplica::EnterView`. -/
def enterView (newsessnum newview : Nat) : Run Unit := do
  let r ← get
  emit (.entering (r.sessnum, r.view) (newsessnum, newview) (decide (setup.AmLeader newview))
    r.leaderLastSyncPreparePoint r.lastOp)
  require (r.sessnum ≤ newsessnum)
  require (r.view ≤ newview)
  emit (.entered newsessnum newview r.log.entries)
  modify fun r => (r.entering newsessnum newview).clearTimeoutAndQuorums
  if setup.AmLeader newview then
    leadView setup app
  else
    followView setup

/-! ## Processing operations -/

/-- `NOPaxosReplica::ProcessSyncPrepare`. -/
def processSyncPrepare (syncpoint : Nat) : Run Unit := do
  let r ← get
  require (¬ setup.AmLeader r.view)
  if syncpoint ∈ r.receivedSyncCommitPoints then
    commitUptoOp setup app syncpoint
    modify fun r =>
      { r with
        receivedSyncPreparePoints := r.receivedSyncPreparePoints.erase syncpoint
        receivedSyncCommitPoints := r.receivedSyncCommitPoints.erase syncpoint }
  else
    sendToReplica (setup.configuration.getLeaderIndex r.view)
      (.syncPrepareReply
        { sessnum := r.sessnum, view := r.view, syncpoint := syncpoint,
          replicaIdx := setup.replicaIdx })

/-- The call of `stateTransferCallback`. -/
def completeStateTransfer : Run Unit := do
  let r ← get
  match r.stateTransferCallback with
  | .unset => stop
  | .enterView => enterView setup app r.sessnum r.view
  | .processSyncPrepare syncpoint => processSyncPrepare setup app syncpoint

/-- The state of an operation when it is put into the log: a gap that is known already is one. -/
def Replica.decidedState (r : Replica) (opnum : Nat) (state : LogEntryState) : LogEntryState :=
  if opnum ∈ r.committedGaps then .noop else state

/-- What `ProcessNextOperation` does with the gap timeouts. -/
def Replica.stopGapRequests (r : Replica) : Replica :=
  if r.gapRequestTimeout then
    { r with
      startGapRequestTimeout := false
      gapRequestTimeout := false
      gapReplyQuorum := r.gapReplyQuorum.clear }
  else
    { r with startGapRequestTimeout := false }

/-- The part of `ProcessNextOperation` for what follows from the state of the operation. -/
def acknowledgeOperation (request : Request) (vs : Viewstamp) (state : LogEntryState) :
    Run Unit := do
  let r ← get
  if state = .noop then
    modify fun r => { r with committedGaps := r.committedGaps.insert r.lastOp }
  else if state = .received then
    if setup.AmLeader vs.view then
      executeUptoOp setup app vs.opnum
    else
      match r.clientAddresses request.clientid with
      | some addr =>
        sendMessage addr (.reply
          { view := vs.view, sessnum := vs.sessnum, opnum := vs.opnum,
            clientreqid := request.clientreqid, replicaIdx := setup.replicaIdx, reply := none })
      | none => pure ()
  else
    pure ()

/-- The part of `ProcessNextOperation` that finds a state transfer complete. -/
def checkStateTransfer (opnum : Nat) : Run Unit := do
  let r ← get
  if opnum = r.stateTransferOpEnd then
    modify fun r => { r with stateTransferTimeout := false }
    emit (.transferEnded r.stateTransferOpEnd r.log.entries.length)
    completeStateTransfer setup app
  else
    pure ()

/-- `ProcessNextOperation`, without the recursion at its end. -/
def processOperation (request : Request) (vs : Viewstamp) (state : LogEntryState) : Run Unit := do
  let r ← get
  emit (.processing vs.opnum r.stateTransferOpEnd r.committedGaps.elements)
  require (vs.opnum = r.lastOp + 1)
  modify fun r => { r with lastOp := vs.opnum, nextMsgnum := vs.msgnum + 1 }
  let state := r.decidedState vs.opnum state
  let log ← demand (r.log.append vs request state)
  modify fun r => { r with log := log }
  modify (·.stopGapRequests)
  acknowledgeOperation setup app request vs state
  checkStateTransfer setup app vs.opnum

/-- The recursion of `ProcessNextOperation`: gaps that follow are put into the log at once. Each
round puts in one of the gaps that there are. -/
def processGaps (request : Request) (vs : Viewstamp) : Nat → Run Unit
  | 0 => pure ()
  | rounds + 1 => do
    let r ← get
    if r.lastOp + 1 ∈ r.committedGaps then
      processOperation setup app request
        { vs with opnum := r.lastOp + 1, msgnum := r.nextMsgnum } .noop
      processGaps request vs rounds
    else
      pure ()

/-- `NOPaxosReplica::ProcessNextOperation`. -/
def processNextOperation (request : Request) (vs : Viewstamp) (state : LogEntryState) :
    Run Unit := do
  processOperation setup app request vs state
  let r ← get
  processGaps setup app request vs r.committedGaps.elements.length

/-- The part of the loop of `InstallCommittedGaps` that advances the log by a gap. -/
def advanceGap (gap : Nat) : Run Unit := do
  let r ← get
  if r.lastOp + 1 = gap then
    processNextOperation setup app noopRequest
      { r.log.lastViewstamp with opnum := r.lastOp + 1, msgnum := r.nextMsgnum } .noop
  else
    pure ()

/-- The part of the loop of `InstallCommittedGaps` that overwrites an entry by a gap. -/
def overwriteGap (gap : Nat) : Run Unit := do
  let r ← get
  if gap ≤ r.lastOp then
    let entry ← demand (r.log.find gap)
    if entry.state = .noop then
      pure ()
    else
      require (r.lastCommittedOp < gap)
      require (r.lastExecutedOp < gap)
      modify fun r => { r with log := r.log.setStatus gap .noop }
  else
    pure ()

/-- One round of the loop of `InstallCommittedGaps`. -/
def installGap (gap : Nat) : Run Unit := do
  let r ← get
  if gap ∈ r.committedGaps then
    pure ()
  else
    modify fun r => { r with committedGaps := r.committedGaps.insert gap }
    advanceGap setup app gap
    overwriteGap gap

/-- `NOPaxosReplica::InstallCommittedGaps`. -/
def installCommittedGaps (committedgaps : List Nat) : Run Unit :=
  forEach committedgaps (installGap setup app)

/-- `NOPaxosReplica::RewindLogToOpnum`. -/
def rewindLogToOpnum (opnum : Nat) : Run Unit := do
  let r ← get
  require (r.lastCommittedOp ≤ opnum)
  require (r.lastExecutedOp ≤ opnum)
  modify fun r => { r with lastOp := opnum }
  let log ← demand (r.log.removeAfter opnum)
  modify fun r => { r with log := log, nextMsgnum := log.lastViewstamp.msgnum + 1 }

/-! ## View changes -/

/-- What `StartViewChange` changes before it tells the others. -/
def Replica.changing (r : Replica) (newsessnum newview : Nat) : Replica :=
  { r.clearTimeoutAndQuorums with
    sessnum := newsessnum
    view := newview
    nextMsgnum := r.resetMsgnum newsessnum
    status := .viewChange
    committedGaps := r.committedGaps.upTo r.lastOp }

/-- `NOPaxosReplica::StartViewChange`. -/
def startViewChange (newsessnum newview : Nat) : Run Unit := do
  let r ← get
  require (r.sessnum < newsessnum ∨ r.view < newview)
  modify fun r => r.changing (max r.sessnum newsessnum) (max r.view newview)
  sendViewChange setup

/-- `NOPaxosReplica::CheckViewNumAndStatus`. -/
def checkViewNumAndStatus (sessnum view : Nat) : Run Bool := do
  let r ← get
  if sessnum < r.sessnum ∨ view < r.view then
    pure false
  else if r.sessnum < sessnum ∨ r.view < view then
    startViewChange setup sessnum view
    pure false
  else if r.status = .viewChange then
    pure false
  else
    pure true

/-! ## Client requests -/

/-- `NOPaxosReplica::TryProcessClientRequest`. -/
def tryProcessClientRequest (msg : RequestMessage) : Run Bool := do
  let r ← get
  if r.status ≠ .normal then
    pure false
  else if msg.sessnum < r.sessnum then
    pure true
  else if r.sessnum < msg.sessnum then
    startViewChange setup msg.sessnum r.view
    pure false
  else if msg.msgnum < r.nextMsgnum then
    pure true
  else if r.nextMsgnum < msg.msgnum then
    if r.startGapRequestTimeout || r.gapRequestTimeout || r.gapCommitTimeout then
      pure false
    else
      modify fun r => { r with startGapRequestTimeout := true }
      pure false
  else
    processNextOperation setup app msg.req
      { view := r.view, opnum := r.lastOp + 1, sessnum := msg.sessnum, msgnum := msg.msgnum }
      .received
    pure true

/-- The one of two requests of a session that the sequencer has numbered first. -/
def earlier (a b : RequestMessage) : RequestMessage := if b.msgnum < a.msgnum then b else a

/-- `*pendingRequests.begin()`, where there are pending requests. -/
def firstPending : List RequestMessage → Option RequestMessage
  | [] => none
  | msg :: rest =>
    if rest.all fun other => other.sessnum = msg.sessnum then
      some (rest.foldl earlier msg)
    else
      some ((msg :: rest).getD (app.first (msg :: rest)) msg)

/-- The loop of `ProcessPendingRequests`. Each round but the last takes one request out. -/
def processPending : Nat → Run Unit
  | 0 => pure ()
  | rounds + 1 => do
    let r ← get
    match firstPending app r.pendingRequests with
    | none => pure ()
    | some msg =>
      let processed ← tryProcessClientRequest setup app msg
      if processed then
        modify fun r => { r with pendingRequests := r.pendingRequests.erase msg }
        processPending rounds
      else
        pure ()

/-- `NOPaxosReplica::ProcessPendingRequests`. -/
def processPendingRequests : Run Unit := do
  let r ← get
  if r.status ≠ .normal then
    pure ()
  else
    processPending setup app r.pendingRequests.length

/-- `NOPaxosReplica::HandleClientRequest`. -/
def handleClientRequest (remote : Address) (msg : RequestMessage) : Run Unit := do
  modify fun r =>
    { r with
      clientAddresses := Function.update r.clientAddresses msg.req.clientid
        (some ((r.clientAddresses msg.req.clientid).getD remote)) }
  require (¬ (msg.sessnum = 0 ∧ msg.msgnum = 0))
  let processed ← tryProcessClientRequest setup app msg
  if processed then
    pure ()
  else
    modify (·.addPendingRequest msg)

/-- `NOPaxosReplica::HandleUnloggedRequest`. -/
def handleUnloggedRequest (remote : Address) (msg : UnloggedRequestMessage) : Run Unit :=
  sendMessage remote (.unloggedReply { reply := app.executeUnlogged msg.op })

/-! ## Gap agreement -/

/-- `NOPaxosReplica::StartGapAgreement`. -/
def startGapAgreement : Run Unit := do
  let r ← get
  require (setup.AmLeader r.view)
  modify fun r =>
    { r with
      startGapRequestTimeout := false
      gapReplyQuorum := r.gapReplyQuorum.clear
      gapRequestTimeout := false
      status := .gapCommit
      gapCommitQuorum := r.gapCommitQuorum.clear }
  processNextOperation setup app noopRequest
    { view := r.view, opnum := r.lastOp + 1, sessnum := r.sessnum, msgnum := r.nextMsgnum } .noop
  sendGapCommit setup

/-- The part of `HandleGapRequest` that finds out what to answer. -/
def Replica.gapReply (r : Replica) (msg : GapRequestMessage) : Option GapReplyMessage :=
  let reply : GapReplyMessage :=
    { view := r.view, sessnum := r.sessnum, opnum := msg.opnum, isfound := false, isgap := false,
      replicaIdx := setup.replicaIdx }
  match r.log.find msg.opnum with
  | some entry =>
    if entry.state = .received then
      some { reply with req := entry.request, isfound := true }
    else if entry.state = .noop then
      some { reply with isfound := true, isgap := true }
    else
      none
  | none => some reply

/-- `NOPaxosReplica::HandleGapRequest`. -/
def handleGapRequest (remote : Address) (msg : GapRequestMessage) : Run Unit := do
  let current ← checkViewNumAndStatus setup msg.sessnum msg.view
  if current then
    let r ← get
    let reply ← demand (r.gapReply setup msg)
    if reply.isfound ∨ (r.gapRequestTimeout ∧ r.lastOp + 1 = msg.opnum) then
      sendMessage remote (.gapReply reply)
    else
      pure ()
  else
    pure ()

/-- `NOPaxosReplica::HandleGapReply`. -/
def handleGapReply (msg : GapReplyMessage) : Run Unit := do
  let current ← checkViewNumAndStatus setup msg.sessnum msg.view
  if current then
    let r ← get
    if msg.opnum ≠ r.lastOp + 1 then
      pure ()
    else if r.status = .gapCommit then
      require (setup.AmLeader r.view)
    else if msg.isfound then
      processNextOperation setup app msg.req
        { view := r.view, opnum := r.lastOp + 1, sessnum := r.sessnum, msgnum := r.nextMsgnum }
        (if msg.isgap then .noop else .received)
    else if setup.AmLeader r.view then
      let (quorum, found) := r.gapReplyQuorum.addAndCheckForQuorum (r.lastOp + 1) msg.replicaIdx msg
      modify fun r => { r with gapReplyQuorum := quorum }
      match found with
      | none => pure ()
      | some _ => startGapAgreement setup app
    else
      pure ()
  else
    pure ()

/-- The part of `HandleGapCommit` that puts the gap into the log. -/
def commitGap (msg : GapCommitMessage) : Run Unit := do
  let r ← get
  if msg.opnum ≤ r.lastOp then
    modify fun r =>
      { r with
        committedGaps := r.committedGaps.insert msg.opnum
        log := r.log.setStatus msg.opnum .noop }
  else
    require (r.lastOp + 1 = msg.opnum)
    processNextOperation setup app noopRequest
      { view := r.view, opnum := r.lastOp + 1, sessnum := r.sessnum, msgnum := r.nextMsgnum } .noop

/-- `NOPaxosReplica::HandleGapCommit`. -/
def handleGapCommit (remote : Address) (msg : GapCommitMessage) : Run Unit := do
  let current ← checkViewNumAndStatus setup msg.sessnum msg.view
  if current then
    let r ← get
    require (¬ setup.AmLeader r.view)
    if r.lastOp + 1 < msg.opnum then
      modify fun r => { r with committedGaps := r.committedGaps.insert msg.opnum }
    else
      commitGap setup app msg
      let r ← get
      sendMessage remote (.gapCommitReply
        { sessnum := r.sessnum, view := r.view, opnum := msg.opnum,
          replicaIdx := setup.replicaIdx })
  else
    pure ()

/-- `NOPaxosReplica::HandleGapCommitReply`. -/
def handleGapCommitReply (msg : GapCommitReplyMessage) : Run Unit := do
  let current ← checkViewNumAndStatus setup msg.sessnum msg.view
  if current then
    let r ← get
    if r.status ≠ .gapCommit ∨ ¬ setup.AmLeader r.view then
      pure ()
    else if msg.opnum = r.lastOp then
      let (quorum, found) := r.gapCommitQuorum.addAndCheckForQuorum msg.opnum msg.replicaIdx msg
      modify fun r => { r with gapCommitQuorum := quorum }
      match found with
      | none => pure ()
      | some _ =>
        emit (.gapCommitted r.sessnum r.view msg.opnum)
        modify fun r =>
          { r with
            status := .normal
            gapCommitQuorum := r.gapCommitQuorum.clear
            gapCommitTimeout := false }
    else
      pure ()
  else
    pure ()

/-! ## State transfer -/

/-- `NOPaxosReplica::HandleStateTransferRequest`. -/
def handleStateTransferRequest (remote : Address) (msg : StateTransferRequestMessage) :
    Run Unit := do
  let r ← get
  if msg.sessnum ≠ r.sessnum ∨ msg.view ≠ r.view then
    pure ()
  else if r.lastOp < msg.begin_ ∨ r.lastOp + 1 < msg.end_ then
    pure ()
  else
    let entries ← demand (r.log.dump msg.begin_ msg.end_)
    sendMessage remote (.stateTransferReply
      { sessnum := r.sessnum, view := r.view, begin_ := msg.begin_, end_ := msg.end_,
        entries := entries })

/-- One round of the loop of `HandleStateTransferReply`. -/
def transferEntry (entry : Entry) : Run Unit := do
  let r ← get
  require (entry.viewstamp.opnum = r.lastOp + 1)
  processNextOperation setup app entry.request entry.viewstamp entry.state

/-- `NOPaxosReplica::HandleStateTransferReply`. The difference `msg.end() - 1` wraps around for
zero; what is read at a negative index is undefined, and the replica stops there. -/
def handleStateTransferReply (msg : StateTransferReplyMessage) : Run Unit := do
  let r ← get
  if msg.sessnum ≠ r.sessnum ∨ msg.view ≠ r.view then
    pure ()
  else if 0 < msg.end_ ∧ msg.end_ - 1 ≤ r.lastOp then
    pure ()
  else
    let first ← demand msg.entries.head?
    let last ← demand msg.entries.getLast?
    require (first.viewstamp.opnum = msg.begin_)
    require (last.viewstamp.opnum + 1 = msg.end_)
    require (msg.begin_ ≤ r.lastOp + 1)
    forEach (msg.entries.drop (r.lastOp + 1 - msg.begin_)) (transferEntry setup app)

/-! ## View change messages -/

/-- `NOPaxosReplica::HandleViewChangeRequest`. -/
def handleViewChangeRequest (msg : ViewChangeRequestMessage) : Run Unit := do
  let r ← get
  if r.sessnum < msg.sessnum ∨ r.view < msg.view then
    startViewChange setup msg.sessnum msg.view
  else
    pure ()

/-- What the leader finds in the messages of a view change: the last session and the last view that
any of them was normal in, and how far its own log counts. -/
structure Latest where
  sessnum : Nat
  view : Nat
  op : Nat
deriving DecidableEq, Repr

/-- One round of the first loop of `HandleViewChange`. -/
def Latest.consider (latest : Latest) (msg : ViewChangeMessage) : Latest :=
  { sessnum := max latest.sessnum msg.lastnormalsessnum
    view := max latest.view msg.lastnormalview
    op := if latest.sessnum < msg.lastnormalsessnum ∨ latest.view < msg.lastnormalview then 0
      else latest.op }

/-- The first loop of `HandleViewChange`. -/
def Replica.latest (r : Replica) (msgs : List ViewChangeMessage) : Latest :=
  msgs.foldl Latest.consider
    { sessnum := r.lastNormalSessnum, view := r.lastNormalView, op := r.lastOp }

/-- The second loop of `HandleViewChange`: install the gaps of the logs from the latest session and
view, and find the longest of them. Where a gap completes a state transfer, the replica enters the
view, and that clears the quorum that the loop goes over. -/
def mergeLogs (latest : Latest) : Nat → Option Nat → List ViewChangeMessage →
    Run (Nat × Option Nat)
  | latestOp, latestOpReplicaIdx, [] => pure (latestOp, latestOpReplicaIdx)
  | latestOp, latestOpReplicaIdx, x :: rest => do
    require (x.lastnormalsessnum ≤ latest.sessnum)
    require (x.lastnormalview ≤ latest.view)
    if x.lastnormalsessnum = latest.sessnum ∧ x.lastnormalview = latest.view then
      installCommittedGaps setup app x.committedgaps
      let r ← get
      require (r.status = .viewChange)
      if latestOp < x.lastop then
        mergeLogs latest x.lastop (some x.replicaIdx) rest
      else
        mergeLogs latest latestOp latestOpReplicaIdx rest
    else
      mergeLogs latest latestOp latestOpReplicaIdx rest

/-- The part of `HandleViewChange` after the second loop. -/
def completeMerge (latest : Latest) (latestOp : Nat) (latestOpReplicaIdx : Option Nat) :
    Run Unit := do
  let r ← get
  require (∀ lastGap ∈ r.committedGaps.last?, lastGap ≤ latestOp)
  modify fun r =>
    { r with
      startViewLastNormalSessnum := latest.sessnum
      startViewLastNormalView := latest.view
      startViewLastOp := latestOp
      startViewCommittedGaps := r.committedGaps }
  match latestOpReplicaIdx with
  | some replicaIdx =>
    require (r.lastOp < latestOp)
    modify fun r =>
      { r with
        stateTransferOpBegin := r.lastOp + 1
        stateTransferOpEnd := latestOp + 1
        stateTransferReplicaIdx := replicaIdx
        stateTransferCallback := .enterView }
    emit (.transferStarted (latestOp + 1))
    sendStateTransferRequest
  | none =>
    require (latestOp = r.lastOp)
    enterView setup app r.sessnum r.view

/-- The part of `HandleViewChange` for a quorum of messages. The loops of the source go over the
quorum itself. -/
def mergeQuorum (msgs : List ViewChangeMessage) : Run Unit := do
  let r ← get
  let latest := r.latest msgs
  emit (.merged (r.lastNormalSessnum, r.lastNormalView)
    (msgs.map fun x => (x.lastnormalsessnum, x.lastnormalview)) (latest.sessnum, latest.view))
  if r.lastNormalSessnum < latest.sessnum ∨ r.lastNormalView < latest.view then
    rewindLogToOpnum r.lastCommittedOp
    modify fun r => { r with committedGaps := {} }
    let (latestOp, latestOpReplicaIdx) ← mergeLogs setup app latest latest.op none msgs
    completeMerge setup app latest latestOp latestOpReplicaIdx
  else
    let (latestOp, latestOpReplicaIdx) ← mergeLogs setup app latest latest.op none msgs
    completeMerge setup app latest latestOp latestOpReplicaIdx

/-- `HandleViewChange`, after the replica has joined the view change. -/
def joinedViewChange (remote : Address) (msg : ViewChangeMessage) : Run Unit := do
  let r ← get
  if msg.sessnum < r.sessnum ∨ msg.view < r.view then
    pure ()
  else
    require (msg.sessnum = r.sessnum ∧ msg.view = r.view)
    require (setup.AmLeader r.view)
    if r.status ≠ .viewChange then
      sendMessage remote (.startView r.startViewMessage)
    else
      let (quorum, found) :=
        r.viewChangeQuorum.addAndCheckForQuorum (msg.sessnum, msg.view) msg.replicaIdx msg
      modify fun r => { r with viewChangeQuorum := quorum }
      match found with
      | none => pure ()
      | some msgs => mergeQuorum setup app msgs.values

/-- `NOPaxosReplica::HandleViewChange`. -/
def handleViewChange (remote : Address) (msg : ViewChangeMessage) : Run Unit := do
  let r ← get
  if r.sessnum < msg.sessnum ∨ r.view < msg.view then
    startViewChange setup msg.sessnum msg.view
    joinedViewChange setup app remote msg
  else
    joinedViewChange setup app remote msg

/-- The part of `HandleStartView` that drops what the log has and the new view does not. -/
def rewindForView (msg : StartViewMessage) : Run Unit := do
  let r ← get
  if r.lastNormalSessnum < msg.lastnormalsessnum ∨ r.lastNormalView < msg.lastnormalview then
    rewindLogToOpnum r.lastCommittedOp
  else
    require (r.lastNormalSessnum = msg.lastnormalsessnum)
    require (r.lastNormalView = msg.lastnormalview)
    if msg.lastop < r.lastOp then
      rewindLogToOpnum msg.lastop
    else
      pure ()

/-- The last gap of the replica, where the new view has only earlier ones. -/
def Replica.outdatedGap (r : Replica) (msg : StartViewMessage) : Option Nat :=
  if r.lastNormalSessnum = msg.lastnormalsessnum ∧ r.lastNormalView = msg.lastnormalview then
    r.committedGaps.last?.filter fun lastGap =>
      decide (∃ gap ∈ msg.committedgaps.getLast?, gap < lastGap)
  else
    none

/-- The part of `HandleStartView` that drops a gap which the new view does not have. -/
def rewindForGap (msg : StartViewMessage) : Run Unit := do
  let r ← get
  match r.outdatedGap msg with
  | some lastGap => rewindLogToOpnum (lastGap - 1)
  | none => pure ()

/-- The part of `HandleStartView` after the gaps are installed. -/
def completeStartView (msg : StartViewMessage) : Run Unit := do
  let r ← get
  if r.lastOp < msg.lastop then
    modify fun r =>
      { { r with
          sessnum := msg.sessnum
          view := msg.view
          status := .viewChange }.clearTimeoutAndQuorums with
        stateTransferOpBegin := r.lastOp + 1
        stateTransferOpEnd := msg.lastop + 1
        stateTransferReplicaIdx := setup.configuration.getLeaderIndex msg.view
        stateTransferCallback := .enterView }
    emit (.transferStarted (msg.lastop + 1))
    sendStateTransferRequest
  else
    enterView setup app msg.sessnum msg.view

/-- `NOPaxosReplica::HandleStartView`. -/
def handleStartView (msg : StartViewMessage) : Run Unit := do
  let r ← get
  if msg.sessnum < r.sessnum ∨ msg.view < r.view then
    pure ()
  else if msg.sessnum = r.sessnum ∧ msg.view = r.view ∧ r.status ≠ .viewChange then
    sendStartViewReply setup
  else
    require (¬ setup.AmLeader msg.view)
    rewindForView msg
    rewindForGap msg
    modify fun r => { r with committedGaps := {} }
    installCommittedGaps setup app msg.committedgaps
    completeStartView setup app msg

/-- `NOPaxosReplica::HandleStartViewReply`. -/
def handleStartViewReply (msg : StartViewReplyMessage) : Run Unit := do
  let r ← get
  if msg.sessnum ≠ r.sessnum ∨ msg.view ≠ r.view then
    pure ()
  else
    require (r.status = .normal)
    require (setup.AmLeader r.view)
    if r.startViewTimeout then
      let (quorum, found) :=
        r.startViewQuorum.addAndCheckForQuorum (msg.sessnum, msg.view) msg.replicaIdx msg
      modify fun r => { r with startViewQuorum := quorum }
      match found with
      | none => pure ()
      | some _ =>
        commitUptoOp setup app r.startViewLastOp
        modify fun r =>
          { r with startViewTimeout := false, startViewQuorum := r.startViewQuorum.clear }
    else
      pure ()

/-! ## Synchronization -/

/-- `MAX_SYNC_TRANSFER_OPS`. -/
def maxSyncTransferOps : Nat := 10

/-- The part of `HandleSyncPrepare` after the gaps are installed. -/
def completeSyncPrepare (msg : SyncPrepareMessage) : Run Unit := do
  let r ← get
  if r.lastOp < msg.lastop then
    modify fun r =>
      { r with
        stateTransferOpBegin := r.lastOp + 1
        stateTransferOpEnd := msg.lastop + 1
        stateTransferReplicaIdx := setup.configuration.getLeaderIndex msg.view
        stateTransferCallback := .processSyncPrepare msg.lastop }
    emit (.transferStarted (msg.lastop + 1))
    if msg.lastop - r.lastOp ≤ maxSyncTransferOps then
      sendStateTransferRequest
    else
      pure ()
  else
    processSyncPrepare setup app msg.lastop

/-- `NOPaxosReplica::HandleSyncPrepare`. -/
def handleSyncPrepare (msg : SyncPrepareMessage) : Run Unit := do
  let current ← checkViewNumAndStatus setup msg.sessnum msg.view
  if current then
    modify fun r => { r with leaderSyncHeardTimeout := true }
    let r ← get
    if msg.lastop ≤ r.lastCommittedOp then
      pure ()
    else
      require (r.sessnum = msg.sessnum ∧ r.view = msg.view)
      require (¬ setup.AmLeader r.view)
      modify fun r =>
        { r with receivedSyncPreparePoints := r.receivedSyncPreparePoints.insert msg.lastop }
      installCommittedGaps setup app msg.committedgaps
      completeSyncPrepare setup app msg
  else
    pure ()

/-- `NOPaxosReplica::HandleSyncPrepareReply`. -/
def handleSyncPrepareReply (msg : SyncPrepareReplyMessage) : Run Unit := do
  let current ← checkViewNumAndStatus setup msg.sessnum msg.view
  if current then
    let r ← get
    require (setup.AmLeader r.view)
    if msg.syncpoint ≤ r.lastCommittedOp then
      pure ()
    else if msg.syncpoint ≠ r.leaderLastSyncPreparePoint then
      pure ()
    else
      let (quorum, found) :=
        r.syncPrepareQuorum.addAndCheckForQuorum msg.syncpoint msg.replicaIdx msg
      modify fun r => { r with syncPrepareQuorum := quorum }
      match found with
      | none => pure ()
      | some _ => commitUptoOp setup app msg.syncpoint
  else
    pure ()

/-- `NOPaxosReplica::HandleSyncCommit`. -/
def handleSyncCommit (msg : SyncCommitMessage) : Run Unit := do
  let current ← checkViewNumAndStatus setup msg.sessnum msg.view
  if current then
    let r ← get
    require (¬ setup.AmLeader r.view)
    if msg.syncpoint ≤ r.lastCommittedOp then
      pure ()
    else
      require (r.sessnum = msg.sessnum ∧ r.view = msg.view)
      modify fun r =>
        { r with receivedSyncCommitPoints := r.receivedSyncCommitPoints.insert msg.syncpoint }
      if msg.syncpoint ∈ r.receivedSyncPreparePoints then
        if msg.syncpoint ≤ r.lastOp then
          commitUptoOp setup app msg.syncpoint
          modify fun r =>
            { r with
              receivedSyncPreparePoints := r.receivedSyncPreparePoints.erase msg.syncpoint
              receivedSyncCommitPoints := r.receivedSyncCommitPoints.erase msg.syncpoint }
        else
          pure ()
      else
        sendToReplica (setup.configuration.getLeaderIndex r.view)
          (.syncPrepareRequest { sessnum := r.sessnum, view := r.view })
  else
    pure ()

/-! ## Any message and any timer -/

/-- The dispatch of `ReceiveMessage`. No handler is called for a `SyncPrepareRequest`. -/
def dispatch (remote : Address) : Message → Run Unit
  | .request msg => handleClientRequest setup app remote msg
  | .unloggedRequest msg => handleUnloggedRequest app remote msg
  | .gapRequest msg => handleGapRequest setup remote msg
  | .gapReply msg => handleGapReply setup app msg
  | .gapCommit msg => handleGapCommit setup app remote msg
  | .gapCommitReply msg => handleGapCommitReply setup msg
  | .stateTransferRequest msg => handleStateTransferRequest remote msg
  | .stateTransferReply msg => handleStateTransferReply setup app msg
  | .viewChangeRequest msg => handleViewChangeRequest setup msg
  | .viewChange msg => handleViewChange setup app remote msg
  | .startView msg => handleStartView setup app msg
  | .startViewReply msg => handleStartViewReply setup app msg
  | .syncPrepare msg => handleSyncPrepare setup app msg
  | .syncPrepareReply msg => handleSyncPrepareReply setup app msg
  | .syncCommit msg => handleSyncCommit setup app msg
  | .syncPrepareRequest _ => stop
  | .reply _ => stop
  | .unloggedReply _ => stop

/-- `NOPaxosReplica::ReceiveMessage`. -/
def receiveMessage (remote : Address) (msg : Message) : Run Unit := do
  dispatch setup app remote msg
  processPendingRequests setup app

/-- The timeouts of a replica. -/
inductive Timer where
  | startGapRequest
  | gapRequest
  | gapCommit
  | viewChange
  | stateTransfer
  | startView
  | sync
  | leaderSyncHeard
deriving DecidableEq, Repr

/-- `Timeout::Active`. -/
def Replica.active (r : Replica) : Timer → Bool
  | .startGapRequest => r.startGapRequestTimeout
  | .gapRequest => r.gapRequestTimeout
  | .gapCommit => r.gapCommitTimeout
  | .viewChange => r.viewChangeTimeout
  | .stateTransfer => r.stateTransferTimeout
  | .startView => r.startViewTimeout
  | .sync => r.syncTimeout
  | .leaderSyncHeard => r.leaderSyncHeardTimeout

/-- The callback of `gapRequestTimeout`. -/
def gapRequestTimedOut : Run Unit := do
  let r ← get
  if setup.AmLeader r.view then
    startGapAgreement setup app
  else
    sendGapRequest setup

/-- The callbacks that the constructor gives the timeouts. -/
def fireTimer : Timer → Run Unit
  | .startGapRequest => do
    modify fun r => { r with startGapRequestTimeout := false }
    sendGapRequest setup
  | .gapRequest => gapRequestTimedOut setup app
  | .gapCommit => sendGapCommit setup
  | .viewChange => sendViewChange setup
  | .stateTransfer => sendStateTransferRequest
  | .startView => sendStartView setup
  | .sync => sendSyncPrepare setup
  | .leaderSyncHeard => do
    let r ← get
    startViewChange setup r.sessnum (r.view + 1)

/-- A replica as `NOPaxosReplica` constructs it. -/
def Replica.constructed : Replica where
  gapReplyQuorum := { numRequired := setup.configuration.n - 1 }
  gapCommitQuorum := { numRequired := setup.configuration.quorumSize - 1 }
  viewChangeQuorum := { numRequired := setup.configuration.quorumSize - 1 }
  startViewQuorum := { numRequired := setup.configuration.quorumSize - 1 }
  syncPrepareQuorum := { numRequired := setup.configuration.quorumSize - 1 }
  syncTimeout := decide (setup.AmLeader 0)
  leaderSyncHeardTimeout := !decide (setup.AmLeader 0)

end PaxosBus.NoPaxos

import PaxosBus.Common.Configuration
import PaxosBus.Common.QuorumSet
import PaxosBus.Common.ReplicaLog
import PaxosBus.Library.Handler
import PaxosBus.Vr.Message

/-!
# The replica of Viewstamped Replication

The handlers and timer callbacks of `VRReplica`. A failed `ASSERT` or a `Panic`
stops the replica with what it has done by then; the checks that only a
`PARANOID` build makes are not there. Numbers of views and operations are
unbounded, except in the one difference that can wrap around. A timeout is a
flag that says whether it is running; it stays running when it fires.
-/

set_option autoImplicit false

namespace PaxosBus.Vr

open PaxosBus.Common PaxosBus.Library
open Std (TreeMap)

/-- `ReplicaStatus`. -/
inductive Status where
  | normal
  | viewChange
  | recovering
deriving DecidableEq, Repr

/-- What the application answers to the upcalls of one step. `leaderUpcall` says whether to
replicate the operation, and gives the operation to replicate or else the reply. -/
structure App where
  execute : Nat → Request → String := fun _ _ => ""
  executeUnlogged : String → String := fun _ => ""
  leaderUpcall : Nat → String → Bool × String := fun _ op => (true, op)

/-- What a replica is constructed with. -/
structure Setup where
  configuration : Configuration
  replicaIdx : Nat
  batchSize : Nat

/-- `ClientTableEntry`. -/
structure ClientTableEntry where
  lastReqId : Nat := 0
  replied : Bool := false
  reply : ReplyMessage := {}
deriving DecidableEq, Repr

/-- The state of a `VRReplica`. The last two fields are history that no handler reads: the
last view in which the status was normal, and the highest view in which the replica has been
normal or sent a `DoViewChange`. -/
structure Replica where
  status : Status := .normal
  view : Nat := 0
  lastCommitted : Nat := 0
  lastOp : Nat := 0
  lastRequestStateTransferView : Nat := 0
  lastRequestStateTransferOpnum : Nat := 0
  recoveryNonce : Nat := 0
  pendingPrepares : List (Address × PrepareMessage) := []
  lastPrepare : PrepareMessage := {}
  lastBatchEnd : Nat := 0
  batchComplete : Bool := true
  log : Log Unit := Log.new ⟨fun _ _ _ => (), ()⟩ false
  clientAddresses : Nat → Option Address := fun _ => none
  clientTable : Nat → Option ClientTableEntry := fun _ => none
  prepareOKQuorum : QuorumSet Viewstamp PrepareOKMessage
  startViewChangeQuorum : QuorumSet Nat StartViewChangeMessage
  doViewChangeQuorum : QuorumSet Nat DoViewChangeMessage
  recoveryResponseQuorum : QuorumSet Nat RecoveryResponseMessage
  viewChangeTimeout : Bool := false
  nullCommitTimeout : Bool := false
  stateTransferTimeout : Bool := true
  resendPrepareTimeout : Bool := false
  closeBatchTimeout : Bool := false
  recoveryTimeout : Bool := false
  normalView : Nat := 0
  fence : Nat := 0

/-- A piece of a replica's program. -/
abbrev Run (α : Type) := Handler Replica Output α

/-- What happens in a step where the source leaves it undefined: what a read past the end of an
empty map yields, and what the replica does from where it goes through a pointer to what is gone.
Anything may. -/
structure Undefined where
  pastEnd : Nat := 0
  dangling : Run Unit := Handler.stop

namespace Setup

variable (setup : Setup)

/-- `VRReplica::AmLeader` in a view. -/
def AmLeader (view : Nat) : Prop := setup.configuration.getLeaderIndex view = setup.replicaIdx

instance (view : Nat) : Decidable (setup.AmLeader view) :=
  inferInstanceAs (Decidable (_ = _))

end Setup

open Handler

/-- `Transport::SendMessageToAll`. -/
def sendToAll (msg : Message) : Run Unit := emit (.send .others msg)

/-- `Transport::SendMessageToReplica`. -/
def sendToReplica (replicaIdx : Nat) (msg : Message) : Run Unit :=
  emit (.send (.one (.replica replicaIdx)) msg)

/-- `Transport::SendMessage`. -/
def sendMessage (remote : Address) (msg : Message) : Run Unit := emit (.send (.one remote) msg)

namespace Replica

variable (setup : Setup)

/-- `clientTable[clientid]`, which creates an entry where there is none. -/
def tableEntry (r : Replica) (clientid : Nat) : ClientTableEntry := (r.clientTable clientid).getD {}

/-- Replace the table entry of a client. -/
def setTableEntry (r : Replica) (clientid : Nat) (entry : ClientTableEntry) : Replica :=
  { r with clientTable := Function.update r.clientTable clientid (some entry) }

/-- The part of `CommitUpTo` that stores a reply in the client table. -/
def storeReply (r : Replica) (request : Request) (reply : ReplyMessage) : Replica :=
  if (r.tableEntry request.clientid).lastReqId ≤ request.clientreqid then
    r.setTableEntry request.clientid
      { lastReqId := request.clientreqid, replied := true, reply := reply }
  else
    r

/-- `VRReplica::EnterView`. -/
def enterView (r : Replica) (newview : Nat) : Replica :=
  { r with
    view := newview
    status := .normal
    lastBatchEnd := r.lastOp
    batchComplete := true
    recoveryTimeout := false
    viewChangeTimeout := !decide (setup.AmLeader newview)
    nullCommitTimeout := decide (setup.AmLeader newview)
    resendPrepareTimeout := decide (setup.AmLeader newview) && r.resendPrepareTimeout
    closeBatchTimeout := decide (setup.AmLeader newview) && r.closeBatchTimeout
    prepareOKQuorum := r.prepareOKQuorum.clear
    startViewChangeQuorum := r.startViewChangeQuorum.clear
    doViewChangeQuorum := r.doViewChangeQuorum.clear
    recoveryResponseQuorum := r.recoveryResponseQuorum.clear
    normalView := newview
    fence := newview }

end Replica

variable (setup : Setup) (app : App)

/-- `VRReplica::UpdateClientTable`. -/
def updateClientTable (req : Request) : Run Unit := do
  let r ← get
  let entry := r.tableEntry req.clientid
  require (entry.lastReqId ≤ req.clientreqid)
  if entry.lastReqId = req.clientreqid then
    modify (·.setTableEntry req.clientid entry)
  else
    modify (·.setTableEntry req.clientid { lastReqId := req.clientreqid })

/-- One round of the loop of `CommitUpTo`. -/
def commitNext : Run Unit := do
  modify fun r => { r with lastCommitted := r.lastCommitted + 1 }
  let r ← get
  let opnum := r.lastCommitted
  let entry ← demand (r.log.find opnum)
  emit (.execute opnum entry.request)
  let reply : ReplyMessage :=
    { view := entry.viewstamp.view, opnum := entry.viewstamp.opnum,
      reply := app.execute opnum entry.request, clientreqid := entry.request.clientreqid }
  modify fun r => { r with log := (r.log.setStatus opnum .committed).1 }
  modify (·.storeReply entry.request reply)
  match r.clientAddresses entry.request.clientid with
  | some addr => sendMessage addr (.reply reply)
  | none => pure ()

/-- `VRReplica::CommitUpTo`. -/
def commitUpTo (upto : Nat) : Run Unit := do
  let r ← get
  repeated (upto - r.lastCommitted) (commitNext app)

/-- One round of the loop of `SendPrepareOKs`. -/
def sendPrepareOK (i : Nat) : Run Unit := do
  let r ← get
  if i ≤ r.lastCommitted then
    pure ()
  else
    let entry ← demand (r.log.find i)
    require (entry.state = .prepared)
    updateClientTable entry.request
    sendToReplica (setup.configuration.getLeaderIndex r.view)
      (.prepareOK { view := r.view, opnum := i, replicaidx := setup.replicaIdx })

/-- `VRReplica::SendPrepareOKs`. -/
def sendPrepareOKs (oldLastOp : Nat) : Run Unit := do
  let r ← get
  forEach (List.range' oldLastOp (r.lastOp + 1 - oldLastOp)) (sendPrepareOK setup)

/-- `VRReplica::SendRecoveryMessages`. -/
def sendRecoveryMessages : Run Unit := do
  let r ← get
  sendToAll (.recovery { replicaidx := setup.replicaIdx, nonce := r.recoveryNonce })

/-- `VRReplica::RequestStateTransfer`. -/
def requestStateTransfer : Run Unit := do
  let r ← get
  if r.lastRequestStateTransferOpnum ≠ 0 ∧ r.lastRequestStateTransferView = r.view ∧
      r.lastRequestStateTransferOpnum = r.lastCommitted then
    pure ()
  else
    modify fun r =>
      { r with
        lastRequestStateTransferView := r.view
        lastRequestStateTransferOpnum := r.lastCommitted }
    sendToAll (.requestStateTransfer { view := r.view, opnum := r.lastCommitted })

/-- `VRReplica::StartViewChange`. -/
def startViewChange (newview : Nat) : Run Unit := do
  modify fun r =>
    { r with
      view := newview
      status := .viewChange
      viewChangeTimeout := true
      nullCommitTimeout := false
      resendPrepareTimeout := false
      closeBatchTimeout := false }
  let r ← get
  sendToAll (.startViewChange
    { view := newview, replicaidx := setup.replicaIdx, lastcommitted := r.lastCommitted })

/-- `VRReplica::SendNullCommit`. -/
def sendNullCommit : Run Unit := do
  let r ← get
  require (setup.AmLeader r.view)
  sendToAll (.commit { view := r.view, opnum := r.lastCommitted })

/-- `VRReplica::ResendPrepare`. -/
def resendPrepare : Run Unit := do
  let r ← get
  require (setup.AmLeader r.view)
  if r.lastOp = r.lastCommitted then
    pure ()
  else
    sendToAll (.prepare r.lastPrepare)

/-- The loop of `CloseBatch`: the requests of `count` operations from `i` on, which must all be
in the log and from `view`. -/
def batchRequests (log : Log Unit) (view : Nat) : Nat → Nat → Option (List Request)
  | _, 0 => some []
  | i, count + 1 =>
    (log.find i).bind fun entry =>
      if entry.viewstamp.view = view ∧ entry.viewstamp.opnum = i then
        (batchRequests log view (i + 1) count).map (entry.request :: ·)
      else
        none

/-- `VRReplica::CloseBatch`. -/
def closeBatch : Run Unit := do
  let r ← get
  require (setup.AmLeader r.view)
  require (r.lastBatchEnd < r.lastOp)
  let batchStart := r.lastBatchEnd + 1
  let requests ← demand (batchRequests r.log r.view batchStart (r.lastOp + 1 - batchStart))
  let p : PrepareMessage :=
    { view := r.view, opnum := r.lastOp, batchstart := batchStart, request := requests }
  modify fun r => { r with lastPrepare := p }
  sendToAll (.prepare p)
  modify fun r =>
    { r with
      lastBatchEnd := r.lastOp
      batchComplete := false
      resendPrepareTimeout := true
      closeBatchTimeout := false }

/-- The part of `HandleRequest` that handles a request which is not a duplicate. -/
def acceptRequest (remote : Address) (msg : RequestMessage) : Run Unit := do
  updateClientTable msg.req
  let r ← get
  let (replicate, res) := app.leaderUpcall r.lastCommitted msg.req.op
  if ¬ replicate then
    let reply : ReplyMessage := { reply := res, clientreqid := msg.req.clientreqid }
    modify fun r =>
      r.setTableEntry msg.req.clientid
        { r.tableEntry msg.req.clientid with replied := true, reply := reply }
    sendMessage remote (.reply reply)
  else
    let request : Request :=
      { op := res, clientid := msg.req.clientid, clientreqid := msg.req.clientreqid }
    let log ← demand (r.log.append { view := r.view, opnum := r.lastOp + 1 } request .prepared)
    modify fun r => { r with lastOp := r.lastOp + 1, log := log }
    let r ← get
    -- `lastOp - lastBatchEnd` is a difference of `uint64_t`.
    if r.batchComplete = true ∨
        setup.batchSize < (r.lastOp + 2 ^ 64 - r.lastBatchEnd) % 2 ^ 64 + 1 then
      closeBatch setup
    else
      modify fun r => { r with closeBatchTimeout := true }
    modify fun r => { r with nullCommitTimeout := true }

/-- `VRReplica::HandleRequest`. -/
def handleRequest (remote : Address) (msg : RequestMessage) : Run Unit := do
  let r ← get
  if r.status ≠ .normal then
    pure ()
  else if ¬ setup.AmLeader r.view then
    pure ()
  else
    modify fun r =>
      { r with
        clientAddresses := Function.update r.clientAddresses msg.req.clientid (some remote) }
    match r.clientTable msg.req.clientid with
    | none => acceptRequest setup app remote msg
    | some entry =>
      if msg.req.clientreqid < entry.lastReqId then
        pure ()
      else if msg.req.clientreqid = entry.lastReqId then
        if entry.replied then
          sendMessage remote (.reply entry.reply)
        else
          pure ()
      else
        acceptRequest setup app remote msg

/-- `VRReplica::HandleUnloggedRequest`. -/
def handleUnloggedRequest (remote : Address) (msg : UnloggedRequestMessage) : Run Unit := do
  let r ← get
  if r.status ≠ .normal then
    pure ()
  else
    sendMessage remote (.unloggedReply { reply := app.executeUnlogged msg.op })

/-- The loop of `HandlePrepare` over the requests of a batch, of which the first has the number
`op`. Returns the number after the last. -/
def appendRequests (view : Nat) : Nat → List Request → Run Nat
  | op, [] => pure op
  | op, req :: rest => do
    let r ← get
    if op ≤ r.lastOp then
      appendRequests view (op + 1) rest
    else
      let log ← demand (r.log.append { view := view, opnum := op } req .prepared)
      modify fun r => { r with lastOp := r.lastOp + 1, log := log }
      updateClientTable req
      appendRequests view (op + 1) rest

/-- `VRReplica::HandlePrepare`. -/
def handlePrepare (remote : Address) (msg : PrepareMessage) : Run Unit := do
  let r ← get
  let reply : PrepareOKMessage :=
    { view := msg.view, opnum := msg.opnum, replicaidx := setup.replicaIdx }
  if r.status ≠ .normal then
    pure ()
  else if msg.view < r.view then
    pure ()
  else if r.view < msg.view then
    requestStateTransfer
    modify fun r => { r with pendingPrepares := r.pendingPrepares ++ [(remote, msg)] }
  else
    require (¬ setup.AmLeader r.view)
    require (msg.batchstart ≤ msg.opnum)
    require (msg.opnum + 1 - msg.batchstart = msg.request.length)
    modify fun r => { r with viewChangeTimeout := true }
    if msg.opnum ≤ r.lastOp then
      sendToReplica (setup.configuration.getLeaderIndex r.view) (.prepareOK reply)
    else if r.lastOp + 1 < msg.batchstart then
      requestStateTransfer
      modify fun r => { r with pendingPrepares := r.pendingPrepares ++ [(remote, msg)] }
    else
      let next ← appendRequests msg.view msg.batchstart msg.request
      require (next = msg.opnum + 1)
      sendToReplica (setup.configuration.getLeaderIndex r.view) (.prepareOK reply)

/-- Mark the operation as prepared in the history if `f` other replicas have acknowledged it. -/
def markPrepared (msg : PrepareOKMessage) (msgs : TreeMap Nat PrepareOKMessage) : Run Unit := do
  let r ← get
  if setup.configuration.f ≤ (msgs.erase setup.replicaIdx).size then
    emit (.prepared r.view msg.opnum r.log.entries)
  else
    pure ()

/-- The quorum branch of `HandlePrepareOK`. -/
def commitPrepared (msg : PrepareOKMessage) (msgs : TreeMap Nat PrepareOKMessage) :
    Run Unit := do
  markPrepared setup msg msgs
  commitUpTo app msg.opnum
  if setup.configuration.quorumSize ≤ msgs.size then
    pure ()
  else
    let r ← get
    sendToAll (.commit { view := r.view, opnum := r.lastCommitted })
    modify fun r => { r with nullCommitTimeout := true }
    if r.lastBatchEnd = msg.opnum then
      modify fun r => { r with batchComplete := true }
      if r.lastBatchEnd < r.lastOp then
        closeBatch setup
      else
        pure ()
    else
      pure ()

/-- `VRReplica::HandlePrepareOK`. -/
def handlePrepareOK (msg : PrepareOKMessage) : Run Unit := do
  let r ← get
  if r.status ≠ .normal then
    pure ()
  else if msg.view < r.view then
    pure ()
  else if r.view < msg.view then
    requestStateTransfer
  else if ¬ setup.AmLeader r.view then
    pure ()
  else
    let vs : Viewstamp := { view := msg.view, opnum := msg.opnum }
    let (quorum, found) := r.prepareOKQuorum.addAndCheckForQuorum vs msg.replicaidx msg
    modify fun r => { r with prepareOKQuorum := quorum }
    match found with
    | none => pure ()
    | some msgs => commitPrepared setup app msg msgs

/-- `VRReplica::HandleCommit`. -/
def handleCommit (msg : CommitMessage) : Run Unit := do
  let r ← get
  if r.status ≠ .normal then
    pure ()
  else if msg.view < r.view then
    pure ()
  else if r.view < msg.view then
    requestStateTransfer
  else
    require (¬ setup.AmLeader r.view)
    modify fun r => { r with viewChangeTimeout := true }
    if msg.opnum ≤ r.lastCommitted then
      pure ()
    else if r.lastOp < msg.opnum then
      requestStateTransfer
    else
      commitUpTo app msg.opnum

/-- `VRReplica::HandleRequestStateTransfer`. -/
def handleRequestStateTransfer (remote : Address) (msg : RequestStateTransferMessage) :
    Run Unit := do
  let r ← get
  if r.status ≠ .normal then
    pure ()
  else if r.view < msg.view then
    requestStateTransfer
  else
    sendMessage remote (.stateTransfer
      { view := r.view, opnum := r.lastCommitted, entries := r.log.dump (msg.opnum + 1) })

/-- One round of the first loop of `HandleStateTransfer`, which changes `oldLastOp`. -/
def transferEntry (oldLastOp : Nat) (newEntry : Entry) : Run Nat := do
  let r ← get
  let vs : Viewstamp := { view := newEntry.viewstamp.view, opnum := newEntry.viewstamp.opnum }
  if newEntry.viewstamp.opnum ≤ r.lastCommitted then
    pure oldLastOp
  else if newEntry.viewstamp.opnum ≤ r.lastOp then
    let entry ← demand (r.log.find newEntry.viewstamp.opnum)
    require (entry.viewstamp.opnum = newEntry.viewstamp.opnum)
    require (entry.viewstamp.view ≤ newEntry.viewstamp.view)
    if entry.viewstamp.view = newEntry.viewstamp.view then
      require (entry.state = .prepared)
      pure oldLastOp
    else
      require (entry.state ≠ .committed)
      let cut ← demand (r.log.removeAfter newEntry.viewstamp.opnum)
      let log ← demand (cut.append vs newEntry.request .prepared)
      modify fun r => { r with lastOp := newEntry.viewstamp.opnum, log := log }
      pure newEntry.viewstamp.opnum
  else
    require (newEntry.viewstamp.opnum = r.lastOp + 1)
    let log ← demand (r.log.append vs newEntry.request .prepared)
    modify fun r => { r with lastOp := r.lastOp + 1, log := log }
    pure oldLastOp

/-- The first loop of `HandleStateTransfer`. -/
def transferEntries (oldLastOp : Nat) : List Entry → Run Nat
  | [] => pure oldLastOp
  | newEntry :: rest => do
    let oldLastOp ← transferEntry oldLastOp newEntry
    transferEntries oldLastOp rest

/-- The part of `HandleStateTransfer` after the entries are merged and the view is entered. -/
def completeTransfer (msg : StateTransferMessage) (oldLastOp : Nat) : Run Unit := do
  let r ← get
  require (msg.opnum ≤ r.lastOp)
  commitUpTo app msg.opnum
  sendPrepareOKs setup oldLastOp
  let r ← get
  modify fun r => { r with pendingPrepares := [] }
  forEach r.pendingPrepares fun (remote, prepare) => handlePrepare setup remote prepare

/-- `VRReplica::HandleStateTransfer`. -/
def handleStateTransfer (msg : StateTransferMessage) : Run Unit := do
  let r ← get
  if msg.view < r.view then
    pure ()
  else
    let oldLastOp ← transferEntries r.lastOp msg.entries
    if r.view < msg.view then
      modify (·.enterView setup msg.view)
      completeTransfer setup app msg oldLastOp
    else
      completeTransfer setup app msg oldLastOp

/-- The smallest `lastcommitted` of some messages, where `undefined` is what reading past the
end of an empty map yields. -/
def minCommitted {Msg : Type} (lastcommitted : Msg → Nat) (undefined : Nat)
    (msgs : TreeMap Nat Msg) : Nat :=
  ((msgs.values.map lastcommitted).min?).getD undefined

/-- The part of `HandleStartViewChange` after the replica has joined the view change. -/
def countStartViewChange (undefined : Undefined) (msg : StartViewChangeMessage) : Run Unit := do
  let r ← get
  require (msg.view = r.view)
  let (quorum, found) :=
    r.startViewChangeQuorum.addAndCheckForQuorum msg.view msg.replicaidx msg
  modify fun r => { r with startViewChangeQuorum := quorum }
  match found with
  | none => pure ()
  | some msgs =>
    let leader := setup.configuration.getLeaderIndex r.view
    if leader ≠ setup.replicaIdx then
      let committed :=
        min (minCommitted StartViewChangeMessage.lastcommitted undefined.pastEnd msgs)
          r.lastCommitted
      modify fun r => { r with fence := r.view }
      sendToReplica leader (.doViewChange
        { view := r.view, lastnormalview := r.log.lastViewstamp.view, lastop := r.lastOp,
          lastcommitted := r.lastCommitted, entries := r.log.dump committed,
          replicaidx := setup.replicaIdx, normalView := r.normalView })
    else
      pure ()

/-- `VRReplica::HandleStartViewChange`. -/
def handleStartViewChange (undefined : Undefined) (msg : StartViewChangeMessage) : Run Unit := do
  let r ← get
  if msg.view < r.view then
    pure ()
  else if msg.view = r.view ∧ r.status ≠ .viewChange then
    pure ()
  else if r.status ≠ .viewChange ∨ r.view < msg.view then
    startViewChange setup msg.view
    countStartViewChange setup undefined msg
  else
    countStartViewChange setup undefined msg

/-- Whether a message has a later log than the best one so far, as `HandleDoViewChange` ranks
them. -/
def Outranks (x : DoViewChangeMessage) (latestView latestOp : Nat) : Prop :=
  latestView < x.lastnormalview ∨ x.lastnormalview = latestView ∧ latestOp < x.lastop

instance (x : DoViewChangeMessage) (latestView latestOp : Nat) :
    Decidable (Outranks x latestView latestOp) :=
  inferInstanceAs (Decidable (_ ∨ _))

/-- The loop of `HandleDoViewChange` that looks for the message with the latest log. -/
def latest (latestView latestOp : Nat) (latestMsg : Option DoViewChangeMessage) :
    List DoViewChangeMessage → Nat × Option DoViewChangeMessage
  | [] => (latestOp, latestMsg)
  | x :: rest =>
    if Outranks x latestView latestOp then
      latest x.lastnormalview x.lastop (some x) rest
    else
      latest latestView latestOp latestMsg rest

/-- The quorum branch of `HandleDoViewChange`. -/
def becomeLeader (undefined : Undefined) (msg : DoViewChangeMessage)
    (msgs : TreeMap Nat DoViewChangeMessage) : Run Unit := do
  let r ← get
  match latest r.log.lastViewstamp.view r.log.lastViewstamp.opnum none msgs.values with
  -- The loop goes over copies of the messages, so the one that `latestMsg` points to is gone when
  -- its log is read.
  | (_, some _) => undefined.dangling
  | (latestOp, none) =>
    let committed :=
      min (min
        (minCommitted StartViewChangeMessage.lastcommitted undefined.pastEnd
          (r.startViewChangeQuorum.getMessages r.view))
        (minCommitted DoViewChangeMessage.lastcommitted undefined.pastEnd msgs)) r.lastCommitted
    modify (·.enterView setup msg.view)
    let r ← get
    require (setup.AmLeader r.view)
    modify fun r => { r with lastOp := latestOp }
    emit (.started r.view r.log.entries)
    let r ← get
    sendToAll (.startView
      { view := r.view, lastop := r.lastOp, lastcommitted := r.lastCommitted,
        entries := r.log.dump committed })

/-- The part of `HandleDoViewChange` after the replica has joined the view change. -/
def countDoViewChange (undefined : Undefined) (msg : DoViewChangeMessage) : Run Unit := do
  require (setup.configuration.getLeaderIndex msg.view = setup.replicaIdx)
  let r ← get
  let (quorum, found) := r.doViewChangeQuorum.addAndCheckForQuorum msg.view msg.replicaidx msg
  modify fun r => { r with doViewChangeQuorum := quorum }
  match found with
  | none => pure ()
  | some msgs => becomeLeader setup undefined msg msgs

/-- `VRReplica::HandleDoViewChange`. -/
def handleDoViewChange (undefined : Undefined) (msg : DoViewChangeMessage) : Run Unit := do
  let r ← get
  if msg.view < r.view then
    pure ()
  else if msg.view = r.view ∧ r.status ≠ .viewChange then
    pure ()
  else if r.status ≠ .viewChange ∨ r.view < msg.view then
    startViewChange setup msg.view
    countDoViewChange setup undefined msg
  else
    countDoViewChange setup undefined msg

/-- The part of `HandleStartView` that installs the log of the view. -/
def installStartView (msg : StartViewMessage) : Run Unit := do
  let r ← get
  match msg.entries with
  | [] =>
    require (msg.lastcommitted = r.lastCommitted)
    require (msg.lastop = msg.lastcommitted)
  | first :: _ =>
    require (¬ r.lastCommitted + 1 < first.viewstamp.opnum)
    let cut ← demand (r.log.removeAfter (msg.lastop + 1))
    let log ← demand (cut.install msg.entries)
    modify fun r => { r with log := log }

/-- `VRReplica::HandleStartView`. -/
def handleStartView (msg : StartViewMessage) : Run Unit := do
  let r ← get
  if msg.view < r.view then
    pure ()
  else if msg.view = r.view ∧ r.status ≠ .viewChange then
    pure ()
  else
    require (setup.configuration.getLeaderIndex msg.view ≠ setup.replicaIdx)
    installStartView msg
    modify (·.enterView setup msg.view)
    let oldLastOp := r.lastOp
    modify fun r => { r with lastOp := msg.lastop }
    let r ← get
    require (¬ setup.AmLeader r.view)
    commitUpTo app msg.lastcommitted
    sendPrepareOKs setup oldLastOp

/-- `VRReplica::HandleRecovery`. -/
def handleRecovery (remote : Address) (msg : RecoveryMessage) : Run Unit := do
  let r ← get
  if r.status ≠ .normal then
    pure ()
  else if setup.AmLeader r.view then
    sendMessage remote (.recoveryResponse
      { replicaidx := setup.replicaIdx, view := r.view, nonce := msg.nonce,
        lastcommitted := r.lastCommitted, lastop := r.lastOp, entries := r.log.dump 0 })
  else
    sendMessage remote (.recoveryResponse
      { replicaidx := setup.replicaIdx, view := r.view, nonce := msg.nonce })

/-- The highest view of some recovery responses. -/
def highestView (msgs : TreeMap Nat RecoveryResponseMessage) : Nat :=
  msgs.values.foldl (fun highest m => if highest < m.view then m.view else highest) 0

/-- The part of `HandleRecoveryResponse` that takes over the leader's state. -/
def completeRecovery (undefined : Undefined) (leaderResponse : RecoveryResponseMessage) :
    Run Unit := do
  let r ← get
  let log ← demand (r.log.install leaderResponse.entries)
  modify fun r => { r with log := log }
  modify (·.enterView setup leaderResponse.view)
  -- That has cleared the quorum which `leaderResponse` points into, and `lastop` is read next.
  undefined.dangling

/-- `VRReplica::HandleRecoveryResponse`. -/
def handleRecoveryResponse (undefined : Undefined) (msg : RecoveryResponseMessage) :
    Run Unit := do
  let r ← get
  if r.status ≠ .recovering then
    pure ()
  else if msg.nonce ≠ r.recoveryNonce then
    pure ()
  else
    let (quorum, found) :=
      r.recoveryResponseQuorum.addAndCheckForQuorum msg.nonce msg.replicaidx msg
    modify fun r => { r with recoveryResponseQuorum := quorum }
    match found with
    | none => pure ()
    | some msgs =>
      let leader := setup.configuration.getLeaderIndex (highestView msgs)
      require (leader ≠ setup.replicaIdx)
      match msgs[leader]? with
      | none => pure ()
      | some leaderResponse =>
        if leaderResponse.view ≠ highestView msgs then
          pure ()
        else
          completeRecovery setup undefined leaderResponse

/-- `VRReplica::ReceiveMessage`. A reply is no message for a replica. -/
def receiveMessage (undefined : Undefined) (remote : Address) : Message → Run Unit
  | .request msg => handleRequest setup app remote msg
  | .unloggedRequest msg => handleUnloggedRequest app remote msg
  | .prepare msg => handlePrepare setup remote msg
  | .prepareOK msg => handlePrepareOK setup app msg
  | .commit msg => handleCommit setup app msg
  | .requestStateTransfer msg => handleRequestStateTransfer remote msg
  | .stateTransfer msg => handleStateTransfer setup app msg
  | .startViewChange msg => handleStartViewChange setup undefined msg
  | .doViewChange msg => handleDoViewChange setup undefined msg
  | .startView msg => handleStartView setup app msg
  | .recovery msg => handleRecovery setup remote msg
  | .recoveryResponse msg => handleRecoveryResponse setup undefined msg
  | .reply _ => stop
  | .unloggedReply _ => stop

/-- The timeouts of a replica. -/
inductive Timer where
  | viewChange
  | nullCommit
  | stateTransfer
  | resendPrepare
  | closeBatch
  | recovery
deriving DecidableEq, Repr

/-- `Timeout::Active`. -/
def Replica.active (r : Replica) : Timer → Bool
  | .viewChange => r.viewChangeTimeout
  | .nullCommit => r.nullCommitTimeout
  | .stateTransfer => r.stateTransferTimeout
  | .resendPrepare => r.resendPrepareTimeout
  | .closeBatch => r.closeBatchTimeout
  | .recovery => r.recoveryTimeout

/-- The callbacks that the constructor gives the timeouts. -/
def fireTimer : Timer → Run Unit
  | .viewChange => do
    let r ← get
    startViewChange setup (r.view + 1)
  | .nullCommit => sendNullCommit setup
  | .stateTransfer =>
    modify fun r =>
      { r with lastRequestStateTransferView := 0, lastRequestStateTransferOpnum := 0 }
  | .resendPrepare => resendPrepare setup
  | .closeBatch => closeBatch setup
  | .recovery => sendRecoveryMessages setup

/-- The fields that the constructor of `VRReplica` sets before it looks at `initialize`. -/
def Replica.blank (configuration : Configuration) : Replica where
  prepareOKQuorum := { numRequired := configuration.quorumSize - 1 }
  startViewChangeQuorum := { numRequired := configuration.quorumSize - 1 }
  doViewChangeQuorum := { numRequired := configuration.quorumSize - 1 }
  recoveryResponseQuorum := { numRequired := configuration.quorumSize }

/-- A replica constructed with `initialize` set. -/
def Replica.initialized : Replica :=
  { Replica.blank setup.configuration with
    nullCommitTimeout := decide (setup.AmLeader 0)
    viewChangeTimeout := !decide (setup.AmLeader 0) }

/-- A replica constructed with `initialize` not set, of which the history is `before`'s. -/
def Replica.restarted (before : Replica) (nonce : Nat) : Replica :=
  { Replica.blank setup.configuration with
    status := .recovering
    recoveryNonce := nonce
    recoveryTimeout := true
    normalView := before.normalView
    fence := before.fence }

end PaxosBus.Vr

import PaxosBus.Common.QuorumSet
import PaxosBus.Common.ReplicaLog
import PaxosBus.Library.Handler
import PaxosBus.Spec.Message

/-!
# The replica of Speculative Paxos

The handlers and timer callbacks of `SpecReplica` in the default build. A failed
`ASSERT`, a `Panic` or a read through a null pointer stops the replica with what
it has done by then. Numbers of views and operations are unbounded. A timeout is
a flag that says whether it is running; it stays running when it fires. The
application is the list of the requests that it has executed and not rolled
back.
-/

set_option autoImplicit false

namespace PaxosBus.Spec

open PaxosBus.Common PaxosBus.Library
open Std (TreeMap)

variable {Hash : Type}

/-- What the application answers to the upcalls of one step, after the requests it has executed. -/
structure App where
  execute : List Request → String := fun _ => ""
  executeUnlogged : List Request → String → String := fun _ _ => ""

/-- What a replica is constructed with. -/
structure Setup (Hash : Type) where
  configuration : Configuration
  hashing : Hashing Hash
  replicaIdx : Nat

/-- `ClientTableEntry`. -/
structure ClientTableEntry where
  lastReqId : Nat := 0
  lastReqOpnum : Nat := 0
deriving DecidableEq, Repr

/-- The protocol data of a log entry: the opnum of the client's request before, and the reply. -/
structure EntryData (Hash : Type) where
  prevClientReqOpnum : Nat := 0
  replyMessage : Option (SpeculativeReplyMessage Hash) := none
deriving DecidableEq, Repr

/-- The state of a `SpecReplica`. -/
structure Replica (Hash : Type) where
  status : Status := .normal
  view : Nat := 0
  lastSpeculative : Nat := 0
  lastCommitted : Nat := 0
  sentDoViewChange : Nat := 0
  needFillDVC : Nat := 0
  pendingSync : Nat := 0
  lastSync : Nat := 0
  log : Log Hash
  entryData : Nat → EntryData Hash := fun _ => {}
  clientAddresses : Nat → Option Address := fun _ => none
  clientTable : Nat → Option ClientTableEntry := fun _ => none
  pendingRequests : List (Address × RequestMessage) := []
  syncReplyQuorum : QuorumSet Nat (SyncReplyMessage Hash)
  startViewChangeQuorum : QuorumSet Nat StartViewChangeMessage
  doViewChangeQuorum : QuorumSet Nat (DoViewChangeMessage Hash)
  inViewQuorum : QuorumSet Nat InViewMessage
  syncTimeout : Bool := false
  failedSyncTimeout : Bool := false
  viewChangeTimeout : Bool := false
  application : List Request := []

/-- A piece of a replica's program. -/
abbrev Run (Hash α : Type) := Handler (Replica Hash) (Output Hash) α

/-- `LOG_FUDGE` has no effect; `DVC_FUDGE` is how many entries before its last one a replica puts
into a message. -/
def dvcFudge : Nat := 25

/-- `SYNC_TIMEOUT_REQUESTS`. -/
def syncTimeoutRequests : Nat := 10000

namespace Setup

variable (setup : Setup Hash)

/-- `SpecReplica::AmLeader` in a view. -/
def AmLeader (view : Nat) : Prop := setup.configuration.getLeaderIndex view = setup.replicaIdx

instance (view : Nat) : Decidable (setup.AmLeader view) :=
  inferInstanceAs (Decidable (_ = _))

end Setup

open Handler

/-- `Transport::SendMessageToAll`. -/
def sendToAll (msg : Message Hash) : Run Hash Unit := emit (.send .others msg)

/-- `Transport::SendMessageToReplica`. -/
def sendToReplica (replicaIdx : Nat) (msg : Message Hash) : Run Hash Unit :=
  emit (.send (.one (.replica replicaIdx)) msg)

/-- `Transport::SendMessage`. -/
def sendMessage (remote : Address) (msg : Message Hash) : Run Hash Unit :=
  emit (.send (.one remote) msg)

namespace Replica

/-- A replica as the constructor leaves it, in view zero. -/
def constructed (setup : Setup Hash) : Replica Hash where
  log := .new setup.hashing true
  syncReplyQuorum := { numRequired := setup.configuration.fastQuorumSize - 1 }
  startViewChangeQuorum := { numRequired := setup.configuration.quorumSize - 1 }
  doViewChangeQuorum := { numRequired := setup.configuration.quorumSize }
  inViewQuorum := { numRequired := setup.configuration.quorumSize - 1 }
  syncTimeout := setup.AmLeader 0
  failedSyncTimeout := setup.AmLeader 0
  viewChangeTimeout := ¬ setup.AmLeader 0

/-- `clientTable[clientid]`, which creates an entry where there is none. -/
def tableEntry (r : Replica Hash) (clientid : Nat) : ClientTableEntry :=
  (r.clientTable clientid).getD {}

/-- Replace the table entry of a client. -/
def setTableEntry (r : Replica Hash) (clientid : Nat) (entry : ClientTableEntry) : Replica Hash :=
  { r with clientTable := Function.update r.clientTable clientid (some entry) }

/-- Replace the protocol data of a log entry. -/
def setEntryData (r : Replica Hash) (opnum : Nat) (data : EntryData Hash) : Replica Hash :=
  { r with entryData := Function.update r.entryData opnum data }

end Replica

variable (setup : Setup Hash) (app : App)

/-! ## The log and the client table -/

/-- `Log::Append` to the log of the replica, with protocol data that is not set yet. -/
def append (v : Viewstamp) (req : Request) : Run Hash Unit := do
  let r ← get
  let log ← demand (r.log.append v req .speculative)
  modify fun r => { r with log := log, entryData := Function.update r.entryData v.opnum {} }

/-- The `Execute` upcall. -/
def execute (req : Request) : Run Hash String := do
  let r ← get
  modify fun r => { r with application := r.application ++ [req] }
  pure (app.execute (r.application ++ [req]))

/-- The `Rollback` upcall of the last requests. -/
def rollback (current to_ : Nat) : Run Hash Unit :=
  modify fun r =>
    { r with application := r.application.take (r.application.length - (current - to_)) }

/-- One round of the loop of `CommitUpTo`. -/
def commitNext : Run Hash Unit := do
  modify fun r => { r with lastCommitted := r.lastCommitted + 1 }
  let r ← get
  require ((r.log.setStatus r.lastCommitted .committed).2 = true)
  modify fun r => { r with log := (r.log.setStatus r.lastCommitted .committed).1 }

/-- `SpecReplica::CommitUpTo`. -/
def commitUpTo (upto : Nat) : Run Hash Unit := do
  let r ← get
  repeated (upto - r.lastCommitted) commitNext

/-- One round of the loop of `RollbackTo`: the client table goes back to the client's request
before the one at `i`. -/
def rollbackEntry (i : Nat) : Run Hash Unit := do
  let r ← get
  let entry ← demand (r.log.find i)
  require ((r.tableEntry entry.request.clientid).lastReqOpnum = entry.viewstamp.opnum)
  let prev := (r.entryData i).prevClientReqOpnum
  if 0 < prev then do
    let oldEntry ← demand (r.log.find prev)
    modify (·.setTableEntry entry.request.clientid
      { lastReqId := oldEntry.request.clientreqid, lastReqOpnum := prev })
  else
    modify (·.setTableEntry entry.request.clientid { lastReqId := 0, lastReqOpnum := prev })

/-- `SpecReplica::RollbackTo`. -/
def rollbackTo (backto : Nat) : Run Hash Unit := do
  let r ← get
  if r.lastSpeculative ≤ backto then
    pure ()
  else do
    require (r.lastCommitted ≤ backto)
    forEach (List.range' (backto + 1) (r.lastSpeculative - backto)).reverse rollbackEntry
    rollback r.lastSpeculative backto
    let r ← get
    let log ← demand (r.log.removeAfter (backto + 1))
    modify fun r => { r with log := log, lastSpeculative := backto }

/-- `SpecReplica::UpdateClientTable` for the log entry at `opnum`. -/
def updateClientTable (req : Request) (opnum : Nat) (reply : SpeculativeReplyMessage Hash) :
    Run Hash Unit := do
  let r ← get
  let entry := r.tableEntry req.clientid
  require (entry.lastReqId ≤ req.clientreqid)
  modify (·.setEntryData opnum
    { prevClientReqOpnum := entry.lastReqOpnum, replyMessage := some reply })
  if entry.lastReqId = req.clientreqid then
    modify (·.setTableEntry req.clientid entry)
  else
    modify (·.setTableEntry req.clientid
      { lastReqId := req.clientreqid, lastReqOpnum := opnum })

/-! ## Synchronization -/

/-- `SpecReplica::SendSync`. -/
def sendSync : Run Hash Unit := do
  let r ← get
  require (setup.AmLeader r.view)
  require (r.status = .normal)
  modify fun r => { r with lastSync := r.lastSpeculative }
  if r.lastCommitted = 0 then
    sendToAll (.sync
      { view := r.view, lastcommitted := r.lastCommitted, lastcommittedhash := none,
        lastspeculative := r.lastSpeculative })
  else do
    let entry ← demand (r.log.find r.lastCommitted)
    sendToAll (.sync
      { view := r.view, lastcommitted := r.lastCommitted, lastcommittedhash := some entry.hash,
        lastspeculative := r.lastSpeculative })

/-- The end of `SendSyncReply`, which sends the reply. -/
def replyToSync (opnum : Nat) (hash : Option Hash) : Run Hash Unit := do
  let r ← get
  let reply : SyncReplyMessage Hash :=
    { view := r.view, lastspeculative := opnum, lastspeculativehash := hash,
      replicaidx := setup.replicaIdx }
  emit (.answering (setup.configuration.getLeaderIndex r.view) reply r.status r.view
    r.log.entries)

/-- `SpecReplica::SendSyncReply`. -/
def sendSyncReply (opnum : Nat) : Run Hash Unit := do
  let r ← get
  if opnum = 0 then
    replyToSync setup opnum none
  else do
    let entry ← demand (r.log.find opnum)
    replyToSync setup opnum (some entry.hash)

/-! ## Requests -/

/-- The part of `HandleRequest` that answers the last request of a client again. -/
def resendReply (remote : Address) (opnum : Nat) : Run Hash Unit := do
  let r ← get
  let le ← demand (r.log.find opnum)
  let stored ← demand (r.entryData opnum).replyMessage
  let reply := if le.state = .committed then { stored with committed := true } else stored
  modify (·.setEntryData opnum
    { prevClientReqOpnum := (r.entryData opnum).prevClientReqOpnum, replyMessage := some reply })
  sendMessage remote (.reply reply)

/-- The part of `HandleRequest` that answers a `SyncMessage` which came before the request. -/
def answerPendingSync : Run Hash Unit := do
  let r ← get
  if r.lastSpeculative = r.pendingSync then
    sendSyncReply setup r.pendingSync
  else
    pure ()

/-- The part of `HandleRequest` that starts a synchronization after enough requests. -/
def syncWhenDue : Run Hash Unit := do
  let r ← get
  if setup.AmLeader r.view ∧ r.lastSync + syncTimeoutRequests ≤ r.lastSpeculative then
    sendSync setup
  else
    pure ()

/-- The part of `HandleRequest` that gives a request the next opnum and executes it. -/
def executeRequest (remote : Address) (req : Request) : Run Hash Unit := do
  modify fun r => { r with lastSpeculative := r.lastSpeculative + 1 }
  let r ← get
  append { view := r.view, opnum := r.lastSpeculative } req
  let result ← execute app req
  let r ← get
  let reply : SpeculativeReplyMessage Hash :=
    { clientreqid := req.clientreqid, replicaidx := setup.replicaIdx, view := r.view,
      opnum := r.lastSpeculative, loghash := r.log.lastHash, reply := result, committed := false }
  sendMessage remote (.reply reply)
  updateClientTable req r.lastSpeculative reply
  answerPendingSync setup
  syncWhenDue setup

/-- The part of `HandleRequest` for a request that is not in the client table. -/
def acceptRequest (remote : Address) (msg : RequestMessage) : Run Hash Unit := do
  let r ← get
  if r.status ≠ .normal then
    modify fun r => { r with pendingRequests := r.pendingRequests ++ [(remote, msg)] }
  else
    executeRequest setup app remote msg.req

/-- `SpecReplica::HandleRequest`. -/
def handleRequest (remote : Address) (msg : RequestMessage) : Run Hash Unit := do
  modify fun r =>
    { r with clientAddresses := Function.update r.clientAddresses msg.req.clientid (some remote) }
  let r ← get
  match r.clientTable msg.req.clientid with
  | none => acceptRequest setup app remote msg
  | some entry =>
    if msg.req.clientreqid < entry.lastReqId then
      pure ()
    else if msg.req.clientreqid = entry.lastReqId then
      resendReply remote entry.lastReqOpnum
    else
      acceptRequest setup app remote msg

/-- `SpecReplica::HandleUnloggedRequest`. -/
def handleUnloggedRequest (remote : Address) (msg : UnloggedRequestMessage) : Run Hash Unit := do
  let r ← get
  if r.status ≠ .normal then
    pure ()
  else
    sendMessage remote (.unloggedReply { reply := app.executeUnlogged r.application msg.op })

/-! ## Changing views -/

/-- The part of `EnterView` that starts and stops timeouts. -/
def Replica.startTimeouts (r : Replica Hash) : Replica Hash :=
  if setup.AmLeader r.view then
    { r with
      viewChangeTimeout := false
      syncTimeout := true
      failedSyncTimeout := true
      lastSync := r.lastCommitted }
  else
    { r with viewChangeTimeout := true, syncTimeout := false, failedSyncTimeout := false }

/-- The part of `EnterView` that forgets what belongs to the view before. -/
def Replica.startAnew (r : Replica Hash) : Replica Hash :=
  { r with
    syncReplyQuorum := r.syncReplyQuorum.clear
    startViewChangeQuorum := r.startViewChangeQuorum.clear
    doViewChangeQuorum := r.doViewChangeQuorum.clear
    inViewQuorum := r.inViewQuorum.clear
    pendingSync := 0
    pendingRequests := [] }

/-- `SpecReplica::EnterView`. -/
def enterView (newview : Nat) : Run Hash Unit := do
  modify fun r => { r with view := newview, status := .normal }
  let r ← get
  emit (.entering newview r.log.entries)
  modify (·.startTimeouts setup)
  modify (·.startAnew)
  forEach r.pendingRequests fun pending => handleRequest setup app pending.1 pending.2

/-- `SpecReplica::StartViewChange`. -/
def startViewChange (newview : Nat) : Run Hash Unit := do
  modify fun r =>
    { r with
      view := newview
      status := .viewChange
      viewChangeTimeout := true
      syncTimeout := false
      failedSyncTimeout := false }
  let r ← get
  sendToAll (.startViewChange
    { view := newview, replicaidx := setup.replicaIdx, lastcommitted := r.lastCommitted })

/-- Leave the current view for a later one that a message is about. -/
def joinViewChange (view : Nat) : Run Hash Unit := do
  let r ← get
  if r.status ≠ .viewChange ∨ r.view < view then
    startViewChange setup view
  else
    pure ()

/-! ## Synchronization messages -/

/-- `SpecReplica::HandleSync`. -/
def handleSync [DecidableEq Hash] (msg : SyncMessage Hash) : Run Hash Unit := do
  let r ← get
  if r.status ≠ .normal then
    pure ()
  else if msg.view < r.view then
    pure ()
  else if r.view < msg.view then
    startViewChange setup (msg.view + 1)
  else do
    require (¬ setup.AmLeader r.view)
    modify fun r => { r with viewChangeTimeout := true }
    if r.lastSpeculative < msg.lastcommitted then
      startViewChange setup (r.view + 1)
    else if r.lastCommitted < msg.lastcommitted then do
      let entry ← demand (r.log.find msg.lastcommitted)
      if some entry.hash = msg.lastcommittedhash then do
        commitUpTo msg.lastcommitted
        answerSync msg
      else
        startViewChange setup (r.view + 1)
    else
      answerSync msg
where
  /-- The part of `HandleSync` after the commit. -/
  answerSync (msg : SyncMessage Hash) : Run Hash Unit := do
    let r ← get
    if r.lastSpeculative < msg.lastspeculative then
      modify fun r => { r with pendingSync := msg.lastspeculative }
    else
      sendSyncReply setup msg.lastspeculative

/-- The hashes that are there often enough. -/
def matchingHashes [DecidableEq Hash] (needed : Nat) (hashes : List (Option Hash)) :
    List (Option Hash) :=
  hashes.dedup.filter fun hash => needed ≤ hashes.count hash

/-- The part of `HandleSyncReply` that commits by a quorum with one hash. -/
def commitSync (msg : SyncReplyMessage Hash) : Run Hash Unit := do
  let r ← get
  emit (.committing .syncReply r.status r.view msg.lastspeculative r.log.entries)
  commitUpTo msg.lastspeculative

/-- The part of `HandleSyncReply` for a quorum of replies. -/
def completeSync [DecidableEq Hash] (msg : SyncReplyMessage Hash)
    (msgs : TreeMap Nat (SyncReplyMessage Hash)) : Run Hash Unit := do
  modify fun r => { r with failedSyncTimeout := true }
  let r ← get
  if msg.lastspeculative ≤ r.lastCommitted then
    pure ()
  else do
    let entry ← demand (r.log.find msg.lastspeculative)
    match matchingHashes setup.configuration.fastQuorumSize
        (msgs.values.map (·.lastspeculativehash) ++ [some entry.hash]) with
    | [] => startViewChange setup (r.view + 1)
    | [matchingHash] =>
      if some entry.hash ≠ matchingHash then do
        startViewChange setup (r.view + 1)
        commitSync msg
      else
        commitSync msg
    | _ => stop

/-- `SpecReplica::HandleSyncReply`. -/
def handleSyncReply [DecidableEq Hash] (msg : SyncReplyMessage Hash) : Run Hash Unit := do
  let r ← get
  if r.status ≠ .normal then
    pure ()
  else if msg.view < r.view then
    pure ()
  else do
    require (¬ r.view < msg.view)
    require (setup.AmLeader r.view)
    require (msg.lastspeculative ≤ r.lastSpeculative)
    let added :=
      r.syncReplyQuorum.addAndCheckForQuorum msg.lastspeculative msg.replicaidx msg
    modify fun r => { r with syncReplyQuorum := added.1 }
    match added.2 with
    | none => pure ()
    | some msgs => completeSync setup msg msgs

/-! ## View change messages -/

/-- `SpecReplica::HandleRequestViewChange`. -/
def handleRequestViewChange (msg : RequestViewChangeMessage) : Run Hash Unit := do
  let r ← get
  if msg.view ≠ r.view then
    pure ()
  else
    startViewChange setup (r.view + 1)

/-- Where a replica starts the part of its log that it puts into a message. -/
def Replica.windowStart (r : Replica Hash) : Nat :=
  if dvcFudge < r.lastSpeculative then r.lastSpeculative - dvcFudge else 1

/-- The `DoViewChangeMessage` with the log from an opnum on. -/
def Replica.doViewChange (r : Replica Hash) (from_ : Nat) : DoViewChangeMessage Hash where
  view := r.view
  lastnormalview := r.log.lastViewstamp.view
  lastspeculative := r.lastSpeculative
  lastcommitted := r.lastCommitted
  entries := r.log.dump from_
  replicaidx := setup.replicaIdx

/-- The part of `HandleStartViewChange` that votes for the view. -/
def sendDoViewChange (view : Nat) : Run Hash Unit := do
  modify fun r => { r with sentDoViewChange := view }
  let r ← get
  let dvc := r.doViewChange setup r.windowStart
  require (r.lastSpeculative + 1 - r.windowStart = dvc.entries.length)
  if setup.AmLeader r.view then
    modify fun r =>
      { r with doViewChangeQuorum := r.doViewChangeQuorum.add view setup.replicaIdx dvc }
  else
    sendToReplica (setup.configuration.getLeaderIndex r.view) (.doViewChange dvc)

/-- The part of `HandleStartViewChange` in the view of the message. -/
def collectStartViewChange (msg : StartViewChangeMessage) : Run Hash Unit := do
  let r ← get
  require (msg.view = r.view)
  let added := r.startViewChangeQuorum.addAndCheckForQuorum msg.view msg.replicaidx msg
  modify fun r => { r with startViewChangeQuorum := added.1 }
  match added.2 with
  | none => pure ()
  | some msgs =>
    if r.sentDoViewChange = msg.view then
      pure ()
    else if ¬ setup.AmLeader r.view ∧
        msgs[setup.configuration.getLeaderIndex r.view]?.isNone then
      pure ()
    else
      sendDoViewChange setup msg.view

/-- `SpecReplica::HandleStartViewChange`. -/
def handleStartViewChange (msg : StartViewChangeMessage) : Run Hash Unit := do
  let r ← get
  if msg.view < r.view then
    pure ()
  else if msg.view = r.view ∧ r.status ≠ .viewChange then
    pure ()
  else do
    joinViewChange setup msg.view
    collectStartViewChange setup msg

/-! ## The accesses of the merge -/

/-- The accesses of the second phase of `MergeLogs`: at each position, one to every log that
reaches it. -/
def voteReads [LinearOrder Hash] (latest : List (DoViewChangeMessage Hash)) (needed : Nat) :
    Nat → Nat → List (DoViewChangeMessage Hash × Nat)
  | 0, _ => []
  | rounds + 1, next =>
    let reads := (latest.filter (next ≤ ·.lastspeculative)).map fun msg => (msg, next)
    match ballots latest next with
    | none => reads
    | some entries =>
      match elect needed (entries.foldl countVote {}) with
      | none => reads
      | some _ => reads ++ voteReads latest needed rounds (next + 1)

/-- The accesses of the third phase of `MergeLogs`. -/
def leftoverReads (maxStart : Nat) (latest : List (DoViewChangeMessage Hash)) :
    List (DoViewChangeMessage Hash × Nat) :=
  latest.flatMap fun msg =>
    let start := max (msg.lastcommitted + 1) maxStart
    (List.range' start (msg.lastspeculative + 1 - start)).map fun opnum => (msg, opnum)

/-- The accesses to entries of the messages by opnum that `MergeLogs` makes if none of them
fails. -/
def mergeReads [LinearOrder Hash] (config : Configuration) (lastSpeculative maxStart : Nat)
    (dvcs : TreeMap Nat (DoViewChangeMessage Hash)) : List (DoViewChangeMessage Hash × Nat) :=
  if dvcs.size ≥ config.quorumSize ∧ maxStart ≤ lastSpeculative then
    let latest := latestViewMessages (messages dvcs)
    match latest.argmax (·.lastcommitted), latest.argmax (·.lastspeculative) with
    | some mostCommitted, some furthest =>
      match takeCommitted maxStart mostCommitted.lastcommitted mostCommitted.entries .empty with
      | none => []
      | some merged =>
        let next := max (merged.lastOpnum + 1) maxStart
        voteReads latest (matchingEntriesNeeded config latest)
          (furthest.lastspeculative + 1 - next) next ++ leftoverReads maxStart latest
    | _, _ => []
  else
    []

/-! ## Installing a log -/

/-- `entries[opnum - entriesStart]` of a vector whose first entry has the opnum `entriesStart`. -/
def entryOf (entries : List (LogEntry Hash)) (entriesStart opnum : Nat) : Option (LogEntry Hash) :=
  if opnum < entriesStart then none else entries[opnum - entriesStart]?

/-- The first two loops of `InstallLog` that go over the log: the first position, from `position` on
and before `rounds` more, where the hashes differ. -/
def firstDifferent [DecidableEq Hash] (log : Log Hash) (entries : List (LogEntry Hash))
    (entriesStart : Nat) : Nat → Nat → Option Nat
  | 0, position => some position
  | rounds + 1, position =>
    match log.find position, entryOf entries entriesStart position with
    | some oldEntry, some newEntry =>
      if oldEntry.hash ≠ newEntry.hash then
        some position
      else
        firstDifferent log entries entriesStart rounds (position + 1)
    | _, _ => none

/-- The opnum of the last entry, or zero. -/
def lastOpnumOf (entries : List (LogEntry Hash)) : Nat :=
  (entries.getLast?.map (·.viewstamp.opnum)).getD 0

/-- The opnum of the last entry that is not speculative, or zero. -/
def lastCommittedOf (entries : List (LogEntry Hash)) : Nat :=
  ((entries.reverse.find? (·.state ≠ .speculative)).map (·.viewstamp.opnum)).getD 0

/-- The opnum of the first entry, or zero. -/
def firstOpnumOf (entries : List (LogEntry Hash)) : Nat :=
  (entries.head?.map (·.viewstamp.opnum)).getD 0

/-- The part of `InstallLog` that sends a reply to a client whose address is known. -/
def notifyClient (clientid : Nat) (reply : SpeculativeReplyMessage Hash) : Run Hash Unit := do
  let r ← get
  match r.clientAddresses clientid with
  | some addr => sendMessage addr (.reply reply)
  | none => pure ()

/-- One round of the last loop of `InstallLog`. -/
def installEntry [DecidableEq Hash] (entries : List (LogEntry Hash)) (entriesStart i : Nat) :
    Run Hash Unit := do
  let newEntry ← demand (entryOf entries entriesStart i)
  modify fun r => { r with lastSpeculative := r.lastSpeculative + 1 }
  append newEntry.viewstamp newEntry.request
  let result ← execute app newEntry.request
  let r ← get
  let reply : SpeculativeReplyMessage Hash :=
    { clientreqid := newEntry.request.clientreqid, replicaidx := setup.replicaIdx,
      view := newEntry.viewstamp.view, opnum := newEntry.viewstamp.opnum,
      loghash := r.log.lastHash, reply := result, committed := newEntry.state = .committed }
  notifyClient newEntry.request.clientid reply
  updateClientTable newEntry.request newEntry.viewstamp.opnum reply
  require (r.log.lastHash = newEntry.hash)

/-- The part of `InstallLog` that commits the speculative operations which the new log has
committed too. -/
def commitMatching [DecidableEq Hash] (entries : List (LogEntry Hash))
    (newLastCommitted : Nat) : Run Hash Unit := do
  let r ← get
  let entriesStart := firstOpnumOf entries
  let start := max (r.lastCommitted + 1) entriesStart
  let toCommit ← demand (firstDifferent r.log entries entriesStart
    (min newLastCommitted r.lastSpeculative + 1 - start) start)
  if entriesStart < toCommit then do
    commitUpTo (toCommit - 1)
    let r ← get
    require (r.lastCommitted = toCommit - 1)
  else
    pure ()

/-- The part of `InstallLog` that rolls back what does not match the new log. -/
def rollbackDiverging [DecidableEq Hash] (entries : List (LogEntry Hash)) : Run Hash Unit := do
  let r ← get
  let entriesStart := firstOpnumOf entries
  let start := max (r.lastCommitted + 1) entriesStart
  let firstDiverging ← demand (firstDifferent r.log entries entriesStart
    (min (lastOpnumOf entries) r.lastSpeculative + 1 - start) start)
  rollbackTo (firstDiverging - 1)
  let r ← get
  require (r.lastSpeculative < firstDiverging)

/-- The part of `InstallLog` that appends what is missing. -/
def installMissing [DecidableEq Hash] (entries : List (LogEntry Hash)) : Run Hash Unit := do
  let r ← get
  forEach (List.range' (r.lastSpeculative + 1) (lastOpnumOf entries - r.lastSpeculative))
    (installEntry setup app entries (firstOpnumOf entries))
  let r ← get
  require (r.lastSpeculative = lastOpnumOf entries)

/-- `SpecReplica::InstallLog`. -/
def installLog [DecidableEq Hash] (entries : List (LogEntry Hash)) : Run Hash Unit := do
  let r ← get
  require (entries = [] → r.lastCommitted = 0)
  require (lastCommittedOf entries < r.lastCommitted → r.lastCommitted ≤ lastOpnumOf entries)
  let newLastCommitted := max (lastCommittedOf entries) r.lastCommitted
  commitMatching entries newLastCommitted
  let r ← get
  require (r.lastCommitted ≤ newLastCommitted)
  rollbackDiverging entries
  installMissing setup app entries
  commitUpTo newLastCommitted
  let r ← get
  require (r.lastCommitted = newLastCommitted)

/-! ## Merging logs -/

/-- `SpecReplica::SendFillDVCGapMessage`. -/
def sendFillDVCGapMessage (replicaIdx view : Nat) : Run Hash Unit := do
  require (replicaIdx ≠ setup.replicaIdx)
  let r ← get
  sendToReplica replicaIdx (.fillDVCGap { view := view, lastcommitted := r.lastCommitted })

/-- A `DoViewChangeMessage` of which no field is set. -/
def DoViewChangeMessage.unset : DoViewChangeMessage Hash where
  view := 0
  lastnormalview := 0
  lastspeculative := 0
  lastcommitted := 0
  entries := []
  replicaidx := 0

/-- `SpecReplica::NeedFillDVCGap`. -/
def needFillDVCGap (view : Nat) : Run Hash Unit := do
  let r ← get
  require (view = r.view)
  let dvcs := r.doViewChangeQuorum.getMessages view
  forEach (dvcs.keys.filter (· ≠ setup.replicaIdx)) fun replicaIdx =>
    sendFillDVCGapMessage setup replicaIdx view
  let mine := dvcs[setup.replicaIdx]?.getD .unset
  modify fun r =>
    { r with
      doViewChangeQuorum := r.doViewChangeQuorum.clear.add view setup.replicaIdx mine
      needFillDVC := view }

/-- A message whose log begins too late to be merged with whole logs. -/
def Replica.StartsLate (r : Replica Hash) (msg : DoViewChangeMessage Hash) : Prop :=
  msg.entries ≠ [] ∧
    ¬ (r.lastCommitted = 0 ∧ firstOpnumOf msg.entries = 1) ∧
      (r.lastCommitted < firstOpnumOf msg.entries ∨
        msg.lastcommitted < firstOpnumOf msg.entries)

instance (r : Replica Hash) (msg : DoViewChangeMessage Hash) : Decidable (r.StartsLate msg) :=
  decidable_of_iff (msg.entries.isEmpty = false ∧
      ¬ (r.lastCommitted = 0 ∧ firstOpnumOf msg.entries = 1) ∧
        (r.lastCommitted < firstOpnumOf msg.entries ∨
          msg.lastcommitted < firstOpnumOf msg.entries)) (by
    unfold Replica.StartsLate
    rw [List.isEmpty_eq_false_iff])

/-- The latest position at which one of the logs begins. -/
def maxStartOf (dvcs : List (DoViewChangeMessage Hash)) : Nat :=
  (dvcs.filter (¬ ·.entries.isEmpty)).foldl
    (fun maxStart msg => max maxStart (firstOpnumOf msg.entries)) 0

/-- The loop of `HandleDoViewChange` that compares the logs where the latest of them begins. The
answer is whether all of them match. -/
def compareStarts [DecidableEq Hash] (maxStart : Nat) (myEntry : LogEntry Hash) :
    List (DoViewChangeMessage Hash) → Run Hash Bool
  | [] => pure true
  | msg :: rest =>
    if msg.entries.isEmpty then
      compareStarts maxStart myEntry rest
    else if msg.lastspeculative < maxStart then
      pure false
    else do
      require (maxStart - firstOpnumOf msg.entries < msg.entries.length)
      emit (.read msg maxStart)
      let entry ← demand (msg.entryAt maxStart)
      if entry.hash ≠ myEntry.hash then
        pure false
      else
        compareStarts maxStart myEntry rest

section Merge

variable [LinearOrder Hash]

/-- The part of `HandleDoViewChange` that starts the view from the merged log. -/
def startView (view : Nat) : Run Hash Unit := do
  let r ← get
  let minCommitted := r.windowStart
  enterView setup app view
  let r ← get
  require (setup.AmLeader r.view)
  sendToAll (.startView
    { view := r.view, lastspeculative := r.lastSpeculative, lastcommitted := r.lastCommitted,
      entries := r.log.dump minCommitted })

/-- The part of `HandleDoViewChange` that merges the logs of a quorum. -/
def mergeQuorum (view maxStart : Nat) : Run Hash Unit := do
  let r ← get
  match r.doViewChangeQuorum.checkForQuorum view with
  | none => pure ()
  | some msgs => do
    forEach (mergeReads setup.configuration r.lastSpeculative maxStart msgs) fun read =>
      emit (.read read.1 read.2)
    let newLog ← demand (mergeLogs setup.configuration setup.hashing r.lastSpeculative r.view
      maxStart msgs)
    installLog setup app newLog
    startView setup app view

/-- Store a vote for its view. -/
def Replica.addDoViewChange (r : Replica Hash) (msg : DoViewChangeMessage Hash) : Replica Hash :=
  { r with doViewChangeQuorum := r.doViewChangeQuorum.add msg.view msg.replicaidx msg }

/-- The part of `HandleDoViewChange` that merges logs from the position on at which the latest of
them begins. -/
def mergeTruncated (msg : DoViewChangeMessage Hash) : Run Hash Unit := do
  modify (·.addDoViewChange msg)
  let r ← get
  let dvcs := messages (r.doViewChangeQuorum.getMessages msg.view)
  let maxStart := maxStartOf dvcs
  if r.lastSpeculative < maxStart then
    needFillDVCGap setup msg.view
  else if 0 < maxStart then do
    let myEntry ← demand (r.log.find maxStart)
    let same ← compareStarts maxStart myEntry dvcs
    if same then
      mergeQuorum setup app msg.view maxStart
    else
      needFillDVCGap setup msg.view
  else
    mergeQuorum setup app msg.view maxStart

/-- The part of `HandleDoViewChange` that merges logs which have been asked for again. -/
def mergeFilled (msg : DoViewChangeMessage Hash) : Run Hash Unit := do
  let r ← get
  if r.StartsLate msg then
    sendFillDVCGapMessage setup msg.replicaidx msg.view
  else do
    modify (·.addDoViewChange msg)
    mergeQuorum setup app msg.view 0

/-- The part of `HandleDoViewChange` in the view of the message. -/
def collectDoViewChange (msg : DoViewChangeMessage Hash) : Run Hash Unit := do
  let r ← get
  if r.needFillDVC = msg.view then
    mergeFilled setup app msg
  else
    mergeTruncated setup app msg

/-- `SpecReplica::HandleDoViewChange`. -/
def handleDoViewChange (msg : DoViewChangeMessage Hash) : Run Hash Unit := do
  let r ← get
  if msg.view < r.view then
    pure ()
  else if msg.view = r.view ∧ r.status ≠ .viewChange then
    pure ()
  else do
    joinViewChange setup msg.view
    require (setup.AmLeader msg.view)
    collectDoViewChange setup app msg

end Merge

/-! ## Entering a view that another replica leads -/

/-- What `ConvertLog` asserts: opnums count up. -/
def Converts : List (LogEntry Hash) → Prop
  | first :: next :: rest =>
    (first.viewstamp.opnum ≠ 0 → first.viewstamp.opnum + 1 = next.viewstamp.opnum) ∧
      Converts (next :: rest)
  | _ => True

/-- `Converts` can be computed. -/
def decidableConverts : (entries : List (LogEntry Hash)) → Decidable (Converts entries)
  | [] => .isTrue trivial
  | [_] => .isTrue trivial
  | first :: next :: rest =>
    have := decidableConverts (next :: rest)
    inferInstanceAs (Decidable ((first.viewstamp.opnum ≠ 0 →
      first.viewstamp.opnum + 1 = next.viewstamp.opnum) ∧ Converts (next :: rest)))

instance (entries : List (LogEntry Hash)) : Decidable (Converts entries) :=
  decidableConverts entries

/-- The part of `HandleStartView` that installs the log and enters the view. -/
def adoptView [DecidableEq Hash] (msg : StartViewMessage Hash) : Run Hash Unit := do
  require (Converts msg.entries)
  installLog setup app msg.entries
  commitUpTo msg.lastcommitted
  sendToReplica (setup.configuration.getLeaderIndex msg.view) (.inView
    { view := msg.view, lastspeculative := msg.lastspeculative, replicaidx := setup.replicaIdx })
  let r ← get
  require (r.lastSpeculative = msg.lastspeculative)
  require (msg.lastcommitted ≤ r.lastCommitted)
  enterView setup app msg.view
  let r ← get
  require (¬ setup.AmLeader r.view)

/-- `SpecReplica::HandleStartView`. -/
def handleStartView [DecidableEq Hash] (remote : Address) (msg : StartViewMessage Hash) :
    Run Hash Unit := do
  let r ← get
  if msg.view < r.view then
    pure ()
  else if msg.view = r.view ∧ r.status ≠ .viewChange then
    pure ()
  else do
    require (¬ setup.AmLeader msg.view)
    match msg.entries.head? with
    | none => adoptView setup app msg
    | some first =>
      if r.lastCommitted + 1 < first.viewstamp.opnum then
        if r.lastSpeculative < first.viewstamp.opnum then
          sendMessage remote (.fillLogGap { view := msg.view, lastcommitted := r.lastCommitted })
        else do
          let mine ← demand (r.log.find first.viewstamp.opnum)
          if first.hash ≠ mine.hash then
            sendMessage remote
              (.fillLogGap { view := msg.view, lastcommitted := r.lastCommitted })
          else
            adoptView setup app msg
      else
        adoptView setup app msg

/-- `SpecReplica::HandleInView`. -/
def handleInView (msg : InViewMessage) : Run Hash Unit := do
  let r ← get
  if msg.view < r.view then
    pure ()
  else do
    require (¬ (r.view < msg.view ∨ r.status ≠ .normal))
    require (setup.AmLeader msg.view)
    let added := r.inViewQuorum.addAndCheckForQuorum msg.view msg.replicaidx msg
    modify fun r => { r with inViewQuorum := added.1 }
    if added.2.isSome then do
      require (msg.lastspeculative ≤ r.lastSpeculative)
      if msg.lastspeculative < r.lastCommitted then
        pure ()
      else do
        emit (.committing .inView r.status r.view msg.lastspeculative r.log.entries)
        commitUpTo msg.lastspeculative
        sendSync setup
    else
      pure ()

/-! ## Longer logs -/

/-- `SpecReplica::HandleFillLogGap`. -/
def handleFillLogGap (remote : Address) (msg : FillLogGapMessage) : Run Hash Unit := do
  let r ← get
  if msg.view ≠ r.view then
    pure ()
  else do
    require (setup.AmLeader r.view)
    sendMessage remote (.startView
      { view := r.view, lastspeculative := r.lastSpeculative, lastcommitted := r.lastCommitted,
        entries := r.log.dump msg.lastcommitted })

/-- `SpecReplica::HandleFillDVCGap`. -/
def handleFillDVCGap (remote : Address) (msg : FillDVCGapMessage) : Run Hash Unit := do
  let r ← get
  if msg.view ≠ r.view then
    pure ()
  else do
    require (¬ setup.AmLeader r.view)
    sendMessage remote
      (.doViewChange (r.doViewChange setup (min r.lastCommitted msg.lastcommitted)))

/-! ## What drives a replica -/

/-- `SpecReplica::ReceiveMessage`. -/
def receiveMessage [LinearOrder Hash] (remote : Address) : Message Hash → Run Hash Unit
  | .request msg => handleRequest setup app remote msg
  | .unloggedRequest msg => handleUnloggedRequest app remote msg
  | .sync msg => handleSync setup msg
  | .syncReply msg => handleSyncReply setup msg
  | .startViewChange msg => handleStartViewChange setup msg
  | .doViewChange msg => handleDoViewChange setup app msg
  | .startView msg => handleStartView setup app remote msg
  | .inView msg => handleInView setup msg
  | .fillLogGap msg => handleFillLogGap setup remote msg
  | .fillDVCGap msg => handleFillDVCGap setup remote msg
  | .requestViewChange msg => handleRequestViewChange setup msg
  | .reply _ => stop
  | .unloggedReply _ => stop

/-- The timeouts of a replica. -/
inductive Timer where
  | sync
  | failedSync
  | viewChange
deriving DecidableEq, Repr

/-- A timeout that is running. -/
def Replica.active (r : Replica Hash) : Timer → Bool
  | .sync => r.syncTimeout
  | .failedSync => r.failedSyncTimeout
  | .viewChange => r.viewChangeTimeout

/-- What a timeout does when it fires. -/
def fireTimer : Timer → Run Hash Unit
  | .sync => sendSync setup
  | .failedSync => do
    let r ← get
    startViewChange setup (r.view + 1)
  | .viewChange => do
    let r ← get
    startViewChange setup (r.view + 1)

end PaxosBus.Spec

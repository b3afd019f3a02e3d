import PaxosBus.Library.Moves
import PaxosBus.NoPaxos.Replica

/-!
# The moves of a replica

The protocol without the text of the handlers: what a replica may do at once,
given its own state and the messages that have reached it. Each move names what
the replica has checked before it, and what it puts out. A message that has been
delivered may be used again at any time, as a duplicate of it may arrive.
-/

set_option autoImplicit false

namespace PaxosBus.NoPaxos

open PaxosBus.Common PaxosBus.Library

/-- The part of a replica's state that its sessions, views and log depend on. -/
structure Core where
  status : Status
  view : Nat
  sessnum : Nat
  lastOp : Nat
  nextMsgnum : Nat
  lastNormalView : Nat
  lastNormalSessnum : Nat
  lastCommittedOp : Nat
  log : Log
  clientAddresses : Nat → Option Address
  viewChangeQuorum : QuorumSet (Nat × Nat) ViewChangeMessage
  committedGaps : OpnumSet
  startGapRequestTimeout : Bool
  gapRequestTimeout : Bool
  stateTransferTimeout : Bool
  startViewTimeout : Bool
  stateTransferOpBegin : Nat
  stateTransferOpEnd : Nat
  stateTransferReplicaIdx : Nat
  stateTransferCallback : Callback
  startViewLastNormalSessnum : Nat
  startViewLastNormalView : Nat
  startViewLastOp : Nat
  startViewCommittedGaps : OpnumSet
  leaderLastSyncPreparePoint : Nat

/-- The core of a replica. -/
def Replica.core (r : Replica) : Core where
  status := r.status
  view := r.view
  sessnum := r.sessnum
  lastOp := r.lastOp
  nextMsgnum := r.nextMsgnum
  lastNormalView := r.lastNormalView
  lastNormalSessnum := r.lastNormalSessnum
  lastCommittedOp := r.lastCommittedOp
  log := r.log
  clientAddresses := r.clientAddresses
  viewChangeQuorum := r.viewChangeQuorum
  committedGaps := r.committedGaps
  startGapRequestTimeout := r.startGapRequestTimeout
  gapRequestTimeout := r.gapRequestTimeout
  stateTransferTimeout := r.stateTransferTimeout
  startViewTimeout := r.startViewTimeout
  stateTransferOpBegin := r.stateTransferOpBegin
  stateTransferOpEnd := r.stateTransferOpEnd
  stateTransferReplicaIdx := r.stateTransferReplicaIdx
  stateTransferCallback := r.stateTransferCallback
  startViewLastNormalSessnum := r.startViewLastNormalSessnum
  startViewLastNormalView := r.startViewLastNormalView
  startViewLastOp := r.startViewLastOp
  startViewCommittedGaps := r.startViewCommittedGaps
  leaderLastSyncPreparePoint := r.leaderLastSyncPreparePoint

/-- The circumstances of a step of a replica. -/
structure Occasion where
  setup : Setup
  /-- The messages that have reached the replica, and from whom. -/
  known : Address → Message → Prop
  /-- The replica is told that operations are committed before it has heard which. -/
  unprepared : Prop
  /-- The replica rewinds its log below its last sync point. -/
  undercut : Prop

/-- Some replica or client has sent the message. -/
def Occasion.Known (o : Occasion) (msg : Message) : Prop := ∃ src, o.known src msg

/-- The session and view that a replica was last normal in when it sent the message. -/
def ViewChangeMessage.normal (msg : ViewChangeMessage) : Nat × Nat :=
  (msg.lastnormalsessnum, msg.lastnormalview)

namespace Core

variable (c : Core)

/-- The session and view that the replica is in. -/
def pair : Nat × Nat := (c.sessnum, c.view)

/-- The session and view that the replica was last normal in. -/
def normal : Nat × Nat := (c.lastNormalSessnum, c.lastNormalView)

/-- `ClearTimeoutAndQuorums`. -/
def cleared : Core :=
  { c with
    startGapRequestTimeout := false
    gapRequestTimeout := false
    viewChangeQuorum := c.viewChangeQuorum.clear
    stateTransferTimeout := false
    startViewTimeout := false
    stateTransferOpBegin := 0
    stateTransferOpEnd := 0 }

/-- The number of the next message of a session, as `StartViewChange` and `EnterView` reset it. -/
def resetMsgnum (newsessnum : Nat) : Nat :=
  if c.log.lastViewstamp.sessnum < newsessnum then 1 else c.nextMsgnum

/-- What `StartViewChange` makes of the replica. -/
def changing (newsessnum newview : Nat) : Core :=
  { c.cleared with
    sessnum := newsessnum
    view := newview
    nextMsgnum := c.resetMsgnum newsessnum
    status := .viewChange
    committedGaps := c.committedGaps.upTo c.lastOp }

/-- What `EnterView` makes of the replica. -/
def entering (newsessnum newview : Nat) : Core :=
  { c.cleared with
    nextMsgnum := c.resetMsgnum newsessnum
    sessnum := newsessnum
    view := newview
    lastNormalSessnum := newsessnum
    lastNormalView := newview
    status := .normal }

/-- The state of an operation when it is put into the log. -/
def decidedState (opnum : Nat) (state : LogEntryState) : LogEntryState :=
  if opnum ∈ c.committedGaps then .noop else state

/-- The replica with an operation more, in a longer log. -/
def appended (vs : Viewstamp) (log : Log) (state : LogEntryState) : Core :=
  { c with
    lastOp := vs.opnum
    nextMsgnum := vs.msgnum + 1
    log := log
    startGapRequestTimeout := false
    gapRequestTimeout := false
    committedGaps := if state = .noop then c.committedGaps.insert vs.opnum else c.committedGaps }

/-- What a leader has found out when it has merged the logs of a quorum. -/
def starting (latest : Nat × Nat) (latestOp : Nat) : Core :=
  { c with
    startViewLastNormalSessnum := latest.1
    startViewLastNormalView := latest.2
    startViewLastOp := latestOp
    startViewCommittedGaps := c.committedGaps }

/-- The replica takes part in a view change that is over already. -/
def joining (newsessnum newview : Nat) : Core :=
  { c.cleared with
    sessnum := newsessnum
    view := newview
    status := .viewChange }

/-- The replica waits for the operations up to a number, and has asked for them or not. -/
def transferring (lastop replicaIdx : Nat) (callback : Callback) (asked : Bool) : Core :=
  { c with
    stateTransferOpBegin := c.lastOp + 1
    stateTransferOpEnd := lastop + 1
    stateTransferReplicaIdx := replicaIdx
    stateTransferCallback := callback
    stateTransferTimeout := if asked then true else c.stateTransferTimeout }

/-- What a replica puts out when it starts to wait for operations. -/
def asking (asked : Bool) : List Output :=
  .transferStarted c.stateTransferOpEnd ::
    if asked then
      [.send (.one (.replica c.stateTransferReplicaIdx)) (.stateTransferRequest
        { sessnum := c.sessnum, view := c.view, begin_ := c.stateTransferOpBegin,
          end_ := c.stateTransferOpEnd })]
    else
      []

/-- The replica has got the messages that complete a quorum for the view it is changing to. -/
def Complete : Prop := (c.viewChangeQuorum.checkForQuorum c.pair).isSome

/-- The replica has an entry for every operation up to the last one. -/
def Whole : Prop := c.log.entries.length = c.lastOp

/-- The log has lost entries that the replica still counts. -/
def Torn : Prop := c.log.entries.length < c.lastOp

/-- The message with which the replica joins a view change. -/
def viewChangeMessage (setup : Setup) : ViewChangeMessage where
  sessnum := c.sessnum
  view := c.view
  lastnormalsessnum := c.lastNormalSessnum
  lastnormalview := c.lastNormalView
  lastop := c.lastOp
  committedgaps := c.committedGaps.elements
  replicaIdx := setup.replicaIdx

/-- The message with which a leader starts a view. -/
def startViewMessage : StartViewMessage where
  sessnum := c.sessnum
  view := c.view
  lastnormalsessnum := c.startViewLastNormalSessnum
  lastnormalview := c.startViewLastNormalView
  lastop := c.startViewLastOp
  committedgaps := c.startViewCommittedGaps.elements

end Core

/-! ## What a replica may rely on -/

section Reasons

variable (o : Occasion) (c : Core)

/-- A message between replicas that neither starts a view nor installs any state. -/
def Message.Plain : Message → Prop
  | .gapRequest _ => True
  | .gapReply _ => True
  | .gapCommit _ => True
  | .gapCommitReply _ => True
  | .viewChangeRequest _ => True
  | .startViewReply _ => True
  | .syncPrepare _ => True
  | .syncPrepareReply _ => True
  | .syncCommit _ => True
  | _ => False

/-- What a replica may send. -/
inductive Sends : Destination → Message → Prop where
  | plain {dst msg} (plain : msg.Plain) : Sends dst msg
  | reply {clientid addr reply} (client : c.clientAddresses clientid = some addr) :
      Sends (.one addr) (.reply reply)
  | unloggedReply {remote msg reply} (known : o.known remote (.unloggedRequest msg)) :
      Sends (.one remote) (.unloggedReply reply)
  | stateTransferRequest {dst} (waiting : c.stateTransferTimeout = true) :
      Sends dst (.stateTransferRequest
        { sessnum := c.sessnum, view := c.view, begin_ := c.stateTransferOpBegin,
          end_ := c.stateTransferOpEnd })
  | stateTransferReply {remote msg entries} (known : o.known remote (.stateTransferRequest msg))
      (sessnum : msg.sessnum = c.sessnum) (view : msg.view = c.view)
      (inside : msg.begin_ ≤ c.lastOp ∧ msg.end_ ≤ c.lastOp + 1)
      (dumped : c.log.dump msg.begin_ msg.end_ = some entries) :
      Sends (.one remote) (.stateTransferReply
        { sessnum := c.sessnum, view := c.view, begin_ := msg.begin_, end_ := msg.end_,
          entries := entries })
  | viewChange (follower : ¬ o.setup.AmLeader c.view) :
      Sends (.one (.replica (o.setup.configuration.getLeaderIndex c.view)))
        (.viewChange (c.viewChangeMessage o.setup))
  | startView {dst} (leader : o.setup.AmLeader c.view)
      (started : c.status ≠ .viewChange ∨ c.startViewTimeout = true) :
      Sends dst (.startView c.startViewMessage)
  | syncPrepareRequest {dst msg} (unprepared : o.unprepared) :
      Sends dst (.syncPrepareRequest msg)

/-- A mark of an execution. -/
def Output.Executes : Output → Prop
  | .executed .. => True
  | .repeated .. => True
  | _ => False

/-- A reply to a client whose address is known, or a mark of an execution. -/
def Replies (output : Output) : Prop :=
  (∃ clientid addr reply, c.clientAddresses clientid = some addr ∧
    output = .send (.one addr) (.reply reply)) ∨ output.Executes

/-- A leader has the messages of a quorum for its session and view. -/
structure Elected (msgs : List ViewChangeMessage) : Prop where
  leader : o.setup.AmLeader c.view
  quorum : o.setup.configuration.quorumSize - 1 ≤
    (msgs.map ViewChangeMessage.replicaIdx).toFinset.card
  known : ∀ msg ∈ msgs, o.Known (.viewChange msg)
  current : ∀ msg ∈ msgs, (msg.sessnum, msg.view) = c.pair

/-- A replica has got a `StartView` of no earlier session and view than its own. -/
structure Follows (msg : StartViewMessage) : Prop where
  known : o.Known (.startView msg)
  follower : ¬ o.setup.AmLeader msg.view
  sessnum : c.sessnum ≤ msg.sessnum
  view : c.view ≤ msg.view

end Reasons

/-! ## The moves -/

/-- A move of a replica, with what it puts out. -/
inductive Move (o : Occasion) (c : Core) : List Output → Core → Prop where
  | send {dst msg} (sends : Sends o c dst msg) : Move o c [.send dst msg] c
  | execute {output} (executes : Output.Executes output) : Move o c [output] c
  | call {newsessnum newview} (sessnum : c.sessnum ≤ newsessnum) (view : c.view ≤ newview) :
      Move o c [.entering c.pair (newsessnum, newview) (decide (o.setup.AmLeader newview))
        c.leaderLastSyncPreparePoint c.lastOp] c
  | locate {remote msg} (known : o.known remote (.request msg)) :
      Move o c []
        { c with
          clientAddresses := Function.update c.clientAddresses msg.req.clientid
            (some ((c.clientAddresses msg.req.clientid).getD remote)) }
  | change {newsessnum newview} (raised : c.sessnum < newsessnum ∨ c.view < newview) :
      Move o c [] (c.changing (max c.sessnum newsessnum) (max c.view newview))
  | awaitRequest (status : c.status ≠ .viewChange) :
      Move o c [] { c with startGapRequestTimeout := true }
  | requestGap {waiting : Bool}
      (missing : c.startGapRequestTimeout = true ∨ c.gapRequestTimeout = true)
      (weaker : waiting = true → c.startGapRequestTimeout = true) :
      Move o c [] { c with startGapRequestTimeout := waiting, gapRequestTimeout := true }
  | agree (status : c.status ≠ .viewChange ∨ c.gapRequestTimeout = true) :
      Move o c []
        { c with startGapRequestTimeout := false, gapRequestTimeout := false, status := .gapCommit }
  | agreed {opnum} (status : c.status = .gapCommit) :
      Move o c [.gapCommitted c.sessnum c.view opnum] { c with status := .normal }
  | refuse {opnum outputs} (replies : ∀ output ∈ outputs, Replies c output) :
      Move o c (.processing opnum c.stateTransferOpEnd c.committedGaps.elements :: outputs) c
  | append {request vs state log outputs} (next : vs.opnum = c.lastOp + 1)
      (appended : c.log.append vs request (c.decidedState vs.opnum state) = some log)
      (replies : ∀ output ∈ outputs, Replies c output) (inside : vs.opnum ≠ c.stateTransferOpEnd) :
      Move o c (.processing vs.opnum c.stateTransferOpEnd c.committedGaps.elements :: outputs)
        (c.appended vs log (c.decidedState vs.opnum state))
  | appendLast {request vs state log outputs} (next : vs.opnum = c.lastOp + 1)
      (appended : c.log.append vs request (c.decidedState vs.opnum state) = some log)
      (replies : ∀ output ∈ outputs, Replies c output) (last : vs.opnum = c.stateTransferOpEnd) :
      Move o c
        (.processing vs.opnum c.stateTransferOpEnd c.committedGaps.elements :: outputs ++
          [.transferEnded c.stateTransferOpEnd log.entries.length])
        { c.appended vs log (c.decidedState vs.opnum state) with stateTransferTimeout := false }
  | learn {gap} : Move o c [] { c with committedGaps := c.committedGaps.insert gap }
  | strike {gap} : Move o c [] { c with log := c.log.setStatus gap .noop }
  | forget (drained : c.lastOp + 1 ∉ c.committedGaps ∨ c.Torn) :
      Move o c [] { c with committedGaps := {} }
  | rewind {opnum log} (removed : c.log.removeAfter opnum = some log)
      (below : opnum < c.leaderLastSyncPreparePoint → o.undercut) :
      Move o c []
        { c with lastOp := opnum, log := log, nextMsgnum := log.lastViewstamp.msgnum + 1 }
  | vote {pair replicaIdx msg} :
      Move o c [] { c with viewChangeQuorum := c.viewChangeQuorum.add pair replicaIdx msg }
  | merge {msgs} {latest : Latest} (elected : Elected o c msgs)
      (found : latest = msgs.foldl Latest.consider
        { sessnum := c.lastNormalSessnum, view := c.lastNormalView, op := c.lastOp }) :
      Move o c [.merged c.normal (msgs.map ViewChangeMessage.normal) (latest.sessnum, latest.view)]
        c
  | conclude {latest latestOp} (bounded : ∀ gap ∈ c.committedGaps, gap ≤ latestOp) :
      Move o c [] (c.starting latest latestOp)
  | mergeTransfer {msgs latestOp replicaIdx next} (elected : Elected o c msgs)
      (behind : c.lastOp < latestOp)
      (transferring : next = c.transferring latestOp replicaIdx .enterView true)
      (complete : c.status = .viewChange → c.Complete) :
      Move o c (next.asking true) next
  | mergeEnter {msgs} (elected : Elected o c msgs) :
      Move o c [.entered c.sessnum c.view c.log.entries] (c.entering c.sessnum c.view)
  | followTransfer {msg next} (follows : Follows o c msg) (behind : c.lastOp < msg.lastop)
      (transferring : next = (c.joining msg.sessnum msg.view).transferring msg.lastop
        (o.setup.configuration.getLeaderIndex msg.view) .enterView true) :
      Move o c (next.asking true) next
  | follow {msg} (follows : Follows o c msg) :
      Move o c [.entered msg.sessnum msg.view c.log.entries] (c.entering msg.sessnum msg.view)
  | syncTransfer {msg : SyncPrepareMessage} {asked next} (follower : ¬ o.setup.AmLeader c.view)
      (behind : c.lastOp < msg.lastop)
      (transferring : next = c.transferring msg.lastop
        (o.setup.configuration.getLeaderIndex msg.view) (.processSyncPrepare msg.lastop) asked) :
      Move o c (next.asking asked) next
  | finish (callback : c.stateTransferCallback = .enterView) (pending : 0 < c.stateTransferOpEnd) :
      Move o c [.entered c.sessnum c.view c.log.entries] (c.entering c.sessnum c.view)
  | setPoint : Move o c [] { c with leaderLastSyncPreparePoint := c.lastOp }
  | awaitStartView (leader : o.setup.AmLeader c.view)
      (started : c.status ≠ .viewChange ∨ c.startViewTimeout = true) :
      Move o c [] { c with startViewTimeout := true }
  | stopStartView : Move o c [] { c with startViewTimeout := false }
  | commit {opnum} (later : c.lastCommittedOp < opnum) (inside : opnum ≤ c.lastOp) :
      Move o c [] { c with lastCommittedOp := opnum }

end PaxosBus.NoPaxos

import PaxosBus.Library.Trace
import PaxosBus.NoPaxos.System

/-!
# What leaves execution alone

Of all that the handlers do, only `ExecuteUptoOp` touches the client table and
the number of the last executed operation, and only a client's request touches
its address and the set of the pending requests. A relation between states and
outputs that cares for nothing else covers every handler as soon as it covers
these. What asks for a state transfer comes last, so that a relation which cares
for that too covers the handlers before it.
-/

set_option autoImplicit false

namespace PaxosBus.NoPaxos

open PaxosBus.Common PaxosBus.Library
open Trace (Covers)

/-- An output that has nothing to do with execution and asks for no state transfer: no request, no
result, and no mark of an execution. -/
def Output.Quiet : Output → Prop
  | .send _ (.stateTransferRequest _) => False
  | .send _ (.request _) => False
  | .send _ (.reply msg) => msg.reply = none
  | .executed .. => False
  | .repeated .. => False
  | _ => True

/-- Execution finds the same as before, and the same requests are pending. -/
structure Replica.SameTable (r r' : Replica) : Prop where
  lastExecutedOp : r'.lastExecutedOp = r.lastExecutedOp
  clientTable : r'.clientTable = r.clientTable
  clientAddresses : r'.clientAddresses = r.clientAddresses
  pendingRequests : r'.pendingRequests = r.pendingRequests

variable {setup : Setup} {app : App} {trace : Trace Replica Output}

/-- A relation that only execution and the requests of clients matter to. -/
structure Framed (setup : Setup) (app : App) (trace : Trace Replica Output) : Prop where
  change : ∀ {r r' : Replica}, r.SameTable r' → trace.Rel r [] r'
  emit : ∀ (r : Replica) {output : Output}, output.Quiet → trace.Rel r [output] r
  execute : ∀ opnum, trace.Covers (executeUptoOp setup app opnum)

/-- An output that asks for no state transfer. -/
def Output.Unasking : Output → Prop
  | .send _ (.stateTransferRequest _) => False
  | _ => True

/-- A relation that cares for no more than the pending requests and the state transfers that are
asked for. -/
structure Indifferent (trace : Trace Replica Output) : Prop where
  change : ∀ {r r' : Replica}, r'.pendingRequests = r.pendingRequests → trace.Rel r [] r'
  emit : ∀ (r : Replica) {output : Output}, output.Unasking → trace.Rel r [output] r

namespace Indifferent

variable (indifferent : Indifferent trace)
include indifferent

/-- A change that leaves the set of the pending requests alone. -/
theorem sets {change : Replica → Replica}
    (same : ∀ r : Replica, (change r).pendingRequests = r.pendingRequests) :
    trace.Covers (Handler.modify change) :=
  .modify fun r => indifferent.change (same r)

/-- An output that asks for no state transfer. -/
theorem emits {output : Output} (unasking : output.Unasking) :
    trace.Covers (Handler.emit output) :=
  .emit fun r => indifferent.emit r unasking

/-- The reply goes to the address from the client table, and asks for nothing. -/
theorem replyExecuted (op : Nat) (entry : Entry) (reply : String) :
    trace.Covers (replyExecuted setup op entry reply) := by
  apply Covers.bind .get
  intro r
  apply Covers.branch _ (.pure ())
  split
  · exact indifferent.emits trivial
  · exact .pure ()

/-- A new request is executed, the table keeps the reply, and the leader sends it. -/
theorem executeNew (op : Nat) (entry : Entry) :
    trace.Covers (executeNew setup app op entry) := by
  apply Covers.bind .get
  intro r
  refine Covers.bind (indifferent.emits trivial) fun _ => ?_
  refine Covers.bind ?_ fun _ => indifferent.replyExecuted op entry _
  apply Covers.bind .get
  intro r
  apply (Covers.require _).bind
  intro _
  refine .branch (indifferent.sets fun _ => rfl) ?_
  exact .branch (indifferent.sets fun _ => rfl) (indifferent.sets fun _ => rfl)

/-- One round of `ExecuteUptoOp`: a NOOP is passed over, a request is executed or answered again. -/
theorem executeNext : trace.Covers (executeNext setup app) := by
  apply Covers.bind .get
  intro r
  apply (Covers.require _).bind
  intro _
  apply (Covers.demand _).bind
  intro entry
  refine Covers.bind (indifferent.sets fun _ => rfl) fun _ => ?_
  apply Covers.branch _ (.pure ())
  split
  · exact indifferent.executeNew _ _
  · apply Covers.branch (.pure ())
    apply Covers.branch _ (indifferent.executeNew _ _)
    exact Covers.bind (indifferent.emits trivial) fun _ => indifferent.replyExecuted _ _ _

/-- Such a relation covers execution as well. -/
theorem framed : Framed setup app trace where
  change same := indifferent.change same.pendingRequests
  emit r output quiet := by
    apply indifferent.emit r
    unfold Output.Unasking
    split
    · exact quiet
    · trivial
  execute opnum := by
    apply Covers.bind .get
    intro r
    apply Covers.branch (.pure ())
    apply (Covers.require _).bind
    intro _
    exact .repeated indifferent.executeNext

end Indifferent

namespace Framed

variable {α : Type} {output : Output} {change : Replica → Replica} {next : Unit → Run α}

/-- A change of other fields. -/
theorem sets (framed : Framed setup app trace) (same : ∀ r : Replica, r.SameTable (change r)) :
    trace.Covers (Handler.modify change) :=
  .modify fun r => framed.change (same r)

/-- The handler goes on after a change of other fields. -/
theorem sets_bind (framed : Framed setup app trace) (same : ∀ r : Replica, r.SameTable (change r))
    (rest : ∀ value, trace.Covers (next value)) : trace.Covers (Handler.modify change >>= next) :=
  (framed.sets same).bind rest

/-- An output that has nothing to do with execution. -/
theorem emits (framed : Framed setup app trace) (quiet : output.Quiet) :
    trace.Covers (Handler.emit output) :=
  .emit fun r => framed.emit r quiet

/-- The handler goes on after an output that has nothing to do with execution. -/
theorem emits_bind (framed : Framed setup app trace) (quiet : output.Quiet)
    (rest : ∀ value, trace.Covers (next value)) : trace.Covers (Handler.emit output >>= next) :=
  (framed.emits quiet).bind rest

/-! ## Messages of its own accord -/

variable (framed : Framed setup app trace)
include framed

/-- A gap request goes to the leader, or to all others, and the timer starts. -/
theorem sendGapRequest : trace.Covers (sendGapRequest setup) := by
  apply Covers.bind .get
  intro r
  apply Covers.branch
  · exact framed.emits_bind trivial fun _ => framed.sets fun _ => ⟨rfl, rfl, rfl, rfl⟩
  · exact framed.emits_bind trivial fun _ => framed.sets fun _ => ⟨rfl, rfl, rfl, rfl⟩

/-- The leader tells the others of the gap, and starts the timer. -/
theorem sendGapCommit : trace.Covers (sendGapCommit setup) := by
  apply Covers.bind .get
  intro r
  apply (Covers.require _).bind
  intro _
  apply (Covers.require _).bind
  intro _
  exact framed.emits_bind trivial fun _ => framed.sets fun _ => ⟨rfl, rfl, rfl, rfl⟩

/-- A `ViewChangeRequest` goes to all others, and a follower's vote to the leader. -/
theorem sendViewChange : trace.Covers (sendViewChange setup) := by
  apply Covers.bind .get
  intro r
  refine framed.emits_bind trivial fun _ => ?_
  apply Covers.branch
  · exact framed.sets fun _ => ⟨rfl, rfl, rfl, rfl⟩
  · exact framed.emits_bind trivial fun _ => framed.sets fun _ => ⟨rfl, rfl, rfl, rfl⟩

/-- The leader announces the view and starts the timer. -/
theorem sendStartView : trace.Covers (sendStartView setup) := by
  apply Covers.bind .get
  intro r
  apply (Covers.require _).bind
  intro _
  exact framed.emits_bind trivial fun _ => framed.sets fun _ => ⟨rfl, rfl, rfl, rfl⟩

/-- A follower tells the leader that it has entered the view. -/
theorem sendStartViewReply : trace.Covers (sendStartViewReply setup) := by
  apply Covers.bind .get
  intro r
  apply (Covers.require _).bind
  intro _
  exact (Covers.require _).bind fun _ => framed.emits trivial

/-- The leader notes the end of its log and its gaps as the sync point, and announces them. -/
theorem sendSyncPrepare : trace.Covers (sendSyncPrepare setup) := by
  apply Covers.bind .get
  intro r
  apply (Covers.require _).bind
  intro _
  exact framed.sets_bind (fun _ => ⟨rfl, rfl, rfl, rfl⟩) fun _ => framed.emits trivial

/-- The leader tells the others how far it has committed. -/
theorem sendSyncCommit : trace.Covers (sendSyncCommit setup) := by
  apply Covers.bind .get
  intro r
  exact (Covers.require _).bind fun _ => framed.emits trivial

/-! ## Views -/

/-- `CommitUptoOp` commits, announces it if the replica leads, and executes. -/
theorem commitUptoOp (opnum : Nat) : trace.Covers (commitUptoOp setup app opnum) := by
  apply Covers.bind .get
  intro r
  apply Covers.branch (.pure ())
  apply (Covers.require _).bind
  intro _
  refine framed.sets_bind (fun _ => ⟨rfl, rfl, rfl, rfl⟩) fun _ => ?_
  apply Covers.branch
  · exact framed.sendSyncCommit.bind fun _ => framed.execute opnum
  · exact framed.execute opnum

/-- The leader executes its whole log, makes it the sync point, and announces the view. -/
theorem leadView : trace.Covers (leadView setup app) := by
  apply Covers.bind .get
  intro r
  apply (framed.execute r.lastOp).bind
  intro _
  refine framed.sets_bind (fun _ => ⟨rfl, rfl, rfl, rfl⟩) fun _ => ?_
  apply Covers.bind .get
  intro r
  apply (Covers.require _).bind
  intro _
  exact framed.sets_bind (fun _ => ⟨rfl, rfl, rfl, rfl⟩) fun _ => framed.sendStartView

/-- A follower executes nothing when it enters the view, and replies to the leader. -/
theorem followView : trace.Covers (followView setup) :=
  framed.sets_bind (fun _ => ⟨rfl, rfl, rfl, rfl⟩) fun _ => framed.sendStartViewReply

/-- Entering a view marks the entrance, and executes if the replica leads the view. -/
theorem enterView (sessnum view : Nat) : trace.Covers (enterView setup app sessnum view) := by
  apply Covers.bind .get
  intro r
  refine framed.emits_bind trivial fun _ => ?_
  apply (Covers.require _).bind
  intro _
  apply (Covers.require _).bind
  intro _
  refine framed.emits_bind trivial fun _ => ?_
  refine framed.sets_bind (fun _ => ⟨rfl, rfl, rfl, rfl⟩) fun _ => ?_
  exact Covers.branch framed.leadView framed.followView

/-- A follower replies to the leader, or commits if the `SyncCommit` has come first. -/
theorem processSyncPrepare (syncpoint : Nat) :
    trace.Covers (processSyncPrepare setup app syncpoint) := by
  apply Covers.bind .get
  intro r
  apply (Covers.require _).bind
  intro _
  apply Covers.branch
  · exact (framed.commitUptoOp syncpoint).bind fun _ => framed.sets fun _ => ⟨rfl, rfl, rfl, rfl⟩
  · exact framed.emits trivial

/-- What a state transfer was for is taken up again. -/
theorem completeStateTransfer : trace.Covers (completeStateTransfer setup app) := by
  apply Covers.bind .get
  intro r
  cases r.stateTransferCallback with
  | unset => exact .stop
  | enterView => exact framed.enterView _ _
  | processSyncPrepare syncpoint => exact framed.processSyncPrepare syncpoint

/-! ## Operations -/

/-- The leader executes a request that it has appended, and a follower replies without a result. -/
theorem acknowledgeOperation (request : Request) (vs : Viewstamp) (state : LogEntryState) :
    trace.Covers (acknowledgeOperation setup app request vs state) := by
  apply Covers.bind .get
  intro r
  apply Covers.branch
  · exact framed.sets fun _ => ⟨rfl, rfl, rfl, rfl⟩
  · apply Covers.branch _ (.pure ())
    apply Covers.branch (framed.execute vs.opnum)
    cases r.clientAddresses request.clientid with
    | none => exact .pure ()
    | some addr => exact framed.emits rfl

/-- The operation that a state transfer ends at completes the transfer. -/
theorem checkStateTransfer (opnum : Nat) : trace.Covers (checkStateTransfer setup app opnum) := by
  apply Covers.bind .get
  intro r
  apply Covers.branch _ (.pure ())
  refine framed.sets_bind (fun _ => ⟨rfl, rfl, rfl, rfl⟩) fun _ => ?_
  refine framed.emits_bind trivial fun _ => ?_
  exact framed.completeStateTransfer

/-- The operation is appended as what is known of it, as a gap or as a request. -/
theorem processOperation (request : Request) (vs : Viewstamp) (state : LogEntryState) :
    trace.Covers (processOperation setup app request vs state) := by
  apply Covers.bind .get
  intro r
  refine framed.emits_bind trivial fun _ => ?_
  apply (Covers.require _).bind
  intro _
  refine framed.sets_bind (fun _ => ⟨rfl, rfl, rfl, rfl⟩) fun _ => ?_
  apply (Covers.demand _).bind
  intro log
  refine framed.sets_bind (fun _ => ⟨rfl, rfl, rfl, rfl⟩) fun _ => ?_
  apply (framed.sets fun r => ?_).bind
  · intro _
    exact (framed.acknowledgeOperation _ _ _).bind fun _ => framed.checkStateTransfer _
  · unfold Replica.stopGapRequests
    split <;> exact ⟨rfl, rfl, rfl, rfl⟩

/-- The gaps that come next are appended one after the other. -/
theorem processGaps (request : Request) (vs : Viewstamp) (rounds : Nat) :
    trace.Covers (processGaps setup app request vs rounds) := by
  induction rounds with
  | zero => exact .pure ()
  | succ rounds inductionHypothesis =>
      apply Covers.bind .get
      intro r
      apply Covers.branch _ (.pure ())
      exact (framed.processOperation _ _ _).bind fun _ => inductionHypothesis

/-- The operation itself, and then the gaps that follow it. -/
theorem processNextOperation (request : Request) (vs : Viewstamp) (state : LogEntryState) :
    trace.Covers (processNextOperation setup app request vs state) := by
  apply (framed.processOperation request vs state).bind
  intro _
  exact Covers.bind .get fun r => framed.processGaps request vs _

/-- A gap beyond the log is kept for later, one inside it becomes a NOOP. -/
theorem installGap (gap : Nat) : trace.Covers (installGap setup app gap) := by
  apply Covers.bind .get
  intro r
  apply Covers.branch (.pure ())
  refine framed.sets_bind (fun _ => ⟨rfl, rfl, rfl, rfl⟩) fun _ => ?_
  apply Covers.bind
  · exact Covers.bind .get fun r => .branch (framed.processNextOperation _ _ _) (.pure ())
  · intro _
    apply Covers.bind .get
    intro r
    apply Covers.branch _ (.pure ())
    apply (Covers.demand _).bind
    intro entry
    apply Covers.branch (.pure ())
    apply (Covers.require _).bind
    intro _
    apply (Covers.require _).bind
    intro _
    exact framed.sets fun _ => ⟨rfl, rfl, rfl, rfl⟩

/-- All gaps of a list, one after the other. -/
theorem installCommittedGaps (committedgaps : List Nat) :
    trace.Covers (installCommittedGaps setup app committedgaps) :=
  .forEach framed.installGap

/-- Rewinding the log executes nothing and undoes nothing. -/
theorem rewindLogToOpnum (opnum : Nat) : trace.Covers (rewindLogToOpnum opnum) := by
  apply Covers.bind .get
  intro r
  apply (Covers.require _).bind
  intro _
  apply (Covers.require _).bind
  intro _
  refine framed.sets_bind (fun _ => ⟨rfl, rfl, rfl, rfl⟩) fun _ => ?_
  exact (Covers.demand _).bind fun log => framed.sets fun _ => ⟨rfl, rfl, rfl, rfl⟩

/-- The votes of the views before are dropped, and the change is announced. -/
theorem startViewChange (sessnum view : Nat) :
    trace.Covers (startViewChange setup sessnum view) := by
  apply Covers.bind .get
  intro r
  apply (Covers.require _).bind
  intro _
  exact framed.sets_bind (fun _ => ⟨rfl, rfl, rfl, rfl⟩) fun _ => framed.sendViewChange

/-- A message of a newer view starts a view change. -/
theorem checkViewNumAndStatus (sessnum view : Nat) :
    trace.Covers (checkViewNumAndStatus setup sessnum view) := by
  apply Covers.bind .get
  intro r
  apply Covers.branch (.pure false)
  apply Covers.branch
  · exact (framed.startViewChange sessnum view).bind fun _ => .pure false
  · exact .branch (.pure false) (.pure true)

/-- A handler that goes on in the current session and view only. -/
theorem checked {sessnum view : Nat} {rest : Run Unit} (covers : trace.Covers rest) :
    trace.Covers (do
      let current ← NoPaxos.checkViewNumAndStatus setup sessnum view
      if current then rest else pure ()) := by
  apply (framed.checkViewNumAndStatus sessnum view).bind
  intro current
  exact .branch covers (.pure ())

/-- A request with the next number is appended, one with a later number reveals a gap. -/
theorem tryProcessClientRequest (msg : RequestMessage) :
    trace.Covers (tryProcessClientRequest setup app msg) := by
  apply Covers.bind .get
  intro r
  apply Covers.branch (.pure false)
  apply Covers.branch (.pure true)
  apply Covers.branch
  · exact (framed.startViewChange _ _).bind fun _ => .pure false
  apply Covers.branch (.pure true)
  apply Covers.branch
  · apply Covers.branch (.pure false)
    exact framed.sets_bind (fun _ => ⟨rfl, rfl, rfl, rfl⟩) fun _ => .pure false
  · exact (framed.processNextOperation _ _ _).bind fun _ => .pure true

/-! ## Gap agreement and state transfer -/

/-- The leader puts a NOOP where the gap is, and tells the others. -/
theorem startGapAgreement : trace.Covers (startGapAgreement setup app) := by
  apply Covers.bind .get
  intro r
  apply (Covers.require _).bind
  intro _
  refine framed.sets_bind (fun _ => ⟨rfl, rfl, rfl, rfl⟩) fun _ => ?_
  exact (framed.processNextOperation _ _ _).bind fun _ => framed.sendGapCommit

/-- A gap request is answered with the entry, or by a replica that waits for the same one. -/
theorem handleGapRequest (remote : Address) (msg : GapRequestMessage) :
    trace.Covers (handleGapRequest setup remote msg) := by
  apply framed.checked
  apply Covers.bind .get
  intro r
  apply (Covers.demand _).bind
  intro reply
  exact .branch (framed.emits trivial) (.pure ())

/-- A reply to a gap request brings the entry, or with a quorum of others makes the leader decide.
-/
theorem handleGapReply (msg : GapReplyMessage) :
    trace.Covers (handleGapReply setup app msg) := by
  apply framed.checked
  apply Covers.bind .get
  intro r
  apply Covers.branch (.pure ())
  apply Covers.branch (.require _)
  apply Covers.branch (framed.processNextOperation _ _ _)
  apply Covers.branch _ (.pure ())
  refine framed.sets_bind (fun _ => ⟨rfl, rfl, rfl, rfl⟩) fun _ => ?_
  split
  · exact .pure ()
  · exact framed.startGapAgreement

/-- A gap that the leader has committed is entered in the log, and acknowledged. -/
theorem handleGapCommit (remote : Address) (msg : GapCommitMessage) :
    trace.Covers (handleGapCommit setup app remote msg) := by
  apply framed.checked
  apply Covers.bind .get
  intro r
  apply (Covers.require _).bind
  intro _
  apply Covers.branch
  · exact framed.sets fun _ => ⟨rfl, rfl, rfl, rfl⟩
  · apply Covers.bind
    · apply Covers.bind .get
      intro r
      apply Covers.branch
      · exact framed.sets fun _ => ⟨rfl, rfl, rfl, rfl⟩
      · exact (Covers.require _).bind fun _ => framed.processNextOperation _ _ _
    · exact fun _ => Covers.bind .get fun r => framed.emits trivial

/-- The leader counts who knows of the gap, and goes on with a quorum. -/
theorem handleGapCommitReply (msg : GapCommitReplyMessage) :
    trace.Covers (handleGapCommitReply setup msg) := by
  apply framed.checked
  apply Covers.bind .get
  intro r
  apply Covers.branch (.pure ())
  apply Covers.branch _ (.pure ())
  refine framed.sets_bind (fun _ => ⟨rfl, rfl, rfl, rfl⟩) fun _ => ?_
  split
  · exact .pure ()
  · exact framed.emits_bind trivial fun _ => framed.sets fun _ => ⟨rfl, rfl, rfl, rfl⟩

/-- The entries that are asked for are sent if the replica has them. -/
theorem handleStateTransferRequest (remote : Address) (msg : StateTransferRequestMessage) :
    trace.Covers (handleStateTransferRequest remote msg) := by
  apply Covers.bind .get
  intro r
  apply Covers.branch (.pure ())
  apply Covers.branch (.pure ())
  exact (Covers.demand _).bind fun entries => framed.emits trivial

/-- The entries that are still missing are appended in their order. -/
theorem handleStateTransferReply (msg : StateTransferReplyMessage) :
    trace.Covers (handleStateTransferReply setup app msg) := by
  apply Covers.bind .get
  intro r
  apply Covers.branch (.pure ())
  apply Covers.branch (.pure ())
  apply (Covers.demand _).bind
  intro first
  apply (Covers.demand _).bind
  intro last
  apply (Covers.require _).bind
  intro _
  apply (Covers.require _).bind
  intro _
  apply (Covers.require _).bind
  intro _
  apply Covers.forEach
  intro entry
  apply Covers.bind .get
  intro r
  exact (Covers.require _).bind fun _ => framed.processNextOperation _ _ _

/-! ## View changes -/

/-- The gaps of the votes are entered one vote after the other. -/
theorem mergeLogs (latest : Latest) (msgs : List ViewChangeMessage) (latestOp : Nat)
    (latestOpReplicaIdx : Option Nat) :
    trace.Covers (mergeLogs setup app latest latestOp latestOpReplicaIdx msgs) := by
  induction msgs generalizing latestOp latestOpReplicaIdx with
  | nil => exact .pure _
  | cons x rest inductionHypothesis =>
      apply (Covers.require _).bind
      intro _
      apply (Covers.require _).bind
      intro _
      apply Covers.branch _ (inductionHypothesis _ _)
      apply (framed.installCommittedGaps _).bind
      intro _
      apply Covers.bind .get
      intro r
      apply (Covers.require _).bind
      intro _
      exact .branch (inductionHypothesis _ _) (inductionHypothesis _ _)

end Framed

/-! ## What may ask for a state transfer -/

/-- The relation also covers the request for a state transfer. -/
structure Asking (setup : Setup) (app : App) (trace : Trace Replica Output) : Prop
    extends Framed setup app trace where
  ask : ∀ (r : Replica) (destination : Destination) (msg : StateTransferRequestMessage),
    trace.Rel r [.send destination (.stateTransferRequest msg)] r

namespace Asking

variable (asking : Asking setup app trace)
include asking

/-- Asking for a state transfer is the one thing that a relation may care for besides execution. -/
theorem sendStateTransferRequest : trace.Covers sendStateTransferRequest := by
  apply Covers.bind .get
  intro r
  apply (Covers.emit fun r => asking.ask r _ _).bind
  intro _
  exact asking.sets fun _ => ⟨rfl, rfl, rfl, rfl⟩

/-- With the gaps merged the leader enters the view, or asks for what its log lacks first. -/
theorem completeMerge (latest : Latest) (latestOp : Nat) (latestOpReplicaIdx : Option Nat) :
    trace.Covers (completeMerge setup app latest latestOp latestOpReplicaIdx) := by
  apply Covers.bind .get
  intro r
  apply (Covers.require _).bind
  intro _
  refine asking.sets_bind (fun _ => ⟨rfl, rfl, rfl, rfl⟩) fun _ => ?_
  cases latestOpReplicaIdx with
  | none => exact (Covers.require _).bind fun _ => asking.enterView _ _
  | some replicaIdx =>
      apply (Covers.require _).bind
      intro _
      refine asking.sets_bind (fun _ => ⟨rfl, rfl, rfl, rfl⟩) fun _ => ?_
      exact asking.emits_bind trivial fun _ => asking.sendStateTransferRequest

/-- A leader whose log is of an older view than the latest vote rewinds it before it merges. -/
theorem mergeQuorum (msgs : List ViewChangeMessage) :
    trace.Covers (mergeQuorum setup app msgs) := by
  have merges : ∀ latest : Latest, trace.Covers
      (NoPaxos.mergeLogs setup app latest latest.op none msgs >>= fun merged =>
        NoPaxos.completeMerge setup app latest merged.1 merged.2) :=
    fun latest => (asking.mergeLogs _ _ _ _).bind fun _ => asking.completeMerge _ _ _
  apply Covers.bind .get
  intro r
  refine asking.emits_bind trivial fun _ => ?_
  apply Covers.branch _ (merges _)
  apply (asking.rewindLogToOpnum _).bind
  intro _
  exact asking.sets_bind (fun _ => ⟨rfl, rfl, rfl, rfl⟩) fun _ => merges _

/-- A request for a view change starts one. -/
theorem handleViewChangeRequest (msg : ViewChangeRequestMessage) :
    trace.Covers (handleViewChangeRequest setup msg) := by
  apply Covers.bind .get
  intro r
  exact .branch (asking.startViewChange _ _) (.pure ())

/-- A vote for a view that the replica leads is counted, and a quorum of them is merged. -/
theorem joinedViewChange (remote : Address) (msg : ViewChangeMessage) :
    trace.Covers (joinedViewChange setup app remote msg) := by
  apply Covers.bind .get
  intro r
  apply Covers.branch (.pure ())
  apply (Covers.require _).bind
  intro _
  apply (Covers.require _).bind
  intro _
  refine Covers.branch (asking.emits trivial) ?_
  refine asking.sets_bind (fun _ => ⟨rfl, rfl, rfl, rfl⟩) fun _ => ?_
  split
  · exact .pure ()
  · exact asking.mergeQuorum _

/-- A vote for a newer view makes the leader of that view join it first. -/
theorem handleViewChange (remote : Address) (msg : ViewChangeMessage) :
    trace.Covers (handleViewChange setup app remote msg) := by
  apply Covers.bind .get
  intro r
  apply Covers.branch _ (asking.joinedViewChange remote msg)
  exact (asking.startViewChange _ _).bind fun _ => asking.joinedViewChange remote msg

/-- The log is rewound, the gaps of the view are entered, and what is still missing is asked for. -/
theorem handleStartView (msg : StartViewMessage) :
    trace.Covers (handleStartView setup app msg) := by
  apply Covers.bind .get
  intro r
  apply Covers.branch (.pure ())
  apply Covers.branch asking.sendStartViewReply
  apply (Covers.require _).bind
  intro _
  apply Covers.bind
  · apply Covers.bind .get
    intro r
    apply Covers.branch (asking.rewindLogToOpnum _)
    apply (Covers.require _).bind
    intro _
    apply (Covers.require _).bind
    intro _
    exact .branch (asking.rewindLogToOpnum _) (.pure ())
  intro _
  apply Covers.bind
  · apply Covers.bind .get
    intro r
    split
    · exact asking.rewindLogToOpnum _
    · exact .pure ()
  intro _
  refine asking.sets_bind (fun _ => ⟨rfl, rfl, rfl, rfl⟩) fun _ => ?_
  apply (asking.installCommittedGaps _).bind
  intro _
  apply Covers.bind .get
  intro r
  apply Covers.branch _ (asking.enterView _ _)
  refine asking.sets_bind (fun _ => ⟨rfl, rfl, rfl, rfl⟩) fun _ => ?_
  exact asking.emits_bind trivial fun _ => asking.sendStateTransferRequest

/-- The leader counts who has entered the view, and with a quorum commits its start. -/
theorem handleStartViewReply (msg : StartViewReplyMessage) :
    trace.Covers (handleStartViewReply setup app msg) := by
  apply Covers.bind .get
  intro r
  apply Covers.branch (.pure ())
  apply (Covers.require _).bind
  intro _
  apply (Covers.require _).bind
  intro _
  apply Covers.branch _ (.pure ())
  refine asking.sets_bind (fun _ => ⟨rfl, rfl, rfl, rfl⟩) fun _ => ?_
  split
  · exact .pure ()
  · exact (asking.commitUptoOp _).bind fun _ => asking.sets fun _ => ⟨rfl, rfl, rfl, rfl⟩

/-! ## Synchronization -/

/-- A follower enters the gaps, and asks for what its log lacks before it replies. -/
theorem handleSyncPrepare (msg : SyncPrepareMessage) :
    trace.Covers (handleSyncPrepare setup app msg) := by
  apply asking.checked
  refine asking.sets_bind (fun _ => ⟨rfl, rfl, rfl, rfl⟩) fun _ => ?_
  apply Covers.bind .get
  intro r
  apply Covers.branch (.pure ())
  apply (Covers.require _).bind
  intro _
  apply (Covers.require _).bind
  intro _
  refine asking.sets_bind (fun _ => ⟨rfl, rfl, rfl, rfl⟩) fun _ => ?_
  apply (asking.installCommittedGaps _).bind
  intro _
  apply Covers.bind .get
  intro r
  apply Covers.branch _ (asking.processSyncPrepare _)
  refine asking.sets_bind (fun _ => ⟨rfl, rfl, rfl, rfl⟩) fun _ => ?_
  exact asking.emits_bind trivial fun _ => .branch asking.sendStateTransferRequest (.pure ())

/-- With a quorum of replies the leader commits up to the point of the round. -/
theorem handleSyncPrepareReply (msg : SyncPrepareReplyMessage) :
    trace.Covers (handleSyncPrepareReply setup app msg) := by
  apply asking.checked
  apply Covers.bind .get
  intro r
  apply (Covers.require _).bind
  intro _
  apply Covers.branch (.pure ())
  apply Covers.branch (.pure ())
  refine asking.sets_bind (fun _ => ⟨rfl, rfl, rfl, rfl⟩) fun _ => ?_
  split
  · exact .pure ()
  · exact asking.commitUptoOp _

/-- A follower commits what the leader has, or asks for the `SyncPrepare` that it has missed. -/
theorem handleSyncCommit (msg : SyncCommitMessage) :
    trace.Covers (handleSyncCommit setup app msg) := by
  apply asking.checked
  apply Covers.bind .get
  intro r
  apply (Covers.require _).bind
  intro _
  apply Covers.branch (.pure ())
  apply (Covers.require _).bind
  intro _
  refine asking.sets_bind (fun _ => ⟨rfl, rfl, rfl, rfl⟩) fun _ => ?_
  refine Covers.branch ?_ (asking.emits trivial)
  apply Covers.branch _ (.pure ())
  exact (asking.commitUptoOp _).bind fun _ => asking.sets fun _ => ⟨rfl, rfl, rfl, rfl⟩

/-- Every timeout sends again what is waited for, or starts a view change. -/
theorem fireTimer (timer : Timer) : trace.Covers (fireTimer setup app timer) := by
  cases timer with
  | startGapRequest =>
      exact asking.sets_bind (fun _ => ⟨rfl, rfl, rfl, rfl⟩) fun _ => asking.sendGapRequest
  | gapRequest =>
      exact Covers.bind .get fun r => .branch asking.startGapAgreement asking.sendGapRequest
  | gapCommit => exact asking.sendGapCommit
  | viewChange => exact asking.sendViewChange
  | stateTransfer => exact asking.sendStateTransferRequest
  | startView => exact asking.sendStartView
  | sync => exact asking.sendSyncPrepare
  | leaderSyncHeard => exact Covers.bind .get fun r => asking.startViewChange _ _

end Asking

/-! ## Requests of clients -/

/-- The relation also admits what a replica does to the pending requests, and that it takes down
where a message comes from. -/
structure Admits (setup : Setup) (app : App) (trace : Trace Replica Output) (remote : Address)
    (msg : Message) : Prop extends Asking setup app trace where
  pend : ∀ (r : Replica) (pending : List RequestMessage),
    trace.Rel r [] { r with pendingRequests := pending }
  locate : ∀ (r : Replica) (request : RequestMessage), msg = .request request →
    trace.Rel r []
      { r with
        clientAddresses := Function.update r.clientAddresses request.req.clientid
          (some ((r.clientAddresses request.req.clientid).getD remote)) }

namespace Admits

variable {remote : Address} {msg : Message} (admits : Admits setup app trace remote msg)
include admits

/-- One round over the pending requests: the first is taken, and removed unless it has to wait. -/
theorem processPending (rounds : Nat) : trace.Covers (processPending setup app rounds) := by
  induction rounds with
  | zero => exact .pure ()
  | succ rounds inductionHypothesis =>
      apply Covers.bind .get
      intro r
      split
      · exact .pure ()
      · apply (admits.tryProcessClientRequest _).bind
        intro processed
        apply Covers.branch _ (.pure ())
        exact (Covers.modify fun r => admits.pend r _).bind fun _ => inductionHypothesis

/-- There are as many rounds as requests are pending, so all of them have a turn. -/
theorem processPendingRequests : trace.Covers (processPendingRequests setup app) := by
  apply Covers.bind .get
  intro r
  exact .branch (.pure ()) (admits.processPending _)

/-- The address of the client is learnt, and the request waits in the set or is processed at once.
-/
theorem handleClientRequest {request : RequestMessage} (same : msg = .request request) :
    trace.Covers (handleClientRequest setup app remote request) := by
  apply (Covers.modify fun r => admits.locate r request same).bind
  intro _
  apply (Covers.require _).bind
  intro _
  apply (admits.tryProcessClientRequest _).bind
  intro processed
  apply Covers.branch (.pure ())
  apply Covers.modify
  intro r
  unfold Replica.addPendingRequest
  split
  · exact trace.refl r
  · exact admits.pend r _

/-- Every kind of message, and the panic at all others. -/
theorem dispatch : trace.Covers (dispatch setup app remote msg) := by
  cases msg with
  | request msg => exact admits.handleClientRequest rfl
  | unloggedRequest msg => exact admits.emits trivial
  | gapRequest msg => exact admits.handleGapRequest remote msg
  | gapReply msg => exact admits.handleGapReply msg
  | gapCommit msg => exact admits.handleGapCommit remote msg
  | gapCommitReply msg => exact admits.handleGapCommitReply msg
  | stateTransferRequest msg => exact admits.handleStateTransferRequest remote msg
  | stateTransferReply msg => exact admits.handleStateTransferReply msg
  | viewChangeRequest msg => exact admits.handleViewChangeRequest msg
  | viewChange msg => exact admits.handleViewChange remote msg
  | startView msg => exact admits.handleStartView msg
  | startViewReply msg => exact admits.handleStartViewReply msg
  | syncPrepare msg => exact admits.handleSyncPrepare msg
  | syncPrepareReply msg => exact admits.handleSyncPrepareReply msg
  | syncCommit msg => exact admits.handleSyncCommit msg
  | syncPrepareRequest | reply | unloggedReply => exact .stop

/-- A message is handled, and then the requests that have waited for it. -/
theorem receiveMessage : trace.Covers (receiveMessage setup app remote msg) :=
  admits.dispatch.bind fun _ => admits.processPendingRequests

end Admits

end PaxosBus.NoPaxos

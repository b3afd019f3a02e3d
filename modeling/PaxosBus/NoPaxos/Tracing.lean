import PaxosBus.NoPaxos.Moves
import PaxosBus.NoPaxos.Representation

/-!
# Tracing the handlers

Whatever a handler of a replica does is a sequence of moves. First come the
parts that leave the core alone, then what enters a view, and last how an
operation gets into the log together with the gaps that follow it. When a
handler ends, no gap is waiting to be the next entry, and a replica with a torn
log is not about to reach the end of a state transfer.
-/

set_option autoImplicit false

namespace PaxosBus.NoPaxos

open PaxosBus.Common PaxosBus.Library

/-- The messages that a replica keeps for a view change have reached it, and the replicas that a
quorum needs besides the leader are those of the configuration. -/
structure Replica.Proper (o : Occasion) (r : Replica) : Prop where
  known : r.viewChangeQuorum.All fun pair idx msg => o.Known (.viewChange msg) ∧
    pair = (msg.sessnum, msg.view) ∧ idx = msg.replicaIdx
  required : r.viewChangeQuorum.numRequired = o.setup.configuration.quorumSize - 1

/-- Handlers of a replica are matched with the moves of its core. -/
def matching (o : Occasion) : Matching Core Replica Output where
  move := Move o
  core := Replica.core
  Proper := Replica.Proper o

/-- What the handler does is a sequence of moves. -/
abbrev Traces {α : Type} (o : Occasion) (handler : Run α) (r : Replica)
    (Post : α → Replica → Prop) : Prop :=
  (matching o).Traces handler r Post

/-- The handler leaves the core as it is. -/
abbrev Idles {α : Type} (o : Occasion) (handler : Run α) (r : Replica) : Prop :=
  Traces o handler r fun _ r' => r'.core = r.core

variable {o : Occasion} {app : App} {r : Replica}

/-- Two replicas with the same quorum for a view change are proper together. -/
theorem Replica.Proper.frame {r' : Replica} (proper : r.Proper o)
    (same : r'.viewChangeQuorum = r.viewChangeQuorum) : r'.Proper o where
  known := same ▸ proper.known
  required := same ▸ proper.required

/-- More may be known. -/
theorem Replica.Proper.mono {o' : Occasion} (proper : r.Proper o) (setup : o'.setup = o.setup)
    (more : ∀ msg, o.Known msg → o'.Known msg) : r.Proper o' where
  known := proper.known.imp fun _ _ _ ⟨known, pair, sender⟩ => ⟨more _ known, pair, sender⟩
  required := setup ▸ proper.required

/-- A cleared quorum has no messages. -/
theorem Replica.Proper.cleared {r' : Replica} (proper : r.Proper o)
    (cleared : r'.viewChangeQuorum = r.viewChangeQuorum.clear) : r'.Proper o where
  known := cleared ▸ QuorumSet.all_clear
  required := cleared ▸ proper.required

/-! ## What leaves the core alone -/

section Idling

/-- A change of fields that are not in the core. -/
theorem idles_change {change : Replica → Replica} (core : (change r).core = r.core)
    (quorum : (change r).viewChangeQuorum = r.viewChangeQuorum) (proper : r.Proper o) :
    Idles o (Handler.modify change) r :=
  .quiet core (proper.frame quorum) core

/-- A message that may be sent. -/
theorem idles_send {dst : Destination} {msg : Message} (sends : Sends o r.core dst msg)
    (proper : r.Proper o) : Idles o (Handler.emit (.send dst msg)) r :=
  .emit (.send sends) proper rfl

/-- Two parts of which neither changes the core, one after the other. -/
theorem idles_bind {α β : Type} {first : Run β} {next : β → Run α} (before : Idles o first r)
    (after : ∀ value r', r'.Proper o → r'.core = r.core → Idles o (next value) r') :
    Idles o (first >>= next) r := by
  refine .bind before fun value r' proper same => ?_
  exact (after value r' proper same).imp fun _ _ _ same' => same'.trans same

/-- A part that does nothing makes no move. -/
theorem idles_pure {α : Type} {value : α} (proper : r.Proper o) : Idles o (pure value) r :=
  .pure proper rfl

/-- A message that says nothing of the log goes to all others. -/
theorem sendToAll_idles {msg : Message} (plain : msg.Plain) (proper : r.Proper o) :
    Idles o (sendToAll msg) r :=
  idles_send (.plain plain) proper

/-- A message that says nothing of the log goes to one replica. -/
theorem sendToReplica_idles {idx : Nat} {msg : Message} (plain : msg.Plain)
    (proper : r.Proper o) : Idles o (sendToReplica idx msg) r :=
  idles_send (.plain plain) proper

/-- A message that says nothing of the log goes to an address. -/
theorem sendMessage_idles {addr : Address} {msg : Message} (plain : msg.Plain)
    (proper : r.Proper o) : Idles o (sendMessage addr msg) r :=
  idles_send (.plain plain) proper

end Idling

/-! ## Execution -/

section Executing

variable {setup : Setup}

/-- What execution does: it replies to clients, and changes nothing of the core. -/
def replying (c : Core) (o : Occasion) : Logic Unit Replica Output where
  Later _ _ := True
  refl _ := trivial
  trans _ _ := trivial
  Valid _ output := Replies c output
  mono _ valid := valid
  Keeps _ r := r.core = c ∧ r.Proper o

/-- The handler only replies to clients. -/
abbrev OnlyReplies {α : Type} (o : Occasion) (c : Core) (handler : Run α) (r : Replica) : Prop :=
  (replying c o).Meets handler () r fun _ _ _ => True

variable {c : Core} {α β : Type}

/-- Fields that the moves do not see may change. -/
theorem replies_change {change : Replica → Replica} (same : r.core = c ∧ r.Proper o)
    (core : (change r).core = r.core)
    (quorum : (change r).viewChangeQuorum = r.viewChangeQuorum) :
    OnlyReplies o c (Handler.modify change) r :=
  .change ⟨core.trans same.1, same.2.frame quorum⟩ trivial

/-- A part that only replies, followed by another one. -/
theorem replies_bind {first : Run β} {next : β → Run α} (before : OnlyReplies o c first r)
    (after : ∀ value r', r'.core = c ∧ r'.Proper o → OnlyReplies o c (next value) r') :
    OnlyReplies o c (first >>= next) r :=
  .bind (before.imp fun value _ r' _ _ same => after value r' same)

theorem replies_pure {value : α} (same : r.core = c ∧ r.Proper o) :
    OnlyReplies o c (pure value : Run α) r :=
  .pure same trivial

/-- A reply goes to a client whose address is known. -/
theorem replies_send {clientid : Nat} {addr : Address} {reply : ReplyMessage}
    (same : r.core = c ∧ r.Proper o) (client : r.clientAddresses clientid = some addr) :
    OnlyReplies o c (sendMessage addr (.reply reply)) r := by
  have known : c.clientAddresses clientid = some addr := by
    rw [← same.1]
    exact client
  exact .emit same (.inl ⟨clientid, addr, reply, known, rfl⟩) trivial

/-- The moves do not see the client table. -/
theorem updateClientTable_replies {req : Request} {reply : String}
    (same : r.core = c ∧ r.Proper o) : OnlyReplies o c (updateClientTable setup req reply) r := by
  refine .bind (.get same fun same => .bind (.require same fun _ same => ?_))
  refine .branch (fun _ => replies_change same rfl rfl) fun _ => ?_
  exact .branch (fun _ => replies_change same rfl rfl) fun _ => replies_change same rfl rfl

/-- The result is sent, or dropped if the client's address is not known. -/
theorem replyExecuted_replies {op : Nat} {entry : Entry} {reply : String}
    (same : r.core = c ∧ r.Proper o) :
    OnlyReplies o c (replyExecuted setup op entry reply) r := by
  refine .bind (.get same fun same => .branch (fun _ => ?_) fun _ => replies_pure same)
  split
  next addr client => exact replies_send same client
  next => exact replies_pure same

/-- A request is executed, and its result sent. -/
theorem executeNew_replies {op : Nat} {entry : Entry} (same : r.core = c ∧ r.Proper o) :
    OnlyReplies o c (executeNew setup app op entry) r := by
  refine .bind (.get same fun same => .bind (.emit same (.inr trivial) fun same => ?_))
  exact replies_bind (updateClientTable_replies same) fun _ _ same => replyExecuted_replies same

/-- A result that the table has is sent again. -/
theorem answerAgain_replies {op : Nat} {entry : Entry} {reply : String}
    (same : r.core = c ∧ r.Proper o) : OnlyReplies o c (answerAgain setup op entry reply) r :=
  .bind (.emit same (.inr trivial) fun same => replyExecuted_replies same)

/-- One operation more is executed: a NOOP is passed over. -/
theorem executeNext_replies (same : r.core = c ∧ r.Proper o) :
    OnlyReplies o c (executeNext setup app) r := by
  refine .bind (.get same fun same => .bind (.require same fun _ same => ?_))
  refine .bind (.demand same fun entry _ same => ?_)
  refine replies_bind (replies_change same rfl rfl) fun _ r' same => ?_
  refine .branch (fun _ => ?_) fun _ => replies_pure same
  split
  next => exact executeNew_replies same
  next =>
      refine .branch (fun _ => replies_pure same) fun _ => ?_
      exact .branch (fun _ => answerAgain_replies same) fun _ => executeNew_replies same

/-- Execution moves nothing but its own number. -/
theorem executeUptoOp_replies {opnum : Nat} (same : r.core = c ∧ r.Proper o) :
    OnlyReplies o c (executeUptoOp setup app opnum) r := by
  refine .bind (.get same fun same => .branch (fun _ => replies_pure same) fun _ => ?_)
  refine .bind (.require same fun _ same => ?_)
  refine (Logic.Meets.repeated (fun _ _ _ => True) ?_ same trivial).imp fun _ _ _ _ _ => trivial
  intro _ _ _ same _
  exact (executeNext_replies same).imp fun _ _ _ _ _ => trivial

/-- Replies are moves. -/
theorem idles_of_replies {handler : Run α} (replies : OnlyReplies o r.core handler r) :
    Idles o handler r := by
  obtain ⟨_, -, valid, ⟨core, proper⟩, -⟩ := replies
  have moves : ∀ outputs, (∀ output ∈ outputs, Replies r.core output) →
      Moves (Move o) r.core outputs r.core := by
    intro outputs
    induction outputs with
    | nil => exact fun _ => .refl
    | cons first rest inductionHypothesis =>
        intro valid
        have onward := inductionHypothesis fun output member =>
          valid output (List.mem_cons_of_mem _ member)
        rcases valid first List.mem_cons_self with ⟨clientid, addr, reply, client, rfl⟩ | executes
        · exact (Moves.single (.send (.reply client))).trans onward
        · exact (Moves.single (.execute executes)).trans onward
  exact ⟨r.core, moves _ valid, fun _ _ => ⟨core.symm, proper, core⟩⟩

/-- Execution up to an operation makes no move of its own. -/
theorem executeUptoOp_idles {opnum : Nat} (proper : r.Proper o) :
    Idles o (executeUptoOp setup app opnum) r :=
  idles_of_replies (executeUptoOp_replies ⟨rfl, proper⟩)

end Executing

/-! ## Commitment -/

/-- Nothing of the core changes but how far the replica has committed. -/
def Replica.CommitsMore (r r' : Replica) : Prop :=
  ∃ upTo, r'.core = { r.core with lastCommittedOp := upTo }

/-- What the leader has committed is told to all others. -/
theorem sendSyncCommit_idles (proper : r.Proper o) : Idles o (sendSyncCommit o.setup) r :=
  .get_bind (.require_bind fun _ => sendToAll_idles (by trivial) proper)

/-- The replica commits up to the operation, and executes. -/
theorem commitUptoOp_traces {opnum : Nat} (proper : r.Proper o) :
    Traces o (commitUptoOp o.setup app opnum) r fun _ r' => r.CommitsMore r' := by
  refine .get_bind (.branch (fun _ => .pure proper ⟨_, rfl⟩) fun later => ?_)
  refine .require_bind fun inside => .move_bind (.commit (Nat.not_le.mp later) inside) ?_
  have proper' : Replica.Proper o { r with lastCommittedOp := opnum } := proper.frame rfl
  refine .branch (fun _ => ?_) fun _ => ?_
  · refine .bind (sendSyncCommit_idles proper') fun _ r1 proper1 same => ?_
    refine (executeUptoOp_idles proper1).imp fun _ r2 _ same' => ⟨opnum, ?_⟩
    exact same'.trans same
  · exact (executeUptoOp_idles proper').imp fun _ r2 _ same => ⟨opnum, same⟩

/-- A follower replies to the leader, or commits if the `SyncCommit` has come first. -/
theorem processSyncPrepare_traces {syncpoint : Nat} (proper : r.Proper o) :
    Traces o (processSyncPrepare o.setup app syncpoint) r fun _ r' => r.CommitsMore r' := by
  refine .get_bind (.require_bind fun _ => .branch (fun _ => ?_) fun _ => ?_)
  · refine .bind (commitUptoOp_traces proper) fun _ r' proper' committed => ?_
    exact .quiet rfl (proper'.frame rfl) committed
  · exact (sendToReplica_idles (by trivial) proper).imp fun _ _ _ same => ⟨_, same⟩

/-! ## Entering a view -/

/-- The replica has entered a session and view, with the same log and gaps as before. -/
structure Replica.EntersAs (r : Replica) (sessnum view : Nat) (r' : Replica) : Prop where
  sessnum : r'.sessnum = sessnum
  view : r'.view = view
  status : r'.status = .normal
  lastOp : r'.lastOp = r.lastOp
  log : r'.log = r.log
  committedGaps : r'.committedGaps = r.committedGaps
  ended : r'.stateTransferOpEnd = 0

/-- The leader sets its sync point and sends the `StartView`. -/
theorem leadView_traces (proper : r.Proper o) (leader : o.setup.AmLeader r.view)
    (status : r.status = .normal) (ended : r.stateTransferOpEnd = 0) :
    Traces o (leadView o.setup app) r fun _ r' => r.EntersAs r.sessnum r.view r' := by
  refine .get_bind (.bind (executeUptoOp_idles proper) fun _ r1 proper1 same => ?_)
  refine .quiet_bind rfl (.get_bind (.require_bind fun _ => ?_))
  have status1 : r1.status = r.status := congrArg Core.status same
  have leader1 : o.setup.AmLeader r1.view := by
    have view1 : r1.view = r.view := congrArg Core.view same
    rwa [view1]
  have started : r1.status ≠ .viewChange := by
    rw [status1, status]
    decide
  refine .move_bind .setPoint (.get_bind (.require_bind fun _ => ?_))
  refine .emit_bind (.send (.startView leader1 (.inl started))) ?_
  refine .move (.awaitStartView leader1 (.inl started)) (proper1.frame rfl) ?_
  exact {
    sessnum := congrArg Core.sessnum same
    view := congrArg Core.view same
    status := status1.trans status
    lastOp := congrArg Core.lastOp same
    log := congrArg Core.log same
    committedGaps := congrArg Core.committedGaps same
    ended := (congrArg Core.stateTransferOpEnd same).trans ended }

/-- Another replica answers the `StartView`. -/
theorem followView_idles (proper : r.Proper o) : Idles o (followView o.setup) r := by
  refine .quiet_bind rfl (.get_bind (.require_bind fun _ => .require_bind fun _ => ?_))
  exact sendToReplica_idles (by trivial) (proper.frame rfl)

/-- A view is entered by one move, after which the leader or the follower does the rest. -/
theorem enterView_traces {sessnum view : Nat} {start : Core} {owed : List Output}
    (proper : r.Proper o) (prior : Moves (Move o) start owed r.core)
    (laterSession : r.sessnum ≤ sessnum) (laterView : r.view ≤ view)
    (moved : Move o r.core [.entered sessnum view r.log.entries]
      (r.core.entering sessnum view)) :
    (matching o).TracesFrom start owed (enterView o.setup app sessnum view) r fun _ r' =>
      r.EntersAs sessnum view r' := by
  refine .settle prior (.get_bind (.emit_bind ?_))
  refine .settle (.single (.call laterSession laterView)) (.require_bind .refl fun _ => ?_)
  refine .require_bind .refl fun _ => .emit_bind (.modify_bind (.settle (.single moved) ?_))
  have proper' : Replica.Proper o (r.entering sessnum view).clearTimeoutAndQuorums :=
    proper.cleared rfl
  refine .branch (fun leader => ?_) fun _ => ?_
  · refine (leadView_traces proper' leader rfl rfl).imp fun _ r' _ enters => ?_
    exact ⟨enters.sessnum, enters.view, enters.status, enters.lastOp, enters.log,
      enters.committedGaps, enters.ended⟩
  · refine (followView_idles proper').imp fun _ r' _ same => ?_
    exact ⟨congrArg Core.sessnum same, congrArg Core.view same, congrArg Core.status same,
      congrArg Core.lastOp same, congrArg Core.log same, congrArg Core.committedGaps same,
      congrArg Core.stateTransferOpEnd same⟩

/-! ## Operations -/

/-- The replica is in the same session and view with the same log and gaps. -/
structure Replica.SameOps (r r' : Replica) : Prop where
  sessnum : r'.sessnum = r.sessnum
  view : r'.view = r.view
  lastOp : r'.lastOp = r.lastOp
  log : r'.log = r.log
  committedGaps : r'.committedGaps = r.committedGaps

/-- A replica that is in a view change has been in it before, with the same messages. -/
def Replica.Waits (r r' : Replica) : Prop :=
  r'.status = .viewChange → r.status = .viewChange ∧ r'.viewChangeQuorum = r.viewChangeQuorum

/-- Waiting goes back through what is done one after the other. -/
theorem Replica.Waits.trans {r' r'' : Replica} (first : r.Waits r') (second : r'.Waits r'') :
    r.Waits r'' := by
  intro status
  obtain ⟨status', quorum'⟩ := second status
  obtain ⟨before, quorum⟩ := first status'
  exact ⟨before, quorum'.trans quorum⟩

/-- The transfer is complete: the replica enters the view that it was for, or commits. -/
theorem completeStateTransfer_traces (proper : r.Proper o) (pending : 0 < r.stateTransferOpEnd) :
    Traces o (completeStateTransfer o.setup app) r fun _ r' => r.SameOps r' ∧ r.Waits r' := by
  refine .get_bind ?_
  split
  next => exact .stop
  next callback =>
      refine (enterView_traces proper .refl le_rfl le_rfl (.finish callback pending)).imp ?_
      intro _ r' _ enters
      refine ⟨⟨enters.sessnum, enters.view, enters.lastOp, enters.log, enters.committedGaps⟩, ?_⟩
      intro status
      rw [enters.status] at status
      nomatch status
  next syncpoint callback =>
      refine (processSyncPrepare_traces proper).imp ?_
      rintro _ r' _ ⟨upTo, same⟩
      refine ⟨⟨congrArg Core.sessnum same, congrArg Core.view same, congrArg Core.lastOp same,
        congrArg Core.log same, congrArg Core.committedGaps same⟩, fun status => ⟨?_, ?_⟩⟩
      · exact (congrArg Core.status same).symm.trans status
      · exact congrArg Core.viewChangeQuorum same

/-- Timers are all that changes, and only one of them is a part of what the moves see. -/
theorem core_stopGapRequests (r : Replica) : r.stopGapRequests.core =
    { r.core with startGapRequestTimeout := false, gapRequestTimeout := false } := by
  unfold Replica.stopGapRequests
  by_cases waiting : r.gapRequestTimeout = true
  · rw [if_pos waiting]
    rfl
  · rw [if_neg waiting]
    have idle : r.gapRequestTimeout = false := by simpa using waiting
    simp [Replica.core, idle]

/-- A replica that stops asking is still proper. -/
theorem proper_stopGapRequests (proper : r.Proper o) : r.stopGapRequests.Proper o := by
  refine proper.frame ?_
  unfold Replica.stopGapRequests
  split <;> rfl

/-- An operation is executed or acknowledged. -/
theorem acknowledgeOperation_replies {c : Core} {request : Request} {vs : Viewstamp}
    {state : LogEntryState} (received : state ≠ .noop) (same : r.core = c ∧ r.Proper o) :
    OnlyReplies o c (acknowledgeOperation o.setup app request vs state) r := by
  refine .bind (.get same fun same => ?_)
  rw [if_neg received]
  refine .branch (fun _ => ?_) fun _ => replies_pure same
  refine .branch (fun _ => executeUptoOp_replies same) fun _ => ?_
  split
  next addr client => exact replies_send same client
  next => exact replies_pure same

/-- A call of `ProcessNextOperation` that comes to nothing. -/
theorem refuses {opnum : Nat} {outputs : List Output}
    (replies : ∀ output ∈ outputs, Replies r.core output) :
    Moves (Move o) r.core
      (.processing opnum r.stateTransferOpEnd r.committedGaps.elements :: outputs) r.core :=
  .single (.refuse replies)

/-- One operation has been put into the log, and as a gap if it was known for one. -/
structure Replica.Puts (r r' : Replica) : Prop where
  sessnum : r'.sessnum = r.sessnum
  view : r'.view = r.view
  lastOp : r'.lastOp = r.lastOp + 1
  whole : r'.core.Whole
  waiting : r.lastOp + 1 ∈ r.committedGaps → r'.committedGaps = r.committedGaps
  waits : r.Waits r'

/-- What is left of `ProcessNextOperation` when the operation has been put into the log, is one
move with all that has been put out so far. -/
theorem checkStateTransfer_traces {r1 : Replica} {request : Request} {vs : Viewstamp}
    {state decided : LogEntryState} {log : Log} {outputs : List Output} (proper : r1.Proper o)
    (next : vs.opnum = r.lastOp + 1) (decision : r.decidedState vs.opnum state = decided)
    (appended : r.log.append vs request decided = some log)
    (core : r1.core = r.core.appended vs log decided)
    (replies : ∀ output ∈ outputs, Replies r.core output) :
    (matching o).TracesFrom r.core
      (.processing vs.opnum r.stateTransferOpEnd r.committedGaps.elements :: outputs)
      (checkStateTransfer o.setup app vs.opnum) r1 fun _ r' => r.Puts r' := by
  have lastOp : r1.lastOp = vs.opnum := congrArg Core.lastOp core
  have log1 : r1.log = log := congrArg Core.log core
  have end_ : r1.stateTransferOpEnd = r.stateTransferOpEnd :=
    congrArg Core.stateTransferOpEnd core
  have length : log.entries.length = vs.opnum := by
    obtain ⟨atEnd, entries⟩ := Log.of_append appended
    rw [entries, List.length_append, List.length_singleton, atEnd]
  have gaps : r1.committedGaps = if decided = .noop then
      r.committedGaps.insert vs.opnum else r.committedGaps := congrArg Core.committedGaps core
  have puts : ∀ r', r1.SameOps r' → r1.Waits r' → r.Puts r' := by
    intro r' same waits
    constructor
    · exact same.sessnum.trans (congrArg Core.sessnum core)
    · exact same.view.trans (congrArg Core.view core)
    · rw [same.lastOp, lastOp, next]
    · change r'.log.entries.length = r'.lastOp
      rw [same.log, same.lastOp, log1, lastOp, length]
    · intro waiting
      rw [← next] at waiting
      have noop : decided = .noop := decision.symm.trans (if_pos waiting)
      rw [same.committedGaps, gaps, if_pos noop, OpnumSet.insert_of_mem waiting]
    · intro status
      obtain ⟨status1, quorum⟩ := waits status
      exact ⟨(congrArg Core.status core).symm.trans status1,
        quorum.trans (congrArg Core.viewChangeQuorum core)⟩
  refine .get_bind (.branch (fun last => ?_) fun inside => ?_)
  · -- The operation is the one that the state transfer is found complete with.
    refine .modify_bind (.emit_bind ?_)
    have ending : vs.opnum = r.core.stateTransferOpEnd := last.trans end_
    have core' : { r.core.appended vs log decided with stateTransferTimeout := false } =
        { r1 with stateTransferTimeout := false }.core := by
      rw [← core]
      rfl
    have moved : Move o r.core
        (.processing vs.opnum r.stateTransferOpEnd r.committedGaps.elements :: outputs ++
          [.transferEnded r1.stateTransferOpEnd r1.log.entries.length])
        { r1 with stateTransferTimeout := false }.core := by
      rw [← core', end_, log1, ← decision]
      exact .appendLast next (decision ▸ appended) replies ending
    refine .settle (.single moved) ?_
    have pending : 0 < r1.stateTransferOpEnd := by
      rw [← last, next]
      exact Nat.succ_pos _
    let stopped : Replica := { r1 with stateTransferTimeout := false }
    have done : Traces o (completeStateTransfer o.setup app) stopped fun _ r' =>
        stopped.SameOps r' ∧ stopped.Waits r' :=
      completeStateTransfer_traces (proper.frame rfl) pending
    refine done.imp fun _ r' _ ⟨same, waits⟩ => puts r' ?_ waits
    exact ⟨same.sessnum, same.view, same.lastOp, same.log, same.committedGaps⟩
  · have moved : Move o r.core
        (.processing vs.opnum r.stateTransferOpEnd r.committedGaps.elements :: outputs) r1.core := by
      rw [core, ← decision]
      exact .append next (decision ▸ appended) replies fun last => inside (last.trans end_.symm)
    exact .pure (.single moved) proper (puts r1 ⟨rfl, rfl, rfl, rfl, rfl⟩ fun status => ⟨status, rfl⟩)

/-- A gap is recorded when it gets into the log. -/
theorem acknowledgeOperation_noop {setup : Setup} {request : Request} {vs : Viewstamp} :
    acknowledgeOperation setup app request vs .noop =
      Handler.modify fun r => { r with committedGaps := r.committedGaps.insert r.lastOp } :=
  rfl

/-- Processing an operation is one move, with what follows from its state and from its number. -/
theorem processOperation_traces {request : Request} {vs : Viewstamp} {state : LogEntryState}
    (proper : r.Proper o) :
    Traces o (processOperation o.setup app request vs state) r fun _ r' => r.Puts r' := by
  refine Matching.TracesFrom.get_bind (.emit_bind ?_)
  refine .require_bind (refuses (by simp)) fun next => ?_
  refine .modify_bind (.demand_bind (refuses (by simp)) fun log appended => ?_)
  refine .modify_bind (.modify_bind ?_)
  let appendedTo : Replica :=
    { r with lastOp := vs.opnum, nextMsgnum := vs.msgnum + 1, log := log }
  change Matching.TracesFrom _ _ _ _ appendedTo.stopGapRequests _
  have stopped : appendedTo.stopGapRequests.core = { r.core with
      lastOp := vs.opnum
      nextMsgnum := vs.msgnum + 1
      log := log
      startGapRequestTimeout := false
      gapRequestTimeout := false } := core_stopGapRequests appendedTo
  have proper' : appendedTo.stopGapRequests.Proper o :=
    proper_stopGapRequests (proper.frame rfl)
  generalize appendedTo.stopGapRequests = r1 at stopped proper'
  generalize decision : r.decidedState vs.opnum state = decided at appended
  by_cases noop : decided = .noop
  · rw [noop] at appended decision ⊢
    rw [acknowledgeOperation_noop]
    refine .modify_bind (checkStateTransfer_traces (proper'.frame rfl) next decision appended ?_
      (by simp))
    have recorded : { r1 with committedGaps := r1.committedGaps.insert r1.lastOp }.core =
        { r1.core with committedGaps := r1.core.committedGaps.insert r1.core.lastOp } := rfl
    rw [recorded, stopped]
    rfl
  · have core : r1.core = r.core.appended vs log decided := by
      rw [stopped, Core.appended, if_neg noop]
    have acknowledged : OnlyReplies o (r.core.appended vs log decided)
        (acknowledgeOperation o.setup app request vs decided) r1 :=
      acknowledgeOperation_replies noop ⟨core, proper'⟩
    obtain ⟨_, -, valid, same, -⟩ := acknowledged
    refine .owe_bind (refuses valid) fun _ _ => ?_
    exact checkStateTransfer_traces same.2 next decision appended same.1 valid

/-! ## Gaps -/

/-- The replica is in the same session and view, has put every gap that follows into the log, and
has not torn it. -/
structure Replica.Proceeds (r r' : Replica) : Prop where
  sessnum : r'.sessnum = r.sessnum
  view : r'.view = r.view
  drained : r'.lastOp + 1 ∉ r'.committedGaps
  torn : r'.core.Torn → r.core.Torn ∧ r'.lastOp = r.lastOp ∧
    r'.stateTransferOpEnd = r.stateTransferOpEnd
  waits : r.Waits r'

theorem Replica.Proceeds.refl (drained : r.lastOp + 1 ∉ r.committedGaps) : r.Proceeds r :=
  ⟨rfl, rfl, drained, fun torn => ⟨torn, rfl, rfl⟩, fun status => ⟨status, rfl⟩⟩

/-- What proceeds twice has proceeded. -/
theorem Replica.Proceeds.trans {r' r'' : Replica} (first : r.Proceeds r')
    (second : r'.Proceeds r'') : r.Proceeds r'' where
  sessnum := second.sessnum.trans first.sessnum
  view := second.view.trans first.view
  drained := second.drained
  torn torn := by
    obtain ⟨torn', lastOp', end'⟩ := second.torn torn
    obtain ⟨torn, lastOp, end_⟩ := first.torn torn'
    exact ⟨torn, lastOp'.trans lastOp, end'.trans end_⟩
  waits := first.waits.trans second.waits

/-- A whole log is not torn. -/
theorem Core.Whole.not_torn {c : Core} (whole : c.Whole) : ¬ c.Torn := by
  unfold Core.Whole at whole
  unfold Core.Torn
  omega

/-- The gaps that follow are put into the log, each by a move. -/
theorem processGaps_traces {request : Request} {vs : Viewstamp} {rounds : Nat}
    (proper : r.Proper o) (whole : r.core.Whole) (enough : r.gapsBeyond ≤ rounds) :
    Traces o (processGaps o.setup app request vs rounds) r fun _ r' =>
      r.Proceeds r' ∧ r'.core.Whole := by
  induction rounds generalizing r with
  | zero =>
      refine .pure proper ⟨.refl fun waiting => ?_, whole⟩
      have := gapsBeyond_lt waiting
      unfold Replica.gapsBeyond at enough
      omega
  | succ rounds inductionHypothesis =>
      refine .get_bind (.branch (fun waiting => ?_) fun none_ => .pure proper ⟨.refl none_, whole⟩)
      refine .bind (processOperation_traces proper) fun _ r1 proper1 puts => ?_
      have enough1 : r1.gapsBeyond ≤ rounds := by
        have := gapsBeyond_lt waiting
        unfold Replica.gapsBeyond at enough ⊢
        rw [puts.waiting waiting, puts.lastOp]
        omega
      refine (inductionHypothesis proper1 puts.whole enough1).imp ?_
      rintro _ r2 _ ⟨proceeds, whole2⟩
      refine ⟨⟨?_, ?_, proceeds.drained, fun torn => absurd torn whole2.not_torn, ?_⟩, whole2⟩
      · exact proceeds.sessnum.trans puts.sessnum
      · exact proceeds.view.trans puts.view
      · exact puts.waits.trans proceeds.waits

/-- The operation and the gaps that follow it are appended, one move each. -/
theorem processNextOperation_traces {request : Request} {vs : Viewstamp} {state : LogEntryState}
    (proper : r.Proper o) :
    Traces o (processNextOperation o.setup app request vs state) r fun _ r' =>
      r.Proceeds r' := by
  refine .bind (processOperation_traces proper) fun _ r1 proper1 puts => .get_bind ?_
  refine (processGaps_traces proper1 puts.whole List.countP_le_length).imp ?_
  rintro _ r2 _ ⟨proceeds, whole⟩
  refine ⟨?_, ?_, proceeds.drained, fun torn => absurd torn whole.not_torn, ?_⟩
  · exact proceeds.sessnum.trans puts.sessnum
  · exact proceeds.view.trans puts.view
  · exact puts.waits.trans proceeds.waits

/-- An entry may become a NOOP. -/
theorem overwriteGap_traces {gap : Nat} (proper : r.Proper o)
    (drained : r.lastOp + 1 ∉ r.committedGaps) :
    Traces o (overwriteGap gap) r fun _ r' => r.Proceeds r' := by
  have same : r.Proceeds r := .refl drained
  refine .get_bind (.branch (fun _ => ?_) fun _ => .pure proper same)
  refine .demand_bind fun entry _ => .branch (fun _ => .pure proper same) fun _ => ?_
  refine .require_bind fun _ => .require_bind fun _ => .move .strike (proper.frame rfl) ?_
  refine ⟨rfl, rfl, drained, fun torn => ⟨?_, rfl, rfl⟩, fun status => ⟨status, rfl⟩⟩
  unfold Core.Torn at torn ⊢
  rwa [show (Replica.core _).log = r.log.setStatus gap .noop from rfl, Log.length_setStatus] at torn

/-- A gap that is the next operation is put into the log. -/
theorem advanceGap_traces {gap : Nat} (proper : r.Proper o)
    (only : r.lastOp + 1 ∈ r.committedGaps → r.lastOp + 1 = gap) :
    Traces o (advanceGap o.setup app gap) r fun _ r' => r.Proceeds r' := by
  refine .get_bind (.branch (fun _ => processNextOperation_traces proper) fun stays => ?_)
  exact .pure proper (.refl fun waiting => stays (only waiting))

/-- A gap beyond the log is learnt, one inside it struck out, and one that is next appended. -/
theorem installGap_traces {gap : Nat} (proper : r.Proper o)
    (drained : r.lastOp + 1 ∉ r.committedGaps) :
    Traces o (installGap o.setup app gap) r fun _ r' => r.Proceeds r' := by
  refine .get_bind (.branch (fun _ => .pure proper (.refl drained)) fun _ => ?_)
  let learnt : Replica := { r with committedGaps := r.committedGaps.insert gap }
  have only : learnt.lastOp + 1 ∈ learnt.committedGaps → learnt.lastOp + 1 = gap :=
    fun waiting => (OpnumSet.mem_insert.mp waiting).resolve_right drained
  have learn : Move o r.core [] learnt.core := .learn
  refine .move_bind learn (.bind (advanceGap_traces (r := learnt) (proper.frame rfl) only) ?_)
  intro _ r1 proper1 proceeds
  refine (overwriteGap_traces proper1 proceeds.drained).imp fun _ r2 _ after => ?_
  have both := proceeds.trans after
  exact ⟨both.sessnum, both.view, both.drained, both.torn, both.waits⟩

/-- The gaps are entered one after the other, and none is left waiting. -/
theorem installCommittedGaps_traces {gaps : List Nat} (proper : r.Proper o)
    (drained : r.lastOp + 1 ∉ r.committedGaps) :
    Traces o (installCommittedGaps o.setup app gaps) r fun _ r' => r.Proceeds r' := by
  refine .forEach (fun r' => r.Proceeds r') ?_ proper (.refl drained)
  intro gap _ r' proper' proceeds
  exact (installGap_traces proper' proceeds.drained).imp fun _ _ _ after => proceeds.trans after

end PaxosBus.NoPaxos

import PaxosBus.NoPaxos.Rewinding
import PaxosBus.NoPaxos.Tracing

/-!
# Tracing whole steps

Every handler, from the dispatch of any message or timeout on, is a sequence of
moves. What a replica relies on is what it has checked, what has reached it, and
what the moves have left behind.
-/

set_option autoImplicit false

namespace PaxosBus.NoPaxos

open PaxosBus.Common PaxosBus.Library

/-- Between handlers no gap is waiting to be the next entry, and a replica with a torn log is not
about to reach the end of a state transfer. -/
structure Core.Rests (c : Core) : Prop where
  drained : c.lastOp + 1 ∉ c.committedGaps
  ahead : c.Torn → c.stateTransferOpEnd = 0 ∨ c.lastOp + 1 < c.stateTransferOpEnd

/-- The handler runs from one such state to another. -/
abbrev Runs {α : Type} (o : Occasion) (handler : Run α) (r : Replica) : Prop :=
  Traces o handler r fun _ r' => r'.core.Rests

variable {o : Occasion} {app : App} {r : Replica}

/-- What proceeds from a state between handlers ends in one. -/
theorem Replica.Proceeds.rests {r' : Replica} (proceeds : r.Proceeds r') (rests : r.core.Rests) :
    r'.core.Rests where
  drained := proceeds.drained
  ahead torn := by
    obtain ⟨torn, lastOp, end_⟩ := proceeds.torn torn
    change r'.stateTransferOpEnd = 0 ∨ r'.lastOp + 1 < r'.stateTransferOpEnd
    rw [lastOp, end_]
    exact rests.ahead torn

/-- A core with the same log, gaps and transfer rests as well. -/
theorem Core.Rests.frame {c c' : Core} (rests : c.Rests) (lastOp : c'.lastOp = c.lastOp)
    (log : c'.log = c.log) (committedGaps : c'.committedGaps = c.committedGaps)
    (end_ : c'.stateTransferOpEnd = c.stateTransferOpEnd) : c'.Rests where
  drained := by
    rw [lastOp, committedGaps]
    exact rests.drained
  ahead torn := by
    unfold Core.Torn at torn
    rw [log, lastOp] at torn
    rw [lastOp, end_]
    exact rests.ahead torn

section Parts

variable {α β : Type}

/-- A part of a handler that makes no move. -/
theorem runs_of_idles {handler : Run α} (idles : Idles o handler r) (rests : r.core.Rests) :
    Runs o handler r :=
  idles.imp fun _ _ _ (same : _ = _) => same ▸ rests

/-- A part of a handler that appends to the log and proceeds. -/
theorem runs_of_proceeds {handler : Run α}
    (traces : Traces o handler r fun _ r' => r.Proceeds r') (rests : r.core.Rests) :
    Runs o handler r :=
  traces.imp fun _ _ _ proceeds => proceeds.rests rests

/-- A part of a handler that only commits and executes. -/
theorem runs_of_commits {handler : Run α}
    (traces : Traces o handler r fun _ r' => r.CommitsMore r') (rests : r.core.Rests) :
    Runs o handler r := by
  refine traces.imp ?_
  rintro _ r' _ ⟨upTo, same⟩
  rw [same]
  exact rests.frame rfl rfl rfl rfl

/-- A part of a handler followed by the rest, which may rely on the state that the part ends in. -/
theorem runs_bind {first : Run β} {next : β → Run α} (before : Runs o first r)
    (after : ∀ value r', r'.Proper o → r'.core.Rests → Runs o (next value) r') :
    Runs o (first >>= next) r :=
  .bind before after

end Parts

/-! ## View changes -/

/-- A vote goes to the leader of the view that the replica has moved to, with the log as it is. -/
theorem sendViewChange_idles (proper : r.Proper o) : Idles o (sendViewChange o.setup) r := by
  refine .get_bind (idles_bind (sendToAll_idles (by trivial) proper) fun _ r1 proper1 same => ?_)
  refine .branch (fun _ => idles_change rfl rfl proper1) fun follower => ?_
  have follower1 : ¬ o.setup.AmLeader r1.core.view := by
    rw [same]
    exact follower
  have sends := Sends.viewChange (o := o) follower1
  rw [same] at sends
  refine idles_bind (idles_send (same ▸ sends) proper1) fun _ r2 proper2 _ => ?_
  exact idles_change rfl rfl proper2

/-- A view change gives up a state transfer, and forgets the gaps beyond the log. -/
theorem rests_changing (c : Core) (newsessnum newview : Nat) :
    (c.changing newsessnum newview).Rests where
  drained member := by
    have beyond := (OpnumSet.mem_upTo.mp member).2
    change c.lastOp + 1 ≤ c.lastOp at beyond
    omega
  ahead _ := .inl rfl

/-- The move to a newer view needs nothing of the state before: it gives up all that is waited for.
-/
theorem startViewChange_runs {newsessnum newview : Nat} (proper : r.Proper o) :
    Runs o (startViewChange o.setup newsessnum newview) r := by
  refine .get_bind (.require_bind fun raised => .move_bind (.change raised) ?_)
  refine runs_of_idles (sendViewChange_idles (proper.cleared rfl)) ?_
  exact rests_changing r.core _ _

/-- A handler that first finds out whether a message is of the current view. -/
theorem runs_check {sessnum view : Nat} {handler : Run Unit} (proper : r.Proper o)
    (rests : r.core.Rests)
    (current : ¬ (sessnum < r.sessnum ∨ view < r.view) → ¬ (r.sessnum < sessnum ∨ r.view < view) →
      r.status ≠ .viewChange → Runs o handler r) :
    Runs o (do
      let current ← checkViewNumAndStatus o.setup sessnum view
      if current then handler else pure ()) r := by
  have checked : Traces o (checkViewNumAndStatus o.setup sessnum view) r fun value r' =>
      r'.core.Rests ∧ (value = true → r' = r ∧ ¬ (sessnum < r.sessnum ∨ view < r.view) ∧
        ¬ (r.sessnum < sessnum ∨ r.view < view) ∧ r.status ≠ .viewChange) := by
    refine .get_bind (.branch (fun _ => .pure proper ⟨rests, by simp⟩) fun old => ?_)
    refine .branch (fun _ => ?_) fun new => ?_
    · refine .bind (startViewChange_runs proper) fun _ r1 proper1 rests1 => ?_
      exact .pure proper1 ⟨rests1, by simp⟩
    · refine .branch (fun _ => .pure proper ⟨rests, by simp⟩) fun status => ?_
      exact .pure proper ⟨rests, fun _ => ⟨rfl, old, new, status⟩⟩
  refine .bind checked fun value r1 proper1 ⟨rests1, same⟩ => ?_
  refine .branch (fun holds => ?_) fun _ => .pure proper1 rests1
  obtain ⟨rfl, old, new, status⟩ := same holds
  exact current old new status

/-! ## Client requests -/

/-- A request that is next is one operation more; one that is late starts a gap request. -/
theorem tryProcessClientRequest_runs {msg : RequestMessage} (proper : r.Proper o)
    (rests : r.core.Rests) : Runs o (tryProcessClientRequest o.setup app msg) r := by
  refine .get_bind (.branch (fun _ => .pure proper rests) fun normal => ?_)
  refine .branch (fun _ => .pure proper rests) fun _ => .branch (fun _ => ?_) fun _ => ?_
  · exact runs_bind (startViewChange_runs proper) fun _ _ proper rests => .pure proper rests
  refine .branch (fun _ => .pure proper rests) fun _ => .branch (fun _ => ?_) fun _ => ?_
  · refine .branch (fun _ => .pure proper rests) fun _ => ?_
    have started : r.core.status ≠ .viewChange := by
      change r.status ≠ .viewChange
      rw [not_not.mp normal]
      decide
    refine .move_bind (.awaitRequest started) (.pure (proper.frame rfl) ?_)
    exact rests.frame rfl rfl rfl rfl
  · refine .bind (processNextOperation_traces proper) fun _ r1 proper1 proceeds => ?_
    exact .pure proper1 (proceeds.rests rests)

/-- Every round takes a request, and the rounds before it leave a state between handlers. -/
theorem processPending_runs {rounds : Nat} (proper : r.Proper o) (rests : r.core.Rests) :
    Runs o (processPending o.setup app rounds) r := by
  induction rounds generalizing r with
  | zero => exact .pure proper rests
  | succ rounds inductionHypothesis =>
      refine .get_bind ?_
      split
      next => exact .pure proper rests
      next msg _ =>
          refine runs_bind (tryProcessClientRequest_runs proper rests) fun value r1 proper1 rests1 => ?_
          refine .branch (fun _ => .quiet_bind rfl ?_) fun _ => .pure proper1 rests1
          exact inductionHypothesis (proper1.frame rfl) rests1

/-- The requests that have waited are processed like new ones. -/
theorem processPendingRequests_runs (proper : r.Proper o) (rests : r.core.Rests) :
    Runs o (processPendingRequests o.setup app) r :=
  .get_bind (.branch (fun _ => .pure proper rests) fun _ => processPending_runs proper rests)

/-- A request that has to wait changes neither what execution sees nor the votes. -/
theorem core_addPendingRequest (r : Replica) (msg : RequestMessage) :
    (r.addPendingRequest msg).core = r.core ∧
      (r.addPendingRequest msg).viewChangeQuorum = r.viewChangeQuorum := by
  unfold Replica.addPendingRequest
  split <;> exact ⟨rfl, rfl⟩

/-- The address of the client is no part of what the moves are about. -/
theorem handleClientRequest_runs {remote : Address} {msg : RequestMessage} (proper : r.Proper o)
    (rests : r.core.Rests) (known : o.known remote (.request msg)) :
    Runs o (handleClientRequest o.setup app remote msg) r := by
  refine .move_bind (.locate known) (.require_bind fun _ => ?_)
  refine runs_bind (tryProcessClientRequest_runs (proper.frame rfl)
    (rests.frame rfl rfl rfl rfl)) fun _ r1 proper1 rests1 => ?_
  refine .branch (fun _ => .pure proper1 rests1) fun _ => ?_
  obtain ⟨core, quorum⟩ := core_addPendingRequest r1 msg
  exact .quiet core (proper1.frame quorum) (core ▸ rests1)

/-- An unlogged request is executed and answered, and nothing is kept. -/
theorem handleUnloggedRequest_runs {remote : Address} {msg : UnloggedRequestMessage}
    (proper : r.Proper o) (rests : r.core.Rests) (known : o.known remote (.unloggedRequest msg)) :
    Runs o (handleUnloggedRequest app remote msg) r :=
  runs_of_idles (idles_send (.unloggedReply known) proper) rests

/-! ## Gap agreement -/

/-- The message goes to all others and says nothing of the log. -/
theorem sendGapCommit_idles (proper : r.Proper o) : Idles o (sendGapCommit o.setup) r := by
  refine .get_bind (.require_bind fun _ => .require_bind fun _ => ?_)
  refine idles_bind (sendToAll_idles (by trivial) proper) fun _ r1 proper1 _ => ?_
  exact idles_change rfl rfl proper1

/-- The leader appends the NOOP itself, so it is the next operation of its log. -/
theorem startGapAgreement_runs (proper : r.Proper o) (rests : r.core.Rests)
    (status : r.status ≠ .viewChange ∨ r.gapRequestTimeout = true) :
    Runs o (startGapAgreement o.setup app) r := by
  refine .get_bind (.require_bind fun _ => .move_bind (.agree status) ?_)
  refine runs_bind (runs_of_proceeds (processNextOperation_traces (proper.frame rfl))
    (rests.frame rfl rfl rfl rfl)) fun _ r1 proper1 rests1 => ?_
  exact runs_of_idles (sendGapCommit_idles proper1) rests1

/-- An answer moves nothing, whether it has the entry or not. -/
theorem handleGapRequest_runs {remote : Address} {msg : GapRequestMessage} (proper : r.Proper o)
    (rests : r.core.Rests) : Runs o (handleGapRequest o.setup remote msg) r := by
  refine runs_check proper rests fun _ _ _ => runs_of_idles ?_ rests
  refine .get_bind (.demand_bind fun reply _ => ?_)
  exact .branch (fun _ => sendMessage_idles (by trivial) proper) fun _ => idles_pure proper

/-- The entry that was missing is the next operation, or the leader starts to agree on a gap. -/
theorem handleGapReply_runs {msg : GapReplyMessage} (proper : r.Proper o) (rests : r.core.Rests) :
    Runs o (handleGapReply o.setup app msg) r := by
  refine runs_check proper rests fun _ _ status => .get_bind ?_
  refine .branch (fun _ => .pure proper rests) fun _ => ?_
  refine .branch (fun _ => .require proper fun _ => rests) fun _ => ?_
  refine .branch (fun _ => ?_) fun _ => ?_
  · exact runs_of_proceeds (processNextOperation_traces proper) rests
  refine .branch (fun _ => .quiet_bind rfl ?_) fun _ => .pure proper rests
  split
  next => exact .pure (proper.frame rfl) rests
  next => exact startGapAgreement_runs (proper.frame rfl) rests (.inl status)

/-- A gap inside the log is struck out; one that is next is appended. -/
theorem commitGap_runs {msg : GapCommitMessage} (proper : r.Proper o) (rests : r.core.Rests) :
    Runs o (commitGap o.setup app msg) r := by
  refine .get_bind (.branch (fun inside => ?_) fun _ => .require_bind fun _ => ?_)
  · have learn : Move o r.core [] { r.core with
        committedGaps := r.core.committedGaps.insert msg.opnum } := .learn
    have both := (Moves.single learn).trans (.single (@Move.strike o _ msg.opnum))
    refine Matching.TracesFrom.modify both (proper.frame rfl) ?_
    constructor
    · intro waiting
      rcases OpnumSet.mem_insert.mp waiting with isGap | old
      · change r.lastOp + 1 = msg.opnum at isGap
        omega
      · exact rests.drained old
    · intro torn
      apply rests.ahead
      unfold Core.Torn at torn ⊢
      rwa [show (Replica.core _).log = r.log.setStatus msg.opnum .noop from rfl,
        Log.length_setStatus] at torn
  · exact runs_of_proceeds (processNextOperation_traces proper) rests

/-- A gap beyond the log is only learnt. -/
theorem handleGapCommit_runs {remote : Address} {msg : GapCommitMessage} (proper : r.Proper o)
    (rests : r.core.Rests) : Runs o (handleGapCommit o.setup app remote msg) r := by
  refine runs_check proper rests fun _ _ _ => .get_bind (.require_bind fun _ => ?_)
  refine .branch (fun beyond => ?_) fun _ => ?_
  · refine .move .learn (proper.frame rfl) ⟨fun waiting => ?_, rests.ahead⟩
    rcases OpnumSet.mem_insert.mp waiting with isGap | old
    · change r.lastOp + 1 = msg.opnum at isGap
      omega
    · exact rests.drained old
  · refine runs_bind (commitGap_runs proper rests) fun _ r1 proper1 rests1 => ?_
    refine .get_bind (runs_of_idles ?_ rests1)
    exact sendMessage_idles (by trivial) proper1

/-- Counting a reply is no move. With a quorum the leader is back to normal. -/
theorem handleGapCommitReply_runs {msg : GapCommitReplyMessage} (proper : r.Proper o)
    (rests : r.core.Rests) : Runs o (handleGapCommitReply o.setup msg) r := by
  refine runs_check proper rests fun _ _ _ => .get_bind ?_
  refine .branch (fun _ => .pure proper rests) fun agreeing => ?_
  refine .branch (fun _ => .quiet_bind rfl ?_) fun _ => .pure proper rests
  split
  next => exact .pure (proper.frame rfl) rests
  next =>
      have status : r.core.status = .gapCommit := not_not.mp (not_or.mp agreeing).1
      refine Matching.TracesFrom.emit_bind (.modify ?_ (proper.frame rfl) ?_)
      · exact Moves.single (.agreed status)
      · exact rests.frame rfl rfl rfl rfl

/-! ## State transfer -/

/-- What is sent are entries of the log, under their numbers. -/
theorem handleStateTransferRequest_runs {remote : Address} {msg : StateTransferRequestMessage}
    (proper : r.Proper o) (rests : r.core.Rests)
    (known : o.known remote (.stateTransferRequest msg)) :
    Runs o (handleStateTransferRequest remote msg) r := by
  refine runs_of_idles (.get_bind (.branch (fun _ => idles_pure proper) fun current => ?_)) rests
  refine .branch (fun _ => idles_pure proper) fun inside => .demand_bind fun entries dumped => ?_
  have sessnum := not_not.mp (not_or.mp current).1
  have view := not_not.mp (not_or.mp current).2
  obtain ⟨begins, ends⟩ := not_or.mp inside
  refine idles_send (.stateTransferReply known sessnum view ?_ dumped) proper
  exact ⟨Nat.not_lt.mp begins, Nat.not_lt.mp ends⟩

/-- Each entry is the next operation, and the last of them may complete the transfer. -/
theorem handleStateTransferReply_runs {msg : StateTransferReplyMessage} (proper : r.Proper o)
    (rests : r.core.Rests) : Runs o (handleStateTransferReply o.setup app msg) r := by
  refine .get_bind (.branch (fun _ => .pure proper rests) fun _ => ?_)
  refine .branch (fun _ => .pure proper rests) fun _ => ?_
  refine .demand_bind fun first _ => .demand_bind fun last _ => .require_bind fun _ => ?_
  refine .require_bind fun _ => .require_bind fun _ => ?_
  refine .forEach (fun r' : Replica => r'.core.Rests) ?_ proper rests
  intro entry _ r1 proper1 rests1
  refine .get_bind (.require_bind fun _ => ?_)
  exact runs_of_proceeds (processNextOperation_traces proper1) rests1

/-- A replica asks only while it waits for a transfer. -/
theorem sendStateTransferRequest_idles (proper : r.Proper o)
    (waiting : r.stateTransferTimeout = true) : Idles o sendStateTransferRequest r := by
  refine .get_bind (idles_bind (idles_send (.stateTransferRequest waiting) proper) ?_)
  intro _ r1 proper1 same
  refine idles_change ?_ rfl proper1
  have waiting1 : r1.stateTransferTimeout = true :=
    (congrArg Core.stateTransferTimeout same).trans waiting
  simp [Replica.core, waiting1]

/-! ## View change messages -/

/-- A newer view starts a view change. -/
theorem handleViewChangeRequest_runs {msg : ViewChangeRequestMessage} (proper : r.Proper o)
    (rests : r.core.Rests) : Runs o (handleViewChangeRequest o.setup msg) r :=
  .get_bind (.branch (fun _ => startViewChange_runs proper) fun _ => .pure proper rests)

/-- A rewound log is torn. -/
theorem rewindLogToOpnum_traces {opnum : Nat} (proper : r.Proper o)
    (below : opnum < r.leaderLastSyncPreparePoint → o.undercut) :
    Traces o (rewindLogToOpnum opnum) r fun _ r' => (∃ log, r' =
      { r with lastOp := opnum, log := log, nextMsgnum := log.lastViewstamp.msgnum + 1 }) ∧
        r'.core.Torn := by
  refine .get_bind (.require_bind fun _ => .require_bind fun _ => ?_)
  refine Matching.TracesFrom.modify_bind (.demand_bind .refl fun log removed => ?_)
  refine .modify (.single (.rewind removed below)) (proper.frame rfl) ⟨⟨log, rfl⟩, ?_⟩
  exact Log.length_removeAfter removed

/-- The messages of a quorum are those of a quorum for as long as the replica stays in its session
and view. -/
theorem Elected.frame {c c' : Core} {msgs : List ViewChangeMessage} (elected : Elected o c msgs)
    (sessnum : c'.sessnum = c.sessnum) (view : c'.view = c.view) : Elected o c' msgs where
  leader := by
    rw [view]
    exact elected.leader
  quorum := elected.quorum
  known := elected.known
  current := by
    unfold Core.pair
    rw [sessnum, view]
    exact elected.current

/-- Merging one vote learns its gaps, and those inside the log are struck out. -/
theorem mergeLogs_traces {latest : Latest} {latestOp : Nat} {latestOpReplicaIdx : Option Nat}
    {msgs : List ViewChangeMessage} (proper : r.Proper o)
    (drained : r.lastOp + 1 ∉ r.committedGaps) :
    Traces o (mergeLogs o.setup app latest latestOp latestOpReplicaIdx msgs) r fun _ r' =>
      r.Proceeds r' := by
  induction msgs generalizing r latestOp latestOpReplicaIdx with
  | nil => exact .pure proper (.refl drained)
  | cons msg rest inductionHypothesis =>
      refine .require_bind fun _ => .require_bind fun _ => ?_
      refine .branch (fun _ => ?_) fun _ => inductionHypothesis proper drained
      refine .bind (installCommittedGaps_traces proper drained) fun _ r1 proper1 proceeds => ?_
      refine .get_bind (.require_bind fun _ => .branch (fun _ => ?_) fun _ => ?_)
      · exact (inductionHypothesis proper1 proceeds.drained).imp fun _ _ _ after =>
          proceeds.trans after
      · exact (inductionHypothesis proper1 proceeds.drained).imp fun _ _ _ after =>
          proceeds.trans after

/-- A replica that has just entered a view, or just started to wait for operations, rests. -/
theorem Replica.EntersAs.rests {r' : Replica} {sessnum view : Nat}
    (enters : r.EntersAs sessnum view r') (drained : r.lastOp + 1 ∉ r.committedGaps) :
    r'.core.Rests where
  drained := by
    change r'.lastOp + 1 ∉ r'.committedGaps
    rw [enters.lastOp, enters.committedGaps]
    exact drained
  ahead _ := .inl enters.ended

/-- A leader that lacks a part of the merged log asks for it, or else it enters the view. -/
theorem completeMerge_runs {latest : Latest} {latestOp : Nat} {latestOpReplicaIdx : Option Nat}
    {msgs : List ViewChangeMessage} (proper : r.Proper o) (elected : Elected o r.core msgs)
    (complete : r.status = .viewChange → r.core.Complete)
    (drained : r.lastOp + 1 ∉ r.committedGaps) :
    Runs o (completeMerge o.setup app latest latestOp latestOpReplicaIdx) r := by
  refine .get_bind (.require_bind fun inside => ?_)
  have bounded : ∀ gap ∈ r.committedGaps, gap ≤ latestOp := by
    intro gap member
    obtain ⟨lastGap, last⟩ := OpnumSet.exists_last member
    exact (OpnumSet.le_last member last).trans (inside lastGap last)
  let concluded : Replica :=
    { r with
      startViewLastNormalSessnum := latest.sessnum
      startViewLastNormalView := latest.view
      startViewLastOp := latestOp
      startViewCommittedGaps := r.committedGaps }
  have elected' : Elected o concluded.core msgs := elected.frame rfl rfl
  have conclude : Move o r.core [] (r.core.starting (latest.sessnum, latest.view) latestOp) :=
    .conclude bounded
  refine .move_bind conclude ?_
  split
  next replicaIdx =>
      refine .require_bind fun behind => Matching.TracesFrom.modify_bind (.emit_bind ?_)
      refine Matching.TracesFrom.get_bind (.emit_bind (.modify ?_ (proper.frame rfl) ?_))
      · exact Moves.single (.mergeTransfer elected' behind rfl complete)
      · exact ⟨drained, fun _ => .inr (Nat.succ_lt_succ behind)⟩
  next =>
      refine .require_bind fun _ => ?_
      have entered : Traces o (enterView o.setup app r.sessnum r.view) concluded fun _ r' =>
          concluded.EntersAs r.sessnum r.view r' :=
        enterView_traces (proper.frame rfl) .refl le_rfl le_rfl (.mergeEnter elected')
      exact entered.imp fun _ r' _ enters => enters.rests drained

/-- The leader that has a quorum of votes enters the view, or waits for a transfer first. A
rewinding below what was agreed on would show in `undercut`. -/
theorem mergeQuorum_runs {msgs : List ViewChangeMessage} (proper : r.Proper o)
    (elected : Elected o r.core msgs) (complete : r.core.Complete) (rests : r.core.Rests)
    (below : r.Lags (r.latest msgs).sessnum (r.latest msgs).view →
      r.lastCommittedOp < r.leaderLastSyncPreparePoint → o.undercut) :
    Runs o (mergeQuorum o.setup app msgs) r := by
  have complete_of : ∀ r' : Replica, r'.viewChangeQuorum = r.viewChangeQuorum →
      r'.sessnum = r.sessnum → r'.view = r.view → r'.core.Complete := by
    intro r' quorum sessnum view
    change (r'.viewChangeQuorum.checkForQuorum (r'.sessnum, r'.view)).isSome
    rw [quorum, sessnum, view]
    exact complete
  refine .get_bind (.emit_bind (.merge elected rfl) (.branch (fun lags => ?_) fun _ => ?_))
  · refine .bind (rewindLogToOpnum_traces proper (below lags)) ?_
    rintro _ r1 proper1 ⟨⟨log, same⟩, torn⟩
    have sessnum : r1.sessnum = r.sessnum := same ▸ rfl
    have view : r1.view = r.view := same ▸ rfl
    have quorum : r1.viewChangeQuorum = r.viewChangeQuorum := same ▸ rfl
    refine .move_bind (.forget (.inr torn)) ?_
    refine .bind (mergeLogs_traces (proper1.frame rfl) OpnumSet.not_mem_empty) ?_
    intro _ r2 proper2 proceeds
    have sessnum2 : r2.sessnum = r.sessnum := proceeds.sessnum.trans sessnum
    have view2 : r2.view = r.view := proceeds.view.trans view
    refine completeMerge_runs proper2 (elected.frame sessnum2 view2) ?_ proceeds.drained
    intro status
    exact complete_of r2 ((proceeds.waits status).2.trans quorum) sessnum2 view2
  · refine .bind (mergeLogs_traces proper rests.drained) fun _ r1 proper1 proceeds => ?_
    refine completeMerge_runs proper1 (elected.frame proceeds.sessnum proceeds.view) ?_
      proceeds.drained
    intro status
    exact complete_of r1 (proceeds.waits status).2 proceeds.sessnum proceeds.view

/-- The messages of a complete quorum elect the leader. -/
theorem Replica.Proper.elected {sessnum view replicaIdx : Nat} {msg : ViewChangeMessage}
    {msgs : Std.TreeMap Nat ViewChangeMessage} (proper : r.Proper o)
    (quorum : (r.viewChangeQuorum.addAndCheckForQuorum (sessnum, view) replicaIdx msg).2 =
      some msgs) (known : o.Known (.viewChange msg)) (pair : (sessnum, view) = (msg.sessnum, msg.view))
    (sender : replicaIdx = msg.replicaIdx) (leader : o.setup.AmLeader view) {c : Core}
    (current : c.pair = (sessnum, view)) : Elected o c msgs.values := by
  have all : (r.viewChangeQuorum.add (sessnum, view) replicaIdx msg).All _ :=
    proper.known.add ⟨known, pair, sender⟩
  unfold QuorumSet.addAndCheckForQuorum QuorumSet.checkForQuorum at quorum
  dsimp only at quorum
  split at quorum
  next large =>
      obtain rfl := Option.some.inj quorum
      refine ⟨?_, ?_, ?_, ?_⟩
      · rwa [show c.view = view from congrArg Prod.snd current]
      · rw [← proper.required]
        refine large.trans ?_
        rw [← card_senders]
        refine Finset.card_le_card fun idx inSenders => ?_
        obtain ⟨vote, found⟩ := mem_senders.mp inSenders
        rw [(all _ idx vote found).2.2, List.mem_toFinset]
        exact List.mem_map_of_mem (mem_values.mpr ⟨idx, found⟩)
      · intro vote member
        obtain ⟨idx, found⟩ := mem_values.mp member
        exact (all _ idx vote found).1
      · intro vote member
        obtain ⟨idx, found⟩ := mem_values.mp member
        exact (all _ idx vote found).2.1.symm.trans current.symm
  next => simp at quorum

/-- The vote is added to those that have come, and a quorum of them elects the leader. -/
theorem joinedViewChange_runs {remote : Address} {msg : ViewChangeMessage} (proper : r.Proper o)
    (rests : r.core.Rests) (known : o.Known (.viewChange msg))
    (below : r.status = .viewChange → o.setup.AmLeader r.view →
      ¬ (msg.sessnum < r.sessnum ∨ msg.view < r.view) → ∀ msgs,
        (r.viewChangeQuorum.addAndCheckForQuorum (msg.sessnum, msg.view) msg.replicaIdx msg).2 =
          some msgs → r.Lags (r.latest msgs.values).sessnum (r.latest msgs.values).view →
        r.lastCommittedOp < r.leaderLastSyncPreparePoint → o.undercut) :
    Runs o (joinedViewChange o.setup app remote msg) r := by
  refine .get_bind (.branch (fun _ => .pure proper rests) fun notOlder => ?_)
  refine .require_bind fun current => .require_bind fun leader => .branch (fun status => ?_)
    fun changing => ?_
  · exact runs_of_idles (idles_send (.startView leader (.inl status)) proper) rests
  have added : Replica.Proper o { r with viewChangeQuorum :=
      (r.viewChangeQuorum.addAndCheckForQuorum (msg.sessnum, msg.view) msg.replicaIdx msg).1 } :=
    ⟨QuorumSet.All.add proper.known ⟨known, rfl, rfl⟩, proper.required⟩
  refine .move_bind .vote ?_
  split
  next => exact .pure added (rests.frame rfl rfl rfl rfl)
  next msgs quorum =>
      obtain ⟨sessnum, view⟩ := current
      have elected := proper.elected quorum known rfl rfl (view ▸ leader) (c := r.core)
        (by rw [sessnum, view]; rfl)
      refine mergeQuorum_runs added (elected.frame rfl rfl) ?_ (rests.frame rfl rfl rfl rfl)
        (below (not_not.mp changing) leader notOlder msgs quorum)
      change (QuorumSet.checkForQuorum _ (r.sessnum, r.view)).isSome
      rw [← sessnum, ← view]
      exact Option.isSome_of_eq_some quorum

/-- What the vote says is counted in the view that it is for. -/
theorem handleViewChange_runs {remote : Address} {msg : ViewChangeMessage} (proper : r.Proper o)
    (rests : r.core.Rests) (known : o.Known (.viewChange msg))
    (below : r.Undercuts o.setup (.viewChange msg) → o.undercut) :
    Runs o (handleViewChange o.setup app remote msg) r := by
  have joined_below : (r.joined msg).status = .viewChange → o.setup.AmLeader (r.joined msg).view →
      ¬ (msg.sessnum < (r.joined msg).sessnum ∨ msg.view < (r.joined msg).view) → ∀ msgs,
        ((r.joined msg).viewChangeQuorum.addAndCheckForQuorum (msg.sessnum, msg.view)
          msg.replicaIdx msg).2 = some msgs →
        (r.joined msg).Lags ((r.joined msg).latest msgs.values).sessnum
          ((r.joined msg).latest msgs.values).view →
        r.lastCommittedOp < r.leaderLastSyncPreparePoint → o.undercut := by
    intro changing leader current msgs complete lags point
    refine below ⟨⟨msgs.values, ?_, (Replica.lags_joined r _ _).mp lags⟩, point⟩
    rw [Replica.quorumWith, if_pos ⟨changing, leader, current⟩, complete]
    rfl
  refine .get_bind (.branch (fun behind => ?_) fun current => ?_)
  · have joins : Runs o (startViewChange o.setup msg.sessnum msg.view) r :=
      startViewChange_runs proper
    refine .bind (.and_bare (startViewChange_joined behind) joins) ?_
    rintro _ r1 proper1 ⟨rfl, rests1⟩
    have point : (r.joined msg).lastCommittedOp < (r.joined msg).leaderLastSyncPreparePoint ↔
        r.lastCommittedOp < r.leaderLastSyncPreparePoint := by
      rw [Replica.joined, if_pos behind]
      exact Iff.rfl
    apply joinedViewChange_runs proper1 rests1 known
    intro changing leader current msgs complete lags below'
    exact joined_below changing leader current msgs complete lags (point.mp below')
  · rw [Replica.joined, if_neg current] at joined_below
    exact joinedViewChange_runs proper rests known joined_below

/-! ## Starting a view -/

/-- The replica is in the same session and view, and as it was unless its log is torn. -/
structure Replica.Rewound (r r' : Replica) : Prop where
  sessnum : r'.sessnum = r.sessnum
  view : r'.view = r.view
  same : r' = r ∨ r'.core.Torn
  outdatedGap : ∀ msg, r'.outdatedGap msg = r.outdatedGap msg
  point : r'.leaderLastSyncPreparePoint = r.leaderLastSyncPreparePoint

/-- A rewinding removes the end of the log. One below the sync point would show in `undercut`. -/
theorem rewindLogToOpnum_rewinds {opnum : Nat} (proper : r.Proper o)
    (below : opnum < r.leaderLastSyncPreparePoint → o.undercut) :
    Traces o (rewindLogToOpnum opnum) r fun _ r' => r.Rewound r' := by
  refine (rewindLogToOpnum_traces proper below).imp ?_
  rintro _ _ _ ⟨⟨log, rfl⟩, torn⟩
  exact ⟨rfl, rfl, .inr torn, fun _ => rfl, rfl⟩

/-- A log of an older view is rewound to the point that the leader has agreed on. -/
theorem rewindForView_traces {msg : StartViewMessage} (proper : r.Proper o)
    (below : ∀ opnum ∈ r.rewindPoints msg, opnum < r.leaderLastSyncPreparePoint → o.undercut) :
    Traces o (rewindForView msg) r fun _ r' => r.Rewound r' := by
  refine .get_bind (.branch (fun lags => ?_) fun lagsNot => ?_)
  · have lags : r.Lags msg.lastnormalsessnum msg.lastnormalview := lags
    apply rewindLogToOpnum_rewinds proper (below _ _)
    rw [Replica.rewindPoints, if_pos lags]
    exact List.mem_append_left _ (List.mem_singleton_self _)
  refine .require_bind fun sessnum => .require_bind fun view => ?_
  refine .branch (fun shorter => ?_) fun _ => .pure proper ⟨rfl, rfl, .inl rfl, fun _ => rfl, rfl⟩
  have lagsNot : ¬ r.Lags msg.lastnormalsessnum msg.lastnormalview := lagsNot
  apply rewindLogToOpnum_rewinds proper (below _ _)
  rw [Replica.rewindPoints, if_neg lagsNot, if_pos ⟨⟨sessnum, view⟩, shorter⟩]
  exact List.mem_append_left _ (List.mem_singleton_self _)

/-- A log of the same view is rewound to before the first gap that it does not know. -/
theorem rewindForGap_traces {msg : StartViewMessage} (proper : r.Proper o)
    (below : ∀ lastGap ∈ r.outdatedGap msg, lastGap - 1 < r.leaderLastSyncPreparePoint →
      o.undercut) :
    Traces o (rewindForGap msg) r fun _ r' => r.Rewound r' := by
  refine .get_bind ?_
  split
  next lastGap outdated => exact rewindLogToOpnum_rewinds proper (below lastGap outdated)
  next => exact .pure proper ⟨rfl, rfl, .inl rfl, fun _ => rfl, rfl⟩

/-- A `StartView` is followed for as long as the replica stays in its session and view. -/
theorem Follows.frame {c c' : Core} {msg : StartViewMessage} (follows : Follows o c msg)
    (sessnum : c'.sessnum = c.sessnum) (view : c'.view = c.view) : Follows o c' msg where
  known := follows.known
  follower := follows.follower
  sessnum := sessnum ▸ follows.sessnum
  view := view ▸ follows.view

/-- A replica that lacks a part of the log asks for it, or else it enters the view. -/
theorem completeStartView_runs {msg : StartViewMessage} (proper : r.Proper o)
    (follows : Follows o r.core msg) (drained : r.lastOp + 1 ∉ r.committedGaps) :
    Runs o (completeStartView o.setup app msg) r := by
  refine .get_bind (.branch (fun behind => ?_) fun _ => ?_)
  · refine Matching.TracesFrom.modify_bind (.emit_bind ?_)
    refine Matching.TracesFrom.get_bind (.emit_bind (.modify ?_ (proper.cleared rfl) ?_))
    · exact Moves.single (.followTransfer follows behind rfl)
    · exact ⟨drained, fun _ => .inr (Nat.succ_lt_succ behind)⟩
  · refine (enterView_traces proper .refl follows.sessnum follows.view (.follow follows)).imp ?_
    exact fun _ r' _ enters => enters.rests drained

/-- The log is rewound, its gaps are entered, and what it lacks is asked for before the view is
entered. -/
theorem handleStartView_runs {msg : StartViewMessage} (proper : r.Proper o)
    (rests : r.core.Rests) (known : o.Known (.startView msg))
    (below : r.Undercuts o.setup (.startView msg) → o.undercut) :
    Runs o (handleStartView o.setup app msg) r := by
  refine .get_bind (.branch (fun _ => .pure proper rests) fun newer => ?_)
  refine .branch (fun _ => ?_) fun new => .require_bind fun follower => ?_
  · refine .get_bind (.require_bind fun _ => .require_bind fun _ => ?_)
    exact runs_of_idles (sendToReplica_idles (by trivial) proper) rests
  have points : ∀ opnum ∈ r.rewindPoints msg, opnum < r.leaderLastSyncPreparePoint → o.undercut :=
    fun opnum member point => below ⟨⟨newer, new, follower⟩, opnum, member, point⟩
  have follows : Follows o r.core msg := by
    refine ⟨known, follower, ?_, ?_⟩
    · exact Nat.not_lt.mp fun older => newer (.inl older)
    · exact Nat.not_lt.mp fun older => newer (.inr older)
  refine .bind (rewindForView_traces proper points) fun _ r1 proper1 rewound1 => ?_
  have gaps : ∀ lastGap ∈ r1.outdatedGap msg, lastGap - 1 < r1.leaderLastSyncPreparePoint →
      o.undercut := by
    intro lastGap outdated point
    rw [rewound1.outdatedGap] at outdated
    refine points (lastGap - 1) (List.mem_append_right _ ?_) (rewound1.point ▸ point)
    exact Option.mem_toList.mpr (Option.mem_map_of_mem _ outdated)
  refine .bind (rewindForGap_traces proper1 gaps) fun _ r2 proper2 rewound2 => ?_
  have drained : r2.core.lastOp + 1 ∉ r2.core.committedGaps ∨ r2.core.Torn := by
    rcases rewound2.same with rfl | torn
    · rcases rewound1.same with rfl | torn
      · exact .inl rests.drained
      · exact .inr torn
    · exact .inr torn
  refine .move_bind (.forget drained) ?_
  refine .bind (installCommittedGaps_traces (proper2.frame rfl) OpnumSet.not_mem_empty) ?_
  intro _ r3 proper3 proceeds
  refine completeStartView_runs proper3 (follows.frame ?_ ?_) proceeds.drained
  · exact proceeds.sessnum.trans (rewound2.sessnum.trans rewound1.sessnum)
  · exact proceeds.view.trans (rewound2.view.trans rewound1.view)

/-- Counting a reply is no move. With a quorum the leader commits the log that the view started
with. -/
theorem handleStartViewReply_runs {msg : StartViewReplyMessage} (proper : r.Proper o)
    (rests : r.core.Rests) : Runs o (handleStartViewReply o.setup app msg) r := by
  refine .get_bind (.branch (fun _ => .pure proper rests) fun _ => .require_bind fun _ => ?_)
  refine .require_bind fun _ => .branch (fun _ => .quiet_bind rfl ?_) fun _ => .pure proper rests
  split
  next => exact .pure (proper.frame rfl) rests
  next =>
      refine runs_bind (runs_of_commits (commitUptoOp_traces (proper.frame rfl)) rests) ?_
      intro _ r1 proper1 rests1
      exact .move .stopStartView (proper1.frame rfl) (rests1.frame rfl rfl rfl rfl)

/-! ## Synchronization -/

/-- A replica that lacks a part of the log waits for it, and asks for it unless it is too much. -/
theorem completeSyncPrepare_runs {msg : SyncPrepareMessage} (proper : r.Proper o)
    (rests : r.core.Rests) (follower : ¬ o.setup.AmLeader r.view) :
    Runs o (completeSyncPrepare o.setup app msg) r := by
  refine .get_bind (.branch (fun behind => ?_) fun _ => ?_)
  · have transfers : ∀ asked next, next = r.core.transferring msg.lastop
        (o.setup.configuration.getLeaderIndex msg.view) (.processSyncPrepare msg.lastop) asked →
        Moves (Move o) r.core (next.asking asked) next :=
      fun _ _ same => .single (.syncTransfer follower behind same)
    refine Matching.TracesFrom.modify_bind (.emit_bind (.branch (fun _ => ?_) fun _ => ?_))
    · refine Matching.TracesFrom.get_bind (.emit_bind (.modify ?_ (proper.frame rfl) ?_))
      · exact transfers true _ rfl
      · exact ⟨rests.drained, fun _ => .inr (Nat.succ_lt_succ behind)⟩
    · refine .pure (transfers false _ rfl) (proper.frame rfl) ?_
      exact ⟨rests.drained, fun _ => .inr (Nat.succ_lt_succ behind)⟩
  · exact runs_of_commits (processSyncPrepare_traces proper) rests

/-- The gaps are entered first. A log that is too short is completed by a transfer, which is waited
for. -/
theorem handleSyncPrepare_runs {msg : SyncPrepareMessage} (proper : r.Proper o)
    (rests : r.core.Rests) : Runs o (handleSyncPrepare o.setup app msg) r := by
  refine runs_check proper rests fun _ _ _ => .quiet_bind rfl (.get_bind ?_)
  refine .branch (fun _ => .pure (proper.frame rfl) rests) fun _ => .require_bind fun _ => ?_
  refine .require_bind fun follower => .quiet_bind rfl ?_
  refine .bind (installCommittedGaps_traces (proper.frame rfl) rests.drained) ?_
  intro _ r1 proper1 proceeds
  refine completeSyncPrepare_runs proper1 ?_ ?_
  · exact ⟨proceeds.drained, fun torn => by
      obtain ⟨torn, lastOp, end_⟩ := proceeds.torn torn
      change r1.stateTransferOpEnd = 0 ∨ r1.lastOp + 1 < r1.stateTransferOpEnd
      rw [lastOp, end_]
      exact rests.ahead torn⟩
  · rw [proceeds.view]
    exact follower

/-- With a quorum of replies the leader commits up to the point of the round. -/
theorem handleSyncPrepareReply_runs {msg : SyncPrepareReplyMessage} (proper : r.Proper o)
    (rests : r.core.Rests) : Runs o (handleSyncPrepareReply o.setup app msg) r := by
  refine runs_check proper rests fun _ _ _ => .get_bind (.require_bind fun _ => ?_)
  refine .branch (fun _ => .pure proper rests) fun _ => ?_
  refine .branch (fun _ => .pure proper rests) fun _ => .quiet_bind rfl ?_
  split
  next => exact .pure (proper.frame rfl) rests
  next => exact runs_of_commits (commitUptoOp_traces (proper.frame rfl)) rests

/-- The replica is told that operations are committed before it has heard which. -/
def Replica.Unprepared (setup : Setup) (r : Replica) : Message → Prop
  | .syncCommit msg => msg.sessnum = r.sessnum ∧ msg.view = r.view ∧ r.status ≠ .viewChange ∧
    ¬ setup.AmLeader r.view ∧ r.lastCommittedOp < msg.syncpoint ∧
    msg.syncpoint ∉ r.receivedSyncPreparePoints
  | _ => False

instance (setup : Setup) (r : Replica) (msg : Message) : Decidable (r.Unprepared setup msg) :=
  match msg with
  | .syncCommit msg => inferInstanceAs (Decidable (msg.sessnum = r.sessnum ∧ msg.view = r.view ∧
      r.status ≠ .viewChange ∧ ¬ setup.AmLeader r.view ∧ r.lastCommittedOp < msg.syncpoint ∧
        msg.syncpoint ∉ r.receivedSyncPreparePoints))
  | .request _ | .reply _ | .unloggedRequest _ | .unloggedReply _ | .gapRequest _ | .gapReply _ |
      .gapCommit _ | .gapCommitReply _ | .stateTransferRequest _ | .stateTransferReply _ |
      .viewChangeRequest _ | .viewChange _ | .startView _ | .startViewReply _ |
      .syncPrepareRequest _ | .syncPrepare _ | .syncPrepareReply _ => .isFalse id

/-- A follower that lacks operations below the sync point would show in `unprepared`. -/
theorem handleSyncCommit_runs {msg : SyncCommitMessage} (proper : r.Proper o)
    (rests : r.core.Rests) (lacks : r.Unprepared o.setup (.syncCommit msg) → o.unprepared) :
    Runs o (handleSyncCommit o.setup app msg) r := by
  refine runs_check proper rests fun old new status => .get_bind (.require_bind fun follower => ?_)
  refine .branch (fun _ => .pure proper rests) fun later => .require_bind fun current => ?_
  refine .quiet_bind rfl (.branch (fun _ => .branch (fun _ => ?_) fun _ => ?_) fun missing => ?_)
  · refine runs_bind (runs_of_commits (commitUptoOp_traces (proper.frame rfl)) rests) ?_
    intro _ r1 proper1 rests1
    exact .quiet rfl (proper1.frame rfl) rests1
  · exact .pure (proper.frame rfl) rests
  · have unprepared := lacks ⟨current.1.symm, current.2.symm, status, follower,
      Nat.not_le.mp later, missing⟩
    exact runs_of_idles (idles_send (.syncPrepareRequest unprepared) (proper.frame rfl)) rests

/-! ## Any message and any timer -/

/-- One message after what has waited for it: every kind of message, if it is known and what the
handlers assert holds. -/
theorem receiveMessage_runs {remote : Address} {msg : Message} (proper : r.Proper o)
    (rests : r.core.Rests) (known : o.known remote msg)
    (lacks : r.Unprepared o.setup msg → o.unprepared)
    (below : r.Undercuts o.setup msg → o.undercut) :
    Runs o (receiveMessage o.setup app remote msg) r := by
  refine runs_bind ?_ fun _ _ proper rests => processPendingRequests_runs proper rests
  have sent : o.Known msg := ⟨remote, known⟩
  cases msg with
  | request msg => exact handleClientRequest_runs proper rests known
  | unloggedRequest msg => exact handleUnloggedRequest_runs proper rests known
  | gapRequest msg => exact handleGapRequest_runs proper rests
  | gapReply msg => exact handleGapReply_runs proper rests
  | gapCommit msg => exact handleGapCommit_runs proper rests
  | gapCommitReply msg => exact handleGapCommitReply_runs proper rests
  | stateTransferRequest msg => exact handleStateTransferRequest_runs proper rests known
  | stateTransferReply msg => exact handleStateTransferReply_runs proper rests
  | viewChangeRequest msg => exact handleViewChangeRequest_runs proper rests
  | viewChange msg => exact handleViewChange_runs proper rests sent below
  | startView msg => exact handleStartView_runs proper rests sent below
  | startViewReply msg => exact handleStartViewReply_runs proper rests
  | syncPrepare msg => exact handleSyncPrepare_runs proper rests
  | syncPrepareReply msg => exact handleSyncPrepareReply_runs proper rests
  | syncCommit msg => exact handleSyncCommit_runs proper rests lacks
  | syncPrepareRequest | reply | unloggedReply => exact .stop

/-- The gap request timeout runs for as long as a gap is asked for. -/
theorem sendGapRequest_runs {waiting : Bool} (proper : r.Proper o) (rests : r.core.Rests)
    (missing : r.startGapRequestTimeout = true ∨ r.gapRequestTimeout = true)
    (weaker : waiting = true → r.startGapRequestTimeout = true) :
    (matching o).TracesFrom r.core [] (sendGapRequest o.setup)
      { r with startGapRequestTimeout := waiting } fun _ r' => r'.core.Rests := by
  have asks : ∀ dst msg, Message.Plain msg → Moves (Move o) r.core ([] ++ [.send dst msg])
      { r.core with startGapRequestTimeout := waiting, gapRequestTimeout := true } := by
    intro dst msg plain
    have send : Move o r.core [.send dst msg] r.core := .send (.plain plain)
    exact (Moves.single send).trans (.single (.requestGap missing weaker))
  refine .get_bind (.branch (fun _ => ?_) fun _ => ?_)
  · refine .emit_bind (.modify (asks _ _ (by trivial)) (proper.frame rfl) ?_)
    exact rests.frame rfl rfl rfl rfl
  · refine .emit_bind (.modify (asks _ _ (by trivial)) (proper.frame rfl) ?_)
    exact rests.frame rfl rfl rfl rfl

/-- The log is announced as it is, with its gaps. -/
theorem sendStartView_runs (proper : r.Proper o) (rests : r.core.Rests)
    (active : r.startViewTimeout = true) : Runs o (sendStartView o.setup) r := by
  refine .get_bind (.require_bind fun leader => ?_)
  refine .emit_bind (.send (.startView leader (.inr active))) ?_
  exact .move (.awaitStartView leader (.inr active)) (proper.frame rfl)
    (rests.frame rfl rfl rfl rfl)

/-- A timer that fires is one that runs, so what its handler asserts holds. -/
theorem fireTimer_runs {timer : Timer} (proper : r.Proper o) (rests : r.core.Rests)
    (active : r.active timer = true) : Runs o (fireTimer o.setup app timer) r := by
  cases timer with
  | startGapRequest =>
      exact Matching.TracesFrom.modify_bind
        (sendGapRequest_runs proper rests (.inl active) (fun fires => nomatch fires))
  | gapRequest =>
      refine .get_bind (.branch (fun _ => ?_) fun _ => ?_)
      · exact startGapAgreement_runs proper rests (.inr active)
      · exact sendGapRequest_runs proper rests (.inr active) id
  | gapCommit => exact runs_of_idles (sendGapCommit_idles proper) rests
  | viewChange => exact runs_of_idles (sendViewChange_idles proper) rests
  | stateTransfer => exact runs_of_idles (sendStateTransferRequest_idles proper active) rests
  | startView => exact sendStartView_runs proper rests active
  | sync =>
      refine .get_bind (.require_bind fun _ => .move_bind .setPoint ?_)
      exact runs_of_idles (sendToAll_idles (by trivial) (proper.frame rfl))
        (rests.frame rfl rfl rfl rfl)
  | leaderSyncHeard => exact .get_bind (startViewChange_runs proper)

end PaxosBus.NoPaxos

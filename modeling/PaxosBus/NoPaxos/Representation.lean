import PaxosBus.NoPaxos.System

/-!
# The representation of a replica's log

Between handlers the number of the last operation is that of the last entry of
the log, nothing beyond it is committed or executed, the entries that are NOOPs
are the gaps, and no gap is waiting to be the next entry. Every handler keeps
this with any message whatsoever, as long as it does not rewind the log and a
`StartView` does not take a gap away.
-/

set_option autoImplicit false

namespace PaxosBus.NoPaxos

open PaxosBus.Common PaxosBus.Library
open Logic (Meets)

/-- The fields that represent the log fit together, but for some NOOPs which are not gaps yet. -/
structure Replica.Orderly (late : List Nat) (r : Replica) : Prop where
  lastOp : r.lastOp = r.log.entries.length
  committed : r.lastCommittedOp ≤ r.lastOp
  executed : r.lastExecutedOp ≤ r.lastOp
  gap : ∀ opnum entry, r.log.find opnum = some entry → opnum ∈ r.committedGaps →
    entry.state = .noop
  noop : ∀ opnum entry, r.log.find opnum = some entry → entry.state = .noop →
    opnum ∈ r.committedGaps ∨ opnum ∈ late

/-- The same, and no gap is waiting to be the next entry. -/
structure Replica.Tidy (late : List Nat) (r : Replica) : Prop extends Replica.Orderly late r where
  next : r.lastOp + 1 ∉ r.committedGaps

/-- The log and the gaps are the same, and nothing beyond the log got committed or executed. -/
structure Replica.SameLog (r r' : Replica) : Prop where
  lastOp : r'.lastOp = r.lastOp
  log : r'.log = r.log
  committedGaps : r'.committedGaps = r.committedGaps
  committed : r.lastCommittedOp ≤ r.lastOp → r'.lastCommittedOp ≤ r.lastOp
  executed : r.lastExecutedOp ≤ r.lastOp → r'.lastExecutedOp ≤ r.lastOp

namespace Replica

variable {r r' r'' : Replica} {late : List Nat}

theorem SameLog.refl (r : Replica) : r.SameLog r := ⟨rfl, rfl, rfl, id, id⟩

/-- What leaves the log alone twice leaves it alone. -/
theorem SameLog.trans (first : r.SameLog r') (second : r'.SameLog r'') : r.SameLog r'' where
  lastOp := second.lastOp.trans first.lastOp
  log := second.log.trans first.log
  committedGaps := second.committedGaps.trans first.committedGaps
  committed le := by
    have := first.committed le
    have := second.committed
    have := first.lastOp
    omega
  executed le := by
    have := first.executed le
    have := second.executed
    have := first.lastOp
    omega

/-- The fields still fit together where the log is the same. -/
theorem SameLog.orderly (same : r.SameLog r') (orderly : r.Orderly late) : r'.Orderly late where
  lastOp := by rw [same.lastOp, same.log, orderly.lastOp]
  committed := same.lastOp ▸ same.committed orderly.committed
  executed := same.lastOp ▸ same.executed orderly.executed
  gap := by
    rw [same.log, same.committedGaps]
    exact orderly.gap
  noop := by
    rw [same.log, same.committedGaps]
    exact orderly.noop

/-- No gap has come to wait either. -/
theorem SameLog.tidy (same : r.SameLog r') (tidy : r.Tidy late) : r'.Tidy late where
  toOrderly := same.orderly tidy.toOrderly
  next := by
    rw [same.lastOp, same.committedGaps]
    exact tidy.next

/-- Other fields do not matter. -/
theorem Tidy.frame (tidy : r.Tidy late) (lastOp : r'.lastOp = r.lastOp) (log : r'.log = r.log)
    (committedGaps : r'.committedGaps = r.committedGaps)
    (committed : r'.lastCommittedOp = r.lastCommittedOp)
    (executed : r'.lastExecutedOp = r.lastExecutedOp) : r'.Tidy late :=
  SameLog.tidy ⟨lastOp, log, committedGaps, fun le => committed ▸ le, fun le => executed ▸ le⟩ tidy

end Replica

/-- What a handler does to the state alone. -/
abbrev Ensures {α : Type} (handler : Run α) (r : Replica) (Post : α → Replica → Prop) : Prop :=
  (Logic.bare Replica Output).Meets handler () r fun value _ r' => Post value r'

variable {setup : Setup} {app : App} {r : Replica}

/-! ## What leaves the log alone -/

/-- The handler leaves the log alone. -/
abbrev LeavesLog {α : Type} (handler : Run α) (r : Replica) : Prop :=
  Ensures handler r fun _ r' => r.SameLog r'

section LeavingAlone

/-- Sending to all others is no change of the replica. -/
theorem sendToAll_leaves {msg : Message} : LeavesLog (sendToAll msg) r :=
  .emit trivial trivial (.refl r)

theorem sendToReplica_leaves {idx : Nat} {msg : Message} : LeavesLog (sendToReplica idx msg) r :=
  .emit trivial trivial (.refl r)

theorem sendMessage_leaves {addr : Address} {msg : Message} : LeavesLog (sendMessage addr msg) r :=
  .emit trivial trivial (.refl r)

/-- A change of other fields. -/
theorem change_leaves {change : Replica → Replica} (same : r.SameLog (change r)) :
    LeavesLog (Handler.modify change) r :=
  .change trivial same

/-- Two parts that leave the log alone, one after the other. -/
theorem leaves_bind {α β : Type} {first : Run β} {next : β → Run α} (before : LeavesLog first r)
    (after : ∀ value r', LeavesLog (next value) r') : LeavesLog (first >>= next) r := by
  refine .bind (before.imp ?_)
  intro value _ r' _ same _
  refine (after value r').imp ?_
  intro _ _ r'' _ same'
  exact same.trans same'

theorem get_leaves : LeavesLog (Handler.get : Run Replica) r := .get trivial (.refl r)

theorem require_leaves {condition : Prop} [Decidable condition] :
    LeavesLog (Handler.require condition : Run Unit) r :=
  .require trivial fun _ => .refl r

theorem demand_leaves {α : Type} {found : Option α} : LeavesLog (Handler.demand found : Run α) r :=
  .demand trivial fun _ _ => .refl r

/-- Putting out a mark is no change of the replica. -/
theorem emit_leaves {output : Output} : LeavesLog (Handler.emit output : Run Unit) r :=
  .emit trivial trivial (.refl r)

theorem pure_leaves {α : Type} {value : α} : LeavesLog (pure value : Run α) r :=
  .pure trivial (.refl r)

/-- A gap request only starts its timer. -/
theorem sendGapRequest_leaves : LeavesLog (sendGapRequest setup) r := by
  refine leaves_bind get_leaves fun s r' => .branch (fun _ => ?_) (fun _ => ?_)
  · exact leaves_bind sendToAll_leaves fun _ _ => change_leaves ⟨rfl, rfl, rfl, id, id⟩
  · exact leaves_bind sendToReplica_leaves fun _ _ => change_leaves ⟨rfl, rfl, rfl, id, id⟩

/-- The leader tells the others of a gap that its log has already. -/
theorem sendGapCommit_leaves : LeavesLog (sendGapCommit setup) r := by
  refine leaves_bind get_leaves fun s _ => leaves_bind require_leaves fun _ _ => ?_
  refine leaves_bind require_leaves fun _ _ => leaves_bind sendToAll_leaves fun _ _ => ?_
  exact change_leaves ⟨rfl, rfl, rfl, id, id⟩

/-- A vote is sent with the log as it is. -/
theorem sendViewChange_leaves : LeavesLog (sendViewChange setup) r := by
  refine leaves_bind get_leaves fun s _ => leaves_bind sendToAll_leaves fun _ _ => ?_
  refine .branch (fun _ => change_leaves ⟨rfl, rfl, rfl, id, id⟩) (fun _ => ?_)
  exact leaves_bind sendToReplica_leaves fun _ _ => change_leaves ⟨rfl, rfl, rfl, id, id⟩

/-- A state transfer that is asked for has not brought anything yet. -/
theorem sendStateTransferRequest_leaves : LeavesLog sendStateTransferRequest r := by
  refine leaves_bind get_leaves fun s _ => leaves_bind sendToReplica_leaves fun _ _ => ?_
  exact change_leaves ⟨rfl, rfl, rfl, id, id⟩

/-- The leader announces the log that it has. -/
theorem sendStartView_leaves : LeavesLog (sendStartView setup) r := by
  refine leaves_bind get_leaves fun s _ => leaves_bind require_leaves fun _ _ => ?_
  exact leaves_bind sendToAll_leaves fun _ _ => change_leaves ⟨rfl, rfl, rfl, id, id⟩

/-- A reply to a `StartView` changes nothing. -/
theorem sendStartViewReply_leaves : LeavesLog (sendStartViewReply setup) r := by
  refine leaves_bind get_leaves fun s _ => leaves_bind require_leaves fun _ _ => ?_
  exact leaves_bind require_leaves fun _ _ => sendToReplica_leaves

/-- What is noted of the sync point is not the log, but its end and its gaps. -/
theorem sendSyncPrepare_leaves : LeavesLog (sendSyncPrepare setup) r := by
  refine leaves_bind get_leaves fun s _ => leaves_bind require_leaves fun _ _ => ?_
  exact leaves_bind (change_leaves ⟨rfl, rfl, rfl, id, id⟩) fun _ _ => sendToAll_leaves

/-- The leader tells how far it has committed, and commits nothing by it. -/
theorem sendSyncCommit_leaves : LeavesLog (sendSyncCommit setup) r := by
  refine leaves_bind get_leaves fun s _ => leaves_bind require_leaves fun _ _ => ?_
  exact sendToAll_leaves

/-- The client table is no part of the log. -/
theorem updateClientTable_leaves {req : Request} {reply : String} :
    LeavesLog (updateClientTable setup req reply) r := by
  refine leaves_bind get_leaves fun s _ => leaves_bind require_leaves fun _ _ => ?_
  refine .branch (fun _ => change_leaves ⟨rfl, rfl, rfl, id, id⟩) (fun _ => ?_)
  exact .branch (fun _ => change_leaves ⟨rfl, rfl, rfl, id, id⟩)
    (fun _ => change_leaves ⟨rfl, rfl, rfl, id, id⟩)

/-- A reply changes nothing, whether the client's address is known or not. -/
theorem replyExecuted_leaves {op : Nat} {entry : Entry} {reply : String} :
    LeavesLog (replyExecuted setup op entry reply) r := by
  refine leaves_bind get_leaves fun s _ => .branch (fun _ => ?_) (fun _ => pure_leaves)
  split
  next => exact sendMessage_leaves
  next => exact pure_leaves

/-- Executing an operation changes the client table alone. -/
theorem executeNew_leaves {op : Nat} {entry : Entry} :
    LeavesLog (executeNew setup app op entry) r := by
  refine leaves_bind get_leaves fun _ _ => leaves_bind emit_leaves fun _ _ => ?_
  exact leaves_bind updateClientTable_leaves fun _ _ => replyExecuted_leaves

/-- A reply that is sent again changes nothing. -/
theorem answerAgain_leaves {op : Nat} {entry : Entry} {reply : String} :
    LeavesLog (answerAgain setup op entry reply) r :=
  leaves_bind emit_leaves fun _ _ => replyExecuted_leaves

/-- Nothing that is not there is executed. -/
theorem executeNext_leaves : LeavesLog (executeNext setup app) r := by
  refine .bind (.get trivial fun _ => .bind (.require trivial fun inside _ => ?_))
  refine .bind (.demand trivial fun entry _ _ => ?_)
  refine leaves_bind (change_leaves ⟨rfl, rfl, rfl, id, fun _ => inside⟩) fun _ _ => ?_
  refine .branch (fun _ => ?_) (fun _ => pure_leaves)
  split
  next => exact executeNew_leaves
  next =>
      refine .branch (fun _ => pure_leaves) (fun _ => ?_)
      exact .branch (fun _ => answerAgain_leaves) (fun _ => executeNew_leaves)

/-- Execution goes on to the end of the log at most. -/
theorem executeUptoOp_leaves {opnum : Nat} : LeavesLog (executeUptoOp setup app opnum) r := by
  refine leaves_bind get_leaves fun s r' => .branch (fun _ => pure_leaves) (fun _ => ?_)
  refine leaves_bind require_leaves fun _ r' => ?_
  refine .repeated (fun _ _ r'' => r'.SameLog r'') ?_ trivial (.refl r')
  intro _ _ r'' _ same
  refine executeNext_leaves.imp ?_
  intro _ _ _ _ same'
  exact same.trans same'

/-- Nothing that is not there is committed. -/
theorem commitUptoOp_leaves {opnum : Nat} : LeavesLog (commitUptoOp setup app opnum) r := by
  refine .bind (.get trivial fun _ => .branch (fun _ => pure_leaves) fun _ => ?_)
  refine .bind (.require trivial fun inside _ => ?_)
  refine leaves_bind (change_leaves ⟨rfl, rfl, rfl, fun _ => inside, id⟩) fun _ _ => ?_
  refine .branch (fun _ => ?_) (fun _ => executeUptoOp_leaves)
  exact leaves_bind sendSyncCommit_leaves fun _ _ => executeUptoOp_leaves

/-- A leader that enters a view has executed its log, and no more. -/
theorem leadView_leaves : LeavesLog (leadView setup app) r := by
  refine leaves_bind get_leaves fun s _ => leaves_bind executeUptoOp_leaves fun _ _ => ?_
  refine leaves_bind (change_leaves ⟨rfl, rfl, rfl, id, id⟩) fun _ _ => ?_
  refine leaves_bind get_leaves fun s _ => leaves_bind require_leaves fun _ _ => ?_
  exact leaves_bind (change_leaves ⟨rfl, rfl, rfl, id, id⟩) fun _ _ => sendStartView_leaves

/-- A follower that enters a view keeps its log. -/
theorem followView_leaves : LeavesLog (followView setup) r :=
  leaves_bind (change_leaves ⟨rfl, rfl, rfl, id, id⟩) fun _ _ => sendStartViewReply_leaves

/-- Entering a view changes the view, and leaves the log to the leader or the follower. -/
theorem enterView_leaves {newsessnum newview : Nat} :
    LeavesLog (enterView setup app newsessnum newview) r := by
  refine leaves_bind get_leaves fun s _ => leaves_bind emit_leaves fun _ _ => ?_
  refine leaves_bind require_leaves fun _ _ => leaves_bind require_leaves fun _ _ => ?_
  refine leaves_bind emit_leaves fun _ _ => ?_
  refine leaves_bind (change_leaves ⟨rfl, rfl, rfl, id, id⟩) fun _ _ => ?_
  exact .branch (fun _ => leadView_leaves) (fun _ => followView_leaves)

/-- What is committed up to the sync point is in the log. -/
theorem processSyncPrepare_leaves {syncpoint : Nat} :
    LeavesLog (processSyncPrepare setup app syncpoint) r := by
  refine leaves_bind get_leaves fun s _ => leaves_bind require_leaves fun _ _ => ?_
  refine .branch (fun _ => ?_) (fun _ => sendToReplica_leaves)
  exact leaves_bind commitUptoOp_leaves fun _ _ => change_leaves ⟨rfl, rfl, rfl, id, id⟩

/-- Completing a state transfer enters a view or commits. -/
theorem completeStateTransfer_leaves : LeavesLog (completeStateTransfer setup app) r := by
  refine leaves_bind get_leaves fun s _ => ?_
  split
  · exact .stop trivial
  · exact enterView_leaves
  · exact processSyncPrepare_leaves

/-- The transfer is complete when its last operation is in the log, which stays as it is. -/
theorem checkStateTransfer_leaves {opnum : Nat} :
    LeavesLog (checkStateTransfer setup app opnum) r := by
  refine leaves_bind get_leaves fun s _ => .branch (fun _ => ?_) (fun _ => pure_leaves)
  refine leaves_bind (change_leaves ⟨rfl, rfl, rfl, id, id⟩) fun _ r' => ?_
  exact leaves_bind (.emit trivial trivial (.refl r')) fun _ _ => completeStateTransfer_leaves

end LeavingAlone

/-! ## What puts entries into the log -/

section Extending

variable {late : List Nat} {request : Request} {vs : Viewstamp} {state : LogEntryState}

/-- An entry more, which is a NOOP if and only if it is a gap. -/
theorem Replica.Orderly.append {r' : Replica} {longer : Log} (orderly : r.Orderly late)
    (appended : r.log.append vs request state = some longer) (lastOp : r'.lastOp = r.lastOp + 1)
    (log : r'.log = longer) (committed : r'.lastCommittedOp = r.lastCommittedOp)
    (executed : r'.lastExecutedOp = r.lastExecutedOp)
    (grow : ∀ gap ∈ r.committedGaps, gap ∈ r'.committedGaps)
    (only : ∀ gap ∈ r'.committedGaps, gap ∈ r.committedGaps ∨ gap = r.lastOp + 1)
    (decided : state = .noop ↔ r.lastOp + 1 ∈ r'.committedGaps) : r'.Orderly late := by
  have length : longer.entries.length = r.lastOp + 1 := by
    rw [(Log.of_append appended).2, List.length_append, orderly.lastOp, List.length_singleton]
  have inside : ∀ {opnum entry}, r.log.find opnum = some entry → opnum ≠ r.lastOp + 1 := by
    intro opnum entry found
    have := (List.getElem?_eq_some_iff.mp (Log.find_eq_some.mp found).2).1
    have := orderly.lastOp
    omega
  constructor
  · rw [lastOp, log, length]
  · have := orderly.committed
    omega
  · have := orderly.executed
    omega
  · intro opnum entry found member
    rw [log] at found
    rcases Log.find_of_append appended found with before | ⟨rfl, rfl⟩
    · rcases only opnum member with old | new
      · exact orderly.gap opnum entry before old
      · exact absurd new (inside before)
    · rw [← orderly.lastOp] at member
      exact decided.mpr member
  · intro opnum entry found noop
    rw [log] at found
    rcases Log.find_of_append appended found with before | ⟨rfl, rfl⟩
    · exact (orderly.noop opnum entry before noop).imp_left (grow opnum)
    · rw [← orderly.lastOp]
      exact .inl (decided.mp noop)

/-- A request that has been appended is executed or replied to, and is no gap. -/
theorem acknowledgeOperation_leaves (received : state ≠ .noop) :
    LeavesLog (acknowledgeOperation setup app request vs state) r := by
  refine leaves_bind get_leaves fun s _ => .branch (fun noop => absurd noop received) fun _ => ?_
  refine .branch (fun _ => .branch (fun _ => executeUptoOp_leaves) fun _ => ?_)
    (fun _ => pure_leaves)
  split
  next => exact sendMessage_leaves
  next => exact pure_leaves

/-- Whatever is done with the gap timeouts, the log stays. -/
theorem stopGapRequests_same (r : Replica) : r.SameLog r.stopGapRequests ∧
    r.stopGapRequests.lastCommittedOp = r.lastCommittedOp ∧
      r.stopGapRequests.lastExecutedOp = r.lastExecutedOp := by
  unfold Replica.stopGapRequests
  split <;> exact ⟨⟨rfl, rfl, rfl, id, id⟩, rfl, rfl⟩

/-- A gap more is recorded when a NOOP is put into the log. -/
structure Replica.Extends (r r' : Replica) : Prop where
  lastOp : r'.lastOp = r.lastOp + 1
  grow : ∀ gap ∈ r.committedGaps, gap ∈ r'.committedGaps
  waiting : r.lastOp + 1 ∈ r.committedGaps → r'.committedGaps = r.committedGaps

/-- A log that has been extended is the same after what leaves it alone. -/
theorem Replica.Extends.same {r r' r'' : Replica} (extends_ : r.Extends r') (same : r'.SameLog r'') :
    r.Extends r'' where
  lastOp := same.lastOp.trans extends_.lastOp
  grow gap member := same.committedGaps ▸ extends_.grow gap member
  waiting member := same.committedGaps.trans (extends_.waiting member)

/-- One operation is put at the end of the log, and nothing else. -/
theorem processOperation_ensures (orderly : r.Orderly late) :
    Ensures (processOperation setup app request vs state) r fun _ r' =>
      r'.Orderly late ∧ r.Extends r' := by
  refine .bind (.get trivial fun _ => .bind (.emit trivial trivial fun _ => ?_))
  refine .bind (.require trivial fun next _ => .bind (.change trivial fun _ => ?_))
  refine .bind (.demand trivial fun longer appended _ => ?_)
  refine .bind (.change trivial fun _ => .bind (.change trivial fun _ => ?_))
  let appendedTo : Replica :=
    { r with lastOp := vs.opnum, nextMsgnum := vs.msgnum + 1, log := longer }
  obtain ⟨stopped, committed, executed⟩ := stopGapRequests_same appendedTo
  by_cases noop : r.decidedState vs.opnum state = .noop
  · -- The gap is recorded under the number of the operation.
    refine .bind (.bind (.get trivial fun _ => ?_))
    rw [if_pos noop]
    have gaps : appendedTo.stopGapRequests.committedGaps.insert appendedTo.stopGapRequests.lastOp =
        r.committedGaps.insert (r.lastOp + 1) := by
      rw [stopped.committedGaps, stopped.lastOp, ← next]
    let recorded : Replica :=
      { appendedTo.stopGapRequests with committedGaps := r.committedGaps.insert (r.lastOp + 1) }
    have extends_ : r.Extends recorded :=
      ⟨stopped.lastOp.trans next, fun gap member => OpnumSet.mem_insert.mpr (.inr member),
        fun member => OpnumSet.insert_of_mem member⟩
    have orderly' : recorded.Orderly late := by
      refine orderly.append appended extends_.lastOp stopped.log committed executed extends_.grow
        (fun gap member => (OpnumSet.mem_insert.mp member).symm) ?_
      exact iff_of_true noop (OpnumSet.mem_insert.mpr (.inl rfl))
    refine .change trivial fun _ => checkStateTransfer_leaves.imp fun _ _ r' _ same => ?_
    rw [gaps] at same
    exact ⟨same.orderly orderly', extends_.same same⟩
  · refine .bind ((acknowledgeOperation_leaves noop).imp fun _ _ middle _ acknowledged _ => ?_)
    have fresh : r.lastOp + 1 ∉ r.committedGaps := by
      intro member
      rw [← next] at member
      exact noop (if_pos member)
    have extends_ : r.Extends appendedTo.stopGapRequests :=
      ⟨stopped.lastOp.trans next, fun _ member => stopped.committedGaps ▸ member,
        fun _ => stopped.committedGaps⟩
    have orderly' : appendedTo.stopGapRequests.Orderly late := by
      refine orderly.append appended extends_.lastOp stopped.log committed executed extends_.grow
        (fun gap member => .inl (stopped.committedGaps ▸ member)) ?_
      exact iff_of_false noop (stopped.committedGaps ▸ fresh)
    refine checkStateTransfer_leaves.imp fun _ _ r' _ checked => ?_
    have same := acknowledged.trans checked
    exact ⟨same.orderly orderly', extends_.same same⟩

/-- How many gaps lie beyond the log. -/
def Replica.gapsBeyond (r : Replica) : Nat := r.committedGaps.elements.countP (r.lastOp < ·)

/-- A gap that gets into the log no longer lies beyond it. -/
theorem gapsBeyond_lt {gaps : List Nat} {lastOp : Nat} (waiting : lastOp + 1 ∈ gaps) :
    gaps.countP (lastOp + 1 < ·) < gaps.countP (lastOp < ·) := by
  obtain ⟨before, after, rfl⟩ := List.append_of_mem waiting
  have fewer : ∀ list : List Nat, list.countP (lastOp + 1 < ·) ≤ list.countP (lastOp < ·) :=
    fun list => List.countP_mono_left fun gap _ beyond => by
      rw [decide_eq_true_eq] at beyond ⊢
      omega
  have := fewer before
  have := fewer after
  simp only [List.countP_append, List.countP_cons]
  simp
  omega

/-- When all the gaps that follow are in the log, none is waiting to be the next entry. -/
theorem processGaps_ensures {rounds : Nat} (orderly : r.Orderly late)
    (enough : r.gapsBeyond ≤ rounds) :
    Ensures (processGaps setup app request vs rounds) r fun _ r' =>
      r'.Tidy late ∧ ∀ gap ∈ r.committedGaps, gap ∈ r'.committedGaps := by
  induction rounds generalizing r with
  | zero =>
      refine .pure trivial ⟨⟨orderly, fun waiting => ?_⟩, fun _ member => member⟩
      have := gapsBeyond_lt waiting
      unfold Replica.gapsBeyond at enough
      omega
  | succ rounds inductionHypothesis =>
      refine .bind (.get trivial fun _ => .branch (fun waiting => ?_) fun none_ => ?_)
      · refine .bind ((processOperation_ensures orderly).imp ?_)
        rintro _ _ r' _ ⟨orderly', extends_⟩ _
        refine (inductionHypothesis orderly' ?_).imp ?_
        · have := gapsBeyond_lt waiting
          unfold Replica.gapsBeyond at enough ⊢
          rw [extends_.waiting waiting, extends_.lastOp]
          omega
        · rintro _ _ r'' _ ⟨tidy, grow⟩
          exact ⟨tidy, fun gap member => grow gap (extends_.grow gap member)⟩
      · exact .pure trivial ⟨⟨orderly, none_⟩, fun _ member => member⟩

/-- An operation is put into the log with all the gaps that follow it. -/
theorem processNextOperation_ensures (orderly : r.Orderly late) :
    Ensures (processNextOperation setup app request vs state) r fun _ r' =>
      r'.Tidy late ∧ ∀ gap ∈ r.committedGaps, gap ∈ r'.committedGaps := by
  refine .bind ((processOperation_ensures orderly).imp ?_)
  rintro _ _ r' _ ⟨orderly', extends_⟩ _
  refine .bind (.get trivial fun _ => (processGaps_ensures orderly' List.countP_le_length).imp ?_)
  rintro _ _ r'' _ ⟨tidy, grow⟩
  exact ⟨tidy, fun gap member => grow gap (extends_.grow gap member)⟩

/-! ## Gaps -/

/-- A gap overwrites the entry at its place, where there is one. -/
theorem Replica.Orderly.overwrite {r' : Replica} {gap : Nat} (orderly : r.Orderly (gap :: late))
    (member : gap ∈ r'.committedGaps) (lastOp : r'.lastOp = r.lastOp)
    (log : r'.log = r.log.setStatus gap .noop)
    (gaps : ∀ other, other ≠ gap → (other ∈ r'.committedGaps ↔ other ∈ r.committedGaps))
    (committed : r'.lastCommittedOp = r.lastCommittedOp)
    (executed : r'.lastExecutedOp = r.lastExecutedOp) : r'.Orderly late := by
  have cases_ : ∀ {opnum entry}, r'.log.find opnum = some entry → opnum = gap ∧ entry.state = .noop ∨
      opnum ≠ gap ∧ r.log.find opnum = some entry := by
    intro opnum entry found
    rw [log, Log.find_setStatus] at found
    obtain ⟨before, there, rfl⟩ := Option.map_eq_some_iff.mp found
    by_cases same : opnum = gap
    · exact .inl ⟨same, by rw [if_pos same]⟩
    · exact .inr ⟨same, by rw [if_neg same, there]⟩
  constructor
  · rw [lastOp, log, Log.length_setStatus, orderly.lastOp]
  · rw [committed, lastOp]
    exact orderly.committed
  · rw [executed, lastOp]
    exact orderly.executed
  · intro opnum entry found inGaps
    rcases cases_ found with ⟨-, noop⟩ | ⟨different, before⟩
    · exact noop
    · exact orderly.gap opnum entry before ((gaps opnum different).mp inGaps)
  · intro opnum entry found noop
    rcases cases_ found with ⟨rfl, -⟩ | ⟨different, before⟩
    · exact .inl member
    · rcases orderly.noop opnum entry before noop with inGaps | inLate
      · exact .inl ((gaps opnum different).mpr inGaps)
      · exact .inr ((List.mem_cons.mp inLate).resolve_left different)

/-- A gap is recorded where there is a NOOP or no entry at all. -/
theorem Replica.Orderly.record {gap : Nat} (orderly : r.Orderly (gap :: late))
    (noop : ∀ entry, r.log.find gap = some entry → entry.state = .noop) :
    Replica.Orderly late { r with committedGaps := r.committedGaps.insert gap } where
  lastOp := orderly.lastOp
  committed := orderly.committed
  executed := orderly.executed
  gap opnum entry found member := by
    rcases OpnumSet.mem_insert.mp member with rfl | old
    · exact noop entry found
    · exact orderly.gap opnum entry found old
  noop opnum entry found isNoop := by
    rcases orderly.noop opnum entry found isNoop with old | inLate
    · exact .inl (OpnumSet.mem_insert.mpr (.inr old))
    · rcases List.mem_cons.mp inLate with rfl | inRest
      · exact .inl (OpnumSet.mem_insert.mpr (.inl rfl))
      · exact .inr inRest

/-- There is no entry beyond the log. -/
theorem Replica.Orderly.find_beyond {opnum : Nat} (orderly : r.Orderly late)
    (beyond : r.lastOp < opnum) : r.log.find opnum = none := by
  apply Option.eq_none_iff_forall_ne_some.mpr
  intro entry found
  have := (List.getElem?_eq_some_iff.mp (Log.find_eq_some.mp found).2).1
  have := orderly.lastOp
  omega

/-- Fewer NOOPs are missing when one of them is a gap already. -/
theorem Replica.Orderly.drop {gap : Nat} (orderly : r.Orderly (gap :: late))
    (member : gap ∈ r.committedGaps) : r.Orderly late := by
  have recorded := orderly.record fun entry found => orderly.gap gap entry found member
  rwa [OpnumSet.insert_of_mem member] at recorded

/-- A gap that has just been recorded gets into the log. -/
theorem overwriteGap_ensures {gap : Nat} (orderly : r.Orderly (gap :: late))
    (next : r.lastOp + 1 ∉ r.committedGaps.insert gap) :
    Ensures (overwriteGap gap) { r with committedGaps := r.committedGaps.insert gap }
      fun _ r' => r'.Tidy late := by
  refine .bind (.get trivial fun _ => .branch (fun inside => ?_) fun beyond => ?_)
  · refine .bind (.demand trivial fun entry found _ => .branch (fun noop => ?_) fun _ => ?_)
    · refine .pure trivial ⟨orderly.record fun other there => ?_, next⟩
      rwa [Option.some.inj (there.symm.trans found)]
    · refine .bind (.require trivial fun _ _ => .bind (.require trivial fun _ _ => ?_))
      refine .change trivial ⟨orderly.overwrite (OpnumSet.mem_insert.mpr (.inl rfl)) rfl rfl ?_ rfl
        rfl, next⟩
      intro other different
      exact OpnumSet.mem_insert.trans (or_iff_right different)
  · refine .pure trivial ⟨orderly.record fun other there => ?_, next⟩
    rw [orderly.find_beyond (Nat.not_le.mp beyond)] at there
    simp at there

/-- One gap is installed. -/
theorem installGap_ensures {gap : Nat} (tidy : r.Tidy (gap :: late)) :
    Ensures (installGap setup app gap) r fun _ r' => r'.Tidy late := by
  refine .bind (.get trivial fun _ => .branch (fun old => ?_) fun new => ?_)
  · exact .pure trivial ⟨tidy.toOrderly.drop old, tidy.next⟩
  · refine .bind (.change trivial fun _ => .bind (.bind (.get trivial fun _ => ?_)))
    refine .branch (fun advances => ?_) fun stays => ?_
    · -- The log has reached the gap, with all those that follow it.
      have orderly : Replica.Orderly late { r with committedGaps := r.committedGaps.insert gap } := by
        refine tidy.toOrderly.record fun entry found => ?_
        have beyond : r.lastOp < gap := by rw [← advances]; exact Nat.lt_succ_self _
        rw [tidy.toOrderly.find_beyond beyond] at found
        simp at found
      refine (processNextOperation_ensures orderly).imp ?_
      rintro _ _ r' _ ⟨tidy', grow⟩ _
      have member : gap ∈ r'.committedGaps := grow gap (OpnumSet.mem_insert.mpr (.inl rfl))
      have same : r'.committedGaps.insert gap = r'.committedGaps := OpnumSet.insert_of_mem member
      have orderly' : r'.Orderly (gap :: late) :=
        { tidy'.toOrderly with
          noop := fun opnum entry found noop =>
            (tidy'.noop opnum entry found noop).imp_right (List.mem_cons_of_mem _) }
      have installed := overwriteGap_ensures orderly' (same.symm ▸ tidy'.next)
      rwa [same] at installed
    · refine .pure trivial fun _ => overwriteGap_ensures tidy.toOrderly fun waiting => ?_
      rcases OpnumSet.mem_insert.mp waiting with isGap | old
      · exact stays isGap
      · exact tidy.next old

/-- All the gaps of a message are installed, those which had been forgotten among them. -/
theorem installCommittedGaps_ensures {gaps : List Nat} (tidy : r.Tidy (gaps ++ late)) :
    Ensures (installCommittedGaps setup app gaps) r fun _ r' => r'.Tidy late := by
  induction gaps generalizing r with
  | nil => exact .pure trivial tidy
  | cons gap rest inductionHypothesis =>
      exact .bind ((installGap_ensures tidy).imp fun _ _ r' _ tidy' _ => inductionHypothesis tidy')

end Extending

/-! ## The handlers -/

/-- The fields that represent the log fit together after the handler. -/
abbrev Tidies {α : Type} (handler : Run α) (r : Replica) : Prop :=
  Ensures handler r fun _ r' => r'.Tidy []

section Handlers

variable {α β : Type}

/-- More NOOPs may be missing. -/
theorem Replica.Tidy.weaken (tidy : r.Tidy []) (late : List Nat) : r.Tidy late :=
  { tidy with
    noop := fun opnum entry found noop =>
      .inl ((tidy.noop opnum entry found noop).resolve_right List.not_mem_nil) }

/-- The same log stays as it is. -/
theorem tidies_of_leaves {handler : Run α} (leaves : LeavesLog handler r) (tidy : r.Tidy []) :
    Tidies handler r :=
  leaves.imp fun _ _ _ _ same => same.tidy tidy

/-- Two parts, one after the other. -/
theorem tidies_bind {first : Run β} {next : β → Run α} (before : Tidies first r)
    (after : ∀ value r', r'.Tidy [] → Tidies (next value) r') : Tidies (first >>= next) r :=
  .bind (before.imp fun value _ r' _ tidy _ => after value r' tidy)

/-- The operation is appended with its gap, and the gaps that follow it after it. -/
theorem processNextOperation_tidies {request : Request} {vs : Viewstamp} {state : LogEntryState}
    (tidy : r.Tidy []) : Tidies (processNextOperation setup app request vs state) r :=
  (processNextOperation_ensures tidy.toOrderly).imp fun _ _ _ _ ensured => ensured.1

/-- Every gap of the list is a NOOP of the log, or lies beyond it. -/
theorem installCommittedGaps_tidies {gaps : List Nat} (tidy : r.Tidy []) :
    Tidies (installCommittedGaps setup app gaps) r :=
  installCommittedGaps_ensures (tidy.weaken (gaps ++ []))

/-- Gaps beyond the log are forgotten. -/
theorem Replica.Tidy.changing (tidy : r.Tidy []) (newsessnum newview : Nat) :
    (r.changing newsessnum newview).Tidy [] where
  lastOp := tidy.lastOp
  committed := tidy.committed
  executed := tidy.executed
  gap opnum entry found member := tidy.gap opnum entry found (OpnumSet.mem_upTo.mp member).1
  noop opnum entry found noop := by
    have member := (tidy.noop opnum entry found noop).resolve_right List.not_mem_nil
    refine .inl (OpnumSet.mem_upTo.mpr ⟨member, Nat.le_of_not_lt fun beyond => ?_⟩)
    have nothing := tidy.toOrderly.find_beyond beyond
    exact Option.some_ne_none entry (found.symm.trans nothing)
  next member := by
    have := (OpnumSet.mem_upTo.mp member).2
    change r.lastOp + 1 ≤ r.lastOp at this
    omega

/-- A view change forgets the gaps beyond the log, and keeps the log. -/
theorem startViewChange_tidies {newsessnum newview : Nat} (tidy : r.Tidy []) :
    Tidies (startViewChange setup newsessnum newview) r := by
  refine .bind (.get trivial fun _ => .bind (.require trivial fun _ _ => ?_))
  refine .bind (.change trivial fun _ => ?_)
  exact tidies_of_leaves sendViewChange_leaves (tidy.changing _ _)

/-- A message of a newer view makes the replica leave its own. -/
theorem checkViewNumAndStatus_tidies {sessnum view : Nat} (tidy : r.Tidy []) :
    Tidies (checkViewNumAndStatus setup sessnum view) r := by
  refine .bind (.get trivial fun _ => .branch (fun _ => .pure trivial tidy) fun _ => ?_)
  refine .branch (fun _ => ?_) fun _ => ?_
  · exact tidies_bind (startViewChange_tidies tidy) fun _ _ tidy => .pure trivial tidy
  · exact .branch (fun _ => .pure trivial tidy) fun _ => .pure trivial tidy

/-- A handler that first finds out whether a message is of the current view. -/
theorem tidies_check {sessnum view : Nat} {handler : Run Unit} (tidy : r.Tidy [])
    (current : ∀ r' : Replica, r'.Tidy [] → Tidies handler r') :
    Tidies (do
      let current ← checkViewNumAndStatus setup sessnum view
      if current then handler else pure ()) r := by
  refine tidies_bind (checkViewNumAndStatus_tidies tidy) fun value r' tidy => ?_
  exact .branch (fun _ => current r' tidy) fun _ => .pure trivial tidy

/-- A request that is next is appended with its own state. -/
theorem tryProcessClientRequest_tidies {msg : RequestMessage} (tidy : r.Tidy []) :
    Tidies (tryProcessClientRequest setup app msg) r := by
  refine .bind (.get trivial fun _ => .branch (fun _ => .pure trivial tidy) fun _ => ?_)
  refine .branch (fun _ => .pure trivial tidy) fun _ => .branch (fun _ => ?_) fun _ => ?_
  · exact tidies_bind (startViewChange_tidies tidy) fun _ _ tidy => .pure trivial tidy
  refine .branch (fun _ => .pure trivial tidy) fun _ => .branch (fun _ => ?_) fun _ => ?_
  · refine .branch (fun _ => .pure trivial tidy) fun _ => .bind (.change trivial fun _ => ?_)
    exact .pure trivial (tidy.frame rfl rfl rfl rfl rfl)
  · exact tidies_bind (processNextOperation_tidies tidy) fun _ _ tidy => .pure trivial tidy

/-- The requests that have waited are appended one after the other. -/
theorem processPending_tidies {rounds : Nat} (tidy : r.Tidy []) :
    Tidies (processPending setup app rounds) r := by
  induction rounds generalizing r with
  | zero => exact .pure trivial tidy
  | succ rounds inductionHypothesis =>
      refine .bind (.get trivial fun _ => ?_)
      split
      next => exact .pure trivial tidy
      next msg _ =>
          refine tidies_bind (tryProcessClientRequest_tidies tidy) fun value r' tidy => ?_
          refine .branch (fun _ => .bind (.change trivial fun _ => ?_)) fun _ => .pure trivial tidy
          exact inductionHypothesis (tidy.frame rfl rfl rfl rfl rfl)

/-- The set of the pending requests is no part of the log. -/
theorem processPendingRequests_tidies (tidy : r.Tidy []) :
    Tidies (processPendingRequests setup app) r :=
  .bind (.get trivial fun _ =>
    .branch (fun _ => .pure trivial tidy) fun _ => processPending_tidies tidy)

/-- A request that has to wait is not in the log yet. -/
theorem addPendingRequest_same (r : Replica) (msg : RequestMessage) :
    r.SameLog (r.addPendingRequest msg) := by
  unfold Replica.addPendingRequest
  split <;> exact ⟨rfl, rfl, rfl, id, id⟩

/-- A client's request is processed at once, or waits. -/
theorem handleClientRequest_tidies {remote : Address} {msg : RequestMessage} (tidy : r.Tidy []) :
    Tidies (handleClientRequest setup app remote msg) r := by
  refine .bind (.change trivial fun _ => .bind (.require trivial fun _ _ => ?_))
  refine tidies_bind (tryProcessClientRequest_tidies
    (tidy.frame rfl rfl rfl rfl rfl)) fun _ r' tidy => ?_
  refine .branch (fun _ => .pure trivial tidy) fun _ => .change trivial ?_
  exact (addPendingRequest_same r' msg).tidy tidy

/-- The leader appends a NOOP and its gap together. -/
theorem startGapAgreement_tidies (tidy : r.Tidy []) : Tidies (startGapAgreement setup app) r := by
  refine .bind (.get trivial fun _ => .bind (.require trivial fun _ _ => ?_))
  refine .bind (.change trivial fun _ => ?_)
  refine tidies_bind (processNextOperation_tidies
    (tidy.frame rfl rfl rfl rfl rfl)) fun _ _ tidy => ?_
  exact tidies_of_leaves sendGapCommit_leaves tidy

/-- A gap request is answered from the log. -/
theorem handleGapRequest_tidies {remote : Address} {msg : GapRequestMessage} (tidy : r.Tidy []) :
    Tidies (handleGapRequest setup remote msg) r := by
  refine tidies_check tidy fun r' tidy => tidies_of_leaves ?_ tidy
  refine leaves_bind get_leaves fun _ _ => leaves_bind demand_leaves fun _ _ => ?_
  exact .branch (fun _ => sendMessage_leaves) fun _ => pure_leaves

/-- The operation that was missing is appended, as a request or as a gap. -/
theorem handleGapReply_tidies {msg : GapReplyMessage} (tidy : r.Tidy []) :
    Tidies (handleGapReply setup app msg) r := by
  refine tidies_check tidy fun r' tidy => .bind (.get trivial fun _ => ?_)
  refine .branch (fun _ => .pure trivial tidy) fun _ => ?_
  refine .branch (fun _ => .require trivial fun _ => tidy) fun _ => ?_
  refine .branch (fun _ => processNextOperation_tidies tidy) fun _ => ?_
  refine .branch (fun _ => .bind (.change trivial fun _ => ?_)) fun _ => .pure trivial tidy
  split
  next => exact .pure trivial (tidy.frame rfl rfl rfl rfl rfl)
  next => exact startGapAgreement_tidies (tidy.frame rfl rfl rfl rfl rfl)

/-- An entry that becomes a NOOP becomes a gap in the same step. -/
theorem commitGap_tidies {msg : GapCommitMessage} (tidy : r.Tidy []) :
    Tidies (commitGap setup app msg) r := by
  refine .bind (.get trivial fun _ => .branch (fun inside => ?_) fun _ => ?_)
  · refine .change trivial ⟨(tidy.weaken [msg.opnum]).toOrderly.overwrite
      (OpnumSet.mem_insert.mpr (.inl rfl)) rfl rfl ?_ rfl rfl, ?_⟩
    · intro other different
      exact OpnumSet.mem_insert.trans (or_iff_right different)
    · intro waiting
      rcases OpnumSet.mem_insert.mp waiting with isGap | old
      · change r.lastOp + 1 = msg.opnum at isGap
        omega
      · exact tidy.next old
  · exact .bind (.require trivial fun _ _ => processNextOperation_tidies tidy)

/-- A gap beyond the log is recorded before there is an entry. -/
theorem handleGapCommit_tidies {remote : Address} {msg : GapCommitMessage} (tidy : r.Tidy []) :
    Tidies (handleGapCommit setup app remote msg) r := by
  refine tidies_check tidy fun r' tidy => .bind (.get trivial fun _ => ?_)
  refine .bind (.require trivial fun _ _ => .branch (fun beyond => ?_) fun _ => ?_)
  · refine .change trivial ⟨(tidy.weaken [msg.opnum]).toOrderly.record fun entry found => ?_, ?_⟩
    · rw [tidy.toOrderly.find_beyond (by omega)] at found
      simp at found
    · intro waiting
      rcases OpnumSet.mem_insert.mp waiting with isGap | old
      · change r'.lastOp + 1 = msg.opnum at isGap
        omega
      · exact tidy.next old
  · refine tidies_bind (commitGap_tidies tidy) fun _ _ tidy => tidies_of_leaves ?_ tidy
    exact leaves_bind get_leaves fun _ _ => sendMessage_leaves

/-- Counting a reply leaves the log alone. -/
theorem handleGapCommitReply_tidies {msg : GapCommitReplyMessage} (tidy : r.Tidy []) :
    Tidies (handleGapCommitReply setup msg) r := by
  refine tidies_check tidy fun r' tidy => tidies_of_leaves ?_ tidy
  refine leaves_bind get_leaves fun _ r' => .branch (fun _ => pure_leaves) fun _ => ?_
  refine .branch (fun _ => ?_) fun _ => pure_leaves
  refine leaves_bind (change_leaves ⟨rfl, rfl, rfl, id, id⟩) fun _ r' => ?_
  split
  next => exact pure_leaves
  next =>
      refine leaves_bind (.emit trivial trivial (.refl r')) fun _ _ => ?_
      exact change_leaves ⟨rfl, rfl, rfl, id, id⟩

/-- The entries that are sent stay in the log. -/
theorem handleStateTransferRequest_leaves {remote : Address} {msg : StateTransferRequestMessage} :
    LeavesLog (handleStateTransferRequest remote msg) r := by
  refine leaves_bind get_leaves fun _ _ => .branch (fun _ => pure_leaves) fun _ => ?_
  refine .branch (fun _ => pure_leaves) fun _ => ?_
  exact leaves_bind demand_leaves fun _ _ => sendMessage_leaves

/-- Every entry of the reply is appended as the next operation. -/
theorem handleStateTransferReply_tidies {msg : StateTransferReplyMessage} (tidy : r.Tidy []) :
    Tidies (handleStateTransferReply setup app msg) r := by
  refine .bind (.get trivial fun _ => .branch (fun _ => .pure trivial tidy) fun _ => ?_)
  refine .branch (fun _ => .pure trivial tidy) fun _ => ?_
  refine .bind (.demand trivial fun first _ _ => .bind (.demand trivial fun last _ _ => ?_))
  refine .bind (.require trivial fun _ _ => .bind (.require trivial fun _ _ => ?_))
  refine .bind (.require trivial fun _ _ => ?_)
  refine .forEach (fun _ (r' : Replica) => r'.Tidy []) ?_ trivial tidy
  intro entry _ _ r' _ tidy
  refine .bind (.get trivial fun _ => .bind (.require trivial fun _ _ => ?_))
  exact processNextOperation_tidies tidy

/-- A newer view starts a view change. -/
theorem handleViewChangeRequest_tidies {msg : ViewChangeRequestMessage} (tidy : r.Tidy []) :
    Tidies (handleViewChangeRequest setup msg) r :=
  .bind (.get trivial fun _ =>
    .branch (fun _ => startViewChange_tidies tidy) fun _ => .pure trivial tidy)

/-- The gaps of each vote become NOOPs of the log, or lie beyond it. -/
theorem mergeLogs_tidies {latest : Latest} {latestOp : Nat} {latestOpReplicaIdx : Option Nat}
    {msgs : List ViewChangeMessage} (tidy : r.Tidy []) :
    Tidies (mergeLogs setup app latest latestOp latestOpReplicaIdx msgs) r := by
  induction msgs generalizing r latestOp latestOpReplicaIdx with
  | nil => exact .pure trivial tidy
  | cons msg rest inductionHypothesis =>
      refine .bind (.require trivial fun _ _ => .bind (.require trivial fun _ _ => ?_))
      refine .branch (fun _ => ?_) fun _ => inductionHypothesis tidy
      refine tidies_bind (installCommittedGaps_tidies tidy) fun _ _ tidy => ?_
      refine .bind (.get trivial fun _ => .bind (.require trivial fun _ _ => ?_))
      exact .branch (fun _ => inductionHypothesis tidy) fun _ => inductionHypothesis tidy

/-- The leader enters the view, or asks for what its log lacks. -/
theorem completeMerge_leaves {latest : Latest} {latestOp : Nat} {latestOpReplicaIdx : Option Nat} :
    LeavesLog (completeMerge setup app latest latestOp latestOpReplicaIdx) r := by
  refine leaves_bind get_leaves fun _ _ => leaves_bind require_leaves fun _ _ => ?_
  refine leaves_bind (change_leaves ⟨rfl, rfl, rfl, id, id⟩) fun _ _ => ?_
  split
  next =>
      refine leaves_bind require_leaves fun _ _ => ?_
      refine leaves_bind (change_leaves ⟨rfl, rfl, rfl, id, id⟩) fun _ r' => ?_
      refine leaves_bind (.emit trivial trivial (.refl r')) fun _ _ => ?_
      exact sendStateTransferRequest_leaves
  next => exact leaves_bind require_leaves fun _ _ => enterView_leaves

/-- The leader commits what the view has started with. -/
theorem handleStartViewReply_leaves {msg : StartViewReplyMessage} :
    LeavesLog (handleStartViewReply setup app msg) r := by
  refine leaves_bind get_leaves fun _ _ => .branch (fun _ => pure_leaves) fun _ => ?_
  refine leaves_bind require_leaves fun _ _ => leaves_bind require_leaves fun _ _ => ?_
  refine .branch (fun _ => ?_) fun _ => pure_leaves
  refine leaves_bind (change_leaves ⟨rfl, rfl, rfl, id, id⟩) fun _ _ => ?_
  split
  next => exact pure_leaves
  next =>
      refine leaves_bind commitUptoOp_leaves fun _ _ => ?_
      exact change_leaves ⟨rfl, rfl, rfl, id, id⟩

/-- A follower replies, or asks for what its log lacks. -/
theorem completeSyncPrepare_leaves {msg : SyncPrepareMessage} :
    LeavesLog (completeSyncPrepare setup app msg) r := by
  refine leaves_bind get_leaves fun _ _ => .branch (fun _ => ?_) fun _ => processSyncPrepare_leaves
  refine leaves_bind (change_leaves ⟨rfl, rfl, rfl, id, id⟩) fun _ r' => ?_
  refine leaves_bind (.emit trivial trivial (.refl r')) fun _ _ => ?_
  exact .branch (fun _ => sendStateTransferRequest_leaves) fun _ => pure_leaves

/-- The gaps that are agreed on are entered before the follower replies. -/
theorem handleSyncPrepare_tidies {msg : SyncPrepareMessage} (tidy : r.Tidy []) :
    Tidies (handleSyncPrepare setup app msg) r := by
  refine tidies_check tidy fun r' tidy => .bind (.change trivial fun _ => ?_)
  refine .bind (.get trivial fun _ => .branch (fun _ => ?_) fun _ => ?_)
  · exact .pure trivial (tidy.frame rfl rfl rfl rfl rfl)
  refine .bind (.require trivial fun _ _ => .bind (.require trivial fun _ _ => ?_))
  refine .bind (.change trivial fun _ => ?_)
  refine tidies_bind (installCommittedGaps_tidies
    (tidy.frame rfl rfl rfl rfl rfl)) fun _ _ tidy => ?_
  exact tidies_of_leaves completeSyncPrepare_leaves tidy

/-- The leader commits up to the sync point. -/
theorem handleSyncPrepareReply_tidies {msg : SyncPrepareReplyMessage} (tidy : r.Tidy []) :
    Tidies (handleSyncPrepareReply setup app msg) r := by
  refine tidies_check tidy fun r' tidy => tidies_of_leaves ?_ tidy
  refine leaves_bind get_leaves fun _ _ => leaves_bind require_leaves fun _ _ => ?_
  refine .branch (fun _ => pure_leaves) fun _ => .branch (fun _ => pure_leaves) fun _ => ?_
  refine leaves_bind (change_leaves ⟨rfl, rfl, rfl, id, id⟩) fun _ _ => ?_
  split
  next => exact pure_leaves
  next => exact commitUptoOp_leaves

/-- A follower commits up to the sync point. -/
theorem handleSyncCommit_tidies {msg : SyncCommitMessage} (tidy : r.Tidy []) :
    Tidies (handleSyncCommit setup app msg) r := by
  refine tidies_check tidy fun r' tidy => tidies_of_leaves ?_ tidy
  refine leaves_bind get_leaves fun _ _ => leaves_bind require_leaves fun _ _ => ?_
  refine .branch (fun _ => pure_leaves) fun _ => leaves_bind require_leaves fun _ _ => ?_
  refine leaves_bind (change_leaves ⟨rfl, rfl, rfl, id, id⟩) fun _ _ => ?_
  refine .branch (fun _ => .branch (fun _ => ?_) fun _ => pure_leaves) fun _ => ?_
  · refine leaves_bind commitUptoOp_leaves fun _ _ => ?_
    exact change_leaves ⟨rfl, rfl, rfl, id, id⟩
  · exact sendToReplica_leaves

/-- What a timeout sends again leaves the log alone, and what it starts anew keeps it in order. -/
theorem fireTimer_tidies {timer : Timer} (tidy : r.Tidy []) :
    Tidies (fireTimer setup app timer) r := by
  cases timer with
  | startGapRequest =>
      refine tidies_of_leaves ?_ tidy
      exact leaves_bind (change_leaves ⟨rfl, rfl, rfl, id, id⟩) fun _ _ => sendGapRequest_leaves
  | gapRequest =>
      refine .bind (.get trivial fun _ => .branch (fun _ => startGapAgreement_tidies tidy) fun _ => ?_)
      exact tidies_of_leaves sendGapRequest_leaves tidy
  | gapCommit => exact tidies_of_leaves sendGapCommit_leaves tidy
  | viewChange => exact tidies_of_leaves sendViewChange_leaves tidy
  | stateTransfer => exact tidies_of_leaves sendStateTransferRequest_leaves tidy
  | startView => exact tidies_of_leaves sendStartView_leaves tidy
  | sync => exact tidies_of_leaves sendSyncPrepare_leaves tidy
  | leaderSyncHeard => exact .bind (.get trivial fun _ => startViewChange_tidies tidy)

end Handlers

end PaxosBus.NoPaxos

import PaxosBus.Library.Returning
import PaxosBus.NoPaxos.Tracing

/-!
# Handlers that return

Where the log has an entry for every operation up to the last one, the replica
executes and commits without failing, enters a view, and puts in the next
operation with all gaps that follow it. The state transfer that ends on the way
must have been started as the handlers start one.
-/

set_option autoImplicit false

namespace PaxosBus.NoPaxos

open PaxosBus.Common PaxosBus.Library
open Handler (Returns)

variable {setup : Setup} {app : App} {r : Replica}

/-! ## Execution -/

/-- What changes neither the core nor how far the replica has executed. -/
def Replica.Stays (r r' : Replica) : Prop :=
  r'.core = r.core ∧ r'.lastExecutedOp = r.lastExecutedOp

/-- `UpdateClientTable` does not panic unless the table knows a later request. -/
theorem updateClientTable_returns {req : Request} {reply : String}
    (newer : (r.tableEntry req.clientid).lastReqId ≤ req.clientreqid) :
    (updateClientTable setup req reply).Returns r fun _ r' => r.Stays r' := by
  apply Returns.get_bind
  apply Returns.require_bind newer
  apply Returns.branch
  · exact fun _ => Handler.returns_modify.mpr ⟨rfl, rfl⟩
  · intro _
    apply Returns.branch
    · exact fun _ => Handler.returns_modify.mpr ⟨rfl, rfl⟩
    · exact fun _ => Handler.returns_modify.mpr ⟨rfl, rfl⟩

/-- Sending the reply cannot fail. -/
theorem replyExecuted_returns {op : Nat} {entry : Entry} {reply : String} :
    (replyExecuted setup op entry reply).Returns r fun _ r' => r' = r := by
  apply Returns.get_bind
  apply Returns.branch
  · intro _
    split
    next => exact Handler.returns_emit.mpr rfl
    next => exact Returns.pure rfl
  · exact fun _ => Returns.pure rfl

/-- A request that the table does not know a later one of is executed. -/
theorem executeNew_returns {op : Nat} {entry : Entry}
    (newer : (r.tableEntry entry.request.clientid).lastReqId ≤ entry.request.clientreqid) :
    (executeNew setup app op entry).Returns r fun _ r' => r.Stays r' := by
  apply Returns.get_bind
  apply Returns.emit_bind
  apply Returns.bind (updateClientTable_returns newer)
  intro _ r1 stays
  exact replyExecuted_returns.imp fun _ r2 same => same ▸ stays

/-- Answering again cannot fail. -/
theorem answerAgain_returns {op : Nat} {entry : Entry} {reply : String} :
    (answerAgain setup op entry reply).Returns r fun _ r' => r' = r :=
  Returns.emit_bind replyExecuted_returns

/-- The next operation is executed where there is one. -/
theorem executeNext_returns (whole : r.core.Whole) (room : r.lastExecutedOp < r.lastOp) :
    (executeNext setup app).Returns r fun _ r' =>
      r'.core = r.core ∧ r'.lastExecutedOp = r.lastExecutedOp + 1 := by
  have inside : r.lastExecutedOp < r.log.entries.length := by
    have length : r.log.entries.length = r.lastOp := whole
    omega
  have found : r.log.find (r.lastExecutedOp + 1) = some r.log.entries[r.lastExecutedOp] :=
    Log.find_eq_some.mpr ⟨Nat.succ_pos _, List.getElem?_eq_getElem inside⟩
  apply Returns.get_bind
  apply Returns.require_bind room
  apply Returns.demand_bind found
  apply Returns.modify_bind
  apply Returns.branch
  · intro _
    split
    next unknown =>
        refine (executeNew_returns ?_).imp fun _ r' stays => stays
        have fresh : ({ r with lastExecutedOp := r.lastExecutedOp + 1 } : Replica).tableEntry
            r.log.entries[r.lastExecutedOp].request.clientid = {} := by
          simp [Replica.tableEntry, unknown]
        rw [fresh]
        exact Nat.zero_le _
    next last known =>
        apply Returns.branch
        · exact fun _ => Returns.pure ⟨rfl, rfl⟩
        · intro notOlder
          apply Returns.branch
          · exact fun _ => answerAgain_returns.imp fun _ r' same => same ▸ ⟨rfl, rfl⟩
          · intro _
            refine (executeNew_returns ?_).imp fun _ r' stays => stays
            simp only [Replica.tableEntry, known, Option.getD_some]
            exact Nat.not_lt.mp notOlder
  · exact fun _ => Returns.pure ⟨rfl, rfl⟩

/-- Execution reaches the operation if the log is whole and has it. -/
theorem executeUptoOp_returns {opnum : Nat} (whole : r.core.Whole) (inside : opnum ≤ r.lastOp) :
    (executeUptoOp setup app opnum).Returns r fun _ r' =>
      r'.core = r.core ∧ r'.lastExecutedOp = max r.lastExecutedOp opnum := by
  apply Returns.get_bind
  apply Returns.branch
  · intro done
    exact Returns.pure ⟨rfl, (Nat.max_eq_left done).symm⟩
  · intro more
    apply Returns.require_bind inside
    have loop : (Handler.repeated (opnum - r.lastExecutedOp) (executeNext setup app)).Returns r
        fun _ r' => r'.core = r.core ∧ r'.lastExecutedOp + 0 = opnum := by
      apply Returns.repeated fun rounds (r' : Replica) =>
        r'.core = r.core ∧ r'.lastExecutedOp + rounds = opnum
      · intro rounds r1 ⟨core, left⟩
        have lastOp : r1.lastOp = r.lastOp := congrArg Core.lastOp core
        have whole1 : r1.core.Whole := core ▸ whole
        refine (executeNext_returns whole1 (by omega)).imp fun _ r2 ⟨core2, executed⟩ => ?_
        exact ⟨core2.trans core, by omega⟩
      · exact ⟨rfl, by omega⟩
    exact loop.imp fun _ r' ⟨core, executed⟩ => ⟨core, by omega⟩

/-- The replica commits up to the operation if the log is whole and has it. -/
theorem commitUptoOp_returns {opnum : Nat} (whole : r.core.Whole) (inside : opnum ≤ r.lastOp) :
    (commitUptoOp setup app opnum).Returns r fun _ r' =>
      r'.core = { r.core with lastCommittedOp := max r.lastCommittedOp opnum } ∧
        r.lastExecutedOp ≤ r'.lastExecutedOp := by
  apply Returns.get_bind
  apply Returns.branch
  · intro done
    apply Returns.pure
    rw [Nat.max_eq_left done]
    exact ⟨rfl, le_rfl⟩
  · intro more
    apply Returns.require_bind inside
    apply Returns.modify_bind
    let committed : Replica := { r with lastCommittedOp := opnum }
    have executes : (executeUptoOp setup app opnum).Returns committed fun _ r' =>
        r'.core = { r.core with lastCommittedOp := max r.lastCommittedOp opnum } ∧
          r.lastExecutedOp ≤ r'.lastExecutedOp := by
      have whole1 : committed.core.Whole := whole
      rw [Nat.max_eq_right (Nat.not_le.mp more).le]
      exact (executeUptoOp_returns whole1 inside).imp fun _ r' ⟨core, executed⟩ =>
        ⟨core, (Nat.le_max_left _ _).trans executed.ge⟩
    apply Returns.branch
    · intro leader
      have sent : (sendSyncCommit setup).Returns committed fun _ r' => r' = committed :=
        .get_bind (.require_bind leader (Handler.returns_emit.mpr rfl))
      exact sent.bind fun _ _ same => same ▸ executes
    · exact fun _ => executes

/-! ## Entering a view -/

/-- What the leader adds when it enters a view. -/
def Core.leading (c : Core) : Core :=
  { c with leaderLastSyncPreparePoint := c.lastOp, startViewTimeout := true }

/-- The leader enters its view if the sync point is in the log, as the assertion asks. -/
theorem leadView_returns (whole : r.core.Whole) (point : r.leaderLastSyncPreparePoint ≤ r.lastOp)
    (leader : setup.AmLeader r.view) :
    (leadView setup app).Returns r fun _ r' =>
      r'.core = r.core.leading ∧ r.lastExecutedOp ≤ r'.lastExecutedOp := by
  apply Returns.get_bind
  apply (executeUptoOp_returns whole le_rfl).bind
  rintro _ r1 ⟨core, executed⟩
  have lastOp : r1.lastOp = r.lastOp := congrArg Core.lastOp core
  have point1 : r1.leaderLastSyncPreparePoint = r.leaderLastSyncPreparePoint :=
    congrArg Core.leaderLastSyncPreparePoint core
  have view : r1.view = r.view := congrArg Core.view core
  apply Returns.modify_bind
  apply Returns.get_bind
  apply Returns.require_bind (point1.trans_le (point.trans lastOp.ge))
  apply Returns.modify_bind
  apply Returns.get_bind
  apply Returns.require_bind (view ▸ leader)
  apply Returns.emit_bind
  apply Handler.returns_modify.mpr
  constructor
  · change r1.core.leading = r.core.leading
    rw [core]
  · exact (Nat.le_max_left _ _).trans executed.ge

/-- A follower enters its view if its status is normal by then. -/
theorem followView_returns (follower : ¬ setup.AmLeader r.view) (status : r.status = .normal) :
    (followView setup).Returns r fun _ r' => r.Stays r' := by
  apply Returns.modify_bind
  apply Returns.get_bind
  apply Returns.require_bind follower
  apply Returns.require_bind (by simp [status])
  exact Handler.returns_emit.mpr ⟨rfl, rfl⟩

/-- A replica with a whole log enters any session and view that is not earlier than its own. -/
theorem enterView_returns {newsessnum newview : Nat} (whole : r.core.Whole)
    (point : r.leaderLastSyncPreparePoint ≤ r.lastOp) (sessnum : r.sessnum ≤ newsessnum)
    (view : r.view ≤ newview) :
    (enterView setup app newsessnum newview).Returns r fun _ r' =>
      r'.core = (if setup.AmLeader newview then (r.core.entering newsessnum newview).leading
        else r.core.entering newsessnum newview) ∧
      r.lastExecutedOp ≤ r'.lastExecutedOp := by
  apply Returns.get_bind
  apply Returns.emit_bind
  apply Returns.require_bind sessnum
  apply Returns.require_bind view
  apply Returns.emit_bind
  apply Returns.modify_bind
  have core : (r.entering newsessnum newview).clearTimeoutAndQuorums.core =
      r.core.entering newsessnum newview := rfl
  apply Returns.branch
  · intro leader
    rw [if_pos leader, ← core]
    exact leadView_returns whole point leader
  · intro follower
    rw [if_neg follower, ← core]
    exact (followView_returns follower rfl).imp fun _ r' ⟨same, executed⟩ => ⟨same, executed.ge⟩

/-- A follower with a whole log processes a sync point that it has reached. -/
theorem processSyncPrepare_returns {syncpoint : Nat} (whole : r.core.Whole)
    (follower : ¬ setup.AmLeader r.view) (inside : syncpoint ≤ r.lastOp) :
    (processSyncPrepare setup app syncpoint).Returns r fun _ r' =>
      r'.core = { r.core with lastCommittedOp := r'.lastCommittedOp } ∧
        r.lastCommittedOp ≤ r'.lastCommittedOp ∧ r.lastExecutedOp ≤ r'.lastExecutedOp := by
  apply Returns.get_bind
  apply Returns.require_bind follower
  apply Returns.branch
  · intro _
    apply (commitUptoOp_returns whole inside).bind
    rintro _ r1 ⟨core, executed⟩
    have committed : r1.lastCommittedOp = max r.lastCommittedOp syncpoint :=
      congrArg Core.lastCommittedOp core
    apply Handler.returns_modify.mpr
    refine ⟨?_, ?_, executed⟩
    · change r1.core = { r.core with lastCommittedOp := r1.core.lastCommittedOp }
      rw [core]
    · exact (Nat.le_max_left _ _).trans committed.ge
  · intro _
    exact Handler.returns_emit.mpr ⟨rfl, le_rfl, le_rfl⟩

/-! ## Operations -/

/-- What the callback of a state transfer relies on. -/
def Core.Awaits (setup : Setup) (c : Core) : Prop :=
  match c.stateTransferCallback with
  | .unset => False
  | .enterView => True
  | .processSyncPrepare syncpoint =>
    syncpoint + 1 = c.stateTransferOpEnd ∧ ¬ setup.AmLeader c.view

/-- The log is whole, and whatever state transfer is running has been started by a handler. -/
structure Core.Sturdy (setup : Setup) (c : Core) : Prop where
  whole : c.Whole
  point : c.leaderLastSyncPreparePoint ≤ c.lastOp
  awaits : 0 < c.stateTransferOpEnd → c.Awaits setup

/-- What is committed and executed stays so. -/
structure Replica.Progresses (r r' : Replica) : Prop where
  committed : r.lastCommittedOp ≤ r'.lastCommittedOp
  executed : r.lastExecutedOp ≤ r'.lastExecutedOp

/-- Progress adds up. -/
theorem Replica.Progresses.trans {r' r'' : Replica} (first : r.Progresses r')
    (second : r'.Progresses r'') : r.Progresses r'' :=
  ⟨first.committed.trans second.committed, first.executed.trans second.executed⟩

/-- A replica that enters a session and view keeps its log. -/
theorem Core.Sturdy.entering {c : Core} (sturdy : c.Sturdy setup) (sessnum view : Nat) :
    (c.entering sessnum view).Sturdy setup where
  whole := sturdy.whole
  point := sturdy.point
  awaits pending := absurd pending (Nat.lt_irrefl 0)

/-- The leader sets its sync point to the end of its log. -/
theorem Core.Sturdy.leading {c : Core} (sturdy : c.Sturdy setup) : c.leading.Sturdy setup where
  whole := sturdy.whole
  point := le_rfl
  awaits := sturdy.awaits

/-- The callback of a state transfer that ends with the last operation returns. -/
theorem completeStateTransfer_returns (sturdy : r.core.Sturdy setup)
    (reached : r.lastOp = r.stateTransferOpEnd) (positive : 0 < r.stateTransferOpEnd) :
    (completeStateTransfer setup app).Returns r fun _ r' =>
      r'.core.Sturdy setup ∧ r.SameOps r' ∧ r.Progresses r' := by
  have awaits : r.core.Awaits setup := sturdy.awaits positive
  unfold Core.Awaits at awaits
  apply Returns.get_bind
  cases callback : r.stateTransferCallback with
  | unset =>
      rw [show r.core.stateTransferCallback = .unset from callback] at awaits
      exact awaits.elim
  | enterView =>
      apply (enterView_returns sturdy.whole sturdy.point le_rfl le_rfl).imp
      rintro _ r' ⟨core, executed⟩
      have enters : r'.core.Sturdy setup ∧ r'.core.pair = r.core.pair ∧
          r'.core.lastOp = r.core.lastOp ∧ r'.core.log = r.core.log ∧
          r'.core.committedGaps = r.core.committedGaps ∧
          r'.core.lastCommittedOp = r.core.lastCommittedOp := by
        rw [core]
        split
        next => exact ⟨(sturdy.entering _ _).leading, rfl, rfl, rfl, rfl, rfl⟩
        next => exact ⟨sturdy.entering _ _, rfl, rfl, rfl, rfl, rfl⟩
      obtain ⟨sturdy', pair, lastOp, log, committedGaps, committed⟩ := enters
      exact ⟨sturdy', ⟨congrArg Prod.fst pair, congrArg Prod.snd pair, lastOp, log, committedGaps⟩,
        committed.ge, executed⟩
  | processSyncPrepare syncpoint =>
      rw [show r.core.stateTransferCallback = .processSyncPrepare syncpoint from callback] at awaits
      obtain ⟨last, follower⟩ := awaits
      have inside : syncpoint ≤ r.lastOp := by
        change syncpoint + 1 = r.stateTransferOpEnd at last
        omega
      apply (processSyncPrepare_returns sturdy.whole follower inside).imp
      rintro _ r' ⟨core, committed, executed⟩
      refine ⟨?_, ⟨congrArg Core.sessnum core, congrArg Core.view core, congrArg Core.lastOp core,
        congrArg Core.log core, congrArg Core.committedGaps core⟩, committed, executed⟩
      rw [core]
      exact ⟨sturdy.whole, sturdy.point, sturdy.awaits⟩

/-- A log takes the next entry. -/
theorem Log.exists_append {log : Log} {vs : Viewstamp} (next : vs.opnum = log.entries.length + 1)
    (request : Request) (state : LogEntryState) :
    ∃ longer, log.append vs request state = some longer := by
  unfold Log.append
  rw [dif_pos (by rwa [Log.lastOpnum_eq])]
  exact ⟨_, rfl⟩

section Operations

variable {request : Request} {vs : Viewstamp} {state : LogEntryState}

/-- What follows from the state of the operation leaves the log alone. -/
theorem acknowledgeOperation_returns (whole : r.core.Whole) (last : vs.opnum = r.lastOp) :
    (acknowledgeOperation setup app request vs state).Returns r fun _ r' =>
      r'.core = { r.core with
        committedGaps := if state = .noop then r.committedGaps.insert vs.opnum
          else r.committedGaps } ∧
      r.lastExecutedOp ≤ r'.lastExecutedOp ∧
      (state = .noop → r'.lastExecutedOp = r.lastExecutedOp) := by
  apply Returns.get_bind
  apply Returns.branch
  · intro noop
    rw [if_pos noop, last]
    exact Handler.returns_modify.mpr ⟨rfl, le_rfl, fun _ => rfl⟩
  · intro kept
    rw [if_neg kept]
    have unchanged : ∀ {r' : Replica}, r' = r → r'.core = r.core ∧
        r.lastExecutedOp ≤ r'.lastExecutedOp ∧
        (state = .noop → r'.lastExecutedOp = r.lastExecutedOp) :=
      fun same => same ▸ ⟨rfl, le_rfl, fun _ => rfl⟩
    apply Returns.branch
    · intro _
      apply Returns.branch
      · intro _
        apply (executeUptoOp_returns whole last.le).imp
        rintro _ r' ⟨core, executed⟩
        exact ⟨core, (Nat.le_max_left _ _).trans executed.ge, fun noop => absurd noop kept⟩
      · intro _
        split
        next => exact Handler.returns_emit.mpr (unchanged rfl)
        next => exact Returns.pure (unchanged rfl)
    · exact fun _ => Returns.pure (unchanged rfl)

/-- No state transfer is running, and nothing gets committed or executed. -/
structure Replica.Calm (r r' : Replica) : Prop where
  ended : r'.stateTransferOpEnd = 0
  status : r'.status = r.status
  committed : r'.lastCommittedOp = r.lastCommittedOp
  executed : r'.lastExecutedOp = r.lastExecutedOp

theorem Replica.Calm.trans {r' r'' : Replica} (first : r.Calm r') (second : r'.Calm r'') :
    r.Calm r'' :=
  ⟨second.ended, second.status.trans first.status, second.committed.trans first.committed,
    second.executed.trans first.executed⟩

/-- The replica has put more entries into the log, and nothing else. -/
structure Replica.Grows (setup : Setup) (r : Replica) (more : List Entry) (r' : Replica) : Prop where
  sturdy : r'.core.Sturdy setup
  sessnum : r'.sessnum = r.sessnum
  view : r'.view = r.view
  entries : r'.log.entries = r.log.entries ++ more
  gaps : ∀ gap, gap ∈ r'.committedGaps ↔ gap ∈ r.committedGaps ∨
    ∃ entry ∈ more, entry.viewstamp.opnum = gap ∧ entry.state = .noop
  progresses : r.Progresses r'
  calm : r.stateTransferOpEnd = 0 → (∀ entry ∈ more, entry.state = .noop) → r.Calm r'

theorem Replica.Grows.refl (sturdy : r.core.Sturdy setup) : r.Grows setup [] r :=
  ⟨sturdy, rfl, rfl, (List.append_nil _).symm, by simp, ⟨le_rfl, le_rfl⟩,
    fun ended _ => ⟨ended, rfl, rfl, rfl⟩⟩

/-- A log that grows twice has grown by both lists of entries. -/
theorem Replica.Grows.trans {r' r'' : Replica} {more later : List Entry}
    (first : r.Grows setup more r') (second : r'.Grows setup later r'') :
    r.Grows setup (more ++ later) r'' where
  sturdy := second.sturdy
  sessnum := second.sessnum.trans first.sessnum
  view := second.view.trans first.view
  entries := by rw [second.entries, first.entries, List.append_assoc]
  gaps gap := by
    rw [second.gaps, first.gaps, or_assoc]
    simp only [List.mem_append, or_and_right, exists_or]
  progresses := first.progresses.trans second.progresses
  calm ended noops := by
    have before := first.calm ended fun entry member => noops entry (List.mem_append_left _ member)
    have after := second.calm before.ended
      fun entry member => noops entry (List.mem_append_right _ member)
    exact before.trans after

/-- The entries count. -/
theorem Replica.Grows.lastOp {r' : Replica} {more : List Entry} (grows : r.Grows setup more r')
    (whole : r.core.Whole) : r'.lastOp = r.lastOp + more.length := by
  have length : r.log.entries.length = r.lastOp := whole
  have length' : r'.log.entries.length = r'.lastOp := grows.sturdy.whole
  rw [grows.entries, List.length_append] at length'
  omega

/-- The entries have the numbers that follow. -/
theorem Replica.Grows.number {r' : Replica} {more : List Entry} (grows : r.Grows setup more r')
    (whole : r.core.Whole) {index : Nat} {entry : Entry} (found : more[index]? = some entry) :
    entry.viewstamp.opnum = r.lastOp + index + 1 := by
  have length : r.log.entries.length = r.lastOp := whole
  have there : r'.log.entries[r.lastOp + index]? = some entry := by
    rw [grows.entries, ← length, List.getElem?_append_right (Nat.le_add_right _ _),
      Nat.add_sub_cancel_left]
    exact found
  exact r'.log.numbered _ entry there

/-- So no two of them have the same number. -/
theorem Replica.Grows.nodup {r' : Replica} {more : List Entry} (grows : r.Grows setup more r')
    (whole : r.core.Whole) : (more.map fun entry => entry.viewstamp.opnum).Nodup := by
  have numbers : (more.map fun entry => entry.viewstamp.opnum) =
      List.range' (r.lastOp + 1) more.length := by
    apply List.ext_getElem
    · rw [List.length_map, List.length_range']
    · intro index inside _
      rw [List.length_map] at inside
      rw [List.getElem_map, List.getElem_range',
        grows.number whole (List.getElem?_eq_getElem inside)]
      omega
  rw [numbers]
  exact List.nodup_range'

/-- A replica with a whole log puts the next operation in. -/
theorem processOperation_returns (sturdy : r.core.Sturdy setup) (next : vs.opnum = r.lastOp + 1) :
    (processOperation setup app request vs state).Returns r fun _ r' =>
      r.Grows setup
        [{ viewstamp := vs, state := r.decidedState vs.opnum state, request := request }] r' := by
  let decided : LogEntryState := r.decidedState vs.opnum state
  have length : r.log.entries.length = r.lastOp := sturdy.whole
  have fits : vs.opnum = r.log.entries.length + 1 := by rw [next, length]
  obtain ⟨log, appended⟩ := Log.exists_append fits request decided
  obtain ⟨-, entries⟩ := Log.of_append appended
  apply Returns.get_bind
  apply Returns.emit_bind
  apply Returns.require_bind next
  apply Returns.modify_bind
  apply Returns.demand_bind appended
  apply Returns.modify_bind
  apply Returns.modify_bind
  let r1 : Replica := ({ r with lastOp := vs.opnum, nextMsgnum := vs.msgnum + 1, log := log } :
    Replica).stopGapRequests
  have core1 : r1.core = { r.core with
      lastOp := vs.opnum, nextMsgnum := vs.msgnum + 1, log := log,
      startGapRequestTimeout := false, gapRequestTimeout := false } := core_stopGapRequests _
  have whole1 : r1.core.Whole := by
    rw [core1]
    change log.entries.length = vs.opnum
    rw [entries, List.length_append, List.length_singleton, fits]
  have last1 : vs.opnum = r1.lastOp := (congrArg Core.lastOp core1).symm
  have executed1 : r1.lastExecutedOp = r.lastExecutedOp := (stopGapRequests_same _).2.2
  apply (acknowledgeOperation_returns whole1 last1).bind
  rintro _ r2 ⟨core2, executed2, noop2⟩
  have appended2 : r2.core = r.core.appended vs log decided := by
    have gaps1 : r1.committedGaps = r.committedGaps := congrArg Core.committedGaps core1
    rw [core2, core1, gaps1]
    rfl
  have sturdy2 : r2.core.Sturdy setup := by
    rw [appended2]
    refine ⟨?_, ?_, sturdy.awaits⟩
    · rwa [core1] at whole1
    · exact sturdy.point.trans (by change r.lastOp ≤ vs.opnum; omega)
  have gaps2 : ∀ gap, gap ∈ r2.committedGaps ↔
      gap ∈ r.committedGaps ∨ ∃ entry ∈ [({ viewstamp := vs, state := decided, request := request } :
        Entry)], entry.viewstamp.opnum = gap ∧ entry.state = .noop := by
    intro gap
    have same : r2.committedGaps = if decided = .noop then r.committedGaps.insert vs.opnum
        else r.committedGaps := congrArg Core.committedGaps appended2
    rw [same]
    split
    next noop => simp [noop, or_comm, eq_comm]
    next kept => simp [kept]
  have grows : r.Grows setup [{ viewstamp := vs, state := decided, request := request }] r2 := {
    sturdy := sturdy2
    sessnum := congrArg Core.sessnum appended2
    view := congrArg Core.view appended2
    entries := by
      rw [show r2.log = log from congrArg Core.log appended2]
      exact entries
    gaps := gaps2
    progresses := ⟨(congrArg Core.lastCommittedOp appended2).ge, executed1.ge.trans executed2⟩
    calm := fun ended noops => ⟨(congrArg Core.stateTransferOpEnd appended2).trans ended,
      congrArg Core.status appended2, congrArg Core.lastCommittedOp appended2,
      (noop2 (noops _ (List.mem_singleton_self _))).trans executed1⟩ }
  apply Returns.get_bind
  apply Returns.branch
  · intro ends
    apply Returns.modify_bind
    apply Returns.emit_bind
    have reached : r2.lastOp = r2.stateTransferOpEnd := (congrArg Core.lastOp appended2).trans ends
    have positive : 0 < r2.stateTransferOpEnd := by omega
    have stopped : ({ r2 with stateTransferTimeout := false } : Replica).core.Sturdy setup :=
      ⟨sturdy2.whole, sturdy2.point, sturdy2.awaits⟩
    apply (completeStateTransfer_returns stopped reached positive).imp
    rintro _ r3 ⟨sturdy3, same, progresses⟩
    exact {
      sturdy := sturdy3
      sessnum := same.sessnum.trans grows.sessnum
      view := same.view.trans grows.view
      entries := by
        rw [same.log]
        exact grows.entries
      gaps := by
        rw [same.committedGaps]
        exact grows.gaps
      progresses := grows.progresses.trans ⟨progresses.committed, progresses.executed⟩
      calm := fun ended _ => by
        have none_ : r2.stateTransferOpEnd = 0 :=
          (congrArg Core.stateTransferOpEnd appended2).trans ended
        omega }
  · exact fun _ => Returns.pure grows

/-- The gaps that follow are put in as well. -/
theorem processGaps_returns {rounds : Nat} (sturdy : r.core.Sturdy setup)
    (enough : r.gapsBeyond ≤ rounds) :
    (processGaps setup app request vs rounds).Returns r fun _ r' =>
      r'.lastOp + 1 ∉ r'.committedGaps ∧ ∃ more, r.Grows setup more r' ∧
        ∀ entry ∈ more, entry.state = .noop ∧ entry.viewstamp.opnum ∈ r.committedGaps := by
  induction rounds generalizing r with
  | zero =>
      refine Returns.pure ⟨fun waiting => ?_, [], .refl sturdy, by simp⟩
      have := gapsBeyond_lt waiting
      unfold Replica.gapsBeyond at enough
      omega
  | succ rounds inductionHypothesis =>
      apply Returns.get_bind
      apply Returns.branch
      · intro waiting
        let vs1 : Viewstamp := { vs with opnum := r.lastOp + 1, msgnum := r.nextMsgnum }
        have state1 : r.decidedState (r.lastOp + 1) .noop = .noop := by
          simp [Replica.decidedState]
        have first : (processOperation setup app request vs1 .noop).Returns r fun _ r' =>
            r.Grows setup [{ viewstamp := vs1, state := .noop, request := request }] r' := by
          have returns := @processOperation_returns setup app r request vs1 .noop sturdy rfl
          rwa [state1] at returns
        apply first.bind
        intro _ r1 grows1
        have gaps1 : r1.committedGaps = r.committedGaps := by
          apply OpnumSet.ext_mem
          intro gap
          rw [grows1.gaps]
          simp only [List.mem_singleton, exists_eq_left, and_true, or_iff_left_iff_imp, vs1]
          rintro rfl
          exact waiting
        have lastOp1 : r1.lastOp = r.lastOp + 1 := grows1.lastOp sturdy.whole
        have enough1 : r1.gapsBeyond ≤ rounds := by
          have := gapsBeyond_lt waiting
          unfold Replica.gapsBeyond at enough ⊢
          rw [gaps1, lastOp1]
          omega
        apply (inductionHypothesis grows1.sturdy enough1).imp
        rintro _ r2 ⟨drained, more, grows2, noops⟩
        refine ⟨drained, _, grows1.trans grows2, ?_⟩
        intro entry member
        rcases List.mem_cons.mp member with rfl | later
        · exact ⟨rfl, waiting⟩
        · exact ⟨(noops entry later).1, gaps1 ▸ (noops entry later).2⟩
      · intro none_
        exact Returns.pure ⟨none_, [], .refl sturdy, by simp⟩

/-- A replica with a whole log puts the next operation in, with all gaps that follow it. -/
theorem processNextOperation_returns (sturdy : r.core.Sturdy setup) (next : vs.opnum = r.lastOp + 1) :
    (processNextOperation setup app request vs state).Returns r fun _ r' =>
      r'.lastOp + 1 ∉ r'.committedGaps ∧ ∃ more,
        r.Grows setup ({ viewstamp := vs, state := r.decidedState vs.opnum state,
                         request := request } :: more) r' ∧
        ∀ entry ∈ more, entry.state = .noop ∧ entry.viewstamp.opnum ∈ r.committedGaps := by
  apply (processOperation_returns sturdy next).bind
  intro _ r1 grows1
  apply Returns.get_bind
  apply (processGaps_returns grows1.sturdy List.countP_le_length).imp
  rintro _ r2 ⟨drained, more, grows2, noops⟩
  refine ⟨drained, more, grows1.trans grows2, fun entry member => ⟨(noops entry member).1, ?_⟩⟩
  have lastOp1 : r1.lastOp = r.lastOp + 1 := grows1.lastOp sturdy.whole
  obtain ⟨index, found⟩ := List.mem_iff_getElem?.mp member
  have number := grows2.number grows1.sturdy.whole found
  rcases (grows1.gaps _).mp (noops entry member).2 with old | ⟨first, single, same, -⟩
  · exact old
  · obtain rfl := List.mem_singleton.mp single
    change vs.opnum = _ at same
    omega

/-- A torn log takes no entry. -/
theorem processNextOperation_torn {Post : Unit → Replica → Prop} (torn : r.core.Torn) :
    ¬ (processNextOperation setup app request vs state).Returns r Post := by
  simp only [processNextOperation, processOperation, Handler.returns_bind, Handler.returns_get,
    Handler.returns_require, Handler.returns_emit, Handler.returns_modify, Handler.returns_demand]
  rintro ⟨number, log, appended, -⟩
  obtain ⟨next, -⟩ := Log.of_append appended
  change r.log.entries.length < r.lastOp at torn
  omega

end Operations

end PaxosBus.NoPaxos

import PaxosBus.Vr.Backing

/-!
# Normal operation

The handlers by which a view makes progress: requests, batches, prepares,
acknowledgements and commits. The leader appends to the log of its view, its
followers adopt pieces of that log, and what has been acknowledged by enough of
them is chosen.
-/

set_option autoImplicit false

namespace PaxosBus.Vr

open PaxosBus.Common PaxosBus.Library World
open Logic (Meets)

/-- What the handlers of a replica are judged by. -/
abbrev Setup.logic (setup : Setup) (admits : Admission) :
    Logic (World setup.configuration admits) Replica Output :=
  Vr.logic setup.configuration admits setup.replicaIdx

variable {setup : Setup} {admits : Admission} {w : World setup.configuration admits} {r : Replica}
  {app : App}

/-! ## What a place in a view gives -/

/-- A replica has as many operations as it thinks. -/
theorem Core.Placed.length_operations (placed : r.core.Placed w setup.replicaIdx) :
    r.log.operations.length = r.lastOp :=
  (Log.length_operations r.log).trans placed.lastOp.symm

/-- A replica has been active in its last view with as many operations as it has. -/
theorem Core.Placed.length_logIn (placed : r.core.Placed w setup.replicaIdx) :
    (w.logs.logIn setup.replicaIdx r.normalView).length = r.lastOp :=
  (congrArg List.length placed.log).symm.trans placed.length_operations

/-- A replica's log is one to be active with in the last view it was active in. -/
theorem Core.Placed.within (placed : r.core.Placed w setup.replicaIdx)
    (recorded : r.Recorded w setup.replicaIdx) : w.Within r.normalView r.log.operations := by
  have within := w.sound.within_votedLog setup.replicaIdx
  unfold ViewLogs.votedLog at within
  rw [recorded.1] at within
  rw [show r.log.operations = _ from placed.log]
  exact within

/-- An entry that a replica finds in its log is not beyond its last operation. -/
theorem Core.Placed.le_of_find (placed : r.core.Placed w setup.replicaIdx) {opnum : Nat}
    {entry : Entry} (found : r.log.find opnum = some entry) :
    0 < opnum ∧ opnum ≤ r.lastOp ∧ r.log.operations[opnum - 1]? = some entry.operation := by
  have positive := (Log.of_find found).1
  have here := Log.operation_of_find found
  rw [show r.log.start = 1 from placed.start] at positive here
  have inside := (List.getElem?_eq_some_iff.mp here).1
  rw [placed.length_operations] at inside
  exact ⟨positive, by omega, here⟩

/-- Replace the committed entry's number and the marks on a log that says the same. -/
theorem Core.Active.commit (active : r.core.Active w setup.replicaIdx) {count : Nat}
    {log : Log Unit} (start : log.start = r.log.start)
    (same : log.operations = r.log.operations) (decided : w.Decided r.view count)
    (le : count ≤ r.lastOp) :
    ({ r.core with lastCommitted := count, log := log } : Core).Active w setup.replicaIdx where
  placed := {
    start := start.trans active.placed.start
    log := same.trans active.placed.log
    lastOp := by
      rw [← Log.length_operations, same, Log.length_operations]
      exact active.placed.lastOp
    committed := active.view.symm ▸ decided
    committed_le := le
    collected := { active.placed.collected with } }
  normal := active.normal
  view := active.view
  fence := active.fence

/-! ## Bookkeeping -/

/-- The client table is no part of what the other replicas depend on. -/
theorem updateClientTable_meets {req : Request} (recorded : r.Recorded w setup.replicaIdx) :
    (setup.logic admits).Meets (updateClientTable req) w r fun _ w' r' =>
      w' = w ∧ r'.core = r.core := by
  unfold updateClientTable
  refine .bind (.get recorded fun _ => ?_)
  refine .bind (.require recorded fun _ _ => ?_)
  refine .branch (fun _ => ?_) (fun _ => ?_)
  · exact .change recorded ⟨rfl, rfl⟩
  · exact .change recorded ⟨rfl, rfl⟩

/-- A replica that is active can ask for what comes after its committed operations. -/
theorem requestStateTransfer_meets (recorded : r.Recorded w setup.replicaIdx)
    (active : r.core.Active w setup.replicaIdx) :
    (setup.logic admits).Meets requestStateTransfer w r fun _ w' r' =>
      w' = w ∧ r'.core = r.core := by
  unfold requestStateTransfer
  refine .bind (.get recorded fun _ => ?_)
  refine .branch (fun _ => .pure recorded ⟨rfl, rfl⟩) (fun _ => ?_)
  refine .bind (.change recorded fun _ => ?_)
  have view : r.normalView = r.view := active.view
  have valid : RequestStateTransferMessage.Valid w setup.replicaIdx
      { view := r.view, opnum := r.lastCommitted } := by
    refine ⟨?_, ?_, ?_⟩
    · rw [recorded.1, view]
    · exact view ▸ active.placed.committed
    · have held := active.placed.length_logIn
      rw [view] at held
      exact held.symm ▸ active.placed.committed_le
  exact .emit recorded valid ⟨rfl, rfl⟩

/-! ## Commitment -/

/-- What a replica that only commits or acknowledges leaves as it is. -/
structure Undisturbed (r r' : Replica) : Prop where
  view : r'.view = r.view
  lastOp : r'.lastOp = r.lastOp
  operations : r'.log.operations = r.log.operations

namespace Undisturbed

theorem refl (r : Replica) : Undisturbed r r := ⟨rfl, rfl, rfl⟩

/-- What is left undisturbed twice is undisturbed. -/
theorem trans {r r' r'' : Replica} (first : Undisturbed r r') (second : Undisturbed r' r'') :
    Undisturbed r r'' :=
  ⟨second.view.trans first.view, second.lastOp.trans first.lastOp,
    second.operations.trans first.operations⟩

/-- A replica with the same core has not been disturbed. -/
theorem of_core {r r' : Replica} (same : r'.core = r.core) : Undisturbed r r' :=
  ⟨congrArg Core.view same, congrArg Core.lastOp same,
    congrArg (fun core => core.log.operations) same⟩

end Undisturbed

/-- Storing a reply changes the client table alone. -/
@[simp] theorem core_storeReply (r : Replica) (request : Request) (reply : ReplyMessage) :
    (r.storeReply request reply).core = r.core := by
  unfold Replica.storeReply
  split <;> rfl

/-- What has been recorded of a replica is about its core. -/
theorem recorded_iff_core {r' : Replica} (same : r'.core = r.core)
    (recorded : r.Recorded w setup.replicaIdx) : r'.Recorded w setup.replicaIdx :=
  ⟨recorded.1.trans (congrArg Core.normalView same).symm,
    recorded.2.trans (congrArg Core.fence same).symm⟩

/-- A decided operation in the log of an active replica is what was chosen. -/
theorem Core.Active.executable (balanced : setup.configuration.Balanced)
    (recorded : r.Recorded w setup.replicaIdx) (active : r.core.Active w setup.replicaIdx)
    {opnum : Nat} (decided : w.Decided r.view opnum) {entry : Entry}
    (found : r.log.find opnum = some entry) : Executable w opnum entry.request := by
  obtain ⟨positive, le, here⟩ := active.placed.le_of_find found
  obtain ⟨earlier, before, chosen⟩ := decided
  have within := active.placed.within recorded
  have long : opnum ≤ r.log.operations.length := by
    rw [active.placed.length_operations]
    exact le
  have view : r.normalView = r.view := active.view
  have agree := w.sound.chosen_take balanced chosen (view ▸ before) within long
  refine ⟨positive, earlier, entry.operation, chosen, ?_, rfl⟩
  have same := congrArg (·[opnum - 1]?) agree
  simp only [List.getElem?_take, if_pos (show opnum - 1 < opnum by omega)] at same
  exact same.symm.trans here

/-- One round commits the next operation, which has been decided in the view. -/
theorem commitNext_meets (balanced : setup.configuration.Balanced)
    (recorded : r.Recorded w setup.replicaIdx) (active : r.core.Active w setup.replicaIdx)
    (decided : w.Decided r.view (r.lastCommitted + 1)) :
    (setup.logic admits).Meets (commitNext app) w r fun _ w' r' =>
      w' = w ∧ r'.core.Active w setup.replicaIdx ∧ Undisturbed r r' ∧
        r'.lastCommitted = r.lastCommitted + 1 := by
  unfold commitNext
  refine .bind (.change recorded fun _ => ?_)
  refine .bind (.get recorded fun _ => ?_)
  refine .bind (.demand recorded fun entry found _ => ?_)
  change r.log.find (r.lastCommitted + 1) = some entry at found
  refine .bind (.emit recorded (active.executable balanced recorded decided found) fun _ => ?_)
  refine .bind (.change recorded fun _ => ?_)
  have le := (active.placed.le_of_find found).2.1
  have committed := active.commit (Log.start_setStatus (r.lastCommitted + 1) .committed)
    (Log.operations_setStatus (r.lastCommitted + 1) .committed) decided le
  -- The reply is stored and sent, which no one's agreement is about.
  refine .bind (.change (recorded_iff_core (core_storeReply _ _ _) recorded) fun keeps => ?_)
  have stored : ∀ r' : Replica, r'.core =
      { r.core with
        lastCommitted := r.lastCommitted + 1
        log := (r.log.setStatus (r.lastCommitted + 1) .committed).1 } →
      w = w ∧ r'.core.Active w setup.replicaIdx ∧ Undisturbed r r' ∧
        r'.lastCommitted = r.lastCommitted + 1 := by
    intro r' same
    refine ⟨rfl, same.symm ▸ committed, ⟨?_, ?_, ?_⟩, ?_⟩
    · exact congrArg Core.view same
    · exact congrArg Core.lastOp same
    · exact (congrArg (fun core => core.log.operations) same).trans (Log.operations_setStatus _ _)
    · exact congrArg Core.lastCommitted same
  split
  next addr _ => exact .emit keeps trivial (stored _ (core_storeReply _ _ _))
  next => exact .pure keeps (stored _ (core_storeReply _ _ _))

/-- The invariant of the loop of `CommitUpTo`, with `rounds` left to go. -/
def Committing (w : World setup.configuration admits) (r : Replica) (upto rounds : Nat)
    (w' : World setup.configuration admits) (r' : Replica) : Prop :=
  w' = w ∧ r'.core.Active w setup.replicaIdx ∧ Undisturbed r r' ∧
    (rounds = 0 ∨ r'.lastCommitted + rounds ≤ upto)

/-- Committing what is decided executes what was chosen. -/
theorem commitUpTo_meets (balanced : setup.configuration.Balanced)
    (recorded : r.Recorded w setup.replicaIdx) (active : r.core.Active w setup.replicaIdx)
    {upto : Nat} (decided : w.Decided r.view upto) :
    (setup.logic admits).Meets (commitUpTo app upto) w r fun _ w' r' =>
      w' = w ∧ r'.core.Active w setup.replicaIdx ∧ Undisturbed r r' := by
  unfold commitUpTo
  refine .bind (.get recorded fun _ => ?_)
  refine Meets.imp (Meets.repeated (Committing w r upto) ?_ recorded ?_) ?_
  · rintro rounds _ before keeps ⟨rfl, activeNow, same, left⟩
    have decidedNext : World.Decided _ before.view (before.lastCommitted + 1) :=
      same.view.symm ▸ decided.mono (Nat.le_refl _) (by omega)
    refine (commitNext_meets balanced keeps activeNow decidedNext).imp ?_
    rintro _ _ after _ ⟨rfl, activeNext, sameToo, next⟩
    exact ⟨rfl, activeNext, same.trans sameToo, by omega⟩
  · exact ⟨rfl, active, .refl r, by omega⟩
  · exact fun _ _ _ _ ⟨same, activeAfter, undisturbed, _⟩ => ⟨same, activeAfter, undisturbed⟩

/-! ## Acknowledgement -/

/-- The acknowledgement speaks for the log that the replica has. -/
theorem sendPrepareOK_meets (inGroup : setup.replicaIdx < setup.configuration.n)
    (recorded : r.Recorded w setup.replicaIdx) (active : r.core.Active w setup.replicaIdx)
    (i : Nat) :
    (setup.logic admits).Meets (sendPrepareOK setup i) w r fun _ w' r' =>
      w' = w ∧ r'.core = r.core := by
  unfold sendPrepareOK
  refine .bind (.get recorded fun _ => ?_)
  refine .branch (fun _ => .pure recorded ⟨rfl, rfl⟩) (fun _ => ?_)
  refine .bind (.demand recorded fun entry found _ => ?_)
  refine .bind (.require recorded fun _ _ => ?_)
  refine .bind ((updateClientTable_meets recorded).imp ?_)
  rintro _ _ after keeps ⟨rfl, same⟩ _
  have held := active.placed.length_logIn
  rw [show r.normalView = r.view from active.view] at held
  have valid : PrepareOKMessage.Valid _
      { view := r.view, opnum := i, replicaidx := setup.replicaIdx } :=
    ⟨inGroup, held ▸ (active.placed.le_of_find found).2.1⟩
  exact .emit keeps valid ⟨rfl, same⟩

/-- An active replica can acknowledge what it has. -/
theorem sendPrepareOKs_meets (inGroup : setup.replicaIdx < setup.configuration.n)
    (recorded : r.Recorded w setup.replicaIdx) (active : r.core.Active w setup.replicaIdx)
    (oldLastOp : Nat) :
    (setup.logic admits).Meets (sendPrepareOKs setup oldLastOp) w r fun _ w' r' =>
      w' = w ∧ r'.core = r.core := by
  unfold sendPrepareOKs
  refine .bind (.get recorded fun _ => ?_)
  refine Meets.forEach (fun (w' : World setup.configuration admits) (r' : Replica) =>
    w' = w ∧ r'.core = r.core) ?_ recorded ⟨rfl, rfl⟩
  rintro i _ _ before keeps ⟨rfl, same⟩
  refine (sendPrepareOK_meets inGroup keeps (same.symm ▸ active) i).imp ?_
  rintro _ _ after _ ⟨rfl, sameToo⟩
  exact ⟨rfl, sameToo.trans same⟩

/-! ## Batches -/

/-- The requests of a batch are where the log has them. -/
theorem of_batchRequests {log : Log Unit} (start : log.start = 1) {view i count : Nat}
    {requests : List Request} (batched : batchRequests log view i count = some requests)
    {index : Nat} {request : Request} (inBatch : requests[index]? = some request) :
    log.operations[i + index - 1]? = some ⟨view, request⟩ := by
  induction count generalizing i index requests with
  | zero =>
      obtain rfl := Option.some.inj batched
      simp at inBatch
  | succ count inductionHypothesis =>
      obtain ⟨entry, found, rest⟩ := Option.bind_eq_some_iff.mp batched
      split at rest
      next matching =>
          obtain ⟨others, batchedRest, rfl⟩ := Option.map_eq_some_iff.mp rest
          cases index with
          | zero =>
              obtain rfl : entry.request = request := by simpa using inBatch
              have here := Log.operation_of_find found
              rw [start] at here
              simpa [LogEntry.operation, matching.1] using here
          | succ index =>
              have := inductionHypothesis batchedRest (by simpa using inBatch)
              rwa [show i + 1 + index - 1 = i + (index + 1) - 1 by omega] at this
      next => simp at rest

/-- The log of an active replica is a piece of the log of its view. -/
theorem Core.Active.below (recorded : r.Recorded w setup.replicaIdx)
    (active : r.core.Active w setup.replicaIdx) : r.log.operations <+: w.viewLog r.view := by
  obtain ⟨-, -, -, below⟩ := active.placed.within recorded
  rwa [show r.normalView = r.view from active.view] at below

/-- A leader sends its batches from its log. -/
theorem closeBatch_meets (recorded : r.Recorded w setup.replicaIdx)
    (active : r.core.Active w setup.replicaIdx) :
    (setup.logic admits).Meets (closeBatch setup) w r fun _ w' r' =>
      w' = w ∧ r'.core.Active w setup.replicaIdx := by
  unfold closeBatch
  refine .bind (.get recorded fun _ => ?_)
  refine .bind (.require recorded fun _ _ => ?_)
  refine .bind (.require recorded fun _ _ => ?_)
  refine .bind (.demand recorded fun requests batched _ => ?_)
  have valid : PrepareMessage.Valid w
      { view := r.view, opnum := r.lastOp, batchstart := r.lastBatchEnd + 1,
        request := requests } := by
    intro index request inBatch
    have start : r.log.start = 1 := active.placed.start
    have here := of_batchRequests start batched inBatch
    refine ⟨Nat.succ_pos _, ?_⟩
    obtain ⟨more, whole⟩ := active.below recorded
    have inside := (List.getElem?_eq_some_iff.mp here).1
    rw [← whole, Nat.add_sub_cancel]
    rw [show r.lastBatchEnd + 1 + index - 1 = r.lastBatchEnd + index by omega] at here inside
    rw [List.getElem?_append_left inside, here]
  refine .bind (.change recorded fun _ => ?_)
  refine .bind (.emit recorded valid fun _ => ?_)
  refine .change recorded ⟨rfl, { active with placed := { active.placed with collected := ?_ } }⟩
  exact { active.placed.collected with resendable := valid }

/-! ## The leader's requests -/

/-- A replica that has moved on in its view with a longer log. -/
theorem Core.Active.lengthen {w' : World setup.configuration admits}
    (active : r.core.Active w setup.replicaIdx) (later : Later setup.replicaIdx w w')
    {log : Log Unit} (start : log.start = r.log.start)
    (same : w'.logs.logIn setup.replicaIdx r.view = log.operations)
    (longer : log.entries.length = r.log.entries.length + 1) :
    ({ r.core with lastOp := r.lastOp + 1, log := log } : Core).Active w' setup.replicaIdx where
  placed := {
    start := start.trans active.placed.start
    log := by
      rw [← same]
      exact congrArg _ active.view.symm
    lastOp := (congrArg (· + 1) active.placed.lastOp).trans longer.symm
    committed := active.placed.committed.grows later.grows
    committed_le := active.placed.committed_le.trans (Nat.le_succ _)
    collected := { active.placed.collected.grows later.grows with } }
  normal := active.normal
  view := active.view
  fence := active.fence

/-- The operation that a request leads to may follow a replica's log, whatever the application
makes of it. -/
def Admits (admits : Admission) (r : Replica) (msg : RequestMessage) : Prop :=
  ∀ op, admits r.log.operations
    { view := r.view
      request := { op := op, clientid := msg.req.clientid, clientreqid := msg.req.clientreqid } }

/-- A leader that accepts a request writes it at the end of its log, which is written down. -/
theorem acceptRequest_meets (recorded : r.Recorded w setup.replicaIdx)
    (active : r.core.Active w setup.replicaIdx) (leads : setup.AmLeader r.view)
    (remote : Address) (msg : RequestMessage) (admitted : Admits admits r msg) :
    (setup.logic admits).Meets (acceptRequest setup app remote msg) w r fun _ w' r' =>
      r'.core.Active w' setup.replicaIdx := by
  unfold acceptRequest
  refine .bind ((updateClientTable_meets recorded).imp ?_)
  rintro _ _ r keeps ⟨rfl, same⟩ _
  have activeNow : r.core.Active _ setup.replicaIdx := same.symm ▸ active
  have admittedNow : Admits admits r msg := by
    intro op
    have := admitted op
    rwa [← (Undisturbed.of_core same).operations, ← (Undisturbed.of_core same).view] at this
  have leadsNow : setup.AmLeader r.view := (Undisturbed.of_core same).view.symm ▸ leads
  refine .bind (.get keeps fun _ => ?_)
  dsimp only
  refine .branch (fun _ => ?_) (fun _ => ?_)
  · refine .bind (.change keeps fun _ => ?_)
    exact .emit keeps trivial activeNow
  refine .bind (.demand keeps fun log appended _ => ?_)
  obtain ⟨-, start, operations⟩ := Log.of_append appended
  have view : r.normalView = r.view := activeNow.view
  have fence : r.fence = r.view := activeNow.fence
  have held : r.log.operations = _ := activeNow.placed.log
  rw [show r.core.normalView = r.view from view] at held
  obtain ⟨w', later, logIn, normalView, fenceSame⟩ := exists_append
    { view := r.view, request := { op := _, clientid := _, clientreqid := _ } } leadsNow
    (keeps.1.trans view) (keeps.2.trans fence) rfl (held ▸ admittedNow _)
  have longer := activeNow.lengthen later start
    (logIn.trans ((congrArg (· ++ _) held.symm).trans operations.symm))
    (by rw [← Log.length_operations, operations]; simp)
  have keepsNext : ({ r with lastOp := r.lastOp + 1, log := log } : Replica).Recorded w'
      setup.replicaIdx := ⟨normalView.trans view.symm, fenceSame.trans fence.symm⟩
  refine .bind (.modify later keepsNext fun _ => ?_)
  refine .bind (.get keepsNext fun _ => ?_)
  refine .branch (fun _ => ?_) (fun _ => ?_)
  · refine .bind ((closeBatch_meets keepsNext longer).imp ?_)
    rintro _ _ _ keepsLast ⟨rfl, activeNext⟩ _
    exact .change keepsLast activeNext
  · refine .bind (.change keepsNext fun _ => ?_)
    exact .change keepsNext longer

/-- A request that is not accepted writes nothing. -/
theorem handleRequest_meets (recorded : r.Recorded w setup.replicaIdx)
    (active : r.core.Active w setup.replicaIdx) (remote : Address) (msg : RequestMessage)
    (admitted : r.Accepts setup msg → Admits admits r msg) :
    (setup.logic admits).Meets (handleRequest setup app remote msg) w r fun _ w' r' =>
      r'.core.Active w' setup.replicaIdx := by
  unfold handleRequest
  refine .bind (.get recorded fun _ => ?_)
  refine .branch (fun _ => .pure recorded active) (fun _ => ?_)
  refine .branch (fun _ => .pure recorded active) (fun leads => ?_)
  refine .bind (.change recorded fun _ => ?_)
  have accepted : (∀ entry ∈ r.clientTable msg.req.clientid, entry.lastReqId < msg.req.clientreqid) →
      Admits admits r msg := fun new => admitted ⟨active.normal, not_not.mp leads, new⟩
  split
  next none_ =>
      refine acceptRequest_meets ?_ ?_ ?_ remote msg ?_
      · exact recorded
      · exact active
      · exact not_not.mp leads
      · exact accepted fun entry found => nomatch none_.symm.trans found
  next entry found =>
      refine .branch (fun _ => .pure recorded active) (fun notOld => ?_)
      refine .branch (fun _ => ?_) (fun notSame => ?_)
      · refine .branch (fun _ => ?_) (fun _ => .pure recorded active)
        exact .emit recorded trivial active
      · refine acceptRequest_meets ?_ ?_ ?_ remote msg ?_
        · exact recorded
        · exact active
        · exact not_not.mp leads
        · apply accepted
          intro other foundToo
          obtain rfl : entry = other := Option.some.inj (found.symm.trans foundToo)
          omega

/-! ## The followers' prepares -/

/-- A piece of a log and the next entry are a piece of the log. -/
theorem concat_below {piece log : List Operation} (below : piece <+: log) {operation : Operation}
    (next : log[piece.length]? = some operation) : piece ++ [operation] <+: log := by
  obtain ⟨more, rfl⟩ := below
  rw [List.getElem?_append_right (Nat.le_refl _), Nat.sub_self] at next
  cases more with
  | nil => simp at next
  | cons first rest =>
      obtain rfl : first = operation := by simpa using next
      exact ⟨rest, by simp⟩

/-- A follower appends the requests that it is missing. -/
theorem appendRequests_meets {view op : Nat} {requests : List Request}
    (recorded : r.Recorded w setup.replicaIdx) (active : r.core.Active w setup.replicaIdx)
    (current : r.view = view)
    (valid : ∀ index request, requests[index]? = some request →
      0 < op ∧ (w.viewLog view)[op - 1 + index]? = some ⟨view, request⟩)
    (near : op ≤ r.lastOp + 1) :
    (setup.logic admits).Meets (appendRequests view op requests) w r fun next w' r' =>
      r'.core.Active w' setup.replicaIdx ∧ r'.view = view ∧ next ≤ r'.lastOp + 1 := by
  induction requests generalizing op w r with
  | nil => exact .pure recorded ⟨active, current, near⟩
  | cons request rest inductionHypothesis =>
      have validRest : ∀ index later, rest[index]? = some later →
          0 < op + 1 ∧ (w.viewLog view)[op + 1 - 1 + index]? = some ⟨view, later⟩ := by
        intro index later found
        obtain ⟨positive, here⟩ := valid (index + 1) later (by simpa using found)
        rw [show op - 1 + (index + 1) = op + 1 - 1 + index by omega] at here
        exact ⟨Nat.succ_pos op, here⟩
      unfold appendRequests
      refine .bind (.get recorded fun _ => ?_)
      refine .branch (fun had => ?_) (fun missing => ?_)
      · exact inductionHypothesis recorded active current validRest (by omega)
      refine .bind (.demand recorded fun log appended _ => ?_)
      obtain ⟨-, start, operations⟩ := Log.of_append appended
      have normalView : r.normalView = view := active.view.trans current
      have fence : r.fence = view := active.fence.trans current
      have held : r.log.operations = _ := active.placed.log
      rw [show r.core.normalView = view from normalView] at held
      have length : r.log.operations.length = op - 1 := by
        rw [active.placed.length_operations]
        omega
      -- The follower's log and the request are a piece of the log of the view.
      have below : log.operations <+: w.viewLog view := by
        rw [operations]
        refine concat_below (current ▸ active.below recorded) ?_
        rw [length]
        exact (valid 0 request rfl).2
      obtain ⟨base, started, above, -⟩ := active.placed.within recorded
      rw [normalView] at started
      have extends_ : r.log.operations <+: log.operations := operations ▸ List.prefix_append _ _
      obtain ⟨w', later, logIn, normalViewNow, fenceNow, -⟩ := exists_adopt
        (show w.logs.fence setup.replicaIdx ≤ view from (recorded.2.trans fence).le)
        ⟨base, started, above.trans extends_, below⟩ (held ▸ extends_)
      have longer := active.lengthen later start (current.symm ▸ logIn)
        (by rw [← Log.length_operations, operations]; simp)
      have keepsNext : ({ r with lastOp := r.lastOp + 1, log := log } : Replica).Recorded w'
          setup.replicaIdx := ⟨normalViewNow.trans normalView.symm, fenceNow.trans fence.symm⟩
      refine .bind (.modify later keepsNext fun _ => ?_)
      refine .bind ((updateClientTable_meets keepsNext).imp ?_)
      rintro _ final after keeps ⟨rfl, same⟩ _
      have undisturbed := Undisturbed.of_core same
      refine inductionHypothesis keeps (same.symm ▸ longer) (undisturbed.view.trans current) ?_ ?_
      · intro index next found
        obtain ⟨positive, here⟩ := validRest index next found
        exact ⟨positive, getElem?_viewLog_grows later.grows here⟩
      · rw [undisturbed.lastOp]
        change op + 1 ≤ r.lastOp + 1 + 1
        omega

/-- An active replica can acknowledge an operation that it has. -/
theorem Core.Active.ack (inGroup : setup.replicaIdx < setup.configuration.n)
    (active : r.core.Active w setup.replicaIdx) {view opnum : Nat} (same : view = r.view)
    (le : opnum ≤ r.lastOp) :
    PrepareOKMessage.Valid w { view := view, opnum := opnum, replicaidx := setup.replicaIdx } := by
  have held := active.placed.length_logIn
  rw [show r.normalView = r.view from active.view, ← same] at held
  exact ⟨inGroup, held ▸ le⟩

/-- A prepare that has to wait is kept. -/
theorem Core.Active.postpone (active : r.core.Active w setup.replicaIdx) {remote : Address}
    {msg : PrepareMessage} (valid : msg.Valid w) :
    ({ r.core with pendingPrepares := r.pendingPrepares ++ [(remote, msg)] } : Core).Active w
      setup.replicaIdx :=
  { active with
    placed := { active.placed with
      collected := { active.placed.collected with
        pending := fun entry inPending => by
          rcases List.mem_append.mp inPending with before | new
          · exact active.placed.collected.pending entry before
          · exact List.mem_singleton.mp new ▸ valid } } }

/-- A batch is appended if it comes next. Otherwise the log stays, and what is missing is asked for.
-/
theorem handlePrepare_meets (inGroup : setup.replicaIdx < setup.configuration.n)
    (recorded : r.Recorded w setup.replicaIdx) (active : r.core.Active w setup.replicaIdx)
    (remote : Address) {msg : PrepareMessage} (valid : msg.Valid w) :
    (setup.logic admits).Meets (handlePrepare setup remote msg) w r fun _ w' r' =>
      r'.core.Active w' setup.replicaIdx := by
  -- A prepare that the replica cannot use yet waits for a state transfer.
  have postpone : ∀ r : Replica, r.Recorded w setup.replicaIdx →
      r.core.Active w setup.replicaIdx →
      (setup.logic admits).Meets (do
        requestStateTransfer
        Handler.modify fun r =>
          { r with pendingPrepares := r.pendingPrepares ++ [(remote, msg)] }) w r
        fun _ w' r' => r'.core.Active w' setup.replicaIdx := by
    intro r recorded active
    refine .bind ((requestStateTransfer_meets recorded active).imp ?_)
    rintro _ _ after keeps ⟨rfl, same⟩ _
    have activeAfter : after.core.Active _ setup.replicaIdx := same.symm ▸ active
    exact .change keeps (activeAfter.postpone valid)
  unfold handlePrepare
  refine .bind (.get recorded fun _ => ?_)
  dsimp only
  refine .branch (fun _ => .pure recorded active) (fun _ => ?_)
  refine .branch (fun _ => .pure recorded active) (fun notStale => ?_)
  refine .branch (fun _ => postpone r recorded active) (fun notLater => ?_)
  have sameView : msg.view = r.view := by omega
  refine .bind (.require recorded fun _ _ => ?_)
  refine .bind (.require recorded fun _ _ => ?_)
  refine .bind (.require recorded fun _ _ => ?_)
  refine .bind (.change recorded fun _ => ?_)
  refine .branch (fun had => ?_) (fun _ => ?_)
  · exact .emit recorded (active.ack inGroup sameView had) active
  refine .branch (fun _ => postpone _ recorded active) (fun near => ?_)
  refine .bind (Meets.imp (appendRequests_meets ?_ ?_ ?_ valid ?_) ?_)
  · exact recorded
  · exact active
  · exact sameView.symm
  · exact not_lt.mp near
  · rintro next w' after keeps ⟨activeAfter, sameAfter, long⟩ _
    refine .bind (.require keeps fun ended _ => ?_)
    refine .emit keeps (activeAfter.ack inGroup ?_ ?_) activeAfter
    · exact sameAfter.symm
    · omega

/-! ## The leader's quorum -/

/-- Acknowledgements of enough other replicas make an operation chosen. -/
theorem chosen_of_acks (inGroup : setup.replicaIdx < setup.configuration.n)
    (leads : setup.AmLeader r.view) {opnum : Nat} (acks : Finset Nat)
    (enough : setup.configuration.f ≤ acks.card) (someone : acks.Nonempty)
    (held : ∀ replicaIdx ∈ acks, replicaIdx < setup.configuration.n ∧
      replicaIdx ≠ setup.replicaIdx ∧ opnum ≤ (w.logs.logIn replicaIdx r.view).length) :
    w.Chosen r.view opnum := by
  refine ⟨insert setup.replicaIdx acks, ?_, ?_, ?_⟩
  · intro replicaIdx member
    rw [Finset.mem_range]
    rcases Finset.mem_insert.mp member with rfl | other
    · exact inGroup
    · exact (held replicaIdx other).1
  · rw [Finset.card_insert_of_notMem fun self => (held _ self).2.1 rfl]
    exact Nat.succ_le_succ enough
  · intro replicaIdx member
    rcases Finset.mem_insert.mp member with rfl | other
    · -- The leader has whatever a follower has acknowledged.
      obtain ⟨witness, acked⟩ := someone
      have follows := (w.sound.followed witness r.view).length_le
      have leader : (group setup.configuration admits).leader r.view = setup.replicaIdx := leads
      rw [ViewLogs.viewLog, leader] at follows
      exact (held witness acked).2.2.trans follows
    · exact (held replicaIdx other).2.2

/-- The mark says what a quorum has, which is chosen. -/
theorem markPrepared_meets (recorded : r.Recorded w setup.replicaIdx)
    (active : r.core.Active w setup.replicaIdx) {msg : PrepareOKMessage}
    {msgs : Std.TreeMap Nat PrepareOKMessage} (chosen : w.Chosen r.view msg.opnum)
    (leads : setup.AmLeader r.view) :
    (setup.logic admits).Meets (markPrepared setup msg msgs) w r fun _ w' r' => w' = w ∧ r' = r := by
  unfold markPrepared
  refine .bind (.get recorded fun _ => ?_)
  refine .branch (fun _ => ?_) (fun _ => .pure recorded ⟨rfl, rfl⟩)
  have long := w.sound.chosen_length chosen
  have leader : (group setup.configuration admits).leader r.view = setup.replicaIdx := leads
  have held := active.placed.length_logIn
  rw [show r.normalView = r.view from active.view] at held
  rw [ViewLogs.viewLog, leader, held] at long
  have le : msg.opnum ≤ r.log.entries.length := long.trans active.placed.lastOp.le
  exact .emit recorded ⟨chosen, le, active.below recorded⟩ ⟨rfl, rfl⟩

/-- What a quorum has is decided, so the leader may commit it. -/
theorem commitPrepared_meets (balanced : setup.configuration.Balanced)
    (recorded : r.Recorded w setup.replicaIdx) (active : r.core.Active w setup.replicaIdx)
    {msg : PrepareOKMessage} {msgs : Std.TreeMap Nat PrepareOKMessage}
    (chosen : w.Chosen r.view msg.opnum) (leads : setup.AmLeader r.view) :
    (setup.logic admits).Meets (commitPrepared setup app msg msgs) w r fun _ w' r' =>
      r'.core.Active w' setup.replicaIdx := by
  unfold commitPrepared
  refine .bind ((markPrepared_meets recorded active chosen leads).imp ?_)
  rintro _ _ _ keeps ⟨rfl, rfl⟩ _
  refine .bind ((commitUpTo_meets balanced keeps active ⟨_, Nat.le_refl _, chosen⟩).imp ?_)
  rintro _ _ after keepsNext ⟨rfl, activeNext, same⟩ _
  refine .branch (fun _ => .pure keepsNext activeNext) (fun _ => ?_)
  refine .bind (.get keepsNext fun _ => ?_)
  have committed := activeNext.placed.committed
  rw [show after.core.normalView = after.view from activeNext.view] at committed
  refine .bind (.emit keepsNext committed fun _ => ?_)
  refine .bind (.change keepsNext fun _ => ?_)
  refine .branch (fun _ => ?_) (fun _ => .pure keepsNext activeNext)
  refine .bind (.change keepsNext fun _ => ?_)
  refine .branch (fun _ => ?_) (fun _ => .pure keepsNext activeNext)
  refine Meets.imp (closeBatch_meets ?_ ?_) ?_
  · exact keepsNext
  · exact activeNext
  · rintro _ _ _ _ ⟨rfl, activeLast⟩
    exact activeLast

/-- A quorum of acknowledgements besides the leader's own is a quorum that has the operation. -/
theorem handlePrepareOK_meets (balanced : setup.configuration.Balanced)
    (inGroup : setup.replicaIdx < setup.configuration.n)
    (recorded : r.Recorded w setup.replicaIdx) (active : r.core.Active w setup.replicaIdx)
    {msg : PrepareOKMessage} (valid : msg.Valid w) (clear : ¬ r.AcksItself setup msg) :
    (setup.logic admits).Meets (handlePrepareOK setup app msg) w r fun _ w' r' =>
      r'.core.Active w' setup.replicaIdx := by
  unfold handlePrepareOK
  refine .bind (.get recorded fun _ => ?_)
  refine .branch (fun _ => .pure recorded active) (fun normal => ?_)
  refine .branch (fun _ => .pure recorded active) (fun notStale => ?_)
  refine .branch (fun _ => ?_) (fun notLater => ?_)
  · refine (requestStateTransfer_meets recorded active).imp ?_
    rintro _ _ _ _ ⟨rfl, same⟩
    exact same.symm ▸ active
  refine .branch (fun _ => .pure recorded active) (fun follows => ?_)
  have leads : setup.AmLeader r.view := not_not.mp follows
  have sameView : msg.view = r.view := by omega
  have other : msg.replicaidx ≠ setup.replicaIdx := fun self =>
    clear ⟨not_not.mp normal, sameView, leads, self⟩
  have collected := active.placed.collected
  let vs : Viewstamp := { view := msg.view, opnum := msg.opnum }
  have acks : (r.prepareOKQuorum.add vs msg.replicaidx msg).All fun vs replicaIdx _ =>
      replicaIdx < setup.configuration.n ∧ replicaIdx ≠ setup.replicaIdx ∧
        vs.opnum ≤ (w.logs.logIn replicaIdx vs.view).length :=
    collected.acks.add ⟨valid.1, other, valid.2⟩
  have activeAdded : ({ r.core with
      prepareOKQuorum := r.prepareOKQuorum.add vs msg.replicaidx msg } : Core).Active w
      setup.replicaIdx :=
    { active with placed := { active.placed with collected := { collected with acks := acks } } }
  dsimp only [QuorumSet.addAndCheckForQuorum]
  refine .bind (.change recorded fun _ => ?_)
  split
  next => exact .pure recorded activeAdded
  next msgs found =>
      obtain ⟨rfl, enough⟩ := QuorumSet.of_checkForQuorum found
      have chosen : w.Chosen r.view msg.opnum := by
        apply chosen_of_acks inGroup leads
          (senders ((r.prepareOKQuorum.add vs msg.replicaidx msg).messages vs))
        · rw [card_senders]
          exact collected.required ▸ enough
        · exact ⟨msg.replicaidx, mem_senders.mpr ⟨msg, QuorumSet.getElem?_add_self _ _ _⟩⟩
        · intro replicaIdx sender
          obtain ⟨ack, present⟩ := mem_senders.mp sender
          exact sameView ▸ acks vs replicaIdx ack present
      apply commitPrepared_meets balanced
      · exact recorded
      · exact activeAdded
      · exact chosen
      · exact leads

/-- What the leader has committed is decided, and a follower of the view has a part of the leader's
log. -/
theorem handleCommit_meets (balanced : setup.configuration.Balanced)
    (recorded : r.Recorded w setup.replicaIdx) (active : r.core.Active w setup.replicaIdx)
    {msg : CommitMessage} (valid : msg.Valid w) :
    (setup.logic admits).Meets (handleCommit setup app msg) w r fun _ w' r' =>
      r'.core.Active w' setup.replicaIdx := by
  have request : ∀ r : Replica, r.Recorded w setup.replicaIdx →
      r.core.Active w setup.replicaIdx →
      (setup.logic admits).Meets requestStateTransfer w r
        fun _ w' r' => r'.core.Active w' setup.replicaIdx := by
    intro r recorded active
    refine (requestStateTransfer_meets recorded active).imp ?_
    rintro _ _ _ _ ⟨rfl, same⟩
    exact same.symm ▸ active
  unfold handleCommit
  refine .bind (.get recorded fun _ => ?_)
  refine .branch (fun _ => .pure recorded active) (fun _ => ?_)
  refine .branch (fun _ => .pure recorded active) (fun notStale => ?_)
  refine .branch (fun _ => request r recorded active) (fun notLater => ?_)
  refine .bind (.require recorded fun _ _ => ?_)
  refine .bind (.change recorded fun _ => ?_)
  refine .branch (fun _ => .pure recorded active) (fun _ => ?_)
  refine .branch (fun _ => request _ recorded active) (fun _ => ?_)
  have decided : w.Decided r.view msg.opnum := by
    have same : msg.view = r.view := by omega
    exact same ▸ valid
  refine Meets.imp (commitUpTo_meets balanced ?_ ?_ ?_) ?_
  · exact recorded
  · exact active
  · exact decided
  · rintro _ _ _ _ ⟨rfl, activeAfter, -⟩
    exact activeAfter

end PaxosBus.Vr

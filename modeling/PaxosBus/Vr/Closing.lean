import PaxosBus.Vr.Batches

/-!
# Closing a batch does not fail

A batch can be closed where what is left of it was assigned in the leader's
view. So the assertions of `CloseBatch` hold wherever a handler or the timer
calls it, in every state that an orderly run reaches.
-/

set_option autoImplicit false

namespace PaxosBus.Vr

open PaxosBus.Common PaxosBus.Library
open Handler (Returns)

variable {d : Deployment} {s : System} {setup : Setup} {app : App} {r : Replica}

/-! ## The assertions of `CloseBatch` -/

section Closing

/-- The requests of consecutive operations of a view can be collected. -/
theorem exists_batchRequests {log : Log Unit} (start : log.start = 1) {view i count : Nat}
    (positive : 0 < i) (assigned : ∀ op, i ≤ op → op < i + count →
      (log.entries.map LogEntry.viewstamp)[op - 1]? = some { view := view, opnum := op }) :
    ∃ requests, batchRequests log view i count = some requests := by
  induction count generalizing i with
  | zero => exact ⟨[], rfl⟩
  | succ count inductionHypothesis =>
      have here := assigned i (Nat.le_refl i) (by omega)
      rw [List.getElem?_map] at here
      obtain ⟨entry, found, stamp⟩ := Option.map_eq_some_iff.mp here
      have finds : log.find i = some entry := by
        unfold Log.find
        rw [start, if_neg (by omega), found]
      obtain ⟨rest, batched⟩ := inductionHypothesis (Nat.succ_pos i) fun op after before =>
        assigned op (by omega) (by omega)
      refine ⟨entry.request :: rest, ?_⟩
      rw [batchRequests, finds, Option.bind_some, stamp, if_pos ⟨rfl, rfl⟩, batched]
      rfl

/-- A leader can close what is left of its batch. -/
structure Batching.Closable (setup : Setup) (c : Batching) : Prop where
  leads : setup.AmLeader c.view
  start : c.start = 1
  pending : c.lastBatchEnd < c.lastOp
  assigned : ∀ op, c.lastBatchEnd < op → op ≤ c.lastOp →
    c.stamps[op - 1]? = some { view := c.view, opnum := op }

/-- Closing does not panic if every operation since the last batch is in the log, of the same view.
-/
theorem closeBatch_returns (closable : r.batching.Closable setup) :
    (closeBatch setup).Returns r fun _ _ => True := by
  obtain ⟨leads, start, pending, assigned⟩ := closable
  have positive : 0 < r.lastBatchEnd + 1 := Nat.succ_pos _
  have pendingHere : r.lastBatchEnd < r.lastOp := pending
  obtain ⟨requests, batched⟩ : ∃ requests, batchRequests r.log r.view (r.lastBatchEnd + 1)
      (r.lastOp + 1 - (r.lastBatchEnd + 1)) = some requests := by
    apply exists_batchRequests start positive
    intro op after before
    apply assigned op
    · exact after
    · change op ≤ r.lastOp
      omega
  apply Returns.get_bind
  apply Returns.require_bind leads
  apply Returns.require_bind pending
  apply Returns.demand_bind batched
  apply Returns.modify_bind
  apply Returns.emit_bind
  exact Handler.returns_modify.mpr trivial

end Closing

/-! ## The handlers that close batches -/

section Handling

/-- What a handler leaves alone of batching, where it returns. -/
theorem Returns.and_idles {α : Type} {handler : Run α} {fresh : Nat → Prop}
    {Post : α → Replica → Prop} (returns : handler.Returns r Post)
    (idles : BatchIdles setup fresh handler r) :
    handler.Returns r fun value r' => Post value r' ∧ r'.batching = r.batching := by
  obtain ⟨value, ended, post⟩ := returns
  obtain ⟨last, -, ends⟩ := idles
  exact ⟨value, ended, post, (ends value ended).2.2⟩

/-- Whether an operation is in the log is a matter of what batching depends on. -/
theorem isSome_find_congr {r' : Replica} (same : r'.batching = r.batching) (op : Nat) :
    (r'.log.find op).isSome = (r.log.find op).isSome := by
  have start : r'.log.start = r.log.start := congrArg Batching.start same
  have stamps : r'.log.entries.map LogEntry.viewstamp = r.log.entries.map LogEntry.viewstamp :=
    congrArg Batching.stamps same
  have length : r'.log.entries.length = r.log.entries.length := by
    simpa using congrArg List.length stamps
  unfold Log.find
  rw [start]
  split
  · rfl
  · rw [Bool.eq_iff_iff, isSome_getElem?, isSome_getElem?, length]

/-- The client table takes the number of a request that is not before the last. -/
theorem updateClientTable_returns {req : Request}
    (onward : (r.tableEntry req.clientid).lastReqId ≤ req.clientreqid) :
    (updateClientTable req).Returns r fun _ _ => True := by
  apply Returns.get_bind
  apply Returns.require_bind onward
  exact .branch (fun _ => Handler.returns_modify.mpr trivial)
    fun _ => Handler.returns_modify.mpr trivial

/-- The next operation is committed if it is in the log. -/
theorem commitNext_returns (there : (r.log.find (r.lastCommitted + 1)).isSome) :
    (commitNext app).Returns r fun _ r' =>
      r'.lastCommitted = r.lastCommitted + 1 ∧ r'.batching = r.batching := by
  obtain ⟨entry, found⟩ := Option.isSome_iff_exists.mp there
  apply Returns.modify_bind
  apply Returns.get_bind
  apply Returns.demand_bind found
  apply Returns.emit_bind
  apply Returns.modify_bind
  apply Returns.modify_bind
  have committed : ∀ (before : Replica) (request : Request) (reply : ReplyMessage),
      (before.storeReply request reply).lastCommitted = before.lastCommitted := by
    intro before request reply
    unfold Replica.storeReply
    split <;> rfl
  have same : ∀ (before : Replica) (request : Request) (reply : ReplyMessage),
      (({ before with log := (before.log.setStatus (r.lastCommitted + 1) .committed).1 } :
        Replica).storeReply request reply).batching = before.batching := fun _ _ _ =>
    (batching_storeReply _ _ _).trans (batching_setStatus _ _ _)
  split
  · exact Handler.returns_emit.mpr ⟨committed .., same ..⟩
  · exact .pure ⟨committed .., same ..⟩

/-- Committing does not stop where all the operations are in the log. -/
theorem commitUpTo_returns {upto : Nat}
    (there : ∀ op, r.lastCommitted < op → op ≤ upto → (r.log.find op).isSome) :
    (commitUpTo app upto).Returns r fun _ r' => r'.batching = r.batching := by
  apply Returns.get_bind
  refine (Returns.repeated (fun rounds r' => r'.batching = r.batching ∧
    r.lastCommitted ≤ r'.lastCommitted ∧ r'.lastCommitted + rounds ≤ max r.lastCommitted upto)
    ?_ ⟨rfl, Nat.le_refl _, by omega⟩).imp fun _ _ holds => holds.1
  rintro rounds r' ⟨same, after, upTo⟩
  have next : (r'.log.find (r'.lastCommitted + 1)).isSome := by
    rw [isSome_find_congr same]
    exact there _ (by omega) (by omega)
  apply (commitNext_returns next).imp
  rintro _ r'' ⟨committed, same'⟩
  exact ⟨same'.trans same, by omega, by omega⟩

variable {sent : List PrepareMessage} {length : Nat}

/-- What is left of a batch can be closed. -/
theorem Tenure.closable (tenure : Tenure setup sent length r.batching)
    (leads : setup.AmLeader r.view) (start : r.log.start = 1) (pending : r.lastBatchEnd < r.lastOp) :
    r.batching.Closable setup :=
  ⟨leads, start, pending, tenure.assigned⟩

/-- A request that is accepted is appended and may close its batch. -/
theorem acceptRequest_returns {remote : Address} {msg : RequestMessage}
    (tenure : Tenure setup sent length r.batching) (leads : setup.AmLeader r.view)
    (start : r.log.start = 1) (whole : r.log.entries.length = r.lastOp)
    (onward : (r.tableEntry msg.req.clientid).lastReqId ≤ msg.req.clientreqid) :
    (acceptRequest setup app remote msg).Returns r fun _ _ => True := by
  have idles : BatchIdles setup (fun _ => False) (updateClientTable msg.req) r :=
    updateClientTable_batchIdles
  apply Returns.bind (Returns.and_idles (updateClientTable_returns onward) idles)
  rintro _ r1 ⟨-, same⟩
  have leads1 : setup.AmLeader r1.view := by
    rw [show r1.view = r.view from congrArg Batching.view same]
    exact leads
  have start1 : r1.log.start = 1 := (congrArg Batching.start same).trans start
  have whole1 : r1.batching.stamps.length = r1.batching.lastOp := by
    rw [same]
    exact (List.length_map ..).trans whole
  rw [← same] at tenure
  apply Returns.get_bind
  dsimp only
  apply Returns.branch
  · intro _
    apply Returns.modify_bind
    exact Handler.returns_emit.mpr trivial
  · intro _
    have fits : r1.log.Appendable { view := r1.view, opnum := r1.lastOp + 1 } := by
      rw [Log.appendable_iff, start1, Nat.add_comm]
      exact congrArg (1 + ·) (whole1.symm.trans (List.length_map ..))
    obtain ⟨log, appended⟩ : ∃ log, r1.log.append { view := r1.view, opnum := r1.lastOp + 1 }
        { op := (app.leaderUpcall r1.lastCommitted msg.req.op).2, clientid := msg.req.clientid,
          clientreqid := msg.req.clientreqid } .prepared = some log := ⟨_, dif_pos fits⟩
    apply Returns.demand_bind appended
    apply Returns.modify_bind
    apply Returns.get_bind
    obtain ⟨-, accepted⟩ := batching_append appended
    apply Returns.branch
    · intro _
      refine .bind (closeBatch_returns ?_) fun _ _ _ => Handler.returns_modify.mpr trivial
      rw [accepted]
      exact ⟨leads1, start1, (tenure.ready_accepted whole1).pending,
        fun _ after upTo => tenure.assigned_accepted whole1 after upTo⟩
    · intro _
      apply Returns.modify_bind
      exact Handler.returns_modify.mpr trivial

/-- A leader in its view handles every request. -/
theorem handleRequest_returns {remote : Address} {msg : RequestMessage}
    (tenure : Tenure setup sent length r.batching) (leads : setup.AmLeader r.view)
    (start : r.log.start = 1) (whole : r.log.entries.length = r.lastOp) :
    (handleRequest setup app remote msg).Returns r fun _ _ => True := by
  apply Returns.get_bind
  apply Returns.branch (fun _ => .pure trivial)
  intro _
  apply Returns.branch (fun _ => .pure trivial)
  intro _
  apply Returns.modify_bind
  split
  next unknown =>
      refine acceptRequest_returns tenure leads start whole ?_
      simp [Replica.tableEntry, unknown]
  next entry known =>
      apply Returns.branch (fun _ => .pure trivial)
      intro notOld
      apply Returns.branch
      · exact fun _ => .branch (fun _ => Handler.returns_emit.mpr trivial) fun _ => .pure trivial
      · intro _
        refine acceptRequest_returns tenure leads start whole ?_
        simpa [Replica.tableEntry, known] using notOld

/-- What is prepared is in the leader's log, so it is committed, and the next batch may be closed.
-/
theorem commitPrepared_returns {msg : PrepareOKMessage} {msgs : Std.TreeMap Nat PrepareOKMessage}
    (tenure : Tenure setup sent length r.batching) (leads : setup.AmLeader r.view)
    (start : r.log.start = 1)
    (there : ∀ op, r.lastCommitted < op → op ≤ msg.opnum → (r.log.find op).isSome) :
    (commitPrepared setup app msg msgs).Returns r fun _ _ => True := by
  have marks : (markPrepared setup msg msgs).Returns r fun _ r' => r' = r := by
    apply Returns.get_bind
    exact .branch (fun _ => Handler.returns_emit.mpr rfl) fun _ => .pure rfl
  apply Returns.bind marks
  rintro _ _ rfl
  apply Returns.bind (commitUpTo_returns there)
  intro _ r1 same
  have leads1 : setup.AmLeader r1.view := by
    rw [show r1.view = _ from congrArg Batching.view same]
    exact leads
  have start1 : r1.log.start = 1 := (congrArg Batching.start same).trans start
  apply Returns.branch (fun _ => .pure trivial)
  intro _
  apply Returns.get_bind
  apply Returns.emit_bind
  apply Returns.modify_bind
  apply Returns.branch
  · intro _
    apply Returns.modify_bind
    apply Returns.branch
    · intro pending
      rw [← same] at tenure
      exact closeBatch_returns ⟨leads1, start1, pending, tenure.assigned⟩
    · exact fun _ => .pure trivial
  · exact fun _ => .pure trivial

/-- Asking for a state transfer cannot fail. -/
theorem requestStateTransfer_returns : requestStateTransfer.Returns r fun _ _ => True := by
  apply Returns.get_bind
  apply Returns.branch (fun _ => .pure trivial)
  intro _
  apply Returns.modify_bind
  exact Handler.returns_emit.mpr trivial

/-- A leader in its view handles every acknowledgement of operations that it has. -/
theorem handlePrepareOK_returns {msg : PrepareOKMessage}
    (tenure : Tenure setup sent length r.batching) (leads : setup.AmLeader r.view)
    (start : r.log.start = 1)
    (there : ∀ op, r.lastCommitted < op → op ≤ msg.opnum → (r.log.find op).isSome) :
    (handlePrepareOK setup app msg).Returns r fun _ _ => True := by
  apply Returns.get_bind
  apply Returns.branch (fun _ => .pure trivial)
  intro _
  apply Returns.branch (fun _ => .pure trivial)
  intro _
  apply Returns.branch (fun _ => requestStateTransfer_returns)
  intro _
  apply Returns.branch (fun _ => .pure trivial)
  intro _
  apply Returns.modify_bind
  split
  · exact .pure trivial
  · exact commitPrepared_returns tenure leads start there

end Handling

/-! ## The guarantee -/

/-- What batching keeps to at a leader: the next batch is not behind the last operation, what is
left for it was assigned in the leader's view, the timeout that closes it runs only if something is
left, and closing it does not stop a handler. A handler may stop at other assertions: where the
log does not end with the last operation, or an operation to commit is not in it. -/
structure Replica.Batched (setup : Setup) (r : Replica) : Prop where
  within : r.lastBatchEnd ≤ r.lastOp
  assigned : ∀ op, r.lastBatchEnd < op → op ≤ r.lastOp →
    ∃ entry, r.log.find op = some entry ∧ entry.viewstamp = { view := r.view, opnum := op }
  pending : r.closeBatchTimeout = true → r.lastBatchEnd < r.lastOp
  request : ∀ app remote msg, r.log.entries.length = r.lastOp →
    (handleRequest setup app remote msg).Returns r fun _ _ => True
  prepareOK : ∀ app msg,
    (∀ op, r.lastCommitted < op → op ≤ msg.opnum → (r.log.find op).isSome) →
      (handlePrepareOK setup app msg).Returns r fun _ _ => True

/-- What batching keeps to in a group: every leader is batched, the timeout never stops a replica,
and the batches that a replica sends in a view cover consecutive ranges from the log on that the
view started with, do not overlap, and are not too large. -/
structure System.Batched (d : Deployment) (s : System) : Prop where
  leader : ∀ idx, s.stopped idx = false → (s.replicas idx).status = .normal →
    (d.setup idx).AmLeader (s.replicas idx).view → (s.replicas idx).Batched (d.setup idx)
  timer : ∀ idx, s.stopped idx = false → (s.replicas idx).closeBatchTimeout = true →
    (fireTimer (d.setup idx) .closeBatch).Returns (s.replicas idx) fun _ _ => True
  consecutive : ∀ idx view, ∃ stop, Tiles PrepareMessage.batchstart PrepareMessage.opnum
    (startLength s.started view) (s.batches idx view) stop
  apart : ∀ idx view,
    (s.batches idx view).Pairwise fun earlier later =>
      earlier = later ∨ earlier.opnum < later.batchstart
  sized : ∀ idx view, ∀ p ∈ s.batches idx view,
    p.request.length + p.batchstart = p.opnum + 1 ∧ p.request.length ≤ max 1 d.batchSize

/-- The batch of a leader is what its log has after the last batch that was closed. -/
theorem Tidy.batched {sent : Nat → List PrepareMessage} {started : List (Nat × List Entry)}
    (tidy : Tidy setup sent started r.batching) (leads : r.batching.Leads setup) :
    r.Batched setup := by
  have tenure := tidy.tenure leads
  have start : r.log.start = 1 := tidy.start
  exact {
    within := tenure.within
    assigned := fun op after upTo => by
      have here := tenure.assigned op after upTo
      obtain ⟨entry, found, stamp⟩ := Option.map_eq_some_iff.mp
        ((List.getElem?_map ..).symm.trans here)
      refine ⟨entry, ?_, stamp⟩
      unfold Log.find
      rw [start, if_neg (by omega), found]
    pending := tenure.pending
    request := fun _ _ _ whole => handleRequest_returns tenure leads.2 start whole
    prepareOK := fun _ _ there => handlePrepareOK_returns tenure leads.2 start there }

namespace System

/-- Batches go right along every run of defined steps in which no replica takes the lead with an
operation number that is not that of its log or in a view that it has led before, and no leader is
sent entries of its view that it does not have. -/
theorem batched_of_orderly (bounded : d.batchSize < 2 ^ 32)
    (reachable : (system d).Reachable (Orderly d) s) : s.Batched d := by
  have arranged := (invariant_arranged bounded).of_reachable reachable
  exact {
    leader := fun idx running normal leads => ((arranged idx).2 running).batched ⟨normal, leads⟩
    timer := fun idx running closes => by
      have tidy := (arranged idx).2 running
      have leads : (s.replicas idx).batching.Leads (d.setup idx) := by
        by_contra follows
        cases (tidy.idle follows).1.symm.trans closes
      have tenure := tidy.tenure leads
      exact closeBatch_returns (tenure.closable leads.2 tidy.start (tenure.pending closes))
    consecutive := fun idx view => (arranged idx).1.tiled view
    apart := fun idx view => by
      obtain ⟨_, tiles⟩ := (arranged idx).1.tiled view
      exact tiles.pairwise
    sized := fun idx => (arranged idx).1.sized }

/-- Replica 1 takes the lead of view 1 with the log of view 0, and sends a batch of its own. -/
theorem batched_quietRun : ∃ s : System, (s.batches 0 0).length = 2 ∧ (s.batches 1 1).length = 2 ∧
    s.Batched trio := by
  obtain ⟨s, reachable, sent⟩ := (system trio).exists_reachable_of_run (Orderly trio)
    (fun s => decide ((s.batches 0 0).length = 2 ∧ (s.batches 1 1).length = 2))
    (quietRun ++ ask 8 1 "b" 14) rfl (by decide +kernel)
  obtain ⟨first, second⟩ := of_decide_eq_true sent
  exact ⟨s, first, second, batched_of_orderly (by decide) reachable⟩

/-- Replica 0 has logged a request in view 0 that nobody else has. Replica 1 leads view 1 with an
empty log, and replica 0 enters the view with its own log, but without operations. It leads view 3
with the log. -/
def lagRun : List Action :=
  ask 7 0 "a" 0 ++ [.timer 1 .viewChange] ++ deliveries [4, 6, 7, 8] ++
    [.timer 2 .viewChange, .timer 2 .viewChange] ++ deliveries [12, 15, 16]

/-- Replica 0 leads its view, and its log ends with its last operation; yet the next request stops
it. -/
def Stuck (s : System) : Prop :=
  s.stopped 0 = false ∧ (s.replicas 0).status = .normal ∧ (trio.setup 0).AmLeader (s.replicas 0).view ∧
    (s.replicas 0).log.entries.length = (s.replicas 0).lastOp ∧
    (handleRequest (trio.setup 0) {} (.client 8) (only 8 "b") (s.replicas 0)).value = none

instance (s : System) : Decidable s.Stuck := inferInstanceAs (Decidable (_ ∧ _))

/-- After the lagging run replica 0 would put the operation of view 0 in its next batch, and the
assertion of `CloseBatch` about the view fails. -/
theorem not_batched_lagRun : ¬ ∀ (d : Deployment) (s : System), d.batchSize < 2 ^ 32 →
    (system d).Reachable (Defined d) s → s.Batched d := by
  intro always
  obtain ⟨s, reachable, stuck⟩ := (system trio).exists_reachable_of_run (Defined trio)
    (fun s => decide s.Stuck) lagRun rfl (by decide +kernel)
  obtain ⟨running, normal, leads, whole, stops⟩ := of_decide_eq_true stuck
  have batched := (always trio s (by decide) reachable).leader 0 running normal leads
  obtain ⟨value, ended, -⟩ := batched.request {} (.client 8) (only 8 "b") whole
  rw [stops] at ended
  cases ended

end System

end PaxosBus.Vr

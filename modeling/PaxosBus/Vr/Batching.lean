import PaxosBus.Library.Moves
import PaxosBus.Vr.System

/-!
# The moves of a batching leader

What batching depends on is a small part of a replica's state: its status and
view, the bounds of the batch, two timeouts, and the viewstamps of the log. A
handler either leaves this part alone, or makes one of a few moves on it. The
replicas that do not lead may do what they like; a leader puts an operation in,
closes a batch, or sends the last batch again.
-/

set_option autoImplicit false

namespace PaxosBus.Vr

open PaxosBus.Common PaxosBus.Library

/-- The part of a replica's state that batching depends on. -/
structure Batching where
  status : Status
  view : Nat
  lastOp : Nat
  lastBatchEnd : Nat
  batchComplete : Bool
  start : Nat
  stamps : List Viewstamp
  closeBatchTimeout : Bool
  resendPrepareTimeout : Bool
  lastPrepare : PrepareMessage

/-- What batching depends on in a replica. -/
def Replica.batching (r : Replica) : Batching where
  status := r.status
  view := r.view
  lastOp := r.lastOp
  lastBatchEnd := r.lastBatchEnd
  batchComplete := r.batchComplete
  start := r.log.start
  stamps := r.log.entries.map LogEntry.viewstamp
  closeBatchTimeout := r.closeBatchTimeout
  resendPrepareTimeout := r.resendPrepareTimeout
  lastPrepare := r.lastPrepare

namespace Batching

variable (setup : Setup) (c : Batching)

/-- The replica is the leader of its view. -/
def Leads : Prop := c.status = .normal ∧ setup.AmLeader c.view

/-- An operation more. -/
def accepted : Batching :=
  { c with
    lastOp := c.lastOp + 1
    stamps := c.stamps ++ [{ view := c.view, opnum := c.lastOp + 1 }] }

/-- The batch is closed by a message. -/
def closed (p : PrepareMessage) : Batching :=
  { c with
    lastBatchEnd := c.lastOp
    batchComplete := false
    resendPrepareTimeout := true
    closeBatchTimeout := false
    lastPrepare := p }

/-- The message with which a leader closes its batch. -/
structure Closes (p : PrepareMessage) : Prop where
  view : p.view = c.view
  opnum : p.opnum = c.lastOp
  batchstart : p.batchstart = c.lastBatchEnd + 1
  request : p.request.length = c.lastOp - c.lastBatchEnd

/-- A replica does not go back, unless it is recovering: its view does not fall, and it does not
leave its view without entering a later one. -/
def Onward (c c' : Batching) : Prop :=
  c.status = .recovering ∨ c'.status ≠ .recovering ∧
    (c.view < c'.view ∨ c.view = c'.view ∧ (c.status = .normal → c'.status = .normal))

variable {c}

/-- A replica with the same status and view has not gone back. -/
theorem Onward.of_same {c' : Batching} (status : c'.status = c.status) (view : c'.view = c.view) :
    c.Onward c' := by
  by_cases recovering : c.status = .recovering
  · exact .inl recovering
  · exact .inr ⟨status ▸ recovering, .inr ⟨view.symm, fun normal => status.trans normal⟩⟩

/-- Entering a view that is not before one's own is no way back. -/
theorem Onward.of_normal {c' : Batching} (normal : c'.status = .normal) (view : c.view ≤ c'.view) :
    c.Onward c' := by
  refine .inr ⟨by rw [normal]; decide, ?_⟩
  rcases Nat.lt_or_eq_of_le view with later | same
  · exact .inl later
  · exact .inr ⟨same, fun _ => normal⟩

/-- A replica that does not go back in two steps does not go back. -/
theorem Onward.trans {c' c'' : Batching} (first : c.Onward c') (second : c'.Onward c'') :
    c.Onward c'' := by
  rcases first with recovering | ⟨awake, first⟩
  · exact .inl recovering
  · obtain ⟨awake', second⟩ := second.resolve_left awake
    refine .inr ⟨awake', ?_⟩
    rcases first with later | ⟨same, normal⟩ <;> rcases second with later' | ⟨same', normal'⟩
    · exact .inl (later.trans later')
    · exact .inl (same' ▸ later)
    · exact .inl (same ▸ later')
    · exact .inr ⟨same.trans same', fun before => normal' (normal before)⟩

end Batching

/-- An output that is neither a batch nor the start of a view. -/
def Output.Plain : Output → Prop
  | .send _ (.prepare _) => False
  | .started _ _ => False
  | _ => True

/-- What a replica may do to the part of its state that batching depends on. -/
inductive BatchMove (setup : Setup) (fresh : Nat → Prop) : Batching → List Output → Batching → Prop
    where
  | plain {c output} (plain : Output.Plain output) : BatchMove setup fresh c [output] c
  | follow {c c' : Batching} (start : c'.start = c.start) (follows : ¬ c'.Leads setup)
      (close : c'.closeBatchTimeout = true → c.closeBatchTimeout = true ∧ ¬ c.Leads setup)
      (resend : c'.resendPrepareTimeout = true → c.resendPrepareTimeout = true ∧ ¬ c.Leads setup)
      (onward : c.Onward c') : BatchMove setup fresh c [] c'
  | keep {c : Batching} (leads : c.Leads setup) (next : c.start + c.stamps.length = c.lastOp + 1)
      (open_ : c.batchComplete = false)
      (room : (c.lastOp + 1 + 2 ^ 64 - c.lastBatchEnd) % 2 ^ 64 + 1 ≤ setup.batchSize) :
      BatchMove setup fresh c [] { c.accepted with closeBatchTimeout := true }
  | accept {c : Batching} {p} (leads : c.Leads setup)
      (next : c.start + c.stamps.length = c.lastOp + 1) (closes : c.accepted.Closes p) :
      BatchMove setup fresh c [.send .others (.prepare p)] (c.accepted.closed p)
  | complete {c : Batching} (leads : c.Leads setup) :
      BatchMove setup fresh c [] { c with batchComplete := true }
  | close {c : Batching} {p} (leads : c.Leads setup ∨ c.closeBatchTimeout = true)
      (pending : c.lastBatchEnd < c.lastOp) (closes : c.Closes p) :
      BatchMove setup fresh c [.send .others (.prepare p)] (c.closed p)
  | resend {c : Batching} (running : c.resendPrepareTimeout = true) :
      BatchMove setup fresh c [.send .others (.prepare c.lastPrepare)] c
  | lead {c : Batching} {entries : List Entry} (changing : c.status = .viewChange)
      (leads : setup.AmLeader c.view) (first : fresh c.view) :
      BatchMove setup fresh c [.started c.view entries]
        { c with
          status := .normal
          lastBatchEnd := c.lastOp
          batchComplete := true
          stamps := entries.map LogEntry.viewstamp }

/-- A replica is matched with the part of its state that batching depends on. -/
def batchMatching (setup : Setup) (fresh : Nat → Prop) : Matching Batching Replica Output where
  move := BatchMove setup fresh
  core := Replica.batching
  Proper _ := True

/-- What the handler does is a sequence of moves. -/
abbrev BatchTraces {α : Type} (setup : Setup) (fresh : Nat → Prop) (handler : Run α) (r : Replica)
    (Post : α → Replica → Prop) : Prop :=
  (batchMatching setup fresh).Traces handler r Post

/-- The handler leaves alone what batching depends on. -/
abbrev BatchIdles {α : Type} (setup : Setup) (fresh : Nat → Prop) (handler : Run α)
    (r : Replica) : Prop :=
  BatchTraces setup fresh handler r fun _ r' => r'.batching = r.batching

variable {setup : Setup} {fresh : Nat → Prop} {app : App} {r : Replica}

/-! ## What leaves batching alone -/

section Idling

/-- A change of what batching does not depend on. -/
theorem idles_modify {change : Replica → Replica} (same : (change r).batching = r.batching) :
    BatchIdles setup fresh (Handler.modify change) r :=
  .quiet same trivial same

/-- A message that is no batch. -/
theorem idles_plain {output : Output} (plain : output.Plain) :
    BatchIdles setup fresh (Handler.emit output) r :=
  .emit (.plain plain) trivial rfl

/-- A part that does nothing leaves batching alone. -/
theorem idles_return {α : Type} {value : α} : BatchIdles setup fresh (pure value) r :=
  .pure trivial rfl

/-- Two parts of which neither touches batching, one after the other. -/
theorem idles_seq {α β : Type} {first : Run β} {next : β → Run α}
    (before : BatchIdles setup fresh first r)
    (after : ∀ value r', r'.batching = r.batching → BatchIdles setup fresh (next value) r') :
    BatchIdles setup fresh (first >>= next) r := by
  apply Matching.Traces.bind before
  intro value r' _ same
  apply (after value r' same).imp
  intro _ _ _ same'
  exact same'.trans same

/-- A loop of parts that do not touch batching. -/
theorem idles_forEach {α : Type} {items : List α} {body : α → Run Unit}
    (step : ∀ item ∈ items, ∀ r', r'.batching = r.batching →
      BatchIdles setup fresh (body item) r') :
    BatchIdles setup fresh (Handler.forEach items body) r := by
  refine Matching.Traces.forEach (fun r' : Replica => r'.batching = r.batching) ?_ trivial rfl
  intro item member r' _ same
  apply (step item member r' same).imp
  intro _ _ _ same'
  exact same'.trans same

/-- Rounds that do not touch batching. -/
theorem idles_repeated {count : Nat} {body : Run Unit}
    (step : ∀ r', r'.batching = r.batching → BatchIdles setup fresh body r') :
    BatchIdles setup fresh (Handler.repeated count body) r := by
  refine Matching.Traces.repeated (fun r' : Replica => r'.batching = r.batching) ?_ trivial rfl
  intro r' _ same
  apply (step r' same).imp
  intro _ _ _ same'
  exact same'.trans same

/-- The client table is no part of batching. -/
theorem updateClientTable_batchIdles {req : Request} :
    BatchIdles setup fresh (updateClientTable req) r := by
  apply Matching.Traces.get_bind
  apply Matching.Traces.require_bind
  intro _
  apply Matching.Traces.branch
  · exact fun _ => idles_modify rfl
  · exact fun _ => idles_modify rfl

/-- Marking an entry leaves the viewstamps of the log as they are. -/
theorem batching_setStatus (r : Replica) (op : Nat) (state : LogEntryState) :
    ({ r with log := (r.log.setStatus op state).1 } : Replica).batching = r.batching := by
  have stamps : (r.log.setStatus op state).1.entries.map LogEntry.viewstamp =
      r.log.entries.map LogEntry.viewstamp := by
    unfold Log.setStatus
    split
    · rfl
    · apply List.ext_getElem?
      intro index
      simp only [List.getElem?_map, List.getElem?_modify]
      cases r.log.entries[index]? with
      | none => rfl
      | some entry =>
          simp only [Option.map_some]
          split <;> rfl
  unfold Replica.batching
  rw [stamps, Log.start_setStatus]

/-- Storing a reply changes the client table alone. -/
theorem batching_storeReply (r : Replica) (request : Request) (reply : ReplyMessage) :
    (r.storeReply request reply).batching = r.batching := by
  unfold Replica.storeReply
  split <;> rfl

/-- An operation of a closed batch is executed without a trace in the batching. -/
theorem commitNext_batchIdles : BatchIdles setup fresh (commitNext app) r := by
  apply Matching.Traces.quiet_bind rfl
  apply Matching.Traces.get_bind
  apply Matching.Traces.demand_bind
  intro entry _
  refine .emit_bind (.plain trivial) ?_
  refine idles_seq (idles_modify (batching_setStatus _ _ _)) fun _ r1 same1 => ?_
  refine idles_seq (idles_modify (batching_storeReply _ _ _)) fun _ r2 same2 => ?_
  split
  · exact idles_plain trivial
  · exact idles_return

/-- Committing does not depend on how requests are batched. -/
theorem commitUpTo_batchIdles {upto : Nat} : BatchIdles setup fresh (commitUpTo app upto) r := by
  apply Matching.Traces.get_bind
  exact idles_repeated fun _ _ => commitNext_batchIdles

/-- The operations of a batch are acknowledged one by one. -/
theorem sendPrepareOKs_batchIdles {oldLastOp : Nat} :
    BatchIdles setup fresh (sendPrepareOKs setup oldLastOp) r := by
  apply Matching.Traces.get_bind
  apply idles_forEach
  intro i _ r' _
  apply Matching.Traces.get_bind
  apply Matching.Traces.branch
  · exact fun _ => idles_return
  · intro _
    apply Matching.Traces.demand_bind
    intro entry _
    apply Matching.Traces.require_bind
    intro _
    exact idles_seq updateClientTable_batchIdles fun _ _ _ => idles_plain trivial

/-- A state transfer that is asked for changes no batch. -/
theorem requestStateTransfer_batchIdles : BatchIdles setup fresh requestStateTransfer r := by
  apply Matching.Traces.get_bind
  apply Matching.Traces.branch
  · exact fun _ => idles_return
  · intro _
    apply Matching.Traces.quiet_bind rfl
    exact idles_plain trivial

end Idling

/-! ## What leads nowhere, and what a replica does that does not lead -/

section Following

/-- The replica does not lead afterwards, and starts none of the timeouts of a leader. -/
structure Replica.Follows (setup : Setup) (r r' : Replica) : Prop where
  start : r'.log.start = r.log.start
  follows : ¬ r'.batching.Leads setup
  close : r'.closeBatchTimeout = true → r.closeBatchTimeout = true ∧ ¬ r.batching.Leads setup
  resend : r'.resendPrepareTimeout = true →
    r.resendPrepareTimeout = true ∧ ¬ r.batching.Leads setup
  onward : r.batching.Onward r'.batching

/-- A replica that follows in two steps is a follower after them. -/
theorem Replica.Follows.trans {r' r'' : Replica} (first : r.Follows setup r')
    (second : r'.Follows setup r'') : r.Follows setup r'' where
  start := second.start.trans first.start
  follows := second.follows
  close running := first.close (second.close running).1
  resend running := first.resend (second.resend running).1
  onward := first.onward.trans second.onward

/-- A replica that does not lead, and does not take the lead. -/
theorem Replica.Follows.of_same {r' : Replica} (start : r'.log.start = r.log.start)
    (follows : ¬ r.batching.Leads setup) (status : r'.status = r.status) (view : r'.view = r.view)
    (close : r'.closeBatchTimeout = r.closeBatchTimeout)
    (resend : r'.resendPrepareTimeout = r.resendPrepareTimeout) : r.Follows setup r' where
  start := start
  follows leads := by
    apply follows
    obtain ⟨normal, leader⟩ := leads
    exact ⟨status.symm.trans normal, by
      change setup.AmLeader r.view
      rw [← view]
      exact leader⟩
  close running := ⟨close.symm.trans running, follows⟩
  resend running := ⟨resend.symm.trans running, follows⟩
  onward := .of_same status view

/-- A change after which the replica does not lead is a move. -/
theorem Replica.Follows.moved {r' : Replica} (follows : r.Follows setup r') :
    BatchMove setup fresh r.batching [] r'.batching :=
  .follow follows.start follows.follows follows.close follows.resend follows.onward

/-- A follower may change its log and its view. -/
theorem follows_modify {change : Replica → Replica} (follows : r.Follows setup (change r)) :
    BatchTraces setup fresh (Handler.modify change) r fun _ r' => r.Follows setup r' :=
  .move follows.moved trivial follows

/-- A replica that does not lead follows itself. -/
theorem Replica.Follows.refl (follows : ¬ r.batching.Leads setup) : r.Follows setup r :=
  .of_same rfl follows rfl rfl rfl rfl

/-- What does not touch batching leaves a replica that does not lead following. -/
theorem Replica.Follows.of_idle {r' : Replica} (follows : ¬ r.batching.Leads setup)
    (same : r'.batching = r.batching) : r.Follows setup r' :=
  .of_same (congrArg Batching.start same) follows (congrArg Batching.status same)
    (congrArg Batching.view same) (congrArg Batching.closeBatchTimeout same)
    (congrArg Batching.resendPrepareTimeout same)

/-- What a view change leaves of a replica. -/
structure Replica.Changes (setup : Setup) (r : Replica) (newview : Nat) (r' : Replica) : Prop where
  follows : r.Follows setup r'
  status : r'.status = .viewChange
  view : r'.view = newview
  lastOp : r'.lastOp = r.lastOp
  log : r'.log = r.log
  doViewChangeQuorum : r'.doViewChangeQuorum = r.doViewChangeQuorum

/-- Starting a view change ends the lead. -/
theorem startViewChange_traces {newview : Nat} (later : r.view < newview) :
    BatchTraces setup fresh (startViewChange setup newview) r fun _ r' =>
      r.Changes setup newview r' := by
  have changes : r.Changes setup newview
      { r with
        view := newview
        status := .viewChange
        viewChangeTimeout := true
        nullCommitTimeout := false
        resendPrepareTimeout := false
        closeBatchTimeout := false } :=
    ⟨⟨rfl, nofun, nofun, nofun, .inr ⟨nofun, .inl later⟩⟩, rfl, rfl, rfl, rfl, rfl⟩
  apply Matching.Traces.move_bind changes.follows.moved
  apply Matching.Traces.get_bind
  exact .emit (.plain (by trivial)) trivial changes

/-- A follower puts the operations of a batch in its log. -/
theorem appendRequests_traces {view op : Nat} {requests : List Request}
    (follows : ¬ r.batching.Leads setup) :
    BatchTraces setup fresh (appendRequests view op requests) r fun _ r' =>
      r.Follows setup r' := by
  induction requests generalizing r op with
  | nil => exact Matching.Traces.pure trivial (.refl follows)
  | cons req rest inductionHypothesis =>
      apply Matching.Traces.get_bind
      apply Matching.Traces.branch
      · exact fun _ => inductionHypothesis follows
      · intro _
        apply Matching.Traces.demand_bind
        intro log appended
        have appends : r.Follows setup { r with lastOp := r.lastOp + 1, log := log } :=
          .of_same (Log.of_append appended).2.1 follows rfl rfl rfl rfl
        apply Matching.Traces.bind (follows_modify appends)
        intro _ r1 _ follows1
        apply Matching.Traces.bind updateClientTable_batchIdles
        intro _ r2 _ same2
        have follows2 := follows1.trans (.of_idle follows1.follows same2)
        apply Matching.Traces.imp (inductionHypothesis follows2.follows)
        intro _ r3 _ follows3
        exact follows2.trans follows3

end Following

/-! ## Messages from the leader -/

section Handling

/-- A message that cannot be used yet waits for a state transfer. -/
theorem postpone_batchIdles {remote : Address} {msg : PrepareMessage} :
    BatchIdles setup fresh (do
      requestStateTransfer
      Handler.modify fun r => { r with pendingPrepares := r.pendingPrepares ++ [(remote, msg)] })
      r :=
  idles_seq requestStateTransfer_batchIdles fun _ _ _ => idles_modify rfl

/-- A follower appends the batch of the leader, and sends none itself. -/
theorem handlePrepare_traces {remote : Address} {msg : PrepareMessage} :
    BatchTraces setup fresh (handlePrepare setup remote msg) r fun _ _ => True := by
  have done : ∀ {handler : Run Unit} {r : Replica}, BatchIdles setup fresh handler r →
      BatchTraces setup fresh handler r fun _ _ => True :=
    fun idles => idles.imp fun _ _ _ _ => trivial
  apply Matching.Traces.get_bind
  apply Matching.Traces.branch (fun _ => done idles_return)
  intro normal
  apply Matching.Traces.branch (fun _ => done idles_return)
  intro _
  apply Matching.Traces.branch (fun _ => done postpone_batchIdles)
  intro _
  apply Matching.Traces.require_bind
  intro follower
  apply Matching.Traces.require_bind
  intro _
  apply Matching.Traces.require_bind
  intro _
  have follows : ¬ r.batching.Leads setup := fun leads => follower leads.2
  apply Matching.Traces.quiet_bind rfl
  apply Matching.Traces.branch (fun _ => done (idles_plain (by trivial)))
  intro _
  apply Matching.Traces.branch (fun _ => done postpone_batchIdles)
  intro _
  refine .bind (appendRequests_traces ?_) fun next r1 _ _ => ?_
  · exact follows
  apply Matching.Traces.require_bind
  intro _
  exact done (idles_plain (by trivial))

/-- A `Commit` is about batches that have been closed. -/
theorem handleCommit_batchIdles {msg : CommitMessage} :
    BatchIdles setup fresh (handleCommit setup app msg) r := by
  apply Matching.Traces.get_bind
  apply Matching.Traces.branch (fun _ => idles_return)
  intro _
  apply Matching.Traces.branch (fun _ => idles_return)
  intro _
  apply Matching.Traces.branch (fun _ => requestStateTransfer_batchIdles)
  intro _
  apply Matching.Traces.require_bind
  intro _
  apply Matching.Traces.quiet_bind rfl
  apply Matching.Traces.branch (fun _ => idles_return)
  intro _
  exact Matching.Traces.branch (fun _ => requestStateTransfer_batchIdles)
    fun _ => commitUpTo_batchIdles

/-- The entries of open batches are sent like others. -/
theorem handleRequestStateTransfer_batchIdles {remote : Address}
    {msg : RequestStateTransferMessage} :
    BatchIdles setup fresh (handleRequestStateTransfer remote msg) r := by
  apply Matching.Traces.get_bind
  apply Matching.Traces.branch (fun _ => idles_return)
  intro _
  exact Matching.Traces.branch (fun _ => requestStateTransfer_batchIdles)
    fun _ => idles_plain trivial

/-- An unlogged request is in no batch. -/
theorem handleUnloggedRequest_batchIdles {remote : Address} {msg : UnloggedRequestMessage} :
    BatchIdles setup fresh (handleUnloggedRequest app remote msg) r := by
  apply Matching.Traces.get_bind
  exact Matching.Traces.branch (fun _ => idles_return) fun _ => idles_plain trivial

/-- The log is told as it is, with an open batch at its end. -/
theorem handleRecovery_batchIdles {remote : Address} {msg : RecoveryMessage} :
    BatchIdles setup fresh (handleRecovery setup remote msg) r := by
  apply Matching.Traces.get_bind
  apply Matching.Traces.branch (fun _ => idles_return)
  intro _
  exact Matching.Traces.branch (fun _ => idles_plain trivial) fun _ => idles_plain trivial

end Handling

/-! ## What a leader does -/

section Leading

/-- The requests of a closed batch, one for each operation. -/
theorem length_batchRequests {log : Log Unit} {view i count : Nat} {requests : List Request}
    (batched : batchRequests log view i count = some requests) : requests.length = count := by
  induction count generalizing i requests with
  | zero =>
      obtain rfl := Option.some.inj batched
      rfl
  | succ count inductionHypothesis =>
      obtain ⟨entry, _, rest⟩ := Option.bind_eq_some_iff.mp batched
      split at rest
      · obtain ⟨more, later, rfl⟩ := Option.map_eq_some_iff.mp rest
        rw [List.length_cons, inductionHypothesis later]
      · cases rest

/-- Closing a batch is one move, perhaps together with what came before. -/
theorem closeBatch_tracesFrom {start : Batching}
    (moved : ∀ p, r.lastBatchEnd < r.lastOp → r.batching.Closes p →
      BatchMove setup fresh start [.send .others (.prepare p)] (r.batching.closed p)) :
    (batchMatching setup fresh).TracesFrom start [] (closeBatch setup) r fun _ _ => True := by
  apply Matching.TracesFrom.get_bind
  apply Matching.TracesFrom.require_bind .refl
  intro _
  apply Matching.TracesFrom.require_bind .refl
  intro pending
  apply Matching.TracesFrom.demand_bind .refl
  intro requests batched
  have closes : r.batching.Closes
      { view := r.view, opnum := r.lastOp, batchstart := r.lastBatchEnd + 1,
        request := requests } := by
    refine ⟨rfl, rfl, rfl, ?_⟩
    have length := length_batchRequests batched
    change requests.length = r.lastOp - r.lastBatchEnd
    omega
  apply Matching.TracesFrom.modify_bind
  apply Matching.TracesFrom.emit_bind
  exact .modify (.single (moved _ pending closes)) trivial trivial

/-- An operation more in the log is an operation more to batch. -/
theorem batching_append {request : Request} {state : LogEntryState} {log : Log Unit}
    (appended : r.log.append { view := r.view, opnum := r.lastOp + 1 } request state = some log) :
    r.batching.start + r.batching.stamps.length = r.batching.lastOp + 1 ∧
      ({ r with lastOp := r.lastOp + 1, log := log } : Replica).batching = r.batching.accepted := by
  unfold Log.append at appended
  split at appended
  next ok =>
      have next := (r.log.appendable_iff _).mp ok
      obtain rfl := Option.some.inj appended
      constructor
      · change r.log.start + (r.log.entries.map LogEntry.viewstamp).length = r.lastOp + 1
        rw [List.length_map]
        exact next.symm
      · simp [Replica.batching, Batching.accepted, Log.newEntry]
  next => cases appended

/-- The request is the last of its batch if the batch is full or nothing else is under way, and
otherwise the timer runs for the batch. -/
theorem acceptRequest_traces {remote : Address} {msg : RequestMessage}
    (leads : r.batching.Leads setup) :
    BatchTraces setup fresh (acceptRequest setup app remote msg) r fun _ _ => True := by
  apply Matching.Traces.bind updateClientTable_batchIdles
  intro _ r1 _ same
  apply Matching.Traces.get_bind
  dsimp only
  apply Matching.Traces.branch
  · intro _
    apply Matching.Traces.quiet_bind rfl
    exact .imp (idles_plain (by trivial)) fun _ _ _ _ => trivial
  · intro _
    apply Matching.Traces.demand_bind
    intro log appended
    obtain ⟨next, accepted⟩ := batching_append appended
    have leads1 : r1.batching.Leads setup := by
      rw [same]
      exact leads
    apply Matching.TracesFrom.modify_bind
    apply Matching.TracesFrom.get_bind
    apply Matching.TracesFrom.branch
    · intro _
      apply Matching.TracesFrom.bind
      · apply closeBatch_tracesFrom
        intro p _ closes
        rw [accepted] at closes ⊢
        exact .accept leads1 next closes
      · exact fun _ _ _ _ => .quiet rfl trivial trivial
    · intro waits
      apply Matching.TracesFrom.modify_bind
      refine .modify (.single ?_) trivial trivial
      have kept : BatchMove setup fresh r1.batching []
          { r1.batching.accepted with closeBatchTimeout := true } :=
        .keep leads1 next (Bool.not_eq_true _ ▸ (not_or.mp waits).1)
          (not_lt.mp (not_or.mp waits).2)
      rw [← accepted] at kept
      exact kept

/-- A request that is not accepted is in no batch. -/
theorem handleRequest_traces {remote : Address} {msg : RequestMessage} :
    BatchTraces setup fresh (handleRequest setup app remote msg) r fun _ _ => True := by
  have done : ∀ {handler : Run Unit} {r : Replica}, BatchIdles setup fresh handler r →
      BatchTraces setup fresh handler r fun _ _ => True :=
    fun idles => idles.imp fun _ _ _ _ => trivial
  apply Matching.Traces.get_bind
  apply Matching.Traces.branch (fun _ => done idles_return)
  intro normal
  apply Matching.Traces.branch (fun _ => done idles_return)
  intro leader
  have leads : r.batching.Leads setup := ⟨not_not.mp normal, not_not.mp leader⟩
  apply Matching.Traces.quiet_bind rfl
  split
  · exact acceptRequest_traces leads
  · apply Matching.Traces.branch (fun _ => done idles_return)
    intro _
    apply Matching.Traces.branch
    · exact fun _ => .branch (fun _ => done (idles_plain (by trivial))) fun _ => done idles_return
    · exact fun _ => acceptRequest_traces leads

/-- A mark for the history is no batch. -/
theorem markPrepared_batchIdles {msg : PrepareOKMessage}
    {msgs : Std.TreeMap Nat PrepareOKMessage} :
    BatchIdles setup fresh (markPrepared setup msg msgs) r := by
  apply Matching.Traces.get_bind
  exact Matching.Traces.branch (fun _ => idles_plain (by trivial)) fun _ => idles_return

/-- With the last batch committed the next one is closed, if there are requests for it. -/
theorem commitPrepared_traces {msg : PrepareOKMessage}
    {msgs : Std.TreeMap Nat PrepareOKMessage} (leads : r.batching.Leads setup) :
    BatchTraces setup fresh (commitPrepared setup app msg msgs) r fun _ _ => True := by
  apply Matching.Traces.bind markPrepared_batchIdles
  intro _ r1 _ same1
  apply Matching.Traces.bind commitUpTo_batchIdles
  intro _ r2 _ same2
  have leads2 : r2.batching.Leads setup := by
    rw [same2, same1]
    exact leads
  apply Matching.Traces.branch (fun _ => .pure trivial trivial)
  intro _
  apply Matching.Traces.get_bind
  apply Matching.Traces.emit_bind
  · exact .plain (by trivial)
  apply Matching.Traces.quiet_bind rfl
  apply Matching.Traces.branch
  · intro _
    apply Matching.Traces.move_bind
    · exact .complete leads2
    apply Matching.Traces.branch
    · intro _
      apply closeBatch_tracesFrom
      intro p pending closes
      exact .close (.inl leads2) pending closes
    · exact fun _ => .pure trivial trivial
  · exact fun _ => .pure trivial trivial

/-- A `PrepareOK` for the last batch may close the next one, others may not. -/
theorem handlePrepareOK_traces {msg : PrepareOKMessage} :
    BatchTraces setup fresh (handlePrepareOK setup app msg) r fun _ _ => True := by
  have done : ∀ {handler : Run Unit} {r : Replica}, BatchIdles setup fresh handler r →
      BatchTraces setup fresh handler r fun _ _ => True :=
    fun idles => idles.imp fun _ _ _ _ => trivial
  apply Matching.Traces.get_bind
  apply Matching.Traces.branch (fun _ => done idles_return)
  intro normal
  apply Matching.Traces.branch (fun _ => done idles_return)
  intro _
  apply Matching.Traces.branch (fun _ => done requestStateTransfer_batchIdles)
  intro _
  apply Matching.Traces.branch (fun _ => done idles_return)
  intro leader
  have leads : r.batching.Leads setup := ⟨not_not.mp normal, not_not.mp leader⟩
  apply Matching.Traces.quiet_bind rfl
  split
  · exact done idles_return
  · exact commitPrepared_traces leads

/-- What the running timers do to batching. -/
theorem fireTimer_traces {timer : Timer} (running : r.active timer = true) :
    BatchTraces setup fresh (fireTimer setup timer) r fun _ _ => True := by
  cases timer with
  | viewChange =>
      apply Matching.Traces.get_bind
      exact .imp (startViewChange_traces (Nat.lt_succ_self _)) fun _ _ _ _ => trivial
  | nullCommit =>
      apply Matching.Traces.get_bind
      apply Matching.Traces.require_bind
      exact fun _ => .imp (idles_plain (by trivial)) fun _ _ _ _ => trivial
  | stateTransfer => exact .imp (idles_modify rfl) fun _ _ _ _ => trivial
  | resendPrepare =>
      apply Matching.Traces.get_bind
      apply Matching.Traces.require_bind
      intro _
      apply Matching.Traces.branch (fun _ => .pure trivial trivial)
      exact fun _ => .emit (.resend running) trivial trivial
  | closeBatch =>
      apply closeBatch_tracesFrom
      intro p pending closes
      exact .close (.inr running) pending closes
  | recovery =>
      apply Matching.Traces.get_bind
      exact .imp (idles_plain (by trivial)) fun _ _ _ _ => trivial

end Leading

end PaxosBus.Vr

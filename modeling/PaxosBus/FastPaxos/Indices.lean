import PaxosBus.FastPaxos.Agreement
import PaxosBus.FastPaxos.Tally
import PaxosBus.Library.Completing

/-!
# The numbers of every replica

In every reachable state the three numbers of each replica are in order, its log
is marked up to the first of them, and no replica has stopped. What the packets
say only has to fit the receiver: a state transfer starts no later than after
what the receiver has committed, and covers what it says is committed. This
needs nothing about the requests themselves, so it is proved apart from
agreement, over how many operations each replica is known to have committed.
-/

set_option autoImplicit false

namespace PaxosBus.FastPaxos

open PaxosBus.Common PaxosBus.Library
open Logic (Completes)

variable {d : Deployment} {idx : Nat} {w : Nat → Nat} {r : Replica} {app : App}

/-! ## What a packet may say -/

/-- The entries and the number of a `StateTransfer` fit a replica that has committed so much. -/
def StateTransferMessage.Fits (committed : Nat) (msg : StateTransferMessage) : Prop :=
  ∃ from_ ≤ committed, Tally.Consecutive from_ msg.entries ∧
    msg.opnum ≤ from_ + msg.entries.length

/-- A packet that its receiver can handle, where each replica has committed at least so much. What
a leader tells its followers does not come back to it, and replies go to clients. -/
def Packet.Handleable (d : Deployment) (w : Nat → Nat) (packet : Packet) : Prop :=
  match packet.msg with
  | .request _ | .unloggedRequest _ => ∃ client, packet.src = .client client
  | .reply _ | .unloggedReply _ => ∃ client, packet.dst = .client client
  | .prepare msg => msg.view = 0 ∧ packet.dst ≠ .replica d.leader
  | .prepareOK msg => msg.view = 0
  | .commit msg => msg.view = 0 ∧ packet.dst ≠ .replica d.leader
  | .requestStateTransfer msg =>
    msg.view = 0 ∧ ∃ src, src ≠ d.leader ∧ packet.src = .replica src ∧ msg.opnum ≤ w src
  | .stateTransfer msg =>
    msg.view = 0 ∧ ∃ dst, dst ≠ d.leader ∧ packet.dst = .replica dst ∧ msg.Fits (w dst)

/-- A packet stays so while replicas commit more. -/
theorem Packet.Handleable.mono {w' : Nat → Nat} {packet : Packet}
    (handleable : packet.Handleable d w) (more : ∀ other, w other ≤ w' other) :
    packet.Handleable d w' := by
  obtain ⟨src, dst, msg⟩ := packet
  cases msg with
  | requestStateTransfer msg =>
      obtain ⟨view, other, follower, sender, le⟩ := handleable
      exact ⟨view, other, follower, sender, le.trans (more other)⟩
  | stateTransfer msg =>
      obtain ⟨view, other, follower, receiver, from_, le, rest⟩ := handleable
      exact ⟨view, other, follower, receiver, from_, le.trans (more other), rest⟩
  | request | reply | unloggedRequest | unloggedReply | prepare | prepareOK | commit =>
      exact handleable

/-! ## What a replica is -/

/-- A replica in order: its numbers, and what it has put aside. -/
structure Replica.InOrder (d : Deployment) (idx : Nat) (w : Nat → Nat) (r : Replica) : Prop where
  status : r.status = .normal
  view : r.view = 0
  tally : Tally r.lastCommitted r.lastSlowPath r.lastFastPath r.log
  paths : idx = d.leader → r.lastSlowPath = r.lastFastPath
  resend : r.resendPrepareTimeout = true → idx = d.leader
  prepare : r.lastPrepare.view = 0
  prepares : ∀ entry ∈ r.pendingPrepares, entry.2.view = 0
  prepareOKs : ∀ entry ∈ r.pendingPrepareOKs, entry.2.view = 0
  clients : ∀ clientid addr, r.clientAddresses clientid = some addr → ∃ client, addr = .client client
  told : w idx ≤ r.lastCommitted

/-- What handlers of replica `idx` are judged by. -/
def tracking (d : Deployment) (idx : Nat) : Logic (Nat → Nat) Replica Send where
  Later w w' := ∀ other, w other ≤ w' other ∧ (other ≠ idx → w' other = w other)
  refl _ _ := ⟨Nat.le_refl _, fun _ => rfl⟩
  trans first second other :=
    ⟨(first other).1.trans (second other).1, fun different =>
      ((second other).2 different).trans ((first other).2 different)⟩
  Valid w send := ∀ packet ∈ post d.configuration idx send, packet.Handleable d w
  mono later valid packet posted := (valid packet posted).mono fun other => (later other).1
  Keeps _ _ := True

/-- What a handler of replica `idx` does in a state in order: it ends in one. -/
abbrev Runs (d : Deployment) (idx : Nat) (w : Nat → Nat) (r : Replica) (handler : Run Unit) : Prop :=
  (tracking d idx).Completes handler w r fun _ w' r' => r'.InOrder d idx w'

/-- A message to one endpoint. -/
theorem handleable_one {addr : Address} {msg : Message}
    (handleable : Packet.Handleable d w ⟨.replica idx, addr, msg⟩) :
    (tracking d idx).Valid w { dst := .one addr, msg := msg } := by
  intro packet posted
  obtain rfl := List.mem_singleton.mp posted
  exact handleable

/-- A message to all the others. -/
theorem handleable_others {msg : Message}
    (handleable : ∀ dst, dst ≠ idx → Packet.Handleable d w ⟨.replica idx, .replica dst, msg⟩) :
    (tracking d idx).Valid w { dst := .others, msg := msg } := by
  intro packet posted
  obtain ⟨dst, member, rfl⟩ := List.mem_map.mp posted
  apply handleable dst
  simpa using (List.mem_filter.mp member).2

namespace Replica.InOrder

/-- Doing nothing. -/
theorem done (inOrder : r.InOrder d idx w) : Runs d idx w r (pure ()) := by
  apply Completes.pure
  exact inOrder

/-- A message to one endpoint changes nothing. -/
theorem send_one (inOrder : r.InOrder d idx w) {addr : Address} {msg : Message}
    (handleable : Packet.Handleable d w ⟨.replica idx, addr, msg⟩) :
    Runs d idx w r (Handler.emit { dst := .one addr, msg := msg }) := by
  apply Completes.emit ((tracking d idx).refl w) (handleable_one handleable)
  exact inOrder

/-- Only the client table may change with a noted request. -/
theorem updateClientTable (inOrder : r.InOrder d idx w) (req : Request) :
    (r.updateClientTable req).InOrder d idx w := by
  unfold Replica.updateClientTable
  dsimp only
  split
  · exact { inOrder with }
  · exact { inOrder with }

end Replica.InOrder

/-! ## Pieces of handlers -/

/-- A follower asks for what comes after its committed operations. -/
theorem requestStateTransfer_runs (follower : idx ≠ d.leader) (inOrder : r.InOrder d idx w) :
    (tracking d idx).Completes requestStateTransfer w r fun _ w' r' =>
      r'.InOrder d idx w' ∧ r'.pendingPrepares = r.pendingPrepares := by
  unfold requestStateTransfer
  apply Completes.get_bind
  apply Completes.branch
  · intro asked
    exact .pure ⟨inOrder, rfl⟩
  · intro new
    apply Completes.modify_bind
    -- from here on the others know how much the replica has committed
    have told : (tracking d idx).Later w (Function.update w idx r.lastCommitted) := by
      intro other
      by_cases who : other = idx
      · subst who
        simpa using inOrder.told
      · simp [who]
    apply Completes.emit told
    · apply handleable_others
      intro dst different
      exact ⟨inOrder.view, idx, follower, rfl, by simp⟩
    · exact ⟨{ inOrder with told := by simp }, rfl⟩

/-- The leader repeats its last `Prepare`. -/
theorem resendPrepare_runs (leader : idx = d.leader) (inOrder : r.InOrder d idx w) :
    Runs d idx w r (resendPrepare (d.setup idx)) := by
  unfold resendPrepare
  apply Completes.get_bind
  apply Completes.require_bind ((amLeader_iff inOrder.view).mpr leader)
  apply Completes.branch
  · intro nothing
    exact inOrder.done
  · intro something
    apply Completes.modify_bind
    apply Completes.emit ((tracking d idx).refl w)
    · apply handleable_others
      intro dst different
      refine ⟨inOrder.prepare, fun same => different ?_⟩
      exact (Address.replica.inj same).trans leader.symm
    · exact { inOrder with resend := fun _ => leader }

/-! ## Commitment -/

/-- Where everything committed is known, counting it as known changes nothing. -/
theorem Replica.InOrder.raised (inOrder : r.InOrder d idx w) :
    r.raiseSlowPath.InOrder d idx w := by
  unfold Replica.raiseSlowPath
  rw [Nat.max_eq_left inOrder.tally.committed_le]
  exact { inOrder with }

/-- One round of the loop of `CommitUpTo`: the replica is in order but for what the end of
`CommitUpTo` makes up for. -/
theorem commitNext_runs (inOrder : r.raiseSlowPath.InOrder d idx w)
    (more : r.lastCommitted < r.lastFastPath) :
    (tracking d idx).Completes (commitNext app) w r fun _ w' r' =>
      r'.raiseSlowPath.InOrder d idx w' ∧ r'.lastCommitted = r.lastCommitted + 1 ∧
        r'.lastFastPath = r.lastFastPath := by
  have tally : Tally r.lastCommitted (max r.lastSlowPath r.lastCommitted) r.lastFastPath r.log :=
    inOrder.tally
  have slow_le := tally.slow_le
  obtain ⟨entry, found, -⟩ := tally.find_prepared (Nat.lt_succ_self r.lastCommitted) more
  have marked : Tally (r.lastCommitted + 1) (max r.lastSlowPath (r.lastCommitted + 1))
      r.lastFastPath (r.log.setStatus (r.lastCommitted + 1) .committed).1 :=
    tally.commit more (Nat.le_max_right _ _) (by omega)
  have ordered : Replica.InOrder d idx w (Replica.raiseSlowPath { r with
      lastCommitted := r.lastCommitted + 1
      executed := r.executed ++ [entry.request]
      log := (r.log.setStatus (r.lastCommitted + 1) .committed).1 }) :=
    { inOrder with
      tally := marked
      paths := fun leader => by
        have paths : max r.lastSlowPath r.lastCommitted = r.lastFastPath := inOrder.paths leader
        change max r.lastSlowPath (r.lastCommitted + 1) = r.lastFastPath
        omega
      told := Nat.le_succ_of_le inOrder.told }
  unfold commitNext
  apply Completes.modify_bind
  apply Completes.get_bind
  apply Completes.demand_bind found
  apply Completes.modify_bind
  apply Completes.modify_bind
  apply Completes.modify_bind
  -- the reply goes into the client table, and to the client if its address is known
  have stored : ∀ {before : Replica} {request : Request} {reply : ReplyMessage},
      before.raiseSlowPath.InOrder d idx w → before.lastCommitted = r.lastCommitted + 1 →
        before.lastFastPath = r.lastFastPath →
          (before.storeReply request reply).raiseSlowPath.InOrder d idx w ∧
            (before.storeReply request reply).lastCommitted = r.lastCommitted + 1 ∧
              (before.storeReply request reply).lastFastPath = r.lastFastPath := by
    intro before request reply inOrder' committed fast
    unfold Replica.storeReply
    split
    · exact ⟨{ inOrder' with }, committed, fast⟩
    · exact ⟨inOrder', committed, fast⟩
  split
  next addr known =>
      apply Completes.emit ((tracking d idx).refl w)
      · apply handleable_one
        exact inOrder.clients _ _ known
      · exact stored ordered rfl rfl
  next unknown =>
      apply Completes.pure
      exact stored ordered rfl rfl

/-- `CommitUpTo` a number that the log has. -/
theorem commitUpTo_runs {upto : Nat} (inOrder : r.InOrder d idx w)
    (within : upto ≤ r.lastFastPath) : Runs d idx w r (commitUpTo app upto) := by
  have committed_le := inOrder.tally.committed_le.trans inOrder.tally.slow_le
  unfold commitUpTo
  apply Completes.get_bind
  apply Completes.bind
  -- the numbers that are left count down to zero
  apply Completes.imp (Completes.repeated (fun rounds w' r' => r'.raiseSlowPath.InOrder d idx w' ∧
    r'.lastCommitted + rounds = max r.lastCommitted upto ∧ r'.lastFastPath = r.lastFastPath) ?_ ?_)
  · rintro _ w' r' _ ⟨inOrder', -, -⟩
    apply Completes.modify_bind
    apply Completes.get_bind
    apply Completes.require
    · exact inOrder'.tally.committed_le.trans inOrder'.tally.slow_le
    · exact inOrder'
  · rintro rounds w' r' ⟨inOrder', left, fast⟩
    apply Completes.imp (commitNext_runs inOrder' (by omega))
    rintro _ w'' r'' _ ⟨inOrder'', committed, fast'⟩
    exact ⟨inOrder'', by omega, fast'.trans fast⟩
  · exact ⟨inOrder.raised, by omega, rfl⟩

/-! ## The leader -/

/-- A quorum for a number makes the leader commit the number. -/
theorem commitPrepared_runs {msg : PrepareOKMessage} {request : Request} {numRequired : Nat}
    {msgs : Std.TreeMap Nat PrepareOKMessage} (leader : idx = d.leader)
    (inOrder : r.InOrder d idx w) (within : msg.opnum ≤ r.lastFastPath) :
    Runs d idx w r (commitPrepared app msg request numRequired msgs) := by
  unfold commitPrepared
  apply Completes.bind
  apply Completes.imp (commitUpTo_runs inOrder within)
  intro _ w' r' _ inOrder'
  apply Completes.branch
  · intro again
    exact inOrder'.done
  · intro first
    apply Completes.get_bind
    apply Completes.emit ((tracking d idx).refl w')
    · apply handleable_others
      intro dst different
      refine ⟨inOrder'.view, fun same => different ?_⟩
      exact (Address.replica.inj same).trans leader.symm
    · exact inOrder'

/-- The leader counts an acknowledgement. -/
theorem countPrepareOK_runs {msg : PrepareOKMessage} {request : Request} (leader : idx = d.leader)
    (inOrder : r.InOrder d idx w) (within : msg.opnum ≤ r.lastFastPath) :
    Runs d idx w r (countPrepareOK app msg request) := by
  unfold countPrepareOK
  apply Completes.get_bind
  apply Completes.branch
  · intro slow
    apply Completes.modify_bind
    split
    next => exact .pure { inOrder with }
    next => exact commitPrepared_runs leader { inOrder with } within
  · intro fast
    apply Completes.modify_bind
    split
    next => exact .pure { inOrder with }
    next => exact commitPrepared_runs leader { inOrder with } within

/-- Any replica handles a `PrepareOK`; only the leader counts it. -/
theorem handlePrepareOK_runs {remote : Address} {msg : PrepareOKMessage}
    (inOrder : r.InOrder d idx w) (view : msg.view = 0) :
    Runs d idx w r (handlePrepareOK (d.setup idx) app remote msg) := by
  have mine := inOrder.view
  have tally := inOrder.tally
  unfold handlePrepareOK
  apply Completes.get_bind
  apply Completes.branch (fun _ => inOrder.done)
  intro normal
  apply Completes.branch (fun _ => inOrder.done)
  intro current
  apply Completes.branch (fun later => absurd later (by omega))
  intro same
  apply Completes.branch (fun _ => inOrder.done)
  intro leads
  rw [not_not, amLeader_iff mine] at leads
  apply Completes.branch (fun _ => inOrder.done)
  intro new
  apply Completes.branch
  · intro early
    apply Completes.modify
    exact { inOrder with
      prepareOKs := fun entry member => by
        rcases List.mem_append.mp member with before | added
        · exact inOrder.prepareOKs entry before
        · obtain rfl := List.mem_singleton.mp added
          exact view }
  · intro inLog
    have within : msg.opnum ≤ r.lastFastPath := (Nat.not_lt.mp inLog).trans tally.slow_le
    obtain ⟨entry, found, -, state⟩ := tally.find_prepared (Nat.not_le.mp new) within
    apply Completes.demand_bind found
    apply Completes.require_bind state
    apply Completes.branch
    · intro conflicting
      exact resendPrepare_runs leads inOrder
    · intro matching
      exact countPrepareOK_runs leads inOrder within

/-! ## Requests -/

/-- The leader adds a request, and handles the acknowledgements that had to wait for it. -/
theorem acceptRequest_runs {msg : RequestMessage} (leader : idx = d.leader)
    (inOrder : r.InOrder d idx w) : Runs d idx w r (acceptRequest (d.setup idx) app msg) := by
  have paths := inOrder.paths leader
  have tally := inOrder.tally
  have stamp : (⟨r.view, r.lastSlowPath + 1⟩ : Viewstamp) = ⟨0, r.lastFastPath + 1⟩ := by
    rw [inOrder.view, paths]
  obtain ⟨longer, appended, tally'⟩ := tally.append stamp msg.req
  have known : Tally r.lastCommitted (r.lastSlowPath + 1) (r.lastSlowPath + 1) longer := by
    rw [paths] at tally' ⊢
    exact tally'.know (Nat.lt_succ_self _)
  unfold acceptRequest
  apply Completes.get_bind
  apply Completes.require_bind paths.symm
  apply Completes.demand_bind appended
  apply Completes.modify_bind
  apply Completes.get_bind
  apply Completes.modify_bind
  apply Completes.forEach (fun w' (r' : Replica) => r'.InOrder d idx w')
  · rintro ⟨remote, prepareOK⟩ inPending w' r' inOrder'
    exact handlePrepareOK_runs inOrder' (inOrder.prepareOKs _ inPending)
  · exact { inOrder with
      tally := known
      paths := fun _ => rfl
      resend := fun _ => leader
      prepare := inOrder.view
      prepareOKs := fun _ none_ => nomatch none_ }

/-- A follower adds a request where it guesses that the leader does. -/
theorem guessRequest_runs {msg : RequestMessage} (follower : idx ≠ d.leader)
    (inOrder : r.InOrder d idx w) : Runs d idx w r (guessRequest (d.setup idx) msg) := by
  have stamp : (⟨r.view, r.lastFastPath + 1⟩ : Viewstamp) = ⟨0, r.lastFastPath + 1⟩ := by
    rw [inOrder.view]
  obtain ⟨longer, appended, tally⟩ := inOrder.tally.append stamp msg.req
  unfold guessRequest
  apply Completes.get_bind
  apply Completes.demand_bind appended
  apply Completes.modify_bind
  apply Replica.InOrder.send_one
  · exact { inOrder with
      tally := tally
      paths := fun leader => absurd leader follower }
  · exact inOrder.view

/-- Any replica handles a request that is not a duplicate. -/
theorem newRequest_runs {msg : RequestMessage} (inOrder : r.InOrder d idx w) :
    Runs d idx w r (newRequest (d.setup idx) app msg) := by
  have noted := inOrder.updateClientTable msg.req
  unfold newRequest
  apply Completes.modify_bind
  apply Completes.get_bind
  apply Completes.branch
  · intro leads
    exact acceptRequest_runs ((amLeader_iff noted.view).mp leads) noted
  · intro follows
    exact guessRequest_runs (fun leader => follows ((amLeader_iff noted.view).mpr leader)) noted

/-- Any replica handles a client's request. -/
theorem handleRequest_runs {client : Nat} {msg : RequestMessage} (inOrder : r.InOrder d idx w) :
    Runs d idx w r (handleRequest (d.setup idx) app (.client client) msg) := by
  unfold handleRequest
  apply Completes.get_bind
  apply Completes.branch (fun _ => inOrder.done)
  intro normal
  apply Completes.modify_bind
  have known : Replica.InOrder d idx w { r with
      clientAddresses := Function.update r.clientAddresses msg.req.clientid
        (some (.client client)) } :=
    { inOrder with
      clients := fun clientid addr here => by
        by_cases who : clientid = msg.req.clientid
        · subst who
          simp only [Function.update_self, Option.some.injEq] at here
          exact ⟨client, here.symm⟩
        · simp only [Function.update_of_ne who] at here
          exact inOrder.clients clientid addr here }
  split
  next => exact newRequest_runs known
  next entry noted =>
      apply Completes.branch (fun _ => known.done)
      intro old
      apply Completes.branch
      · intro last
        apply Completes.branch
        · intro replied
          apply known.send_one
          exact ⟨client, rfl⟩
        · intro unreplied
          exact known.done
      · intro new
        exact newRequest_runs known

/-! ## The followers -/

/-- `SendPrepareOKs` finds every entry that it acknowledges, and each is prepared. -/
theorem sendPrepareOKs_runs {oldLastOp : Nat} (inOrder : r.InOrder d idx w) :
    Runs d idx w r (sendPrepareOKs (d.setup idx) oldLastOp) := by
  unfold sendPrepareOKs
  apply Completes.get_bind
  apply Completes.imp (Completes.forEach
    (fun w' (r' : Replica) => r'.InOrder d idx w' ∧ r'.lastSlowPath = r.lastSlowPath) ?_ ?_)
  · rintro _ w' r' _ ⟨inOrder', -⟩
    exact inOrder'
  · rintro i inRange w' r' ⟨inOrder', slow⟩
    have range := List.mem_range'_1.mp inRange
    have tally := inOrder'.tally
    have slow_le := tally.slow_le
    unfold sendPrepareOK
    apply Completes.get_bind
    apply Completes.branch (fun _ => .pure ⟨inOrder', slow⟩)
    intro new
    obtain ⟨entry, found, -, state⟩ := tally.find_prepared (Nat.not_le.mp new) (by omega)
    apply Completes.demand_bind found
    apply Completes.require_bind state
    apply Completes.modify_bind
    apply Completes.emit ((tracking d idx).refl w')
    · apply handleable_one
      exact inOrder'.view
    · refine ⟨inOrder'.updateClientTable entry.request, ?_⟩
      rw [← slow]
      exact congrArg Core.lastSlowPath (core_updateClientTable (r := r') entry.request)
  · exact ⟨inOrder, rfl⟩

/-- The leader's next request gets into a follower's log. -/
theorem installPrepare_runs {msg : PrepareMessage} (follower : idx ≠ d.leader)
    (inOrder : r.InOrder d idx w) (view : msg.view = 0) (next : msg.opnum = r.lastSlowPath + 1) :
    Runs d idx w r (installPrepare msg) := by
  have tally := inOrder.tally
  have committed_le := tally.committed_le
  have slow_le := tally.slow_le
  unfold installPrepare
  apply Completes.get_bind
  apply Completes.branch
  · intro beyond
    have atEnd : msg.opnum = r.lastFastPath + 1 := by omega
    have stamp : (⟨msg.view, msg.opnum⟩ : Viewstamp) = ⟨0, r.lastFastPath + 1⟩ := by
      rw [view, atEnd]
    obtain ⟨longer, appended, tally'⟩ := tally.append stamp msg.req
    apply Completes.require_bind atEnd
    apply Completes.demand_bind appended
    apply Completes.modify
    exact { inOrder with
      tally := tally'.know (Nat.lt_succ_of_le slow_le)
      paths := fun leader => absurd leader follower }
  · intro within
    have above : r.lastCommitted < msg.opnum := by omega
    obtain ⟨entry, found, -, state⟩ := tally.find_prepared above (Nat.not_lt.mp within)
    obtain ⟨replaced, done, tally'⟩ := tally.setRequest msg.opnum msg.req
    apply Completes.require_bind next
    apply Completes.demand_bind found
    apply Completes.require_bind state
    apply Completes.demand_bind done
    apply Completes.modify
    exact { inOrder with
      tally := tally'.know (by omega)
      paths := fun leader => absurd leader follower }

/-- A follower puts a `Prepare` aside that it cannot use yet. -/
theorem Replica.InOrder.defer (inOrder : r.InOrder d idx w) {remote : Address}
    {msg : PrepareMessage} (view : msg.view = 0) :
    Replica.InOrder d idx w
      { r with pendingPrepares := r.pendingPrepares ++ [(remote, msg)] } :=
  { inOrder with
    prepares := fun entry member => by
      rcases List.mem_append.mp member with before | added
      · exact inOrder.prepares entry before
      · obtain rfl := List.mem_singleton.mp added
        exact view }

/-- A follower handles a `Prepare`. -/
theorem handlePrepare_runs {remote : Address} {msg : PrepareMessage} (follower : idx ≠ d.leader)
    (inOrder : r.InOrder d idx w) (view : msg.view = 0) :
    Runs d idx w r (handlePrepare (d.setup idx) remote msg) := by
  have mine := inOrder.view
  unfold handlePrepare
  apply Completes.get_bind
  apply Completes.branch (fun _ => inOrder.done)
  intro normal
  apply Completes.branch (fun _ => inOrder.done)
  intro current
  apply Completes.branch (fun later => absurd later (by omega))
  intro same
  apply Completes.require_bind
  · rw [amLeader_iff mine]
    exact follower
  apply Completes.branch
  · intro old
    apply inOrder.send_one
    exact view
  intro new
  apply Completes.branch
  · intro gap
    apply Completes.bind
    apply Completes.imp (requestStateTransfer_runs follower inOrder)
    rintro _ w' r' _ ⟨inOrder', -⟩
    apply Completes.modify
    exact inOrder'.defer view
  · intro next
    apply Completes.bind
    apply Completes.imp (installPrepare_runs follower inOrder view (by omega))
    intro _ w' r' _ inOrder'
    apply Completes.modify_bind
    apply Replica.InOrder.send_one (inOrder'.updateClientTable msg.req)
    exact view

/-- A follower handles a `Commit`. -/
theorem handleCommit_runs {msg : CommitMessage} (follower : idx ≠ d.leader)
    (inOrder : r.InOrder d idx w) (view : msg.view = 0) :
    Runs d idx w r (handleCommit (d.setup idx) app msg) := by
  have mine := inOrder.view
  have tally := inOrder.tally
  unfold handleCommit
  apply Completes.get_bind
  apply Completes.branch (fun _ => inOrder.done)
  intro normal
  apply Completes.branch (fun _ => inOrder.done)
  intro current
  apply Completes.branch (fun later => absurd later (by omega))
  intro same
  apply Completes.require_bind
  · rw [amLeader_iff mine]
    exact follower
  apply Completes.branch (fun _ => inOrder.done)
  intro new
  apply Completes.branch
  · intro beyond
    apply Completes.imp (requestStateTransfer_runs follower inOrder)
    rintro _ w' r' _ ⟨inOrder', -⟩
    exact inOrder'
  intro within
  apply Completes.branch
  · intro unknown
    apply Completes.branch (fun _ => inOrder.done)
    intro next
    obtain ⟨entry, found, -, state⟩ :=
      tally.find_prepared (Nat.not_le.mp new) (Nat.not_lt.mp within)
    obtain ⟨replaced, done, tally'⟩ := tally.setRequest msg.opnum msg.req
    apply Completes.demand_bind found
    apply Completes.require_bind state
    apply Completes.demand_bind done
    apply Completes.modify_bind
    exact commitUpTo_runs { inOrder with tally := tally' } (Nat.not_lt.mp within)
  · intro known
    exact commitUpTo_runs inOrder (Nat.not_lt.mp within)

/-! ## State transfer -/

/-- An entry that follows on what the replica knows is known afterwards. -/
theorem transferEntry_runs {old from_ : Nat} {entry : Entry} (follower : idx ≠ d.leader)
    (inOrder : r.InOrder d idx w) (stamp : entry.viewstamp = ⟨0, from_ + 1⟩)
    (reaches : from_ ≤ r.lastSlowPath) :
    (tracking d idx).Completes (transferEntry old entry) w r fun _ w' r' =>
      r'.InOrder d idx w' ∧ from_ + 1 ≤ r'.lastSlowPath := by
  have tally := inOrder.tally
  have committed_le := tally.committed_le
  have slow_le := tally.slow_le
  unfold transferEntry
  rw [stamp]
  apply Completes.get_bind
  apply Completes.branch (fun committed => .pure ⟨inOrder, committed.trans committed_le⟩)
  intro new
  apply Completes.branch
  · intro known
    obtain ⟨mine, found, mineStamp, state⟩ :=
      tally.find_prepared (Nat.not_le.mp new) (known.trans slow_le)
    have view : mine.viewstamp.view = 0 := congrArg Viewstamp.view mineStamp
    apply Completes.demand_bind found
    apply Completes.require_bind (congrArg Viewstamp.opnum mineStamp)
    apply Completes.require_bind view.le
    apply Completes.branch
    · intro sameView
      apply Completes.require_bind state
      exact .pure ⟨inOrder, known⟩
    · intro older
      exact absurd view older
  intro unknown
  have next : from_ = r.lastSlowPath := Nat.le_antisymm reaches (Nat.not_lt.mp unknown)
  subst next
  apply Completes.branch
  · intro within
    obtain ⟨mine, found, -, state⟩ := tally.find_prepared (Nat.not_le.mp new) within
    obtain ⟨replaced, done, tally'⟩ := tally.setRequest (r.lastSlowPath + 1) entry.request
    apply Completes.demand_bind found
    apply Completes.require_bind state
    apply Completes.demand_bind done
    apply Completes.modify_bind
    apply Completes.pure
    refine ⟨{ inOrder with tally := tally'.know within, paths := ?_ }, Nat.le_refl _⟩
    exact fun leader => absurd leader follower
  · intro beyond
    have atEnd : r.lastSlowPath = r.lastFastPath :=
      Nat.le_antisymm slow_le (Nat.le_of_lt_succ (Nat.not_le.mp beyond))
    have place : (⟨0, r.lastSlowPath + 1⟩ : Viewstamp) = ⟨0, r.lastFastPath + 1⟩ := by
      rw [atEnd]
    obtain ⟨longer, appended, tally'⟩ := tally.append place entry.request
    apply Completes.require_bind rfl
    apply Completes.demand_bind appended
    apply Completes.modify_bind
    apply Completes.pure
    refine ⟨{ inOrder with tally := tally'.know (Nat.lt_succ_of_le slow_le), paths := ?_ },
      Nat.le_refl _⟩
    exact fun leader => absurd leader follower

/-- After consecutive entries that follow on what the replica knows, it knows all of them. -/
theorem transferEntries_runs {old from_ : Nat} {entries : List Entry} (follower : idx ≠ d.leader)
    (inOrder : r.InOrder d idx w) (consecutive : Tally.Consecutive from_ entries)
    (reaches : from_ ≤ r.lastSlowPath) :
    (tracking d idx).Completes (transferEntries old entries) w r fun _ w' r' =>
      r'.InOrder d idx w' ∧ from_ + entries.length ≤ r'.lastSlowPath := by
  induction entries generalizing r w old from_ with
  | nil => exact .pure ⟨inOrder, reaches⟩
  | cons entry rest inductionHypothesis =>
      unfold transferEntries
      apply Completes.bind
      apply Completes.imp (transferEntry_runs follower inOrder consecutive.head reaches)
      rintro old' w' r' _ ⟨inOrder', reaches'⟩
      apply Completes.imp (inductionHypothesis inOrder' consecutive.tail reaches')
      rintro _ w'' r'' _ ⟨inOrder'', reaches''⟩
      refine ⟨inOrder'', ?_⟩
      rw [List.length_cons]
      omega

/-- The rest of a state transfer: commits, acknowledgements and the prepares that had to wait. -/
theorem completeTransfer_runs {msg : StateTransferMessage} {old : Nat} (follower : idx ≠ d.leader)
    (inOrder : r.InOrder d idx w) (known : msg.opnum ≤ r.lastSlowPath) :
    Runs d idx w r (completeTransfer (d.setup idx) app msg old) := by
  have slow_le := inOrder.tally.slow_le
  unfold completeTransfer
  apply Completes.get_bind
  apply Completes.require_bind known
  apply Completes.require_bind slow_le
  apply Completes.bind
  apply Completes.imp (commitUpTo_runs inOrder (known.trans slow_le))
  intro _ w₁ r₁ _ inOrder₁
  apply Completes.bind
  apply Completes.imp (sendPrepareOKs_runs inOrder₁)
  intro _ w₂ r₂ _ inOrder₂
  apply Completes.get_bind
  apply Completes.modify_bind
  apply Completes.forEach (fun w' (r' : Replica) => r'.InOrder d idx w')
  · rintro ⟨remote, prepare⟩ inPending w' r' inOrder'
    exact handlePrepare_runs follower inOrder' (inOrder₂.prepares _ inPending)
  · exact { inOrder₂ with prepares := fun _ none_ => nomatch none_ }

/-- A follower handles a `StateTransfer` that fits what it has committed. -/
theorem handleStateTransfer_runs {msg : StateTransferMessage} (follower : idx ≠ d.leader)
    (inOrder : r.InOrder d idx w) (view : msg.view = 0) (fits : msg.Fits (w idx)) :
    Runs d idx w r (handleStateTransfer (d.setup idx) app msg) := by
  obtain ⟨from_, committed, consecutive, covered⟩ := fits
  have mine := inOrder.view
  have reaches : from_ ≤ r.lastSlowPath :=
    (committed.trans inOrder.told).trans inOrder.tally.committed_le
  unfold handleStateTransfer
  apply Completes.get_bind
  apply Completes.branch (fun _ => inOrder.done)
  intro current
  apply Completes.bind
  apply Completes.imp (transferEntries_runs follower inOrder consecutive reaches)
  rintro old w' r' _ ⟨inOrder', reaches'⟩
  apply Completes.branch (fun later => absurd later (by omega))
  intro same
  exact completeTransfer_runs follower inOrder' (covered.trans reaches')

/-- Any replica handles a follower's `RequestStateTransfer`; the leader answers with what fits. -/
theorem handleRequestStateTransfer_runs {src : Nat} {msg : RequestStateTransferMessage}
    (inOrder : r.InOrder d idx w) (view : msg.view = 0) (follower : src ≠ d.leader)
    (committed : msg.opnum ≤ w src) :
    Runs d idx w r (handleRequestStateTransfer (d.setup idx) (.replica src) msg) := by
  have mine := inOrder.view
  have tally := inOrder.tally
  unfold handleRequestStateTransfer
  apply Completes.get_bind
  apply Completes.branch (fun _ => inOrder.done)
  intro normal
  apply Completes.branch (fun later => absurd later (by omega))
  intro same
  apply Completes.branch (fun _ => inOrder.done)
  intro leads
  rw [not_not, amLeader_iff mine] at leads
  apply Completes.require_bind (inOrder.paths leads)
  apply inOrder.send_one
  obtain ⟨consecutive, reaches⟩ := tally.dump msg.opnum
  refine ⟨mine, src, follower, rfl, msg.opnum, committed, consecutive, ?_⟩
  exact (tally.committed_le.trans tally.slow_le).trans reaches

/-! ## Any message and any timer -/

/-- Any replica handles any packet that is handleable. -/
theorem receiveMessage_runs {src : Address} {msg : Message} (inOrder : r.InOrder d idx w)
    (handleable : Packet.Handleable d w ⟨src, .replica idx, msg⟩) :
    Runs d idx w r (receiveMessage (d.setup idx) app src msg) := by
  cases msg with
  | request msg =>
      obtain ⟨client, sender⟩ := handleable
      obtain rfl : src = .client client := sender
      exact handleRequest_runs inOrder
  | unloggedRequest msg =>
      obtain ⟨client, sender⟩ := handleable
      apply Completes.get_bind
      apply Completes.branch (fun _ => inOrder.done)
      intro normal
      apply inOrder.send_one
      exact ⟨client, sender⟩
  | prepare msg =>
      obtain ⟨view, elsewhere⟩ := handleable
      exact handlePrepare_runs (fun leader => elsewhere (congrArg Address.replica leader)) inOrder
        view
  | prepareOK msg => exact handlePrepareOK_runs inOrder handleable
  | commit msg =>
      obtain ⟨view, elsewhere⟩ := handleable
      exact handleCommit_runs (fun leader => elsewhere (congrArg Address.replica leader)) inOrder
        view
  | requestStateTransfer msg =>
      obtain ⟨view, other, follower, sender, committed⟩ := handleable
      obtain rfl : src = .replica other := sender
      exact handleRequestStateTransfer_runs inOrder view follower committed
  | stateTransfer msg =>
      obtain ⟨view, dst, follower, receiver, fits⟩ := handleable
      obtain rfl : idx = dst := Address.replica.inj receiver
      exact handleStateTransfer_runs follower inOrder view fits
  | reply msg =>
      obtain ⟨client, receiver⟩ := handleable
      cases receiver
  | unloggedReply msg =>
      obtain ⟨client, receiver⟩ := handleable
      cases receiver

/-- Any timer that is running may fire. -/
theorem fireTimer_runs {timer : Timer} (inOrder : r.InOrder d idx w)
    (active : r.active timer = true) : Runs d idx w r (fireTimer (d.setup idx) timer) := by
  cases timer with
  | stateTransfer =>
      apply Completes.modify
      exact { inOrder with }
  | resendPrepare => exact resendPrepare_runs (inOrder.resend active) inOrder

/-! ## The group -/

namespace System

variable {s : System}

/-- How many operations each replica has committed. -/
def committed (s : System) (idx : Nat) : Nat := (s.replicas idx).lastCommitted

/-- Every replica is in order and runs, and can handle whatever is under way to it. -/
structure InOrder (d : Deployment) (s : System) : Prop where
  running : ∀ idx, s.stopped idx = false
  replicas : ∀ idx, (s.replicas idx).InOrder d idx s.committed
  packets : ∀ packet ∈ s.network, packet.Handleable d s.committed

theorem inOrder_initial (d : Deployment) : (initial d).InOrder d where
  running _ := rfl
  replicas _ :=
    { status := rfl
      view := rfl
      tally := Tally.new _
      paths := fun _ => rfl
      resend := nofun
      prepare := rfl
      prepares := nofun
      prepareOKs := nofun
      clients := nofun
      told := Nat.le_refl 0 }
  packets := nofun

/-- A client's packet changes nothing. -/
theorem InOrder.post_client (inOrder : s.InOrder d) {packet : Packet}
    (fromClient : packet.Handleable d s.committed) :
    ({ s with network := s.network ++ [packet] } : System).InOrder d where
  running := inOrder.running
  replicas := inOrder.replicas
  packets other inNetwork := by
    rcases List.mem_append.mp inNetwork with old | new
    · exact inOrder.packets other old
    · obtain rfl := List.mem_singleton.mp new
      exact fromClient

/-- A replica of the group runs a handler that ends in order. -/
theorem InOrder.absorb (inOrder : s.InOrder d) {handler : Run Unit}
    (runs : Runs d idx s.committed (s.replicas idx) handler) :
    (s.absorb d idx (handler (s.replicas idx))).InOrder d := by
  obtain ⟨⟨⟩, w', ended, later, valid, after⟩ := runs
  have committed : ∀ other, w' other ≤ (s.absorb d idx (handler (s.replicas idx))).committed other
      := by
    intro other
    by_cases who : other = idx
    · subst who
      simpa [System.committed, System.absorb] using after.told
    · rw [(later other).2 who]
      simp [System.committed, System.absorb, who]
  constructor
  · intro other
    by_cases who : other = idx
    · subst who
      simp [System.absorb, ended]
    · simpa [System.absorb, who] using inOrder.running other
  · intro other
    have told := Nat.le_refl ((s.absorb d idx (handler (s.replicas idx))).committed other)
    by_cases who : other = idx
    · subst who
      simp only [System.absorb, Function.update_self, System.committed] at told ⊢
      exact { after with told := by simp [System.committed] }
    · simp only [System.absorb, Function.update_of_ne who] at told ⊢
      exact { inOrder.replicas other with told := by simp [System.committed, who] }
  · intro packet inNetwork
    rcases List.mem_append.mp inNetwork with old | new
    · apply (inOrder.packets packet old).mono
      exact fun other => (later other).1.trans (committed other)
    · obtain ⟨output, inOutputs, posted⟩ := List.mem_flatMap.mp new
      exact (valid output inOutputs packet posted).mono committed

/-- A step keeps the group in order. -/
theorem InOrder.step (inOrder : s.InOrder d) {action : Action} {next : System}
    (stepped : s.step d action = some next) : next.InOrder d := by
  cases action with
  | request client idx clientid clientreqid =>
      obtain rfl := Option.some.inj stepped
      exact inOrder.post_client ⟨client, rfl⟩
  | unloggedRequest client idx msg =>
      obtain rfl := Option.some.inj stepped
      exact inOrder.post_client ⟨client, rfl⟩
  | deliver position app =>
      simp only [System.step] at stepped
      split at stepped
      next src idx msg found =>
          unfold System.runAt at stepped
          split at stepped
          next =>
              obtain rfl := Option.some.inj stepped
              apply inOrder.absorb
              apply receiveMessage_runs (inOrder.replicas idx)
              exact inOrder.packets _ (List.mem_of_getElem? found)
          next => simp at stepped
      next => simp at stepped
  | timer idx timer =>
      simp only [System.step] at stepped
      split at stepped
      next active =>
          unfold System.runAt at stepped
          split at stepped
          next =>
              obtain rfl := Option.some.inj stepped
              exact inOrder.absorb (fireTimer_runs (inOrder.replicas idx) active)
          next => simp at stepped
      next => simp at stepped

/-- The group is in order in every reachable state. -/
theorem invariant_inOrder (d : Deployment) :
    (system d).Invariant TransitionSystem.unguarded fun s => s.InOrder d where
  initial state initial := by
    obtain rfl := initial
    exact inOrder_initial d
  preserved inOrder _ stepped := inOrder.step stepped

/-- The numbers of every replica are in order and say what its log is, the leader knows its whole
log, and no replica has stopped. -/
structure Indexed (d : Deployment) (s : System) : Prop where
  committed_le : ∀ idx, (s.replicas idx).lastCommitted ≤ (s.replicas idx).lastSlowPath
  slow_le : ∀ idx, (s.replicas idx).lastSlowPath ≤ (s.replicas idx).lastFastPath
  fast : ∀ idx, (s.replicas idx).lastFastPath = (s.replicas idx).log.lastOpnum
  leader : (s.replicas d.leader).lastSlowPath = (s.replicas d.leader).lastFastPath
  marked : ∀ idx opnum,
    (∃ entry, (s.replicas idx).log.find opnum = some entry ∧ entry.state = .committed) ↔
      0 < opnum ∧ opnum ≤ (s.replicas idx).lastCommitted
  running : ∀ idx, s.stopped idx = false

/-- Whatever happens under the one leader, the numbers stay in order and no assertion fails. -/
theorem indexed_of_reachable (reachable : (system d).Reachable TransitionSystem.unguarded s) :
    s.Indexed d := by
  have inOrder := (invariant_inOrder d).of_reachable reachable
  constructor
  · exact fun idx => (inOrder.replicas idx).tally.committed_le
  · exact fun idx => (inOrder.replicas idx).tally.slow_le
  · exact fun idx => (inOrder.replicas idx).tally.lastOpnum.symm
  · exact (inOrder.replicas d.leader).paths rfl
  · exact fun idx opnum => (inOrder.replicas idx).tally.committed_iff
  · exact inOrder.running

/-- In the crossed run replica 1 has committed one of the two requests that it knows, and has taken
the leader's log over its own. -/
theorem indexed_crossedRun : ∃ s : System, (s.replicas 0).lastCommitted = 2 ∧
    (s.replicas 1).lastCommitted = 1 ∧ (s.replicas 1).lastSlowPath = 2 ∧ s.Indexed trio := by
  obtain ⟨s, reachable, happened⟩ := (system trio).exists_reachable_of_run
    TransitionSystem.unguarded (fun s => decide ((s.replicas 0).lastCommitted = 2 ∧
      (s.replicas 1).lastCommitted = 1 ∧ (s.replicas 1).lastSlowPath = 2)) crossedRun rfl
    (by decide +kernel)
  obtain ⟨both, first, known⟩ := of_decide_eq_true happened
  exact ⟨s, both, first, known, indexed_of_reachable reachable⟩

end System

end PaxosBus.FastPaxos

import PaxosBus.Vr.ViewChange

/-!
# Recovery, and what a replica does in general

A replica that has lost its state stays out of everything but the collection of
answers: the step with which a leader's log comes back to it is not defined. The
last sections put the handlers together: whatever message arrives and whatever
timeout fires, a backed replica stays backed.
-/

set_option autoImplicit false

namespace PaxosBus.Vr

open PaxosBus.Common PaxosBus.Library World
open Logic (Meets)
open Std (TreeMap)

variable {setup : Setup} {admits : Admission} {w : World setup.configuration admits} {r : Replica}
  {app : App} {undefined : Undefined}

/-! ## Messages that wait for better times -/

/-- The messages that a replica handles only in normal status. -/
def Message.NormalOnly : Message → Prop
  | .request _ => True
  | .unloggedRequest _ => True
  | .prepare _ => True
  | .prepareOK _ => True
  | .commit _ => True
  | .requestStateTransfer _ => True
  | .recovery _ => True
  | _ => False

/-- The messages that a replica knows. -/
def Message.ForReplica : Message → Prop
  | .reply _ => False
  | .unloggedReply _ => False
  | _ => True

/-- Reading the state first is reading it from where the handler starts. -/
theorem get_bind {α : Type} (next : Replica → Run α) (r : Replica) :
    (Handler.get >>= next) r = next r r := rfl

/-- A handler that wants normal status does nothing without it. -/
theorem ignored_unless_normal (abnormal : r.status ≠ .normal) (body : Replica → Run Unit) :
    (Handler.get >>= fun r => if r.status ≠ .normal then pure () else body r) r =
      ⟨r, [], some ()⟩ := by
  rw [get_bind, if_pos abnormal]
  rfl

theorem receiveMessage_of_abnormal (abnormal : r.status ≠ .normal) {remote : Address}
    {msg : Message} (kind : msg.NormalOnly) :
    receiveMessage setup app undefined remote msg r = ⟨r, [], some ()⟩ := by
  cases msg with
  | request msg => exact ignored_unless_normal abnormal _
  | unloggedRequest msg => exact ignored_unless_normal abnormal _
  | prepare msg => exact ignored_unless_normal abnormal _
  | prepareOK msg => exact ignored_unless_normal abnormal _
  | commit msg => exact ignored_unless_normal abnormal _
  | requestStateTransfer msg => exact ignored_unless_normal abnormal _
  | recovery msg => exact ignored_unless_normal abnormal _
  | _ => exact kind.elim

/-- A handler of the view change does nothing for a view that the replica does not attend to. -/
theorem ignored_unless_attended {view : Nat} (stale : ¬ r.view < view)
    (settled : r.status ≠ .viewChange) (body : Replica → Run Unit) :
    (Handler.get >>= fun r => if view < r.view then pure () else
      if view = r.view ∧ r.status ≠ .viewChange then pure () else body r) r =
      ⟨r, [], some ()⟩ := by
  rw [get_bind]
  split
  next => rfl
  next => rw [if_pos ⟨by omega, settled⟩]; rfl

/-- A replica that has lost its state ignores whatever is not an answer to it, unless it gets
into a view change or a state transfer. -/
theorem receiveMessage_of_recovering (recovering : r.status = .recovering) {remote : Address}
    {msg : Message} (clear : ¬ r.Meddles msg) (noReply : msg.ForReplica)
    (noAnswer : ∀ answer, msg ≠ .recoveryResponse answer) :
    receiveMessage setup app undefined remote msg r = ⟨r, [], some ()⟩ := by
  have abnormal : r.status ≠ .normal := by simp [recovering]
  have settled : r.status ≠ .viewChange := by simp [recovering]
  cases msg with
  | stateTransfer msg =>
      have stale : msg.view < r.view := not_le.mp fun current => clear ⟨recovering, current⟩
      change (Handler.get >>= fun r => if msg.view < r.view then pure () else _) r = _
      rw [get_bind, if_pos stale]
      rfl
  | startViewChange msg =>
      exact ignored_unless_attended (fun later => clear ⟨recovering, later⟩) settled _
  | doViewChange msg =>
      exact ignored_unless_attended (fun later => clear ⟨recovering, later⟩) settled _
  | startView msg =>
      exact ignored_unless_attended (fun later => clear ⟨recovering, later⟩) settled _
  | recoveryResponse msg => exact absurd rfl (noAnswer msg)
  | reply msg => exact noReply.elim
  | unloggedReply msg => exact noReply.elim
  | _ => exact receiveMessage_of_abnormal abnormal trivial

/-- What does nothing meets what holds already. -/
theorem meets_of_ignored {handler : Run Unit} {Post : Unit → World setup.configuration admits →
    Replica → Prop} (recorded : r.Recorded w setup.replicaIdx)
    (ignored : handler r = ⟨r, [], some ()⟩) (post : Post () w r) :
    (setup.logic admits).Meets handler w r Post := by
  refine ⟨w, .refl, ?_, ?_, ?_⟩
  · rw [ignored]
    exact fun _ none_ => nomatch none_
  · rw [ignored]
    exact recorded
  · rw [ignored]
    exact fun _ _ => post

/-! ## Answering a recovering replica -/

theorem handleRecovery_meets (recorded : r.Recorded w setup.replicaIdx)
    (active : r.core.Active w setup.replicaIdx) (remote : Address) (msg : RecoveryMessage) :
    (setup.logic admits).Meets (handleRecovery setup remote msg) w r fun _ w' r' =>
      r'.core.Active w' setup.replicaIdx := by
  unfold handleRecovery
  refine .bind (.get recorded fun _ => ?_)
  refine .branch (fun _ => .pure recorded active) (fun _ => ?_)
  exact .branch (fun _ => .emit recorded trivial active) (fun _ => .emit recorded trivial active)

/-! ## Waiting for the answers -/

theorem handleRecoveryResponse_meets (recorded : r.Recorded w setup.replicaIdx)
    (backed : r.Backed w setup.replicaIdx) {msg : RecoveryResponseMessage}
    (defined : ¬ (r.status = .recovering ∧ r.Recovers setup (.recoveryResponse msg))) :
    (setup.logic admits).Meets (handleRecoveryResponse setup undefined msg) w r fun _ w' r' =>
      r'.Backed w' setup.replicaIdx := by
  unfold handleRecoveryResponse
  refine .bind (.get recorded fun _ => ?_)
  refine .branch (fun _ => .pure recorded backed) (fun notWaiting => ?_)
  refine .branch (fun _ => .pure recorded backed) (fun sameNonce => ?_)
  have status := not_not.mp notWaiting
  have nonce := not_not.mp sameNonce
  have waits : { r with
      recoveryResponseQuorum := r.recoveryResponseQuorum.add msg.nonce msg.replicaidx msg }.Backed
      w setup.replicaIdx := by
    rcases backed with engaged | recovering
    · exact .inl engaged
    · exact .inr { recovering with }
  dsimp only [QuorumSet.addAndCheckForQuorum]
  refine .bind (.change recorded fun keeps => ?_)
  split
  next => exact .pure keeps waits
  next msgs found =>
      obtain ⟨rfl, enough⟩ := QuorumSet.of_checkForQuorum found
      refine .bind (.require keeps fun follows _ => ?_)
      split
      next => exact .pure keeps waits
      next leaderResponse present =>
          refine .branch (fun _ => .pure keeps waits) (fun sameView => ?_)
          exact absurd ⟨status, nonce, enough, follows, leaderResponse, present,
            not_not.mp sameView⟩ defined

/-! ## Any message -/

/-- The messages that clients send. -/
def Message.FromClient : Message → Prop
  | .request _ => True
  | .unloggedRequest _ => True
  | _ => False

/-- A message says nothing that is not so, whoever sent it. -/
def Message.Genuine {c : Configuration} (w : World c admits) (remote dst : Address)
    (msg : Message) : Prop :=
  match remote with
  | .replica src => msg.Valid w src (.one dst)
  | .client _ => msg.FromClient

/-- The operation that a request leads to may be appended by the leader that accepts it. -/
def Message.Admitted (setup : Setup) (admits : Admission) (r : Replica) : Message → Prop
  | .request msg => r.Accepts setup msg → Admits admits r msg
  | _ => True

/-- A message that is handled only in normal status leaves a replica backed if it leaves an
active replica active. -/
theorem receiveMessage_of_normalOnly (recorded : r.Recorded w setup.replicaIdx)
    (backed : r.Backed w setup.replicaIdx) {remote : Address} {msg : Message}
    (kind : msg.NormalOnly)
    (whenActive : r.core.Active w setup.replicaIdx →
      (setup.logic admits).Meets (receiveMessage setup app undefined remote msg) w r
        fun _ w' r' => r'.core.Active w' setup.replicaIdx) :
    (setup.logic admits).Meets (receiveMessage setup app undefined remote msg) w r
      fun _ w' r' => r'.Backed w' setup.replicaIdx := by
  rcases backed with (active | changing) | recovering
  · refine (whenActive active).imp ?_
    exact fun _ _ _ _ activeAfter => .inl (.inl activeAfter)
  · have abnormal : r.status ≠ .normal := by
      rw [show r.status = .viewChange from changing.status]
      decide
    exact meets_of_ignored recorded (receiveMessage_of_abnormal abnormal kind)
      (.inl (.inr changing))
  · have abnormal : r.status ≠ .normal := by
      rw [recovering.status]
      decide
    exact meets_of_ignored recorded (receiveMessage_of_abnormal abnormal kind) (.inr recovering)

/-- A message of a view change or a state transfer leaves a replica backed if it leaves a replica
that takes part in the protocol in it. -/
theorem receiveMessage_of_engaged (recorded : r.Recorded w setup.replicaIdx)
    (backed : r.Backed w setup.replicaIdx) {remote : Address} {msg : Message}
    (clear : ¬ r.Meddles msg) (noReply : msg.ForReplica)
    (noAnswer : ∀ answer, msg ≠ .recoveryResponse answer)
    (whenEngaged : r.core.Engaged w setup.replicaIdx →
      (setup.logic admits).Meets (receiveMessage setup app undefined remote msg) w r
        fun _ w' r' => r'.core.Engaged w' setup.replicaIdx) :
    (setup.logic admits).Meets (receiveMessage setup app undefined remote msg) w r
      fun _ w' r' => r'.Backed w' setup.replicaIdx := by
  rcases backed with engaged | recovering
  · exact (whenEngaged engaged).imp fun _ _ _ _ engagedAfter => .inl engagedAfter
  · exact meets_of_ignored recorded
      (receiveMessage_of_recovering recovering.status clear noReply noAnswer)
      (.inr recovering)

/-- Whatever message arrives, a backed replica stays backed, unless the handling is not defined or
takes one of the branches on which agreement is lost. -/
theorem receiveMessage_meets (balanced : setup.configuration.Balanced)
    (inGroup : setup.replicaIdx < setup.configuration.n)
    (recorded : r.Recorded w setup.replicaIdx) (backed : r.Backed w setup.replicaIdx)
    {remote : Address} {msg : Message} (genuine : msg.Genuine w remote (.replica setup.replicaIdx))
    (admitted : msg.Admitted setup admits r) (defined : ¬ r.Dangles setup msg)
    (clear : ¬ r.Errs setup msg) :
    (setup.logic admits).Meets (receiveMessage setup app undefined remote msg) w r
      fun _ w' r' => r'.Backed w' setup.replicaIdx := by
  have valid : ∀ src, remote = .replica src →
      msg.Valid w src (.one (.replica setup.replicaIdx)) := by
    rintro src rfl
    exact genuine
  have fromReplica : ¬ msg.FromClient → ∃ src, remote = .replica src := by
    intro notClient
    cases remote with
    | replica src => exact ⟨src, rfl⟩
    | client addr => exact absurd genuine notClient
  refine .of_eq (receiveMessage_of_defined defined) ?_
  cases msg with
  | request msg =>
      exact receiveMessage_of_normalOnly recorded backed trivial fun active =>
        handleRequest_meets recorded active remote msg admitted
  | unloggedRequest msg =>
      refine receiveMessage_of_normalOnly recorded backed trivial fun active => ?_
      refine .bind (.get recorded fun _ => ?_)
      refine .branch (fun _ => .pure recorded active) (fun _ => ?_)
      exact .emit recorded trivial active
  | prepare msg =>
      obtain ⟨src, rfl⟩ := fromReplica id
      exact receiveMessage_of_normalOnly recorded backed trivial fun active =>
        handlePrepare_meets inGroup recorded active _ (valid src rfl)
  | prepareOK msg =>
      obtain ⟨src, rfl⟩ := fromReplica id
      exact receiveMessage_of_normalOnly recorded backed trivial fun active =>
        handlePrepareOK_meets balanced inGroup recorded active (valid src rfl) clear
  | commit msg =>
      obtain ⟨src, rfl⟩ := fromReplica id
      exact receiveMessage_of_normalOnly recorded backed trivial fun active =>
        handleCommit_meets balanced recorded active (valid src rfl)
  | requestStateTransfer msg =>
      obtain ⟨src, rfl⟩ := fromReplica id
      exact receiveMessage_of_normalOnly recorded backed trivial fun active =>
        handleRequestStateTransfer_meets recorded active (valid src rfl)
  | recovery msg =>
      exact receiveMessage_of_normalOnly recorded backed trivial fun active =>
        handleRecovery_meets recorded active remote msg
  | stateTransfer msg =>
      obtain ⟨src, rfl⟩ := fromReplica id
      refine receiveMessage_of_engaged recorded backed (fun meddles => clear (.inl meddles))
        trivial (fun _ => nofun) fun engaged => ?_
      exact handleStateTransfer_meets balanced inGroup recorded engaged (valid src rfl)
        (fun keeps => clear (.inr (.inl keeps))) (fun early => clear (.inr (.inr early)))
  | startViewChange msg =>
      exact receiveMessage_of_engaged recorded backed clear trivial (fun _ => nofun)
        fun engaged => handleStartViewChange_meets inGroup recorded engaged
  | doViewChange msg =>
      obtain ⟨src, rfl⟩ := fromReplica id
      refine receiveMessage_of_engaged recorded backed (fun meddles => clear (.inl meddles))
        trivial (fun _ => nofun) fun engaged => ?_
      exact handleDoViewChange_meets inGroup recorded engaged (valid src rfl)
        (fun misranks => clear (.inr misranks))
  | startView msg =>
      obtain ⟨src, rfl⟩ := fromReplica id
      refine receiveMessage_of_engaged recorded backed (fun meddles => clear (.inl meddles))
        trivial (fun _ => nofun) fun engaged => ?_
      exact handleStartView_meets balanced inGroup recorded engaged (valid src rfl)
        (fun keeps => clear (.inr keeps))
  | recoveryResponse msg => exact handleRecoveryResponse_meets recorded backed defined
  | reply msg => exact .stop recorded
  | unloggedReply msg => exact .stop recorded

/-! ## Any timeout -/

/-- Nothing at all is always decided. -/
theorem decided_zero {c : Configuration} {w : World c admits} (balanced : c.Balanced)
    (view : Nat) : w.Decided view 0 := by
  refine ⟨view, Nat.le_refl _, Finset.range c.n, Finset.Subset.refl _, ?_, ?_⟩
  · change c.f + 1 ≤ _
    rw [Finset.card_range]
    have := balanced
    unfold Configuration.Balanced at this
    omega
  · exact fun _ _ => Nat.zero_le _

/-- What a backed replica has committed is decided for its view. -/
theorem Replica.Backed.committed (balanced : setup.configuration.Balanced)
    (backed : r.Backed w setup.replicaIdx) : w.Decided r.view r.lastCommitted := by
  rcases backed with engaged | recovering
  · exact engaged.placed.committed.mono engaged.normalView_le (Nat.le_refl _)
  · rw [recovering.lastCommitted]
    exact decided_zero balanced _

/-- What a backed replica has collected is valid. -/
theorem Replica.Backed.collected (backed : r.Backed w setup.replicaIdx) :
    r.core.Collected w setup.replicaIdx :=
  backed.elim (·.placed.collected) (·.collected)

/-- A replica that is not active in its view has no operations of the view to send. -/
theorem Replica.Backed.batchRequests_eq_none (backed : r.Backed w setup.replicaIdx)
    (inactive : ¬ r.core.Active w setup.replicaIdx)
    {i count : Nat} (some_ : 0 < count) : batchRequests r.log r.view i count = none := by
  obtain ⟨rest, rfl⟩ : ∃ rest, count = rest + 1 := ⟨count - 1, by omega⟩
  unfold batchRequests
  cases found : r.log.find i with
  | none => rfl
  | some entry =>
      have here := Log.operation_of_find found
      refine if_neg fun matching => ?_
      rcases backed with (active | changing) | recovering
      · exact inactive active
      · have held : r.log.operations = _ := changing.placed.log
        rw [held] at here
        have created := w.sound.created _ _ _ (List.mem_of_getElem? here)
        have view : r.normalView < r.view := changing.view
        change entry.viewstamp.view ≤ r.normalView at created
        omega
      · rw [recovering.log] at here
        simp at here

theorem fireTimer_meets (balanced : setup.configuration.Balanced)
    (recorded : r.Recorded w setup.replicaIdx) (backed : r.Backed w setup.replicaIdx)
    {timer : Timer} (running : r.active timer = true) :
    (setup.logic admits).Meets (fireTimer setup timer) w r
      fun _ w' r' => r'.Backed w' setup.replicaIdx := by
  cases timer with
  | viewChange =>
      refine .bind (.get recorded fun _ => ?_)
      rcases backed with engaged | recovering
      · refine (startViewChange_meets recorded engaged (Nat.lt_succ_self r.view)).imp ?_
        rintro _ _ _ _ ⟨rfl, -, changing⟩
        exact .inl (.inr changing)
      · exact absurd (recovering.quiet.symm.trans running) (by decide)
  | nullCommit =>
      refine .bind (.get recorded fun _ => ?_)
      refine .bind (.require recorded fun _ _ => ?_)
      exact .emit recorded (backed.committed balanced) backed
  | stateTransfer =>
      refine .change recorded ?_
      rcases backed with engaged | recovering
      · exact .inl engaged
      · exact .inr { recovering with }
  | resendPrepare =>
      refine .bind (.get recorded fun _ => ?_)
      refine .bind (.require recorded fun _ _ => ?_)
      refine .branch (fun _ => .pure recorded backed) (fun _ => ?_)
      exact .emit recorded backed.collected.resendable backed
  | closeBatch =>
      by_cases active : r.core.Active w setup.replicaIdx
      · refine (closeBatch_meets recorded active).imp ?_
        rintro _ _ _ _ ⟨rfl, activeAfter⟩
        exact .inl (.inl activeAfter)
      · refine .bind (.get recorded fun _ => ?_)
        refine .bind (.require recorded fun _ _ => ?_)
        refine .bind (.require recorded fun some_ _ => ?_)
        refine .bind (.demand recorded fun requests batched _ => ?_)
        rw [backed.batchRequests_eq_none active (by omega)] at batched
        exact nomatch batched
  | recovery =>
      refine .bind (.get recorded fun _ => ?_)
      exact .emit recorded trivial backed

end PaxosBus.Vr

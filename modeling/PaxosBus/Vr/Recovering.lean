import PaxosBus.Vr.Safety

/-!
# A recovering replica and votes

Every handler checks the status for itself. What a replica does between its
restart and the answer that brings it back a leader's log, and the handlers
through which it can get into a view change before that.
-/

set_option autoImplicit false

namespace PaxosBus.Vr

open PaxosBus.Common PaxosBus.Library

/-- A vote: for a view change, for a view, or for an operation. -/
def Message.IsVote : Message → Prop
  | .startViewChange _ => True
  | .doViewChange _ => True
  | .prepareOK _ => True
  | _ => False

instance (msg : Message) : Decidable msg.IsVote :=
  match msg with
  | .startViewChange _ | .doViewChange _ | .prepareOK _ => .isTrue trivial
  | .request _ | .reply _ | .unloggedRequest _ | .unloggedReply _ | .prepare _ | .commit _ |
      .requestStateTransfer _ | .stateTransfer _ | .startView _ | .recovery _ |
      .recoveryResponse _ => .isFalse id

/-- An output that is a vote. -/
def Output.IsVote : Output → Prop
  | .send _ msg => msg.IsVote
  | _ => False

namespace Replica

variable (setup : Setup) (r : Replica)

/-- A replica that waits for its state: no timeout of a view change is running. -/
structure Waits : Prop where
  status : r.status = .recovering
  quiet : r.viewChangeTimeout = false

end Replica

variable {setup : Setup} {r : Replica} {app : App} {undefined : Undefined}

/-- A waiting replica is judged by this: it puts out no vote and goes on waiting. -/
def aloof : Logic Unit Replica Output where
  Later _ _ := True
  refl _ := trivial
  trans _ _ := trivial
  Valid _ output := ¬ output.IsVote
  mono _ valid := valid
  Keeps _ r := r.Waits

/-- A handler leaves a waiting replica waiting, and without a vote. -/
abbrev StaysAloof (handler : Run Unit) (r : Replica) : Prop :=
  aloof.Meets handler () r fun _ _ _ => True

theorem staysAloof_of_ignored {handler : Run Unit} (waits : r.Waits) {value : Option Unit}
    (ignored : handler r = ⟨r, [], value⟩) : StaysAloof handler r := by
  refine ⟨(), trivial, ?_, ?_, fun _ _ => trivial⟩
  · rw [ignored]
    exact fun _ none_ => nomatch none_
  · rw [ignored]
    exact waits

theorem handleRecoveryResponse_aloof (waits : r.Waits) {msg : RecoveryResponseMessage}
    (notYet : ¬ r.Recovers setup (.recoveryResponse msg)) :
    StaysAloof (handleRecoveryResponse setup undefined msg) r := by
  unfold handleRecoveryResponse
  refine .bind (.get waits fun _ => ?_)
  refine .branch (fun _ => .pure waits trivial) (fun _ => ?_)
  refine .branch (fun _ => .pure waits trivial) (fun sameNonce => ?_)
  dsimp only [QuorumSet.addAndCheckForQuorum]
  have waitsNow : { r with recoveryResponseQuorum :=
      r.recoveryResponseQuorum.add msg.nonce msg.replicaidx msg }.Waits :=
    ⟨waits.status, waits.quiet⟩
  refine .bind (.change waitsNow fun _ => ?_)
  split
  next => exact .pure waitsNow trivial
  next msgs found =>
      obtain ⟨rfl, enough⟩ := QuorumSet.of_checkForQuorum found
      refine .bind (.require waitsNow fun follows _ => ?_)
      split
      next => exact .pure waitsNow trivial
      next leaderResponse foundLeader =>
          refine .branch (fun _ => .pure waitsNow trivial) (fun highest => ?_)
          exact absurd ⟨not_not.mp sameNonce, enough, follows, leaderResponse, foundLeader,
            not_not.mp highest⟩ notYet

/-- Whatever message arrives, a waiting replica stays aloof, unless it gets into a view change or
a state transfer or the message is the one that brings back a leader's log. -/
theorem receiveMessage_aloof (waits : r.Waits) {remote : Address} {msg : Message}
    (clear : ¬ r.Meddles msg) (notYet : ¬ r.Recovers setup msg) :
    StaysAloof (receiveMessage setup app undefined remote msg) r := by
  cases msg with
  | recoveryResponse msg => exact handleRecoveryResponse_aloof waits notYet
  | reply msg => exact .stop waits
  | unloggedReply msg => exact .stop waits
  | _ =>
      exact staysAloof_of_ignored waits
        (receiveMessage_of_recovering waits.status clear trivial fun _ => nofun)

/-- Whatever timeout fires, a waiting replica stays aloof. -/
theorem fireTimer_aloof (waits : r.Waits) {timer : Timer} (running : r.active timer = true) :
    StaysAloof (fireTimer setup timer) r := by
  cases timer with
  | viewChange => exact absurd (waits.quiet.symm.trans running) (by decide)
  | nullCommit =>
      refine .bind (.get waits fun _ => ?_)
      refine .bind (.require waits fun _ _ => ?_)
      exact .emit waits id trivial
  | stateTransfer => exact .change ⟨waits.status, waits.quiet⟩ trivial
  | resendPrepare =>
      refine .bind (.get waits fun _ => ?_)
      refine .bind (.require waits fun _ _ => ?_)
      refine .branch (fun _ => .pure waits trivial) (fun _ => ?_)
      exact .emit waits id trivial
  | closeBatch =>
      refine .bind (.get waits fun _ => ?_)
      refine .bind (.require waits fun _ _ => ?_)
      refine .bind (.require waits fun _ _ => ?_)
      refine .bind (.demand waits fun requests _ _ => ?_)
      refine .bind (.change ⟨waits.status, waits.quiet⟩ fun waitsNow => ?_)
      refine .bind (.emit waitsNow id fun _ => ?_)
      exact .change ⟨waits.status, waits.quiet⟩ trivial
  | recovery =>
      refine .bind (.get waits fun _ => ?_)
      exact .emit waits id trivial

namespace System

variable (d : Deployment) (idx : Nat)

/-- The step delivers to replica `idx`, while it recovers, a message through which it takes part
in a view change or a state transfer. -/
def Meddles (s : System) : Action → Prop
  | .deliver position _ _ => ∃ packet ∈ s.network[position]?,
      packet.dst = .replica idx ∧ (s.replicas idx).Meddles packet.msg
  | _ => False

/-- The step delivers to replica `idx` the answer with which it installs a leader's log. -/
def Recovers (s : System) : Action → Prop
  | .deliver position _ _ => ∃ packet ∈ s.network[position]?,
      packet.dst = .replica idx ∧ (s.replicas idx).Recovers (d.setup idx) packet.msg
  | _ => False

/-- Replica `idx` is recovering, and has sent no vote since the network held `count` packets. -/
structure KeepsOut (count : Nat) (s : System) : Prop where
  recovering : (s.replicas idx).status = .recovering
  noVote : ∀ packet ∈ s.network.drop count, packet.src = .replica idx → ¬ packet.msg.IsVote

variable {d idx} {count : Nat} {s next : System}

/-- The invariant of a recovery. -/
structure Waiting (idx count : Nat) (s : System) : Prop where
  waits : (s.replicas idx).Waits
  noVote : ∀ packet ∈ s.network.drop count, packet.src = .replica idx → ¬ packet.msg.IsVote
  count_le : count ≤ s.network.length

/-- The packets of an output carry what the output does, from its replica. -/
theorem of_post {src : Nat} {output : Output} {packet : Packet}
    (posted : packet ∈ post d.configuration src output) :
    packet.src = .replica src ∧ (packet.msg.IsVote → output.IsVote) := by
  cases output with
  | send dst msg =>
      cases dst with
      | one addr =>
          obtain rfl := List.mem_singleton.mp posted
          exact ⟨rfl, id⟩
      | others =>
          obtain ⟨_, -, rfl⟩ := List.mem_map.mp posted
          exact ⟨rfl, id⟩
  | execute opnum request => exact nomatch posted
  | prepared view opnum entries => exact nomatch posted
  | started view entries => exact nomatch posted

/-- What a replica does leaves another one waiting, and itself if it stays aloof. -/
theorem Waiting.absorb (waiting : s.Waiting idx count) {actor : Nat}
    {outcome : Outcome Replica Output Unit}
    (itself : actor = idx → outcome.state.Waits ∧ ∀ output ∈ outcome.outputs, ¬ output.IsVote) :
    (s.absorb d actor outcome).Waiting idx count where
  waits := by
    by_cases who : actor = idx
    · subst who
      simpa [System.absorb] using (itself rfl).1
    · simpa [System.absorb, Function.update_of_ne (Ne.symm who)] using waiting.waits
  noVote packet inNew src := by
    simp only [System.absorb] at inNew
    rw [List.drop_append_of_le_length waiting.count_le] at inNew
    rcases List.mem_append.mp inNew with old | new
    · exact waiting.noVote packet old src
    · obtain ⟨output, inOutputs, posted⟩ := List.mem_flatMap.mp new
      obtain ⟨srcToo, vote⟩ := of_post posted
      obtain rfl : actor = idx := by
        rw [srcToo] at src
        exact Address.replica.inj src
      exact fun isVote => (itself rfl).2 output inOutputs (vote isVote)
  count_le := by
    simp only [System.absorb, List.length_append]
    exact waiting.count_le.trans (Nat.le_add_right _ _)

/-- A handler at which a waiting replica stays aloof. -/
theorem Waiting.runAt (waiting : s.Waiting idx count) {actor : Nat} {handler : Run Unit}
    (ran : s.runAt d actor handler = some next)
    (itself : actor = idx → StaysAloof handler (s.replicas idx)) : next.Waiting idx count := by
  unfold System.runAt at ran
  split at ran
  next =>
      obtain rfl := Option.some.inj ran
      refine waiting.absorb fun who => ?_
      obtain ⟨_, -, noVote, waits, -⟩ := itself who
      subst who
      exact ⟨waits, noVote⟩
  next => simp at ran

/-- A client's packet is no vote of a replica. -/
theorem Waiting.post_client (waiting : s.Waiting idx count) {client dst : Nat} {msg : Message} :
    ({ s with network := s.network ++ [⟨.client client, .replica dst, msg⟩] } : System).Waiting
      idx count where
  waits := waiting.waits
  noVote packet inNew src := by
    change packet ∈ (s.network ++ [_]).drop count at inNew
    rw [List.drop_append_of_le_length waiting.count_le] at inNew
    rcases List.mem_append.mp inNew with old | new
    · exact waiting.noVote packet old src
    · obtain rfl := List.mem_singleton.mp new
      exact nomatch src
  count_le := by
    simp only [List.length_append]
    exact waiting.count_le.trans (Nat.le_add_right _ _)

/-- A replica that has just been constructed without `initialize` waits. -/
theorem crash_aloof (d : Deployment) (idx : Nat) (before : Replica) (nonce : Nat) :
    StaysAloof (sendRecoveryMessages (d.setup idx)) (before.restarted (d.setup idx) nonce) := by
  have waits : (before.restarted (d.setup idx) nonce).Waits := ⟨rfl, rfl⟩
  refine .bind (.get waits fun _ => ?_)
  exact .emit waits id trivial

/-- A step in which the replica neither gets into a view change or a state transfer nor installs
a leader's log leaves it waiting. -/
theorem Waiting.step (waiting : s.Waiting idx count) {action : Action}
    (clear : ¬ s.Meddles idx action) (notYet : ¬ s.Recovers d idx action)
    (stepped : s.step d action = some next) : next.Waiting idx count := by
  cases action with
  | request client dst msg =>
      obtain rfl := Option.some.inj stepped
      exact waiting.post_client
  | unloggedRequest client dst msg =>
      obtain rfl := Option.some.inj stepped
      exact waiting.post_client
  | deliver position app undefined =>
      simp only [System.step] at stepped
      split at stepped
      next src actor msg found =>
          refine waiting.runAt stepped ?_
          rintro rfl
          apply receiveMessage_aloof waiting.waits
          · exact fun meddles => clear ⟨_, found, rfl, meddles⟩
          · exact fun recovers => notYet ⟨_, found, rfl, recovers⟩
      next => simp at stepped
  | timer actor timer =>
      simp only [System.step] at stepped
      split at stepped
      next running =>
          refine waiting.runAt stepped ?_
          rintro rfl
          exact fireTimer_aloof waiting.waits running
      next => simp at stepped
  | crash actor nonce =>
      simp only [System.step, System.crash] at stepped
      split at stepped
      next =>
          obtain rfl := Option.some.inj stepped
          refine waiting.absorb fun _ => ?_
          obtain ⟨_, -, noVote, waits, -⟩ := crash_aloof d actor (s.replicas actor) nonce
          exact ⟨waits, noVote⟩
      next => simp at stepped

/-- After a crash the replica waits. -/
theorem waiting_of_crash {nonce : Nat} (crashed : s.step d (.crash idx nonce) = some next) :
    next.Waiting idx s.network.length := by
  simp only [System.step, System.crash] at crashed
  split at crashed
  next =>
      obtain rfl := Option.some.inj crashed
      obtain ⟨_, -, noVote, waits, -⟩ := crash_aloof d idx (s.replicas idx) nonce
      let restarted := (s.replicas idx).restarted (d.setup idx) nonce
      have before : ({ s with replicas := Function.update s.replicas idx restarted } :
          System).Waiting idx s.network.length := {
        waits := by
          change (Function.update s.replicas idx restarted idx).Waits
          rw [Function.update_self]
          exact ⟨rfl, rfl⟩
        noVote := by simp
        count_le := Nat.le_refl _ }
      have after : (System.absorb d { s with replicas := Function.update s.replicas idx restarted }
          idx (sendRecoveryMessages (d.setup idx) restarted)).Waiting idx s.network.length :=
        before.absorb fun _ => ⟨waits, noVote⟩
      simpa only [System.absorb, Function.update_idem] using after
  next => simp at crashed

/-- From its restart until it installs a leader's log a replica is recovering and sends no vote, in
every run in which no message gets it into a view change or a state transfer before that. -/
theorem keepsOut_of_clear {after final : System} {nonce : Nat} {actions : List Action}
    (crashed : s.step d (.crash idx nonce) = some after)
    (steps : (system d).Steps
      (fun s action => ¬ s.Recovers d idx action ∧ ¬ s.Meddles idx action) after actions final) :
    final.KeepsOut idx s.network.length := by
  have waiting : final.Waiting idx s.network.length := by
    induction steps with
    | refl => exact waiting_of_crash crashed
    | step _ admitted stepped inductionHypothesis =>
        exact inductionHypothesis.step admitted.2 admitted.1 stepped
  exact ⟨waiting.waits.status, waiting.noVote⟩

instance (idx : Nat) (s : System) (action : Action) : Decidable (s.Meddles idx action) :=
  match action with
  | .deliver position _ _ =>
    inferInstanceAs (Decidable (∃ packet ∈ s.network[position]?,
      packet.dst = .replica idx ∧ (s.replicas idx).Meddles packet.msg))
  | .request .. | .unloggedRequest .. | .timer .. | .crash .. => .isFalse id

instance (d : Deployment) (idx : Nat) (s : System) (action : Action) :
    Decidable (s.Recovers d idx action) :=
  match action with
  | .deliver position _ _ =>
    inferInstanceAs (Decidable (∃ packet ∈ s.network[position]?,
      packet.dst = .replica idx ∧ (s.replicas idx).Recovers (d.setup idx) packet.msg))
  | .request .. | .unloggedRequest .. | .timer .. | .crash .. => .isFalse id

/-- The actions of a run after replica 2 has crashed: one of the others answers it. -/
def answeredRun : List Action := deliveries [0, 2]

/-- The actions of a run after replica 2 has crashed: it hears of a view change. -/
def meddlingRun : List Action := [.timer 1 .viewChange] ++ deliveries [3]

/-- In the answered run replica 2 counts an answer, and keeps out. -/
theorem keepsOut_answeredRun : ∃ s : System,
    ((s.replicas 2).recoveryResponseQuorum.messages 5).size = 1 ∧ s.KeepsOut 2 0 := by
  obtain ⟨after, crashed, rest⟩ := (Option.any_eq_true _ _).mp
    (show ((initial trio).step trio (.crash 2 5)).any (fun after =>
      ((system trio).run (fun s action => ¬ s.Recovers trio 2 action ∧ ¬ s.Meddles 2 action)
        after answeredRun).any fun final => decide
          (((final.replicas 2).recoveryResponseQuorum.messages 5).size = 1)) = true by
      decide +kernel)
  obtain ⟨final, executed, counted⟩ := (Option.any_eq_true _ _).mp rest
  exact ⟨final, of_decide_eq_true counted,
    keepsOut_of_clear crashed (TransitionSystem.steps_of_run executed)⟩

/-- In the meddling run replica 2 votes, before anyone has answered. -/
theorem not_keepsOut_meddlingRun : ¬ ∀ (d : Deployment) (idx nonce : Nat) (s after final : System)
    (actions : List Action), d.configuration.Balanced →
      (system d).Reachable (Defined d) s →
      s.step d (.crash idx nonce) = some after →
      (system d).Steps (fun s action => s.Defined d action ∧ ¬ s.Recovers d idx action) after
        actions final →
      final.KeepsOut idx s.network.length := by
  intro always
  obtain ⟨after, crashed, rest⟩ := (Option.any_eq_true _ _).mp
    (show ((initial trio).step trio (.crash 2 5)).any (fun after =>
      ((system trio).run (fun s action => s.Defined trio action ∧ ¬ s.Recovers trio 2 action)
        after meddlingRun).any fun final => decide ((final.replicas 2).status ≠ .recovering)) =
          true by decide +kernel)
  obtain ⟨final, executed, left⟩ := (Option.any_eq_true _ _).mp rest
  have keepsOut := always trio 2 5 (initial trio) after final meddlingRun balanced_trio
    (.initial rfl) crashed (TransitionSystem.steps_of_run executed)
  exact of_decide_eq_true left keepsOut.recovering

end System

end PaxosBus.Vr

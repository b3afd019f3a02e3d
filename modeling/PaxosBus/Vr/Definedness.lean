import PaxosBus.Vr.System

/-!
# Where the behaviour is defined

Two handlers go through a pointer to what is gone: the leader of a new view that
selects the log of a vote over its own, and a replica to which a leader's log
comes back. What they do there is anybody's guess. A handling that does not get
there does not depend on the guess, so whatever is proved with a replica that
stops there holds of it.
-/

set_option autoImplicit false

namespace PaxosBus.Vr

open PaxosBus.Common PaxosBus.Library
open Std (TreeMap)

variable {setup : Setup} {app : App} {r : Replica} {undefined undefined' : Undefined}

/-! ## Selecting a log -/

/-- What the search for the latest log ends in: nothing, if no message outranks the log that it
starts from, or else a message that does and that no other outranks. -/
def Selects (latestView latestOp : Nat) (start : Option DoViewChangeMessage)
    (msgs : List DoViewChangeMessage) (result : Nat × Option DoViewChangeMessage) : Prop :=
  (result = (latestOp, start) ∧ ∀ x ∈ msgs, ¬ Outranks x latestView latestOp) ∨
    ∃ best ∈ msgs, result = (best.lastop, some best) ∧ Outranks best latestView latestOp ∧
      ∀ x ∈ msgs, ¬ Outranks x best.lastnormalview best.lastop

theorem selects_latest (latestView latestOp : Nat) (start : Option DoViewChangeMessage)
    (msgs : List DoViewChangeMessage) :
    Selects latestView latestOp start msgs (latest latestView latestOp start msgs) := by
  induction msgs generalizing latestView latestOp start with
  | nil => exact .inl ⟨rfl, fun _ none_ => nomatch none_⟩
  | cons x rest inductionHypothesis =>
      unfold latest
      split
      next ahead =>
          refine .inr ?_
          rcases inductionHypothesis x.lastnormalview x.lastop (some x) with
            ⟨same, behind⟩ | ⟨best, inRest, same, further, behind⟩
          · refine ⟨x, List.mem_cons_self, same, ahead, ?_⟩
            intro other inList
            rcases List.mem_cons.mp inList with rfl | inRest
            · unfold Outranks
              omega
            · exact behind other inRest
          · refine ⟨best, List.mem_cons_of_mem _ inRest, same, ?_, ?_⟩
            · unfold Outranks at ahead further ⊢
              omega
            · intro other inList
              rcases List.mem_cons.mp inList with rfl | inRest
              · unfold Outranks at further ⊢
                omega
              · exact behind other inRest
      next notAhead =>
          rcases inductionHypothesis latestView latestOp start with
            ⟨same, behind⟩ | ⟨best, inRest, same, further, behind⟩
          · refine .inl ⟨same, ?_⟩
            intro other inList
            rcases List.mem_cons.mp inList with rfl | inRest
            · exact notAhead
            · exact behind other inRest
          · refine .inr ⟨best, List.mem_cons_of_mem _ inRest, same, further, ?_⟩
            intro other inList
            rcases List.mem_cons.mp inList with rfl | inRest
            · unfold Outranks at notAhead further ⊢
              omega
            · exact behind other inRest

/-- No message is selected over a log that none of them outranks, -/
theorem latest_of_behind {latestView latestOp : Nat} {msgs : List DoViewChangeMessage}
    (behind : ∀ x ∈ msgs, ¬ Outranks x latestView latestOp) :
    latest latestView latestOp none msgs = (latestOp, none) := by
  rcases selects_latest latestView latestOp none msgs with ⟨same, -⟩ | ⟨best, member, -, ahead, -⟩
  · exact same
  · exact absurd ahead (behind best member)

/-- and none outranks the log over which none is selected. -/
theorem of_latest_none {latestView latestOp op : Nat} {msgs : List DoViewChangeMessage}
    (selected : latest latestView latestOp none msgs = (op, none)) :
    op = latestOp ∧ ∀ x ∈ msgs, ¬ Outranks x latestView latestOp := by
  rcases selects_latest latestView latestOp none msgs with ⟨same, behind⟩ | ⟨best, -, same, -⟩
  · exact ⟨congrArg Prod.fst (selected.symm.trans same), behind⟩
  · cases congrArg Prod.snd (selected.symm.trans same)

/-! ## What does not depend on the undefined -/

/-- A leader that selects no vote goes through no pointer to one. -/
theorem becomeLeader_congr (same : undefined.pastEnd = undefined'.pastEnd)
    {msg : DoViewChangeMessage} {msgs : TreeMap Nat DoViewChangeMessage}
    (behind : ∀ vote ∈ msgs.values,
      ¬ Outranks vote r.log.lastViewstamp.view r.log.lastViewstamp.opnum) :
    becomeLeader setup undefined msg msgs r = becomeLeader setup undefined' msg msgs r := by
  unfold becomeLeader
  rw [Handler.get_bind, Handler.get_bind, latest_of_behind behind]
  dsimp only
  rw [same]

theorem countDoViewChange_congr (same : undefined.pastEnd = undefined'.pastEnd)
    {msg : DoViewChangeMessage}
    (behind : let votes := (r.doViewChangeQuorum.add msg.view msg.replicaidx msg).messages msg.view
      setup.AmLeader msg.view → r.doViewChangeQuorum.numRequired ≤ votes.size →
        ∀ vote ∈ votes.values,
          ¬ Outranks vote r.log.lastViewstamp.view r.log.lastViewstamp.opnum) :
    countDoViewChange setup undefined msg r = countDoViewChange setup undefined' msg r := by
  unfold countDoViewChange
  rw [Handler.require_bind, Handler.require_bind]
  split
  next leads =>
      rw [Handler.get_bind, Handler.get_bind]
      dsimp only [QuorumSet.addAndCheckForQuorum]
      apply Handler.bind_congr
      intro _
      cases found : (r.doViewChangeQuorum.add msg.view msg.replicaidx msg).checkForQuorum
          msg.view with
      | none => rfl
      | some msgs =>
          obtain ⟨rfl, enough⟩ := QuorumSet.of_checkForQuorum found
          exact becomeLeader_congr same (behind leads enough)
  next => rfl

theorem handleDoViewChange_congr (same : undefined.pastEnd = undefined'.pastEnd)
    {msg : DoViewChangeMessage} (defined : ¬ r.SelectsVote setup msg) :
    handleDoViewChange setup undefined msg r = handleDoViewChange setup undefined' msg r := by
  have behind (attends : r.Attends msg.view) (leads : setup.AmLeader msg.view)
      (enough : r.doViewChangeQuorum.numRequired ≤
        ((r.doViewChangeQuorum.add msg.view msg.replicaidx msg).messages msg.view).size) :
      ∀ vote ∈ ((r.doViewChangeQuorum.add msg.view msg.replicaidx msg).messages msg.view).values,
        ¬ Outranks vote r.log.lastViewstamp.view r.log.lastViewstamp.opnum :=
    fun vote member ahead => defined ⟨attends, leads, enough, vote, member, ahead⟩
  unfold handleDoViewChange
  rw [Handler.get_bind, Handler.get_bind]
  split
  next => rfl
  next notStale =>
      split
      next => rfl
      next notNormal =>
          have attends : r.Attends msg.view := by
            rcases Nat.lt_or_eq_of_le (Nat.not_lt.mp notStale) with later | here
            · exact .inl later
            · exact .inr ⟨here.symm, not_not.mp fun normal => notNormal ⟨here.symm, normal⟩⟩
          split
          next =>
              apply Handler.bind_congr
              intro _
              exact countDoViewChange_congr same (behind attends)
          next => exact countDoViewChange_congr same (behind attends)

/-- A replica to which no leader's log comes back goes through no pointer to an answer. -/
theorem handleRecoveryResponse_congr {msg : RecoveryResponseMessage}
    (defined : ¬ (r.status = .recovering ∧ r.Recovers setup (.recoveryResponse msg))) :
    handleRecoveryResponse setup undefined msg r =
      handleRecoveryResponse setup undefined' msg r := by
  unfold handleRecoveryResponse
  rw [Handler.get_bind, Handler.get_bind]
  split
  next => rfl
  next recovering =>
      split
      next => rfl
      next nonce =>
          dsimp only [QuorumSet.addAndCheckForQuorum]
          apply Handler.bind_congr
          intro _
          cases found : (r.recoveryResponseQuorum.add msg.nonce msg.replicaidx msg).checkForQuorum
              msg.nonce with
          | none => rfl
          | some msgs =>
              obtain ⟨rfl, enough⟩ := QuorumSet.of_checkForQuorum found
              dsimp only
              rw [Handler.require_bind, Handler.require_bind]
              split
              next follows =>
                  cases present : ((r.recoveryResponseQuorum.add msg.nonce msg.replicaidx
                      msg).messages msg.nonce)[setup.configuration.getLeaderIndex (highestView
                        ((r.recoveryResponseQuorum.add msg.nonce msg.replicaidx msg).messages
                          msg.nonce))]? with
                  | none => rfl
                  | some leaderResponse =>
                      dsimp only
                      split
                      next => rfl
                      next highest =>
                          exact absurd ⟨not_not.mp recovering, not_not.mp nonce, enough, follows,
                            leaderResponse, present, not_not.mp highest⟩ defined
              next => rfl

/-- The same guess, except that the replica stops. -/
abbrev Undefined.stopping (undefined : Undefined) : Undefined :=
  { undefined with dangling := Handler.stop }

/-- Where the handling of a message is defined, the replica might as well stop where it is not. -/
theorem receiveMessage_of_defined {remote : Address} {msg : Message}
    (defined : ¬ r.Dangles setup msg) :
    receiveMessage setup app undefined remote msg r =
      receiveMessage setup app undefined.stopping remote msg r := by
  cases msg with
  | doViewChange msg =>
      have same : undefined.pastEnd = undefined.stopping.pastEnd := rfl
      exact handleDoViewChange_congr same defined
  | recoveryResponse msg => exact handleRecoveryResponse_congr defined
  | _ => rfl

/-- A delivery that is defined might as well come with a guess that stops the replica. -/
theorem System.step_of_defined {d : Deployment} {s : System} {position : Nat}
    (defined : s.Defined d (.deliver position app undefined)) :
    s.step d (.deliver position app undefined) =
      s.step d (.deliver position app undefined.stopping) := by
  simp only [System.step]
  split
  next src idx msg found =>
      have here : ¬ (s.replicas idx).Dangles (d.setup idx) msg :=
        defined _ (Option.mem_toList.mpr found)
      unfold System.runAt
      rw [receiveMessage_of_defined here]
  next => rfl

/-- A step that loses no agreement is defined. -/
theorem System.Clear.defined {d : Deployment} {s : System} {action : Action}
    (clear : s.Clear d action) : s.Defined d action := by
  cases action with
  | deliver position app undefined => exact fun packet found => (clear packet found).1
  | _ => trivial

end PaxosBus.Vr

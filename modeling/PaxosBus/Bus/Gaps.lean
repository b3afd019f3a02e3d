import PaxosBus.Bus.Slots

/-!
# How a gap is resolved

The leader's gap timer turns empty slots into NoOps and announces each in the
same handler; a follower's gap timer only asks. The leader serves a request from
its log: data for a RECEIVED slot, a NoOp commit for a NOOP slot.
-/

set_option autoImplicit false

namespace PaxosBus.Bus

open Std PaxosBus.Common

namespace Replica

variable (r : Replica) (clientId seq : Nat)

/-- Resolving a gap leaves a slot alone, or it is the leader turning it into a NoOp. -/
theorem entry_resolveGap_cases (client slot now : Nat) :
    (r.resolveGap client slot now).1.entry clientId seq = r.entry clientId seq ∨
      r.amLeader = true ∧ client = clientId ∧ slot = seq ∧
        ((r.resolveGap client slot now).1.entry clientId seq).state = .noop := by
  unfold resolveGap
  split
  · rename_i leader
    rw [entry_startGapAgreement]
    split
    · rename_i same
      exact .inr ⟨leader, same.1, same.2, rfl⟩
    · exact .inl rfl
  · exact .inl (r.entry_sendGapRequest clientId seq client slot now)

/-- The gap scan leaves a slot alone, or the leader turns it from empty into a NoOp. -/
theorem entry_scanGaps_cases (client nowNs : Nat) (clock : Nat → Nat) (slot slots : Nat) :
    (r.scanGaps client nowNs clock slot slots).1.entry clientId seq = r.entry clientId seq ∨
      r.amLeader = true ∧ (r.entry clientId seq).state = .empty ∧
        ((r.scanGaps client nowNs clock slot slots).1.entry clientId seq).state = .noop := by
  induction slots generalizing r slot with
  | zero => exact .inl rfl
  | succ slots inductionHypothesis =>
      unfold scanGaps
      dsimp only
      split
      · exact inductionHypothesis r (slot + 1)
      · rename_i missing
        split
        · exact .inl rfl
        · rcases r.entry_resolveGap_cases clientId seq client slot (clock slot) with
            same | ⟨leader, rfl, rfl, noop⟩
          · have later := inductionHypothesis (r.resolveGap client slot (clock slot)).1 (slot + 1)
            rwa [same, amLeader_congr (r.identity_resolveGap client slot (clock slot))] at later
          · -- the slot has just become a NoOp, and the rest of the scan skips filled slots
            have empty : (r.entry client slot).state = .empty := by
              simpa [ClientStream.filled, entry] using missing
            refine .inr ⟨leader, empty, ?_⟩
            rw [entry_scanGaps _ client slot client nowNs clock (slot + 1) slots (by simp [noop])]
            exact noop

/-- The gap timer leaves a slot alone, or the leader turns it from empty into a NoOp. -/
theorem entry_onGapTimeout_cases (client : Nat) (clock : Nat → Nat) :
    (r.onGapTimeout client clock).1.entry clientId seq = r.entry clientId seq ∨
      r.amLeader = true ∧ (r.entry clientId seq).state = .empty ∧
        ((r.onGapTimeout client clock).1.entry clientId seq).state = .noop := by
  have start : (r.setStream client { r.stream client with gapTimerId := 0 }).entry clientId seq =
      r.entry clientId seq := r.entry_setStream_of_log client (by rfl) clientId seq
  simp only [onGapTimeout, entry_advanceContiguous]
  rw [← start]
  exact entry_scanGaps_cases _ _ _ _ _ _ _ _

/-- A NoOp commit that the gap scan sends is for a slot that is a NoOp when the scan ends. -/
theorem noop_of_mem_scanGaps {nowNs : Nat} {clock : Nat → Nat} {slot slots : Nat} {send : Send}
    {commit : GapCommitMessage} (sent : send ∈ (r.scanGaps clientId nowNs clock slot slots).2)
    (isCommit : send.msg = .gapCommit commit) :
    ((r.scanGaps clientId nowNs clock slot slots).1.entry commit.clientId
      commit.seqNum).state = .noop := by
  induction slots generalizing r slot with
  | zero => cases sent
  | succ slots inductionHypothesis =>
      unfold scanGaps at sent ⊢
      dsimp only at sent ⊢
      split at sent
      · rename_i filled
        rw [if_pos filled]
        exact inductionHypothesis r sent
      · rename_i missing
        rw [if_neg missing]
        split at sent
        · cases sent
        · rename_i due
          rw [if_neg due]
          rcases List.mem_append.mp sent with now | later
          · rcases r.mem_resolveGap clientId slot now with ⟨leader, idx, _, _, rfl⟩ | ⟨_, rfl⟩
            · cases isCommit
              have noop : ((r.resolveGap clientId slot (clock slot)).1.entry clientId slot).state =
                  .noop := by
                unfold resolveGap
                rw [dif_pos leader, entry_startGapAgreement]
                simp
              rw [entry_scanGaps _ clientId slot clientId nowNs clock (slot + 1) slots
                (by simp [noop])]
              exact noop
            · cases isCommit
          · exact inductionHypothesis _ later

/-- A NoOp commit that the gap timer sends is for a slot that is a NoOp afterwards. -/
theorem noop_of_mem_onGapTimeout {clock : Nat → Nat} {send : Send} {commit : GapCommitMessage}
    (sent : send ∈ (r.onGapTimeout clientId clock).2) (isCommit : send.msg = .gapCommit commit) :
    ((r.onGapTimeout clientId clock).1.entry commit.clientId commit.seqNum).state = .noop := by
  simp only [onGapTimeout, entry_advanceContiguous]
  exact noop_of_mem_scanGaps _ _ sent isCommit

/-- The leader answers a request with what its log holds: data for a RECEIVED slot, a NoOp
commit for a NOOP slot. -/
theorem mem_handleGapRequest {remote : Address} {msg : GapRequestMessage} {send : Send}
    (sent : send ∈ (r.handleGapRequest remote msg).2) :
    send.dst = remote ∧
      ((r.entry msg.clientId msg.seqNum).state = .received ∧
          send.msg = .gapReply
            { clientId := msg.clientId, seqNum := msg.seqNum, viewId := r.viewId,
              replicaIdx := r.replicaIdx, found := true,
              sendTimeNs := (r.entry msg.clientId msg.seqNum).sendTimeNs
              payload := (r.entry msg.clientId msg.seqNum).payload } ∨
        r.amLeader = true ∧ (r.entry msg.clientId msg.seqNum).state = .noop ∧
          send.msg = .gapCommit
            { clientId := msg.clientId, seqNum := msg.seqNum, viewId := r.viewId }) := by
  unfold handleGapRequest at sent
  dsimp only at sent
  split at sent
  · rename_i leader
    split at sent
    · rename_i received
      obtain rfl := List.mem_singleton.mp sent
      exact ⟨rfl, .inl ⟨received, rfl⟩⟩
    · rename_i noop
      obtain rfl := List.mem_singleton.mp sent
      exact ⟨rfl, .inr ⟨leader, noop, rfl⟩⟩
    · cases sent
  · cases sent

/-- `HandleGapCommit` makes its slot a NoOp and touches no other slot. -/
theorem entry_handleGapCommit (remote : Address) (msg : GapCommitMessage) (now : Nat) :
    (r.handleGapCommit remote msg now).1.entry clientId seq =
      if msg.clientId = clientId ∧ msg.seqNum = seq then
        { r.entry clientId seq with state := .noop }
      else r.entry clientId seq := by
  simp only [handleGapCommit, entry_advanceContiguous, entry_setStream,
    ClientStream.entry_dropRequest, ClientStream.entry_setEntry]
  by_cases sameClient : msg.clientId = clientId
  · subst sameClient
    by_cases sameSlot : msg.seqNum = seq
    · subst sameSlot
      simp [entry]
    · simp [sameSlot, entry]
  · simp [sameClient]

end Replica

end PaxosBus.Bus

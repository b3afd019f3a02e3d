import PaxosBus.Spec.Assembly
import PaxosBus.Spec.Handling

/-!
# What the handlers keep to

Every handler of a replica keeps the invariant and keeps to the logic of conduct.
The handlers that commit by a quorum, enter a view or join one do so under terms
that say when: `SyncQuorum` is what a commit by replies to a `SyncMessage` rests on.
-/

set_option autoImplicit false

namespace PaxosBus.Spec

open PaxosBus.Common PaxosBus.Library
open Logic (Meets)
open Std (TreeMap)

variable {Hash : Type} {setup : Setup Hash} {terms : Terms Hash} {w : Standing} {r : Replica Hash}
  {app : App}

/-- A replica between two handlers. -/
def Settled (setup : Setup Hash) (terms : Terms Hash) (w : Standing) (r : Replica Hash) : Prop :=
  w = r.standing ∧ r.Sound setup terms

/-- `HandleUnloggedRequest` does not change the replica. -/
theorem handleUnloggedRequest_meets (sound : r.Sound setup terms) (remote : Address)
    (msg : UnloggedRequestMessage) :
    (conduct setup terms).Meets (handleUnloggedRequest app remote msg) r.standing r
      fun _ => Settled setup terms := by
  unfold handleUnloggedRequest sendMessage
  refine .bind (.get trivial fun _ => .branch (fun _ => .pure trivial ⟨rfl, sound⟩) fun _ => ?_)
  exact .emit trivial trivial ⟨rfl, sound⟩

/-- A replica that leaves its view keeps the invariant. -/
theorem startViewChange_settles (steady : r.Steady setup terms) {newview : Nat}
    (beyond : r.view < newview) :
    (conduct setup terms).Meets (startViewChange setup newview) r.standing r
      fun _ => Settled setup terms :=
  (startViewChange_meets steady beyond).imp fun _ _ _ _ ⟨stands, sound, _⟩ => ⟨stands, sound⟩

/-! ## Synchronization -/

/-- A follower answers a `SyncMessage`, or remembers it. -/
theorem answerSync_meets (sound : r.Sound setup terms) (normal : r.status = .normal)
    (follower : ¬ setup.AmLeader r.view) (msg : SyncMessage Hash) :
    (conduct setup terms).Meets (handleSync.answerSync setup msg) r.standing r
      fun _ => Settled setup terms := by
  unfold handleSync.answerSync
  refine .bind (.get trivial fun _ => .branch (fun _ => ?_) fun _ => ?_)
  · have asked : ({ r with pendingSync := msg.lastspeculative } : Replica Hash).Sound setup terms :=
      { sound with
        log := { sound.log with }
        quorate := { sound.quorate with }
        unasked := fun _ leads => absurd leads follower }
    exact .change trivial ⟨rfl, asked⟩
  · refine (sendSyncReply_meets sound.log normal follower _).imp ?_
    rintro - _ _ - ⟨rfl, rfl⟩
    exact ⟨rfl, sound⟩

/-- `HandleSync` keeps the invariant. -/
theorem handleSync_meets [DecidableEq Hash] (sound : r.Sound setup terms) (msg : SyncMessage Hash) :
    (conduct setup terms).Meets (handleSync setup msg) r.standing r
      fun _ => Settled setup terms := by
  let heard : Replica Hash := { r with viewChangeTimeout := true }
  have same : r.SameLog heard := ⟨⟨rfl, rfl, rfl, rfl, rfl, rfl, rfl, rfl⟩, rfl, rfl, rfl⟩
  have soundHeard := sound.of_sameLog same
  unfold handleSync
  refine .bind (.get trivial fun _ => .branch (fun _ => .pure trivial ⟨rfl, sound⟩) fun status => ?_)
  have normal : heard.status = .normal := not_not.mp status
  refine .branch (fun _ => .pure trivial ⟨rfl, sound⟩) fun _ => .branch (fun later => ?_) fun _ => ?_
  · exact startViewChange_settles sound.toSteady (by omega)
  refine .bind (.require trivial fun follower _ => .bind (.change trivial fun _ => ?_))
  refine .branch (fun _ => ?_) fun _ => .branch (fun _ => ?_) fun _ => ?_
  · exact startViewChange_settles soundHeard.toSteady (Nat.lt_succ_self _)
  · refine .bind (.demand trivial fun entry _ _ => .branch (fun _ => ?_) fun _ => ?_)
    · refine .bind ((commitUpTo_settles soundHeard.log msg.lastcommitted).imp ?_)
      rintro - _ after - ⟨rfl, commits⟩ -
      have number := commits.lastCommitted
      have view : ¬ setup.AmLeader after.view := by
        rw [commits.undisturbed.view]
        exact follower
      exact answerSync_meets (soundHeard.of_undisturbed commits.undisturbed commits.sound (by omega))
        (commits.undisturbed.status.trans normal) view msg
    · exact startViewChange_settles soundHeard.toSteady (Nat.lt_succ_self _)
  · exact answerSync_meets soundHeard normal follower msg

/-! ## Replies to a synchronization -/

/-- What a commit by replies to a `SyncMessage` rests on: enough of them have the leader's own hash. -/
structure SyncQuorum (setup : Setup Hash) (terms : Terms Hash) (requests : List Request)
    (view opnum : Nat) : Prop where
  leads : setup.AmLeader view
  positive : 0 < opnum
  inLog : opnum ≤ requests.length
  replies : ∃ repliers : Finset Nat, setup.configuration.fastQuorumSize - 1 ≤ repliers.card ∧
    ∀ idx ∈ repliers, ∃ reply : SyncReplyMessage Hash, terms.sent (.syncReply reply) ∧
      reply.replicaidx = idx ∧ reply.view = view ∧ reply.lastspeculative = opnum ∧
        reply.lastspeculativehash = some (setup.hashing.chain (requests.take opnum))

/-- Where one hash is enough, the leader's own is that hash. -/
theorem own_of_matchingHashes [DecidableEq Hash] {needed : Nat} {hashes : List (Option Hash)}
    {own matching : Option Hash} (one : needed ≤ 1)
    (found : matchingHashes needed (hashes ++ [own]) = [matching]) : own = matching := by
  have counted : 0 < (hashes ++ [own]).count own := List.count_pos_iff.mpr (by simp)
  have member : own ∈ matchingHashes needed (hashes ++ [own]) := by
    unfold matchingHashes
    refine List.mem_filter.mpr ⟨List.mem_dedup.mpr (by simp), decide_eq_true ?_⟩
    omega
  rw [found] at member
  exact List.mem_singleton.mp member

/-- Where no more hashes have come than are needed, the one that is there often enough is that of
all. -/
theorem eq_of_matchingHashes [DecidableEq Hash] {needed : Nat} {hashes : List (Option Hash)}
    {own matching : Option Hash} (few : hashes.length < needed)
    (found : matchingHashes needed (hashes ++ [own]) = [matching]) :
    own = matching ∧ ∀ hash ∈ hashes, hash = own := by
  have member : matching ∈ matchingHashes needed (hashes ++ [own]) := by
    rw [found]
    exact List.mem_singleton_self _
  unfold matchingHashes at member
  have enough : needed ≤ (hashes ++ [own]).count matching := by
    simpa using (List.mem_filter.mp member).2
  have bound : (hashes ++ [own]).count matching ≤ (hashes ++ [own]).length := List.count_le_length
  have length : (hashes ++ [own]).length = hashes.length + 1 := by simp
  have all : (hashes ++ [own]).count matching = (hashes ++ [own]).length := by omega
  rw [List.count_eq_length] at all
  have mine : matching = own := all own (by simp)
  exact ⟨mine.symm, fun hash inHashes => (all hash (by simp [inHashes])).symm.trans mine⟩

/-- The part of `HandleSyncReply` that commits. -/
theorem commitSync_meets (steady : r.Steady setup terms) {msg : SyncReplyMessage Hash}
    (few : r.status = .normal → ∀ opnum, r.lastCommitted < opnum → opnum ≠ msg.lastspeculative →
      r.FewReplies setup opnum)
    (granted : terms.commits .syncReply r.status r.view msg.lastspeculative r.log.entries) :
    (conduct setup terms).Meets (commitSync msg) r.standing r fun _ => Settled setup terms := by
  unfold commitSync
  refine .bind (.get trivial fun _ => .bind (.emit trivial granted fun _ => ?_))
  refine (commitUpTo_settles steady.log _).imp ?_
  rintro - _ after - ⟨rfl, commits⟩
  have number := commits.lastCommitted
  refine ⟨rfl, steady.of_undisturbed commits.undisturbed commits.sound, fun normal opnum open_ => ?_⟩
  unfold Replica.FewReplies at few ⊢
  rw [commits.undisturbed.syncReplyQuorum]
  exact few (commits.undisturbed.status ▸ normal) opnum (by omega) (by omega)

/-- The part of `HandleSyncReply` for a quorum. -/
theorem completeSync_meets [DecidableEq Hash] (steady : r.Steady setup terms)
    {msg : SyncReplyMessage Hash} {msgs : TreeMap Nat (SyncReplyMessage Hash)}
    (view : msg.view = r.view) (normal : r.status = .normal) (leads : setup.AmLeader r.view)
    (few : ∀ opnum, r.lastCommitted < opnum → opnum ≠ msg.lastspeculative →
      r.FewReplies setup opnum)
    (stored : msgs = r.syncReplyQuorum.messages msg.lastspeculative)
    (enough : setup.configuration.fastQuorumSize - 1 ≤ msgs.size)
    (bound : r.lastCommitted < msg.lastspeculative → 0 < setup.configuration.fastQuorumSize - 1 →
      msgs.size ≤ setup.configuration.fastQuorumSize - 1)
    (grants : SyncQuorum setup terms r.log.requests msg.view msg.lastspeculative →
      terms.commits .syncReply .normal msg.view msg.lastspeculative r.log.entries) :
    (conduct setup terms).Meets (completeSync setup msg msgs) r.standing r
      fun _ => Settled setup terms := by
  let heard : Replica Hash := { r with failedSyncTimeout := true }
  have same : r.SameLog heard := ⟨⟨rfl, rfl, rfl, rfl, rfl, rfl, rfl, rfl⟩, rfl, rfl, rfl⟩
  have steadyHeard := steady.of_undisturbed same.undisturbed (same.sound steady.log)
  unfold completeSync
  refine .bind (.change trivial fun _ => .bind (.get trivial fun _ => ?_))
  refine .branch (fun late => .pure trivial ⟨rfl, steadyHeard, fun _ opnum open_ => ?_⟩) fun open_ => ?_
  · exact few opnum open_ (by rintro rfl; exact absurd late (Nat.not_le.mpr open_))
  have new : r.lastCommitted < msg.lastspeculative := Nat.not_le.mp open_
  refine .bind (.demand trivial fun entry found _ => ?_)
  obtain ⟨positive, inLog, -, -, hash⟩ := steady.log.hashed.of_find found
  split
  · exact startViewChange_settles steadyHeard (Nat.lt_succ_self _)
  next matching matches_ =>
      have quorum : some entry.hash = matching ∧
          SyncQuorum setup terms r.log.requests msg.view msg.lastspeculative := by
        rcases Nat.eq_zero_or_pos (setup.configuration.fastQuorumSize - 1) with none_ | some_
        · refine ⟨own_of_matchingHashes (by omega) matches_, view.symm ▸ leads, positive, inLog, ∅,
            by omega, fun idx member => ?_⟩
          simp at member
        · have length : (msgs.values.map (·.lastspeculativehash)).length = msgs.size := by
            rw [List.length_map, values_eq_map, List.length_map, TreeMap.length_toList]
          have le := bound new some_
          obtain ⟨own, all⟩ := eq_of_matchingHashes (by omega) matches_
          refine ⟨own, view.symm ▸ leads, positive, inLog, senders msgs, by rwa [card_senders],
            fun idx member => ?_⟩
          obtain ⟨reply, present⟩ := mem_senders.mp member
          obtain ⟨sent, sender, opnum, current⟩ := steady.replies _ idx reply (stored ▸ present)
          refine ⟨reply, sent, sender, (current normal).trans view.symm, opnum, ?_⟩
          rw [← hash]
          exact all _ (List.mem_map_of_mem (mem_values.mpr ⟨idx, present⟩))
      -- The quorum was just completed, so the hash that is there often enough is the leader's own.
      refine .branch (fun differs => absurd quorum.1 differs) fun _ => ?_
      apply commitSync_meets steadyHeard (fun _ => few)
      have granted := grants quorum.2
      rwa [view, ← normal] at granted
  · exact .stop trivial

/-- `HandleSyncReply` keeps the invariant, and commits by a quorum of replies with one hash. -/
theorem handleSyncReply_meets [DecidableEq Hash] (sound : r.Sound setup terms)
    {msg : SyncReplyMessage Hash} (sent : terms.sent (.syncReply msg))
    (grants : SyncQuorum setup terms r.log.requests msg.view msg.lastspeculative →
      terms.commits .syncReply .normal msg.view msg.lastspeculative r.log.entries) :
    (conduct setup terms).Meets (handleSyncReply setup msg) r.standing r
      fun _ => Settled setup terms := by
  unfold handleSyncReply
  refine .bind (.get trivial fun _ => .branch (fun _ => .pure trivial ⟨rfl, sound⟩) fun status => ?_)
  have normal : r.status = .normal := not_not.mp status
  refine .branch (fun _ => .pure trivial ⟨rfl, sound⟩) fun _ => ?_
  refine .bind (.require trivial fun _ _ => .bind (.require trivial fun leads _ => ?_))
  refine .bind (.require trivial fun _ _ => .bind (.change trivial fun _ => ?_))
  have view : msg.view = r.view := by omega
  let added : Replica Hash :=
    { r with
      syncReplyQuorum := r.syncReplyQuorum.add msg.lastspeculative msg.replicaidx msg }
  have steady : added.Steady setup terms := { sound.toSteady with
    log := { sound.log with }
    quorate := { sound.quorate with }
    replies := sound.replies.add ⟨sent, rfl, rfl, fun _ => view⟩ }
  have others : ∀ opnum, r.lastCommitted < opnum → opnum ≠ msg.lastspeculative →
      added.FewReplies setup opnum := by
    intro opnum open_ other
    unfold Replica.FewReplies
    simp only [added, QuorumSet.add, Function.update_of_ne other]
    exact sound.few normal opnum open_
  have required : added.syncReplyQuorum.numRequired = setup.configuration.fastQuorumSize - 1 :=
    sound.quorate.replies
  have size : (added.syncReplyQuorum.messages msg.lastspeculative).size ≤
      (r.syncReplyQuorum.messages msg.lastspeculative).size + 1 := by
    simp only [added, QuorumSet.add, Function.update_self]
    exact TreeMap.size_insert_le
  have checked : (r.syncReplyQuorum.addAndCheckForQuorum msg.lastspeculative msg.replicaidx msg).2 =
      added.syncReplyQuorum.checkForQuorum msg.lastspeculative := rfl
  rw [checked]
  unfold QuorumSet.checkForQuorum
  split
  next none_ =>
      split at none_
      · cases none_
      next missing =>
          refine .pure trivial ⟨rfl, steady, fun _ opnum open_ => ?_⟩
          by_cases here : opnum = msg.lastspeculative
          · rw [here]
            exact .inr (required ▸ Nat.not_le.mp missing)
          · exact others opnum open_ here
  next msgs some_ =>
      split at some_
      next enough =>
          obtain rfl := Option.some.inj some_
          refine completeSync_meets steady view normal leads others rfl (required ▸ enough) ?_ grants
          intro open_ more
          rcases sound.few normal _ open_ with empty | few <;> omega
      · cases some_

end PaxosBus.Spec

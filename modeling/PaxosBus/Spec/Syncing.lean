import PaxosBus.Spec.Coherence
import PaxosBus.Spec.MergedLog

/-!
# The commits by replies to a `SyncMessage`

The leader commits once a fast quorum, itself included, has reported one hash. A
reply is for an answer that its sender gave in the view, with the log it had then;
as hashes stand for whole logs, one hash means one log.
-/

set_option autoImplicit false

namespace PaxosBus.Spec

open PaxosBus.Common PaxosBus.Library

variable {Hash : Type} {d : Deployment Hash}

/-- Requests that clients have made are known by their ids. -/
theorem Deployment.eq_of_reqids {mine theirs : List Request}
    (made : ∀ request ∈ mine, d.Made request) (made' : ∀ request ∈ theirs, d.Made request)
    (same : mine.map Request.reqid = theirs.map Request.reqid) : mine = theirs := by
  have spelled : ∀ requests : List Request, (∀ request ∈ requests, d.Made request) →
      requests = (requests.map Request.reqid).map fun reqid => d.request reqid.1 reqid.2 := by
    intro requests all
    rw [List.map_map]
    conv_lhs => rw [← List.map_id requests]
    exact List.map_congr_left fun request member => all request member
  rw [spelled mine made, same, ← spelled theirs made']

/-- Where no two inputs have one digest, logs whose hashes are the same somewhere are the same up to
there. -/
theorem Deployment.take_eq_of_chain (free : d.hashing.CollisionFree) {mine theirs : List Request}
    (made : ∀ request ∈ mine, d.Made request) (made' : ∀ request ∈ theirs, d.Made request)
    {opnum : Nat} (reaches : opnum ≤ mine.length) (reaches' : opnum ≤ theirs.length)
    (same : d.hashing.chain (mine.take opnum) = d.hashing.chain (theirs.take opnum)) :
    mine.take opnum = theirs.take opnum := by
  apply Deployment.eq_of_reqids (fun request member => made request (List.mem_of_mem_take member))
    fun request member => made' request (List.mem_of_mem_take member)
  apply free.map_reqid_of_chain _ same
  rw [List.length_take, List.length_take]
  omega

namespace System

/-- What a commit by replies to a `SyncMessage` rests on: a fast quorum of replicas. The leader is one
of them, and is in the view as it commits; the others have answered in the view, with a log that is
the leader's up to the opnum. -/
structure Synced (d : Deployment Hash) (s : System Hash) (commit : Commit Hash) : Prop where
  leads : d.configuration.getLeaderIndex commit.view = commit.idx
  status : commit.status = .normal
  reaches : commit.opnum ≤ commit.log.length
  quorum : ∃ replicas : Finset Nat, d.configuration.fastQuorumSize ≤ replicas.card ∧
    commit.idx ∈ replicas ∧ (∀ idx ∈ replicas, idx < d.configuration.n) ∧
      ∀ idx ∈ replicas, idx ≠ commit.idx → ∃ answer ∈ s.answers, answer.idx = idx ∧
        answer.status = .normal ∧ answer.view = commit.view ∧
          SameUpTo commit.opnum answer.log commit.log

variable {s next : System Hash}

/-- Answers are not taken back. -/
theorem Synced.onward {commit : Commit Hash} (synced : s.Synced d commit) (onward : s.Onward next) :
    next.Synced d commit where
  leads := synced.leads
  status := synced.status
  reaches := synced.reaches
  quorum := by
    obtain ⟨replicas, enough, leader, inGroup, others⟩ := synced.quorum
    refine ⟨replicas, enough, leader, inGroup, fun idx member other => ?_⟩
    obtain ⟨answer, given, rest⟩ := others idx member other
    exact ⟨answer, onward.answers answer given, rest⟩

/-- Enough replies with the leader's own hash are enough replicas with the leader's own log. -/
theorem synced_of_syncQuorum (free : d.hashing.CollisionFree) (coherent : s.Coherent d) {idx : Nat}
    (inGroup : idx < d.configuration.n) (running : s.stopped idx = false) {view opnum : Nat}
    (quorum : SyncQuorum (d.setup idx) (s.anyTerms d) (s.replicas idx).log.requests view opnum) :
    s.Synced d
      { idx := idx, route := .syncReply, status := .normal, view := view, opnum := opnum,
        log := (s.replicas idx).log.entries } := by
  have sound := (coherent.replicas idx running).log
  obtain ⟨repliers, enough, replies⟩ := quorum.replies
  have answered : ∀ other ∈ repliers, other < d.configuration.n ∧ other ≠ idx ∧
      ∃ answer ∈ s.answers, answer.idx = other ∧ answer.status = .normal ∧ answer.view = view ∧
        SameUpTo opnum answer.log (s.replicas idx).log.entries := by
    intro other member
    obtain ⟨reply, ⟨packet, inNetwork, same⟩, sender, sameView, position, hash⟩ := replies other member
    have supported := coherent.packets packet inNetwork
    rw [same] at supported
    obtain ⟨there, follower, answer, given, backs⟩ := supported
    obtain ⟨requests, piece, made, stands⟩ := backs.log
    obtain ⟨reaches, chained⟩ := stands _ hash
    rw [position] at reaches chained
    have leader : d.configuration.getLeaderIndex reply.view = idx := sameView ▸ quorum.leads
    refine ⟨sender ▸ there, fun leads => follower (leader.trans (leads.symm.trans sender.symm)),
      answer, given, backs.idx.trans sender, backs.status, backs.view.trans sameView, ?_⟩
    apply sameUpTo_of_take piece sound.hashed.piece reaches quorum.inLog
    exact Deployment.take_eq_of_chain free made sound.asked reaches quorum.inLog chained.symm
  refine ⟨quorum.leads, rfl, ?_, insert idx repliers, ?_, Finset.mem_insert_self _ _, ?_, ?_⟩
  · have length := Log.length_requests (s.replicas idx).log
    have inLog := quorum.inLog
    simp only
    omega
  · rw [Finset.card_insert_of_notMem fun member => (answered idx member).2.1 rfl]
    have size : (d.setup idx).configuration = d.configuration := rfl
    rw [size] at enough
    omega
  · intro other member
    rcases Finset.mem_insert.mp member with rfl | replied
    · exact inGroup
    · exact (answered other replied).1
  · intro other member elsewhere
    exact (answered other ((Finset.mem_insert.mp member).resolve_left elsewhere)).2.2

variable [LinearOrder Hash]

/-- Commits by replies to a `SyncMessage` rest on a fast quorum, in every state that a run reaches. -/
theorem synced_invariant (free : d.hashing.CollisionFree) (guard : System Hash → Action → Prop) :
    (system d).Invariant guard fun s =>
      s.Coherent d ∧ ∀ commit ∈ s.commits, commit.route = .syncReply → s.Synced d commit where
  initial state first := by
    refine ⟨(coherent_invariant guard).initial state first, ?_⟩
    rw [first]
    exact fun _ none_ => nomatch none_
  preserved {s action next} invariant _ stepped := by
    obtain ⟨coherent, before⟩ := invariant
    have marks : Marks d s (fun _ => True)
        (fun commit => commit.route = .syncReply → s.Synced d commit) next := by
      refine marks_step coherent stepped (fun _ _ _ _ _ => trivial) ?_
      intro position app src idx msg _ _ inGroup running
      unfold Grants
      split
      · exact fun quorum _ => synced_of_syncQuorum free coherent inGroup running quorum
      · exact fun _ other => nomatch other
      · exact fun _ _ _ _ _ _ => .inr fun _ _ => trivial
      · trivial
    refine ⟨marks.coherent, fun commit marked route => ?_⟩
    rcases marks.commits commit marked with old | new
    · exact (before commit old route).onward marks.onward
    · exact (new route).onward marks.onward

/-- When `HandleSyncReply` commits up to an opnum, a fast quorum of replicas, the leader among them,
had in the leader's view a log that is the leader's up to the opnum. -/
theorem fastQuorum_of_sync_commit (free : d.hashing.CollisionFree) {s : System Hash}
    (reachable : (system d).Reachable TransitionSystem.unguarded s) :
    ∀ commit ∈ s.commits, commit.route = .syncReply → s.Synced d commit :=
  ((synced_invariant free _).of_reachable reachable).2

/-- Three replicas whose logs are spelled out. -/
def trio : Deployment (List Nat) where
  configuration := ⟨3, 1⟩
  hashing := spelling
  operation _ _ := ""

set_option maxRecDepth 20000 in
/-- In a group of three, the leader commits a request once both other replicas have replied. -/
theorem fastQuorum_of_sync_commit_trio : ∃ s, (system trio).Reachable TransitionSystem.unguarded s ∧
    s.commits.length = 1 ∧
      ∀ commit ∈ s.commits, commit.route = .syncReply → s.Synced trio commit := by
  obtain ⟨s, reachable, committed⟩ := (system trio).exists_reachable_of_run
    TransitionSystem.unguarded (fun s => decide (s.commits.length = 1))
    [.invoke 0, .deliver 0 {}, .deliver 1 {}, .deliver 2 {}, .timer 0 .sync, .deliver 6 {},
      .deliver 7 {}, .deliver 8 {}, .deliver 9 {}] rfl (by decide +kernel)
  exact ⟨s, reachable, of_decide_eq_true committed,
    fastQuorum_of_sync_commit spelling_collisionFree reachable⟩

end System

end PaxosBus.Spec

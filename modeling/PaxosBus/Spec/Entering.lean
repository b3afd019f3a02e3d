import PaxosBus.Spec.Changing

/-!
# Entering a view

What the handlers keep to that come after a view has started: replicas adopt the
leader's log and enter the view, ask the leader for more of its log, and the
leader commits once enough of them have joined. With these, every message that a
replica can receive and every timeout is covered.
-/

set_option autoImplicit false

namespace PaxosBus.Spec

open PaxosBus.Common PaxosBus.Library
open Logic (Meets)

variable {Hash : Type} {setup : Setup Hash} {terms : Terms Hash} {r : Replica Hash} {app : App}

/-! ## The replicas that join a view -/

section Adopt

variable [DecidableEq Hash] {msg : StartViewMessage Hash}

/-- The part of `HandleStartView` that installs the log and enters the view. -/
theorem adoptView_meets (sound : r.Sound setup terms)
    (asked : ∀ entry ∈ msg.entries, terms.asked entry.request)
    (joins : ∀ join : InViewMessage, join.view = msg.view → terms.joins join)
    (current : ¬ msg.view < r.view) (open_ : ¬ (msg.view = r.view ∧ r.status ≠ .viewChange))
    (follower : ¬ setup.AmLeader msg.view) :
    (conduct setup terms).Meets (adoptView setup app msg) r.standing r
      fun _ => Settled setup terms := by
  unfold adoptView sendToReplica
  refine .bind (.require trivial fun _ _ => .bind ((installLog_meets sound.log asked).imp ?_))
  rintro - _ installed - ⟨rfl, installs⟩ -
  refine .bind ((commitUpTo_meets installs.sound _).imp ?_)
  rintro - _ after - ⟨rfl, commits⟩ -
  have number := commits.lastCommitted
  have before := installs.lastCommitted
  have undisturbed := installs.undisturbed.trans commits.undisturbed
  have steady := sound.toSteady.of_undisturbed undisturbed commits.sound
  refine .bind (.emit trivial ⟨rfl, follower, joins _ rfl⟩ fun _ => .bind (.get trivial fun _ => ?_))
  refine .bind (.require trivial fun _ _ => .bind (.require trivial fun _ _ => ?_))
  refine .bind ((enterView_meets commits.sound steady.quorate steady.pending ?_).imp ?_)
  · refine ⟨Nat.not_lt.mp current, ?_, fun same normal => ?_⟩
    · simp only [Replica.standing]
      omega
    · refine absurd ⟨same.symm, fun changing => ?_⟩ open_
      have still : r.status = .normal := normal
      rw [changing] at still
      cases still
  · rintro - _ entered - ⟨rfl, soundEntered, -⟩ -
    exact .bind (.get trivial fun _ => .require trivial fun _ => ⟨rfl, soundEntered⟩)

/-- `HandleStartView` keeps the invariant. -/
theorem handleStartView_meets (sound : r.Sound setup terms) (remote : Address)
    (asked : ∀ entry ∈ msg.entries, terms.asked entry.request)
    (joins : ∀ join : InViewMessage, join.view = msg.view → terms.joins join)
    (gaps : ∀ gap : FillLogGapMessage, gap.view = msg.view → terms.gaps gap) :
    (conduct setup terms).Meets (handleStartView setup app remote msg) r.standing r
      fun _ => Settled setup terms := by
  have asks : (conduct setup terms).Meets (sendMessage remote (.fillLogGap
      { view := msg.view, lastcommitted := r.lastCommitted })) r.standing r
        fun _ => Settled setup terms := by
    unfold sendMessage
    exact .emit trivial ⟨gaps _ rfl, Nat.le_refl _⟩ ⟨rfl, sound⟩
  unfold handleStartView
  refine .bind (.get trivial fun _ => ?_)
  refine .branch (fun _ => .pure trivial ⟨rfl, sound⟩) fun current => ?_
  refine .branch (fun _ => .pure trivial ⟨rfl, sound⟩) fun open_ => ?_
  refine .bind (.require trivial fun follower _ => ?_)
  have adopts : (conduct setup terms).Meets (adoptView setup app msg) r.standing r
      fun _ => Settled setup terms :=
    adoptView_meets sound asked joins current open_ follower
  split
  · exact adopts
  · refine .branch (fun _ => .branch (fun _ => asks) fun _ => ?_) fun _ => adopts
    exact .bind (.demand trivial fun mine _ _ => .branch (fun _ => asks) fun _ => adopts)

end Adopt

/-! ## The leader of the view -/

/-- When `HandleInView` commits up to what a message says. -/
structure Replica.CommitsJoin (setup : Setup Hash) (r : Replica Hash) (msg : InViewMessage) :
    Prop where
  normal : r.status = .normal
  view : r.view = msg.view
  leads : setup.AmLeader msg.view
  quorum : ((r.inViewQuorum.addAndCheckForQuorum msg.view msg.replicaidx msg).2).isSome
  reached : msg.lastspeculative ≤ r.lastSpeculative
  open_ : ¬ msg.lastspeculative < r.lastCommitted

/-- `HandleInView` keeps the invariant. -/
theorem handleInView_meets (sound : r.Sound setup terms) {msg : InViewMessage}
    (sent : terms.sent (.inView msg))
    (grants : r.CommitsJoin setup msg →
      terms.commits .inView .normal msg.view msg.lastspeculative r.log.entries) :
    (conduct setup terms).Meets (handleInView setup msg) r.standing r
      fun _ => Settled setup terms := by
  let added : Replica Hash :=
    { r with
      inViewQuorum := (r.inViewQuorum.addAndCheckForQuorum msg.view msg.replicaidx msg).1 }
  have soundAdded : added.Sound setup terms :=
    { sound with
      log := { sound.log with }
      quorate := { sound.quorate with }
      joined := sound.joined.add ⟨sent, rfl, rfl⟩ }
  unfold handleInView
  refine .bind (.get trivial fun _ => .branch (fun _ => .pure trivial ⟨rfl, sound⟩) fun current => ?_)
  refine .bind (.require trivial fun here _ => .bind (.require trivial fun leads _ => ?_))
  refine .bind (.change trivial fun _ => .branch (fun quorum => ?_) fun _ => ?_)
  · refine .bind (.require trivial fun reached _ => .branch (fun _ => ?_) fun open_ => ?_)
    · exact .pure trivial ⟨rfl, soundAdded⟩
    obtain ⟨notBefore, normal⟩ := not_or.mp here
    have still : r.status = .normal := not_not.mp normal
    have here : r.view = msg.view := by omega
    have granted : terms.commits .inView r.status r.view msg.lastspeculative r.log.entries := by
      rw [still, here]
      exact grants ⟨still, here, leads, quorum, reached, open_⟩
    refine .bind (.emit trivial granted fun _ => ?_)
    refine .bind ((commitUpTo_settles soundAdded.log _).imp ?_)
    rintro - _ committed - ⟨rfl, commits⟩ -
    have number := commits.lastCommitted
    have soundCommitted := soundAdded.of_undisturbed commits.undisturbed commits.sound (by omega)
    refine sendSync_meets.imp ?_
    rintro - _ after - ⟨rfl, synced⟩
    have same : committed.SameLog after :=
      synced ▸ ⟨⟨rfl, rfl, rfl, rfl, rfl, rfl, rfl, rfl⟩, rfl, rfl, rfl⟩
    exact ⟨same.standing.symm, soundCommitted.of_sameLog same⟩
  · exact .pure trivial ⟨rfl, soundAdded⟩

/-- `HandleFillLogGap` sends the log of the view that the leader has started. -/
theorem handleFillLogGap_meets (sound : r.Sound setup terms) {remote : Address}
    {msg : FillLogGapMessage}
    (started : setup.AmLeader r.view → r.view = msg.view → r.status = .normal)
    (committed : 0 < msg.lastcommitted → terms.committed (.one remote)) :
    (conduct setup terms).Meets (handleFillLogGap setup remote msg) r.standing r
      fun _ => Settled setup terms := by
  unfold handleFillLogGap sendMessage
  refine .bind (.get trivial fun _ => .branch (fun _ => .pure trivial ⟨rfl, sound⟩) fun here => ?_)
  refine .bind (.require trivial fun leads _ => .emit trivial ⟨leads, r.log.requests,
    ⟨⟨_, sound.log.hashed.dump _⟩, sound.log.lastSpeculative⟩, sound.log.asked, fun empty => ?_,
      .inr ⟨rfl, started leads (not_not.mp here).symm, List.prefix_refl _⟩⟩ ⟨rfl, sound⟩)
  rcases Nat.eq_zero_or_pos msg.lastcommitted with none_ | some_
  · have length := (sound.log.hashed.dump msg.lastcommitted).length
    simp only at empty
    rw [empty, none_, List.length_nil] at length
    exact .inl (List.length_eq_zero_iff.mp (by omega))
  · exact .inr (committed some_)

/-- `HandleFillDVCGap` sends the vote again, from earlier on. -/
theorem handleFillDVCGap_meets (sound : r.Sound setup terms) (remote : Address)
    (msg : FillDVCGapMessage) :
    (conduct setup terms).Meets (handleFillDVCGap setup remote msg) r.standing r
      fun _ => Settled setup terms := by
  unfold handleFillDVCGap sendMessage
  refine .bind (.get trivial fun _ => .branch (fun _ => .pure trivial ⟨rfl, sound⟩) fun _ => ?_)
  have within := sound.log.lastCommitted
  refine .bind (.require trivial fun _ _ => .emit trivial ⟨?_, asked_of_mem_dump sound.log _⟩
    ⟨rfl, sound⟩)
  exact doViewChange_wellFormed sound.log (by omega)

/-! ## What drives a replica -/

variable [LinearOrder Hash]

/-- What a message has to meet when it comes to a replica. -/
def Admissible (setup : Setup Hash) (terms : Terms Hash) (r : Replica Hash) (remote : Address) :
    Message Hash → Prop
  | .request msg => terms.asked msg.req
  | .syncReply msg =>
    terms.sent (.syncReply msg) ∧
      (SyncQuorum setup terms r.log.requests msg.view msg.lastspeculative →
        terms.commits .syncReply .normal msg.view msg.lastspeculative r.log.entries)
  | .doViewChange msg => msg.Cast setup terms ∧ MergesWhole setup terms r msg
  | .startView msg =>
    (∀ entry ∈ msg.entries, terms.asked entry.request) ∧
      (∀ join : InViewMessage, join.view = msg.view → terms.joins join) ∧
        ∀ gap : FillLogGapMessage, gap.view = msg.view → terms.gaps gap
  | .inView msg =>
    terms.sent (.inView msg) ∧ (r.CommitsJoin setup msg →
      terms.commits .inView .normal msg.view msg.lastspeculative r.log.entries)
  | .fillLogGap msg =>
    (setup.AmLeader r.view → r.view = msg.view → r.status = .normal) ∧
      (0 < msg.lastcommitted → terms.committed (.one remote))
  | _ => True

/-- A replica that receives a message keeps the invariant. -/
theorem receiveMessage_meets (sound : r.Sound setup terms) (readable : terms.Readable)
    {remote : Address} {msg : Message Hash} (admissible : Admissible setup terms r remote msg) :
    (conduct setup terms).Meets (receiveMessage setup app remote msg) r.standing r
      fun _ => Settled setup terms := by
  cases msg with
  | request msg =>
      refine (handleRequest_meets sound remote admissible).imp ?_
      exact fun _ _ _ _ ⟨stands, after, _⟩ => ⟨stands, after⟩
  | reply msg => exact .stop trivial
  | unloggedRequest msg => exact handleUnloggedRequest_meets sound remote msg
  | unloggedReply msg => exact .stop trivial
  | sync msg => exact handleSync_meets sound msg
  | syncReply msg => exact handleSyncReply_meets sound admissible.1 admissible.2
  | requestViewChange msg => exact handleRequestViewChange_meets sound msg
  | startViewChange msg => exact handleStartViewChange_meets sound msg
  | doViewChange msg => exact handleDoViewChange_meets sound readable admissible.1 admissible.2
  | startView msg =>
      exact handleStartView_meets sound remote admissible.1 admissible.2.1 admissible.2.2
  | inView msg => exact handleInView_meets sound admissible.1 admissible.2
  | fillLogGap msg => exact handleFillLogGap_meets sound admissible.1 admissible.2
  | fillDVCGap msg => exact handleFillDVCGap_meets sound remote msg

omit [LinearOrder Hash] in
/-- A replica whose timeout fires keeps the invariant. -/
theorem fireTimer_meets (sound : r.Sound setup terms) (timer : Timer) :
    (conduct setup terms).Meets (fireTimer setup timer) r.standing r
      fun _ => Settled setup terms := by
  have leaves : (conduct setup terms).Meets (do
      let r ← Handler.get
      startViewChange setup (r.view + 1)) r.standing r fun _ => Settled setup terms :=
    .bind (.get trivial fun _ => startViewChange_settles sound.toSteady (Nat.lt_succ_self _))
  cases timer with
  | sync =>
      refine sendSync_meets.imp ?_
      rintro - _ after - ⟨rfl, synced⟩
      have same : r.SameLog after :=
        synced ▸ ⟨⟨rfl, rfl, rfl, rfl, rfl, rfl, rfl, rfl⟩, rfl, rfl, rfl⟩
      exact ⟨same.standing.symm, sound.of_sameLog same⟩
  | failedSync => exact leaves
  | viewChange => exact leaves

end PaxosBus.Spec

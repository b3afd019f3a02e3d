import PaxosBus.Spec.Installing

/-!
# Requests and views at a replica

The invariant of a replica between two of its handlers, and what keeps it: the
parts that handlers share, from executing a request to entering a view.
-/

set_option autoImplicit false

namespace PaxosBus.Spec

open PaxosBus.Common PaxosBus.Library
open Logic (Meets)

variable {Hash : Type}

namespace Replica

/-- The quorum sets ask for as many messages as the constructor says. -/
structure Quorate (setup : Setup Hash) (r : Replica Hash) : Prop where
  replies : r.syncReplyQuorum.numRequired = setup.configuration.fastQuorumSize - 1
  votes : r.doViewChangeQuorum.numRequired = setup.configuration.quorumSize
  joins : r.inViewQuorum.numRequired = setup.configuration.quorumSize - 1

/-- Too few replies about an opnum for a quorum have come. -/
def FewReplies (setup : Setup Hash) (r : Replica Hash) (opnum : Nat) : Prop :=
  (r.syncReplyQuorum.messages opnum).size = 0 ∨
    (r.syncReplyQuorum.messages opnum).size < setup.configuration.fastQuorumSize - 1

/-- The invariant of a replica, in the middle of `HandleSyncReply` too. Replies to a `SyncMessage` are
of the view that the leader is in. A vote that has come since longer logs were asked for starts early
enough. -/
structure Steady (setup : Setup Hash) (terms : Terms Hash) (r : Replica Hash) : Prop where
  log : r.LogSound setup terms
  quorate : r.Quorate setup
  replies : r.syncReplyQuorum.All fun opnum idx msg =>
    terms.sent (.syncReply msg) ∧ msg.replicaidx = idx ∧ msg.lastspeculative = opnum ∧
      (r.status = .normal → msg.view = r.view)
  joined : r.inViewQuorum.All fun view idx msg =>
    terms.sent (.inView msg) ∧ msg.replicaidx = idx ∧ msg.view = view
  votes : r.doViewChangeQuorum.All fun view idx msg =>
    msg.WellFormed setup.hashing ∧
      (∀ entry ∈ msg.entries, terms.asked entry.request) ∧
        (view = r.needFillDVC → idx ≠ setup.replicaIdx → msg.Early)
  pending : ∀ pair ∈ r.pendingRequests, terms.asked pair.2.req
  unasked : r.status = .normal → setup.AmLeader r.view → r.pendingSync = 0

/-- The invariant of a replica: the replies about what is not committed yet are too few. -/
structure Sound (setup : Setup Hash) (terms : Terms Hash) (r : Replica Hash) : Prop
    extends r.Steady setup terms where
  few : r.status = .normal → ∀ opnum, r.lastCommitted < opnum → r.FewReplies setup opnum

/-- A replica goes on in its view. -/
structure Remains (r r' : Replica Hash) : Prop where
  status : r'.status = r.status
  view : r'.view = r.view
  lastCommitted : r'.lastCommitted = r.lastCommitted
  requests : r.log.requests <+: r'.log.requests

theorem Remains.trans {r r' r'' : Replica Hash} (first : r.Remains r') (second : r'.Remains r'') :
    r.Remains r'' where
  status := second.status.trans first.status
  view := second.view.trans first.view
  lastCommitted := second.lastCommitted.trans first.lastCommitted
  requests := first.requests.trans second.requests

variable {setup : Setup Hash} {terms : Terms Hash} {r r' : Replica Hash}

/-- Working on the log keeps the invariant. -/
theorem Steady.of_undisturbed (steady : r.Steady setup terms) (undisturbed : r.Undisturbed r')
    (log : r'.LogSound setup terms) : r'.Steady setup terms where
  log := log
  quorate := ⟨by rw [undisturbed.syncReplyQuorum, steady.quorate.replies],
    by rw [undisturbed.doViewChangeQuorum, steady.quorate.votes],
    by rw [undisturbed.inViewQuorum, steady.quorate.joins]⟩
  replies := by
    rw [undisturbed.syncReplyQuorum, undisturbed.status, undisturbed.view]
    exact steady.replies
  joined := undisturbed.inViewQuorum ▸ steady.joined
  votes := by
    rw [undisturbed.doViewChangeQuorum, undisturbed.needFillDVC]
    exact steady.votes
  pending := undisturbed.pendingRequests ▸ steady.pending
  unasked := by
    rw [undisturbed.status, undisturbed.view, undisturbed.pendingSync]
    exact steady.unasked

theorem Sound.of_undisturbed (sound : r.Sound setup terms) (undisturbed : r.Undisturbed r')
    (log : r'.LogSound setup terms) (grows : r.lastCommitted ≤ r'.lastCommitted) :
    r'.Sound setup terms where
  toSteady := sound.toSteady.of_undisturbed undisturbed log
  few := by
    unfold FewReplies
    rw [undisturbed.syncReplyQuorum, undisturbed.status]
    exact fun normal opnum open_ => sound.few normal opnum (by omega)

/-- What has nothing to do with the log keeps the invariant. -/
theorem Sound.of_sameLog (sound : r.Sound setup terms) (same : r.SameLog r') :
    r'.Sound setup terms :=
  sound.of_undisturbed same.undisturbed (same.sound sound.log) (Nat.le_of_eq same.lastCommitted.symm)

theorem SameLog.remains (same : r.SameLog r') : r.Remains r' :=
  ⟨same.undisturbed.status, same.undisturbed.view, same.lastCommitted,
    same.log ▸ List.prefix_refl _⟩

theorem SameLog.standing (same : r.SameLog r') : r'.standing = r.standing := by
  unfold Replica.standing
  rw [same.undisturbed.status, same.undisturbed.view, same.log, same.lastCommitted]

/-- The invariant is about messages that were sent before, too. -/
theorem Sound.imp_terms {other : Terms Hash} (sound : r.Sound setup terms)
    (sent : ∀ msg, terms.sent msg → other.sent msg)
    (asked : ∀ request, terms.asked request → other.asked request) : r.Sound setup other :=
  { sound with
    log := { sound.log with asked := fun request member => asked _ (sound.log.asked request member) }
    votes := sound.votes.imp fun _ _ _ ⟨wellFormed, made, early⟩ =>
      ⟨wellFormed, fun entry member => asked _ (made entry member), early⟩
    pending := fun pair member => asked _ (sound.pending pair member)
    replies := sound.replies.imp fun _ _ _ ⟨was, rest⟩ => ⟨sent _ was, rest⟩
    joined := sound.joined.imp fun _ _ _ ⟨was, rest⟩ => ⟨sent _ was, rest⟩ }

end Replica

variable {setup : Setup Hash} {terms : Terms Hash} {w : Standing} {r : Replica Hash} {app : App}

/-- Committing is a move of the replica. -/
theorem commitUpTo_settles (log : r.LogSound setup terms) (upto : Nat) :
    (conduct setup terms).Meets (commitUpTo upto) r.standing r fun _ w' r' =>
      w' = r'.standing ∧ r.Commits setup terms upto r' := by
  refine (commitUpTo_meets log upto).advance ?_
  rintro - _ after ⟨rfl, commits⟩
  have number := commits.lastCommitted
  refine ⟨after.standing, ⟨?_, ?_, ?_⟩, trivial, rfl, commits⟩
  · exact Nat.le_of_eq commits.undisturbed.view.symm
  · simp only [Replica.standing]
    omega
  · intro _ normal
    refine ⟨commits.undisturbed.status.trans normal, ?_⟩
    simp only [Replica.standing, commits.requests]
    exact List.prefix_refl _

/-! ## Synchronization -/

/-- `SendSync` only notes how far the synchronization goes. -/
theorem sendSync_meets :
    (conduct setup terms).Meets (sendSync setup) w r fun _ w' r' =>
      w' = w ∧ r' = { r with lastSync := r.lastSpeculative } := by
  unfold sendSync sendToAll
  refine .bind (.get trivial fun _ => .bind (.require trivial fun _ _ => ?_))
  refine .bind (.require trivial fun _ _ => .bind (.change trivial fun _ => ?_))
  refine .branch (fun _ => .emit trivial trivial ⟨rfl, rfl⟩) (fun _ => ?_)
  exact .bind (.demand trivial fun _ _ _ => .emit trivial trivial ⟨rfl, rfl⟩)

/-- A follower answers a `SyncMessage` in its view. -/
theorem sendSyncReply_meets (log : r.LogSound setup terms) (normal : r.status = .normal)
    (follower : ¬ setup.AmLeader r.view) (opnum : Nat) :
    (conduct setup terms).Meets (sendSyncReply setup opnum) w r fun _ w' r' =>
      w' = w ∧ r' = r := by
  have replies : ∀ hash, (∀ digest, hash = some digest → opnum ≤ r.log.requests.length ∧
      digest = setup.hashing.chain (r.log.requests.take opnum)) →
        (conduct setup terms).Meets (replyToSync setup opnum hash) w r
          fun _ w' r' => w' = w ∧ r' = r := by
    intro hash stands
    unfold replyToSync
    refine .bind (.get trivial fun _ => .emit trivial ?_ ⟨rfl, rfl⟩)
    exact ⟨rfl, follower, normal, rfl, r.log.requests, log.hashed.piece, log.asked, stands⟩
  unfold sendSyncReply
  refine .bind (.get trivial fun _ => .branch (fun _ => ?_) (fun _ => ?_))
  · exact replies none fun _ none_ => nomatch none_
  · refine .bind (.demand trivial fun entry found _ => replies _ fun digest same => ?_)
    obtain ⟨-, inLog, -, -, hash⟩ := log.hashed.of_find found
    exact ⟨inLog, Option.some.inj same ▸ hash⟩

/-! ## Requests -/

/-- Answering a request again is about its protocol data only. -/
theorem resendReply_meets (remote : Address) (opnum : Nat) :
    (conduct setup terms).Meets (resendReply remote opnum) w r fun _ w' r' =>
      w' = w ∧ r.SameLog r' := by
  unfold resendReply sendMessage
  refine .bind (.get trivial fun _ => .bind (.demand trivial fun _ _ _ => ?_))
  refine .bind (.demand trivial fun _ _ _ => .bind (.change trivial fun _ => ?_))
  exact .emit trivial trivial ⟨rfl, ⟨rfl, rfl, rfl, rfl, rfl, rfl, rfl, rfl⟩, rfl, rfl, rfl⟩

/-- Executing a request keeps the invariant. -/
theorem executeRequest_meets (sound : r.Sound setup terms) (normal : r.status = .normal)
    (remote : Address) {req : Request} (asked : terms.asked req) :
    (conduct setup terms).Meets (executeRequest setup app remote req) r.standing r fun _ w' r' =>
      w' = r'.standing ∧ r'.Sound setup terms ∧ r.Remains r' := by
  have counted : ({ r with lastSpeculative := r.lastSpeculative + 1 } : Replica Hash).log.Hashed
      setup.hashing := sound.log.hashed
  have begun : r.Undisturbed { r with lastSpeculative := r.lastSpeculative + 1 } :=
    ⟨rfl, rfl, rfl, rfl, rfl, rfl, rfl, rfl⟩
  unfold executeRequest sendMessage
  refine .bind (.change trivial fun _ => .bind (.get trivial fun _ => ?_))
  refine .bind ((append_meets counted _ req).imp ?_)
  rintro - _ appended - ⟨rfl, appends⟩ -
  have inOrder := appends.sound sound.log asked rfl rfl rfl
  refine .bind ((execute_meets req).imp ?_)
  rintro result _ executed - ⟨rfl, same⟩ -
  refine .bind (.get trivial fun _ => .bind (.emit trivial trivial fun _ => ?_))
  refine .bind ((updateClientTable_meets _ _ _).imp ?_)
  rintro - _ updated - ⟨rfl, sameToo⟩ -
  have whole := same.trans sameToo
  have undisturbed := (begun.trans appends.undisturbed).trans whole.undisturbed
  have committed : updated.lastCommitted = r.lastCommitted :=
    whole.lastCommitted.trans appends.lastCommitted
  have requests : updated.log.requests = r.log.requests ++ [req] := by
    rw [whole.log, appends.requests]
  have soundNow : updated.Sound setup terms :=
    sound.of_undisturbed undisturbed (whole.sound inOrder) (Nat.le_of_eq committed.symm)
  have remains : r.Remains updated :=
    ⟨undisturbed.status, undisturbed.view, committed, requests ▸ List.prefix_append _ _⟩
  have forward : r.standing.Later updated.standing :=
    ⟨Nat.le_of_eq remains.view.symm, Nat.le_of_eq committed.symm,
      fun _ _ => ⟨remains.status.trans normal, remains.requests⟩⟩
  have reached : 0 < updated.lastSpeculative := by
    rw [soundNow.log.lastSpeculative, requests]
    simp
  have answers : (conduct setup terms).Meets (answerPendingSync setup) updated.standing updated
      fun _ w' r' => updated.standing = w' ∧ updated = r' := by
    unfold answerPendingSync
    refine .bind (.get trivial fun _ => .branch (fun due => ?_) fun _ => .pure trivial ⟨rfl, rfl⟩)
    refine (sendSyncReply_meets soundNow.log (remains.status.trans normal) (fun leads => ?_) _).imp
      fun _ _ _ _ ⟨still, same⟩ => ⟨still.symm, same.symm⟩
    have := soundNow.unasked (remains.status.trans normal) leads
    omega
  refine Meets.later forward (.bind (answers.imp ?_))
  rintro - _ _ - ⟨rfl, rfl⟩ -
  unfold syncWhenDue
  refine .bind (.get trivial fun _ => .branch (fun _ => ?_) fun _ => ?_)
  · refine sendSync_meets.imp ?_
    rintro - _ after - ⟨rfl, synced⟩
    have sameLog : updated.SameLog after :=
      synced ▸ ⟨⟨rfl, rfl, rfl, rfl, rfl, rfl, rfl, rfl⟩, rfl, rfl, rfl⟩
    exact ⟨sameLog.standing.symm, soundNow.of_sameLog sameLog, remains.trans sameLog.remains⟩
  · exact .pure trivial ⟨rfl, soundNow, remains⟩

/-- `HandleRequest` keeps the invariant. -/
theorem handleRequest_meets (sound : r.Sound setup terms) (remote : Address)
    {msg : RequestMessage} (asked : terms.asked msg.req) :
    (conduct setup terms).Meets (handleRequest setup app remote msg) r.standing r fun _ w' r' =>
      w' = r'.standing ∧ r'.Sound setup terms ∧ r.Remains r' := by
  let known : Replica Hash :=
    { r with clientAddresses := Function.update r.clientAddresses msg.req.clientid (some remote) }
  have same : r.SameLog known := ⟨⟨rfl, rfl, rfl, rfl, rfl, rfl, rfl, rfl⟩, rfl, rfl, rfl⟩
  have soundKnown := sound.of_sameLog same
  have accepts : (conduct setup terms).Meets (acceptRequest setup app remote msg) known.standing
      known fun _ w' r' => w' = r'.standing ∧ r'.Sound setup terms ∧ r.Remains r' := by
    unfold acceptRequest
    refine .bind (.get trivial fun _ => .branch (fun _ => ?_) fun normal => ?_)
    · have deferred : ({ known with
          pendingRequests := known.pendingRequests ++ [(remote, msg)] } : Replica Hash).Sound setup
          terms :=
        { soundKnown with
          log := { soundKnown.log with }
          quorate := { soundKnown.quorate with }
          pending := by
            intro pair member
            rcases List.mem_append.mp member with old | new
            · exact soundKnown.pending pair old
            · exact List.mem_singleton.mp new ▸ asked }
      exact .change trivial ⟨rfl, deferred, ⟨rfl, rfl, rfl, List.prefix_refl _⟩⟩
    · refine (executeRequest_meets soundKnown (not_not.mp normal) remote asked).imp ?_
      rintro - _ after - ⟨rfl, soundAfter, remains⟩
      exact ⟨rfl, soundAfter, same.remains.trans remains⟩
  unfold handleRequest
  refine .bind (.change trivial fun _ => .bind (.get trivial fun _ => ?_))
  split
  · exact accepts
  · refine .branch (fun _ => .pure trivial ⟨rfl, soundKnown, same.remains⟩) fun _ => ?_
    refine .branch (fun _ => ?_) fun _ => accepts
    refine (resendReply_meets remote _).imp ?_
    rintro - _ after - ⟨rfl, again⟩
    exact ⟨again.standing.symm, soundKnown.of_sameLog again, same.remains.trans again.remains⟩

/-! ## Changing views -/

/-- Starting and stopping timeouts is about nothing else. -/
theorem startTimeouts_sameLog : r.SameLog (r.startTimeouts setup) := by
  unfold Replica.startTimeouts
  split <;> exact ⟨⟨rfl, rfl, rfl, rfl, rfl, rfl, rfl, rfl⟩, rfl, rfl, rfl⟩

/-- A replica without messages satisfies the invariant if its log is in order. -/
theorem startAnew_sound (log : r.LogSound setup terms) (quorate : r.Quorate setup) :
    r.startAnew.Sound setup terms where
  log := { log with }
  quorate := { quorate with }
  replies := QuorumSet.all_clear
  few _ _ _ := .inl rfl
  joined := QuorumSet.all_clear
  votes := QuorumSet.all_clear
  pending := fun _ member => nomatch member
  unasked _ _ := rfl

/-- `EnterView` starts the view with the log that the replica has then. -/
theorem enterView_meets {newview : Nat} (log : r.LogSound setup terms) (quorate : r.Quorate setup)
    (pending : ∀ pair ∈ r.pendingRequests, terms.asked pair.2.req)
    (forward : w.Later
      { status := .normal, view := newview, lastCommitted := r.lastCommitted,
        requests := r.log.requests }) :
    (conduct setup terms).Meets (enterView setup app newview) w r fun _ w' r' =>
      w' = r'.standing ∧ r'.Sound setup terms ∧ r'.status = .normal ∧ r'.view = newview ∧
        r'.lastCommitted = r.lastCommitted ∧ r.log.requests <+: r'.log.requests := by
  let moved : Replica Hash := { r with view := newview, status := .normal }
  have timed : moved.SameLog (moved.startTimeouts setup) := startTimeouts_sameLog
  have anew : (moved.startTimeouts setup).startAnew.Sound setup terms := by
    refine startAnew_sound (timed.sound { log with }) ⟨?_, ?_, ?_⟩
    · rw [timed.undisturbed.syncReplyQuorum]
      exact quorate.replies
    · rw [timed.undisturbed.doViewChangeQuorum]
      exact quorate.votes
    · rw [timed.undisturbed.inViewQuorum]
      exact quorate.joins
  have remains : moved.Remains (moved.startTimeouts setup).startAnew :=
    ⟨timed.undisturbed.status, timed.undisturbed.view, timed.lastCommitted,
      timed.remains.requests⟩
  have stands : (moved.startTimeouts setup).startAnew.standing = moved.standing := timed.standing
  unfold enterView
  refine Meets.later forward (.bind (.change trivial fun _ => .bind (.get trivial fun _ => ?_)))
  refine .bind (.emit trivial trivial fun _ => .bind (.change trivial fun _ => ?_))
  refine .bind (.change trivial fun _ => ?_)
  refine (Meets.forEach (fun w' r' => w' = r'.standing ∧ r'.Sound setup terms ∧ moved.Remains r') ?_
    trivial ⟨stands.symm, anew, remains⟩).imp ?_
  · rintro pair inPending _ middle - ⟨rfl, soundNow, remainsNow⟩
    refine (handleRequest_meets soundNow pair.1 (pending pair inPending)).imp ?_
    rintro - _ after - ⟨rfl, soundAfter, remainsAfter⟩
    exact ⟨rfl, soundAfter, remainsNow.trans remainsAfter⟩
  · rintro - _ after - ⟨rfl, soundAfter, remainsAfter⟩
    exact ⟨rfl, soundAfter, remainsAfter.status, remainsAfter.view, remainsAfter.lastCommitted,
      remainsAfter.requests⟩

/-- `StartViewChange` leaves the view for a later one. -/
theorem startViewChange_meets (steady : r.Steady setup terms) {newview : Nat}
    (beyond : r.view < newview) :
    (conduct setup terms).Meets (startViewChange setup newview) r.standing r fun _ w' r' =>
      w' = r'.standing ∧ r'.Sound setup terms ∧ r'.status = .viewChange ∧ r'.view = newview ∧
        r'.lastCommitted = r.lastCommitted ∧ r'.log = r.log ∧
          r'.lastSpeculative = r.lastSpeculative ∧
          r'.doViewChangeQuorum = r.doViewChangeQuorum ∧ r'.needFillDVC = r.needFillDVC := by
  let left : Replica Hash :=
    { r with
      view := newview
      status := .viewChange
      viewChangeTimeout := true
      syncTimeout := false
      failedSyncTimeout := false }
  have forward : r.standing.Later left.standing :=
    ⟨Nat.le_of_lt beyond, Nat.le_refl _, fun same => absurd same (Nat.ne_of_lt beyond)⟩
  have soundLeft : left.Sound setup terms := {
    log := { steady.log with }
    quorate := { steady.quorate with }
    replies := steady.replies.imp fun _ _ _ ⟨sent, sender, opnum, _⟩ =>
      ⟨sent, sender, opnum, fun normal => nomatch normal⟩
    few := fun normal => nomatch normal
    joined := steady.joined
    votes := steady.votes
    pending := steady.pending
    unasked := fun normal => nomatch normal }
  unfold startViewChange sendToAll
  refine Meets.later forward (.bind (.change trivial fun _ => .bind (.get trivial fun _ => ?_)))
  exact .emit trivial trivial ⟨rfl, soundLeft, rfl, rfl, rfl, rfl, rfl, rfl, rfl⟩

end PaxosBus.Spec

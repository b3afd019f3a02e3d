import PaxosBus.Vr.Voting

/-!
# Votes and starts of views

What a replica puts in its vote, or in the start of its view, reaches down to
every commit point that it has heard of. With that the handlers of the view
change keep to what was sanctioned, and so does whatever a replica is sent.
-/

set_option autoImplicit false

namespace PaxosBus.Vr

open PaxosBus.Common PaxosBus.Library
open Logic (Meets)

variable {setup : Setup} {votes : DoViewChangeMessage → Prop} {starts : StartViewMessage → Prop}
  {received : DoViewChangeMessage → Prop} {r : Replica} {app : App} {undefined : Undefined}

/-! ## View changes -/

section Changing

/-- The entries start no later than right after any of some commit points, or at the first
operation. -/
def Spans (entries : List Entry) (points : List Nat) : Prop :=
  ∀ first ∈ entries.head?, ∀ point ∈ points, first.viewstamp.opnum ≤ max point 1

/-- What a log has from a number on spans all the numbers that are not below it. -/
theorem spans_dump {log : Log Unit} (start : log.start = 1) {from_ : Nat} {points : List Nat}
    (least : ∀ point ∈ points, from_ ≤ point) : Spans (log.dump from_) points := by
  intro first head point member
  have numbered := (log.window_dump from_).numbered
  have number := numbered 0 first (by rwa [← List.head?_eq_getElem?])
  have := least point member
  omega

/-- The least commit point of some messages is no more than that of any of them. -/
theorem minCommitted_le {Msg : Type} {lastcommitted : Msg → Nat} {pastEnd : Nat}
    {msgs : Std.TreeMap Nat Msg} {msg : Msg} (member : msg ∈ msgs.values) :
    minCommitted lastcommitted pastEnd msgs ≤ lastcommitted msg := by
  have inMap : lastcommitted msg ∈ msgs.values.map lastcommitted := List.mem_map_of_mem member
  unfold minCommitted
  obtain ⟨least, found⟩ := Option.isSome_iff_exists.mp (List.isSome_min?_of_mem inMap)
  rw [found]
  exact (List.min?_eq_some_iff.mp found).2 _ inMap

/-- Starting a view change. -/
theorem startViewChange_joins {newview : Nat} :
    (voteLogic setup votes starts).Meets (startViewChange setup newview) () r fun _ _ r' =>
      r'.voting = { r.voting with view := newview, status := .viewChange } := by
  apply Meets.bind
  refine .change trivial fun _ => ?_
  apply Meets.bind
  refine .get trivial fun _ => ?_
  exact .emit trivial (by trivial) rfl

/-- Joining a view change goes onward: the view is later, and the votes of before count no more. -/
theorem Replica.Onward.of_joins {newview : Nat} {r' : Replica} (later : r.view < newview)
    (joins : r'.voting = { r.voting with view := newview, status := .viewChange }) :
    r.Onward received r' := by
  have joined : r.Onward received { r with view := newview, status := .viewChange } := {
    start := rfl
    awake := fun _ => nofun
    committed := Nat.le_refl _
    attends := fun view attends => .inl (by
      have atLeast : newview ≤ view := by
        rcases attends with before | ⟨rfl, -⟩
        · exact Nat.le_of_lt before
        · exact Nat.le_refl _
      omega)
    joined := fun joined view heard => (joined view heard).trans later.le
    heard := fun _ _ _ heard => heard
    votes := fun _ _ _ found => .inl found }
  exact joined.trans (.of_same joins)

/-- A `StartViewChange` is counted for the replica's view. -/
theorem Replica.Onward.of_count {msg : StartViewChangeMessage} (view : msg.view = r.view) :
    r.Onward received { r with
      startViewChangeQuorum := r.startViewChangeQuorum.add msg.view msg.replicaidx msg } where
  start := rfl
  awake := id
  committed := Nat.le_refl _
  attends _ attends := attends
  joined joined other heard := by
    by_cases here : other = msg.view
    · exact (here.trans view).le
    · apply joined other
      unfold Replica.Heard at heard ⊢
      simpa [QuorumSet.add, Function.update_of_ne here] using heard
  heard _ other _ heard := by
    unfold Replica.Heard at heard ⊢
    by_cases here : other = msg.view
    · subst here
      simp only [QuorumSet.add, Function.update_self]
      exact Nat.lt_of_lt_of_le heard Std.TreeMap.size_le_size_insert
    · simpa [QuorumSet.add, Function.update_of_ne here] using heard
  votes _ _ _ found := .inl found

/-- A vote is counted. -/
theorem Replica.Onward.of_vote {msg : DoViewChangeMessage} (isReceived : received msg) :
    r.Onward received { r with
      doViewChangeQuorum := r.doViewChangeQuorum.add msg.view msg.replicaidx msg } where
  start := rfl
  awake := id
  committed := Nat.le_refl _
  attends _ attends := attends
  joined := id
  heard _ _ _ heard := heard
  votes view replicaIdx other found := by
    have all : (r.doViewChangeQuorum.add msg.view msg.replicaidx msg).All fun view replicaIdx msg =>
        (r.doViewChangeQuorum.messages view)[replicaIdx]? = some msg ∨
          received msg ∧ msg.view = view := by
      apply QuorumSet.All.add
      · exact fun _ _ _ found => .inl found
      · exact .inr ⟨isReceived, rfl⟩
    exact all view replicaIdx other found

/-- The commit points that a replica has heard of when it counts a `StartViewChange`. -/
def Replica.pointsAt (r : Replica) (msg : StartViewChangeMessage) : List Nat :=
  r.lastCommitted ::
    ((r.startViewChangeQuorum.add msg.view msg.replicaidx msg).messages msg.view).values.map
      StartViewChangeMessage.lastcommitted

/-- The vote that a replica sends where it has heard of enough others. -/
def Replica.Sends (setup : Setup) (r : Replica) (msg : StartViewChangeMessage)
    (vote : DoViewChangeMessage) : Prop :=
  r.startViewChangeQuorum.numRequired ≤
      ((r.startViewChangeQuorum.add msg.view msg.replicaidx msg).messages msg.view).size ∧
    setup.configuration.getLeaderIndex msg.view ≠ setup.replicaIdx ∧ vote.view = msg.view ∧
      Spans vote.entries (r.pointsAt msg)

/-- The vote of the replica is sanctioned, and goes to the leader of its view. -/
theorem countStartViewChange_proceeds {msg : StartViewChangeMessage} (start : r.log.start = 1)
    (sanctioned : ∀ vote, r.Sends setup msg vote → votes vote) :
    Proceeds setup votes starts received (countStartViewChange setup undefined msg) r := by
  apply get_proceeds
  apply require_proceeds
  intro view
  apply Meets.bind
  refine .change trivial fun _ => ?_
  have counted : r.Onward received { r with
      startViewChangeQuorum := r.startViewChangeQuorum.add msg.view msg.replicaidx msg } :=
    .of_count view
  split
  · exact .pure trivial counted
  next msgs found =>
      obtain ⟨rfl, enough⟩ := QuorumSet.of_checkForQuorum found
      refine Meets.imp (?rests : Rests setup votes starts _ _) ?_
      · apply Meets.branch
        · intro other
          apply rests_seq (rests_modify rfl)
          intro _ _ _
          apply rests_emit
          rw [← view] at other ⊢
          refine ⟨rfl, other, sanctioned _ ⟨enough, other, rfl, spans_dump start ?_⟩⟩
          intro point member
          rcases List.mem_cons.mp member with rfl | heard
          · exact Nat.min_le_right _ _
          · obtain ⟨svc, inValues, rfl⟩ := List.mem_map.mp heard
            exact (Nat.min_le_left _ _).trans (minCommitted_le inValues)
        · exact fun _ => rests_return
      · intro _ _ _ _ same
        exact counted.trans (.of_same same)

/-- A message of a view change that is neither stale nor for a view that the replica is in is
attended to. -/
theorem attends_of_not {view : Nat} (notStale : ¬ view < r.view)
    (notNormal : ¬ (view = r.view ∧ r.status ≠ .viewChange)) : r.Attends view := by
  rcases Nat.lt_or_eq_of_le (Nat.not_lt.mp notStale) with later | same
  · exact .inl later
  · exact .inr ⟨same.symm, not_not.mp fun normal => notNormal ⟨same.symm, normal⟩⟩

/-- The replica may send a vote in a view that it attends. -/
theorem handleStartViewChange_proceeds {msg : StartViewChangeMessage} (start : r.log.start = 1)
    (sanctioned : r.Attends msg.view → ∀ vote, r.Sends setup msg vote → votes vote) :
    Proceeds setup votes starts received (handleStartViewChange setup undefined msg) r := by
  apply get_proceeds
  apply Meets.branch (fun _ => rests_return.proceeds)
  intro notStale
  apply Meets.branch (fun _ => rests_return.proceeds)
  intro notNormal
  have attends := attends_of_not notStale notNormal
  apply Meets.branch
  · intro joins
    apply Meets.bind
    apply startViewChange_joins.imp
    intro _ _ r1 _ joined _
    have onward : r.Onward received r1 :=
      .of_joins (joins_later notStale notNormal joins) joined
    have counted : r1.startViewChangeQuorum = r.startViewChangeQuorum :=
      congrArg Voting.startViewChangeQuorum joined
    have committed : r1.lastCommitted = r.lastCommitted := congrArg Voting.lastCommitted joined
    apply onward.proceed
    apply countStartViewChange_proceeds (onward.start.trans start)
    intro vote sends
    apply sanctioned attends
    unfold Replica.Sends Replica.pointsAt at sends ⊢
    rwa [counted, committed] at sends
  · exact fun _ => countStartViewChange_proceeds start (sanctioned attends)

/-- The commit points that the leader of a new view has heard of. -/
def Replica.pointsFor (r : Replica) (view : Nat) (msgs : Std.TreeMap Nat DoViewChangeMessage) :
    List Nat :=
  r.lastCommitted ::
    ((r.startViewChangeQuorum.messages view).values.map StartViewChangeMessage.lastcommitted ++
      msgs.values.map DoViewChangeMessage.lastcommitted)

/-- The start of the view is sanctioned if it spans what the votes say. -/
theorem becomeLeader_proceeds {msg : DoViewChangeMessage}
    {msgs : Std.TreeMap Nat DoViewChangeMessage} (start : r.log.start = 1)
    (view : r.view = msg.view)
    (sanctioned : ∀ sv : StartViewMessage, sv.view = msg.view →
      Spans sv.entries (r.pointsFor msg.view msgs) → starts sv) :
    Proceeds setup votes starts received (becomeLeader setup undefined.stopping msg msgs) r := by
  apply get_proceeds
  split
  · exact .stop trivial
  next latestOp _ =>
      have entered : r.Onward received (r.enterView setup msg.view) := .enterView view.le
      have led : r.Onward received { r.enterView setup msg.view with lastOp := latestOp } :=
        entered.trans (.of_same rfl)
      apply Meets.bind
      refine .change trivial fun _ => ?_
      apply Meets.bind
      refine .get trivial fun _ => ?_
      apply Meets.bind
      refine .require trivial fun _ _ => ?_
      apply Meets.bind
      refine .change trivial fun _ => ?_
      apply Meets.bind
      refine .emit trivial trivial fun _ => ?_
      apply Meets.bind
      refine .get trivial fun _ => ?_
      refine .emit trivial ⟨rfl, sanctioned _ rfl ?_⟩ led
      apply spans_dump start
      intro point member
      rcases List.mem_cons.mp member with rfl | heard
      · exact Nat.min_le_right _ _
      · apply (Nat.min_le_left _ _).trans
        rcases List.mem_append.mp heard with counted | voted
        · obtain ⟨svc, inValues, rfl⟩ := List.mem_map.mp counted
          rw [← view] at inValues
          exact (Nat.min_le_left _ _).trans (minCommitted_le inValues)
        · obtain ⟨dvc, inValues, rfl⟩ := List.mem_map.mp voted
          exact (Nat.min_le_right _ _).trans (minCommitted_le inValues)

/-- The start of a view that a replica sends where it has enough votes. -/
def Replica.Begins (r : Replica) (msg : DoViewChangeMessage) (sv : StartViewMessage) : Prop :=
  let msgs := (r.doViewChangeQuorum.add msg.view msg.replicaidx msg).messages msg.view
  r.doViewChangeQuorum.numRequired ≤ msgs.size ∧ sv.view = msg.view ∧
    Spans sv.entries (r.pointsFor msg.view msgs)

/-- A vote that is held afterwards has been held before, or is the one received. -/
theorem countDoViewChange_proceeds {msg : DoViewChangeMessage} (start : r.log.start = 1)
    (view : r.view = msg.view) (isReceived : received msg)
    (sanctioned : ∀ sv, r.Begins msg sv → starts sv) :
    Proceeds setup votes starts received (countDoViewChange setup undefined.stopping msg) r := by
  apply require_proceeds
  intro _
  apply get_proceeds
  apply Meets.bind
  refine .change trivial fun _ => ?_
  have voted : r.Onward received { r with
      doViewChangeQuorum := r.doViewChangeQuorum.add msg.view msg.replicaidx msg } :=
    .of_vote isReceived
  split
  · exact .pure trivial voted
  next msgs found =>
      obtain ⟨rfl, enough⟩ := QuorumSet.of_checkForQuorum found
      apply voted.proceed
      refine becomeLeader_proceeds ?_ ?_ ?_
      · exact start
      · exact view
      · exact fun sv view spans => sanctioned sv ⟨enough, view, spans⟩

/-- The replica may start a view that it attends. -/
theorem handleDoViewChange_proceeds {msg : DoViewChangeMessage} (start : r.log.start = 1)
    (isReceived : received msg)
    (sanctioned : r.Attends msg.view → ∀ sv, r.Begins msg sv → starts sv) :
    Proceeds setup votes starts received (handleDoViewChange setup undefined.stopping msg) r := by
  apply get_proceeds
  apply Meets.branch (fun _ => rests_return.proceeds)
  intro notStale
  apply Meets.branch (fun _ => rests_return.proceeds)
  intro notNormal
  have attends := attends_of_not notStale notNormal
  apply Meets.branch
  · intro joins
    apply Meets.bind
    apply startViewChange_joins.imp
    intro _ _ r1 _ joined _
    have onward : r.Onward received r1 :=
      .of_joins (joins_later notStale notNormal joins) joined
    have view : r1.view = msg.view := congrArg Voting.view joined
    have counted : r1.startViewChangeQuorum = r.startViewChangeQuorum :=
      congrArg Voting.startViewChangeQuorum joined
    have collected : r1.doViewChangeQuorum = r.doViewChangeQuorum :=
      congrArg Voting.doViewChangeQuorum joined
    have committed : r1.lastCommitted = r.lastCommitted := congrArg Voting.lastCommitted joined
    apply onward.proceed
    apply countDoViewChange_proceeds (onward.start.trans start) view isReceived
    intro sv begins
    apply sanctioned attends
    unfold Replica.Begins Replica.pointsFor at begins ⊢
    rwa [counted, committed, collected] at begins
  · intro changing
    obtain ⟨-, notLater⟩ := not_or.mp changing
    apply countDoViewChange_proceeds start _ isReceived (sanctioned attends)
    omega

/-- Entering the view of another replica starts none. -/
theorem handleStartView_proceeds {msg : StartViewMessage} :
    Proceeds setup votes starts received (handleStartView setup app msg) r := by
  apply get_proceeds
  apply Meets.branch (fun _ => rests_return.proceeds)
  intro notStale
  apply Meets.branch (fun _ => rests_return.proceeds)
  intro _
  apply require_proceeds
  intro _
  apply Meets.bind
  apply (of_silent installStartView_silent).imp
  rintro _ _ _ _ ⟨log, start, rfl⟩ _
  have installed : r.Onward received { r with log := log } := by
    apply Replica.Onward.of_same
    unfold Replica.voting
    rw [start]
  apply installed.proceed
  apply modify_proceeds
  · exact Replica.Onward.enterView (Nat.not_lt.mp notStale)
  apply modify_proceeds (.of_same rfl)
  apply get_proceeds
  apply require_proceeds
  intro _
  apply proceeds_seq commitUpTo_proceeds
  intro _ _ _
  exact sendPrepareOKs_rests.proceeds

end Changing

/-! ## Any message, any timer -/

section Receiving

/-- Whatever a replica that keeps its state is sent, it goes onward, if it stops where what it does
is not defined. -/
theorem receiveMessage_proceeds {remote : Address} {msg : Message} (start : r.log.start = 1)
    (awake : r.status ≠ .recovering)
    (voting : ∀ svc, msg = .startViewChange svc → r.Attends svc.view →
      ∀ vote, r.Sends setup svc vote → votes vote)
    (starting : ∀ dvc, msg = .doViewChange dvc → r.Attends dvc.view →
      ∀ sv, r.Begins dvc sv → starts sv) :
    Proceeds setup votes starts (fun dvc => msg = .doViewChange dvc)
      (receiveMessage setup app undefined.stopping remote msg) r := by
  cases msg with
  | request msg => exact handleRequest_rests.proceeds
  | unloggedRequest msg => exact handleUnloggedRequest_rests.proceeds
  | prepare msg => exact handlePrepare_rests.proceeds
  | prepareOK msg => exact handlePrepareOK_proceeds
  | commit msg => exact handleCommit_proceeds
  | requestStateTransfer msg => exact handleRequestStateTransfer_rests.proceeds
  | stateTransfer msg => exact handleStateTransfer_proceeds
  | startViewChange msg => exact handleStartViewChange_proceeds start (voting msg rfl)
  | doViewChange msg => exact handleDoViewChange_proceeds start rfl (starting msg rfl)
  | startView msg => exact handleStartView_proceeds
  | recovery msg => exact handleRecovery_rests.proceeds
  | recoveryResponse msg =>
      apply get_proceeds
      exact .branch (fun _ => rests_return.proceeds) fun recovering =>
        absurd (not_not.mp recovering) awake
  | reply _ => exact .stop trivial
  | unloggedReply _ => exact .stop trivial

/-- Timeouts send again what has been sent, or join a later view change. -/
theorem fireTimer_proceeds {timer : Timer} :
    Proceeds setup votes starts received (fireTimer setup timer) r := by
  cases timer with
  | viewChange =>
      apply get_proceeds
      apply startViewChange_joins.imp
      intro _ _ _ _ joined
      exact .of_joins (Nat.lt_succ_self _) joined
  | nullCommit =>
      apply get_proceeds
      apply require_proceeds
      exact fun _ => (rests_emit (by trivial)).proceeds
  | stateTransfer => exact (rests_modify rfl).proceeds
  | resendPrepare =>
      apply get_proceeds
      apply require_proceeds
      intro _
      exact .branch (fun _ => rests_return.proceeds) fun _ => (rests_emit (by trivial)).proceeds
  | closeBatch => exact closeBatch_rests.proceeds
  | recovery =>
      apply get_proceeds
      exact (rests_emit (by trivial)).proceeds

end Receiving

end PaxosBus.Vr

import PaxosBus.Spec.Dispatching
import PaxosBus.Spec.Reading

/-!
# Changing views

What the handlers of a view change keep to: the votes, the merge of a quorum of
votes, the view that starts from the merged log, and the replicas that join it.
-/

set_option autoImplicit false

namespace PaxosBus.Spec

open PaxosBus.Common PaxosBus.Library
open Logic (Meets)
open Std (TreeMap)

variable {Hash : Type} {setup : Setup Hash} {terms : Terms Hash} {w : Standing} {r : Replica Hash}
  {app : App}

/-- `HandleRequestViewChange` keeps the invariant. -/
theorem handleRequestViewChange_meets (sound : r.Sound setup terms)
    (msg : RequestViewChangeMessage) :
    (conduct setup terms).Meets (handleRequestViewChange setup msg) r.standing r
      fun _ => Settled setup terms := by
  unfold handleRequestViewChange
  refine .bind (.get trivial fun _ => .branch (fun _ => .pure trivial ⟨rfl, sound⟩) fun _ => ?_)
  exact startViewChange_settles sound.toSteady (Nat.lt_succ_self _)

/-- What a replica is once it is changing to a view. -/
structure Replica.Joined (view : Nat) (r r' : Replica Hash) : Prop where
  status : r'.status = .viewChange
  view : r'.view = view
  lastCommitted : r'.lastCommitted = r.lastCommitted
  log : r'.log = r.log
  lastSpeculative : r'.lastSpeculative = r.lastSpeculative
  doViewChangeQuorum : r'.doViewChangeQuorum = r.doViewChangeQuorum
  needFillDVC : r'.needFillDVC = r.needFillDVC

/-- A message about a later view, or about one that the replica is changing to, finds it changing to
the view. -/
theorem joinViewChange_meets (sound : r.Sound setup terms) {view : Nat} (current : ¬ view < r.view)
    (open_ : ¬ (view = r.view ∧ r.status ≠ .viewChange)) :
    (conduct setup terms).Meets (joinViewChange setup view) r.standing r fun _ w' r' =>
      Settled setup terms w' r' ∧ r.Joined view r' := by
  unfold joinViewChange
  refine .bind (.get trivial fun _ => .branch (fun leaves => ?_) fun stays => ?_)
  · have beyond : r.view < view := by
      rcases leaves with status | beyond
      · by_contra same
        exact open_ ⟨by omega, status⟩
      · exact beyond
    refine (startViewChange_meets sound.toSteady beyond).imp ?_
    rintro - _ after - ⟨stands, soundAfter, status, there, commits, log, speculative, votes, fill⟩
    exact ⟨⟨stands, soundAfter⟩, status, there, commits, log, speculative, votes, fill⟩
  · obtain ⟨status, same⟩ := not_or.mp stays
    exact .pure trivial ⟨⟨rfl, sound⟩, not_not.mp status, by omega, rfl, rfl, rfl, rfl, rfl⟩

/-! ## Votes -/

/-- Where a replica begins its vote is within its log. -/
theorem windowStart_le : r.windowStart ≤ max 1 r.lastSpeculative := by
  unfold Replica.windowStart
  split <;> omega

/-- A replica that votes sends its vote to the leader, or stores it where it leads. -/
theorem sendDoViewChange_meets (sound : r.Sound setup terms) (view : Nat) :
    (conduct setup terms).Meets (sendDoViewChange setup view) r.standing r
      fun _ => Settled setup terms := by
  have wellFormed := doViewChange_wellFormed sound.log windowStart_le
  have asked := asked_of_mem_dump sound.log r.windowStart
  let voted : Replica Hash := { r with sentDoViewChange := view }
  have same : r.SameLog voted := ⟨⟨rfl, rfl, rfl, rfl, rfl, rfl, rfl, rfl⟩, rfl, rfl, rfl⟩
  unfold sendDoViewChange sendToReplica
  refine .bind (.change trivial fun _ => .bind (.get trivial fun _ => ?_))
  refine .bind (.require trivial fun _ _ => .branch (fun _ => ?_) fun _ => ?_)
  · have stored : ({ voted with
        doViewChangeQuorum := voted.doViewChangeQuorum.add view setup.replicaIdx
          (voted.doViewChange setup voted.windowStart) } : Replica Hash).Sound setup terms :=
      { sound with
        log := { sound.log with }
        quorate := { sound.quorate with }
        votes := sound.votes.add ⟨wellFormed, asked, fun _ other => absurd rfl other⟩ }
    exact .change trivial ⟨rfl, stored⟩
  · exact .emit trivial ⟨wellFormed, asked⟩ ⟨rfl, sound.of_sameLog same⟩

/-- `HandleStartViewChange` keeps the invariant. -/
theorem handleStartViewChange_meets (sound : r.Sound setup terms) (msg : StartViewChangeMessage) :
    (conduct setup terms).Meets (handleStartViewChange setup msg) r.standing r
      fun _ => Settled setup terms := by
  unfold handleStartViewChange
  refine .bind (.get trivial fun _ => ?_)
  refine .branch (fun _ => .pure trivial ⟨rfl, sound⟩) fun current => ?_
  refine .branch (fun _ => .pure trivial ⟨rfl, sound⟩) fun open_ => ?_
  refine .bind ((joinViewChange_meets sound current open_).imp ?_)
  rintro - _ joined - ⟨⟨rfl, soundJoined⟩, -⟩ -
  unfold collectStartViewChange
  refine .bind (.get trivial fun _ => .bind (.require trivial fun _ _ => ?_))
  refine .bind (.change trivial fun _ => ?_)
  let added : Replica Hash :=
    { joined with
      startViewChangeQuorum :=
        (joined.startViewChangeQuorum.addAndCheckForQuorum msg.view msg.replicaidx msg).1 }
  have same : joined.SameLog added := ⟨⟨rfl, rfl, rfl, rfl, rfl, rfl, rfl, rfl⟩, rfl, rfl, rfl⟩
  have soundAdded := soundJoined.of_sameLog same
  split
  · exact .pure trivial ⟨rfl, soundAdded⟩
  · refine .branch (fun _ => .pure trivial ⟨rfl, soundAdded⟩) fun _ => ?_
    refine .branch (fun _ => .pure trivial ⟨rfl, soundAdded⟩) fun _ => ?_
    exact sendDoViewChange_meets soundAdded msg.view

/-! ## Merging -/

/-- A vote of which no field is set is well formed. -/
theorem unset_wellFormed (hashing : Hashing Hash) :
    (DoViewChangeMessage.unset : DoViewChangeMessage Hash).WellFormed hashing where
  chain := .nil
  positive := by simp [DoViewChangeMessage.unset]
  states := by simp [DoViewChangeMessage.unset]
  last := rfl
  lastView := rfl
  lastCommitted := Nat.le_refl _

/-- The votes in a quorum are those that are stored. -/
theorem exists_of_mem_messages {dvcs : TreeMap Nat (DoViewChangeMessage Hash)}
    {msg : DoViewChangeMessage Hash} (member : msg ∈ messages dvcs) :
    ∃ idx : Nat, dvcs[idx]? = some msg := by
  obtain ⟨⟨idx, stored⟩, inList, rfl⟩ := List.mem_map.mp member
  exact ⟨idx, TreeMap.mem_toList_iff_getElem?_eq_some.mp inList⟩

/-- Asking for longer logs keeps the leader's own vote only. -/
theorem needFillDVCGap_meets (sound : r.Sound setup terms) (view : Nat) :
    (conduct setup terms).Meets (needFillDVCGap setup view) r.standing r
      fun _ => Settled setup terms := by
  let own := (r.doViewChangeQuorum.getMessages view)[setup.replicaIdx]?.getD .unset
  have mine : own.WellFormed setup.hashing ∧ ∀ entry ∈ own.entries, terms.asked entry.request := by
    simp only [own, QuorumSet.getMessages]
    cases found : (r.doViewChangeQuorum.messages view)[setup.replicaIdx]? with
    | none => exact ⟨unset_wellFormed _, fun entry member => nomatch member⟩
    | some vote =>
        obtain ⟨wellFormed, asked, -⟩ := sound.votes view setup.replicaIdx vote found
        exact ⟨wellFormed, asked⟩
  unfold needFillDVCGap
  refine .bind (.get trivial fun _ => .bind (.require trivial fun _ _ => ?_))
  refine .bind ((Meets.forEach (fun w' r' => w' = r.standing ∧ r = r') ?_ trivial
    ⟨rfl, rfl⟩).imp ?_)
  · rintro idx - _ _ - ⟨rfl, rfl⟩
    unfold sendFillDVCGapMessage sendToReplica
    refine .bind (.require trivial fun _ _ => .bind (.get trivial fun _ => ?_))
    exact .emit trivial trivial ⟨rfl, rfl⟩
  · rintro - _ _ - ⟨rfl, rfl⟩ -
    have filling : ({ r with
        doViewChangeQuorum := r.doViewChangeQuorum.clear.add view setup.replicaIdx
          ((r.doViewChangeQuorum.getMessages view)[setup.replicaIdx]?.getD .unset)
        needFillDVC := view } : Replica Hash).Sound setup terms :=
      { sound with
        log := { sound.log with }
        quorate := { sound.quorate with }
        votes := QuorumSet.all_clear.add ⟨mine.1, mine.2, fun _ other => absurd rfl other⟩ }
    exact .change trivial ⟨rfl, filling⟩

/-- Every vote that is not empty has begun where the latest of them begins. -/
theorem firstOpnumOf_le_maxStartOf {dvcs : List (DoViewChangeMessage Hash)}
    {msg : DoViewChangeMessage Hash} (member : msg ∈ dvcs) (nonempty : msg.entries ≠ []) :
    firstOpnumOf msg.entries ≤ maxStartOf dvcs := by
  have grows : ∀ (list : List (DoViewChangeMessage Hash)) (start : Nat),
      start ≤ list.foldl (fun maxStart msg => max maxStart (firstOpnumOf msg.entries)) start ∧
        ∀ msg ∈ list, firstOpnumOf msg.entries ≤
          list.foldl (fun maxStart msg => max maxStart (firstOpnumOf msg.entries)) start := by
    intro list
    induction list with
    | nil => exact fun start => ⟨Nat.le_refl _, fun msg inList => nomatch inList⟩
    | cons head rest inductionHypothesis =>
        intro start
        obtain ⟨low, all⟩ := inductionHypothesis (max start (firstOpnumOf head.entries))
        rw [List.foldl_cons]
        refine ⟨by omega, fun msg inList => ?_⟩
        rcases List.mem_cons.mp inList with rfl | inRest
        · omega
        · exact all msg inRest
  unfold maxStartOf
  refine (grows _ 0).2 msg (List.mem_filter.mpr ⟨member, ?_⟩)
  simpa using nonempty

/-- The comparison of the votes reads them where they have begun. -/
theorem compareStarts_meets [DecidableEq Hash] {maxStart : Nat} {myEntry : LogEntry Hash}
    {dvcs : List (DoViewChangeMessage Hash)} (positive : 0 < maxStart)
    (wellFormed : ∀ msg ∈ dvcs, msg.WellFormed setup.hashing)
    (begun : ∀ msg ∈ dvcs, msg.entries ≠ [] → firstOpnumOf msg.entries ≤ maxStart)
    (reads : ∀ (msg : DoViewChangeMessage Hash) (opnum : Nat) (entry : LogEntry Hash),
      msg.entryAt opnum = some entry → terms.reads msg opnum) :
    (conduct setup terms).Meets (compareStarts maxStart myEntry dvcs) w r fun _ w' r' =>
      w = w' ∧ r = r' := by
  induction dvcs with
  | nil => exact .pure trivial ⟨rfl, rfl⟩
  | cons msg rest inductionHypothesis =>
      have later := inductionHypothesis
        (fun other inRest => wellFormed other (List.mem_cons_of_mem _ inRest))
        (fun other inRest => begun other (List.mem_cons_of_mem _ inRest))
      unfold compareStarts
      refine .branch (fun _ => later) fun _ => .branch (fun _ => .pure trivial ⟨rfl, rfl⟩)
        fun reaches => ?_
      obtain ⟨entry, found⟩ := exists_entryAt_of_firstOpnumOf_le
        (wellFormed msg List.mem_cons_self) positive (Nat.not_lt.mp reaches)
        (begun msg List.mem_cons_self)
      refine .bind (.require trivial fun _ _ => .bind (.emit trivial (reads msg _ entry found) ?_))
      intro _
      refine .bind (.demand trivial fun _ _ _ => .branch (fun _ => ?_) fun _ => later)
      exact .pure trivial ⟨rfl, rfl⟩

section Merge

variable [LinearOrder Hash]

omit [LinearOrder Hash] in
/-- The leader starts the view with the log that it has merged. -/
theorem startView_meets {view : Nat} (log : r.LogSound setup terms) (quorate : r.Quorate setup)
    (pending : ∀ pair ∈ r.pendingRequests, terms.asked pair.2.req)
    (changing : w.status = .viewChange) (there : w.view = view)
    (committed : w.lastCommitted ≤ r.lastCommitted) :
    (conduct setup terms).Meets (startView setup app view) w r fun _ => Settled setup terms := by
  unfold startView sendToAll
  refine .bind (.get trivial fun _ => .bind ((enterView_meets log quorate pending ?_).imp ?_))
  · refine ⟨Nat.le_of_eq there, committed, fun _ normal => ?_⟩
    rw [changing] at normal
    nomatch normal
  · rintro - _ after - ⟨rfl, sound, normal, rfl, -, grows⟩ -
    refine .bind (.get trivial fun _ => .bind (.require trivial fun leads _ => ?_))
    refine .emit trivial ⟨leads, after.log.requests, ⟨⟨_, sound.log.hashed.dump _⟩,
      sound.log.lastSpeculative⟩, sound.log.asked, fun empty => .inl ?_, .inr ⟨rfl, normal, List.prefix_refl _⟩⟩
      ⟨rfl, sound⟩
    -- The window that was computed before the view is entered still reaches the log.
    have length := (sound.log.hashed.dump r.windowStart).length
    simp only at empty
    rw [empty, List.length_nil] at length
    have start : r.windowStart ≤ max 1 r.lastSpeculative := windowStart_le
    have longer := grows.length_le
    rw [← log.lastSpeculative] at longer
    exact List.length_eq_zero_iff.mp (by omega)

/-- The merge of a quorum of votes keeps the invariant. -/
theorem mergeQuorum_meets {view maxStart : Nat} (sound : r.Sound setup terms)
    (changing : r.status = .viewChange) (there : r.view = view)
    (readable : ∀ msgs, r.doViewChangeQuorum.checkForQuorum view = some msgs →
      ∀ pair ∈ mergeReads setup.configuration r.lastSpeculative maxStart msgs,
        terms.reads pair.1 pair.2) :
    (conduct setup terms).Meets (mergeQuorum setup app view maxStart) r.standing r
      fun _ => Settled setup terms := by
  unfold mergeQuorum
  refine .bind (.get trivial fun _ => ?_)
  split
  · exact .pure trivial ⟨rfl, sound⟩
  next msgs enough =>
      refine .bind ((Meets.forEach (fun w' r' => r.standing = w' ∧ r = r') ?_ trivial
        ⟨rfl, rfl⟩).imp ?_)
      · rintro pair inReads _ _ - ⟨rfl, rfl⟩
        exact .emit trivial (readable msgs enough pair inReads) ⟨rfl, rfl⟩
      · rintro - _ _ - ⟨rfl, rfl⟩ -
        have asked : ∀ vote ∈ messages msgs, ∀ entry ∈ vote.entries, terms.asked entry.request := by
          intro vote member
          obtain ⟨idx, stored⟩ := exists_of_mem_messages member
          obtain ⟨-, made, -⟩ := sound.votes view idx vote ((QuorumSet.of_checkForQuorum enough).1 ▸ stored)
          exact made
        refine .bind (.demand trivial fun newLog merged _ => ?_)
        refine .bind ((installLog_meets sound.log (asked_of_mergeLogs asked merged)).imp ?_)
        rintro - _ installed - ⟨rfl, installs⟩ -
        have undisturbed := installs.undisturbed
        have steady := sound.toSteady.of_undisturbed undisturbed installs.sound
        exact startView_meets installs.sound steady.quorate steady.pending changing there
          installs.lastCommitted

/-- What the merge needs to know of a vote: where whole logs are merged, the leader's own vote must
fit, or the accesses are not looked at. -/
def MergesWhole (setup : Setup Hash) (terms : Terms Hash) (r : Replica Hash)
    (msg : DoViewChangeMessage Hash) : Prop :=
  r.needFillDVC = msg.view → ∀ msgs own,
    (r.doViewChangeQuorum.add msg.view msg.replicaidx msg).checkForQuorum msg.view = some msgs →
      msgs[setup.replicaIdx]? = some own → own ∈ latestViewMessages (messages msgs) →
        own.Fits (latestViewMessages (messages msgs)) ∨ ∀ msg opnum, terms.reads msg opnum

/-- An access to an entry that is there is admitted. -/
def Terms.Readable (terms : Terms Hash) : Prop :=
  ∀ (msg : DoViewChangeMessage Hash) (opnum : Nat) (entry : LogEntry Hash),
    msg.entryAt opnum = some entry → terms.reads msg opnum

/-- What a vote has to be to be handled: well formed, and of requests that have been made. -/
structure DoViewChangeMessage.Cast (setup : Setup Hash) (terms : Terms Hash)
    (msg : DoViewChangeMessage Hash) : Prop where
  wellFormed : msg.WellFormed setup.hashing
  asked : ∀ entry ∈ msg.entries, terms.asked entry.request

omit [LinearOrder Hash] in
/-- A vote that is stored keeps the invariant. -/
theorem addDoViewChange_sound (sound : r.Sound setup terms) {msg : DoViewChangeMessage Hash}
    (cast_ : msg.Cast setup terms) (early : msg.view = r.needFillDVC → msg.Early) :
    (r.addDoViewChange msg).Sound setup terms :=
  { sound with
    log := { sound.log with }
    quorate := { sound.quorate with }
    votes := sound.votes.add ⟨cast_.wellFormed, cast_.asked, fun filling _ => early filling⟩ }

/-- The merge of logs from where the latest of them begins keeps the invariant. -/
theorem mergeTruncated_meets (sound : r.Sound setup terms) (readable : terms.Readable)
    {msg : DoViewChangeMessage Hash} (cast_ : msg.Cast setup terms)
    (unasked : r.needFillDVC ≠ msg.view) (changing : r.status = .viewChange)
    (there : r.view = msg.view) :
    (conduct setup terms).Meets (mergeTruncated setup app msg) r.standing r
      fun _ => Settled setup terms := by
  have added := addDoViewChange_sound sound cast_ fun filling => absurd filling.symm unasked
  have wellFormed : ∀ vote ∈ messages ((r.addDoViewChange msg).doViewChangeQuorum.messages msg.view),
      vote.WellFormed setup.hashing := by
    intro vote member
    obtain ⟨idx, stored⟩ := exists_of_mem_messages member
    exact (added.votes msg.view idx vote stored).1
  have merges : (conduct setup terms).Meets (mergeQuorum setup app msg.view (maxStartOf (messages
      ((r.addDoViewChange msg).doViewChangeQuorum.messages msg.view))))
      (r.addDoViewChange msg).standing (r.addDoViewChange msg) fun _ => Settled setup terms := by
    apply mergeQuorum_meets added changing there
    rintro msgs enough ⟨vote, opnum⟩ inReads
    rw [(QuorumSet.of_checkForQuorum enough).1] at inReads
    obtain ⟨entry, found⟩ := exists_entryAt_of_truncated wellFormed
      (fun _ member nonempty => firstOpnumOf_le_maxStartOf member nonempty) inReads
    exact readable vote opnum entry found
  unfold mergeTruncated
  apply Meets.bind
  apply Meets.change trivial
  intro _
  apply Meets.bind
  apply Meets.get trivial
  intro _
  apply Meets.branch
  · exact fun _ => needFillDVCGap_meets added msg.view
  · intro _
    refine .branch (fun positive => ?_) fun _ => merges
    refine .bind (.demand trivial fun myEntry _ _ => ?_)
    refine .bind ((compareStarts_meets positive wellFormed
      (fun _ member nonempty => firstOpnumOf_le_maxStartOf member nonempty) readable).imp ?_)
    rintro same _ _ - ⟨rfl, rfl⟩ -
    exact .branch (fun _ => merges) fun _ => needFillDVCGap_meets added msg.view

omit [LinearOrder Hash] in
/-- A vote that does not start late starts early enough. -/
theorem early_of_not_startsLate {msg : DoViewChangeMessage Hash} (inTime : ¬ r.StartsLate msg) :
    msg.Early := by
  unfold Replica.StartsLate at inTime
  unfold DoViewChangeMessage.Early
  by_cases empty : msg.entries = []
  · exact .inl empty
  · by_cases one : firstOpnumOf msg.entries = 1
    · exact .inr (.inl one)
    · by_contra late
      exact inTime ⟨empty, fun both => one both.2, .inr (by omega)⟩

/-- The merge of logs that have been asked for again keeps the invariant. -/
theorem mergeFilled_meets (sound : r.Sound setup terms) (readable : terms.Readable)
    {msg : DoViewChangeMessage Hash} (cast_ : msg.Cast setup terms)
    (filling : r.needFillDVC = msg.view) (whole : MergesWhole setup terms r msg)
    (changing : r.status = .viewChange) (there : r.view = msg.view) :
    (conduct setup terms).Meets (mergeFilled setup app msg) r.standing r
      fun _ => Settled setup terms := by
  unfold mergeFilled
  refine .bind (.get trivial fun _ => .branch (fun _ => ?_) fun inTime => ?_)
  · unfold sendFillDVCGapMessage sendToReplica
    refine .bind (.require trivial fun _ _ => .bind (.get trivial fun _ => ?_))
    exact .emit trivial trivial ⟨rfl, sound⟩
  have added := addDoViewChange_sound sound cast_ fun _ => early_of_not_startsLate inTime
  apply Meets.bind
  apply Meets.change trivial
  intro _
  apply mergeQuorum_meets added changing there
  rintro msgs enough ⟨vote, opnum⟩ inReads
  have stored := (QuorumSet.of_checkForQuorum enough).1
  -- Only the leader's own vote may start too late for whole logs.
  by_cases own : ∃ mine, msgs[setup.replicaIdx]? = some mine ∧
      mine ∈ latestViewMessages (messages msgs) ∧ ¬ mine.Fits (latestViewMessages (messages msgs))
  · obtain ⟨mine, present, inLatest, late⟩ := own
    rcases whole filling msgs mine enough present inLatest with fits | all
    · exact absurd fits late
    · exact all vote opnum
  · have fits : ∀ other ∈ latestViewMessages (messages msgs),
        other.Fits (latestViewMessages (messages msgs)) := by
      intro other inLatest
      obtain ⟨idx, present⟩ := exists_of_mem_messages (mem_messages_of_latest inLatest)
      by_cases mine : idx = setup.replicaIdx
      · by_contra late
        exact own ⟨other, mine ▸ present, inLatest, late⟩
      · exact .inl ((added.votes msg.view idx other (stored ▸ present)).2.2 filling.symm mine)
    have wellFormed : ∀ other ∈ messages msgs, other.WellFormed setup.hashing := by
      intro other member
      obtain ⟨idx, present⟩ := exists_of_mem_messages member
      exact (added.votes msg.view idx other (stored ▸ present)).1
    obtain ⟨entry, found⟩ := exists_entryAt_of_filled wellFormed fits inReads
    exact readable vote opnum entry found

/-- `HandleDoViewChange` keeps the invariant. -/
theorem handleDoViewChange_meets (sound : r.Sound setup terms) (readable : terms.Readable)
    {msg : DoViewChangeMessage Hash} (cast_ : msg.Cast setup terms)
    (whole : MergesWhole setup terms r msg) :
    (conduct setup terms).Meets (handleDoViewChange setup app msg) r.standing r
      fun _ => Settled setup terms := by
  unfold handleDoViewChange
  refine .bind (.get trivial fun _ => ?_)
  refine .branch (fun _ => .pure trivial ⟨rfl, sound⟩) fun current => ?_
  refine .branch (fun _ => .pure trivial ⟨rfl, sound⟩) fun open_ => ?_
  refine .bind ((joinViewChange_meets sound current open_).imp ?_)
  rintro - _ joined - ⟨⟨rfl, soundJoined⟩, joins⟩ -
  refine .bind (.require trivial fun _ _ => ?_)
  unfold collectDoViewChange
  refine .bind (.get trivial fun _ => .branch (fun filling => ?_) fun unasked => ?_)
  · have wholeJoined : MergesWhole setup terms joined msg := by
      unfold MergesWhole at whole ⊢
      rw [joins.needFillDVC, joins.doViewChangeQuorum]
      exact whole
    exact mergeFilled_meets soundJoined readable cast_ filling wholeJoined joins.status joins.view
  · exact mergeTruncated_meets soundJoined readable cast_ unasked joins.status joins.view

end Merge

end PaxosBus.Spec

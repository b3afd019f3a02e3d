import PaxosBus.NoPaxos.Adopting

/-!
# The merge of a view change

A leader whose quorum is complete merges its log with those of its contributors.
What it starts the view with is as it should be if it has been normal as late as
all of them, so that its own log is not rewound, if it can take all of their
gaps, and if not all that it lacks are gaps. `ReadyToMerge` says so of the
leader before the merge.
-/

set_option autoImplicit false

namespace PaxosBus.NoPaxos

open PaxosBus.Common PaxosBus.Library
open Handler (Returns)
open Trace (Covers)

variable {setup : Setup} {app : App} {r r' : Replica} {msgs : List ViewChangeMessage}
  {logOf : Nat → Log}

/-- What a leader merges: its own part, and the messages of the quorum. -/
def Replica.votes (setup : Setup) (r : Replica) (msgs : List ViewChangeMessage) :
    List ViewChangeMessage :=
  r.viewChangeMessage setup :: msgs

/-- A vote of a replica that was last normal where the leader takes its log from. -/
def Replica.Counts (r : Replica) (vote : ViewChangeMessage) : Prop :=
  vote.lastnormalsessnum = r.startViewLastNormalSessnum ∧
    vote.lastnormalview = r.startViewLastNormalView

/-- The leader has found out what the votes come to. -/
structure Replica.Combines (r : Replica) (votes : List ViewChangeMessage) : Prop where
  normal : ∃ vote ∈ votes, r.Counts vote
  latest : ∀ vote ∈ votes, vote.lastnormalsessnum ≤ r.startViewLastNormalSessnum ∧
    vote.lastnormalview ≤ r.startViewLastNormalView
  lastOp : ∃ vote ∈ votes, r.Counts vote ∧ vote.lastop = r.startViewLastOp
  longest : ∀ vote ∈ votes, r.Counts vote → vote.lastop ≤ r.startViewLastOp
  gaps : ∀ gap, gap ∈ r.startViewCommittedGaps ↔
    ∃ vote ∈ votes, r.Counts vote ∧ gap ∈ vote.committedgaps
  bounded : ∀ gap ∈ r.startViewCommittedGaps, gap ≤ r.startViewLastOp

/-- The leader has all operations and is in its view. -/
structure Replica.Enters (r : Replica) (pair : Nat × Nat) : Prop where
  lastOp : r.lastOp = r.startViewLastOp
  status : r.status = .normal
  current : (r.sessnum, r.view) = pair

/-- The leader lacks operations, and the one request that it has sent asks a contributor that has
them for exactly these. -/
structure Replica.Requests (r : Replica) (logOf : Nat → Log)
    (requests : List (Destination × StateTransferRequestMessage)) (contributor : ViewChangeMessage) :
    Prop where
  behind : r.lastOp < r.startViewLastOp
  requested : requests =
    [(.one (.replica contributor.replicaIdx), r.restRequest r.startViewLastOp)]
  counts : r.Counts contributor
  holds : ∀ opnum, r.lastOp < opnum → opnum ≤ r.startViewLastOp →
    ∃ entry, (logOf contributor.replicaIdx).find opnum = some entry

/-- The leader that has sent these requests enters its view, or has asked a contributor for what it
lacks. -/
structure Replica.Resumes (r : Replica) (logOf : Nat → Log) (msgs : List ViewChangeMessage)
    (pair : Nat × Nat) (requests : List (Destination × StateTransferRequestMessage)) : Prop where
  has : ∀ opnum, (∃ entry, r.log.find opnum = some entry) ↔ 0 < opnum ∧ opnum ≤ r.lastOp
  outcome : (r.Enters pair ∧ requests = []) ∨
    ∃ contributor ∈ msgs, r.Requests logOf requests contributor

/-- The leader gets through a message that completes its quorum, merges the quorum, and goes on. -/
def Replica.Merges (setup : Setup) (r : Replica) (logOf : Nat → Log) (remote : Address)
    (msg : ViewChangeMessage) (msgs : List ViewChangeMessage) : Prop :=
  ∀ app, let outcome := handleViewChange setup app remote msg r
    outcome.value = some () ∧ outcome.state.Combines ((r.joined msg).votes setup msgs) ∧
      outcome.state.Resumes logOf msgs (msg.sessnum, msg.view)
        (asked (handleViewChange setup app remote msg) r)

/-! ## The loops -/

/-- A vote from the latest session and view. -/
def Latest.Counts (latest : Latest) (vote : ViewChangeMessage) : Prop :=
  vote.lastnormalsessnum = latest.sessnum ∧ vote.lastnormalview = latest.view

instance (latest : Latest) (vote : ViewChangeMessage) : Decidable (latest.Counts vote) :=
  inferInstanceAs (Decidable (_ ∧ _))

/-- The gaps of all votes from the latest session and view. -/
def Latest.gaps (latest : Latest) (msgs : List ViewChangeMessage) : List Nat :=
  (msgs.filter (latest.Counts ·)).flatMap (·.committedgaps)

/-- The last operation of the longest log from the latest session and view, and the first
contributor that has it, if it is longer than one that is there already. -/
def Latest.longest (latest : Latest) (msgs : List ViewChangeMessage) (sofar : Nat × Option Nat) :
    Nat × Option Nat :=
  msgs.foldl (fun sofar vote => if latest.Counts vote ∧ sofar.1 < vote.lastop then
    (vote.lastop, some vote.replicaIdx) else sofar) sofar

/-- What the leader was last normal in, and its last operation. -/
def Replica.own (r : Replica) : Latest where
  sessnum := r.lastNormalSessnum
  view := r.lastNormalView
  op := r.lastOp

/-- The leader can merge the messages: nobody has been normal later, it can take all gaps, none of
them is beyond the longest log, not all that it lacks are gaps, and whom it asks for the rest has
it. -/
structure Replica.ReadyToMerge (r : Replica) (logOf : Nat → Log) (msgs : List ViewChangeMessage) :
    Prop where
  whole : r.lastOp = r.log.lastOpnum
  latest : ∀ vote ∈ msgs, ¬ r.Lags vote.lastnormalsessnum vote.lastnormalview
  takes : ∀ gap ∈ r.own.gaps msgs, r.Takes gap
  bounded : ∀ gap, gap ∈ r.committedGaps ∨ gap ∈ r.own.gaps msgs →
    gap ≤ (r.own.longest msgs (r.lastOp, none)).1
  apart : r.lastOp < (r.own.longest msgs (r.lastOp, none)).1 → ∃ opnum, r.lastOp < opnum ∧
    opnum ≤ (r.own.longest msgs (r.lastOp, none)).1 ∧ opnum ∉ r.committedGaps ∧
      opnum ∉ r.own.gaps msgs
  held : ∀ asked ∈ (r.own.longest msgs (r.lastOp, none)).2,
    (r.own.longest msgs (r.lastOp, none)).1 ≤ (logOf asked).lastOpnum

/-- Which gaps those are. -/
theorem Latest.mem_gaps {latest : Latest} {gap : Nat} :
    gap ∈ latest.gaps msgs ↔ ∃ vote ∈ msgs, latest.Counts vote ∧ gap ∈ vote.committedgaps := by
  simp [gaps, and_assoc]

/-- What the second loop finds is the greatest, and a contributor that has it where there is one. -/
theorem Latest.longest_spec (latest : Latest) (msgs : List ViewChangeMessage)
    (sofar : Nat × Option Nat) :
    (∀ vote ∈ msgs, latest.Counts vote → vote.lastop ≤ (latest.longest msgs sofar).1) ∧
    (latest.longest msgs sofar = sofar ∨ sofar.1 < (latest.longest msgs sofar).1 ∧
      ∃ vote ∈ msgs, latest.Counts vote ∧
        latest.longest msgs sofar = (vote.lastop, some vote.replicaIdx)) := by
  induction msgs generalizing sofar with
  | nil => exact ⟨by simp, .inl rfl⟩
  | cons first rest inductionHypothesis =>
      let next : Nat × Option Nat :=
        if latest.Counts first ∧ sofar.1 < first.lastop then (first.lastop, some first.replicaIdx)
        else sofar
      obtain ⟨greatest, found⟩ := inductionHypothesis next
      have unfolded : latest.longest (first :: rest) sofar = latest.longest rest next := rfl
      rw [unfolded]
      have more : next.1 ≤ (latest.longest rest next).1 := by
        rcases found with same | ⟨less, -⟩
        · rw [same]
        · exact less.le
      by_cases longer : latest.Counts first ∧ sofar.1 < first.lastop
      · have taken : next = (first.lastop, some first.replicaIdx) := if_pos longer
        have above : first.lastop ≤ (latest.longest rest next).1 := by
          rw [taken] at more ⊢
          exact more
        constructor
        · intro vote member counts
          rcases List.mem_cons.mp member with rfl | inRest
          · exact above
          · exact greatest vote inRest counts
        · refine .inr ⟨longer.2.trans_le above, ?_⟩
          rcases found with same | ⟨-, vote, member, counts, result⟩
          · exact ⟨first, List.mem_cons_self, longer.1, same.trans taken⟩
          · exact ⟨vote, List.mem_cons_of_mem _ member, counts, result⟩
      · have kept : next = sofar := if_neg longer
        rw [kept] at more greatest found ⊢
        constructor
        · intro vote member counts
          rcases List.mem_cons.mp member with rfl | inRest
          · exact (Nat.not_lt.mp fun less => longer ⟨counts, less⟩).trans more
          · exact greatest vote inRest counts
        · refine found.imp_right fun ⟨less, vote, member, rest⟩ => ?_
          exact ⟨less, vote, List.mem_cons_of_mem _ member, rest⟩

/-- The first loop goes up, beyond all messages. -/
theorem Latest.le_consider (msgs : List ViewChangeMessage) (start : Latest) :
    let latest := msgs.foldl Latest.consider start
    (start.sessnum ≤ latest.sessnum ∧ start.view ≤ latest.view) ∧
      ∀ vote ∈ msgs, vote.lastnormalsessnum ≤ latest.sessnum ∧
        vote.lastnormalview ≤ latest.view := by
  induction msgs generalizing start with
  | nil => exact ⟨⟨le_rfl, le_rfl⟩, by simp⟩
  | cons first rest inductionHypothesis =>
      obtain ⟨up, all⟩ := inductionHypothesis (start.consider first)
      refine ⟨⟨?_, ?_⟩, ?_⟩
      · exact (Nat.le_max_left _ _).trans up.1
      · exact (Nat.le_max_left _ _).trans up.2
      · intro vote member
        rcases List.mem_cons.mp member with rfl | inRest
        · exact ⟨(Nat.le_max_right _ _).trans up.1, (Nat.le_max_right _ _).trans up.2⟩
        · exact all vote inRest

/-- It stays where nobody has been normal later. -/
theorem Latest.consider_eq {start : Latest} (early : ∀ vote ∈ msgs,
    vote.lastnormalsessnum ≤ start.sessnum ∧ vote.lastnormalview ≤ start.view) :
    msgs.foldl Latest.consider start = start := by
  induction msgs with
  | nil => rfl
  | cons first rest inductionHypothesis =>
      obtain ⟨sessnum, view⟩ := early first List.mem_cons_self
      have same : start.consider first = start := by
        unfold Latest.consider
        rw [Nat.max_eq_left sessnum, Nat.max_eq_left view, if_neg (by omega)]
      rw [List.foldl_cons, same]
      exact inductionHypothesis fun vote member => early vote (List.mem_cons_of_mem _ member)

/-- Either nobody has been normal later than the leader, or the leader lags behind the latest. -/
theorem Replica.latest_cases (r : Replica) (msgs : List ViewChangeMessage) :
    (r.latest msgs = r.own ∧ ∀ vote ∈ msgs, ¬ r.Lags vote.lastnormalsessnum vote.lastnormalview) ∨
      (r.Lags (r.latest msgs).sessnum (r.latest msgs).view ∧
        ∃ vote ∈ msgs, r.Lags vote.lastnormalsessnum vote.lastnormalview) := by
  by_cases late : ∃ vote ∈ msgs, r.Lags vote.lastnormalsessnum vote.lastnormalview
  · obtain ⟨vote, member, lags⟩ := late
    obtain ⟨-, all⟩ := Latest.le_consider msgs r.own
    obtain ⟨sessnum, view⟩ := all vote member
    exact .inr ⟨lags.imp sessnum.trans_lt' view.trans_lt', vote, member, lags⟩
  · push Not at late
    refine .inl ⟨Latest.consider_eq fun vote member => ?_, late⟩
    have := late vote member
    unfold Replica.Lags at this
    change vote.lastnormalsessnum ≤ r.lastNormalSessnum ∧ vote.lastnormalview ≤ r.lastNormalView
    omega

section Loops

variable {latest : Latest}

/-- One round of the second loop goes on with what it has found. -/
theorem Latest.longest_cons (latest : Latest) (first : ViewChangeMessage)
    (rest : List ViewChangeMessage) (op : Nat) (replicaIdx : Option Nat) :
    latest.longest (first :: rest) (op, replicaIdx) = latest.longest rest
      (if latest.Counts first ∧ op < first.lastop then (first.lastop, some first.replicaIdx)
        else (op, replicaIdx)) := rfl

/-- The gaps of the first vote count if the vote does. -/
theorem Latest.gaps_cons (latest : Latest) (first : ViewChangeMessage)
    (rest : List ViewChangeMessage) : latest.gaps (first :: rest) =
      (if latest.Counts first then first.committedgaps else []) ++ latest.gaps rest := by
  by_cases counts : latest.Counts first <;> simp [gaps, counts]

/-- The second loop gets no further than the installation of all gaps. -/
theorem mergeLogs_installs {Post : Nat × Option Nat → Replica → Prop} {op : Nat}
    {replicaIdx : Option Nat}
    (returns : (mergeLogs setup app latest op replicaIdx msgs).Returns r Post) :
    (installCommittedGaps setup app (latest.gaps msgs)).Returns r fun _ r' =>
      Post (latest.longest msgs (op, replicaIdx)) r' := by
  induction msgs generalizing r op replicaIdx with
  | nil => exact Returns.pure (Handler.returns_pure.mp returns)
  | cons first rest inductionHypothesis =>
      rw [Latest.gaps_cons, Latest.longest_cons, installCommittedGaps_append]
      simp only [mergeLogs, Handler.returns_bind, Handler.returns_require] at returns
      obtain ⟨-, -, onward⟩ := returns
      by_cases counts : latest.Counts first
      · have same : first.lastnormalsessnum = latest.sessnum ∧
            first.lastnormalview = latest.view := counts
        rw [if_pos same, Handler.returns_bind] at onward
        rw [if_pos counts]
        apply onward.imp
        intro _ r1 continued
        simp only [Handler.returns_bind, Handler.returns_get, Handler.returns_require] at continued
        by_cases longer : op < first.lastop
        · rw [if_pos ⟨counts, longer⟩]
          rw [if_pos longer] at continued
          exact inductionHypothesis continued.2
        · rw [if_neg fun both => longer both.2]
          rw [if_neg longer] at continued
          exact inductionHypothesis continued.2
      · have differs : ¬ (first.lastnormalsessnum = latest.sessnum ∧
            first.lastnormalview = latest.view) := counts
        rw [if_neg differs] at onward
        rw [if_neg counts, if_neg fun both => counts both.1]
        exact Returns.pure (inductionHypothesis onward)

/-- The second loop installs all gaps where nothing else comes between them, and finds the longest
log. -/
theorem mergeLogs_returns {op : Nat} {replicaIdx : Option Nat} (early : ∀ vote ∈ msgs,
      vote.lastnormalsessnum ≤ latest.sessnum ∧ vote.lastnormalview ≤ latest.view)
    (sturdy : r.core.Sturdy setup) (drained : r.lastOp + 1 ∉ r.committedGaps)
    (idle : r.stateTransferOpEnd = 0) (status : r.status = .viewChange)
    (takes : ∀ gap ∈ latest.gaps msgs, r.Takes gap) :
    (mergeLogs setup app latest op replicaIdx msgs).Returns r fun found r' =>
      found = latest.longest msgs (op, replicaIdx) ∧ r.Patched setup (latest.gaps msgs) r' := by
  induction msgs generalizing r op replicaIdx with
  | nil => exact Returns.pure ⟨rfl, .refl sturdy drained⟩
  | cons first rest inductionHypothesis =>
      obtain ⟨sessnum, view⟩ := early first List.mem_cons_self
      have earlyRest := fun vote member => early vote (List.mem_cons_of_mem first member)
      rw [Latest.gaps_cons] at takes ⊢
      rw [Latest.longest_cons]
      apply Returns.require_bind sessnum
      apply Returns.require_bind view
      by_cases counts : latest.Counts first
      · have same : first.lastnormalsessnum = latest.sessnum ∧
            first.lastnormalview = latest.view := counts
        rw [if_pos counts] at takes ⊢
        rw [if_pos same]
        have takesFirst : ∀ gap ∈ first.committedgaps, r.Takes gap :=
          fun gap member => takes gap (List.mem_append_left _ member)
        apply (installCommittedGaps_returns sturdy drained takesFirst (.inl idle)).bind
        intro _ r1 patched
        have calm := patched.calm idle
        have takesRest : ∀ gap ∈ latest.gaps rest, r1.Takes gap := by
          intro gap member
          exact patched.takes_of_idle idle (takes gap (List.mem_append_right _ member))
        have status1 : r1.status = .viewChange := calm.status.trans status
        apply Returns.get_bind
        apply Returns.require_bind status1
        have continues := fun (op : Nat) (replicaIdx : Option Nat) =>
          (@inductionHypothesis r1 op replicaIdx earlyRest patched.sturdy patched.drained calm.ended
            status1 takesRest).imp fun _ _ ⟨found, patchedRest⟩ =>
              And.intro found (patched.trans patchedRest)
        apply Returns.branch
        · intro longer
          rw [if_pos ⟨counts, longer⟩]
          exact continues _ _
        · intro notLonger
          rw [if_neg fun both => notLonger both.2]
          exact continues _ _
      · have differs : ¬ (first.lastnormalsessnum = latest.sessnum ∧
            first.lastnormalview = latest.view) := counts
        rw [if_neg counts] at takes ⊢
        rw [if_neg differs, if_neg fun both => counts both.1]
        exact inductionHypothesis earlyRest sturdy drained idle status takes

end Loops

/-! ## The end of the merge -/

section Completion

variable {latest : Latest} {top : Nat} {replicaIdx : Option Nat}

/-- What the leader is after the merge: it waits, or it leads the view. -/
def Core.merged (c : Core) (latest : Latest) (top : Nat) : Option Nat → Core
  | some replicaIdx =>
    (c.starting (latest.sessnum, latest.view) top).transferring top replicaIdx .enterView true
  | none => ((c.starting (latest.sessnum, latest.view) top).entering c.sessnum c.view).leading

/-- What the assertions at the end of the merge ask for. -/
structure Core.Concludes (c : Core) (top : Nat) (replicaIdx : Option Nat) : Prop where
  bounded : ∀ gap ∈ c.committedGaps, gap ≤ top
  behind : ∀ idx ∈ replicaIdx, c.lastOp < top
  level : replicaIdx = none → top = c.lastOp

theorem completeMerge_concludes {Post : Unit → Replica → Prop}
    (returns : (completeMerge setup app latest top replicaIdx).Returns r Post) :
    r.core.Concludes top replicaIdx := by
  have started := Handler.returns_get.mp (Handler.returns_bind.mp returns)
  obtain ⟨inside, rest⟩ := Handler.returns_require.mp (Handler.returns_bind.mp started)
  have bounded : ∀ gap ∈ r.committedGaps, gap ≤ top := by
    intro gap member
    obtain ⟨lastGap, last⟩ := OpnumSet.exists_last member
    exact (OpnumSet.le_last member last).trans (inside lastGap last)
  cases replicaIdx with
  | none =>
      simp only [Handler.returns_bind, Handler.returns_modify, Handler.returns_require] at rest
      exact ⟨bounded, fun idx none_ => (by cases none_), fun _ => rest.1⟩
  | some idx =>
      simp only [Handler.returns_bind, Handler.returns_modify, Handler.returns_require] at rest
      exact ⟨bounded, fun _ _ => rest.1, fun none_ => (by cases none_)⟩

theorem completeMerge_returns (sturdy : r.core.Sturdy setup) (leader : setup.AmLeader r.view)
    (concludes : r.core.Concludes top replicaIdx) :
    (completeMerge setup app latest top replicaIdx).Returns r fun _ r' =>
      r'.core = r.core.merged latest top replicaIdx := by
  apply Returns.get_bind
  apply Returns.require_bind fun lastGap last => concludes.bounded _ (OpnumSet.last_mem last)
  apply Returns.modify_bind
  cases replicaIdx with
  | none =>
      apply Returns.require_bind (concludes.level rfl)
      let concluded : Replica :=
        { r with
          startViewLastNormalSessnum := latest.sessnum
          startViewLastNormalView := latest.view
          startViewLastOp := top
          startViewCommittedGaps := r.committedGaps }
      have enters := @enterView_returns setup app concluded r.sessnum r.view sturdy.whole
        sturdy.point le_rfl le_rfl
      rw [if_pos leader] at enters
      exact enters.imp fun _ r' ⟨core, _⟩ => core
  | some idx =>
      apply Returns.require_bind (concludes.behind idx rfl)
      apply Returns.modify_bind
      apply Returns.emit_bind
      apply Returns.get_bind
      apply Returns.emit_bind
      exact Handler.returns_modify.mpr rfl

/-- The leader asks the contributor with the longest log for what it lacks, if there is one. -/
theorem completeMerge_asks (concludes : r.core.Concludes top replicaIdx) :
    asked (completeMerge setup app latest top replicaIdx) r =
      (replicaIdx.map fun idx => (Destination.one (.replica idx), r.restRequest top)).toList := by
  have inside : ∀ lastGap ∈ r.committedGaps.last?, lastGap ≤ top :=
    fun lastGap last => concludes.bounded _ (OpnumSet.last_mem last)
  unfold completeMerge
  rw [asked_get_bind, asked_require_bind, if_pos inside, asked_modify_bind]
  cases replicaIdx with
  | none =>
      refine asked_eq_nil ?_
      exact (Covers.require _).bind fun _ => framed_unasking.enterView _ _
  | some idx =>
      have behind : r.lastOp < top := concludes.behind idx rfl
      dsimp only
      rw [asked_require_bind, if_pos behind, asked_modify_bind, asked_emit_bind]
      · rfl
      · trivial

/-- A log that is left alone stays torn. -/
theorem Replica.SameLog.torn (same : r.SameLog r') (torn : r.core.Torn) : r'.core.Torn := by
  change r'.log.entries.length < r'.lastOp
  rw [same.log, same.lastOp]
  exact torn

/-- A torn log stays torn at the end of a merge. -/
theorem completeMerge_tears {Post : Unit → Replica → Prop} (torn : r.core.Torn)
    (returns : (completeMerge setup app latest top replicaIdx).Returns r Post) :
    ∃ r', r'.core.Torn ∧ Post () r' := by
  obtain ⟨⟨⟩, -, post, -, same⟩ := returns.and_meets completeMerge_leaves
  exact ⟨_, same.torn torn, post⟩

end Completion

/-! ## The merge -/

section Merge

/-- A leader that has all that it counts has no torn log. -/
theorem Replica.Resumes.not_torn {pair : Nat × Nat}
    {requests : List (Destination × StateTransferRequestMessage)}
    (resumes : r.Resumes logOf msgs pair requests) : ¬ r.core.Torn := by
  intro torn
  change r.log.entries.length < r.lastOp at torn
  have inside := Log.exists_find_iff.mp ((resumes.has r.lastOp).mpr ⟨by omega, le_rfl⟩)
  omega

/-- What the merge comes to where nothing is rewound. -/
theorem mergeQuorum_eq (latest : r.latest msgs = r.own) : mergeQuorum setup app msgs r =
    (Handler.emit (.merged (r.lastNormalSessnum, r.lastNormalView)
      (msgs.map fun x => (x.lastnormalsessnum, x.lastnormalview)) (r.own.sessnum, r.own.view)) >>=
        fun _ => mergeLogs setup app r.own r.lastOp none msgs >>= fun found =>
          completeMerge setup app r.own found.1 found.2) r := by
  have stays : ¬ (r.lastNormalSessnum < r.own.sessnum ∨ r.lastNormalView < r.own.view) := by
    change ¬ (r.lastNormalSessnum < r.lastNormalSessnum ∨ r.lastNormalView < r.lastNormalView)
    omega
  unfold mergeQuorum
  rw [Handler.get_bind, latest, if_neg stays]
  rfl

theorem mergeQuorum_returns {Post : Unit → Replica → Prop} (latest : r.latest msgs = r.own) :
    (mergeQuorum setup app msgs).Returns r Post ↔
      (mergeLogs setup app r.own r.lastOp none msgs).Returns r fun found r' =>
        (completeMerge setup app r.own found.1 found.2).Returns r' Post := by
  have same := @mergeQuorum_eq setup app r msgs latest
  unfold Returns at *
  rw [same]
  change Returns _ _ _ ↔ _
  rw [Handler.returns_bind, Handler.returns_emit, Handler.returns_bind]
  rfl

/-- What is asked for then is what is asked for at the end of the merge. -/
theorem mergeQuorum_asks (latest : r.latest msgs = r.own) {found : Nat × Option Nat} {r1 : Replica}
    (merges : (mergeLogs setup app r.own r.lastOp none msgs).Returns r fun found' r' =>
      found' = found ∧ r' = r1) : asked (mergeQuorum setup app msgs) r =
        asked (completeMerge setup app r.own found.1 found.2) r1 := by
  obtain ⟨_, ended, rfl, rfl⟩ := merges
  unfold asked
  rw [mergeQuorum_eq latest]
  refine (asked_emit_bind ?_).trans (asked_bind (framed_unasking.mergeLogs _ _ _ _) ended)
  trivial

/-- A log that is torn, or is rewound, is torn after the merge. -/
theorem mergeQuorum_tears {Post : Unit → Replica → Prop}
    (torn : r.core.Torn ∨ r.Lags (r.latest msgs).sessnum (r.latest msgs).view)
    (returns : (mergeQuorum setup app msgs).Returns r Post) : ∃ r', r'.core.Torn ∧ Post () r' := by
  have merges : ∀ r1 : Replica, r1.core.Torn →
      (mergeLogs setup app (r.latest msgs) (r.latest msgs).op none msgs).Returns r1
        (fun found r2 => (completeMerge setup app (r.latest msgs) found.1 found.2).Returns r2 Post) →
      ∃ r', r'.core.Torn ∧ Post () r' := by
    intro r1 torn1 onward
    obtain ⟨r2, torn2, completes⟩ := installCommittedGaps_tears torn1 (mergeLogs_installs onward)
    exact completeMerge_tears torn2 completes
  simp only [mergeQuorum, Handler.returns_bind, Handler.returns_get, Handler.returns_emit,
    Handler.returns_ite, Handler.returns_modify] at returns
  split at returns
  next =>
      obtain ⟨r1, torn1, onward⟩ := rewindLogToOpnum_tears returns
      have torn1' : ({ r1 with committedGaps := {} } : Replica).core.Torn := torn1
      exact merges _ torn1' onward
  next stays =>
      exact merges r (torn.resolve_right stays) returns

/-- What the leader has found out is what the votes come to. -/
theorem combines_of_merged {r1 : Replica} {top : Nat} {replicaIdx : Option Nat}
    (early : ∀ vote ∈ msgs, ¬ r.Lags vote.lastnormalsessnum vote.lastnormalview)
    (patched : r.Patched setup (r.own.gaps msgs) r1)
    (longest : r.own.longest msgs (r.lastOp, none) = (top, replicaIdx))
    (concludes : r1.core.Concludes top replicaIdx)
    (core : r'.core = r1.core.merged r.own top replicaIdx) :
    r'.Combines (r.votes setup msgs) := by
  have fields : r'.startViewLastNormalSessnum = r.lastNormalSessnum ∧
      r'.startViewLastNormalView = r.lastNormalView ∧ r'.startViewLastOp = top ∧
      r'.startViewCommittedGaps = r1.committedGaps := by
    cases replicaIdx <;>
      exact ⟨congrArg Core.startViewLastNormalSessnum core,
        congrArg Core.startViewLastNormalView core, congrArg Core.startViewLastOp core,
        congrArg Core.startViewCommittedGaps core⟩
  obtain ⟨sessnum, view, lastOp, gaps⟩ := fields
  obtain ⟨greatest, found⟩ := r.own.longest_spec msgs (r.lastOp, none)
  rw [longest] at greatest found
  have counts_iff : ∀ vote, r'.Counts vote ↔ r.own.Counts vote := by
    intro vote
    unfold Replica.Counts Latest.Counts
    rw [sessnum, view]
    rfl
  have own : r.viewChangeMessage setup ∈ r.votes setup msgs := List.mem_cons_self
  have ownCounts : r'.Counts (r.viewChangeMessage setup) := (counts_iff _).mpr ⟨rfl, rfl⟩
  have others : ∀ {vote}, vote ∈ msgs → vote ∈ r.votes setup msgs := List.mem_cons_of_mem _
  constructor
  · exact ⟨_, own, ownCounts⟩
  · intro vote member
    rw [sessnum, view]
    rcases List.mem_cons.mp member with rfl | other
    · exact ⟨le_rfl, le_rfl⟩
    · have := early vote other
      unfold Replica.Lags at this
      omega
  · rw [lastOp]
    rcases found with same | ⟨-, vote, member, counts, result⟩
    · exact ⟨_, own, ownCounts, (congrArg Prod.fst same).symm⟩
    · exact ⟨vote, others member, (counts_iff vote).mpr counts, (congrArg Prod.fst result).symm⟩
  · intro vote member counts
    rw [lastOp]
    rcases List.mem_cons.mp member with rfl | other
    · rcases found with same | ⟨less, -⟩
      · exact (congrArg Prod.fst same).ge
      · exact less.le
    · exact greatest vote other ((counts_iff vote).mp counts)
  · intro gap
    rw [gaps, patched.known, Latest.mem_gaps]
    constructor
    · rintro (known | ⟨vote, member, counts, inVote⟩)
      · exact ⟨_, own, ownCounts, known⟩
      · exact ⟨vote, others member, (counts_iff vote).mpr counts, inVote⟩
    · rintro ⟨vote, member, counts, inVote⟩
      rcases List.mem_cons.mp member with rfl | other
      · exact .inl inVote
      · exact .inr ⟨vote, other, (counts_iff vote).mp counts, inVote⟩
  · rw [gaps, lastOp]
    exact concludes.bounded

/-- The leader goes on as it should if whom it asks has what it lacks. -/
theorem resumes_iff_of_merged {r1 : Replica} {top : Nat} {replicaIdx : Option Nat}
    (sturdy : r1.core.Sturdy setup)
    (longest : r.own.longest msgs (r.lastOp, none) = (top, replicaIdx))
    (concludes : r1.core.Concludes top replicaIdx)
    (core : r'.core = r1.core.merged r.own top replicaIdx) :
    r'.Resumes logOf msgs (r1.sessnum, r1.view)
        (replicaIdx.map fun idx => (Destination.one (.replica idx), r1.restRequest top)).toList ↔
      ∀ asked ∈ replicaIdx, top ≤ (logOf asked).lastOpnum := by
  have has : ∀ {r2 : Replica}, r2.log = r1.log → r2.lastOp = r1.lastOp → ∀ opnum,
      (∃ entry, r2.log.find opnum = some entry) ↔ 0 < opnum ∧ opnum ≤ r2.lastOp := by
    intro r2 log lastOp opnum
    have whole : r1.log.entries.length = r1.lastOp := sturdy.whole
    rw [log, lastOp, Log.exists_find_iff, whole]
  cases replicaIdx with
  | none =>
      have log : r'.log = r1.log := congrArg Core.log core
      have lastOp : r'.lastOp = r1.lastOp := congrArg Core.lastOp core
      have startOp : r'.startViewLastOp = top := congrArg Core.startViewLastOp core
      constructor
      · exact fun _ asked none_ => nomatch none_
      · intro _
        refine ⟨has log lastOp, .inl ⟨⟨?_, congrArg Core.status core, ?_⟩, rfl⟩⟩
        · rw [lastOp, startOp]
          exact (concludes.level rfl).symm
        · exact Prod.ext (congrArg Core.sessnum core) (congrArg Core.view core)
  | some idx =>
      have log : r'.log = r1.log := congrArg Core.log core
      have lastOp : r'.lastOp = r1.lastOp := congrArg Core.lastOp core
      have startOp : r'.startViewLastOp = top := congrArg Core.startViewLastOp core
      have own : r1.restRequest top = r'.restRequest r'.startViewLastOp := by
        have sessnum : r'.sessnum = r1.sessnum := congrArg Core.sessnum core
        have view : r'.view = r1.view := congrArg Core.view core
        unfold Replica.restRequest
        rw [sessnum, view, lastOp, startOp]
      have behind : r'.lastOp < r'.startViewLastOp := by
        rw [lastOp, startOp]
        exact concludes.behind idx rfl
      constructor
      · intro resumes asked isAsked
        obtain rfl : idx = asked := Option.some.inj isAsked
        obtain ⟨vote, -, requests⟩ := resumes.outcome.resolve_left fun entered => by
          have := entered.1.lastOp
          omega
        have whom : idx = vote.replicaIdx := by
          have same := List.head_eq_of_cons_eq requests.requested
          simpa using congrArg Prod.fst same
        have inside := Log.exists_find_iff.mp (requests.holds r'.startViewLastOp behind le_rfl)
        rw [← whom, startOp] at inside
        rw [Log.lastOpnum_eq]
        exact inside.2
      · intro held
        have enough := held idx rfl
        rw [Log.lastOpnum_eq] at enough
        obtain ⟨-, found⟩ := r.own.longest_spec msgs (r.lastOp, none)
        rw [longest] at found
        have contributor : ∃ vote ∈ msgs, r.own.Counts vote ∧
            (top, some idx) = (vote.lastop, some vote.replicaIdx) :=
          found.elim (fun same => nomatch congrArg Prod.snd same) (·.2)
        obtain ⟨vote, member, counts, result⟩ := contributor
        have voter : idx = vote.replicaIdx := Option.some.inj (congrArg Prod.snd result)
        refine ⟨has log lastOp, .inr ⟨vote, member, behind, ?_, ?_, ?_⟩⟩
        · rw [Option.map_some, Option.toList_some, own, voter]
        · constructor
          · exact counts.1.trans (congrArg Core.startViewLastNormalSessnum core).symm
          · exact counts.2.trans (congrArg Core.startViewLastNormalView core).symm
        · intro opnum above below
          rw [← voter]
          exact Log.exists_find_iff.mpr ⟨by omega, (below.trans startOp.le).trans enough⟩

/-- Where nobody has been normal later, all votes are within what the leader was last normal in. -/
theorem Replica.own_bounds
    (early : ∀ vote ∈ msgs, ¬ r.Lags vote.lastnormalsessnum vote.lastnormalview) :
    ∀ vote ∈ msgs, vote.lastnormalsessnum ≤ r.own.sessnum ∧ vote.lastnormalview ≤ r.own.view := by
  intro vote member
  have := early vote member
  unfold Replica.Lags at this
  change vote.lastnormalsessnum ≤ r.lastNormalSessnum ∧ vote.lastnormalview ≤ r.lastNormalView
  omega

/-- The leader finds its own pair to be the latest then. -/
theorem Replica.latest_eq_own
    (early : ∀ vote ∈ msgs, ¬ r.Lags vote.lastnormalsessnum vote.lastnormalview) :
    r.latest msgs = r.own := by
  rcases r.latest_cases msgs with ⟨latest, -⟩ | ⟨-, vote, member, lags⟩
  · exact latest
  · exact absurd lags (early vote member)

/-- A leader that is ready ends the merge as the assertions ask for. -/
theorem Replica.ReadyToMerge.concludes {r1 : Replica} (ready : r.ReadyToMerge logOf msgs)
    (patched : r.Patched setup (r.own.gaps msgs) r1) :
    r1.core.Concludes (r.own.longest msgs (r.lastOp, none)).1
      (r.own.longest msgs (r.lastOp, none)).2 := by
  obtain ⟨-, -, -, bounded, apart, -⟩ := ready
  obtain ⟨-, found⟩ := r.own.longest_spec msgs (r.lastOp, none)
  generalize r.own.longest msgs (r.lastOp, none) = longest at bounded apart found ⊢
  obtain ⟨top, replicaIdx⟩ := longest
  have within : r.lastOp ≤ top := by
    rcases found with same | ⟨less, -⟩
    · exact (congrArg Prod.fst same).ge
    · exact less.le
  have short : r1.lastOp ≤ top := by
    by_contra beyond
    have longer : r.lastOp < r1.lastOp := by omega
    exact beyond (bounded _ ((patched.known _).mp (patched.new r1.lastOp longer le_rfl).1))
  refine ⟨fun gap member => bounded gap ((patched.known gap).mp member), ?_, ?_⟩
  · intro idx isIdx
    have behind : r.lastOp < top := by
      rcases found with same | ⟨less, -⟩
      · have none_ : replicaIdx = none := congrArg Prod.snd same
        rw [none_] at isIdx
        nomatch isIdx
      · exact less
    obtain ⟨opnum, above, below, notKnown, notGap⟩ := apart behind
    refine lt_of_le_of_ne short fun reached => ?_
    have gap := (patched.new opnum above (below.trans reached.ge)).1
    exact ((patched.known opnum).mp gap).elim notKnown notGap
  · intro none_
    change replicaIdx = none at none_
    rcases found with same | ⟨-, vote, -, -, result⟩
    · have topSame : top = r.lastOp := congrArg Prod.fst same
      have := patched.longer
      change top = r1.lastOp
      omega
    · have some_ : replicaIdx = some vote.replicaIdx := congrArg Prod.snd result
      rw [none_] at some_
      nomatch some_

/-- A leader that ends the merge as the assertions ask for was ready, if whom it asks has what it
lacks. -/
theorem Replica.readyToMerge_of_concludes {r1 : Replica} (whole : r.core.Whole)
    (early : ∀ vote ∈ msgs, ¬ r.Lags vote.lastnormalsessnum vote.lastnormalview)
    (takes : ∀ gap ∈ r.own.gaps msgs, r.Takes gap)
    (patched : r.Patched setup (r.own.gaps msgs) r1)
    (concludes : r1.core.Concludes (r.own.longest msgs (r.lastOp, none)).1
      (r.own.longest msgs (r.lastOp, none)).2)
    (held : ∀ asked ∈ (r.own.longest msgs (r.lastOp, none)).2,
      (r.own.longest msgs (r.lastOp, none)).1 ≤ (logOf asked).lastOpnum) :
    r.ReadyToMerge logOf msgs := by
  obtain ⟨-, found⟩ := r.own.longest_spec msgs (r.lastOp, none)
  constructor
  · rw [Log.lastOpnum_eq]
    exact whole.symm
  · exact early
  · exact takes
  · exact fun gap known => concludes.bounded gap ((patched.known gap).mpr known)
  · intro behind
    refine ⟨_, Nat.lt_succ_of_le patched.longer, ?_, ?_, ?_⟩
    · rcases found with same | ⟨-, vote, -, -, result⟩
      · rw [same] at behind
        exact absurd behind (Nat.lt_irrefl _)
      · exact concludes.behind vote.replicaIdx (congrArg Prod.snd result)
    · exact fun member => patched.drained ((patched.known _).mpr (.inl member))
    · exact fun member => patched.drained ((patched.known _).mpr (.inr member))
  · exact held

/-- A leader merges a quorum as it should if and only if it was ready to. -/
theorem mergeQuorum_iff (grounded : r.core.Torn ∨ r.core.Sturdy setup)
    (drained : r.lastOp + 1 ∉ r.committedGaps) (idle : r.stateTransferOpEnd = 0)
    (status : r.status = .viewChange) (leader : setup.AmLeader r.view) :
    (∀ app, (mergeQuorum setup app msgs).Returns r fun _ r' =>
      r'.Combines (r.votes setup msgs) ∧ r'.Resumes logOf msgs (r.sessnum, r.view)
        (asked (mergeQuorum setup app msgs) r)) ↔
    r.ReadyToMerge logOf msgs := by
  constructor
  · intro returns
    have merges := returns {}
    rcases r.latest_cases msgs with ⟨latest, early⟩ | ⟨lags, -⟩
    · have sturdy : r.core.Sturdy setup := by
        refine grounded.resolve_left fun torn => ?_
        obtain ⟨r', torn', -, resumes⟩ := mergeQuorum_tears (.inl torn) merges
        exact resumes.not_torn torn'
      rw [mergeQuorum_returns latest] at merges
      have takes : ∀ gap ∈ r.own.gaps msgs, r.Takes gap := by
        intro gap member
        by_contra fails
        exact installCommittedGaps_stuck sturdy drained member fails (mergeLogs_installs merges)
      obtain ⟨_, ended, ⟨rfl, patched⟩, completes⟩ :=
        (mergeLogs_returns (Replica.own_bounds early) sturdy drained idle status takes).and merges
      have asks := mergeQuorum_asks latest ⟨_, ended, rfl, rfl⟩
      have concludes := completeMerge_concludes completes
      obtain ⟨⟨⟩, -, core, -, resumes⟩ :=
        (completeMerge_returns patched.sturdy (patched.view ▸ leader) concludes).and completes
      rw [asks, completeMerge_asks concludes, ← patched.sessnum, ← patched.view] at resumes
      have held := (resumes_iff_of_merged patched.sturdy rfl concludes core).mp resumes
      exact Replica.readyToMerge_of_concludes sturdy.whole early takes patched concludes held
    · obtain ⟨r', torn', -, resumes⟩ := mergeQuorum_tears (.inr lags) merges
      exact absurd torn' resumes.not_torn
  · intro ready app
    have latest := Replica.latest_eq_own ready.latest
    have sturdy : r.core.Sturdy setup := by
      refine grounded.resolve_left fun torn => ?_
      have counts := ready.whole
      rw [Log.lastOpnum_eq] at counts
      change r.log.entries.length < r.lastOp at torn
      omega
    rw [mergeQuorum_returns latest]
    obtain ⟨_, ended, rfl, patched⟩ := @mergeLogs_returns setup app _ _ _ _ none
      (Replica.own_bounds ready.latest) sturdy drained idle status ready.takes
    refine ⟨_, ended, ?_⟩
    rw [mergeQuorum_asks latest ⟨_, ended, rfl, rfl⟩]
    have concludes := ready.concludes patched
    apply (completeMerge_returns patched.sturdy (patched.view ▸ leader) concludes).imp
    intro _ r' core
    refine ⟨combines_of_merged ready.latest patched rfl concludes core, ?_⟩
    rw [completeMerge_asks concludes, ← patched.sessnum, ← patched.view]
    exact (resumes_iff_of_merged patched.sturdy rfl concludes core).mpr ready.held

end Merge

/-! ## The message that completes a quorum -/

/-- The message completes the quorum of the leader, which consists of these. -/
structure Replica.CompletedBy (setup : Setup) (r : Replica) (msg : ViewChangeMessage)
    (msgs : List ViewChangeMessage) : Prop where
  complete : r.quorumWith setup msg = some msgs
  incomplete : (r.joined msg).viewChangeQuorum.checkForQuorum (msg.sessnum, msg.view) = none

instance (setup : Setup) (r : Replica) (msg : ViewChangeMessage) (msgs : List ViewChangeMessage) :
    Decidable (r.CompletedBy setup msg msgs) :=
  decidable_of_iff (r.quorumWith setup msg = some msgs ∧
    ((r.joined msg).viewChangeQuorum.checkForQuorum (msg.sessnum, msg.view)).isNone)
    ⟨fun ⟨complete, incomplete⟩ => ⟨complete, Option.isNone_iff_eq_none.mp incomplete⟩,
      fun ⟨complete, incomplete⟩ => ⟨complete, Option.isNone_iff_eq_none.mpr incomplete⟩⟩

section Gathering

variable {msg : ViewChangeMessage} {remote : Address}

/-- The leader with the message, before it merges. -/
def Replica.gathered (r : Replica) (msg : ViewChangeMessage) : Replica :=
  { r.joined msg with
    viewChangeTimeout :=
      if r.sessnum < msg.sessnum ∨ r.view < msg.view then true else r.viewChangeTimeout
    viewChangeQuorum :=
      (r.joined msg).viewChangeQuorum.add (msg.sessnum, msg.view) msg.replicaIdx msg }

/-- What the quorum is complete for. -/
theorem Replica.CompletedBy.current (completed : r.CompletedBy setup msg msgs) :
    (r.joined msg).status = .viewChange ∧ setup.AmLeader (r.joined msg).view ∧
      (msg.sessnum = (r.joined msg).sessnum ∧ msg.view = (r.joined msg).view) ∧
      ((r.joined msg).viewChangeQuorum.addAndCheckForQuorum (msg.sessnum, msg.view) msg.replicaIdx
        msg).2.map (·.values) = some msgs := by
  have complete := completed.complete
  unfold Replica.quorumWith at complete
  split at complete
  next current =>
      obtain ⟨status, leader, notOld⟩ := current
      refine ⟨status, leader, ?_, complete⟩
      unfold Replica.joined at notOld ⊢
      split at notOld
      next behind =>
          rw [if_pos behind]
          simp only [Replica.changing] at notOld ⊢
          omega
      next notBehind =>
          rw [if_neg notBehind]
          omega
  next => nomatch complete

/-- A leader in the view change merges the quorum that the message completes. -/
theorem joinedViewChange_returns {found : Std.TreeMap Nat ViewChangeMessage}
    {Post : Unit → Replica → Prop} (status : r.status = .viewChange) (leader : setup.AmLeader r.view)
    (pair : msg.sessnum = r.sessnum ∧ msg.view = r.view)
    (result : (r.viewChangeQuorum.addAndCheckForQuorum (msg.sessnum, msg.view) msg.replicaIdx
      msg).2 = some found) :
    (joinedViewChange setup app remote msg).Returns r Post ↔
      (mergeQuorum setup app found.values).Returns
        { r with viewChangeQuorum :=
            r.viewChangeQuorum.add (msg.sessnum, msg.view) msg.replicaIdx msg } Post := by
  have current : ¬ (msg.sessnum < r.sessnum ∨ msg.view < r.view) := by omega
  have changing : ¬ r.status ≠ .viewChange := not_not.mpr status
  unfold joinedViewChange
  simp only [Handler.returns_bind, Handler.returns_get, Handler.returns_ite,
    Handler.returns_require, Handler.returns_modify, if_neg current, if_neg changing, result]
  exact (and_iff_right pair).trans (and_iff_right leader)

/-- It asks for what it asks for when it merges. -/
theorem joinedViewChange_asks {found : Std.TreeMap Nat ViewChangeMessage}
    (status : r.status = .viewChange) (leader : setup.AmLeader r.view)
    (pair : msg.sessnum = r.sessnum ∧ msg.view = r.view)
    (result : (r.viewChangeQuorum.addAndCheckForQuorum (msg.sessnum, msg.view) msg.replicaIdx
      msg).2 = some found) :
    asked (joinedViewChange setup app remote msg) r = asked (mergeQuorum setup app found.values)
      { r with viewChangeQuorum :=
          r.viewChangeQuorum.add (msg.sessnum, msg.view) msg.replicaIdx msg } := by
  have current : ¬ (msg.sessnum < r.sessnum ∨ msg.view < r.view) := by omega
  have changing : ¬ r.status ≠ .viewChange := not_not.mpr status
  unfold joinedViewChange
  rw [asked_get_bind, if_neg current, asked_require_bind, if_pos pair, asked_require_bind,
    if_pos leader, if_neg changing, asked_modify_bind]
  simp only [result]
  rfl

/-- The handler of the message asks for what it asks for when it merges. -/
theorem handleViewChange_asks (completed : r.CompletedBy setup msg msgs) :
    asked (handleViewChange setup app remote msg) r =
      asked (mergeQuorum setup app msgs) (r.gathered msg) := by
  obtain ⟨status, leader, pair, complete⟩ := completed.current
  obtain ⟨found, result, rfl⟩ := Option.map_eq_some_iff.mp complete
  have gathers : ∀ waiting : Bool, _ := fun waiting =>
    @joinedViewChange_asks setup app { r.joined msg with viewChangeTimeout := waiting } msg remote
      found status leader pair result
  unfold handleViewChange
  rw [asked_get_bind]
  by_cases behind : r.sessnum < msg.sessnum ∨ r.view < msg.view
  · have joined : r.joined msg = r.changing (max r.sessnum msg.sessnum) (max r.view msg.view) :=
      if_pos behind
    have gathered := gathers true
    rw [joined] at gathered leader
    have changes : (startViewChange setup msg.sessnum msg.view).Returns r fun _ r' =>
        r' = { r.changing (max r.sessnum msg.sessnum) (max r.view msg.view) with
          viewChangeTimeout := true } := by
      simp only [startViewChange, sendViewChange, sendToAll, Handler.returns_bind,
        Handler.returns_get, Handler.returns_ite, Handler.returns_require, Handler.returns_modify,
        Handler.returns_emit, if_pos leader]
      exact ⟨behind, trivial⟩
    obtain ⟨⟨⟩, ended, changed⟩ := changes
    rw [Replica.gathered, joined, if_pos behind, if_pos behind,
      asked_bind ((@framed_unasking setup app).startViewChange _ _) ended, changed]
    exact gathered
  · have joined : r.joined msg = r := if_neg behind
    have gathered := gathers r.viewChangeTimeout
    rw [joined] at gathered
    rw [Replica.gathered, joined, if_neg behind, if_neg behind]
    exact gathered

/-- The handler of the message comes down to the merge. -/
theorem handleViewChange_returns {Post : Unit → Replica → Prop}
    (completed : r.CompletedBy setup msg msgs) :
    (handleViewChange setup app remote msg).Returns r Post ↔
      (mergeQuorum setup app msgs).Returns (r.gathered msg) Post := by
  obtain ⟨status, leader, pair, complete⟩ := completed.current
  obtain ⟨found, result, rfl⟩ := Option.map_eq_some_iff.mp complete
  have gathers : ∀ waiting : Bool, _ := fun waiting =>
    @joinedViewChange_returns setup app { r.joined msg with viewChangeTimeout := waiting } msg remote
      found Post status leader pair result
  by_cases behind : r.sessnum < msg.sessnum ∨ r.view < msg.view
  · have joined : r.joined msg = r.changing (max r.sessnum msg.sessnum) (max r.view msg.view) :=
      if_pos behind
    have gathered := gathers true
    rw [joined] at gathered leader
    rw [Replica.gathered, joined, if_pos behind]
    simp only [handleViewChange, startViewChange, sendViewChange, sendToAll, Handler.returns_bind,
      Handler.returns_get, Handler.returns_ite, Handler.returns_require, Handler.returns_modify,
      Handler.returns_emit, if_pos behind, if_pos leader]
    exact (and_iff_right behind).trans gathered
  · have joined : r.joined msg = r := if_neg behind
    have gathered := gathers r.viewChangeTimeout
    rw [joined] at gathered
    rw [Replica.gathered, joined, if_neg behind]
    simp only [handleViewChange, Handler.returns_bind, Handler.returns_get, Handler.returns_ite,
      if_neg behind]
    exact gathered

/-- The leader has what a merge needs: a log that is whole or torn, no waiting gap and no state
transfer. -/
theorem Replica.gathered_grounds (grounded : r.core.Grounded setup)
    (drained : r.lastOp + 1 ∉ r.committedGaps) (completed : r.CompletedBy setup msg msgs) :
    ((r.gathered msg).core.Torn ∨ (r.gathered msg).core.Sturdy setup) ∧
      (r.gathered msg).lastOp + 1 ∉ (r.gathered msg).committedGaps ∧
      (r.gathered msg).stateTransferOpEnd = 0 := by
  obtain ⟨status, leader, pair, -⟩ := completed.current
  by_cases behind : r.sessnum < msg.sessnum ∨ r.view < msg.view
  · have joined : r.joined msg = r.changing (max r.sessnum msg.sessnum) (max r.view msg.view) :=
      if_pos behind
    unfold Replica.gathered
    rw [joined]
    have drains := (rests_changing r.core (max r.sessnum msg.sessnum) (max r.view msg.view)).drained
    refine ⟨grounded.log.imp id fun ⟨whole, point⟩ => ⟨whole, point, ?_⟩, drains, rfl⟩
    exact fun pending : 0 < 0 => absurd pending (Nat.lt_irrefl 0)
  · have joined : r.joined msg = r := if_neg behind
    have incomplete := completed.incomplete
    unfold Replica.gathered
    rw [joined] at status leader pair incomplete ⊢
    refine ⟨grounded.log.imp id fun ⟨whole, point⟩ => ⟨whole, point, grounded.awaits⟩, drained, ?_⟩
    by_contra pending
    have complete := grounded.collected status leader (Nat.pos_of_ne_zero pending)
    change (r.viewChangeQuorum.checkForQuorum (r.sessnum, r.view)).isSome at complete
    rw [← pair.1, ← pair.2, incomplete] at complete
    nomatch complete

/-- A leader merges the quorum that a message completes as it should if and only if it was ready
to. -/
theorem Replica.merges_iff (grounded : r.core.Grounded setup)
    (drained : r.lastOp + 1 ∉ r.committedGaps) (completed : r.CompletedBy setup msg msgs) :
    r.Merges setup logOf remote msg msgs ↔ (r.joined msg).ReadyToMerge logOf msgs := by
  obtain ⟨status, leader, pair, -⟩ := completed.current
  obtain ⟨grounded', drained', idle⟩ := r.gathered_grounds grounded drained completed
  have merges_iff := @mergeQuorum_iff setup (r.gathered msg) msgs logOf grounded' drained' idle
    status leader
  have current : ((r.gathered msg).sessnum, (r.gathered msg).view) = (msg.sessnum, msg.view) := by
    rw [pair.1, pair.2]
    rfl
  rw [current] at merges_iff
  have ready_iff : (r.gathered msg).ReadyToMerge logOf msgs ↔ (r.joined msg).ReadyToMerge logOf msgs := by
    constructor
    · rintro ⟨whole, latest, takes, bounded, apart, held⟩
      exact ⟨whole, latest, takes, bounded, apart, held⟩
    · rintro ⟨whole, latest, takes, bounded, apart, held⟩
      exact ⟨whole, latest, takes, bounded, apart, held⟩
  rw [← ready_iff, ← merges_iff]
  constructor
  · intro merges app
    have returns : (handleViewChange setup app remote msg).Returns r fun _ r' =>
        r'.Combines ((r.joined msg).votes setup msgs) ∧ r'.Resumes logOf msgs
          (msg.sessnum, msg.view) (asked (handleViewChange setup app remote msg) r) :=
      Handler.returns_iff_of_unit.mpr (merges app)
    rw [handleViewChange_asks completed] at returns
    exact (handleViewChange_returns completed).mp returns
  · intro returns app
    have handles : (handleViewChange setup app remote msg).Returns r fun _ r' =>
        r'.Combines ((r.joined msg).votes setup msgs) ∧ r'.Resumes logOf msgs
          (msg.sessnum, msg.view) (asked (mergeQuorum setup app msgs) (r.gathered msg)) :=
      (handleViewChange_returns completed).mpr (returns app)
    rw [← @handleViewChange_asks setup app r msgs msg remote completed] at handles
    exact Handler.returns_iff_of_unit.mp handles

end Gathering

/-! ## Runs -/

namespace System

variable {d : Deployment} {s : System} {idx : Nat}

/-- The logs of all replicas. -/
def heldLogs (s : System) (idx : Nat) : Log := (s.replicas idx).log

/-- In every reachable state a leader merges the quorum that a message completes as it should if and
only if it is ready to. -/
theorem merges_iff_ready (reachable : (system d).Reachable TransitionSystem.unguarded s)
    {src : Address} {msg : ViewChangeMessage} {msgs : List ViewChangeMessage}
    (running : s.stopped idx = false)
    (completed : (s.replicas idx).CompletedBy (d.setup idx) msg msgs) :
    (s.replicas idx).Merges (d.setup idx) s.heldLogs src msg msgs ↔
      ((s.replicas idx).joined msg).ReadyToMerge s.heldLogs msgs := by
  have ready := (invariant_allReady d).of_reachable reachable idx running
  have grounds := grounds_of_reachable reachable
  exact Replica.merges_iff (grounds.grounded idx running) ready.rests.drained completed

/-- Replica 0 joins the change to view 1 with two operations. -/
def longerVote : ViewChangeMessage where
  sessnum := 0
  view := 1
  lastnormalsessnum := 0
  lastnormalview := 0
  lastop := 2
  committedgaps := []
  replicaIdx := 0

/-- Replica 0 has two requests, and replica 1 the first of them. Replica 1 starts a view change, and
replica 0 joins it. -/
def outnumberedRun : List Action :=
  ask 0 1 [0, 1] ++ deliveries [0, 1] ++ ask 0 2 [0] ++ deliveries [4] ++
    [.timer 1 .leaderSyncHeard {}] ++ deliveries [6]

/-- Replica 1 merges the two logs, and asks replica 0 for the second request. -/
theorem merges_outnumberedRun : ∃ s : System, (s.replicas 1).lastOp = 1 ∧
    (s.replicas 1).Merges (trio.setup 1) s.heldLogs (.replica 0) longerVote [longerVote] := by
  obtain ⟨s, reachable, outcome⟩ := (system trio).exists_reachable_of_run
    TransitionSystem.unguarded
    (fun s => decide ((s.stopped 1 = false ∧
      (s.replicas 1).CompletedBy (trio.setup 1) longerVote [longerVote]) ∧
      (s.replicas 1).lastOp = 1 ∧ ((s.replicas 1).joined longerVote).lastOp = 1 ∧
      ((s.replicas 1).joined longerVote).log.lastOpnum = 1 ∧
      ((s.replicas 1).joined longerVote).own = { sessnum := 0, view := 0, op := 1 } ∧
      ((s.replicas 1).joined longerVote).committedGaps = {} ∧ (s.heldLogs 0).lastOpnum = 2))
    outnumberedRun rfl (by decide +kernel)
  obtain ⟨⟨running, completed⟩, lastOp, joinedOp, log, own, gaps, held⟩ := of_decide_eq_true outcome
  refine ⟨s, lastOp, ?_⟩
  apply (merges_iff_ready reachable running completed).mpr
  have longest : ((s.replicas 1).joined longerVote).own.longest [longerVote]
      (((s.replicas 1).joined longerVote).lastOp, none) = (2, some 0) := by
    rw [own, joinedOp]
    rfl
  have noGaps : ((s.replicas 1).joined longerVote).own.gaps [longerVote] = [] := by
    rw [own]
    rfl
  constructor
  · rw [joinedOp, log]
  · intro vote member
    obtain rfl := List.mem_singleton.mp member
    simp [Replica.Lags, longerVote]
  · simp [noGaps]
  · simp [noGaps, gaps]
  · intro _
    rw [longest]
    exact ⟨2, by omega, le_rfl, by simp [gaps], by simp [noGaps]⟩
  · rw [longest]
    intro asked isAsked
    obtain rfl : 0 = asked := Option.some.inj isAsked
    exact held.ge

/-- Replica 0 joins the change to view 2, after it has been normal in view 1. -/
def laterVote : ViewChangeMessage where
  sessnum := 0
  view := 2
  lastnormalsessnum := 0
  lastnormalview := 1
  lastop := 1
  committedgaps := []
  replicaIdx := 0

/-- Replica 2 leads view 2, and has not been in view 1. It rewinds its log to where nothing is
committed, and that stops it. -/
theorem not_merges_leadingRun : ¬ ∀ (d : Deployment) (s : System) (idx : Nat) (src : Address)
    (msg : ViewChangeMessage) (msgs : List ViewChangeMessage),
    (system d).Reachable TransitionSystem.unguarded s → s.stopped idx = false →
    (s.replicas idx).status = .viewChange → (d.setup idx).AmLeader (s.replicas idx).view →
    { src := src, dst := .replica idx, msg := .viewChange msg } ∈ s.network →
    (s.replicas idx).CompletedBy (d.setup idx) msg msgs →
    (s.replicas idx).Merges (d.setup idx) s.heldLogs src msg msgs := by
  intro always
  obtain ⟨s, reachable, outcome⟩ := (system trio).exists_reachable_of_run
    TransitionSystem.unguarded
    (fun s => decide ((s.stopped 2 = false ∧ (s.replicas 2).status = .viewChange ∧
      (trio.setup 2).AmLeader (s.replicas 2).view) ∧
      s.network[18]? = some (⟨.replica 0, .replica 2, .viewChange laterVote⟩ : Packet) ∧
      (s.replicas 2).CompletedBy (trio.setup 2) laterVote [laterVote] ∧
      (handleViewChange (trio.setup 2) {} (.replica 0) laterVote (s.replicas 2)).value = none))
    (leadingRun ++ deliveries [13] ++ [.timer 0 .leaderSyncHeard {}] ++ deliveries [17]) rfl
    (by decide +kernel)
  obtain ⟨⟨running, status, leader⟩, there, completed, stops⟩ := of_decide_eq_true outcome
  have merges := always trio s 2 (.replica 0) laterVote [laterVote] reachable running status leader
    (List.mem_of_getElem? there) completed
  have ends := (merges {}).1
  rw [stops] at ends
  nomatch ends

end System

end PaxosBus.NoPaxos

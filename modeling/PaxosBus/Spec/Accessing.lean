import PaxosBus.Spec.Syncing

/-!
# The accesses of a run

Where the votes are compared from the latest beginning on, every access is to an
entry with the opnum asked for. Where the leader has asked for longer logs, its
own vote still begins where it began, and the merge, which now starts at the
first opnum, reads it below its beginning unless it fits by chance.
-/

set_option autoImplicit false

namespace PaxosBus.Spec

open PaxosBus.Common PaxosBus.Library

variable {Hash : Type} [LinearOrder Hash] {d : Deployment Hash}

namespace System

/-- Every access is to an entry with the opnum that is asked for. -/
def ReadsEntries (s : System Hash) : Prop :=
  ∀ access ∈ s.reads, ∃ entry, access.msg.entryAt access.opnum = some entry

/-- A vote that completes a quorum for which longer logs have been asked for finds a fitting vote of
the leader's own, if the leader's is of the latest normal view. -/
def OwnVoteFits (s : System Hash) (idx : Nat) (msg : DoViewChangeMessage Hash) : Prop :=
  (s.replicas idx).needFillDVC = msg.view →
    ∀ msgs ∈ ((s.replicas idx).doViewChangeQuorum.add msg.view msg.replicaidx msg).checkForQuorum
        msg.view,
      ∀ own ∈ msgs[idx]?, own ∈ latestViewMessages (messages msgs) →
        own.Fits (latestViewMessages (messages msgs))

instance (s : System Hash) (idx : Nat) (msg : DoViewChangeMessage Hash) :
    Decidable (s.OwnVoteFits idx msg) := by
  unfold OwnVoteFits DoViewChangeMessage.Fits DoViewChangeMessage.Early
  infer_instance

/-- The steps at which no vote of the leader's own is merged that does not fit. -/
def MergesFitting (s : System Hash) : Action → Prop
  | .deliver position _ =>
    match s.network[position]? with
    | some ⟨_, .replica idx, .doViewChange msg⟩ => s.OwnVoteFits idx msg
    | _ => True
  | _ => True

instance (s : System Hash) (action : Action) : Decidable (s.MergesFitting action) := by
  unfold MergesFitting
  split
  · split <;> infer_instance
  · infer_instance

/-- The accesses of a run whose steps merge fitting votes only. -/
theorem readsEntries_invariant :
    (system d).Invariant MergesFitting fun s => s.Coherent d ∧ s.ReadsEntries where
  initial state first := by
    refine ⟨(coherent_invariant MergesFitting).initial state first, ?_⟩
    rw [first]
    exact fun _ none_ => nomatch none_
  preserved {s action next} invariant fitting stepped := by
    obtain ⟨coherent, before⟩ := invariant
    have marks : Marks d s (fun access => ∃ entry, access.msg.entryAt access.opnum = some entry)
        (fun _ => True) next := by
      refine marks_step coherent stepped (fun _ _ _ entry found => ⟨entry, found⟩) ?_
      rintro position app src idx msg rfl found _ _
      unfold Grants
      split
      · exact fun _ => trivial
      · exact fun _ => trivial
      next msg =>
          have fits : s.OwnVoteFits idx msg := by
            unfold MergesFitting at fitting
            simpa only [found] using fitting
          exact fun filling msgs own enough present inLatest =>
            .inl (fits filling msgs enough own present inLatest)
      · trivial
    refine ⟨marks.coherent, fun access marked => ?_⟩
    rcases marks.reads access marked with old | new
    · exact before access old
    · exact new

/-- In a run in which every merge of longer logs finds a fitting vote of the leader's own, every access
to a vote is within its entries, and yields the entry with the opnum that is asked for. -/
theorem readsEntries_of_mergesFitting {s : System Hash}
    (reachable : (system d).Reachable MergesFitting s) : s.ReadsEntries :=
  (readsEntries_invariant.of_reachable reachable).2

set_option maxRecDepth 20000 in
/-- The leader of view 1 lags behind, asks for a longer log than a vote carries, and merges it with
its own. -/
theorem readsEntries_of_mergesFitting_trio : ∃ s, (system trio).Reachable MergesFitting s ∧
    (s.replicas 1).needFillDVC = 1 ∧ s.reads.length = 31 ∧ s.ReadsEntries := by
  obtain ⟨s, reachable, accessed⟩ := (system trio).exists_reachable_of_run
    MergesFitting
    (fun s => decide ((s.replicas 1).needFillDVC = 1 ∧ s.reads.length = 31))
    ((List.range 27).map .invoke ++ (List.range 27).map (fun c => .deliver (3 * c) {}) ++
      [.deliver 1 {}, .timer 1 .viewChange, .timer 0 .failedSync, .deliver 109 {}, .deliver 111 {},
        .deliver 113 {}, .deliver 114 {}, .deliver 115 {}]) rfl (by decide +kernel)
  obtain ⟨filling, length⟩ := of_decide_eq_true accessed
  exact ⟨s, reachable, filling, length, readsEntries_of_mergesFitting reachable⟩

set_option maxRecDepth 20000 in
/-- With more requests than a vote carries, the leader of view 1 asks the replica that lags behind for
a longer log, gets its vote once more, and reads its own vote below its beginning. -/
theorem not_readsEntries_trio : ¬ ∀ s : System (List Nat),
    (system trio).Reachable TransitionSystem.unguarded s → s.ReadsEntries := by
  intro all
  obtain ⟨s, reachable, missed⟩ := (system trio).exists_reachable_of_run
    TransitionSystem.unguarded
    (fun s => s.reads.any fun access => (access.msg.entryAt access.opnum).isNone)
    ((List.range 27).map .invoke ++ (List.range 27).map (fun c => .deliver (3 * c + 1) {}) ++
      [.deliver 0 {}, .timer 1 .viewChange, .timer 0 .failedSync, .deliver 109 {}, .deliver 111 {},
        .deliver 113 {}, .deliver 113 {}]) rfl (by decide +kernel)
  obtain ⟨access, marked, missing⟩ := List.any_eq_true.mp missed
  obtain ⟨entry, found⟩ := all s reachable access marked
  rw [found] at missing
  nomatch missing

end System

end PaxosBus.Spec

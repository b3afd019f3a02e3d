import PaxosBus.NoPaxos.Shifts

/-!
# The sync point of a leader

A leader records its last operation as a sync point whenever it synchronizes,
also in a gap agreement. When it follows a later leader and has to rewind its
log, the point stays where it was. So it can be above the last operation when
the replica leads again, and `EnterView` fails. Where no replica rewinds its log
below its point, the point is always within the log.
-/

set_option autoImplicit false

namespace PaxosBus.NoPaxos

open PaxosBus.Common PaxosBus.Library

/-! ## The moves of a replica -/

/-- The assertions of `EnterView` hold in this call. -/
def Output.Fits : Output → Prop
  | .entering current next leads point lastOp =>
    current.1 ≤ next.1 ∧ current.2 ≤ next.2 ∧ (leads = true → point ≤ lastOp)
  | _ => True

/-- The sync point of the replica is within its log. -/
def Core.Points (c : Core) : Prop := c.leaderLastSyncPreparePoint ≤ c.lastOp

/-- What does not depend on the world: points within logs, and calls of `EnterView` that succeed. -/
def pointing : Logic Unit Core Output where
  Later _ _ := True
  refl _ := trivial
  trans _ _ := trivial
  Valid _ output := output.Fits
  mono _ valid := valid
  Keeps _ c := c.Points

/-- A reply is no call of `EnterView`. -/
theorem Replies.fits {c : Core} {output : Output} (replies : Replies c output) : output.Fits := by
  rcases replies with ⟨clientid, addr, reply, -, rfl⟩ | executes
  · trivial
  · cases output with
    | entering => exact absurd executes id
    | _ => trivial

/-- What a replica puts out when it asks for operations is no call of `EnterView`. -/
theorem Core.asking_fits {c : Core} {asked : Bool} {output : Output}
    (member : output ∈ c.asking asked) : output.Fits := by
  unfold Core.asking at member
  rcases List.mem_cons.mp member with rfl | rest
  · trivial
  · split at rest
    next =>
        obtain rfl := List.mem_singleton.mp rest
        trivial
    next => nomatch rest

section

variable {o : Occasion} {c next : Core} {outputs : List Output}

/-- Nothing but rewinding takes the last operation below the point. -/
theorem Move.points (moved : Move o c outputs next) (sparing : ¬ o.undercut) (points : c.Points) :
    next.Points := by
  unfold Core.Points at points ⊢
  cases moved with
  | append appended => exact points.trans (by simp [Core.appended]; omega)
  | appendLast appended => exact points.trans (by simp [Core.appended]; omega)
  | rewind removed below => exact Nat.not_lt.mp fun lower => sparing (below lower)
  | setPoint => exact le_rfl
  | mergeTransfer elected behind transferring =>
      subst transferring
      exact points
  | followTransfer follows behind transferring =>
      subst transferring
      exact points
  | syncTransfer follower behind transferring =>
      subst transferring
      exact points
  | _ => exact points

/-- `EnterView` is called for no earlier session and view, with the point within the log. -/
theorem Move.fits (moved : Move o c outputs next) (points : c.Points) :
    ∀ output ∈ outputs, output.Fits := by
  have processing : ∀ opnum {outputs : List Output}, (∀ output ∈ outputs, Replies c output) →
      ∀ output ∈ .processing opnum c.stateTransferOpEnd c.committedGaps.elements :: outputs,
        output.Fits := by
    intro opnum outputs replies output member
    rcases List.mem_cons.mp member with rfl | inReplies
    · trivial
    · exact (replies output inReplies).fits
  cases moved with
  | call sessnum view =>
      intro output single
      obtain rfl := List.mem_singleton.mp single
      exact ⟨sessnum, view, fun _ => points⟩
  | execute executes =>
      intro output single
      obtain rfl := List.mem_singleton.mp single
      exact Replies.fits (c := c) (.inr executes)
  | refuse replies => exact processing _ replies
  | append next appended replies => exact processing _ replies
  | appendLast next appended replies =>
      intro output member
      rcases List.mem_append.mp member with before | atEnd
      · exact processing _ replies output before
      · obtain rfl := List.mem_singleton.mp atEnd
        trivial
  | mergeTransfer => exact fun _ => Core.asking_fits
  | followTransfer => exact fun _ => Core.asking_fits
  | syncTransfer => exact fun _ => Core.asking_fits
  | send | merge | mergeEnter | follow | finish | agreed =>
      intro output single
      obtain rfl := List.mem_singleton.mp single
      trivial
  | _ => exact fun _ none_ => nomatch none_

end

/-! ## Runs -/

/-- The assertions of `EnterView` hold in this call. -/
def Entering.Fits (entering : Entering) : Prop :=
  entering.current.1 ≤ entering.next.1 ∧ entering.current.2 ≤ entering.next.2 ∧
    (entering.leads = true → entering.point ≤ entering.lastOp)

/-- The sync point of every leader that is not in a view change is within its log, and no assertion
of `EnterView` has failed. -/
structure System.KeepsPoints (d : Deployment) (s : System) : Prop where
  leader : ∀ idx, s.stopped idx = false → (d.setup idx).AmLeader (s.replicas idx).view →
    (s.replicas idx).status ≠ .viewChange →
    (s.replicas idx).leaderLastSyncPreparePoint ≤ (s.replicas idx).lastOp
  entered : ∀ entering ∈ s.enterings, entering.Fits

namespace System

variable {d : Deployment} {s next : System}

/-- The sync point of every replica is within its log, and `EnterView` has not failed. -/
structure Points (s : System) : Prop where
  within : ∀ idx, s.stopped idx = false → (s.replicas idx).core.Points
  entered : ∀ entering ∈ s.enterings, entering.Fits

/-- A call that succeeds is recorded as such. -/
theorem fits_of_entering {output : Output} (fits : output.Fits) {idx : Nat} {mark : Entering}
    (marked : entering idx output = some mark) : mark.Fits := by
  cases output with
  | entering =>
      obtain rfl := Option.some.inj marked
      exact fits
  | _ => nomatch marked

/-- A step in which no replica rewinds its log below its point keeps the points. -/
theorem Points.shifts {action : Action} (points : s.Points) (sparing : s.Sparing d action)
    (shifts : s.Shifts d action next) : next.Points := by
  cases shifts with
  | @ran idx outcome last ran outputs =>
      have keeps : pointing.Keeps () (s.replicas idx).core := points.within idx ran.running
      obtain ⟨_, -, points', fits⟩ := ran.moves.keeps pointing
        (fun points moved => ⟨(), trivial, moved.points (not_not.mpr sparing) points,
          moved.fits points⟩) keeps
      constructor
      · intro other running
        rcases eq_or_ne other idx with rfl | different
        · simp only [absorb, Function.update_self] at running ⊢
          exact (ran.ended running).1 ▸ points'
        · simp only [absorb, Function.update_of_ne different] at running ⊢
          exact points.within other running
      · intro mark member
        rcases List.mem_append.mp member with old | new
        · exact points.entered mark old
        · obtain ⟨output, inOutputs, marked⟩ := List.mem_filterMap.mp new
          exact fits_of_entering (fits output inOutputs) marked
  | asked asked =>
      constructor
      · rw [asked.stopped, asked.replicas]
        exact points.within
      · rw [asked.enterings]
        exact points.entered

/-- In every run in which no replica rewinds its log below its sync point, the point of a leader is
within its log, and `EnterView` does not fail. -/
theorem keepsPoints_of_sparing (reachable : (system d).Reachable (Sparing d) s) :
    s.KeepsPoints d := by
  have points : s.Points := by
    apply of_shifts _ _ reachable
    · exact ⟨fun _ _ => Nat.le_refl 0, fun _ none_ => nomatch none_⟩
    · exact fun sparing _ points shifts => points.shifts sparing shifts
  exact ⟨fun idx running _ _ => points.within idx running, points.entered⟩

/-! ## A replica that leads again -/

/-- Replica 1 has the point of its operation when it leads view 1. -/
theorem keepsPoints_leadingRun : ∃ s : System, (s.replicas 1).leaderLastSyncPreparePoint = 1 ∧
    s.enterings.length = 1 ∧ s.KeepsPoints trio := by
  obtain ⟨s, reachable, entered⟩ := (system trio).exists_reachable_of_run (Sparing trio)
    (fun s => decide ((s.replicas 1).leaderLastSyncPreparePoint = 1 ∧ s.enterings.length = 1))
    leadingRun rfl (by decide +kernel)
  obtain ⟨point, once⟩ := of_decide_eq_true entered
  exact ⟨s, point, once, keepsPoints_of_sparing reachable⟩

/-- All replicas have a request. Replica 0 starts to agree on a gap after it, synchronizes, and
follows the others, who have not heard of the gap, into views 1 and 2. Replica 1 starts view 3. -/
def leadingAgainRun : List Action :=
  ask 0 1 [0, 1, 2] ++ deliveries [0, 1, 2] ++ ask 0 3 [0] ++ deliveries [6] ++
    [.timer 0 .startGapRequest {}, .timer 0 .gapRequest {}, .timer 0 .sync {},
      .timer 1 .leaderSyncHeard {}] ++ deliveries [14, 17, 18, 19] ++
    [.timer 0 .leaderSyncHeard {}] ++ deliveries [24, 27, 28] ++
    [.timer 1 .leaderSyncHeard {}] ++ deliveries [33]

/-- Replica 0 cannot enter view 3, as its sync point is still the gap that it has dropped. -/
theorem not_keepsPoints_leadingAgainRun : ¬ ∀ (d : Deployment) (s : System),
    (system d).Reachable TransitionSystem.unguarded s → s.KeepsPoints d := by
  intro always
  obtain ⟨s, reachable, outcome⟩ := (system trio).exists_reachable_of_run
    TransitionSystem.unguarded
    (fun s => decide (s.stopped 0 = true ∧
      ({ idx := 0, current := (0, 3), next := (0, 3), leads := true, point := 2, lastOp := 1 } :
        Entering) ∈ s.enterings)) leadingAgainRun rfl (by decide +kernel)
  obtain ⟨-, member⟩ := of_decide_eq_true outcome
  exact absurd (((always trio s reachable).entered _ member).2.2 rfl) (by decide)

end System

end PaxosBus.NoPaxos

import PaxosBus.NoPaxos.Shifts

/-!
# The end of a state transfer

A state transfer is for the operations before `stateTransferOpEnd`, but
`ProcessNextOperation` finds it complete with the operation of that number. It
never finds it complete too early, nor twice. It finds it complete in time if
the operation of that number is a gap that the replica knows already, because
then it follows in the same step.
-/

set_option autoImplicit false

namespace PaxosBus.NoPaxos

open PaxosBus.Common PaxosBus.Library

/-- The end of the state transfer that is running after some moments. One that starts takes the
place of one that is running. -/
def underway (moments : List Moment) : Option Nat :=
  match moments.getLast? with
  | some (.started end_) => some end_
  | _ => none

/-- Each call of `stateTransferCallback` ends the state transfer that is running, and no operation
before its end is missing from the log. -/
inductive InOrder : List Moment → Prop where
  | nil : InOrder []
  | started {moments end_} (prior : InOrder moments) : InOrder (moments ++ [.started end_])
  | ended {moments end_ length} (prior : InOrder moments) (running : underway moments = some end_)
      (whole : end_ ≤ length + 1) : InOrder (moments ++ [.ended end_ length])

@[simp] theorem underway_started (moments : List Moment) (end_ : Nat) :
    underway (moments ++ [.started end_]) = some end_ := by
  simp [underway]

@[simp] theorem underway_ended (moments : List Moment) (end_ length : Nat) :
    underway (moments ++ [.ended end_ length]) = none := by
  simp [underway]

/-- A call of `ProcessNextOperation` for the last operation that a state transfer is for, where the
next one is not known for a gap. -/
def Output.FallsShort : Output → Prop
  | .processing opnum end_ committedgaps => opnum + 1 = end_ ∧ end_ ∉ committedgaps
  | _ => False

instance (output : Output) : Decidable output.FallsShort := by
  cases output <;> unfold Output.FallsShort <;> infer_instance

namespace System

variable (d : Deployment)

/-- The state transfers of a replica are completed: their callbacks run in order, one that has not
been given up goes on only while operations are missing, and the timeout runs for no other. -/
structure Completes (s : System) (idx : Nat) : Prop where
  inOrder : InOrder (s.transfers idx)
  prompt : s.stopped idx = false → ∀ end_, underway (s.transfers idx) = some end_ →
    (s.replicas idx).stateTransferOpEnd = end_ → (s.replicas idx).lastOp < end_ - 1
  timeout : s.stopped idx = false → underway (s.transfers idx) = none →
    (s.replicas idx).stateTransferTimeout = false

/-- Whenever the last operation that a state transfer is for is put into the log, the next one is a
known gap. -/
def Passes (s : System) (action : Action) : Prop := ∀ output ∈ s.outputs d action, ¬ output.FallsShort

instance (s : System) (action : Action) : Decidable (s.Passes d action) :=
  inferInstanceAs (Decidable (∀ output ∈ s.outputs d action, ¬ output.FallsShort))

end System

/-! ## Moves -/

/-- What the moments of a replica have to do with its core. -/
structure Tracks (moments : List Moment) (c : Core) : Prop where
  inOrder : InOrder moments
  length : c.log.entries.length ≤ c.lastOp
  positive : ∀ end_, underway moments = some end_ → 0 < end_
  same : ∀ end_, underway moments = some end_ →
    c.stateTransferOpEnd = 0 ∨ c.stateTransferOpEnd = end_
  idle : underway moments = none →
    c.stateTransferOpEnd = 0 ∨ c.stateTransferOpEnd ≤ c.lastOp ∨ c.Torn
  behind : ∀ end_, underway moments = some end_ → c.stateTransferOpEnd = end_ →
    c.Torn ∨ c.lastOp + 1 < end_ ∨ c.lastOp + 1 = end_ ∧ end_ ∈ c.committedGaps
  timeout : c.stateTransferTimeout = true → underway moments ≠ none

variable {o : Occasion} {c next : Core} {moments : List Moment} {outputs : List Output}

/-- A core with the same transfer, a log of the same length and no fewer gaps. -/
theorem Tracks.frame (tracks : Tracks moments c)
    (length : next.log.entries.length = c.log.entries.length) (lastOp : next.lastOp = c.lastOp)
    (end_ : next.stateTransferOpEnd = c.stateTransferOpEnd)
    (grow : ∀ gap ∈ c.committedGaps, gap ∈ next.committedGaps)
    (timeout : next.stateTransferTimeout = c.stateTransferTimeout) : Tracks moments next := by
  have torn : next.Torn ↔ c.Torn := by
    unfold Core.Torn
    rw [length, lastOp]
  constructor
  · exact tracks.inOrder
  · rw [length, lastOp]
    exact tracks.length
  · exact tracks.positive
  · rw [end_]
    exact tracks.same
  · rw [end_, lastOp, torn]
    exact tracks.idle
  · rw [end_, lastOp, torn]
    intro transferEnd running same
    refine (tracks.behind transferEnd running same).imp_right (Or.imp_right ?_)
    exact fun ⟨reached, known⟩ => ⟨reached, grow transferEnd known⟩
  · rw [timeout]
    exact tracks.timeout

/-- A replica that gives its state transfer up. -/
theorem Tracks.giveUp (tracks : Tracks moments c) (length : next.log = c.log)
    (lastOp : next.lastOp = c.lastOp) (end_ : next.stateTransferOpEnd = 0)
    (timeout : next.stateTransferTimeout = false) : Tracks moments next := by
  constructor
  · exact tracks.inOrder
  · rw [length, lastOp]
    exact tracks.length
  · exact tracks.positive
  · exact fun _ _ => .inl end_
  · exact fun _ => .inl end_
  · intro transferEnd running same
    have positive := tracks.positive transferEnd running
    omega
  · rw [timeout]
    exact fun none_ => nomatch none_

/-- A replica that starts a state transfer. -/
theorem Tracks.start (tracks : Tracks moments c) (length : next.log = c.log)
    (lastOp : next.lastOp = c.lastOp) (behind : c.lastOp + 1 < next.stateTransferOpEnd) :
    Tracks (moments ++ [.started next.stateTransferOpEnd]) next := by
  constructor
  · exact .started tracks.inOrder
  · rw [length, lastOp]
    exact tracks.length
  · intro end_ running
    obtain rfl : next.stateTransferOpEnd = end_ := by simpa using running
    omega
  · intro end_ running
    exact .inr (by simpa using running)
  · intro none_
    simp at none_
  · intro end_ running _
    obtain rfl : next.stateTransferOpEnd = end_ := by simpa using running
    rw [lastOp]
    exact .inr (.inl behind)
  · simp

/-- A mark of an execution marks no moment of a state transfer. -/
theorem Output.Executes.moment {output : Output} (executes : output.Executes) :
    NoPaxos.moment output = none := by
  cases output with
  | executed | repeated => rfl
  | _ => exact absurd executes id

/-- An operation with the replies to it marks nothing. -/
theorem moments_processing {opnum end_ : Nat} {gaps : List Nat}
    (replies : ∀ output ∈ outputs, Replies c output) :
    (Output.processing opnum end_ gaps :: outputs).filterMap moment = [] := by
  rw [List.filterMap_eq_nil_iff]
  intro output member
  rcases List.mem_cons.mp member with rfl | reply
  · rfl
  · rcases replies output reply with ⟨clientid, addr, msg, -, rfl⟩ | executes
    · rfl
    · exact executes.moment

/-- Only what starts or ends a state transfer marks it. -/
theorem moments_asking (c : Core) (asked : Bool) :
    (c.asking asked).filterMap moment = [.started c.stateTransferOpEnd] := by
  cases asked <;> rfl

/-- A log that an operation is put into is not torn, neither before nor after. -/
theorem not_torn_append {vs : Viewstamp} {request : Request} {state : LogEntryState} {log : Log}
    (next : vs.opnum = c.lastOp + 1) (appended : c.log.append vs request state = some log) :
    ¬ c.Torn ∧ log.entries.length = vs.opnum := by
  obtain ⟨atEnd, entries⟩ := Log.of_append appended
  constructor
  · unfold Core.Torn
    omega
  · rw [entries, List.length_append, List.length_singleton, atEnd]

/-- An operation that is not the one with which a state transfer is found complete. -/
theorem Tracks.append {vs : Viewstamp} {request : Request} {state : LogEntryState} {log : Log}
    (tracks : Tracks moments c) (next : vs.opnum = c.lastOp + 1)
    (appended : c.log.append vs request state = some log) (inside : vs.opnum ≠ c.stateTransferOpEnd)
    (passes : ¬ (vs.opnum + 1 = c.stateTransferOpEnd ∧ c.stateTransferOpEnd ∉ c.committedGaps)) :
    Tracks moments (c.appended vs log state) := by
  obtain ⟨whole, length⟩ := not_torn_append next appended
  have grow : ∀ gap ∈ c.committedGaps, gap ∈ (c.appended vs log state).committedGaps := by
    intro gap member
    unfold Core.appended
    dsimp only
    split
    next => exact OpnumSet.mem_insert.mpr (.inr member)
    next => exact member
  constructor
  · exact tracks.inOrder
  · exact length.le
  · exact tracks.positive
  · exact tracks.same
  · intro none_
    refine (tracks.idle none_).imp_right fun reached => .inl ?_
    have le := reached.resolve_right whole
    change c.stateTransferOpEnd ≤ vs.opnum
    omega
  · intro end_ running same
    change c.stateTransferOpEnd = end_ at same
    have before := (tracks.behind end_ running same).resolve_left whole
    change _ ∨ vs.opnum + 1 < end_ ∨ vs.opnum + 1 = end_ ∧ _
    have room : vs.opnum + 1 < end_ ∨ vs.opnum + 1 = end_ := by omega
    refine .inr (room.imp_right fun reached => ⟨reached, grow end_ ?_⟩)
    by_contra missing
    rw [← same] at reached missing
    exact passes ⟨reached, missing⟩
  · exact tracks.timeout

/-- The operation with which a state transfer is found complete. -/
theorem Tracks.appendLast {vs : Viewstamp} {request : Request} {state : LogEntryState} {log : Log}
    (tracks : Tracks moments c) (next : vs.opnum = c.lastOp + 1)
    (appended : c.log.append vs request state = some log) (last : vs.opnum = c.stateTransferOpEnd) :
    Tracks (moments ++ [.ended c.stateTransferOpEnd log.entries.length])
      { c.appended vs log state with stateTransferTimeout := false } := by
  obtain ⟨whole, length⟩ := not_torn_append next appended
  have running : underway moments = some c.stateTransferOpEnd := by
    cases running : underway moments with
    | none =>
        rcases tracks.idle running with zero | reached | torn
        · omega
        · omega
        · exact absurd torn whole
    | some end_ =>
        rcases tracks.same end_ running with zero | same
        · omega
        · rw [same]
  constructor
  · refine .ended tracks.inOrder running ?_
    omega
  · exact length.le
  · simp
  · simp
  · intro _
    exact .inr (.inl last.ge)
  · simp
  · simp

/-- A rewound log is torn, until entries follow. -/
theorem Tracks.rewind {opnum : Nat} {log : Log} (tracks : Tracks moments c)
    (removed : c.log.removeAfter opnum = some log) :
    Tracks moments
      { c with lastOp := opnum, log := log, nextMsgnum := log.lastViewstamp.msgnum + 1 } := by
  have torn : log.entries.length < opnum := Log.length_removeAfter removed
  constructor
  · exact tracks.inOrder
  · exact torn.le
  · exact tracks.positive
  · exact tracks.same
  · exact fun _ => .inr (.inr torn)
  · exact fun _ _ _ => .inl torn
  · exact tracks.timeout

/-- No gap that is forgotten was about to end a state transfer. -/
theorem Tracks.forget (tracks : Tracks moments c)
    (drained : c.lastOp + 1 ∉ c.committedGaps ∨ c.Torn) :
    Tracks moments { c with committedGaps := {} } := by
  constructor
  · exact tracks.inOrder
  · exact tracks.length
  · exact tracks.positive
  · exact tracks.same
  · exact tracks.idle
  · intro end_ running same
    rcases tracks.behind end_ running same with torn | before | ⟨reached, known⟩
    · exact .inl torn
    · exact .inr (.inl before)
    · exact .inl (drained.resolve_left (not_not.mpr (reached ▸ known)))
  · exact tracks.timeout

/-- Every move that does not fall short keeps track of the state transfers. -/
theorem Tracks.moved (tracks : Tracks moments c) (moved : Move o c outputs next)
    (passes : ∀ output ∈ outputs, ¬ output.FallsShort) :
    Tracks (moments ++ outputs.filterMap moment) next := by
  have frame : ∀ {next : Core}, next.log.entries.length = c.log.entries.length →
      next.lastOp = c.lastOp → next.stateTransferOpEnd = c.stateTransferOpEnd →
      (∀ gap ∈ c.committedGaps, gap ∈ next.committedGaps) →
      next.stateTransferTimeout = c.stateTransferTimeout → Tracks (moments ++ []) next := by
    intro next length lastOp end_ grow timeout
    rw [List.append_nil]
    exact tracks.frame length lastOp end_ grow timeout
  have giveUp : ∀ {next : Core}, next.log = c.log → next.lastOp = c.lastOp →
      next.stateTransferOpEnd = 0 → next.stateTransferTimeout = false →
      Tracks (moments ++ []) next := by
    intro next log lastOp end_ timeout
    rw [List.append_nil]
    exact tracks.giveUp log lastOp end_ timeout
  cases moved with
  | append next appended replies inside =>
      rw [moments_processing replies, List.append_nil]
      exact tracks.append next appended inside (passes _ List.mem_cons_self)
  | appendLast next appended replies last =>
      rw [List.filterMap_append, moments_processing replies]
      exact tracks.appendLast next appended last
  | refuse replies =>
      rw [moments_processing replies, List.append_nil]
      exact tracks
  | execute executes =>
      rw [List.filterMap_cons, executes.moment, List.filterMap_nil, List.append_nil]
      exact tracks
  | learn => exact frame rfl rfl rfl (fun _ member => OpnumSet.mem_insert.mpr (.inr member)) rfl
  | strike => exact frame (Log.length_setStatus _ _) rfl rfl (fun _ member => member) rfl
  | forget drained => exact (List.append_nil moments).symm ▸ tracks.forget drained
  | rewind removed => exact (List.append_nil moments).symm ▸ tracks.rewind removed
  | mergeTransfer elected behind transferring =>
      subst transferring
      rw [moments_asking]
      exact tracks.start rfl rfl (Nat.succ_lt_succ behind)
  | followTransfer follows behind transferring =>
      subst transferring
      rw [moments_asking]
      exact tracks.start rfl rfl (Nat.succ_lt_succ behind)
  | syncTransfer follower behind transferring =>
      subst transferring
      rw [moments_asking]
      exact tracks.start rfl rfl (Nat.succ_lt_succ behind)
  | change | mergeEnter | follow | finish => exact giveUp rfl rfl rfl rfl
  | _ => exact frame rfl rfl rfl (fun _ member => member) rfl

/-- Moves that do not fall short keep track of the state transfers. -/
theorem Tracks.moves (tracks : Tracks moments c) (moves : Moves (Move o) c outputs next)
    (passes : ∀ output ∈ outputs, ¬ output.FallsShort) :
    Tracks (moments ++ outputs.filterMap moment) next := by
  induction moves with
  | refl => rwa [List.filterMap_nil, List.append_nil]
  | step _ moved inductionHypothesis =>
      rw [List.filterMap_append, ← List.append_assoc]
      have before := inductionHypothesis fun output member =>
        passes output (List.mem_append_left _ member)
      exact before.moved moved fun output member => passes output (List.mem_append_right _ member)

/-! ## Runs -/

namespace System

variable {d : Deployment} {s next : System}

/-- What every replica's moments have to do with its core. -/
structure Transfers (s : System) : Prop where
  inOrder : ∀ idx, InOrder (s.transfers idx)
  tracks : ∀ idx, s.stopped idx = false → Tracks (s.transfers idx) (s.replicas idx).core

/-- A step that does not fall short keeps track of the state transfers of all replicas. -/
theorem Transfers.shifts {action : Action} (transfers : s.Transfers) (passes : s.Passes d action)
    (shifts : s.Shifts d action next) : next.Transfers := by
  cases shifts with
  | @ran idx outcome last ran outputs =>
      have complete : ∀ output ∈ outcome.outputs, ¬ output.FallsShort := by
        rw [outputs]
        exact passes
      have tracks : Tracks (s.transfers idx ++ outcome.outputs.filterMap moment) last :=
        (transfers.tracks idx ran.running).moves ran.moves complete
      constructor
      · intro other
        rcases eq_or_ne other idx with rfl | different
        · simp only [absorb, Function.update_self]
          exact tracks.inOrder
        · simp only [absorb, Function.update_of_ne different]
          exact transfers.inOrder other
      · intro other running
        rcases eq_or_ne other idx with rfl | different
        · simp only [absorb, Function.update_self] at running ⊢
          exact (ran.ended running).1 ▸ tracks
        · simp only [absorb, Function.update_of_ne different] at running ⊢
          exact transfers.tracks other running
  | asked asked =>
      constructor
      · rw [asked.transfers]
        exact transfers.inOrder
      · intro idx running
        rw [asked.stopped] at running
        rw [asked.transfers, asked.replicas]
        exact transfers.tracks idx running

/-- For as long as the operation with the number of the end is known for a gap whenever the last
operation that a state transfer is for is put into the log, every replica completes its
transfers. -/
theorem completes_of_passes (reachable : (system d).Reachable (Passes d) s) (idx : Nat) :
    s.Completes idx := by
  have initially : (initial d).Transfers := by
    constructor
    · exact fun _ => .nil
    · intro idx _
      constructor <;> simp [initial, Replica.core, Replica.constructed, underway, InOrder.nil]
  have transfers : s.Transfers :=
    of_shifts initially (fun passes _ transfers shifts => transfers.shifts passes shifts) reachable
  have ready : s.AllReady d :=
    (invariant_allReady d).of_reachable (reachable.imp fun _ _ _ => trivial)
  constructor
  · exact transfers.inOrder idx
  · intro running end_ transferring same
    have tracks := transfers.tracks idx running
    have rests := (ready idx running).rests
    rcases tracks.behind end_ transferring same with torn | before | ⟨reached, known⟩
    · have positive := tracks.positive end_ transferring
      have ahead := rests.ahead torn
      change (s.replicas idx).stateTransferOpEnd = 0 ∨
        (s.replicas idx).lastOp + 1 < (s.replicas idx).stateTransferOpEnd at ahead
      omega
    · exact Nat.lt_sub_of_add_lt before
    · rw [← reached] at known
      exact absurd known rests.drained
  · intro running ended
    have timeout := (transfers.tracks idx running).timeout
    change (s.replicas idx).stateTransferTimeout = true → _ at timeout
    by_contra waiting
    exact timeout (by simpa using waiting) ended

/-! ## A transfer that nobody ends -/

/-- The leader has a request and a gap after it. Replica 2 is told of the gap before it is told of
the older sync point, and asks for the request. -/
def gappedRun : List Action :=
  ask 0 1 [0, 1] ++ deliveries [0, 1] ++ [.timer 0 .sync {}] ++ ask 0 3 [0] ++ deliveries [6] ++
    [.timer 0 .startGapRequest {}, .timer 0 .gapRequest {}] ++ deliveries [9, 11, 10, 5, 13, 14]

/-- The gap follows the request, and ends the state transfer of replica 2. -/
theorem completes_gappedRun : ∃ s : System, s.transfers 2 = [.started 2, .ended 2 2] ∧
    s.Completes 2 := by
  obtain ⟨s, reachable, ended⟩ := (system trio).exists_reachable_of_run (Passes trio)
    (fun s => decide (s.transfers 2 = [.started 2, .ended 2 2])) gappedRun rfl (by decide +kernel)
  exact ⟨s, of_decide_eq_true ended, completes_of_passes reachable 2⟩

/-- The leader has a request. Replica 2 is told of the sync point, asks for the request and gets
it. -/
def laggingRun : List Action :=
  ask 0 1 [0] ++ deliveries [0] ++ [.timer 0 .sync {}] ++ deliveries [3, 4, 5]

/-- Nothing is missing at replica 2, but its state transfer goes on. -/
theorem not_completes_laggingRun : ¬ ∀ (d : Deployment) (s : System) (idx : Nat),
    (system d).Reachable TransitionSystem.unguarded s → s.Completes idx := by
  intro always
  obtain ⟨s, reachable, outcome⟩ := (system trio).exists_reachable_of_run
    TransitionSystem.unguarded
    (fun s => decide (s.stopped 2 = false ∧ underway (s.transfers 2) = some 2 ∧
      (s.replicas 2).stateTransferOpEnd = 2 ∧ (s.replicas 2).lastOp = 1)) laggingRun rfl
    (by decide +kernel)
  obtain ⟨running, transferring, end_, lastOp⟩ := of_decide_eq_true outcome
  have behind := (always trio s 2 reachable).prompt running 2 transferring end_
  omega

end System

end PaxosBus.NoPaxos

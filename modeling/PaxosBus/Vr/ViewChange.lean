import PaxosBus.Vr.Definedness
import PaxosBus.Vr.Transfer

/-!
# View changes

A replica votes for a view with the log it was last active with. A leader that
selects its own log, because no vote has one that ends in a later entry, has the
log that the view may start from where that is also the log of a voter that was
last active in the latest view, and the others adopt it.
-/

set_option autoImplicit false

namespace PaxosBus.Vr

open PaxosBus.Common PaxosBus.Library World
open Logic (Meets)
open Std (TreeMap)

variable {setup : Setup} {admits : Admission} {w : World setup.configuration admits} {r : Replica}
  {app : App} {undefined : Undefined}

/-! ## Joining a view change -/

/-- The replica leaves its view for a later one, with the log that it has. -/
theorem startViewChange_meets (recorded : r.Recorded w setup.replicaIdx)
    (engaged : r.core.Engaged w setup.replicaIdx) {newview : Nat} (later : r.view < newview) :
    (setup.logic admits).Meets (startViewChange setup newview) w r fun _ w' r' =>
      w' = w ∧ r'.core = { r.core with view := newview, status := .viewChange } ∧
        r'.core.Changing w setup.replicaIdx := by
  have normalLe : r.normalView ≤ r.view := engaged.normalView_le
  have fenceLe : r.fence ≤ r.view := engaged.fence_le
  unfold startViewChange
  refine .bind (.change recorded fun _ => ?_)
  refine .bind (.get recorded fun _ => ?_)
  refine .emit recorded trivial ⟨rfl, rfl, ?_⟩
  exact {
    placed := { engaged.placed with collected := { engaged.placed.collected with } }
    status := rfl
    view := by
      change r.normalView < newview
      omega
    fence := by
      change r.fence ≤ newview
      omega
    leader := fun same => by
      change r.fence = newview at same
      omega }

/-- A replica that is changing to a view votes for it, or has done so with what it has. -/
theorem Core.Changing.exists_vote (recorded : r.Recorded w setup.replicaIdx)
    (changing : r.core.Changing w setup.replicaIdx) :
    ∃ w' : World setup.configuration admits, Later setup.replicaIdx w w' ∧
      w'.logs.ballot r.view setup.replicaIdx = some r.normalView ∧
      w'.logs.logIn = w.logs.logIn ∧ w'.logs.normalView = w.logs.normalView ∧
      w'.logs.fence setup.replicaIdx = r.view := by
  have normalLt : r.normalView < r.view := changing.view
  have fenceLe : r.fence ≤ r.view := changing.fence
  rcases Nat.lt_or_eq_of_le fenceLe with unfenced | voted
  · obtain ⟨w', same, later⟩ := exists_later (.vote r.view
      (show w.logs.fence setup.replicaIdx < r.view from recorded.2 ▸ unfenced))
    refine ⟨w', later, ?_, ?_, ?_, ?_⟩
    · simp [same, ViewLogs.vote, recorded.1]
    · rw [same]
      rfl
    · rw [same]
      rfl
    · simp [same, ViewLogs.vote]
  · refine ⟨w, .refl, ?_, rfl, rfl, recorded.2.trans voted⟩
    have standing := w.sound.standing setup.replicaIdx (by
      rw [recorded.1, recorded.2, voted]
      exact normalLt)
    rwa [recorded.1, recorded.2, voted] at standing

/-- A log whose end from `max from_ 1` on is empty is empty, if `from_` is within it. -/
theorem eq_nil_of_dump {log : Log Unit} (start : log.start = 1) {from_ : Nat}
    (inside : from_ ≤ log.entries.length) (empty : log.dump from_ = []) :
    log.entries.length = 0 := by
  unfold Log.dump at empty
  rw [List.drop_eq_nil_iff, start] at empty
  omega

/-- The vote carries the log, and no older view can get an acknowledgement after it. -/
theorem countStartViewChange_meets (inGroup : setup.replicaIdx < setup.configuration.n)
    (recorded : r.Recorded w setup.replicaIdx) (changing : r.core.Changing w setup.replicaIdx)
    {msg : StartViewChangeMessage} :
    (setup.logic admits).Meets (countStartViewChange setup undefined msg) w r fun _ w' r' =>
      r'.core.Engaged w' setup.replicaIdx := by
  unfold countStartViewChange
  refine .bind (.get recorded fun _ => ?_)
  refine .bind (.require recorded fun _ _ => ?_)
  dsimp only [QuorumSet.addAndCheckForQuorum]
  refine .bind (.change recorded fun _ => ?_)
  split
  next => exact .pure recorded (.inr changing)
  next msgs _ =>
      refine .branch (fun notLeader => ?_) (fun _ => .pure recorded (.inr changing))
      obtain ⟨w', moves, voted, logIn, normalView, fence⟩ := changing.exists_vote recorded
      have placed : r.core.Placed w' setup.replicaIdx :=
        changing.placed.frame moves.grows (congrFun logIn _)
      have keeps : ({ r with fence := r.view } : Replica).Recorded w' setup.replicaIdx :=
        ⟨(congrFun normalView _).trans recorded.1, fence⟩
      have changingNow : ({ r.core with fence := r.view } : Core).Changing w' setup.replicaIdx := {
        placed := { placed with collected := { placed.collected with } }
        status := changing.status
        view := changing.view
        fence := Nat.le_refl _
        leader := fun _ => notLeader }
      refine .bind (.modify moves keeps fun _ => ?_)
      refine .emit keeps ?_ (.inr changingNow)
      have held : w'.logs.logIn setup.replicaIdx r.normalView = r.log.operations :=
        placed.log.symm
      exact {
        sender := inGroup
        voted := voted
        ranked := by
          rw [held]
          exact r.log.lastViewstamp_view
        length := by
          rw [held]
          exact placed.length_operations.symm
        nonempty := fun empty => by
          have lastOp : r.lastOp = r.log.entries.length := placed.lastOp
          have committedLe : r.lastCommitted ≤ r.lastOp := placed.committed_le
          exact lastOp.trans (eq_nil_of_dump placed.start (by omega) empty) }

/-- A replica that takes part is in the view change, or joins it first. -/
theorem handleStartViewChange_meets (inGroup : setup.replicaIdx < setup.configuration.n)
    (recorded : r.Recorded w setup.replicaIdx) (engaged : r.core.Engaged w setup.replicaIdx)
    {msg : StartViewChangeMessage} :
    (setup.logic admits).Meets (handleStartViewChange setup undefined msg) w r fun _ w' r' =>
      r'.core.Engaged w' setup.replicaIdx := by
  unfold handleStartViewChange
  refine .bind (.get recorded fun _ => ?_)
  refine .branch (fun _ => .pure recorded engaged) (fun notStale => ?_)
  refine .branch (fun _ => .pure recorded engaged) (fun attends => ?_)
  refine .branch (fun joins => ?_) (fun joined => ?_)
  · have later : r.view < msg.view := by
      rcases joins with normal | later
      · by_contra notLater
        exact attends ⟨by omega, normal⟩
      · exact later
    refine .bind ((startViewChange_meets recorded engaged later).imp ?_)
    rintro _ _ after keeps ⟨rfl, -, changing⟩ _
    exact countStartViewChange_meets inGroup keeps changing
  · push Not at joined
    rcases engaged with active | changing
    · exact absurd (active.normal.symm.trans joined.1) (by decide)
    · exact countStartViewChange_meets inGroup recorded changing

/-! ## Selecting a log -/

/-- A replica has voted for a view with the standing. -/
structure Bears (w : World setup.configuration admits) (view voter : Nat) (standing : Standing) :
    Prop where
  voted : w.logs.ballot view voter = some standing.normalView
  ranked : standing.lastnormalview = lastView (w.logs.logIn voter standing.normalView)
  length : standing.lastop = (w.logs.logIn voter standing.normalView).length

/-- The log that a replica has voted with is one to be active with. -/
theorem Bears.within {view voter : Nat} {standing : Standing} (bears : Bears w view voter standing) :
    w.Within standing.normalView (w.logs.logIn voter standing.normalView) := by
  obtain ⟨-, -, -, ⟨base, started, above⟩, -⟩ := w.sound.balloted view voter _ bears.voted
  exact ⟨base, started, above, w.sound.followed voter _⟩

/-- Two logs that end in entries of one view at one place are the same. -/
theorem eq_of_lastView {view view' : Nat} {log log' : List Operation}
    (within : w.Within view log) (within' : w.Within view' log')
    (length : log.length = log'.length) (last : lastView log = lastView log') : log = log' := by
  rcases Nat.eq_zero_or_pos log.length with none_ | some_
  · rw [List.eq_nil_of_length_eq_zero none_,
      List.eq_nil_of_length_eq_zero (length.symm.trans none_)]
  have found : log[log.length - 1]? = some (log.get ⟨log.length - 1, by omega⟩) :=
    List.getElem?_eq_getElem (by omega)
  have found' : log'[log.length - 1]? = some (log'.get ⟨log.length - 1, by omega⟩) :=
    List.getElem?_eq_getElem (by omega)
  unfold lastView at last
  rw [List.getLast?_eq_getElem?, List.getLast?_eq_getElem?, found, ← length, found'] at last
  have agree := ViewLogs.Matched.take_eq (w.sound.matched_within within)
    (w.sound.matched_within within') found found' last
  rwa [List.take_of_length_le (by omega), List.take_of_length_le (by omega)] at agree

/-- The log that is first in the ranking of the code is the log of a voter that is first by the
last active view, if some vote is first in both rankings. -/
theorem Bears.log_eq {view voter other : Nat} {selected best : Standing}
    (bears : Bears w view voter selected) (bears' : Bears w view other best)
    (behind : best.RankedBehind selected) (behind' : selected.RankedBehind best) :
    w.logs.logIn voter selected.normalView = w.logs.logIn other best.normalView := by
  unfold Standing.RankedBehind at behind behind'
  refine eq_of_lastView bears.within bears'.within ?_ ?_
  · rw [← bears.length, ← bears'.length]
    omega
  · rw [← bears.ranked, ← bears'.ranked]
    omega

/-- A leader that is first in its fence can start its view with the log that is first in the
ranking of the code, if some vote of a majority is first in both rankings. -/
theorem exists_start {view voter : Nat} (voters : Finset Nat) {standings : List Standing}
    {selected : Standing} (leads : setup.AmLeader view)
    (fence : w.logs.fence setup.replicaIdx = view)
    (inactive : w.logs.normalView setup.replicaIdx < view)
    (within : voters ⊆ Finset.range setup.configuration.n)
    (quorum : setup.configuration.f + 1 ≤ voters.card)
    (borne : ∀ voter ∈ voters, ∃ standing ∈ standings, Bears w view voter standing)
    (covered : ∀ standing ∈ standings, ∃ voter ∈ voters, Bears w view voter standing)
    (agree : Standing.Agree standings) (inStandings : selected ∈ standings)
    (first : ∀ other ∈ standings, other.RankedBehind selected)
    (bears : Bears w view voter selected) :
    ∃ w' : World setup.configuration admits, Later setup.replicaIdx w w' ∧
      w'.logs.base view = some (w.logs.logIn voter selected.normalView) ∧
      w'.logs.logIn setup.replicaIdx view = w.logs.logIn voter selected.normalView ∧
      w'.logs.normalView setup.replicaIdx = view ∧ w'.logs.fence setup.replicaIdx = view := by
  obtain ⟨best, bestIn, ahead⟩ := agree
  obtain ⟨bestVoter, bestVotes, bestBears⟩ := covered best bestIn
  have elected : w.logs.Elected (group setup.configuration admits) view voters bestVoter
      best.normalView := {
    within := within
    quorum := quorum
    voted := fun other votes => by
      obtain ⟨standing, -, bears⟩ := borne other votes
      exact ⟨standing.normalView, bears.voted⟩
    bestIn := bestVotes
    bestVoted := bestBears.voted
    mostAdvanced := fun other votes normal voted => by
      obtain ⟨standing, inList, bears⟩ := borne other votes
      obtain rfl : standing.normalView = normal := Option.some.inj (bears.voted.symm.trans voted)
      rw [← bears.length, ← bestBears.length]
      exact (ahead standing inList).2 }
  have same := bears.log_eq bestBears (first best bestIn) (ahead selected inStandings).1
  obtain ⟨w', started, later⟩ := exists_later
    (ViewLogs.Step.start view voters bestVoter best.normalView leads fence inactive elected)
  rw [← same] at started
  refine ⟨w', later, ?_, ?_, ?_, ?_⟩
  · simp [started, ViewLogs.start]
  · rw [started]
    exact (ViewLogs.logIn_adopt _ _).trans (if_pos ⟨rfl, rfl⟩)
  · simp [started, ViewLogs.start, ViewLogs.adopt]
  · simp [started, ViewLogs.start, ViewLogs.adopt]

/-! ## Installing a log -/

/-- A log that is installed over a replica's own, from a number up to which the replica has
committed, is the installed one. -/
theorem Core.Placed.operations_install (balanced : setup.configuration.Balanced)
    (recorded : r.Recorded w setup.replicaIdx) (placed : r.core.Placed w setup.replicaIdx)
    {view from_ : Nat} {target : List Operation} {entries : List Entry} {cut log : Log Unit}
    (within : w.Within view target) (decided : w.Decided view from_)
    (window : Window target 1 from_ entries) (inside : from_ ≤ target.length)
    (committed : from_ ≤ r.lastCommitted)
    (removed : r.log.removeAfter (target.length + 1) = some cut)
    (installed : cut.install entries = some log) : log.start = 1 ∧ log.operations = target := by
  have start : r.log.start = 1 := placed.start
  have own := placed.within recorded
  have long : from_ ≤ r.log.operations.length := by
    rw [placed.length_operations]
    exact committed.trans placed.committed_le
  have agree : r.log.operations.take from_ = target.take from_ :=
    Decided.take_eq balanced (placed.committed.mono (Nat.le_refl _) committed) own long
      decided within inside
  obtain ⟨startCut, operationsCut⟩ := Log.of_removeAfter removed
  rw [start, Nat.add_sub_cancel] at operationsCut
  rw [start] at startCut
  rw [← startCut] at window
  obtain ⟨startLog, operations⟩ : log.start = cut.start ∧ log.operations = target := by
    refine Log.operations_install ?_ window ?_ ?_ installed
    · rw [← Log.length_operations, operationsCut, List.length_take]
      omega
    · rw [operationsCut, List.take_take, min_eq_left inside, agree]
    · intro index mine theirs found foundToo same
      refine own.operation_eq within ?_ foundToo same
      rw [operationsCut, List.getElem?_take] at found
      split at found
      · exact found
      · simp at found
  exact ⟨startLog.trans startCut, operations⟩

/-! ## The leader of a new view -/

/-- The votes for the view that a replica is changing to. -/
def Votes (w : World setup.configuration admits) (r : Replica)
    (msgs : TreeMap Nat DoViewChangeMessage) : Prop :=
  ∀ (replicaIdx : Nat) (msg : DoViewChangeMessage), msgs[replicaIdx]? = some msg →
    msg.Valid w ∧ msg.view = r.view ∧ msg.replicaidx = replicaIdx

/-- The standings that the leader of a new view ranks. -/
def standings (r : Replica) (msgs : TreeMap Nat DoViewChangeMessage) : List Standing :=
  r.standing :: msgs.values.map DoViewChangeMessage.standing

/-- A replica's own standing is that of its vote. -/
theorem Core.Changing.bears (changing : r.core.Changing w setup.replicaIdx)
    {w' : World setup.configuration admits}
    (voted : w'.logs.ballot r.view setup.replicaIdx = some r.normalView)
    (logIn : w'.logs.logIn = w.logs.logIn) :
    Bears w' r.view setup.replicaIdx r.standing where
  voted := voted
  ranked := by
    rw [logIn]
    refine r.log.lastViewstamp_view.trans ?_
    exact congrArg lastView changing.placed.log
  length := by
    rw [logIn]
    refine (r.log.lastViewstamp_opnum changing.placed.start).trans ?_
    exact changing.placed.lastOp.symm.trans changing.placed.length_logIn.symm

/-- Nobody votes for a view that it leads. -/
theorem Core.Changing.not_voted (recorded : r.Recorded w setup.replicaIdx)
    (changing : r.core.Changing w setup.replicaIdx) (leads : setup.AmLeader r.view) {normal : Nat} :
    w.logs.ballot r.view setup.replicaIdx ≠ some normal := by
  intro voted
  obtain ⟨-, promised, -⟩ := w.sound.balloted _ _ _ voted
  rw [recorded.2] at promised
  have fenceLe : r.fence ≤ r.view := changing.fence
  exact changing.leader (Nat.le_antisymm fenceLe promised) leads

/-- A vote bears witness to what its sender had when it voted. -/
theorem Votes.bears {msgs : TreeMap Nat DoViewChangeMessage} (votes : Votes w r msgs)
    {msg : DoViewChangeMessage} {replicaIdx : Nat} (found : msgs[replicaIdx]? = some msg) :
    Bears w r.view replicaIdx msg.standing := by
  obtain ⟨valid, view, rfl⟩ := votes replicaIdx msg found
  exact ⟨view ▸ valid.voted, valid.ranked, valid.length⟩

/-- Votes do not grow old. -/
theorem Votes.grows {msgs : TreeMap Nat DoViewChangeMessage} (votes : Votes w r msgs)
    {w' : World setup.configuration admits} (grows : ViewLogs.Grows w.logs w'.logs) :
    Votes w' r msgs := by
  intro replicaIdx msg found
  obtain ⟨valid, rest⟩ := votes replicaIdx msg found
  exact ⟨valid.grows grows, rest⟩

/-- What does not outrank a log is behind it in the ranking of the code. -/
theorem rankedBehind_of_not_outranks {x : DoViewChangeMessage} {standing : Standing}
    (behind : ¬ Outranks x standing.lastnormalview standing.lastop) :
    x.standing.RankedBehind standing := by
  unfold Outranks at behind
  change x.lastnormalview < _ ∨ x.lastnormalview = _ ∧ x.lastop ≤ _
  omega

/-- The log that the leader of a new view has is first in the ranking of the code if no vote
outranks it. -/
theorem first_of_behind {msgs : TreeMap Nat DoViewChangeMessage}
    (behind : ∀ x ∈ msgs.values, ¬ Outranks x r.log.lastViewstamp.view r.log.lastViewstamp.opnum)
    {other : Standing} (inList : other ∈ standings r msgs) : other.RankedBehind r.standing := by
  rcases List.mem_cons.mp inList with rfl | inVotes
  · exact .inr ⟨rfl, Nat.le_refl _⟩
  · obtain ⟨x, inValues, rfl⟩ := List.mem_map.mp inVotes
    exact rankedBehind_of_not_outranks (behind x inValues)

/-- A leader with enough votes, of which none outranks its log, can start its view with the log,
unless it ranks the votes wrongly. -/
theorem Core.Changing.exists_started (inGroup : setup.replicaIdx < setup.configuration.n)
    (recorded : r.Recorded w setup.replicaIdx) (changing : r.core.Changing w setup.replicaIdx)
    (leads : setup.AmLeader r.view) {msgs : TreeMap Nat DoViewChangeMessage}
    (votes : Votes w r msgs) (enough : setup.configuration.f ≤ msgs.size)
    (agree : Standing.Agree (standings r msgs))
    (behind : ∀ x ∈ msgs.values,
      ¬ Outranks x r.log.lastViewstamp.view r.log.lastViewstamp.opnum) :
    ∃ w' : World setup.configuration admits, Later setup.replicaIdx w w' ∧
      w'.logs.base r.view = some r.log.operations ∧
      w'.logs.logIn setup.replicaIdx r.view = r.log.operations ∧
      w'.logs.normalView setup.replicaIdx = r.view ∧
      w'.logs.fence setup.replicaIdx = r.view := by
  obtain ⟨w₁, moves, voted, logIn, normalView, fence⟩ := changing.exists_vote recorded
  have own := changing.bears voted logIn
  have votesNow := votes.grows moves.grows
  have held : w₁.logs.logIn setup.replicaIdx r.normalView = r.log.operations := by
    rw [logIn]
    exact changing.placed.log.symm
  have outside : setup.replicaIdx ∉ senders msgs := by
    intro inside
    obtain ⟨msg, found⟩ := mem_senders.mp inside
    exact changing.not_voted recorded leads (votes.bears found).voted
  have inactive : w₁.logs.normalView setup.replicaIdx < r.view := by
    rw [normalView, recorded.1]
    exact changing.view
  have within : insert setup.replicaIdx (senders msgs) ⊆
      Finset.range setup.configuration.n := by
    intro other inVoters
    rw [Finset.mem_range]
    rcases Finset.mem_insert.mp inVoters with rfl | inSenders
    · exact inGroup
    · obtain ⟨msg, found⟩ := mem_senders.mp inSenders
      obtain ⟨valid, -, rfl⟩ := votes other msg found
      exact valid.sender
  have quorum : setup.configuration.f + 1 ≤ (insert setup.replicaIdx (senders msgs)).card := by
    rw [Finset.card_insert_of_notMem outside, card_senders]
    omega
  have borne : ∀ other ∈ insert setup.replicaIdx (senders msgs),
      ∃ standing ∈ standings r msgs, Bears w₁ r.view other standing := by
    intro other inVoters
    rcases Finset.mem_insert.mp inVoters with rfl | inSenders
    · exact ⟨r.standing, List.mem_cons_self, own⟩
    · obtain ⟨msg, found⟩ := mem_senders.mp inSenders
      refine ⟨msg.standing, ?_, votesNow.bears found⟩
      exact List.mem_cons_of_mem _ (List.mem_map_of_mem (mem_values.mpr ⟨other, found⟩))
  have covered : ∀ standing ∈ standings r msgs,
      ∃ other ∈ insert setup.replicaIdx (senders msgs), Bears w₁ r.view other standing := by
    intro standing inList
    rcases List.mem_cons.mp inList with rfl | inVotes
    · exact ⟨setup.replicaIdx, Finset.mem_insert_self _ _, own⟩
    · obtain ⟨msg, inValues, rfl⟩ := List.mem_map.mp inVotes
      obtain ⟨replicaIdx, found⟩ := mem_values.mp inValues
      refine ⟨replicaIdx, ?_, votesNow.bears found⟩
      exact Finset.mem_insert_of_mem (mem_senders.mpr ⟨msg, found⟩)
  obtain ⟨w', later, started⟩ := exists_start _ leads fence inactive within quorum borne covered
    agree List.mem_cons_self (fun _ => first_of_behind behind) own
  refine ⟨w', moves.trans later, ?_⟩
  rw [← held]
  exact started

/-- An active replica is decided up to what it has committed. -/
theorem Core.Active.committed (active : r.core.Active w setup.replicaIdx) :
    w.Decided r.view r.lastCommitted := by
  have decided := active.placed.committed
  rwa [active.view] at decided

/-- A leader whose log is the one its view started with can tell the others. -/
theorem Core.Active.startView_valid (active : r.core.Active w setup.replicaIdx)
    (base : w.logs.base r.view = some r.log.operations) (committed : Nat)
    (le : committed ≤ r.lastOp) :
    StartViewMessage.Valid w
      { view := r.view, lastop := r.lastOp, lastcommitted := r.lastCommitted,
        entries := r.log.dump committed } where
  base := by
    have window := r.log.window_dump committed
    rw [show r.log.start = 1 from active.placed.start] at window
    exact ⟨_, _, base, active.placed.length_operations.symm, window⟩
  committed := active.committed
  committed_le := active.placed.committed_le
  nonempty := fun empty => by
    have length : r.lastOp = r.log.entries.length := active.placed.lastOp
    exact length.trans (eq_nil_of_dump active.placed.start (length ▸ le) empty)

/-- The votes of a quorum decide what the view starts with. The handler goes on only where that is
the leader's own log. -/
theorem becomeLeader_meets (inGroup : setup.replicaIdx < setup.configuration.n)
    (recorded : r.Recorded w setup.replicaIdx) (changing : r.core.Changing w setup.replicaIdx)
    {msg : DoViewChangeMessage} (current : r.view = msg.view) (leads : setup.AmLeader msg.view)
    {msgs : TreeMap Nat DoViewChangeMessage} (votes : Votes w r msgs)
    (enough : setup.configuration.f ≤ msgs.size) (agree : Standing.Agree (standings r msgs)) :
    (setup.logic admits).Meets (becomeLeader setup undefined.stopping msg msgs) w r
      fun _ w' r' => r'.core.Active w' setup.replicaIdx := by
  have placed := changing.placed
  have start : r.log.start = 1 := placed.start
  have normalLt : r.normalView < r.view := changing.view
  unfold becomeLeader
  refine .bind (.get recorded fun _ => ?_)
  split
  next => exact .stop recorded
  next latestOp selected =>
      obtain ⟨rfl, behind⟩ := of_latest_none selected
      obtain ⟨w', moves, base, logIn, normalView, fence⟩ :=
        changing.exists_started inGroup recorded (current ▸ leads) votes enough agree behind
      have count : r.log.lastViewstamp.opnum = r.lastOp :=
        (r.log.lastViewstamp_opnum start).trans placed.lastOp.symm
      rw [count]
      have keeps : (r.enterView setup msg.view).Recorded w' setup.replicaIdx := by
        rw [← current]
        exact ⟨normalView, fence⟩
      have entered : ({ (r.enterView setup msg.view).core with lastOp := r.lastOp } : Core).Active
          w' setup.replicaIdx := by
        rw [← current]
        refine Core.Active.entered r r.lastOp start placed.lastOp ?_ ?_ placed.committed_le ?_
        · exact logIn
        · exact (placed.committed.grows moves.grows).mono normalLt.le (Nat.le_refl _)
        · exact { placed.collected.grows moves.grows with }
      have started : w'.logs.base msg.view = some (r.log.entries.map LogEntry.operation) := by
        rw [← current]
        exact base
      refine .bind (.modify moves keeps fun _ => ?_)
      refine .bind (.get keeps fun _ => ?_)
      refine .bind (.require keeps fun _ _ => ?_)
      refine .bind (.change keeps fun keepsEntered => ?_)
      refine .bind (.emit keepsEntered started fun _ => ?_)
      refine .bind (.get keepsEntered fun _ => ?_)
      refine .emit keepsEntered (entered.startView_valid started _ ?_) entered
      have committedLe : r.lastCommitted ≤ r.lastOp := placed.committed_le
      exact (min_le_right _ _).trans committedLe

/-- The vote is added to those that have come, and a quorum of them starts the view. -/
theorem countDoViewChange_meets (inGroup : setup.replicaIdx < setup.configuration.n)
    (recorded : r.Recorded w setup.replicaIdx) (changing : r.core.Changing w setup.replicaIdx)
    {msg : DoViewChangeMessage} (current : r.view = msg.view) (valid : msg.Valid w)
    (clear : ¬ r.Misranks msg) :
    (setup.logic admits).Meets (countDoViewChange setup undefined.stopping msg) w r fun _ w' r' =>
      r'.core.Engaged w' setup.replicaIdx := by
  unfold countDoViewChange
  refine .bind (.require recorded fun leads _ => ?_)
  refine .bind (.get recorded fun _ => ?_)
  dsimp only [QuorumSet.addAndCheckForQuorum]
  have collected := changing.placed.collected
  have added := collected.votes.add ⟨valid, rfl, rfl⟩
  have changingNow : ({ r.core with
      doViewChangeQuorum := r.doViewChangeQuorum.add msg.view msg.replicaidx msg } :
      Core).Changing w setup.replicaIdx :=
    { changing with placed := { changing.placed with collected := {
      collected with
      requiredVotes := collected.requiredVotes
      votes := added } } }
  refine .bind (.change recorded fun keeps => ?_)
  split
  next => exact .pure keeps (.inr changingNow)
  next msgs found =>
      obtain ⟨rfl, enough⟩ := QuorumSet.of_checkForQuorum found
      have votes : Votes w { r with
          doViewChangeQuorum := r.doViewChangeQuorum.add msg.view msg.replicaidx msg }
          ((r.doViewChangeQuorum.add msg.view msg.replicaidx msg).messages msg.view) := by
        intro replicaIdx other found
        obtain ⟨validOther, view, sender⟩ := added msg.view replicaIdx other found
        exact ⟨validOther, view.trans current.symm, sender⟩
      have agree : Standing.Agree (standings r
          ((r.doViewChangeQuorum.add msg.view msg.replicaidx msg).messages msg.view)) := by
        by_contra disagree
        exact clear ⟨.inr ⟨current.symm, changing.status⟩, enough, disagree⟩
      have required : r.doViewChangeQuorum.numRequired = setup.configuration.f :=
        collected.requiredVotes
      refine (becomeLeader_meets inGroup keeps changingNow current leads votes
        (required ▸ enough) agree).imp ?_
      exact fun _ _ _ _ active => .inl active

/-- A vote of a later view makes the replica join the view change before it is counted. -/
theorem handleDoViewChange_meets (inGroup : setup.replicaIdx < setup.configuration.n)
    (recorded : r.Recorded w setup.replicaIdx) (engaged : r.core.Engaged w setup.replicaIdx)
    {msg : DoViewChangeMessage} (valid : msg.Valid w) (clear : ¬ r.Misranks msg) :
    (setup.logic admits).Meets (handleDoViewChange setup undefined.stopping msg) w r fun _ w' r' =>
      r'.core.Engaged w' setup.replicaIdx := by
  unfold handleDoViewChange
  refine .bind (.get recorded fun _ => ?_)
  refine .branch (fun _ => .pure recorded engaged) (fun notStale => ?_)
  refine .branch (fun _ => .pure recorded engaged) (fun attends => ?_)
  refine .branch (fun joins => ?_) (fun joined => ?_)
  · have later : r.view < msg.view := by
      rcases joins with normal | later
      · by_contra notLater
        exact attends ⟨by omega, normal⟩
      · exact later
    refine .bind ((startViewChange_meets recorded engaged later).imp ?_)
    rintro _ _ after keeps ⟨rfl, same, changing⟩ _
    have quorum : after.doViewChangeQuorum = r.doViewChangeQuorum :=
      congrArg Core.doViewChangeQuorum same
    have standing : after.standing = r.standing :=
      congrArg (fun core : Core => Standing.mk core.log.lastViewstamp.view
        core.log.lastViewstamp.opnum core.normalView) same
    have clearAfter : ¬ after.Misranks msg := by
      rintro ⟨-, enough, disagree⟩
      rw [quorum] at enough disagree
      exact clear ⟨.inl later, enough, standing ▸ disagree⟩
    exact countDoViewChange_meets inGroup keeps changing (congrArg Core.view same) valid
      clearAfter
  · push Not at joined
    rcases engaged with active | changing
    · exact absurd (active.normal.symm.trans joined.1) (by decide)
    · exact countDoViewChange_meets inGroup recorded changing (by omega) valid clear

/-! ## The followers of a new view -/

/-- The log of the view replaces what differs from it, and is whole then. -/
theorem installStartView_meets (balanced : setup.configuration.Balanced)
    (recorded : r.Recorded w setup.replicaIdx) (placed : r.core.Placed w setup.replicaIdx)
    {msg : StartViewMessage} (later : r.normalView < msg.view) {target : List Operation}
    {from_ : Nat} (base : w.logs.base msg.view = some target) (count : msg.lastop = target.length)
    (window : Window target 1 from_ msg.entries)
    (nonempty : msg.entries = [] → msg.lastop = 0)
    (clear : msg.entries = [] → r.log.entries = []) :
    (setup.logic admits).Meets (installStartView msg) w r fun _ w' r' =>
      w' = w ∧ ∃ log, r' = { r with log := log } ∧ log.start = 1 ∧ log.operations = target := by
  unfold installStartView
  refine .bind (.get recorded fun _ => ?_)
  split
  next none_ =>
      refine .bind (.require recorded fun _ _ => ?_)
      refine .require recorded fun _ => ⟨rfl, r.log, rfl, placed.start, ?_⟩
      rw [List.eq_nil_of_length_eq_zero (count.symm.trans (nonempty none_))]
      exact congrArg (List.map LogEntry.operation) (clear none_)
  next first rest entries =>
      refine .bind (.require recorded fun near _ => ?_)
      refine .bind (.demand recorded fun cut removed _ => ?_)
      refine .bind (.demand recorded fun log installed _ => ?_)
      have number : first.viewstamp.opnum = 1 + from_ := by
        rw [entries] at window
        exact window.numbered.head
      have inside : from_ ≤ target.length := by
        have operations := window.operations
        rw [entries, List.map_cons] at operations
        have := congrArg List.length operations
        rw [List.length_cons, List.length_drop] at this
        omega
      have committed : from_ ≤ r.lastCommitted := by omega
      rw [count] at removed
      have decided : w.Decided msg.view from_ := placed.committed.mono later.le committed
      obtain ⟨start, operations⟩ := placed.operations_install balanced recorded
        ⟨target, base, List.prefix_rfl, w.sound.extended _ _ base⟩ decided window inside committed
        removed installed
      exact .change recorded ⟨rfl, log, rfl, start, operations⟩

/-- A replica that attends to a view has not been active in it or a later one. -/
theorem Core.Engaged.normalView_lt (engaged : r.core.Engaged w setup.replicaIdx) {view : Nat}
    (attends : r.Attends view) : r.normalView < view := by
  have normalLe : r.normalView ≤ r.view := engaged.normalView_le
  rcases attends with later | ⟨rfl, changes⟩
  · omega
  · rcases engaged with active | changing
    · exact absurd (active.normal.symm.trans changes) (by decide)
    · exact changing.view

/-- A replica that attends to a view has promised nothing beyond it. -/
theorem Core.Engaged.fence_le_of_attends (engaged : r.core.Engaged w setup.replicaIdx) {view : Nat}
    (attends : r.Attends view) : r.fence ≤ view := by
  have fenceLe : r.fence ≤ r.view := engaged.fence_le
  rcases attends with later | ⟨rfl, -⟩
  · omega
  · exact fenceLe

/-- A replica enters the view with its log, and acknowledges it. -/
theorem handleStartView_meets (balanced : setup.configuration.Balanced)
    (inGroup : setup.replicaIdx < setup.configuration.n)
    (recorded : r.Recorded w setup.replicaIdx) (engaged : r.core.Engaged w setup.replicaIdx)
    {msg : StartViewMessage} (valid : msg.Valid w) (clear : ¬ r.KeepsLog msg) :
    (setup.logic admits).Meets (handleStartView setup app msg) w r fun _ w' r' =>
      r'.core.Engaged w' setup.replicaIdx := by
  have placed := engaged.placed
  obtain ⟨target, from_, base, count, window⟩ := valid.base
  unfold handleStartView
  refine .bind (.get recorded fun _ => ?_)
  refine .branch (fun _ => .pure recorded engaged) (fun notStale => ?_)
  refine .branch (fun _ => .pure recorded engaged) (fun notIgnored => ?_)
  have attends : r.Attends msg.view := by
    rcases Nat.lt_or_eq_of_le (not_lt.mp notStale) with later | same
    · exact .inl later
    · exact .inr ⟨same.symm, not_not.mp fun normal => notIgnored ⟨same.symm, normal⟩⟩
  have later := engaged.normalView_lt attends
  refine .bind (.require recorded fun _ _ => ?_)
  refine .bind ((installStartView_meets balanced recorded placed later base count window
    valid.nonempty fun none_ => ?_).imp ?_)
  · by_contra some_
    exact clear ⟨attends, none_, some_⟩
  rintro _ world _ _ ⟨rfl, log, rfl, start, operations⟩ _
  have within : world.Within msg.view target :=
    ⟨target, base, List.prefix_rfl, world.sound.extended _ _ base⟩
  have fresh : world.logs.logIn setup.replicaIdx msg.view = [] :=
    world.sound.untouched setup.replicaIdx msg.view (recorded.1 ▸ later)
  obtain ⟨w', moves, logIn, normalView, fence, -⟩ := exists_adopt
    (recorded.2 ▸ engaged.fence_le_of_attends attends) within (fresh ▸ List.nil_prefix)
  have committedLe : r.lastCommitted ≤ msg.lastop :=
    count ▸ placed.committed.le_length balanced later within
  have entered : ({ ({ r with log := log }.enterView setup msg.view).core with
      lastOp := msg.lastop } : Core).Active w' setup.replicaIdx := by
    refine Core.Active.entered { r with log := log } msg.lastop start ?_ ?_ ?_ committedLe ?_
    · rw [← Log.length_operations, operations, count]
    · rw [logIn, operations]
    · exact (placed.committed.grows moves.grows).mono later.le (Nat.le_refl _)
    · exact { placed.collected.grows moves.grows with }
  refine .bind (.modify moves ⟨normalView, fence⟩ fun keeps => ?_)
  refine .bind (.change keeps fun keepsEntered => ?_)
  refine .bind (.get keepsEntered fun _ => ?_)
  refine .bind (.require keepsEntered fun _ _ => ?_)
  refine .bind ((commitUpTo_meets balanced keepsEntered entered
    (valid.committed.grows moves.grows)).imp ?_)
  rintro _ final committed keepsCommitted ⟨rfl, active, -⟩ _
  refine (sendPrepareOKs_meets inGroup keepsCommitted active r.lastOp).imp ?_
  rintro _ _ acked _ ⟨rfl, same⟩
  exact .inl (same.symm ▸ active)

end PaxosBus.Vr

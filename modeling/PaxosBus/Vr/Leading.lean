import PaxosBus.Vr.Batching
import PaxosBus.Vr.Definedness
import PaxosBus.Vr.Operation

/-!
# Batching across views

A replica follows another one into a view by a state transfer or the start of
the view, and takes the lead where it has enough votes. Batching survives this
where the leader's log and its last operation number go together, where no view
is led twice, and where nothing is transferred to a leader that it does not
have.
-/

set_option autoImplicit false

namespace PaxosBus.Vr

open PaxosBus.Common PaxosBus.Library
open Logic (Meets)

variable {setup : Setup} {fresh : Nat → Prop} {app : App} {r : Replica} {undefined : Undefined}

/-! ## State transfer -/

section Transfer

namespace Replica

/-- The log and the number of the last operation may have changed, and nothing else. -/
def Relogs (r r' : Replica) : Prop :=
  ∃ log lastOp, log.start = r.log.start ∧ r' = { r with log := log, lastOp := lastOp }

theorem Relogs.refl (r : Replica) : r.Relogs r := ⟨r.log, r.lastOp, rfl, rfl⟩

/-- Another log twice is another log. -/
theorem Relogs.trans {r r' r'' : Replica} (first : r.Relogs r') (second : r'.Relogs r'') :
    r.Relogs r'' := by
  obtain ⟨log, lastOp, start, rfl⟩ := first
  obtain ⟨log', lastOp', start', rfl⟩ := second
  exact ⟨log', lastOp', start'.trans start, rfl⟩

/-- A replica that does not lead does not lead with another log either. -/
theorem Relogs.follows {r r' : Replica} (relogs : r.Relogs r')
    (follows : ¬ r.batching.Leads setup) : r.Follows setup r' := by
  obtain ⟨log, lastOp, start, rfl⟩ := relogs
  exact .of_same start follows rfl rfl rfl rfl

/-- The replica has the entry of a state transfer already. -/
def Has (r : Replica) (entry : Entry) : Prop :=
  r.lastCommitted < entry.viewstamp.opnum → entry.viewstamp.opnum ≤ r.lastOp ∧
    (r.log.find entry.viewstamp.opnum).map (·.viewstamp.view) = some entry.viewstamp.view

instance (r : Replica) (entry : Entry) : Decidable (r.Has entry) :=
  inferInstanceAs (Decidable (_ → _))

end Replica

/-- An entry is kept, replaced with all that come after it, or appended; nothing is sent. -/
theorem transferEntry_silent {oldLastOp : Nat} {newEntry : Entry} :
    (Logic.silent Replica Output).Meets (transferEntry oldLastOp newEntry) () r
      fun _ _ r' => r.Relogs r' := by
  refine .bind (.get trivial fun _ => ?_)
  refine .branch (fun _ => .pure trivial (.refl r)) fun _ => ?_
  refine .branch (fun _ => ?_) fun _ => ?_
  · refine .bind (.demand trivial fun _ _ _ => ?_)
    refine .bind (.require trivial fun _ _ => ?_)
    refine .bind (.require trivial fun _ _ => ?_)
    refine .branch (fun _ => ?_) fun _ => ?_
    · refine .bind (.require trivial fun _ _ => ?_)
      exact .pure trivial (.refl r)
    · refine .bind (.require trivial fun _ _ => ?_)
      refine .bind (.demand trivial fun cut removed _ => ?_)
      refine .bind (.demand trivial fun log appended _ => ?_)
      refine .bind (.change trivial fun _ => ?_)
      have start : log.start = r.log.start :=
        (Log.of_append appended).2.1.trans (Log.of_removeAfter removed).1
      exact .pure trivial ⟨log, _, start, rfl⟩
  · refine .bind (.require trivial fun _ _ => ?_)
    refine .bind (.demand trivial fun log appended _ => ?_)
    refine .bind (.change trivial fun _ => ?_)
    exact .pure trivial ⟨log, _, (Log.of_append appended).2.1, rfl⟩

/-- The entries are put into the log one after the other, and nothing is sent. -/
theorem transferEntries_silent {oldLastOp : Nat} {entries : List Entry} :
    (Logic.silent Replica Output).Meets (transferEntries oldLastOp entries) () r
      fun _ _ r' => r.Relogs r' := by
  induction entries generalizing r oldLastOp with
  | nil => exact .pure trivial (.refl r)
  | cons newEntry rest inductionHypothesis =>
      apply Meets.bind
      apply transferEntry_silent.imp
      intro _ _ r1 _ relogs _
      apply inductionHypothesis.imp
      intro _ _ _ _ relogs'
      exact relogs.trans relogs'

/-- An entry that the replica has is no change. -/
theorem transferEntry_has {oldLastOp : Nat} {newEntry : Entry} (has : r.Has newEntry) :
    (Logic.silent Replica Output).Meets (transferEntry oldLastOp newEntry) () r
      fun _ _ r' => r' = r := by
  refine .bind (.get trivial fun _ => ?_)
  refine .branch (fun _ => .pure trivial rfl) fun uncommitted => ?_
  obtain ⟨within, sameView⟩ := has (by omega)
  refine .branch (fun _ => ?_) fun beyond => absurd within beyond
  refine .bind (.demand trivial fun entry found _ => ?_)
  refine .bind (.require trivial fun _ _ => ?_)
  refine .bind (.require trivial fun _ _ => ?_)
  refine .branch (fun _ => ?_) fun differs => ?_
  · refine .bind (.require trivial fun _ _ => ?_)
    exact .pure trivial rfl
  · rw [found] at sameView
    exact absurd (Option.some.inj sameView) differs

/-- Entries that the replica has are not touched. -/
theorem transferEntries_has {oldLastOp : Nat} {entries : List Entry}
    (has : ∀ entry ∈ entries, r.Has entry) :
    (Logic.silent Replica Output).Meets (transferEntries oldLastOp entries) () r
      fun _ _ r' => r' = r := by
  induction entries generalizing oldLastOp with
  | nil => exact .pure trivial rfl
  | cons newEntry rest inductionHypothesis =>
      apply Meets.bind
      apply (transferEntry_has (has newEntry List.mem_cons_self)).imp
      rintro _ _ _ _ rfl _
      exact inductionHypothesis fun entry later => has entry (List.mem_cons_of_mem _ later)

/-- A follower that has what was transferred acknowledges it and commits. -/
theorem completeTransfer_traces {msg : StateTransferMessage} {oldLastOp : Nat} :
    BatchTraces setup fresh (completeTransfer setup app msg oldLastOp) r fun _ _ => True := by
  apply Matching.Traces.get_bind
  apply Matching.Traces.require_bind
  intro _
  apply Matching.Traces.bind commitUpTo_batchIdles
  intro _ _ _ _
  apply Matching.Traces.bind sendPrepareOKs_batchIdles
  intro _ _ _ _
  apply Matching.Traces.get_bind
  apply Matching.Traces.quiet_bind rfl
  exact Matching.Traces.forEach (fun _ => True) (fun _ _ _ _ _ => handlePrepare_traces) trivial
    trivial

/-- A replica enters a view as a follower, perhaps with another log, and perhaps sets the number of
the last operation. -/
theorem Replica.Follows.enters {r1 : Replica} {newview lastOp : Nat} (relogs : r.Relogs r1)
    (follower : ¬ setup.AmLeader newview) (onward : r.view ≤ newview) :
    r.Follows setup { r1.enterView setup newview with lastOp := lastOp } := by
  obtain ⟨log, _, start, rfl⟩ := relogs
  exact {
    start := start
    follows := fun leads => follower leads.2
    close := fun running => by simp [Replica.enterView, follower] at running
    resend := fun running => by simp [Replica.enterView, follower] at running
    onward := .of_normal rfl onward }

/-- A transfer of a later view makes the replica follow. In its own view a leader gets what it has.
-/
theorem handleStateTransfer_traces {msg : StateTransferMessage}
    (follower : r.view < msg.view → ¬ setup.AmLeader msg.view)
    (nothing : msg.view = r.view → r.batching.Leads setup → ∀ entry ∈ msg.entries, r.Has entry) :
    BatchTraces setup fresh (handleStateTransfer setup app msg) r fun _ _ => True := by
  apply Matching.Traces.get_bind
  apply Matching.Traces.branch (fun _ => .pure trivial trivial)
  intro notStale
  by_cases later : r.view < msg.view
  · apply Matching.TracesFrom.silent_bind .refl transferEntries_silent
    intro _ r1 relogs
    rw [if_pos later]
    apply Matching.TracesFrom.modify_bind
    apply Matching.TracesFrom.settle _ completeTransfer_traces
    have follows : r.Follows setup
        { r1.enterView setup msg.view with lastOp := (r1.enterView setup msg.view).lastOp } :=
      .enters relogs (follower later) later.le
    exact .single follows.moved
  · have sameView : msg.view = r.view := by omega
    by_cases leads : r.batching.Leads setup
    · apply Matching.TracesFrom.silent_bind .refl (transferEntries_has (nothing sameView leads))
      rintro _ _ rfl
      rw [if_neg later]
      exact completeTransfer_traces
    · apply Matching.TracesFrom.silent_bind .refl transferEntries_silent
      intro _ r1 relogs
      rw [if_neg later]
      apply Matching.TracesFrom.settle _ completeTransfer_traces
      exact .single (relogs.follows leads).moved

end Transfer

/-! ## View changes -/

section ViewChange

/-- Installing entries leaves the first position of a log where it is. -/
theorem start_findDivergence {log cut : Log Unit} {entries rest : List Entry}
    (searched : log.findDivergence entries = some (cut, rest)) : cut.start = log.start := by
  induction entries with
  | nil =>
      obtain ⟨rfl, -⟩ := Prod.mk.inj (Option.some.inj searched)
      rfl
  | cons entry more inductionHypothesis =>
      simp only [Log.findDivergence] at searched
      split at searched
      next =>
          obtain ⟨rfl, -⟩ := Prod.mk.inj (Option.some.inj searched)
          rfl
      next =>
          split at searched
          next =>
              obtain ⟨removed, cutOff, same⟩ := Option.map_eq_some_iff.mp searched
              obtain ⟨rfl, -⟩ := Prod.mk.inj same
              exact (Log.of_removeAfter cutOff).1
          next => exact inductionHypothesis searched

/-- Installing entries leaves the start of the log alone. -/
theorem start_install {log final : Log Unit} {entries : List Entry}
    (installed : log.install entries = some final) : final.start = log.start := by
  obtain ⟨⟨cut, rest⟩, searched, appended⟩ := Option.bind_eq_some_iff.mp installed
  exact (Log.of_appendAll appended).1.trans (start_findDivergence searched)

/-- A `StartViewChange` is counted, and with a quorum the replica's vote goes to the leader. -/
theorem countStartViewChange_batchIdles {msg : StartViewChangeMessage} :
    BatchIdles setup fresh (countStartViewChange setup undefined msg) r := by
  apply Matching.Traces.get_bind
  apply Matching.Traces.require_bind
  intro _
  apply Matching.Traces.quiet_bind rfl
  split
  · exact idles_return
  · apply Matching.Traces.branch
    · intro _
      apply Matching.Traces.quiet_bind rfl
      exact idles_plain (by trivial)
    · exact fun _ => idles_return

/-- A replica joins only changes to later views. -/
theorem joins_later {view : Nat} (notStale : ¬ view < r.view)
    (notNormal : ¬ (view = r.view ∧ r.status ≠ .viewChange))
    (joins : r.status ≠ .viewChange ∨ r.view < view) : r.view < view := by
  rcases Nat.lt_or_eq_of_le (Nat.not_lt.mp notStale) with later | same
  · exact later
  · exact absurd ⟨same.symm, joins.resolve_right (by omega)⟩ notNormal

/-- A `StartViewChange` of a later view makes the replica join, which ends its lead. -/
theorem handleStartViewChange_traces {msg : StartViewChangeMessage} :
    BatchTraces setup fresh (handleStartViewChange setup undefined msg) r fun _ _ => True := by
  have counts : ∀ {r : Replica}, BatchTraces setup fresh (countStartViewChange setup undefined msg)
      r fun _ _ => True :=
    countStartViewChange_batchIdles.imp fun _ _ _ _ => trivial
  apply Matching.Traces.get_bind
  apply Matching.Traces.branch (fun _ => .pure trivial trivial)
  intro notStale
  apply Matching.Traces.branch (fun _ => .pure trivial trivial)
  intro notNormal
  apply Matching.Traces.branch
  · intro joins
    exact .bind (startViewChange_traces (joins_later notStale notNormal joins))
      fun _ _ _ _ => counts
  · exact fun _ => counts

/-- What batching depends on when a leader has entered its view. -/
theorem batching_lead (leads : setup.AmLeader r.view) :
    ({ r.enterView setup r.view with lastOp := r.lastOp } : Replica).batching =
      { r.batching with
        status := .normal
        lastBatchEnd := r.lastOp
        batchComplete := true } := by
  simp [Replica.batching, Replica.enterView, leads]

/-- Taking the lead is one move, if the last operation number goes with the log. -/
theorem becomeLeader_traces {msg : DoViewChangeMessage}
    {msgs : Std.TreeMap Nat DoViewChangeMessage} (changing : r.status = .viewChange)
    (view : r.view = msg.view) (keeps : r.log.lastViewstamp.opnum = r.lastOp)
    (first : fresh msg.view) :
    BatchTraces setup fresh (becomeLeader setup undefined.stopping msg msgs) r
      fun _ _ => True := by
  rw [← view] at first
  apply Matching.TracesFrom.get_bind
  split
  · exact .stop .refl
  · next latestOp selected =>
      obtain ⟨rfl, -⟩ := of_latest_none selected
      rw [keeps, ← view]
      apply Matching.TracesFrom.modify_bind
      apply Matching.TracesFrom.get_bind
      apply Matching.TracesFrom.require_bind .refl
      intro leads
      apply Matching.TracesFrom.modify_bind
      apply Matching.TracesFrom.emit_bind
      apply Matching.TracesFrom.settle
      · have moved : BatchMove setup fresh r.batching [.started r.view r.log.entries] _ :=
          .lead changing leads first
        exact .single (batching_lead (r := r) leads ▸ moved)
      · apply Matching.Traces.get_bind
        exact .imp (idles_plain (by trivial)) fun _ _ _ _ => trivial

/-- With a quorum of votes the replica takes the lead, with its own log. -/
theorem countDoViewChange_traces {msg : DoViewChangeMessage} (changing : r.status = .viewChange)
    (view : r.view = msg.view)
    (keeps : let votes := (r.doViewChangeQuorum.add msg.view msg.replicaidx msg).messages msg.view
      r.doViewChangeQuorum.numRequired ≤ votes.size →
        r.log.lastViewstamp.opnum = r.lastOp ∧ fresh msg.view) :
    BatchTraces setup fresh (countDoViewChange setup undefined.stopping msg) r
      fun _ _ => True := by
  apply Matching.Traces.require_bind
  intro _
  apply Matching.Traces.get_bind
  apply Matching.Traces.quiet_bind rfl
  split
  · exact .pure trivial trivial
  · next msgs found =>
      obtain ⟨rfl, enough⟩ := QuorumSet.of_checkForQuorum found
      obtain ⟨same, first⟩ := keeps enough
      exact becomeLeader_traces changing view same first

/-- A vote of a later view makes the replica join the view change first. -/
theorem handleDoViewChange_traces {msg : DoViewChangeMessage}
    (keeps : let votes := (r.doViewChangeQuorum.add msg.view msg.replicaidx msg).messages msg.view
      r.Attends msg.view → r.doViewChangeQuorum.numRequired ≤ votes.size →
        r.log.lastViewstamp.opnum = r.lastOp ∧ fresh msg.view) :
    BatchTraces setup fresh (handleDoViewChange setup undefined.stopping msg) r
      fun _ _ => True := by
  apply Matching.Traces.get_bind
  apply Matching.Traces.branch (fun _ => .pure trivial trivial)
  intro notStale
  apply Matching.Traces.branch (fun _ => .pure trivial trivial)
  intro notNormal
  apply Matching.Traces.branch
  · intro joins
    have later := joins_later notStale notNormal joins
    apply Matching.Traces.bind (startViewChange_traces later)
    intro _ r1 _ changes
    apply countDoViewChange_traces changes.status changes.view
    rw [changes.doViewChangeQuorum, changes.log, changes.lastOp]
    exact keeps (.inl later)
  · intro changing
    obtain ⟨status, notLater⟩ := not_or.mp changing
    apply countDoViewChange_traces (not_not.mp status) (by omega)
    exact keeps (.inr ⟨by omega, not_not.mp status⟩)

/-- The log of the new leader replaces what differs, and nothing is sent. -/
theorem installStartView_silent {msg : StartViewMessage} :
    (Logic.silent Replica Output).Meets (installStartView msg) () r fun _ _ r' =>
      ∃ log, log.start = r.log.start ∧ r' = { r with log := log } := by
  refine .bind (.get trivial fun _ => ?_)
  split
  · refine .bind (.require trivial fun _ _ => ?_)
    exact .require trivial fun _ => ⟨r.log, rfl, rfl⟩
  · refine .bind (.require trivial fun _ _ => ?_)
    refine .bind (.demand trivial fun cut removed _ => ?_)
    refine .bind (.demand trivial fun log installed _ => ?_)
    have start := (start_install installed).trans (Log.of_removeAfter removed).1
    exact .change trivial ⟨log, start, rfl⟩

/-- A replica that starts the view of another one follows it. -/
theorem handleStartView_traces {msg : StartViewMessage} :
    BatchTraces setup fresh (handleStartView setup app msg) r fun _ _ => True := by
  apply Matching.Traces.get_bind
  apply Matching.Traces.branch (fun _ => .pure trivial trivial)
  intro notStale
  apply Matching.Traces.branch (fun _ => .pure trivial trivial)
  intro _
  apply Matching.Traces.require_bind
  intro follower
  apply Matching.TracesFrom.silent_bind .refl installStartView_silent
  rintro _ _ ⟨log, start, rfl⟩
  apply Matching.TracesFrom.modify_bind
  apply Matching.TracesFrom.modify_bind
  have follows : r.Follows setup
      { ({ r with log := log } : Replica).enterView setup msg.view with lastOp := msg.lastop } :=
    .enters ⟨log, _, start, rfl⟩ follower (Nat.not_lt.mp notStale)
  apply Matching.TracesFrom.settle (.single follows.moved)
  apply Matching.Traces.get_bind
  apply Matching.Traces.require_bind
  intro _
  apply Matching.Traces.bind commitUpTo_batchIdles
  intro _ _ _ _
  exact sendPrepareOKs_batchIdles.imp fun _ _ _ _ => trivial

end ViewChange

/-! ## Recovery -/

section Recovery

/-- A recovering replica leads nothing, and neither does one that has recovered. -/
theorem handleRecoveryResponse_traces {msg : RecoveryResponseMessage} :
    BatchTraces setup fresh (handleRecoveryResponse setup undefined.stopping msg) r
      fun _ _ => True := by
  apply Matching.Traces.get_bind
  apply Matching.Traces.branch (fun _ => .pure trivial trivial)
  intro recovering
  apply Matching.Traces.branch (fun _ => .pure trivial trivial)
  intro _
  apply Matching.Traces.quiet_bind rfl
  split
  · exact .pure trivial trivial
  · next msgs _ =>
      apply Matching.Traces.require_bind
      intro other
      split
      · exact .pure trivial trivial
      · next leaderResponse _ =>
          apply Matching.Traces.branch (fun _ => .pure trivial trivial)
          intro highest
          apply Matching.TracesFrom.get_bind
          apply Matching.TracesFrom.demand_bind .refl
          intro log installed
          apply Matching.TracesFrom.modify_bind
          apply Matching.TracesFrom.modify_bind
          exact .stop .refl

end Recovery

/-! ## Any message -/

namespace Replica

/-- The handling of a message takes one of the branches on which batches go wrong: a replica takes
the lead with a log that does not end with its last operation number, or in a view that it has led
before; or a leader is sent entries that it does not have. -/
def Disorders (setup : Setup) (led : Nat → Prop) (r : Replica) : Message → Prop
  | .doViewChange msg =>
    let votes := (r.doViewChangeQuorum.add msg.view msg.replicaidx msg).messages msg.view
    r.Attends msg.view ∧ r.doViewChangeQuorum.numRequired ≤ votes.size ∧
      (r.log.lastViewstamp.opnum ≠ r.lastOp ∨ led msg.view)
  | .stateTransfer msg =>
    r.view < msg.view ∧ setup.AmLeader msg.view ∨
      msg.view = r.view ∧ r.status = .normal ∧ setup.AmLeader r.view ∧
        ∃ entry ∈ msg.entries, ¬ r.Has entry
  | _ => False

instance (led : Nat → Prop) [DecidablePred led] (msg : Message) :
    Decidable (r.Disorders setup led msg) :=
  match msg with
  | .doViewChange msg => inferInstanceAs (Decidable (
      let votes := (r.doViewChangeQuorum.add msg.view msg.replicaidx msg).messages msg.view
      r.Attends msg.view ∧ r.doViewChangeQuorum.numRequired ≤ votes.size ∧
        (r.log.lastViewstamp.opnum ≠ r.lastOp ∨ led msg.view)))
  | .stateTransfer msg => inferInstanceAs (Decidable (
      r.view < msg.view ∧ setup.AmLeader msg.view ∨
        msg.view = r.view ∧ r.status = .normal ∧ setup.AmLeader r.view ∧
          ∃ entry ∈ msg.entries, ¬ r.Has entry))
  | .request _ | .reply _ | .unloggedRequest _ | .unloggedReply _ | .prepare _ | .prepareOK _
  | .commit _ | .requestStateTransfer _ | .startViewChange _ | .startView _ | .recovery _
  | .recoveryResponse _ => .isFalse id

end Replica

/-- Whatever a replica is sent, it makes moves of a batching leader, if it stops where what it does
is not defined. -/
theorem receiveMessage_traces {led : Nat → Prop} {remote : Address} {msg : Message}
    (ordered : ¬ r.Disorders setup led msg) :
    BatchTraces setup (fun view => ¬ led view)
      (receiveMessage setup app undefined.stopping remote msg) r fun _ _ => True := by
  have done : ∀ {handler : Run Unit}, BatchIdles setup (fun view => ¬ led view) handler r →
      BatchTraces setup (fun view => ¬ led view) handler r fun _ _ => True :=
    fun idles => idles.imp fun _ _ _ _ => trivial
  cases msg with
  | request msg => exact handleRequest_traces
  | unloggedRequest msg => exact done handleUnloggedRequest_batchIdles
  | prepare msg => exact handlePrepare_traces
  | prepareOK msg => exact handlePrepareOK_traces
  | commit msg => exact done handleCommit_batchIdles
  | requestStateTransfer msg => exact done handleRequestStateTransfer_batchIdles
  | stateTransfer msg =>
      obtain ⟨follower, nothing⟩ := not_or.mp ordered
      apply handleStateTransfer_traces
      · exact fun later leads => follower ⟨later, leads⟩
      · intro same leads entry member
        by_contra lacks
        exact nothing ⟨same, leads.1, leads.2, entry, member, lacks⟩
  | startViewChange msg => exact handleStartViewChange_traces
  | doViewChange msg =>
      apply handleDoViewChange_traces
      intro _ attends enough
      refine ⟨?_, fun led => ordered ⟨attends, enough, .inr led⟩⟩
      by_contra differs
      exact ordered ⟨attends, enough, .inl differs⟩
  | startView msg => exact handleStartView_traces
  | recovery msg => exact done handleRecovery_batchIdles
  | recoveryResponse msg => exact handleRecoveryResponse_traces
  | reply _ => exact .stop
  | unloggedReply _ => exact .stop

end PaxosBus.Vr

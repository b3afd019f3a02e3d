import PaxosBus.FastPaxos.Commitment

/-!
# The followers

A follower puts requests at the end of its log as they reach it, and replaces
them by the leader's: by a `Prepare` or a `Commit` for the next number it does
not know, or by a piece of the leader's log. Up to what it knows its log is the
leader's from then on, and that is what it acknowledges and commits.
-/

set_option autoImplicit false

namespace PaxosBus.FastPaxos

open PaxosBus.Common PaxosBus.Library
open Logic (Meets)

variable {d : Deployment} {strict : Prop} {idx : Nat} {w : Course} {r : Replica} {app : App}

/-! ## Learning a request -/

/-- A follower's log may get longer, and get the leader's requests where it had its own. -/
theorem Core.Follows.replace {r : Core} (follows : r.Follows d w strict idx)
    (follower : idx ≠ d.leader) {log : Log Unit} {lastFastPath : Nat} (start : log.start = 1)
    (views : ∀ operation ∈ log.operations, operation.view = 0)
    (length : log.requests.length = lastFastPath) (longer : r.lastFastPath ≤ lastFastPath)
    (kept : ∀ index < r.lastFastPath, log.requests[index]? = r.log.requests[index]? ∨
      ∃ mine, w.log[index]? = some mine ∧ log.requests[index]? = some mine) :
    ({ r with log := log, lastFastPath := lastFastPath } : Core).Follows d w strict idx :=
  { follows with
    start := start
    views := views
    length := length
    slow_le := follows.slow_le.trans longer
    agreed := fun index inside => by
      rcases kept index (Nat.lt_of_lt_of_le inside follows.known_le_fast) with same | ⟨mine, here, has⟩
      · rw [same]
        exact follows.agreed index inside
      · rw [has, here]
    guessed := fun opnum req guessed => by
      have inside : ∀ {req : Request}, r.log.requests[opnum - 1]? = some req →
          opnum - 1 < r.lastFastPath := fun here =>
        follows.length ▸ (List.getElem?_eq_some_iff.mp here).1
      rcases follows.guessed opnum req guessed with own | ⟨mine, here, has⟩
      · rcases kept _ (inside own) with same | ⟨mine, here, has⟩
        · exact .inl (same.trans own)
        · exact .inr ⟨mine, here, has⟩
      · rcases kept _ (inside has) with same | ⟨mine', here', has'⟩
        · exact .inr ⟨mine, here, same.trans has⟩
        · exact .inr ⟨mine', here', has'⟩
    leads := fun leader => absurd leader follower }

/-- What agrees with the leader is known. -/
theorem Core.Follows.know {r : Core} (follows : r.Follows d w strict idx)
    (follower : idx ≠ d.leader) {count : Nat} (agrees : r.Agrees w count)
    (more : r.lastSlowPath ≤ count) :
    ({ r with lastSlowPath := count } : Core).Follows d w strict idx :=
  { follows with
    slow_le := follows.length ▸ agrees.le_length
    known_le := by
      have := follows.known_le
      have := agrees.1
      simp only [Core.known] at *
      omega
    agreed := fun index inside => by
      by_cases before : index < r.known
      · exact follows.agreed index before
      · apply agrees.2
        simp only [Core.known] at *
        omega
    slow := by
      have := follows.slow
      simp only [Core.known] at *
      omega
    leads := fun leader => absurd leader follower }

/-- A follower that agrees up to a number and has the leader's next request agrees further. -/
theorem Core.Agrees.next {r : Core} {count : Nat} (agrees : r.Agrees w count) {req : Request}
    (here : w.log[count]? = some req) (has : r.log.requests[count]? = some req) :
    r.Agrees w (count + 1) := by
  refine ⟨(List.getElem?_eq_some_iff.mp here).1, fun index inside => ?_⟩
  rcases Nat.lt_succ_iff_lt_or_eq.mp inside with before | rfl
  · exact agrees.2 index before
  · rw [has, here]

/-- Less is agreed on as well. -/
theorem Core.Agrees.mono {r : Core} {count fewer : Nat} (agrees : r.Agrees w count)
    (le : fewer ≤ count) : r.Agrees w fewer :=
  ⟨le.trans agrees.1, fun index inside => agrees.2 index (inside.trans_le le)⟩

/-- A follower agrees up to the last slow path operation. -/
theorem Core.Follows.agrees_slow {r : Core} (follows : r.Follows d w strict idx) :
    r.Agrees w r.lastSlowPath :=
  follows.agrees_known.mono (Nat.le_max_left _ _)

/-- A request at the end of a follower's log. -/
theorem Core.Follows.append {r : Core} (follows : r.Follows d w strict idx)
    (follower : idx ≠ d.leader) {vs : Viewstamp} {request : Request} {state : LogEntryState}
    {log : Log Unit} (view : vs.view = 0) (appended : r.log.append vs request state = some log) :
    ({ r with log := log, lastFastPath := r.lastFastPath + 1 } : Core).Follows d w strict idx ∧
      log.requests[r.lastFastPath]? = some request := by
  obtain ⟨-, start, operations⟩ := Log.of_append appended
  have requests := Log.requests_of_append appended
  constructor
  · refine follows.replace follower (start.trans follows.start) ?_ ?_ (Nat.le_succ _) ?_
    · intro operation member
      rw [operations] at member
      rcases List.mem_append.mp member with old | new
      · exact follows.views operation old
      · obtain rfl := List.mem_singleton.mp new
        exact view
    · rw [requests, List.length_append, follows.length]
      rfl
    · intro index inside
      rw [requests, List.getElem?_append_left (follows.length.symm ▸ inside)]
      exact .inl rfl
  · rw [requests, ← follows.length, List.getElem?_append_right (Nat.le_refl _), Nat.sub_self]
    rfl

/-- The leader's request in the place of a follower's own. -/
theorem Core.Follows.setRequest {r : Core} (follows : r.Follows d w strict idx)
    (follower : idx ≠ d.leader) {opnum : Nat} {request : Request} {replaced : Log Unit × Bool}
    (here : w.At opnum request) (inside : opnum ≤ r.lastFastPath)
    (done : r.log.setRequest opnum request = some replaced) :
    ({ r with log := replaced.1 } : Core).Follows d w strict idx ∧
      replaced.1.requests[opnum - 1]? = some request := by
  obtain ⟨start, requests, views⟩ := Log.of_setRequest (follows.start.trans_le here.1) done
  rw [follows.start] at requests
  constructor
  · refine follows.replace follower (start.trans follows.start) ?_ ?_ (Nat.le_refl _) ?_
    · intro operation member
      have view : operation.view ∈ r.log.operations.map Operation.view :=
        views ▸ List.mem_map_of_mem member
      obtain ⟨other, inLog, same⟩ := List.mem_map.mp view
      exact same ▸ follows.views other inLog
    · rw [requests, List.length_set, follows.length]
    · intro index _
      rw [requests, List.getElem?_set]
      split
      next same =>
          have within : opnum - 1 < r.log.requests.length := by
            have := follows.length
            have := here.1
            omega
          rw [← same, if_pos within]
          exact .inr ⟨request, here.2, rfl⟩
      next => exact .inl rfl
  · have within : opnum - 1 < r.log.requests.length := by
      have := follows.length
      have := here.1
      omega
    rw [requests, List.getElem?_set_self within]

/-! ## Acknowledgements -/

/-- A follower of the group acknowledges what it knows. -/
theorem sendSlow_meets (inGroup : idx < d.configuration.n) (follower : idx ≠ d.leader)
    (follows : r.core.Follows d w strict idx) {leader opnum : Nat} {req : Request}
    (known : opnum ≤ r.core.known) :
    (logic d strict idx).Meets
      (sendToReplica leader (.prepareOK { view := 0, opnum := opnum, replicaIdx := idx, req := req,
                                          slowpath := 1 })) w r
      fun _ w' r' => w.Later d idx w' ∧ r' = r := by
  refine .later follows.later_tell (.emit follows.tell (valid_post fun dst => ?_)
    ⟨follows.later_tell, rfl⟩)
  refine ⟨rfl, inGroup, follower, fun _ => ?_, fun fast => absurd fast (by simp)⟩
  simpa [Course.tell] using known

/-- What a follower is after it has acknowledged. -/
structure Core.Acknowledges (r r' : Core) : Prop where
  settled : r'.Settled
  lastSlowPath : r'.lastSlowPath = r.lastSlowPath

/-- `SendPrepareOKs` acknowledges what is known and changes none of it. -/
theorem sendPrepareOKs_meets {oldLastOp : Nat} (inGroup : idx < d.configuration.n)
    (follower : idx ≠ d.leader) (follows : r.core.Follows d w strict idx)
    (settled : r.core.Settled) :
    (logic d strict idx).Meets (sendPrepareOKs (d.setup idx) oldLastOp) w r fun _ w' r' =>
      w.Later d idx w' ∧ r.core.Acknowledges r'.core := by
  unfold sendPrepareOKs
  refine .bind (.get follows fun _ => ?_)
  refine .forEach (fun w' (r' : Replica) => w.Later d idx w' ∧ r.core.Acknowledges r'.core) ?_
    follows ⟨.refl w, settled, rfl⟩
  rintro i inRange w' r' follows' ⟨later, acks⟩
  unfold sendPrepareOK
  refine .bind (.get follows' fun _ => ?_)
  refine .branch (fun _ => .pure follows' ⟨later, acks⟩) (fun _ => ?_)
  refine .bind (.demand follows' fun entry found _ => .bind (.require follows' fun _ _ => ?_))
  have noted := updateClientTable_keeps follows' entry.request
  refine .bind (.change noted fun _ => ?_)
  have core := core_updateClientTable (r := r') entry.request
  have known : i ≤ (r'.updateClientTable entry.request).core.known := by
    have range := List.mem_range'_1.mp inRange
    have same := acks.lastSlowPath
    rw [core]
    simp only [Core.known, Replica.core] at same ⊢
    omega
  have view : r'.view = 0 := follows'.view
  rw [view]
  refine (sendSlow_meets inGroup follower noted known).imp ?_
  rintro _ w'' _ _ ⟨later', rfl⟩
  refine ⟨later.trans later', ?_⟩
  rw [core]
  exact ⟨{ acks.settled with }, acks.lastSlowPath⟩

/-! ## Prepares -/

/-- What a handler of a replica leaves behind. -/
def Core.Leaves (d : Deployment) (idx : Nat) (w w' : Course) (r' : Core) : Prop :=
  w.Later d idx w' ∧ r'.Settled

/-- The next request of the leader gets into the log and is known. -/
theorem installPrepare_meets {msg : PrepareMessage} (follower : idx ≠ d.leader)
    (follows : r.core.Follows d w strict idx) (settled : r.core.Settled)
    (view : msg.view = 0) (here : w.At msg.opnum msg.req) (next : msg.opnum = r.lastSlowPath + 1) :
    (logic d strict idx).Meets (installPrepare msg) w r fun _ w' r' =>
      w' = w ∧ r'.core.Settled ∧ r'.lastSlowPath = msg.opnum := by
  have agrees := follows.agrees_slow
  have index : msg.opnum - 1 = r.lastSlowPath := by omega
  have slow_le : r.lastSlowPath ≤ r.lastFastPath := follows.slow_le
  have committed_le : r.lastCommitted ≤ r.lastSlowPath := settled.committed_le
  have there : w.log[r.lastSlowPath]? = some msg.req := index ▸ here.2
  have knows : r.lastSlowPath ≤ r.lastSlowPath + 1 := Nat.le_succ _
  have settled' : ∀ r' : Core, r'.executed = r.executed → r'.lastCommitted = r.lastCommitted →
      r'.lastSlowPath = r.lastSlowPath + 1 → r'.Settled := by
    intro r' executed lastCommitted lastSlowPath
    refine ⟨?_, by omega⟩
    unfold Core.Counted
    rw [executed, lastCommitted]
    exact settled.counted
  unfold installPrepare
  refine .bind (.get follows fun _ => ?_)
  refine .branch (fun beyond => ?_) (fun within => ?_)
  · refine .bind (.require follows fun atEnd _ => .bind (.demand follows fun log appended _ => ?_))
    obtain ⟨longer, has⟩ := follows.append follower view appended
    have same : r.lastFastPath = r.lastSlowPath := by omega
    have here' : log.requests[r.lastSlowPath]? = some msg.req := by
      rw [← same]
      exact has
    have before : ({ r.core with log := log, lastFastPath := r.lastFastPath + 1 } : Core).Agrees w
        r.lastSlowPath :=
      longer.agrees_slow
    refine .change (longer.know follower (before.next there here') knows) ?_
    exact ⟨rfl, settled' _ rfl rfl rfl, next.symm⟩
  · refine .bind (.require follows fun _ _ => .bind (.demand follows fun entry _ _ => ?_))
    refine .bind (.require follows fun _ _ => .bind (.demand follows fun replaced done _ => ?_))
    obtain ⟨changed, has⟩ := follows.setRequest follower here (Nat.not_lt.mp within) done
    rw [index] at has
    have before : ({ r.core with log := replaced.1 } : Core).Agrees w r.lastSlowPath :=
      changed.agrees_slow
    refine .change (changed.know follower (before.next there has) knows) ?_
    exact ⟨rfl, settled' _ rfl rfl rfl, next.symm⟩

/-- A follower handles a `Prepare`. -/
theorem handlePrepare_meets {remote : Address} {msg : PrepareMessage}
    (inGroup : idx < d.configuration.n) (follows : r.core.Follows d w strict idx)
    (settled : r.core.Settled) (valid : msg.Valid w) :
    (logic d strict idx).Meets (handlePrepare (d.setup idx) remote msg) w r fun _ w' r' =>
      r'.core.Leaves d idx w w' := by
  have view : r.view = 0 := follows.view
  have rest : r.core.Leaves d idx w w := ⟨.refl w, settled⟩
  unfold handlePrepare
  refine .bind (.get follows fun _ => ?_)
  refine .branch (fun _ => .pure follows rest) (fun _ => ?_)
  refine .branch (fun _ => .pure follows rest) (fun _ => ?_)
  refine .branch (fun later => absurd later (by rw [valid.1]; omega)) (fun _ => ?_)
  refine .bind (.require follows fun follower _ => ?_)
  rw [amLeader_iff view] at follower
  rw [valid.1, view]
  refine .branch (fun old => ?_) (fun new => ?_)
  · -- the follower knows the request already
    refine (sendSlow_meets inGroup follower follows (old.trans (Nat.le_max_left _ _))).imp ?_
    rintro _ w' _ _ ⟨later, rfl⟩
    exact ⟨later, settled⟩
  · refine .branch (fun gap => ?_) (fun next => ?_)
    · refine .bind ((requestStateTransfer_meets follower follows).imp ?_)
      rintro _ w' r' follows' ⟨later, same⟩ _
      have valid' := valid.later later.log
      have kept : ({ r'.core with
          pendingPrepares := r'.pendingPrepares ++ [(remote, msg)] } : Core).Follows d w' strict
            idx :=
        { follows' with
          prepares := fun entry inPending => by
            rcases List.mem_append.mp inPending with before | new
            · exact follows'.prepares entry before
            · obtain rfl := List.mem_singleton.mp new
              exact valid'
          leads := fun leader => absurd leader follower }
      have settled' : r'.core.Settled := same ▸ settled
      exact .change kept ⟨later, { settled' with }⟩
    · have here := valid.2 (by omega)
      refine .bind ((installPrepare_meets follower follows settled valid.1 here (by omega)).imp ?_)
      rintro _ w' r' follows' ⟨rfl, settled', known⟩ _
      have noted := updateClientTable_keeps follows' msg.req
      have core := core_updateClientTable (r := r') msg.req
      refine .bind (.change noted fun _ => ?_)
      have knows : msg.opnum ≤ (r'.updateClientTable msg.req).core.known := by
        rw [core]
        simp only [Core.known, Replica.core]
        omega
      refine (sendSlow_meets inGroup follower noted knows).imp ?_
      rintro _ w'' _ _ ⟨later, rfl⟩
      refine ⟨later, ?_⟩
      rw [core]
      exact { settled' with }

/-! ## Commits -/

/-- A follower handles a `Commit`. -/
theorem handleCommit_meets {msg : CommitMessage} (follows : r.core.Follows d w strict idx)
    (settled : r.core.Settled) (valid : msg.Valid w) :
    (logic d strict idx).Meets (handleCommit (d.setup idx) app msg) w r fun _ w' r' =>
      r'.core.Leaves d idx w w' := by
  have view : r.view = 0 := follows.view
  have rest : r.core.Leaves d idx w w := ⟨.refl w, settled⟩
  unfold handleCommit
  refine .bind (.get follows fun _ => ?_)
  refine .branch (fun _ => .pure follows rest) (fun _ => ?_)
  refine .branch (fun _ => .pure follows rest) (fun _ => ?_)
  refine .branch (fun later => absurd later (by rw [valid.1]; omega)) (fun _ => ?_)
  refine .bind (.require follows fun follower _ => ?_)
  rw [amLeader_iff view] at follower
  have done : ∀ {w' : Course} {r' : Replica}, w' = w → r'.core.Settled →
      r'.core.Leaves d idx w w' := by
    rintro w' r' rfl settled'
    exact ⟨.refl w', settled'⟩
  refine .branch (fun _ => .pure follows rest) (fun _ => ?_)
  refine .branch (fun _ => ?_) (fun within => ?_)
  · refine (requestStateTransfer_meets follower follows).imp ?_
    rintro _ w' r' _ ⟨later, same⟩
    exact ⟨later, same ▸ settled⟩
  · refine .branch (fun new => .branch (fun _ => .pure follows rest) fun next => ?_) (fun known => ?_)
    · refine .bind (.demand follows fun entry _ _ => .bind (.require follows fun _ _ => ?_))
      refine .bind (.demand follows fun replaced done' _ => ?_)
      obtain ⟨changed, has⟩ := follows.setRequest follower valid.2 (Nat.not_lt.mp within) done'
      refine .bind (.change changed fun _ => ?_)
      -- up to the number the log is now the leader's
      have number : msg.opnum = r.lastSlowPath + 1 := by omega
      have index : msg.opnum - 1 = r.lastSlowPath := by omega
      rw [index] at has
      have before : ({ r.core with log := replaced.1 } : Core).Agrees w r.lastSlowPath :=
        changed.agrees_slow
      have agrees := before.next (index ▸ valid.2.2) has
      rw [← number] at agrees
      refine (commitUpTo_meets (r := { r with log := replaced.1 }) changed settled.counted agrees
        fun leader => absurd leader follower).imp ?_
      rintro _ w' r' _ ⟨same, settled', -⟩
      exact done same settled'
    · have agrees := follows.agrees_slow.mono (Nat.not_lt.mp known)
      refine (commitUpTo_meets follows settled.counted agrees fun leader =>
        absurd leader follower).imp ?_
      rintro _ w' r' _ ⟨same, settled', -⟩
      exact done same settled'

/-! ## State transfer -/

/-- A piece of the leader's log, from after a number on. -/
def Piece (w : Course) (from_ : Nat) (entries : List Entry) : Prop :=
  ∀ index entry, entries[index]? = some entry →
    entry.viewstamp = ⟨0, from_ + 1 + index⟩ ∧ w.At (from_ + 1 + index) entry.request

theorem Piece.head {from_ : Nat} {entry : Entry} {rest : List Entry}
    (piece : Piece w from_ (entry :: rest)) :
    entry.viewstamp = ⟨0, from_ + 1⟩ ∧ w.At (from_ + 1) entry.request :=
  piece 0 entry rfl

theorem Piece.tail {from_ : Nat} {entry : Entry} {rest : List Entry}
    (piece : Piece w from_ (entry :: rest)) : Piece w (from_ + 1) rest := by
  intro index other here
  have found := piece (index + 1) other here
  have number : from_ + 1 + (index + 1) = from_ + 1 + 1 + index := by omega
  rwa [number] at found

/-- An entry that follows on what the replica knows is known afterwards. -/
theorem transferEntry_meets {old from_ : Nat} {entry : Entry} (follower : idx ≠ d.leader)
    (follows : r.core.Follows d w strict idx) (settled : r.core.Settled)
    (stamp : entry.viewstamp = ⟨0, from_ + 1⟩) (here : w.At (from_ + 1) entry.request)
    (reaches : from_ ≤ r.lastSlowPath) :
    (logic d strict idx).Meets (transferEntry old entry) w r fun _ w' r' =>
      w' = w ∧ r'.core.Settled ∧ from_ + 1 ≤ r'.lastSlowPath := by
  have committed_le : r.lastCommitted ≤ r.lastSlowPath := settled.committed_le
  have slow_le : r.lastSlowPath ≤ r.lastFastPath := follows.slow_le
  have settled' : ∀ r' : Core, r'.executed = r.executed → r'.lastCommitted = r.lastCommitted →
      r'.lastSlowPath = r.lastSlowPath + 1 → r'.Settled := by
    intro r' executed lastCommitted lastSlowPath
    refine ⟨?_, by omega⟩
    unfold Core.Counted
    rw [executed, lastCommitted]
    exact settled.counted
  unfold transferEntry
  rw [stamp]
  refine .bind (.get follows fun _ => ?_)
  refine .branch (fun committed => .pure follows ⟨rfl, settled, committed.trans committed_le⟩)
    (fun _ => ?_)
  refine .branch (fun known => ?_) (fun new => ?_)
  · refine .bind (.demand follows fun mine found _ => .bind (.require follows fun _ _ => ?_))
    refine .bind (.require follows fun _ _ => .branch (fun _ => ?_) (fun older => ?_))
    · exact .bind (.require follows fun _ _ => .pure follows ⟨rfl, settled, known⟩)
    · -- there is only one view
      have inLog := List.mem_of_getElem? (Log.operation_of_find found)
      exact absurd (follows.views _ inLog) older
  · have next : from_ = r.lastSlowPath := Nat.le_antisymm reaches (Nat.not_lt.mp new)
    subst next
    have agrees := follows.agrees_slow
    refine .branch (fun within => ?_) (fun beyond => ?_)
    · refine .bind (.demand follows fun mine _ _ => .bind (.require follows fun _ _ => ?_))
      refine .bind (.demand follows fun replaced done _ => ?_)
      obtain ⟨changed, has⟩ := follows.setRequest follower here within done
      have before : ({ r.core with log := replaced.1 } : Core).Agrees w r.lastSlowPath :=
        changed.agrees_slow
      refine .bind (.change (changed.know follower (before.next here.2 has) (Nat.le_succ _))
        fun kept => ?_)
      exact .pure kept ⟨rfl, settled' _ rfl rfl rfl, Nat.le_refl _⟩
    · refine .bind (.require follows fun _ _ => .bind (.demand follows fun log appended _ => ?_))
      obtain ⟨longer, has⟩ := follows.append follower rfl appended
      have same : r.lastFastPath = r.lastSlowPath := by omega
      have here' : log.requests[r.lastSlowPath]? = some entry.request := by
        rw [← same]
        exact has
      have before : ({ r.core with log := log, lastFastPath := r.lastFastPath + 1 } : Core).Agrees w
          r.lastSlowPath :=
        longer.agrees_slow
      refine .bind (.change (longer.know follower (before.next here.2 here') (Nat.le_succ _))
        fun kept => ?_)
      exact .pure kept ⟨rfl, settled' _ rfl rfl rfl, Nat.le_refl _⟩

/-- A piece of the leader's log that follows on what the replica knows. -/
theorem transferEntries_meets {old from_ : Nat} {entries : List Entry} (follower : idx ≠ d.leader)
    (follows : r.core.Follows d w strict idx) (settled : r.core.Settled)
    (piece : Piece w from_ entries) (reaches : from_ ≤ r.lastSlowPath) :
    (logic d strict idx).Meets (transferEntries old entries) w r fun _ w' r' =>
      w' = w ∧ r'.core.Settled := by
  induction entries generalizing r old from_ with
  | nil => exact .pure follows ⟨rfl, settled⟩
  | cons entry rest inductionHypothesis =>
      obtain ⟨stamp, here⟩ := piece.head
      refine .bind ((transferEntry_meets follower follows settled stamp here reaches).imp ?_)
      rintro old' w' r' follows' ⟨rfl, settled', reaches'⟩ _
      exact inductionHypothesis follows' settled' piece.tail reaches'

/-- The rest of a state transfer: commits, acknowledgements and the prepares that had to wait. -/
theorem completeTransfer_meets {msg : StateTransferMessage} {old : Nat}
    (inGroup : idx < d.configuration.n) (follower : idx ≠ d.leader)
    (follows : r.core.Follows d w strict idx) (settled : r.core.Settled) :
    (logic d strict idx).Meets (completeTransfer (d.setup idx) app msg old) w r fun _ w' r' =>
      r'.core.Leaves d idx w w' := by
  unfold completeTransfer
  refine .bind (.get follows fun _ => .bind (.require follows fun known _ => ?_))
  refine .bind (.require follows fun _ _ => ?_)
  refine .bind ((commitUpTo_meets follows settled.counted (follows.agrees_slow.mono known)
    fun leader => absurd leader follower).imp ?_)
  rintro _ w₁ r₁ follows₁ ⟨rfl, settled₁, -⟩ _
  refine .bind ((sendPrepareOKs_meets inGroup follower follows₁ settled₁).imp ?_)
  rintro _ w₂ r₂ follows₂ ⟨later₂, acks⟩ _
  refine .bind (.get follows₂ fun _ => ?_)
  have emptied : ({ r₂.core with pendingPrepares := [] } : Core).Follows d w₂ strict idx :=
    { follows₂ with
      prepares := fun _ none_ => nomatch none_
      leads := fun leader => absurd leader follower }
  have settled₂ : ({ r₂.core with pendingPrepares := [] } : Core).Settled :=
    { acks.settled with }
  refine .bind (.change emptied fun _ => ?_)
  refine (Meets.forEach (fun w' (r' : Replica) => w₂.Later d idx w' ∧ r'.core.Settled) ?_ emptied
    ⟨.refl w₂, settled₂⟩).imp ?_
  · rintro ⟨remote, prepare⟩ inPending w' r' follows' ⟨later', settled'⟩
    have valid := (follows₂.prepares _ inPending).later later'.log
    refine (handlePrepare_meets inGroup follows' settled' valid).imp ?_
    rintro _ w'' r'' _ ⟨later'', settled''⟩
    exact ⟨later'.trans later'', settled''⟩
  · rintro _ w' r' _ ⟨later', settled'⟩
    exact ⟨later₂.trans later', settled'⟩

/-- A follower handles a `StateTransfer`. -/
theorem handleStateTransfer_meets {msg : StateTransferMessage} (inGroup : idx < d.configuration.n)
    (follows : r.core.Follows d w strict idx) (settled : r.core.Settled)
    (valid : msg.Valid d w idx) :
    (logic d strict idx).Meets (handleStateTransfer (d.setup idx) app msg) w r fun _ w' r' =>
      r'.core.Leaves d idx w w' := by
  obtain ⟨msgView, follower, from_, committed, piece⟩ := valid
  have view : r.view = 0 := follows.view
  have reaches : from_ ≤ r.lastSlowPath :=
    (committed.trans follows.committed).trans settled.committed_le
  unfold handleStateTransfer
  refine .bind (.get follows fun _ => ?_)
  refine .branch (fun _ => .pure follows ⟨.refl w, settled⟩) (fun _ => ?_)
  refine .bind ((transferEntries_meets follower follows settled piece reaches).imp ?_)
  rintro old w' r' follows' ⟨rfl, settled'⟩ _
  refine .branch (fun later => absurd later (by rw [msgView]; omega)) (fun _ => ?_)
  exact completeTransfer_meets inGroup follower follows' settled'

/-! ## Requests -/

/-- A follower puts a request at the end of its log and says so. -/
theorem guessRequest_meets {msg : RequestMessage} (inGroup : idx < d.configuration.n)
    (follower : idx ≠ d.leader) (follows : r.core.Follows d w strict idx)
    (settled : r.core.Settled) (numbers : d.Numbers msg.req) :
    (logic d strict idx).Meets (guessRequest (d.setup idx) msg) w r fun _ w' r' =>
      r'.core.Leaves d idx w w' := by
  have view : r.view = 0 := follows.view
  unfold guessRequest
  refine .bind (.get follows fun _ => .bind (.demand follows fun log appended _ => ?_))
  obtain ⟨longer, has⟩ := follows.append follower view appended
  refine .bind (.change longer fun _ => ?_)
  refine .later longer.later_tell (.emit longer.tell (valid_post fun dst => ?_)
    ⟨longer.later_tell, { settled with }⟩)
  exact ⟨view, inGroup, follower, fun slow => absurd rfl slow, fun _ =>
    ⟨numbers, .inr ⟨rfl, has⟩⟩⟩

end PaxosBus.FastPaxos

import PaxosBus.Vr.Operation

/-!
# State transfer

A replica that is behind is sent the end of another replica's log. The transfer
either leaves the receiver with the log of the sender, or with its own, of which
the sender's is a piece.
-/

set_option autoImplicit false

namespace PaxosBus.Vr

open PaxosBus.Common PaxosBus.Library World
open Logic (Meets)

variable {setup : Setup} {admits : Admission} {w : World setup.configuration admits} {r : Replica}
  {app : App}

/-! ## Merging a log into one's own -/

/-- Two logs have the same operations before `bound`, as far as the second goes. -/
def AgreeBelow (log target : List Operation) (bound : Nat) : Prop :=
  ∀ index, index < bound → index < target.length → log[index]? = target[index]?

namespace AgreeBelow

variable {log target : List Operation} {bound : Nat}

/-- Agreement extends over one more operation. -/
theorem succ (agree : AgreeBelow log target bound) (next : log[bound]? = target[bound]?) :
    AgreeBelow log target (bound + 1) := by
  intro index below inside
  rcases Nat.lt_succ_iff_lt_or_eq.mp below with before | rfl
  · exact agree index before inside
  · exact next

/-- Where both logs reach, agreement is about their first operations. -/
theorem take_eq (agree : AgreeBelow log target bound) (inside : bound ≤ target.length) :
    log.take bound = target.take bound := by
  apply List.ext_getElem?
  intro index
  rw [List.getElem?_take, List.getElem?_take]
  split
  next below => exact agree index below (by omega)
  next => rfl

/-- A log that agrees with all of another has it as a piece. -/
theorem below (agree : AgreeBelow log target bound) (covered : target.length ≤ bound) :
    target <+: log := by
  rw [List.prefix_iff_eq_take]
  apply List.ext_getElem?
  intro index
  rw [List.getElem?_take]
  split
  next inside => exact (agree index (by omega) inside).symm
  next outside => exact List.getElem?_eq_none (by omega)

/-- The beginning of a log agrees with the log. -/
theorem take (log : List Operation) {count : Nat} (within : bound ≤ count) :
    AgreeBelow (log.take count) log bound := by
  intro index below _
  rw [List.getElem?_take, if_pos (by omega)]

end AgreeBelow

/-- What makes the entries of a state transfer fit: they are the end of `target` from `from_`
on, the replica has that many operations and those of `target` among them, it has the committed
ones of `target`, and it has the same operations where it has the same views. -/
structure Mergeable (target : List Operation) (from_ : Nat) (r : Replica) : Prop where
  start : r.log.start = 1
  lastOp : r.lastOp = r.log.entries.length
  committed_le : r.lastCommitted ≤ r.lastOp
  committed : AgreeBelow r.log.operations target r.lastCommitted
  from_le : from_ ≤ r.lastOp
  agree : AgreeBelow r.log.operations target from_
  sameView : ∀ (index : Nat) (mine theirs : Operation), r.log.operations[index]? = some mine →
    target[index]? = some theirs → mine.view = theirs.view → mine = theirs

/-- Some operation of a log is from another view than the one in its place. -/
def Differs (log target : List Operation) : Prop :=
  ∃ (index : Nat) (mine theirs : Operation), log[index]? = some mine ∧
    target[index]? = some theirs ∧ mine.view ≠ theirs.view

/-- What merging `target` gives: only the log has changed, and it is `target`, or it has not
changed and has `target` as a piece. -/
def Merged (target : List Operation) (r r' : Replica) : Prop :=
  ∃ log lastOp, r' = { r with log := log, lastOp := lastOp } ∧ log.start = 1 ∧
    lastOp = log.entries.length ∧
    (log.operations = target ∧ (r.log.operations <+: target ∨ Differs r.log.operations target) ∨
      log.operations = r.log.operations ∧ target <+: r.log.operations)

/-- A replica whose log is the beginning of `target` can merge the rest. -/
theorem Mergeable.of_take {target : List Operation} {from_ : Nat} {log : Log Unit}
    (start : log.start = 1) (operations : log.operations = target.take from_)
    (inside : from_ ≤ target.length) (committed : r.lastCommitted ≤ from_) :
    Mergeable target from_ { r with lastOp := from_, log := log } where
  start := start
  lastOp := by
    rw [← Log.length_operations, operations, List.length_take]
    exact (min_eq_left inside).symm
  committed_le := committed
  committed := operations ▸ AgreeBelow.take target committed
  from_le := Nat.le_refl _
  agree := operations ▸ AgreeBelow.take target (Nat.le_refl _)
  sameView index mine theirs found foundToo _ := by
    change log.operations[index]? = some mine at found
    rw [operations, List.getElem?_take] at found
    split at found
    · exact Option.some.inj (found.symm.trans foundToo)
    · simp at found

/-- Merging what is left of `target` into a beginning of it gives `target`. -/
theorem Merged.of_take {target : List Operation} {count : Nat} {log : Log Unit}
    {r' : Replica} (operations : log.operations = target.take count)
    (merged : Merged target { r with lastOp := count, log := log } r')
    (kept : r.log.operations <+: target ∨ Differs r.log.operations target) :
    Merged target r r' := by
  obtain ⟨after, lastOp, rfl, start, length, cases_⟩ := merged
  refine ⟨after, lastOp, rfl, start, length, .inl ⟨?_, kept⟩⟩
  rcases cases_ with ⟨whole, -⟩ | ⟨same, below⟩
  · exact whole
  · change after.operations = log.operations at same
    change target <+: log.operations at below
    rw [operations] at same below
    have covered : target.length ≤ (target.take count).length := below.length_le
    rw [same]
    exact ((List.take_prefix count target).eq_of_length
      (Nat.le_antisymm (List.take_prefix count target).length_le covered))

/-- What one entry of a state transfer does: the replica has it already, or its log has become
the beginning of `target` up to the entry. -/
def PlacedEntry (target : List Operation) (from_ : Nat) (r r' : Replica) : Prop :=
  (r' = r ∧ from_ + 1 ≤ r.lastOp ∧ r.log.operations[from_]? = target[from_]?) ∨
    ∃ log, r' = { r with lastOp := from_ + 1, log := log } ∧ log.start = 1 ∧
      log.operations = target.take (from_ + 1) ∧ r.lastCommitted ≤ from_ + 1 ∧
      (r.log.operations <+: target ∨ Differs r.log.operations target)

theorem transferEntry_meets {target : List Operation} {from_ oldLastOp : Nat}
    {entry : Entry} (recorded : r.Recorded w setup.replicaIdx)
    (mergeable : Mergeable target from_ r) (number : entry.viewstamp.opnum = from_ + 1)
    (theirs : target[from_]? = some entry.operation) :
    (setup.logic admits).Meets (transferEntry oldLastOp entry) w r fun _ w' r' =>
      w' = w ∧ PlacedEntry target from_ r r' := by
  have inside : from_ < target.length := (List.getElem?_eq_some_iff.mp theirs).1
  have takeEq := mergeable.agree.take_eq inside.le
  have takeSucc : target.take (from_ + 1) = target.take from_ ++ [entry.operation] := by
    rw [List.take_add_one, theirs]
    rfl
  have length : r.log.operations.length = r.lastOp :=
    (Log.length_operations r.log).trans mergeable.lastOp.symm
  unfold transferEntry
  refine .bind (.get recorded fun _ => ?_)
  dsimp only
  rw [number]
  refine .branch (fun committed => ?_) (fun uncommitted => ?_)
  · refine .pure recorded ⟨rfl, .inl ⟨rfl, committed.trans mergeable.committed_le, ?_⟩⟩
    exact mergeable.committed from_ (by omega) inside
  refine .branch (fun had => ?_) (fun missing => ?_)
  · refine .bind (.demand recorded fun mine found _ => ?_)
    have here := Log.operation_of_find found
    rw [mergeable.start, Nat.add_sub_cancel] at here
    refine .bind (.require recorded fun _ _ => ?_)
    refine .bind (.require recorded fun _ _ => ?_)
    refine .branch (fun sameView => ?_) (fun otherView => ?_)
    · refine .bind (.require recorded fun _ _ => ?_)
      refine .pure recorded ⟨rfl, .inl ⟨rfl, had, ?_⟩⟩
      rw [here, theirs, mergeable.sameView from_ _ _ here theirs sameView]
    · refine .bind (.require recorded fun _ _ => ?_)
      refine .bind (.demand recorded fun cut removed _ => ?_)
      refine .bind (.demand recorded fun log appended _ => ?_)
      obtain ⟨startCut, operationsCut⟩ := Log.of_removeAfter removed
      obtain ⟨-, start, operations⟩ := Log.of_append appended
      rw [mergeable.start, Nat.add_sub_cancel, takeEq] at operationsCut
      refine .bind (.change recorded fun _ => ?_)
      refine .pure recorded ⟨rfl, .inr ⟨log, rfl, ?_, ?_, ?_, ?_⟩⟩
      · exact start.trans (startCut.trans mergeable.start)
      · rw [operations, operationsCut, takeSucc]
        rfl
      · omega
      · exact .inr ⟨from_, _, _, here, theirs, otherView⟩
  · refine .bind (.require recorded fun next _ => ?_)
    refine .bind (.demand recorded fun log appended _ => ?_)
    obtain ⟨-, start, operations⟩ := Log.of_append appended
    have ended : r.lastOp = from_ := by omega
    rw [List.take_of_length_le (by omega)] at takeEq
    refine .bind (.change recorded fun _ => ?_)
    refine .pure recorded ⟨rfl, .inr ⟨log, by rw [ended], ?_, ?_, ?_, ?_⟩⟩
    · exact start.trans mergeable.start
    · rw [operations, takeEq, takeSucc]
      rfl
    · have := mergeable.committed_le
      omega
    · exact .inl (takeEq ▸ List.take_prefix _ _)

/-- The entries of a state transfer are merged. -/
theorem transferEntries_meets {target : List Operation} {from_ oldLastOp : Nat}
    {entries : List Entry} (recorded : r.Recorded w setup.replicaIdx)
    (mergeable : Mergeable target from_ r) (window : Window target 1 from_ entries) :
    (setup.logic admits).Meets (transferEntries oldLastOp entries) w r fun _ w' r' =>
      w' = w ∧ Merged target r r' := by
  induction entries generalizing from_ r oldLastOp with
  | nil =>
      have covered : target.length ≤ from_ := by
        simpa using window.operations.symm
      exact .pure recorded ⟨rfl, r.log, r.lastOp, rfl, mergeable.start, mergeable.lastOp,
        .inr ⟨rfl, mergeable.agree.below covered⟩⟩
  | cons entry rest inductionHypothesis =>
      have theirs : target[from_]? = some entry.operation := by
        have := congrArg (·[0]?) window.operations
        simpa using this.symm
      have windowRest : Window target 1 (from_ + 1) rest :=
        ⟨window.numbered.tail, by
          rw [List.drop_add_one_eq_tail_drop, ← window.operations]
          rfl⟩
      have number : entry.viewstamp.opnum = from_ + 1 :=
        window.numbered.head.trans (Nat.add_comm 1 from_)
      unfold transferEntries
      refine .bind ((transferEntry_meets recorded mergeable number theirs).imp ?_)
      rintro oldLastOp _ _ keeps ⟨rfl, ⟨rfl, long, same⟩ |
        ⟨log, rfl, start, operations, committed, kept⟩⟩ _
      · exact inductionHypothesis recorded
          { mergeable with from_le := long, agree := mergeable.agree.succ same } windowRest
      · have inside : from_ < target.length := (List.getElem?_eq_some_iff.mp theirs).1
        have mergeableNext : Mergeable target (from_ + 1)
            { r with lastOp := from_ + 1, log := log } :=
          .of_take start operations inside committed
        refine (inductionHypothesis keeps mergeableNext windowRest).imp ?_
        rintro _ final after _ ⟨same, merged⟩
        exact ⟨same, merged.of_take operations kept⟩

/-! ## The handlers -/

/-- Two pieces of one log agree as far as the first goes. -/
theorem AgreeBelow.of_below {log target whole : List Operation} {bound : Nat}
    (below : log <+: whole) (below' : target <+: whole) (long : bound ≤ log.length) :
    AgreeBelow log target bound := by
  intro index before inside
  obtain ⟨more, rfl⟩ := below
  obtain ⟨more', same⟩ := below'
  have left : (log ++ more)[index]? = log[index]? := List.getElem?_append_left (by omega)
  have right : (target ++ more')[index]? = target[index]? := List.getElem?_append_left inside
  rw [← left, ← right, same]

/-- A log agrees with one of its own or a later view as far as it is decided. -/
theorem agreeBelow_of_decided (balanced : setup.configuration.Balanced)
    {view view' view'' bound : Nat} {log target : List Operation} (decided : w.Decided view bound)
    (before : view ≤ view') (le : view' ≤ view'') (within : w.Within view' log)
    (within' : w.Within view'' target) (long : bound ≤ log.length) :
    AgreeBelow log target bound := by
  rcases Nat.lt_or_eq_of_le le with later | rfl
  · have longToo := decided.le_length balanced (by omega) within'
    have same := decided.mono before (Nat.le_refl _) |>.take_eq balanced within long
      (decided.mono (before.trans le) (Nat.le_refl _)) within' longToo
    intro index below _
    have here := congrArg (·[index]?) same
    simpa only [List.getElem?_take, if_pos below] using here
  · obtain ⟨-, -, -, below⟩ := within
    obtain ⟨-, -, -, below'⟩ := within'
    exact .of_below below below' long

/-- A valid state transfer of the replica's view or a later one fits. -/
theorem mergeable_of_valid (balanced : setup.configuration.Balanced)
    (recorded : r.Recorded w setup.replicaIdx) (placed : r.core.Placed w setup.replicaIdx)
    {view asked from_ : Nat} {log : List Operation} (le : r.normalView ≤ view)
    (within : w.Within view log) (active : asked ≤ r.normalView)
    (decided : w.Decided asked from_)
    (held : from_ ≤ (w.logs.logIn setup.replicaIdx asked).length) : Mergeable log from_ r := by
  have own := placed.within recorded
  have length : r.log.operations.length = r.lastOp := placed.length_operations
  have fromLe : from_ ≤ r.lastOp := by
    rcases Nat.lt_or_eq_of_le active with earlier | rfl
    · exact length ▸ decided.le_length balanced earlier own
    · exact placed.length_logIn ▸ held
  exact {
    start := placed.start
    lastOp := placed.lastOp
    committed_le := placed.committed_le
    committed := agreeBelow_of_decided balanced placed.committed (Nat.le_refl _) le own within
      (length.symm ▸ placed.committed_le)
    from_le := fromLe
    agree := agreeBelow_of_decided balanced decided active le own within (length.symm ▸ fromLe)
    sameView := fun _ _ _ mine theirs same => own.operation_eq within mine theirs same }

/-- A replica that enters a view with a log of it is active. -/
theorem Core.Active.entered (r : Replica) (lastOp : Nat) {w' : World setup.configuration admits}
    {view : Nat} (start : r.log.start = 1) (count : lastOp = r.log.entries.length)
    (log : w'.logs.logIn setup.replicaIdx view = r.log.operations)
    (committed : w'.Decided view r.lastCommitted) (committed_le : r.lastCommitted ≤ lastOp)
    (collected : r.core.Collected w' setup.replicaIdx) :
    ({ (r.enterView setup view).core with lastOp := lastOp } : Core).Active w'
      setup.replicaIdx where
  placed := {
    start := start
    log := log.symm
    lastOp := count
    committed := committed
    committed_le := committed_le
    collected := {
      required := collected.required
      requiredVotes := collected.requiredVotes
      acks := QuorumSet.all_clear
      votes := QuorumSet.all_clear
      pending := collected.pending
      resendable := collected.resendable } }
  normal := rfl
  view := rfl
  fence := rfl

/-- The invariant of the loop over the pending prepares of a replica. -/
def Draining (pending : List (Address × PrepareMessage)) (w : World setup.configuration admits)
    (r : Replica) : Prop :=
  r.core.Active w setup.replicaIdx ∧ ∀ entry ∈ pending, entry.2.Valid w

theorem completeTransfer_meets (balanced : setup.configuration.Balanced)
    (inGroup : setup.replicaIdx < setup.configuration.n)
    (recorded : r.Recorded w setup.replicaIdx) (active : r.core.Active w setup.replicaIdx)
    {msg : StateTransferMessage} {oldLastOp : Nat} (decided : w.Decided r.view msg.opnum) :
    (setup.logic admits).Meets (completeTransfer setup app msg oldLastOp) w r fun _ w' r' =>
      r'.core.Active w' setup.replicaIdx := by
  unfold completeTransfer
  refine .bind (.get recorded fun _ => ?_)
  refine .bind (.require recorded fun _ _ => ?_)
  refine .bind ((commitUpTo_meets balanced recorded active decided).imp ?_)
  rintro _ _ committed keeps ⟨rfl, activeCommitted, -⟩ _
  refine .bind ((sendPrepareOKs_meets inGroup keeps activeCommitted oldLastOp).imp ?_)
  rintro _ _ acked keepsAcked ⟨rfl, same⟩ _
  have activeAcked : acked.core.Active _ setup.replicaIdx := same.symm ▸ activeCommitted
  have pending := activeAcked.placed.collected.pending
  refine .bind (.get keepsAcked fun _ => ?_)
  refine .bind (.change keepsAcked fun _ => ?_)
  refine Meets.imp (Meets.forEach (Draining acked.pendingPrepares) ?_ keepsAcked ?_) ?_
  · rintro ⟨remote, prepare⟩ inPending before state keepsBefore ⟨activeBefore, valid⟩
    refine (handlePrepare_meets inGroup keepsBefore activeBefore remote
      (valid _ inPending)).imp_later ?_
    intro _ after _ later _ activeAfter
    exact ⟨activeAfter, fun entry inside => (valid entry inside).grows later.grows⟩
  · refine ⟨{ activeAcked with placed := { activeAcked.placed with collected := ?_ } }, pending⟩
    exact { activeAcked.placed.collected with pending := fun _ none_ => nomatch none_ }
  · exact fun _ _ _ _ draining => draining.1

theorem handleRequestStateTransfer_meets (recorded : r.Recorded w setup.replicaIdx)
    (active : r.core.Active w setup.replicaIdx) {src : Nat} {msg : RequestStateTransferMessage}
    (valid : msg.Valid w src) :
    (setup.logic admits).Meets (handleRequestStateTransfer (.replica src) msg) w r fun _ w' r' =>
      r'.core.Active w' setup.replicaIdx := by
  unfold handleRequestStateTransfer
  refine .bind (.get recorded fun _ => ?_)
  refine .branch (fun _ => .pure recorded active) (fun _ => ?_)
  refine .branch (fun _ => ?_) (fun notLater => ?_)
  · refine (requestStateTransfer_meets recorded active).imp ?_
    rintro _ _ _ _ ⟨rfl, same⟩
    exact same.symm ▸ active
  obtain ⟨wasActive, decided, held⟩ := valid
  have window := r.log.window_dump (msg.opnum + 1)
  have start : r.log.start = 1 := active.placed.start
  rw [start, max_eq_left (by omega), Nat.add_sub_cancel] at window
  have within := active.placed.within recorded
  have committed : w.Decided r.normalView r.lastCommitted := active.placed.committed
  rw [show r.normalView = r.view from active.view] at within committed
  exact .emit recorded ⟨r.log.operations, msg.opnum, msg.view, within, window, not_lt.mp notLater,
    wasActive, decided, held, committed⟩ active

/-- Merging in the view that a replica is active in lengthens its log. -/
theorem Merged.extends_ {target : List Operation} {r' : Replica} {whole : List Operation}
    (merged : Merged target r r') (below : r.log.operations <+: whole)
    (below' : target <+: whole) :
    r.log.operations <+: r'.log.operations ∧ r'.log.operations <+: whole := by
  obtain ⟨log, lastOp, rfl, -, -, ⟨whole_, kept⟩ | ⟨same, -⟩⟩ := merged
  · change _ <+: log.operations ∧ log.operations <+: _
    rw [whole_]
    refine ⟨?_, below'⟩
    rcases kept with shorter | ⟨index, mine, theirs, found, foundToo, differ⟩
    · exact shorter
    · have agree := AgreeBelow.of_below below below' (Nat.le_refl _)
      have same := agree index (List.getElem?_eq_some_iff.mp found).1
        (List.getElem?_eq_some_iff.mp foundToo).1
      rw [found, foundToo] at same
      exact absurd (congrArg Operation.view (Option.some.inj same)) differ
  · change _ <+: log.operations ∧ log.operations <+: _
    rw [same]
    exact ⟨List.prefix_rfl, below⟩

/-- A replica that does not keep a suffix of its own has the sender's log after a transfer. -/
theorem Merged.operations_eq {target : List Operation} {r' : Replica}
    (merged : Merged target r r') {msg : StateTransferMessage} {from_ : Nat}
    (later : r.view < msg.view) (start : r.log.start = 1)
    (lastOp : r.log.operations.length = r.lastOp) (committed : r.lastCommitted ≤ target.length)
    (window : Window target 1 from_ msg.entries) (clear : ¬ r.KeepsSuffix msg) :
    r'.log.operations = target := by
  obtain ⟨log, count, rfl, -, -, ⟨whole, -⟩ | ⟨same, below⟩⟩ := merged
  · exact whole
  refine same.trans (below.eq_of_length_le ?_).symm
  by_contra longer
  refine clear ⟨later, by omega, fun entry inEntries _ => ?_⟩
  obtain ⟨index, found⟩ := List.mem_iff_getElem?.mp inEntries
  have number := window.numbered index entry found
  have theirs : target[from_ + index]? = some entry.operation := by
    have := congrArg (·[index]?) window.operations
    simp only [List.getElem?_map, found, Option.map_some, List.getElem?_drop] at this
    exact this.symm
  have inside := (List.getElem?_eq_some_iff.mp theirs).1
  refine ⟨by omega, ?_⟩
  obtain ⟨more, wholeLog⟩ := below
  have mine : r.log.operations[from_ + index]? = some entry.operation := by
    rw [← wholeLog, List.getElem?_append_left inside, theirs]
  rw [Log.getElem?_operations] at mine
  obtain ⟨own, foundOwn, sameOperation⟩ := Option.map_eq_some_iff.mp mine
  unfold Log.find
  rw [start, if_neg (by omega), show entry.viewstamp.opnum - 1 = from_ + index by omega, foundOwn]
  exact congrArg (fun operation => some operation.view) sameOperation

/-- Entering a later view with a log of it that has everything that is committed. -/
theorem enterTransferred_meets (balanced : setup.configuration.Balanced)
    (inGroup : setup.replicaIdx < setup.configuration.n)
    (recorded : r.Recorded w setup.replicaIdx) (engaged : r.core.Engaged w setup.replicaIdx)
    {msg : StateTransferMessage} (later : r.view < msg.view) {log : Log Unit} {oldLastOp : Nat}
    (start : log.start = 1) (within : w.Within msg.view log.operations)
    (decided : w.Decided msg.view msg.opnum) :
    (setup.logic admits).Meets
      (do
        Handler.modify (·.enterView setup msg.view)
        completeTransfer setup app msg oldLastOp) w
      { r with log := log, lastOp := log.entries.length } fun _ w' r' =>
        r'.core.Active w' setup.replicaIdx := by
  have placed := engaged.placed
  have normalLe : r.normalView ≤ r.view := engaged.normalView_le
  have fenceLe : r.fence ≤ r.view := engaged.fence_le
  have fresh : w.logs.logIn setup.replicaIdx msg.view = [] :=
    w.sound.untouched setup.replicaIdx msg.view (by rw [recorded.1]; omega)
  have unfenced : w.logs.fence setup.replicaIdx ≤ msg.view := by
    rw [recorded.2]
    omega
  obtain ⟨w', moves, logIn, normalView, fence, -⟩ :=
    exists_adopt unfenced within (fresh ▸ List.nil_prefix)
  have committedLe : r.lastCommitted ≤ log.operations.length :=
    placed.committed.le_length balanced (by change r.normalView < msg.view; omega) within
  have committed : w'.Decided msg.view r.lastCommitted :=
    (placed.committed.grows moves.grows).mono (by change r.normalView ≤ msg.view; omega)
      (Nat.le_refl _)
  have entered : (Replica.enterView setup
      { r with log := log, lastOp := log.entries.length } msg.view).core.Active w'
        setup.replicaIdx :=
    Core.Active.entered { r with log := log, lastOp := log.entries.length } log.entries.length
      start rfl logIn committed (committedLe.trans (Log.length_operations log).le)
      { placed.collected.grows moves.grows with }
  refine .bind (.modify moves ⟨normalView, fence⟩ fun keeps => ?_)
  exact completeTransfer_meets balanced inGroup keeps entered (decided.grows moves.grows)

/-- Going on in the same view with a longer log of it. -/
theorem stayTransferred_meets (balanced : setup.configuration.Balanced)
    (inGroup : setup.replicaIdx < setup.configuration.n)
    (recorded : r.Recorded w setup.replicaIdx) (active : r.core.Active w setup.replicaIdx)
    {msg : StateTransferMessage} {log : Log Unit} {oldLastOp : Nat}
    (start : log.start = 1) (longer : r.log.operations <+: log.operations)
    (below : log.operations <+: w.viewLog r.view) (decided : w.Decided r.view msg.opnum) :
    (setup.logic admits).Meets (completeTransfer setup app msg oldLastOp) w
      { r with log := log, lastOp := log.entries.length } fun _ w' r' =>
        r'.core.Active w' setup.replicaIdx := by
  have normal : r.normalView = r.view := active.view
  have fenceEq : r.fence = r.view := active.fence
  obtain ⟨base, started, above, -⟩ := active.placed.within recorded
  rw [normal] at started
  have held : r.log.operations = w.logs.logIn setup.replicaIdx r.view :=
    normal ▸ active.placed.log
  have unfenced : w.logs.fence setup.replicaIdx ≤ r.view := by
    rw [recorded.2, fenceEq]
  obtain ⟨w', moves, logIn, normalView, fence, -⟩ :=
    exists_adopt unfenced ⟨base, started, above.trans longer, below⟩ (held ▸ longer)
  have committedLe : r.lastCommitted ≤ log.entries.length := by
    calc r.lastCommitted ≤ r.lastOp := active.placed.committed_le
      _ = r.log.operations.length := active.placed.length_operations.symm
      _ ≤ log.operations.length := longer.length_le
      _ = log.entries.length := Log.length_operations log
  have activeNow : ({ r with log := log, lastOp := log.entries.length } : Replica).core.Active w'
      setup.replicaIdx := {
    placed := {
      start := start
      log := logIn.symm.trans (congrArg _ normal.symm)
      lastOp := rfl
      committed := active.placed.committed.grows moves.grows
      committed_le := committedLe
      collected := { active.placed.collected.grows moves.grows with } }
    normal := active.normal
    view := active.view
    fence := active.fence }
  refine .later moves (completeTransfer_meets balanced inGroup ?_ activeNow ?_)
  · exact ⟨normalView.trans normal.symm, fence.trans fenceEq.symm⟩
  · exact decided.grows moves.grows

theorem handleStateTransfer_meets (balanced : setup.configuration.Balanced)
    (inGroup : setup.replicaIdx < setup.configuration.n)
    (recorded : r.Recorded w setup.replicaIdx)
    (engaged : r.core.Engaged w setup.replicaIdx) {msg : StateTransferMessage}
    (valid : msg.Valid w setup.replicaIdx) (clearSuffix : ¬ r.KeepsSuffix msg)
    (clearEarly : ¬ r.TransfersEarly msg) :
    (setup.logic admits).Meets (handleStateTransfer setup app msg) w r fun _ w' r' =>
      r'.core.Engaged w' setup.replicaIdx := by
  obtain ⟨target, from_, asked, within, window, before, wasActive, decided, held, committed⟩ :=
    valid
  have placed := engaged.placed
  have normalLe : r.normalView ≤ r.view := engaged.normalView_le
  unfold handleStateTransfer
  refine .bind (.get recorded fun _ => ?_)
  refine .branch (fun _ => .pure recorded engaged) (fun notStale => ?_)
  have mergeable := mergeable_of_valid balanced recorded placed
    (normalLe.trans (not_lt.mp notStale)) within (recorded.1 ▸ wasActive) decided held
  refine .bind ((transferEntries_meets recorded mergeable window).imp ?_)
  rintro oldLastOp now merged keeps ⟨rfl, merges⟩ _
  refine .branch (fun later => ?_) (fun notLater => ?_)
  · have committedLe : r.lastCommitted ≤ target.length :=
      placed.committed.le_length balanced (by change r.normalView < msg.view; omega) within
    have same := merges.operations_eq later placed.start placed.length_operations committedLe
      window clearSuffix
    obtain ⟨log, lastOp, rfl, start, rfl, -⟩ := merges
    refine (enterTransferred_meets balanced inGroup recorded engaged later start
      ?_ committed).imp fun _ _ _ _ active => .inl active
    exact same ▸ within
  · have sameView : msg.view = r.view := by omega
    -- The status is normal: a transfer for the view that is still changing is excluded.
    have active : r.core.Active now setup.replicaIdx := by
      rcases engaged with active | changing
      · exact active
      · exact absurd ⟨sameView, changing.status⟩ clearEarly
    obtain ⟨-, -, -, below⟩ := within
    obtain ⟨longer, belowToo⟩ := merges.extends_ (active.below recorded) (sameView ▸ below)
    obtain ⟨log, lastOp, rfl, start, rfl, -⟩ := merges
    exact (stayTransferred_meets balanced inGroup recorded active start longer belowToo
      (sameView ▸ committed)).imp fun _ _ _ _ active => .inl active

end PaxosBus.Vr

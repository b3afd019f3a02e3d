import PaxosBus.Common.ReplicaLog

/-!
# Three numbers of a log

A log of the only view, with the number up to which it is committed, the number
up to which it is the leader's, and the number of its last entry. Exactly the
entries up to the first number are marked as committed, and every other entry is
prepared. Whatever a replica does to its log and the three numbers is one of the
moves here.
-/

set_option autoImplicit false

namespace PaxosBus.FastPaxos

open PaxosBus.Common

/-- The three numbers of a log are in order and say what its entries are. -/
structure Tally (lastCommitted lastSlowPath lastFastPath : Nat) (log : Log Unit) : Prop where
  start : log.start = 1
  unhashed : log.useHash = false
  views : ∀ entry ∈ log.entries, entry.viewstamp.view = 0
  length : log.entries.length = lastFastPath
  committed_le : lastCommitted ≤ lastSlowPath
  slow_le : lastSlowPath ≤ lastFastPath
  states : ∀ (index : Nat) (entry : LogEntry Unit), log.entries[index]? = some entry →
    entry.state = if index < lastCommitted then .committed else .prepared

namespace Tally

variable {lastCommitted lastSlowPath lastFastPath : Nat} {log : Log Unit}

/-- A log that has just been constructed. -/
theorem new (hashing : Hashing Unit) : Tally 0 0 0 (Log.new hashing false) where
  start := rfl
  unhashed := rfl
  views _ none_ := nomatch none_
  length := rfl
  committed_le := Nat.le_refl 0
  slow_le := Nat.le_refl 0
  states _ _ none_ := by simp [Log.new] at none_

/-! ## What the numbers say -/

/-- The last of the three numbers is that of the last entry. -/
theorem lastOpnum (tally : Tally lastCommitted lastSlowPath lastFastPath log) :
    log.lastOpnum = lastFastPath := by
  have start := tally.start
  rcases List.eq_nil_or_concat log.entries with empty | ⟨before, last, whole⟩
  · have length := tally.length
    rw [empty] at length
    unfold Log.lastOpnum
    rw [empty, start]
    exact length
  · have last := log.lastOpnum_add_one (by simp [whole])
    rw [start, tally.length] at last
    omega

/-- There is an entry for every number up to the last. -/
theorem exists_find (tally : Tally lastCommitted lastSlowPath lastFastPath log) {opnum : Nat}
    (positive : 0 < opnum) (within : opnum ≤ lastFastPath) :
    ∃ entry, log.find opnum = some entry ∧ entry.viewstamp = ⟨0, opnum⟩ ∧
      entry.state = if opnum ≤ lastCommitted then .committed else .prepared := by
  have start := tally.start
  have inside : opnum - 1 < log.entries.length := by
    have length := tally.length
    omega
  have here := List.getElem?_eq_getElem inside
  have number := log.numbered _ _ here
  have view := tally.views _ (List.getElem_mem inside)
  have state := tally.states _ _ here
  refine ⟨log.entries[opnum - 1], ?_, ?_, ?_⟩
  · unfold Log.find
    rw [start, if_neg (by omega)]
    exact here
  · ext
    · exact view
    · simp only [number, start]
      omega
  · rw [state]
    congr 1
    simp only [eq_iff_iff]
    omega

/-- An entry above what is committed is prepared. -/
theorem find_prepared (tally : Tally lastCommitted lastSlowPath lastFastPath log) {opnum : Nat}
    (above : lastCommitted < opnum) (within : opnum ≤ lastFastPath) :
    ∃ entry, log.find opnum = some entry ∧ entry.viewstamp = ⟨0, opnum⟩ ∧
      entry.state = .prepared := by
  obtain ⟨entry, found, stamp, state⟩ := tally.exists_find (Nat.zero_lt_of_lt above) within
  rw [if_neg (Nat.not_le.mpr above)] at state
  exact ⟨entry, found, stamp, state⟩

/-- The entries that are marked as committed are exactly those up to the first number. -/
theorem committed_iff (tally : Tally lastCommitted lastSlowPath lastFastPath log) {opnum : Nat} :
    (∃ entry, log.find opnum = some entry ∧ entry.state = .committed) ↔
      0 < opnum ∧ opnum ≤ lastCommitted := by
  have start := tally.start
  constructor
  · rintro ⟨entry, found, state⟩
    obtain ⟨from_, here⟩ := Log.of_find found
    rw [start] at from_ here
    have marked := tally.states _ _ here
    rw [state] at marked
    by_contra above
    rw [if_neg (by omega)] at marked
    cases marked
  · rintro ⟨positive, committed⟩
    have within := committed.trans (tally.committed_le.trans tally.slow_le)
    obtain ⟨entry, found, -, state⟩ := tally.exists_find positive within
    rw [if_pos committed] at state
    exact ⟨entry, found, state⟩

/-! ## What a replica does to its log -/

/-- Another entry at the end. -/
theorem append (tally : Tally lastCommitted lastSlowPath lastFastPath log) {vs : Viewstamp}
    (stamp : vs = ⟨0, lastFastPath + 1⟩) (request : Request) :
    ∃ longer, log.append vs request .prepared = some longer ∧
      Tally lastCommitted lastSlowPath (lastFastPath + 1) longer := by
  have next : vs.opnum = log.start + log.entries.length := by
    rw [stamp, tally.start, tally.length, Nat.add_comm]
  unfold Log.append
  rw [dif_pos ((log.appendable_iff vs).mpr next)]
  refine ⟨_, rfl, ?_⟩
  constructor
  · exact tally.start
  · exact tally.unhashed
  · intro entry member
    rcases List.mem_append.mp member with old | new
    · exact tally.views entry old
    · obtain rfl := List.mem_singleton.mp new
      exact congrArg Viewstamp.view stamp
  · rw [List.length_append, tally.length]
    rfl
  · exact tally.committed_le
  · exact Nat.le_succ_of_le tally.slow_le
  · intro index entry here
    rcases Nat.lt_or_ge index log.entries.length with inside | beyond
    · rw [List.getElem?_append_left inside] at here
      exact tally.states index entry here
    · rw [List.getElem?_append_right beyond] at here
      have above : ¬ index < lastCommitted := by
        have length := tally.length
        have committed := tally.committed_le.trans tally.slow_le
        omega
      obtain rfl := List.mem_singleton.mp (List.mem_of_getElem? here)
      rw [if_neg above]
      rfl

/-- A change of one entry that keeps its viewstamp keeps all views. -/
theorem views_modify {entries : List (LogEntry Unit)}
    (views : ∀ entry ∈ entries, entry.viewstamp.view = 0) (position : Nat)
    {change : LogEntry Unit → LogEntry Unit}
    (same : ∀ entry, (change entry).viewstamp = entry.viewstamp) :
    ∀ entry ∈ entries.modify position change, entry.viewstamp.view = 0 := by
  intro entry member
  obtain ⟨index, here⟩ := List.mem_iff_getElem?.mp member
  rw [List.getElem?_modify] at here
  obtain ⟨before, found, rfl⟩ := Option.map_eq_some_iff.mp here
  have view := views before (List.mem_of_getElem? found)
  split
  · rwa [same]
  · exact view

/-- Another request in the place of one. -/
theorem setRequest (tally : Tally lastCommitted lastSlowPath lastFastPath log) (opnum : Nat)
    (request : Request) :
    ∃ replaced, log.setRequest opnum request = some replaced ∧
      Tally lastCommitted lastSlowPath lastFastPath replaced.1 := by
  unfold Log.setRequest
  rw [if_neg (by simp [tally.unhashed])]
  split
  next => exact ⟨_, rfl, tally⟩
  next =>
      refine ⟨_, rfl, { tally with views := ?_, length := ?_, states := ?_ }⟩
      · exact views_modify tally.views _ fun _ => rfl
      · rw [List.length_modify]
        exact tally.length
      · intro index entry here
        rw [List.getElem?_modify] at here
        obtain ⟨before, found, rfl⟩ := Option.map_eq_some_iff.mp here
        have state := tally.states index before found
        split
        · exact state
        · exact state

/-- One more entry is the leader's. -/
theorem know (tally : Tally lastCommitted lastSlowPath lastFastPath log)
    (new : lastSlowPath < lastFastPath) :
    Tally lastCommitted (lastSlowPath + 1) lastFastPath log :=
  { tally with
    committed_le := Nat.le_succ_of_le tally.committed_le
    slow_le := new }

/-- One more entry is committed, and with it known to be the leader's. -/
theorem commit (tally : Tally lastCommitted lastSlowPath lastFastPath log)
    (new : lastCommitted < lastFastPath) {known : Nat} (covers : lastCommitted + 1 ≤ known)
    (within : known ≤ lastFastPath) :
    Tally (lastCommitted + 1) known lastFastPath
      (log.setStatus (lastCommitted + 1) .committed).1 := by
  obtain ⟨entry, found, -⟩ := tally.exists_find (Nat.succ_pos lastCommitted) new
  unfold Log.setStatus
  rw [found]
  refine { tally with views := ?_, length := ?_, committed_le := covers, slow_le := within,
                      states := ?_ }
  · exact views_modify tally.views _ fun _ => rfl
  · rw [List.length_modify]
    exact tally.length
  · intro index entry here
    rw [List.getElem?_modify] at here
    obtain ⟨before, found, rfl⟩ := Option.map_eq_some_iff.mp here
    have state := tally.states index before found
    have start := tally.start
    split
    next this =>
        rw [if_pos (by omega)]
    next other =>
        rw [state]
        congr 1
        simp only [eq_iff_iff]
        omega

/-! ## What the leader sends of its log -/

/-- Entries of the only view with consecutive numbers, from after a number on. -/
def Consecutive (from_ : Nat) (entries : List (LogEntry Unit)) : Prop :=
  ∀ (index : Nat) (entry : LogEntry Unit), entries[index]? = some entry →
    entry.viewstamp = ⟨0, from_ + 1 + index⟩

theorem Consecutive.head {from_ : Nat} {entry : LogEntry Unit} {rest : List (LogEntry Unit)}
    (consecutive : Consecutive from_ (entry :: rest)) : entry.viewstamp = ⟨0, from_ + 1⟩ :=
  consecutive 0 entry rfl

theorem Consecutive.tail {from_ : Nat} {entry : LogEntry Unit} {rest : List (LogEntry Unit)}
    (consecutive : Consecutive from_ (entry :: rest)) : Consecutive (from_ + 1) rest := by
  intro index other here
  have stamp := consecutive (index + 1) other here
  rwa [show from_ + 1 + (index + 1) = from_ + 1 + 1 + index by omega] at stamp

/-- A dump is consecutive, and reaches to the end. -/
theorem dump (tally : Tally lastCommitted lastSlowPath lastFastPath log) (from_ : Nat) :
    Consecutive from_ (log.dump (from_ + 1)) ∧
      lastFastPath ≤ from_ + (log.dump (from_ + 1)).length := by
  have start := tally.start
  have position : max (from_ + 1) log.start - log.start = from_ := by omega
  unfold Log.dump
  rw [position]
  constructor
  · intro index entry here
    rw [List.getElem?_drop] at here
    have number := log.numbered _ entry here
    ext
    · exact tally.views entry (List.mem_of_getElem? here)
    · simp only [number, start]
      omega
  · rw [List.length_drop, tally.length]
    omega

end Tally

end PaxosBus.FastPaxos

import PaxosBus.Spec.MergeLogs
import Mathlib.Data.List.Chain

/-!
# The log window of a DoViewChange message

A message carries the end of its sender's log: consecutive entries, each hashed
from the one before it, committed entries first. `entryAt` then finds exactly the
opnums from the first entry to `lastspeculative`.
-/

set_option autoImplicit false

namespace PaxosBus.Spec

open Std (TreeMap)
open PaxosBus.Common

variable {Hash : Type}

/-- What one log entry is to the entry before it. -/
structure Chained (hashing : Hashing Hash) (entry next : LogEntry Hash) : Prop where
  opnum : next.viewstamp.opnum = entry.viewstamp.opnum + 1
  hash : next.hash = hashing.computeHash entry.hash next.request

instance [DecidableEq Hash] (hashing : Hashing Hash) (entry next : LogEntry Hash) :
    Decidable (Chained hashing entry next) :=
  decidable_of_iff (next.viewstamp.opnum = entry.viewstamp.opnum + 1 ∧
      next.hash = hashing.computeHash entry.hash next.request)
    ⟨fun ⟨opnum, hash⟩ => ⟨opnum, hash⟩, fun ⟨opnum, hash⟩ => ⟨opnum, hash⟩⟩

/-- A message as `HandleStartViewChange` builds it from its replica's log. -/
structure DoViewChangeMessage.WellFormed (hashing : Hashing Hash)
    (msg : DoViewChangeMessage Hash) : Prop where
  chain : msg.entries.IsChain (Chained hashing)
  positive : ∀ entry ∈ msg.entries, 0 < entry.viewstamp.opnum
  states : ∀ entry ∈ msg.entries, entry.state = .committed ↔
    entry.viewstamp.opnum ≤ msg.lastcommitted
  last : msg.lastspeculative = (msg.entries.getLast?.map (·.viewstamp.opnum)).getD 0
  lastView : msg.lastnormalview = (msg.entries.getLast?.map (·.viewstamp.view)).getD 0
  lastCommitted : msg.lastcommitted ≤ msg.lastspeculative

instance [DecidableEq Hash] (hashing : Hashing Hash) (msg : DoViewChangeMessage Hash) :
    Decidable (msg.WellFormed hashing) :=
  decidable_of_iff (msg.entries.IsChain (Chained hashing) ∧
      (∀ entry ∈ msg.entries, 0 < entry.viewstamp.opnum) ∧
      (∀ entry ∈ msg.entries, entry.state = .committed ↔
        entry.viewstamp.opnum ≤ msg.lastcommitted) ∧
      msg.lastspeculative = (msg.entries.getLast?.map (·.viewstamp.opnum)).getD 0 ∧
      msg.lastnormalview = (msg.entries.getLast?.map (·.viewstamp.view)).getD 0 ∧
      msg.lastcommitted ≤ msg.lastspeculative)
    ⟨fun ⟨chain, positive, states, last, lastView, lastCommitted⟩ =>
        ⟨chain, positive, states, last, lastView, lastCommitted⟩,
      fun ⟨chain, positive, states, last, lastView, lastCommitted⟩ =>
        ⟨chain, positive, states, last, lastView, lastCommitted⟩⟩

namespace DoViewChangeMessage

variable {hashing : Hashing Hash} {msg : DoViewChangeMessage Hash}

/-- An entry found at an opnum has that opnum and is one of the message's entries. -/
theorem entryAt_some {opnum : Nat} {entry : LogEntry Hash}
    (found : msg.entryAt opnum = some entry) :
    entry ∈ msg.entries ∧ entry.viewstamp.opnum = opnum := by
  unfold entryAt at found
  split at found
  · cases found
  · split at found
    · cases found
    · obtain ⟨inRange, same⟩ := Option.filter_eq_some_iff.mp found
      exact ⟨List.mem_of_getElem? inRange, by simpa using same⟩

/-- The opnums of a window count up from its first entry. -/
theorem WellFormed.opnum_getElem (wellFormed : msg.WellFormed hashing) (i : Nat)
    (bounded : i < msg.entries.length) :
    (msg.entries[i]).viewstamp.opnum =
      (msg.entries[0]).viewstamp.opnum + i := by
  induction i with
  | zero => rfl
  | succ i inductionHypothesis =>
      have chained := List.isChain_iff_getElem.mp wellFormed.chain i bounded
      rw [chained.opnum, inductionHypothesis (by omega)]
      omega

/-- Every entry of a window is found at its own opnum. -/
theorem WellFormed.entryAt_getElem (wellFormed : msg.WellFormed hashing) (i : Nat)
    (bounded : i < msg.entries.length) :
    msg.entryAt (msg.entries[i]).viewstamp.opnum = some (msg.entries[i]) := by
  have first : msg.entries.head? = some (msg.entries[0]) := by
    rw [List.head?_eq_getElem?, List.getElem?_eq_getElem]
  have position := wellFormed.opnum_getElem i bounded
  unfold entryAt
  rw [first]
  simp only [position]
  rw [if_neg (by omega), Nat.add_sub_cancel_left, List.getElem?_eq_getElem bounded]
  simp [position]

theorem WellFormed.entryAt_of_mem (wellFormed : msg.WellFormed hashing)
    {entry : LogEntry Hash} (inLog : entry ∈ msg.entries) :
    msg.entryAt entry.viewstamp.opnum = some entry := by
  obtain ⟨i, bounded, rfl⟩ := List.getElem_of_mem inLog
  exact wellFormed.entryAt_getElem i bounded

/-- A window ends at `lastspeculative`. -/
theorem WellFormed.lastspeculative_eq (wellFormed : msg.WellFormed hashing)
    (nonempty : 0 < msg.entries.length) :
    msg.lastspeculative = (msg.entries[0]).viewstamp.opnum + (msg.entries.length - 1) := by
  rw [wellFormed.last, List.getLast?_eq_getElem?, List.getElem?_eq_getElem (by omega)]
  exact wellFormed.opnum_getElem _ (by omega)

/-- A nonempty window has every opnum from its first to `lastspeculative`. -/
theorem WellFormed.exists_entryAt (wellFormed : msg.WellFormed hashing)
    (nonempty : 0 < msg.entries.length) {opnum : Nat}
    (low : (msg.entries[0]).viewstamp.opnum ≤ opnum) (high : opnum ≤ msg.lastspeculative) :
    ∃ entry, msg.entryAt opnum = some entry := by
  rw [wellFormed.lastspeculative_eq nonempty] at high
  have bounded : opnum - (msg.entries[0]).viewstamp.opnum < msg.entries.length := by omega
  have found := wellFormed.entryAt_getElem _ bounded
  rw [wellFormed.opnum_getElem _ bounded, Nat.add_sub_cancel' low] at found
  exact ⟨_, found⟩

/-- An entry is found only between the first opnum of its window and `lastspeculative`. -/
theorem WellFormed.entryAt_bounds (wellFormed : msg.WellFormed hashing) {opnum : Nat}
    {entry : LogEntry Hash} (found : msg.entryAt opnum = some entry) :
    ∃ nonempty : 0 < msg.entries.length,
      (msg.entries[0]).viewstamp.opnum ≤ opnum ∧ opnum ≤ msg.lastspeculative := by
  obtain ⟨inLog, rfl⟩ := entryAt_some found
  obtain ⟨i, bounded, rfl⟩ := List.getElem_of_mem inLog
  have nonempty : 0 < msg.entries.length := by omega
  have position := wellFormed.opnum_getElem i bounded
  have last := wellFormed.lastspeculative_eq nonempty
  exact ⟨nonempty, by omega, by omega⟩

/-- What is found above an entry of the window and not above `lastspeculative` exists. -/
theorem WellFormed.exists_entryAt_above (wellFormed : msg.WellFormed hashing)
    {low opnum : Nat} {entry : LogEntry Hash} (found : msg.entryAt low = some entry)
    (above : low ≤ opnum) (high : opnum ≤ msg.lastspeculative) :
    ∃ entry, msg.entryAt opnum = some entry := by
  obtain ⟨nonempty, first, _⟩ := wellFormed.entryAt_bounds found
  exact wellFormed.exists_entryAt nonempty (first.trans above) high

/-- Entries found at consecutive opnums are chained. -/
theorem WellFormed.chained (wellFormed : msg.WellFormed hashing) {opnum : Nat}
    {entry next : LogEntry Hash} (found : msg.entryAt opnum = some entry)
    (foundNext : msg.entryAt (opnum + 1) = some next) : Chained hashing entry next := by
  obtain ⟨inLog, rfl⟩ := entryAt_some found
  obtain ⟨inLogNext, position⟩ := entryAt_some foundNext
  obtain ⟨i, bounded, rfl⟩ := List.getElem_of_mem inLog
  obtain ⟨j, boundedNext, rfl⟩ := List.getElem_of_mem inLogNext
  rw [wellFormed.opnum_getElem j boundedNext, wellFormed.opnum_getElem i bounded] at position
  obtain rfl : j = i + 1 := by omega
  exact List.isChain_iff_getElem.mp wellFormed.chain i boundedNext

/-- The states of a window are decided by `lastcommitted`. -/
theorem WellFormed.state_iff (wellFormed : msg.WellFormed hashing) {opnum : Nat}
    {entry : LogEntry Hash} (found : msg.entryAt opnum = some entry) :
    entry.state = .committed ↔ opnum ≤ msg.lastcommitted := by
  obtain ⟨inLog, rfl⟩ := entryAt_some found
  exact wellFormed.states entry inLog

end DoViewChangeMessage

end PaxosBus.Spec

import Mathlib.Data.List.Basic
import Mathlib.Data.List.Sort
import PaxosBus.Common.Log

/-!
# The log of NOPaxos

The `Log` class as this protocol uses it: without hashes, from operation number
one on, and with the session and message number that the sequencer gave the
operation in each viewstamp. An operation whose assertion fails gives no log.
The sets of operation numbers that a replica keeps are lists in increasing
order, as iteration over a `std::set` goes.
-/

set_option autoImplicit false

namespace PaxosBus.NoPaxos

open PaxosBus.Common

/-- A `std::set` of operation numbers. -/
structure OpnumSet where
  elements : List Nat := []
  increasing : elements.Pairwise (· < ·) := by simp
deriving DecidableEq, Repr

namespace OpnumSet

variable {opnum other : Nat}

instance : Membership Nat OpnumSet := ⟨fun set opnum => opnum ∈ set.elements⟩

theorem mem_def {set : OpnumSet} : opnum ∈ set ↔ opnum ∈ set.elements := Iff.rfl

instance (opnum : Nat) (set : OpnumSet) : Decidable (opnum ∈ set) :=
  inferInstanceAs (Decidable (opnum ∈ set.elements))

@[ext] theorem ext {left right : OpnumSet} (elements : left.elements = right.elements) :
    left = right := by
  cases left
  cases right
  congr

/-- The elements determine the set. -/
theorem ext_mem {left right : OpnumSet} (same : ∀ opnum, opnum ∈ left ↔ opnum ∈ right) :
    left = right :=
  ext (left.increasing.eq_of_mem_iff right.increasing same)

/-- A number that is not there goes between the smaller and the greater ones. -/
theorem increasing_orderedInsert {elements : List Nat} (increasing : elements.Pairwise (· < ·))
    (new : opnum ∉ elements) :
    (elements.orderedInsert (· ≤ ·) opnum).Pairwise (· < ·) := by
  induction elements with
  | nil => simp
  | cons first rest inductionHypothesis =>
      rw [List.pairwise_cons] at increasing
      rw [List.mem_cons, not_or] at new
      rw [List.orderedInsert_cons]
      split
      next le =>
          have less : opnum < first := lt_of_le_of_ne le new.1
          refine List.pairwise_cons.mpr ⟨?_, List.pairwise_cons.mpr increasing⟩
          intro element member
          rcases List.mem_cons.mp member with rfl | inRest
          · exact less
          · exact less.trans (increasing.1 element inRest)
      next greater =>
          refine List.pairwise_cons.mpr ⟨?_, inductionHypothesis increasing.2 new.2⟩
          intro element member
          rcases (List.mem_orderedInsert _).mp member with rfl | inRest
          · exact Nat.not_le.mp greater
          · exact increasing.1 element inRest

/-- `std::set::insert`. -/
def insert (set : OpnumSet) (opnum : Nat) : OpnumSet :=
  if new : opnum ∉ set.elements then
    ⟨set.elements.orderedInsert (· ≤ ·) opnum, increasing_orderedInsert set.increasing new⟩
  else
    set

@[simp] theorem mem_insert {set : OpnumSet} :
    other ∈ set.insert opnum ↔ other = opnum ∨ other ∈ set := by
  unfold insert
  split
  next new => exact List.mem_orderedInsert _
  next old =>
      constructor
      · exact .inr
      · rintro (rfl | member)
        · exact not_not.mp old
        · exact member

/-- What is there already is not inserted again. -/
theorem insert_of_mem {set : OpnumSet} (member : opnum ∈ set) : set.insert opnum = set := by
  unfold insert
  split
  next new => exact absurd member new
  next => rfl

/-- `std::set::erase`. -/
def erase (set : OpnumSet) (opnum : Nat) : OpnumSet :=
  ⟨set.elements.erase opnum, set.increasing.sublist List.erase_sublist⟩

/-- The elements up to a bound: what is left when the last element is erased as long as it is
above the bound. -/
def upTo (set : OpnumSet) (bound : Nat) : OpnumSet :=
  ⟨set.elements.filter (· ≤ bound), set.increasing.sublist List.filter_sublist⟩

@[simp] theorem mem_upTo {set : OpnumSet} {bound : Nat} :
    opnum ∈ set.upTo bound ↔ opnum ∈ set ∧ opnum ≤ bound := by
  simp [upTo, mem_def]

/-- `*set.rbegin()`, where the set has elements. -/
def last? (set : OpnumSet) : Option Nat := set.elements.getLast?

/-- Nothing in a set is greater than the last element. -/
theorem le_last {set : OpnumSet} (member : opnum ∈ set) (last : set.last? = some other) :
    opnum ≤ other := by
  obtain ⟨before, same⟩ := List.getLast?_eq_some_iff.mp last
  have increasing := set.increasing
  rw [mem_def, same] at member
  rw [same, List.pairwise_append] at increasing
  rcases List.mem_append.mp member with inside | atEnd
  · exact (increasing.2.2 opnum inside other (List.mem_singleton_self other)).le
  · exact (List.mem_singleton.mp atEnd).le

/-- A set with an element has a last one. -/
theorem exists_last {set : OpnumSet} (member : opnum ∈ set) : ∃ other, set.last? = some other :=
  Option.isSome_iff_exists.mp (List.getLast?_isSome.mpr (List.ne_nil_of_mem member))

/-- The last element is in the set. -/
theorem last_mem {set : OpnumSet} (last : set.last? = some other) : other ∈ set :=
  List.mem_of_getLast? last

@[simp] theorem not_mem_empty : opnum ∉ ({} : OpnumSet) := List.not_mem_nil

end OpnumSet

/-- `viewstamp_t`, without the shard. -/
structure Viewstamp where
  view : Nat
  opnum : Nat
  sessnum : Nat := 0
  msgnum : Nat := 0
deriving DecidableEq, Repr

/-- Where the sequencer has put an operation: its session, and its number in the session. -/
structure Slot where
  sessnum : Nat
  msgnum : Nat
deriving DecidableEq, Repr

/-- The slot of a viewstamp. -/
def Viewstamp.slot (vs : Viewstamp) : Slot where
  sessnum := vs.sessnum
  msgnum := vs.msgnum

/-- `LogEntry`, and the `MsgLogEntry` that carries one in a message. -/
structure Entry where
  viewstamp : Viewstamp
  state : LogEntryState
  request : Request
deriving DecidableEq, Repr

/-- `Log`. The operation number of an entry is its position, as `Log::Find` asserts. -/
structure Log where
  entries : List Entry := []
  numbered : ∀ index entry, entries[index]? = some entry → entry.viewstamp.opnum = index + 1 := by
    simp

namespace Log

variable {log longer : Log} {opnum : Nat} {entry : Entry}

@[ext] theorem ext {left right : Log} (entries : left.entries = right.entries) : left = right := by
  cases left
  cases right
  congr

/-- `Log::LastViewstamp`. -/
def lastViewstamp (log : Log) : Viewstamp :=
  match log.entries.getLast? with
  | none => { view := 0, opnum := 0 }
  | some entry => entry.viewstamp

/-- `Log::LastOpnum`. -/
def lastOpnum (log : Log) : Nat := log.lastViewstamp.opnum

/-- The number of the last entry counts the entries. -/
@[simp] theorem lastOpnum_eq (log : Log) : log.lastOpnum = log.entries.length := by
  unfold lastOpnum lastViewstamp
  cases last : log.entries.getLast? with
  | none => simp [List.getLast?_eq_none_iff.mp last]
  | some entry =>
      have positive : 0 < log.entries.length :=
        List.length_pos_iff.mpr (List.ne_nil_of_mem (List.mem_of_getLast? last))
      rw [List.getLast?_eq_getElem?] at last
      have number := log.numbered _ entry last
      change entry.viewstamp.opnum = _
      omega

/-- An entry with the next number can follow. -/
theorem numbered_concat (next : entry.viewstamp.opnum = log.lastOpnum + 1) :
    ∀ index other, (log.entries ++ [entry])[index]? = some other →
      other.viewstamp.opnum = index + 1 := by
  intro index other found
  rcases Nat.lt_trichotomy index log.entries.length with inside | rfl | outside
  · rw [List.getElem?_append_left inside] at found
    exact log.numbered index other found
  · obtain rfl : entry = other := by simpa using found
    rwa [lastOpnum_eq] at next
  · rw [List.getElem?_eq_none (by simp; omega)] at found
    simp at found

/-- `Log::Append`. -/
def append (log : Log) (vs : Viewstamp) (request : Request) (state : LogEntryState) :
    Option Log :=
  if next : vs.opnum = log.lastOpnum + 1 then
    some ⟨log.entries ++ [{ viewstamp := vs, state := state, request := request }],
      numbered_concat next⟩
  else
    none

/-- What a log with an entry more is. -/
theorem of_append {vs : Viewstamp} {request : Request} {state : LogEntryState}
    (appended : log.append vs request state = some longer) :
    vs.opnum = log.entries.length + 1 ∧
      longer.entries = log.entries ++ [{ viewstamp := vs, state := state, request := request }] := by
  unfold append at appended
  split at appended
  next next =>
      obtain rfl := Option.some.inj appended
      exact ⟨by simpa using next, rfl⟩
  next => simp at appended

/-- `Log::Find`. -/
def find (log : Log) (opnum : Nat) : Option Entry :=
  if opnum < 1 then none else log.entries[opnum - 1]?

/-- Entries are found by their numbers. -/
theorem find_eq_some : log.find opnum = some entry ↔ 0 < opnum ∧
    log.entries[opnum - 1]? = some entry := by
  unfold find
  split
  next none_ => simp [show ¬ 0 < opnum by omega]
  next some_ => simp [show 0 < opnum by omega]

/-- Exactly the numbers up to the length are found. -/
theorem exists_find_iff : (∃ entry, log.find opnum = some entry) ↔
    0 < opnum ∧ opnum ≤ log.entries.length := by
  simp only [find_eq_some, exists_and_left, ← Option.isSome_iff_exists, isSome_getElem?]
  omega

/-- What is found in a log with an entry more. -/
theorem find_of_append {vs : Viewstamp} {request : Request} {state : LogEntryState}
    (appended : log.append vs request state = some longer)
    (found : longer.find opnum = some entry) : log.find opnum = some entry ∨
      opnum = log.entries.length + 1 ∧
        entry = { viewstamp := vs, state := state, request := request } := by
  obtain ⟨positive, found⟩ := find_eq_some.mp found
  rw [(of_append appended).2] at found
  rcases Nat.lt_trichotomy (opnum - 1) log.entries.length with inside | next | outside
  · rw [List.getElem?_append_left inside] at found
    exact .inl (find_eq_some.mpr ⟨positive, found⟩)
  · rw [next] at found
    exact .inr ⟨by omega, by simpa using found.symm⟩
  · rw [List.getElem?_eq_none (by simp; omega)] at found
    simp at found

/-- `Log::SetStatus`. -/
def setStatus (log : Log) (op : Nat) (state : LogEntryState) : Log :=
  match log.find op with
  | none => log
  | some _ =>
    ⟨log.entries.modify (op - 1) fun entry => { entry with state := state }, by
      intro index other found
      rw [List.getElem?_modify] at found
      obtain ⟨before, foundBefore, rfl⟩ := Option.map_eq_some_iff.mp found
      have number := log.numbered index before foundBefore
      split <;> exact number⟩

@[simp] theorem length_setStatus (op : Nat) (state : LogEntryState) :
    (log.setStatus op state).entries.length = log.entries.length := by
  unfold setStatus
  split <;> simp

/-- What is found in a log with one status set. -/
theorem find_setStatus {op : Nat} {state : LogEntryState} :
    (log.setStatus op state).find opnum = (log.find opnum).map fun entry =>
      if opnum = op then { entry with state := state } else entry := by
  unfold setStatus
  split
  next none_ =>
      by_cases same : opnum = op
      · rw [same, none_, Option.map_none]
      · simp [same]
  next _ found =>
      obtain ⟨positive, -⟩ := find_eq_some.mp found
      by_cases none_ : opnum < 1
      · simp [find, none_]
      · simp only [find, if_neg none_, List.getElem?_modify]
        congr 1
        funext entry
        have same : op - 1 = opnum - 1 ↔ opnum = op := by omega
        simp only [same]

/-- `Log::RemoveAfter`: the entry with number `op` goes as well. -/
def removeAfter (log : Log) (op : Nat) : Option Log :=
  if log.lastOpnum < op then
    some log
  else if 1 ≤ op ∧ op - 1 < log.entries.length then
    some ⟨log.entries.take (op - 1), by
      intro index other found
      rw [List.getElem?_take] at found
      split at found
      · exact log.numbered index other found
      · simp at found⟩
  else
    none

/-- What is left lacks the entry with the number as well. -/
theorem of_removeAfter {op : Nat} {shorter : Log} (removed : log.removeAfter op = some shorter)
    (inside : op ≤ log.entries.length) :
    0 < op ∧ shorter.entries = log.entries.take (op - 1) := by
  unfold removeAfter at removed
  rw [if_neg (by rw [lastOpnum_eq]; omega)] at removed
  split at removed
  next within =>
      obtain rfl := Option.some.inj removed
      exact ⟨within.1, rfl⟩
  next => simp at removed

/-- There is no entry with the number any more. -/
theorem length_removeAfter {op : Nat} {shorter : Log} (removed : log.removeAfter op = some shorter) :
    shorter.entries.length < op := by
  by_cases inside : op ≤ log.entries.length
  · obtain ⟨positive, entries⟩ := of_removeAfter removed inside
    rw [entries, List.length_take]
    omega
  · have beyond : log.lastOpnum < op := by
      rw [lastOpnum_eq]
      omega
    rw [removeAfter, if_pos beyond] at removed
    obtain rfl := Option.some.inj removed
    omega

/-- `Log::Dump` of the entries from `from_` to before `to_`. -/
def dump (log : Log) (from_ to_ : Nat) : Option (List Entry) :=
  if to_ ≤ log.lastOpnum + 1 then
    some ((log.entries.take (to_ - 1)).drop (max from_ 1 - 1))
  else
    none

end Log

end PaxosBus.NoPaxos

import Mathlib.Data.List.Basic
import Mathlib.Data.List.Infix
import Mathlib.Data.List.TakeDrop
import Mathlib.Logic.Function.Basic
import PaxosBus.Common.Log

/-!
# The replica log

The `Log` class. Entries have consecutive operation numbers, which the structure
carries as a proof, so a position and an operation number are the same thing. An
operation whose assertion fails gives no log. Entries keep no protocol data of
their own here, and entries are looked up by operation number or request id.
-/

set_option autoImplicit false

namespace PaxosBus.Common

variable {Hash : Type}

/-- Operation numbers count up from `first`. -/
def Numbered (first : Nat) (entries : List (LogEntry Hash)) : Prop :=
  ∀ index entry, entries[index]? = some entry → entry.viewstamp.opnum = first + index

namespace Numbered

variable {first : Nat} {entries more : List (LogEntry Hash)}

theorem nil : Numbered first ([] : List (LogEntry Hash)) := by
  intro index entry found
  simp at found

/-- The rest of a numbered list counts from the next number. -/
theorem tail {entry : LogEntry Hash} (numbered : Numbered first (entry :: entries)) :
    Numbered (first + 1) entries := by
  intro index other found
  have := numbered (index + 1) other (by simpa using found)
  omega

/-- The first entry has the first number. -/
theorem head {entry : LogEntry Hash} (numbered : Numbered first (entry :: entries)) :
    entry.viewstamp.opnum = first := by
  simpa using numbered 0 entry (by simp)

/-- What is kept from the front is numbered as before. -/
theorem take (numbered : Numbered first entries) (count : Nat) :
    Numbered first (entries.take count) := by
  intro index entry found
  rw [List.getElem?_take] at found
  split at found
  · exact numbered index entry found
  · simp at found

/-- What is left behind is numbered from where it starts. -/
theorem drop (numbered : Numbered first entries) (count : Nat) :
    Numbered (first + count) (entries.drop count) := by
  intro index entry found
  rw [List.getElem?_drop] at found
  have := numbered (count + index) entry found
  omega

/-- An entry with the next number can follow. -/
theorem concat (numbered : Numbered first entries) {entry : LogEntry Hash}
    (next : entry.viewstamp.opnum = first + entries.length) :
    Numbered first (entries ++ [entry]) := by
  intro index other found
  rcases Nat.lt_or_ge index entries.length with inside | outside
  · rw [List.getElem?_append_left inside] at found
    exact numbered index other found
  · rw [List.getElem?_append_right outside] at found
    obtain ⟨here, rfl⟩ : index - entries.length = 0 ∧ entry = other := by
      cases offset : index - entries.length with
      | zero => simpa [offset] using found
      | succ more => simp [offset] at found
    have : index = entries.length := by omega
    rw [this, next]

/-- Changing an entry's state does not change its number. -/
theorem modify (numbered : Numbered first entries) (position : Nat)
    {change : LogEntry Hash → LogEntry Hash}
    (same : ∀ entry, (change entry).viewstamp = entry.viewstamp) :
    Numbered first (entries.modify position change) := by
  intro index entry found
  rw [List.getElem?_modify] at found
  obtain ⟨before, foundBefore, rfl⟩ := Option.map_eq_some_iff.mp found
  have := numbered index before foundBefore
  split
  · rwa [same]
  · exact this

end Numbered

/-- `Log`. `useHash` says whether entries are chained by `hashing`. -/
structure Log (Hash : Type) where
  hashing : Hashing Hash
  useHash : Bool
  start : Nat
  initialHash : Hash
  entries : List (LogEntry Hash)
  clientReqMap : Nat × Nat → Option Nat
  numbered : Numbered start entries

namespace Log

/-- `Log::Log`, with its default arguments. -/
def new (hashing : Hashing Hash) (useHash : Bool) : Log Hash where
  hashing := hashing
  useHash := useHash
  start := 1
  initialHash := hashing.emptyHash
  entries := []
  clientReqMap _ := none
  numbered := .nil

/-- `Log::LastViewstamp`. -/
def lastViewstamp (log : Log Hash) : Viewstamp :=
  match log.entries.getLast? with
  | none => { view := 0, opnum := log.start - 1 }
  | some entry => entry.viewstamp

/-- `Log::LastOpnum`. -/
def lastOpnum (log : Log Hash) : Nat :=
  match log.entries.getLast? with
  | none => log.start - 1
  | some entry => entry.viewstamp.opnum

/-- `Log::LastHash`. -/
def lastHash (log : Log Hash) : Hash :=
  match log.entries.getLast? with
  | none => log.initialHash
  | some entry => entry.hash

/-- What `Log::Append` asserts of the viewstamp it is given. -/
def Appendable (log : Log Hash) (vs : Viewstamp) : Prop :=
  if log.entries.isEmpty then vs.opnum = log.start else vs.opnum = log.lastOpnum + 1

instance (log : Log Hash) (vs : Viewstamp) : Decidable (log.Appendable vs) :=
  inferInstanceAs (Decidable
    (if log.entries.isEmpty then vs.opnum = log.start else vs.opnum = log.lastOpnum + 1))

/-- The last entry's number, and where the next one goes. -/
theorem lastOpnum_add_one (log : Log Hash) (nonempty : log.entries ≠ []) :
    log.lastOpnum + 1 = log.start + log.entries.length := by
  have last := List.getLast?_eq_some_getLast nonempty
  have numbered := log.numbered (log.entries.length - 1) (log.entries.getLast nonempty) (by
    rw [← List.getLast?_eq_getElem?, last])
  have := List.length_pos_iff.mpr nonempty
  simp only [lastOpnum, last, numbered]
  omega

/-- An entry can be appended exactly when it has the next number. -/
theorem appendable_iff (log : Log Hash) (vs : Viewstamp) :
    log.Appendable vs ↔ vs.opnum = log.start + log.entries.length := by
  unfold Appendable
  cases empty : log.entries.isEmpty with
  | true => simp [List.isEmpty_iff.mp empty]
  | false =>
      have nonempty : log.entries ≠ [] := by simpa using empty
      simp [log.lastOpnum_add_one nonempty]

/-- The entry that `Log::Append` pushes. -/
def newEntry (log : Log Hash) (vs : Viewstamp) (request : Request) (state : LogEntryState) :
    LogEntry Hash where
  viewstamp := vs
  state := state
  request := request
  hash :=
    if log.useHash then log.hashing.computeHash log.lastHash request else log.hashing.emptyHash

/-- `Log::Append`. -/
def append (log : Log Hash) (vs : Viewstamp) (request : Request) (state : LogEntryState) :
    Option (Log Hash) :=
  if ok : log.Appendable vs then
    some { log with
      entries := log.entries ++ [log.newEntry vs request state]
      clientReqMap := Function.update log.clientReqMap request.reqid (some vs.opnum)
      numbered := log.numbered.concat ((log.appendable_iff vs).mp ok) }
  else
    none

/-- `Log::Find` of an operation number. -/
def find (log : Log Hash) (opnum : Nat) : Option (LogEntry Hash) :=
  if opnum < log.start then none else log.entries[opnum - log.start]?

/-- `Log::Find` of a client's request. -/
def findReqid (log : Log Hash) (reqid : Nat × Nat) : Option (LogEntry Hash) :=
  (log.clientReqMap reqid).bind log.find

/-- `Log::SetStatus`; the code's return value says whether there is such an entry. -/
def setStatus (log : Log Hash) (op : Nat) (state : LogEntryState) : Log Hash × Bool :=
  match log.find op with
  | none => (log, false)
  | some _ =>
    ({ log with
      entries := log.entries.modify (op - log.start) fun entry => { entry with state := state }
      numbered := log.numbered.modify _ fun _ => rfl }, true)

/-- `Log::SetRequest`, which panics on a hashed log; the code's return value says whether there is
such an entry. -/
def setRequest (log : Log Hash) (op : Nat) (request : Request) : Option (Log Hash × Bool) :=
  if log.useHash then
    none
  else
    match log.find op with
    | none => some (log, false)
    | some _ =>
      some ({ log with
        entries := log.entries.modify (op - log.start) fun entry => { entry with request := request }
        numbered := log.numbered.modify _ fun _ => rfl }, true)

/-- `Log::RemoveAfter`: the entry with number `op` goes as well. -/
def removeAfter (log : Log Hash) (op : Nat) : Option (Log Hash) :=
  if log.lastOpnum < op then
    some log
  else if log.start ≤ op ∧ op - log.start < log.entries.length then
    some { log with
      entries := log.entries.take (op - log.start)
      numbered := log.numbered.take _ }
  else
    none

/-- `Log::Dump`. -/
def dump (log : Log Hash) (from_ : Nat) : List (LogEntry Hash) :=
  log.entries.drop (max from_ log.start - log.start)

/-- The first loop of `Log::Install`: skip the entries that the log already has with the same
view, and cut the log where the views differ. Returns the entries that are left to append. -/
def findDivergence (log : Log Hash) :
    List (LogEntry Hash) → Option (Log Hash × List (LogEntry Hash))
  | [] => some (log, [])
  | entry :: rest =>
    match log.find entry.viewstamp.opnum with
    | none => some (log, entry :: rest)
    | some oldEntry =>
      if entry.viewstamp.view ≠ oldEntry.viewstamp.view then
        (log.removeAfter entry.viewstamp.opnum).map fun cut => (cut, entry :: rest)
      else
        log.findDivergence rest

/-- The second loop of `Log::Install`. -/
def appendAll (log : Log Hash) : List (LogEntry Hash) → Option (Log Hash)
  | [] => some log
  | entry :: rest =>
    (log.append { view := entry.viewstamp.view, opnum := entry.viewstamp.opnum } entry.request
      .prepared).bind fun longer => longer.appendAll rest

/-- `Log::Install`. -/
def install (log : Log Hash) (entries : List (LogEntry Hash)) : Option (Log Hash) :=
  (log.findDivergence entries).bind fun (cut, rest) => cut.appendAll rest

/-! ## What a log says

Agreement between logs is about views and requests. The state and the hash of
an entry are a replica's own bookkeeping.
-/

end Log

/-- What a log entry says: which request stands here, since which view. -/
structure Operation where
  view : Nat
  request : Request
deriving DecidableEq, Repr

/-- The operation of an entry. -/
def LogEntry.operation (entry : LogEntry Hash) : Operation where
  view := entry.viewstamp.view
  request := entry.request

/-- The entries of a message carry the operations of a log from position `from_` on. -/
structure Window (log : List Operation) (first from_ : Nat) (entries : List (LogEntry Hash)) :
    Prop where
  numbered : Numbered (first + from_) entries
  operations : entries.map LogEntry.operation = log.drop from_

namespace Log

/-- The operations of a log. -/
def operations (log : Log Hash) : List Operation := log.entries.map LogEntry.operation

variable {log cut longer final : Log Hash}

@[simp] theorem length_operations (log : Log Hash) :
    log.operations.length = log.entries.length :=
  List.length_map ..

/-- The operation at an index is that of the entry there. -/
theorem getElem?_operations (log : Log Hash) (index : Nat) :
    log.operations[index]? = log.entries[index]?.map LogEntry.operation :=
  List.getElem?_map ..

@[simp] theorem operations_new (hashing : Hashing Hash) (useHash : Bool) :
    (new hashing useHash).operations = [] := rfl

/-- What a log with an entry more is. -/
theorem of_append {vs : Viewstamp} {request : Request} {state : LogEntryState}
    (appended : log.append vs request state = some longer) :
    vs.opnum = log.start + log.entries.length ∧ longer.start = log.start ∧
      longer.operations = log.operations ++ [{ view := vs.view, request := request }] := by
  unfold append at appended
  split at appended
  next ok =>
      obtain rfl := Option.some.inj appended
      refine ⟨(log.appendable_iff vs).mp ok, rfl, ?_⟩
      simp [operations, LogEntry.operation, newEntry]
  next => simp at appended

/-- What `Log::Append` changes. -/
theorem eq_of_append {vs : Viewstamp} {request : Request} {state : LogEntryState}
    (appended : log.append vs request state = some longer) :
    longer.start = log.start ∧ longer.entries = log.entries ++ [log.newEntry vs request state] ∧
      longer.clientReqMap = Function.update log.clientReqMap request.reqid (some vs.opnum) := by
  unfold append at appended
  split at appended
  next =>
      obtain rfl := Option.some.inj appended
      exact ⟨rfl, rfl, rfl⟩
  next => simp at appended

/-- What `Log::RemoveAfter` changes: it keeps the entries before `op`. -/
theorem eq_of_removeAfter {op : Nat} (removed : log.removeAfter op = some cut) :
    cut.start = log.start ∧ cut.entries = log.entries.take (op - log.start) ∧
      cut.clientReqMap = log.clientReqMap := by
  unfold removeAfter at removed
  split at removed
  next beyond =>
      obtain rfl := Option.some.inj removed
      refine ⟨rfl, (List.take_of_length_le ?_).symm, rfl⟩
      rcases List.eq_nil_or_concat log.entries with empty | ⟨before, last, whole⟩
      · simp [empty]
      · have := log.lastOpnum_add_one (by simp [whole])
        omega
  next =>
      split at removed
      next =>
          obtain rfl := Option.some.inj removed
          exact ⟨rfl, rfl, rfl⟩
      next => simp at removed

/-- No truncation reaches below the start, where the log can have been empty. -/
theorem le_of_removeAfter {op : Nat} (removed : log.removeAfter op = some cut) : log.start ≤ op := by
  unfold removeAfter at removed
  split at removed
  next beyond =>
      rcases List.eq_nil_or_concat log.entries with empty | ⟨before, last, whole⟩
      · simp only [lastOpnum, empty, List.getLast?_nil] at beyond
        omega
      · have := log.lastOpnum_add_one (by simp [whole])
        omega
  next =>
      split at removed
      next within => exact within.1
      next => simp at removed

/-- What a truncated log is. -/
theorem of_removeAfter {op : Nat} (removed : log.removeAfter op = some cut) :
    cut.start = log.start ∧ cut.operations = log.operations.take (op - log.start) := by
  obtain ⟨start, entries, -⟩ := eq_of_removeAfter removed
  refine ⟨start, ?_⟩
  unfold operations
  rw [entries, List.map_take]

@[simp] theorem start_setStatus (op : Nat) (state : LogEntryState) :
    (log.setStatus op state).1.start = log.start := by
  unfold setStatus
  split <;> rfl

/-- Marking an entry does not change what the log says. -/
@[simp] theorem operations_setStatus (op : Nat) (state : LogEntryState) :
    (log.setStatus op state).1.operations = log.operations := by
  unfold setStatus
  split
  next => rfl
  next =>
      refine List.ext_getElem? fun index => ?_
      rw [getElem?_operations, getElem?_operations]
      simp only [List.getElem?_modify]
      cases log.entries[index]? with
      | none => rfl
      | some entry =>
          simp only [Option.map_some]
          split <;> rfl

/-- An entry that is found is the one at its position. -/
theorem of_find {opnum : Nat} {entry : LogEntry Hash} (found : log.find opnum = some entry) :
    log.start ≤ opnum ∧ log.entries[opnum - log.start]? = some entry := by
  unfold find at found
  split at found
  next => simp at found
  next before => exact ⟨by omega, found⟩

/-- What an entry that is found says. -/
theorem operation_of_find {opnum : Nat} {entry : LogEntry Hash}
    (found : log.find opnum = some entry) :
    log.operations[opnum - log.start]? = some entry.operation := by
  rw [getElem?_operations, (of_find found).2, Option.map_some]

/-- An operation of a log is that of an entry that is found. -/
theorem exists_find {position : Nat} {operation : Operation}
    (here : log.operations[position]? = some operation) :
    ∃ entry, log.find (log.start + position) = some entry ∧ entry.operation = operation := by
  rw [getElem?_operations] at here
  obtain ⟨entry, found, same⟩ := Option.map_eq_some_iff.mp here
  refine ⟨entry, ?_, same⟩
  unfold find
  rw [if_neg (by omega), Nat.add_sub_cancel_left, found]

/-- There is no entry beyond the end. -/
theorem length_le_of_find_none {position : Nat} (missing : log.find (log.start + position) = none) :
    log.entries.length ≤ position := by
  unfold find at missing
  rw [if_neg (by omega), Nat.add_sub_cancel_left] at missing
  exact List.getElem?_eq_none_iff.mp missing

/-- A dump is a window of the log. -/
theorem window_dump (log : Log Hash) (from_ : Nat) :
    Window log.operations log.start (max from_ log.start - log.start) (log.dump from_) where
  numbered := log.numbered.drop _
  operations := List.map_drop ..

/-- The last viewstamp of a log is that of its last operation. -/
theorem lastViewstamp_view (log : Log Hash) :
    log.lastViewstamp.view = (log.operations.getLast?.map Operation.view).getD 0 := by
  unfold lastViewstamp operations
  rw [List.getLast?_map]
  cases log.entries.getLast? <;> rfl

/-- The last operation number of a log that starts at one is its length. -/
theorem lastViewstamp_opnum (log : Log Hash) (fromOne : log.start = 1) :
    log.lastViewstamp.opnum = log.entries.length := by
  have last := log.lastOpnum_add_one
  unfold lastOpnum at last
  unfold lastViewstamp
  cases found : log.entries.getLast? with
  | none => simp [List.getLast?_eq_none_iff.mp found, fromOne]
  | some entry =>
      have nonempty : log.entries ≠ [] := by
        rintro empty
        simp [empty] at found
      have := last nonempty
      simp only [found] at this
      simp only
      omega

/-- Appending the entries of a message appends what they say. -/
theorem of_appendAll {entries : List (LogEntry Hash)} (appended : log.appendAll entries = some final) :
    final.start = log.start ∧
      final.operations = log.operations ++ entries.map LogEntry.operation := by
  induction entries generalizing log with
  | nil =>
      obtain rfl := Option.some.inj appended
      simp
  | cons entry rest inductionHypothesis =>
      obtain ⟨longer, one, others⟩ := Option.bind_eq_some_iff.mp appended
      obtain ⟨-, start, operations⟩ := of_append one
      obtain ⟨startToo, operationsToo⟩ := inductionHypothesis others
      refine ⟨startToo.trans start, ?_⟩
      rw [operationsToo, operations]
      simp [LogEntry.operation]

/-! ## The requests of a log -/

/-- The requests of a log. -/
def requests (log : Log Hash) : List Request := log.entries.map LogEntry.request

@[simp] theorem length_requests (log : Log Hash) : log.requests.length = log.entries.length :=
  List.length_map ..

@[simp] theorem requests_new (hashing : Hashing Hash) (useHash : Bool) :
    (new hashing useHash).requests = [] := rfl

/-- The requests are what the operations are about. -/
theorem requests_eq_map (log : Log Hash) : log.requests = log.operations.map Operation.request := by
  unfold requests operations
  rw [List.map_map]
  rfl

/-- The request of an entry that is found. -/
theorem request_of_find {opnum : Nat} {entry : LogEntry Hash}
    (found : log.find opnum = some entry) :
    log.requests[opnum - log.start]? = some entry.request := by
  unfold requests
  rw [List.getElem?_map, (of_find found).2, Option.map_some]

/-- Marking an entry does not change the requests. -/
@[simp] theorem requests_setStatus (op : Nat) (state : LogEntryState) :
    (log.setStatus op state).1.requests = log.requests := by
  rw [requests_eq_map, requests_eq_map, operations_setStatus]

/-- What the requests of a log with an entry more are. -/
theorem requests_of_append {vs : Viewstamp} {request : Request} {state : LogEntryState}
    (appended : log.append vs request state = some longer) :
    longer.requests = log.requests ++ [request] := by
  obtain ⟨-, -, operations⟩ := of_append appended
  rw [requests_eq_map, requests_eq_map, operations, List.map_append]
  rfl

/-- Replacing a request changes that request only, and no view. -/
theorem of_setRequest {op : Nat} {request : Request} {replaced : Log Hash × Bool}
    (from_ : log.start ≤ op) (done : log.setRequest op request = some replaced) :
    replaced.1.start = log.start ∧
      replaced.1.requests = log.requests.set (op - log.start) request ∧
        replaced.1.operations.map Operation.view = log.operations.map Operation.view := by
  unfold setRequest at done
  split at done
  next => simp at done
  next =>
      split at done
      next missing =>
          obtain rfl := Option.some.inj done
          have beyond : log.requests.length ≤ op - log.start := by
            rw [length_requests]
            apply length_le_of_find_none
            rwa [Nat.add_sub_cancel' from_]
          exact ⟨rfl, (List.set_eq_of_length_le beyond).symm, rfl⟩
      next =>
          obtain rfl := Option.some.inj done
          refine ⟨rfl, ?_, ?_⟩
          · apply List.ext_getElem?
            intro index
            simp only [requests, List.getElem?_map, List.getElem?_modify, List.getElem?_set,
              List.length_map]
            by_cases here : op - log.start = index
            · subst here
              by_cases inside : op - log.start < log.entries.length
              · simp [inside]
              · simp [inside]
            · cases log.entries[index]? <;> simp [here]
          · apply List.ext_getElem?
            intro index
            simp only [operations, List.getElem?_map, List.getElem?_modify]
            cases log.entries[index]? with
            | none => rfl
            | some entry =>
                simp only [Option.map_some]
                split <;> rfl

section Install

variable {target : List Operation} {from_ : Nat} {entries rest : List (LogEntry Hash)}

/-- What the search for a divergence ends in: a log that is a piece of `target`, and the entries
that are missing from it. -/
theorem of_findDivergence (short : log.entries.length ≤ target.length)
    (window : Window target log.start from_ entries)
    (agree : log.operations.take from_ = target.take from_)
    (sameView : ∀ (index : Nat) (mine theirs : Operation), log.operations[index]? = some mine →
      target[index]? = some theirs → mine.view = theirs.view → mine = theirs)
    (searched : log.findDivergence entries = some (cut, rest)) :
    cut.start = log.start ∧
      cut.operations ++ rest.map LogEntry.operation = target := by
  induction entries generalizing from_ with
  | nil =>
      obtain ⟨rfl, rfl⟩ := Prod.mk.inj (Option.some.inj searched)
      have covered : target.length ≤ from_ := by
        simpa using window.operations.symm
      rw [List.take_of_length_le (by rw [length_operations]; omega),
        List.take_of_length_le covered] at agree
      simp [agree]
  | cons entry more inductionHypothesis =>
      have number := window.numbered.head
      have split_ : target = target.take from_ ++ (entry :: more).map LogEntry.operation := by
        rw [window.operations, List.take_append_drop]
      simp only [findDivergence] at searched
      split at searched
      next missing =>
          obtain ⟨rfl, rfl⟩ := Prod.mk.inj (Option.some.inj searched)
          rw [number] at missing
          have ended := length_le_of_find_none missing
          rw [List.take_of_length_le (by rw [length_operations]; omega)] at agree
          exact ⟨rfl, agree ▸ split_.symm⟩
      next oldEntry found =>
          split at searched
          next =>
              obtain ⟨removed, cutOff, same⟩ := Option.map_eq_some_iff.mp searched
              obtain ⟨rfl, rfl⟩ := Prod.mk.inj same
              obtain ⟨start, operations⟩ := of_removeAfter cutOff
              rw [number, Nat.add_sub_cancel_left, agree] at operations
              exact ⟨start, operations ▸ split_.symm⟩
          next same =>
              have mine := operation_of_find found
              rw [number, Nat.add_sub_cancel_left] at mine
              have theirs : target[from_]? = some entry.operation := by
                have := congrArg (·[0]?) window.operations
                simpa using this.symm
              have here := sameView from_ _ _ mine theirs
                (by simpa [LogEntry.operation] using (not_not.mp same).symm)
              have windowTail : Window target log.start (from_ + 1) more :=
                ⟨window.numbered.tail, by
                  rw [List.drop_add_one_eq_tail_drop, ← window.operations]
                  rfl⟩
              refine inductionHypothesis windowTail ?_ searched
              rw [List.take_add_one, List.take_add_one, agree, mine, theirs, here]

/-- `Log::Install` of a window of `target` on a log that agrees with `target` up to the window,
is no longer, and has the same operations where it has the same views, gives `target`. -/
theorem operations_install (short : log.entries.length ≤ target.length)
    (window : Window target log.start from_ entries)
    (agree : log.operations.take from_ = target.take from_)
    (sameView : ∀ (index : Nat) (mine theirs : Operation), log.operations[index]? = some mine →
      target[index]? = some theirs → mine.view = theirs.view → mine = theirs)
    (installed : log.install entries = some final) :
    final.start = log.start ∧ final.operations = target := by
  obtain ⟨⟨cut, rest⟩, searched, appended⟩ := Option.bind_eq_some_iff.mp installed
  obtain ⟨start, whole⟩ := of_findDivergence short window agree sameView searched
  obtain ⟨startToo, operations⟩ := of_appendAll appended
  exact ⟨startToo.trans start, operations.trans whole⟩

end Install

end Log

end PaxosBus.Common

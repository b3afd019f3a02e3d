import PaxosBus.Common.ReplicaLog

/-!
# Hashed logs

The hash of an entry stands for the log up to it: it is what chaining the
requests of that log from the empty hash gives. Where no two inputs have the same
digest, logs of the same length with the same last hash have the same request ids.
Pieces of such a log are what messages carry.
-/

set_option autoImplicit false

namespace PaxosBus.Common

variable {Hash : Type}

namespace Hashing

variable (hashing : Hashing Hash)

/-- The hash of a log with the given requests. -/
def chain (requests : List Request) : Hash :=
  requests.foldl hashing.computeHash hashing.emptyHash

@[simp] theorem chain_nil : hashing.chain [] = hashing.emptyHash := rfl

@[simp] theorem chain_concat (requests : List Request) (request : Request) :
    hashing.chain (requests ++ [request]) =
      hashing.computeHash (hashing.chain requests) request := by
  simp [chain]

variable {hashing}

/-- Logs of one length with one hash have the same request ids. -/
theorem CollisionFree.map_reqid_of_chain (free : hashing.CollisionFree) {mine theirs : List Request}
    (length : mine.length = theirs.length) (same : hashing.chain mine = hashing.chain theirs) :
    mine.map Request.reqid = theirs.map Request.reqid := by
  induction mine using List.reverseRecOn generalizing theirs with
  | nil =>
      obtain rfl := List.length_eq_zero_iff.mp length.symm
      rfl
  | append_singleton mine last inductionHypothesis =>
      obtain rfl | ⟨before, other, rfl⟩ := List.eq_nil_or_concat theirs
      · simp at length
      · rw [List.concat_eq_append, chain_concat, chain_concat] at same
        have shorter : mine.length = before.length := by simpa using length
        rw [List.concat_eq_append, List.map_append, List.map_append,
          inductionHypothesis shorter (free.lastHash same), List.map_singleton,
          List.map_singleton, free.reqid same]

end Hashing

/-- The entries of a log with the given requests after the first `skipped` ones. -/
structure Piece (hashing : Hashing Hash) (requests : List Request) (skipped : Nat)
    (entries : List (LogEntry Hash)) : Prop where
  numbered : Numbered (skipped + 1) entries
  carries : entries.map LogEntry.request = requests.drop skipped
  hashed : ∀ index entry, entries[index]? = some entry →
    entry.hash = hashing.chain (requests.take (skipped + index + 1))

namespace Piece

variable {hashing : Hashing Hash} {requests : List Request} {skipped : Nat}
  {entries : List (LogEntry Hash)}

theorem length (piece : Piece hashing requests skipped entries) :
    entries.length = requests.length - skipped := by
  simpa using congrArg List.length piece.carries

/-- What an entry of a piece is about. -/
theorem request (piece : Piece hashing requests skipped entries) {index : Nat}
    {entry : LogEntry Hash} (found : entries[index]? = some entry) :
    requests[skipped + index]? = some entry.request := by
  have := congrArg (·[index]?) piece.carries
  simpa [found] using this.symm

/-- A later part of a piece is a piece. -/
theorem drop (piece : Piece hashing requests skipped entries) (count : Nat) :
    Piece hashing requests (skipped + count) (entries.drop count) where
  numbered := by
    have := piece.numbered.drop count
    rwa [Nat.add_right_comm] at this
  carries := by rw [List.map_drop, piece.carries, List.drop_drop]
  hashed index entry found := by
    rw [List.getElem?_drop] at found
    have := piece.hashed _ entry found
    rwa [← Nat.add_assoc] at this

/-- A piece that is not empty ends where the log ends. -/
theorem last (piece : Piece hashing requests skipped entries) {entry : LogEntry Hash}
    (ends : entries.getLast? = some entry) :
    entry.viewstamp.opnum = requests.length ∧ entry.hash = hashing.chain requests := by
  have length := piece.length
  rw [List.getLast?_eq_getElem?] at ends
  have inside : entries.length - 1 < entries.length := (List.getElem?_eq_some_iff.mp ends).1
  have number := piece.numbered _ _ ends
  have hash := piece.hashed _ _ ends
  rw [List.take_of_length_le (by omega)] at hash
  exact ⟨by omega, hash⟩

end Piece

namespace Log

/-- A log that starts at one and hashes its entries. -/
structure Hashed (hashing : Hashing Hash) (log : Log Hash) : Prop where
  start : log.start = 1
  useHash : log.useHash = true
  digests : log.hashing = hashing
  initialHash : log.initialHash = hashing.emptyHash
  piece : Piece hashing log.requests 0 log.entries

namespace Hashed

variable {hashing : Hashing Hash} {log longer cut : Log Hash}

theorem new : Hashed hashing (Log.new hashing true) where
  start := rfl
  useHash := rfl
  digests := rfl
  initialHash := rfl
  piece := ⟨.nil, rfl, fun index entry found => by simp [Log.new] at found⟩

/-- The last hash stands for the whole log. -/
theorem lastHash (hashed : log.Hashed hashing) : log.lastHash = hashing.chain log.requests := by
  unfold Log.lastHash
  cases ends : log.entries.getLast? with
  | none =>
      have empty := List.getLast?_eq_none_iff.mp ends
      simp [requests, empty, hashed.initialHash]
  | some entry => exact (hashed.piece.last ends).2

/-- What is found at an opnum. -/
theorem of_find (hashed : log.Hashed hashing) {opnum : Nat} {entry : LogEntry Hash}
    (found : log.find opnum = some entry) :
    0 < opnum ∧ opnum ≤ log.requests.length ∧ entry.viewstamp.opnum = opnum ∧
      log.requests[opnum - 1]? = some entry.request ∧
        entry.hash = hashing.chain (log.requests.take opnum) := by
  obtain ⟨low, here⟩ := Log.of_find found
  rw [hashed.start] at low here
  have inside := (List.getElem?_eq_some_iff.mp here).1
  have number := hashed.piece.numbered _ _ here
  have request := hashed.piece.request here
  have hash := hashed.piece.hashed _ _ here
  have position : 0 + (opnum - 1) + 1 = opnum := by omega
  rw [Nat.zero_add] at request
  rw [position] at hash
  exact ⟨low, by rw [length_requests]; omega, by omega, request, hash⟩

/-- There is an entry at each opnum up to the length. -/
theorem exists_find (hashed : log.Hashed hashing) {opnum : Nat} (low : 0 < opnum)
    (high : opnum ≤ log.requests.length) : ∃ entry, log.find opnum = some entry := by
  rw [length_requests] at high
  have inside : opnum - 1 < log.entries.length := by omega
  refine ⟨log.entries[opnum - 1], ?_⟩
  unfold find
  rw [hashed.start, if_neg (by omega), List.getElem?_eq_getElem inside]

/-- The entry after the last one can be appended, and the log stays hashed. -/
theorem append (hashed : log.Hashed hashing) {vs : Viewstamp} {request : Request}
    {state : LogEntryState} (appended : log.append vs request state = some longer) :
    longer.Hashed hashing ∧ vs.opnum = log.requests.length + 1 ∧
      longer.requests = log.requests ++ [request] ∧
        longer.entries = log.entries ++ [log.newEntry vs request state] := by
  have requests := requests_of_append appended
  obtain ⟨number, -, -⟩ := of_append appended
  rw [hashed.start, ← length_requests, Nat.add_comm] at number
  unfold Log.append at appended
  split at appended
  next =>
      obtain rfl := Option.some.inj appended
      refine ⟨⟨hashed.start, hashed.useHash, hashed.digests, hashed.initialHash, ?_⟩, number,
        requests, rfl⟩
      rw [requests]
      refine ⟨?_, ?_, ?_⟩
      · apply hashed.piece.numbered.concat
        rw [length_requests] at number
        simp only [newEntry]
        omega
      · simp [Log.requests, newEntry]
      · intro index entry found
        rcases Nat.lt_trichotomy index log.entries.length with before | rfl | beyond
        · rw [List.getElem?_append_left before] at found
          rw [hashed.piece.hashed _ _ found, List.take_append_of_le_length]
          rw [length_requests]
          omega
        · rw [List.getElem?_concat_length] at found
          obtain rfl := Option.some.inj found
          rw [List.take_of_length_le (by simp), Hashing.chain_concat, ← hashed.lastHash]
          simp [newEntry, hashed.useHash, hashed.digests]
        · rw [List.getElem?_append_right (by omega)] at found
          simp only [List.getElem?_singleton] at found
          split at found
          · omega
          · simp at found
  next => simp at appended

/-- Marking an entry keeps a log hashed. -/
theorem setStatus (hashed : log.Hashed hashing) (op : Nat) (state : LogEntryState) :
    (log.setStatus op state).1.Hashed hashing := by
  have requests : (log.setStatus op state).1.requests = log.requests := requests_setStatus op state
  unfold Log.setStatus at requests ⊢
  split at requests
  next missing => simpa only [missing] using hashed
  next entry found =>
      refine ⟨hashed.start, hashed.useHash, hashed.digests, hashed.initialHash, ?_⟩
      rw [requests]
      refine ⟨hashed.piece.numbered.modify _ fun _ => rfl, ?_, ?_⟩
      · rw [List.drop_zero, ← requests]
        rfl
      · intro index entry found
        rw [List.getElem?_modify] at found
        obtain ⟨before, foundBefore, rfl⟩ := Option.map_eq_some_iff.mp found
        have := hashed.piece.hashed _ _ foundBefore
        split <;> exact this

/-- A truncated log is hashed. -/
theorem removeAfter (hashed : log.Hashed hashing) {op : Nat}
    (removed : log.removeAfter op = some cut) :
    cut.Hashed hashing ∧ cut.entries = log.entries.take (op - 1) ∧
      cut.requests = log.requests.take (op - 1) := by
  obtain ⟨start, operations⟩ := of_removeAfter removed
  have requests : cut.requests = log.requests.take (op - 1) := by
    rw [requests_eq_map, operations, requests_eq_map, List.map_take, hashed.start]
  have entries : cut.entries = log.entries.take (op - 1) := by
    have := operations
    unfold Log.removeAfter at removed
    split at removed
    next =>
        obtain rfl := Option.some.inj removed
        have length := congrArg List.length operations
        simp only [length_operations, List.length_take, hashed.start] at length
        rw [List.take_of_length_le (by omega)]
    next =>
        split at removed
        next =>
            obtain rfl := Option.some.inj removed
            have one := hashed.start
            simp only [one]
        next => simp at removed
  have same : cut.useHash = log.useHash ∧ cut.hashing = log.hashing ∧
      cut.initialHash = log.initialHash := by
    unfold Log.removeAfter at removed
    split at removed
    next =>
        obtain rfl := Option.some.inj removed
        exact ⟨rfl, rfl, rfl⟩
    next =>
        split at removed
        next =>
            obtain rfl := Option.some.inj removed
            exact ⟨rfl, rfl, rfl⟩
        next => simp at removed
  refine ⟨⟨start.trans hashed.start, same.1.trans hashed.useHash, same.2.1.trans hashed.digests,
    same.2.2.trans hashed.initialHash, ?_⟩, entries, requests⟩
  rw [entries, requests]
  refine ⟨hashed.piece.numbered.take _, ?_, ?_⟩
  · rw [List.map_take, hashed.piece.carries, List.drop_zero, List.drop_zero]
  · intro index entry found
    rw [List.getElem?_take] at found
    split at found
    next within =>
        rw [hashed.piece.hashed _ _ found, List.take_take, min_eq_left (by omega)]
    next => simp at found

/-- A dump is a piece of the log. -/
theorem dump (hashed : log.Hashed hashing) (from_ : Nat) :
    Piece hashing log.requests (from_ - 1) (log.dump from_) := by
  have piece := hashed.piece.drop (from_ - 1)
  rw [Nat.zero_add] at piece
  unfold Log.dump
  rw [hashed.start]
  have same : max from_ 1 - 1 = from_ - 1 := by omega
  rw [same]
  exact piece

end Hashed

end Log

/-! ## The same log up to an opnum -/

/-- What an entry says, apart from the view it came in and whether it is committed. -/
def LogEntry.content (entry : LogEntry Hash) : Nat × Request × Hash :=
  (entry.viewstamp.opnum, entry.request, entry.hash)

/-- Two logs reach an opnum and have the same requests with the same hashes up to it. -/
structure SameUpTo (opnum : Nat) (mine theirs : List (LogEntry Hash)) : Prop where
  reaches : opnum ≤ mine.length
  reaches' : opnum ≤ theirs.length
  same : (mine.take opnum).map LogEntry.content = (theirs.take opnum).map LogEntry.content

/-- Logs that are in order are the same up to an opnum if their requests are. -/
theorem sameUpTo_of_take {hashing : Hashing Hash} {requests others : List Request}
    {mine theirs : List (LogEntry Hash)} (piece : Piece hashing requests 0 mine)
    (piece' : Piece hashing others 0 theirs) {opnum : Nat} (reaches : opnum ≤ requests.length)
    (reaches' : opnum ≤ others.length) (same : requests.take opnum = others.take opnum) :
    SameUpTo opnum mine theirs where
  reaches := by
    rw [piece.length]
    omega
  reaches' := by
    rw [piece'.length]
    omega
  same := by
    have length := piece.length
    have length' := piece'.length
    apply List.ext_getElem
    · simp only [List.length_map, List.length_take]
      omega
    · intro index inside inside'
      simp only [List.length_map, List.length_take] at inside inside'
      simp only [List.getElem_map, List.getElem_take]
      have here := List.getElem?_eq_getElem (show index < mine.length by omega)
      have here' := List.getElem?_eq_getElem (show index < theirs.length by omega)
      have requested := piece.request here
      have requested' := piece'.request here'
      have within : ∀ list : List Request,
          list.take (0 + index + 1) = (list.take opnum).take (0 + index + 1) := by
        intro list
        rw [List.take_take, min_eq_left (by omega)]
      have at_ : requests[0 + index]? = others[0 + index]? := by
        have position : ∀ list : List Request, (list.take opnum)[0 + index]? = list[0 + index]? :=
          fun list => List.getElem?_take_of_lt (by omega)
        rw [← position requests, same, position others]
      rw [requested, requested'] at at_
      unfold LogEntry.content
      rw [piece.numbered _ _ here, piece'.numbered _ _ here', Option.some.inj at_,
        piece.hashed _ _ here, piece'.hashed _ _ here', within requests, within others, same]

end PaxosBus.Common

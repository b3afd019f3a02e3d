import PaxosBus.Common.Configuration
import PaxosBus.Common.Log
import Mathlib.Data.Finset.Card
import Mathlib.Data.List.MinMax
import Mathlib.Order.Std
import Std.Data.TreeMap.Lemmas

/-!
# `SpecReplica::MergeLogs`

The log merge of Speculative Paxos in the default build. The merge takes the
committed entries of one log, then goes on position by position as long as
enough logs hold the same hash, then appends what is left over from every log.

A failed `ASSERT` or an access past the end of a repeated field gives `none`.
`std::map` iterates in key order, hence the order on `Hash`.
-/

set_option autoImplicit false

namespace PaxosBus.Spec

open Std (TreeMap)
open PaxosBus.Common

variable {Hash : Type}

/-- `DoViewChangeMessage`. -/
structure DoViewChangeMessage (Hash : Type) where
  view : Nat
  lastnormalview : Nat
  lastspeculative : Nat
  lastcommitted : Nat
  entries : List (LogEntry Hash)
  replicaidx : Nat
deriving DecidableEq, Repr

/-- `msg.entries(opnum - firstEntryOpnum)` and the assertion that it has that opnum. -/
def DoViewChangeMessage.entryAt (msg : DoViewChangeMessage Hash) (opnum : Nat) :
    Option (LogEntry Hash) :=
  match msg.entries.head? with
  | none => none
  | some first =>
    if opnum < first.viewstamp.opnum then
      none
    else
      (msg.entries[opnum - first.viewstamp.opnum]?).filter (·.viewstamp.opnum = opnum)

/-- The messages of the map, as iterating over it yields them. -/
def messages (dvcs : TreeMap Nat (DoViewChangeMessage Hash)) : List (DoViewChangeMessage Hash) :=
  dvcs.toList.map (·.2)

/-- One round of the loop that looks for the highest normal view. -/
def latestViewStep (found : Nat × List (DoViewChangeMessage Hash))
    (msg : DoViewChangeMessage Hash) : Nat × List (DoViewChangeMessage Hash) :=
  let (latestView, messages) :=
    if msg.lastnormalview > found.1 then (msg.lastnormalview, []) else found
  if msg.lastnormalview = latestView then
    (latestView, messages ++ [msg])
  else
    (latestView, messages)

/-- `latestViewMessages`: the messages with the highest normal view, in map order. -/
def latestViewMessages (msgs : List (DoViewChangeMessage Hash)) :
    List (DoViewChangeMessage Hash) :=
  (msgs.foldl latestViewStep (0, [])).2

/-- The output of the merge under construction, with the request ids it contains. -/
structure Merged (Hash : Type) where
  out : List (LogEntry Hash)
  seen : Finset (Nat × Nat)
  seenOut : ∀ reqid, reqid ∈ seen ↔ ∃ entry ∈ out, entry.request.reqid = reqid

namespace Merged

/-- Nothing has been output. -/
def empty : Merged Hash where
  out := []
  seen := ∅
  seenOut := by simp

/-- `out.push_back` and `seen.insert`, which always go together. -/
def push (merged : Merged Hash) (entry : LogEntry Hash) : Merged Hash where
  out := merged.out ++ [entry]
  seen := insert entry.request.reqid merged.seen
  seenOut reqid := by
    simp only [Finset.mem_insert, merged.seenOut, List.mem_append, List.mem_singleton]
    constructor
    · rintro (rfl | ⟨old, inOut, rfl⟩)
      · exact ⟨entry, .inr rfl, rfl⟩
      · exact ⟨old, .inl inOut, rfl⟩
    · rintro ⟨old, inOut | rfl, rfl⟩
      · exact .inr ⟨old, inOut, rfl⟩
      · exact .inl rfl

/-- The opnum of the last output entry, or zero. -/
def lastOpnum (merged : Merged Hash) : Nat :=
  match merged.out.getLast? with
  | none => 0
  | some entry => entry.viewstamp.opnum

/-- The hash of the last output entry, or `Log::EMPTY_HASH`. -/
def lastHash (hashing : Hashing Hash) (merged : Merged Hash) : Hash :=
  match merged.out.getLast? with
  | none => hashing.emptyHash
  | some entry => entry.hash

end Merged

/-- The first phase: the committed entries of one log from `maxStart` on. -/
def takeCommitted (maxStart lastcommitted : Nat) :
    List (LogEntry Hash) → Merged Hash → Option (Merged Hash)
  | [], merged => some merged
  | entry :: rest, merged =>
    if entry.viewstamp.opnum < maxStart then
      takeCommitted maxStart lastcommitted rest merged
    else if entry.viewstamp.opnum > lastcommitted then
      some merged
    else if entry.state = .committed then
      takeCommitted maxStart lastcommitted rest
        (merged.push { entry with state := .committed })
    else
      none

/-- What `hashCount`, `reqsByHash` and `viewnumByHash` hold for one hash: the request and the
view are those of the first message with that hash. -/
structure Vote where
  count : Nat
  request : Request
  view : Nat
deriving DecidableEq, Repr

/-- The entries at one position, in message order, of the logs that reach it. -/
def ballots (latest : List (DoViewChangeMessage Hash)) (next : Nat) :
    Option (List (LogEntry Hash)) :=
  (latest.filter (next ≤ ·.lastspeculative)).mapM (·.entryAt next)

section Vote

variable [LinearOrder Hash]

/-- Count one entry at the position under vote. -/
def countVote (votes : TreeMap Hash Vote) (entry : LogEntry Hash) : TreeMap Hash Vote :=
  match votes[entry.hash]? with
  | some vote => votes.insert entry.hash { vote with count := vote.count + 1 }
  | none =>
    votes.insert entry.hash
      { count := 1, request := entry.request, view := entry.viewstamp.view }

/-- The first hash, in map order, with enough matching entries. -/
def elect (needed : Nat) (votes : TreeMap Hash Vote) : Option (Hash × Vote) :=
  votes.toList.find? fun found => needed ≤ found.2.count

/-- The second phase, over at most `rounds` positions from `next` up. It stops at the first
position where no hash has enough matching entries. -/
def voteLoop (latest : List (DoViewChangeMessage Hash)) (needed : Nat) :
    Nat → Nat → Merged Hash → Option (Merged Hash)
  | 0, _, merged => some merged
  | rounds + 1, next, merged =>
    match ballots latest next with
    | none => none
    | some entries =>
      match elect needed (entries.foldl countVote {}) with
      | none => some merged
      | some (hash, vote) =>
        voteLoop latest needed rounds (next + 1)
          (merged.push { viewstamp := ⟨vote.view, next⟩, state := .speculative,
                         request := vote.request, hash })

end Vote

/-- The entries of one log that the third phase looks at. -/
def leftover (maxStart : Nat) (msg : DoViewChangeMessage Hash) : Option (List (LogEntry Hash)) :=
  let start := max (msg.lastcommitted + 1) maxStart
  (List.range' start (msg.lastspeculative + 1 - start)).mapM msg.entryAt

/-- The third phase: append the request in the new view unless it has been seen. `next` and
`lastHash` of the source are those of the last output entry throughout. -/
def appendUnseen (hashing : Hashing Hash) (newView : Nat) (merged : Merged Hash)
    (entry : LogEntry Hash) : Merged Hash :=
  if entry.request.reqid ∈ merged.seen then
    merged
  else
    merged.push
      { viewstamp := ⟨newView, merged.lastOpnum + 1⟩
        state := .speculative
        request := entry.request
        hash := hashing.computeHash (merged.lastHash hashing) entry.request }

/-- `matchingEntriesNeeded`. -/
def matchingEntriesNeeded (config : Configuration) (latest : List (DoViewChangeMessage Hash)) :
    Nat :=
  min (config.fastQuorumSize - config.f) latest.length

/-- `SpecReplica::MergeLogs`. `lastSpeculative` is that of the merging replica. -/
def mergeLogs [LinearOrder Hash] (config : Configuration) (hashing : Hashing Hash)
    (lastSpeculative newView maxStart : Nat) (dvcs : TreeMap Nat (DoViewChangeMessage Hash)) :
    Option (List (LogEntry Hash)) :=
  if dvcs.size ≥ config.quorumSize ∧ maxStart ≤ lastSpeculative then do
    let latest := latestViewMessages (messages dvcs)
    let mostCommitted ← latest.argmax (·.lastcommitted)
    let merged ← takeCommitted maxStart mostCommitted.lastcommitted mostCommitted.entries .empty
    let next := max (merged.lastOpnum + 1) maxStart
    let furthest ← latest.argmax (·.lastspeculative)
    let merged ← voteLoop latest (matchingEntriesNeeded config latest)
      (furthest.lastspeculative + 1 - next) next merged
    let entries ← latest.mapM (leftover maxStart)
    return (entries.flatten.foldl (appendUnseen hashing newView) merged).out
  else
    none

end PaxosBus.Spec

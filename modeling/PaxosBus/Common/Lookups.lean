import PaxosBus.Common.ReplicaLog
import PaxosBus.Library.Harmless
import PaxosBus.Library.Lookup

/-!
# Calls on a log

A log as its users drive it: entries are appended, with or without a set of
viewstamps from other shards, truncated, marked and edited. A run is a sequence of
calls none of which fails an assertion. The two maps of the class are filled on
append only, and what that means for the lookups is said for each call.
-/

set_option autoImplicit false

namespace PaxosBus.Common

open PaxosBus.Library

variable {Hash : Type}

/-- `viewstamp_t` with all the fields that `Viewstamp_Compare` looks at: a key of `vssMap`. -/
structure ShardViewstamp where
  view : Nat
  opnum : Nat
  sessnum : Nat
  msgnum : Nat
  shardnum : Nat
deriving DecidableEq, Repr

/-- `Log`, with the map that finds entries by the viewstamps they were appended with. -/
structure IndexedLog (Hash : Type) where
  log : Log Hash
  vssMap : ShardViewstamp → Option Nat

/-- The calls that change a log. `vss` is empty for the `Log::Append` without viewstamps. -/
inductive Call where
  | append (vs : Viewstamp) (request : Request) (vss : List ShardViewstamp) (state : LogEntryState)
  | removeAfter (op : Nat)
  | setStatus (op : Nat) (state : LogEntryState)
  | setRequest (op : Nat) (request : Request)
deriving DecidableEq, Repr

/-- `Log::Log`. Operation numbers start at one or later. -/
def Log.startingAfter (hashing : Hashing Hash) (useHash : Bool) (skipped : Nat)
    (initialHash : Hash) : Log Hash where
  hashing := hashing
  useHash := useHash
  start := skipped + 1
  initialHash := initialHash
  entries := []
  clientReqMap _ := none
  numbered := .nil

namespace IndexedLog

/-- `Log::Append` with a set of viewstamps. -/
def append (indexed : IndexedLog Hash) (vs : Viewstamp) (request : Request)
    (vss : List ShardViewstamp) (state : LogEntryState) : Option (IndexedLog Hash) :=
  (indexed.log.append vs request state).map fun log =>
    { log
      vssMap := vss.foldl (fun map v => Function.update map v (some vs.opnum)) indexed.vssMap }

/-- `Log::Find` of a viewstamp. -/
def findViewstamp (indexed : IndexedLog Hash) (vs : ShardViewstamp) : Option (LogEntry Hash) :=
  (indexed.vssMap vs).bind indexed.log.find

/-- One call. There is no log after a call that fails an assertion. -/
def perform (indexed : IndexedLog Hash) : Call → Option (IndexedLog Hash)
  | .append vs request vss state => indexed.append vs request vss state
  | .removeAfter op => (indexed.log.removeAfter op).map fun log => { indexed with log }
  | .setStatus op state => some { indexed with log := (indexed.log.setStatus op state).1 }
  | .setRequest op request =>
    (indexed.log.setRequest op request).map fun done => { indexed with log := done.1 }

/-- A sequence of calls. -/
def performAll (indexed : IndexedLog Hash) (calls : List Call) : Option (IndexedLog Hash) :=
  runAll perform indexed calls

end IndexedLog

/-- The viewstamps that each entry was appended with, next to the log. -/
structure Tracked (Hash : Type) where
  indexed : IndexedLog Hash
  appendedWith : List (List ShardViewstamp)

namespace Tracked

/-- An empty log. -/
def init (hashing : Hashing Hash) (useHash : Bool) (skipped : Nat) (initialHash : Hash) :
    Tracked Hash where
  indexed := { log := .startingAfter hashing useHash skipped initialHash, vssMap := fun _ => none }
  appendedWith := []

/-- What a call does to the record of viewstamps. -/
def record (start : Nat) (appendedWith : List (List ShardViewstamp)) :
    Call → List (List ShardViewstamp)
  | .append _ _ vss _ => appendedWith ++ [vss]
  | .removeAfter op => appendedWith.take (op - start)
  | .setStatus _ _ | .setRequest _ _ => appendedWith

/-- One call. -/
def perform (tracked : Tracked Hash) (call : Call) : Option (Tracked Hash) :=
  (tracked.indexed.perform call).map fun indexed =>
    { indexed
      appendedWith := record tracked.indexed.log.start tracked.appendedWith call }

/-- A sequence of calls. -/
def performAll (tracked : Tracked Hash) (calls : List Call) : Option (Tracked Hash) :=
  runAll perform tracked calls

/-- The lookups agree with the log: a pair leads to an entry whose request has it, a viewstamp
to an entry that was appended with it, and each leads nowhere exactly when there is no such entry. -/
structure LookupsAgree (tracked : Tracked Hash) : Prop where
  findReqid : ∀ reqid entry, tracked.indexed.log.findReqid reqid = some entry →
    entry ∈ tracked.indexed.log.entries ∧ entry.request.reqid = reqid
  findReqid_none : ∀ reqid, tracked.indexed.log.findReqid reqid = none ↔
    ∀ entry ∈ tracked.indexed.log.entries, entry.request.reqid ≠ reqid
  findViewstamp : ∀ vs entry, tracked.indexed.findViewstamp vs = some entry →
    ∃ (index : Nat) (vss : List ShardViewstamp),
      tracked.indexed.log.entries[index]? = some entry ∧
        tracked.appendedWith[index]? = some vss ∧ vs ∈ vss
  findViewstamp_none : ∀ vs, tracked.indexed.findViewstamp vs = none ↔
    ∀ vss ∈ tracked.appendedWith, vs ∉ vss

/-- The condition on a call under which the lookups still agree with the log. An append must not
reuse the operation number that another pair or viewstamp was last appended at. A truncation
must not remove the last entry that a pair or viewstamp was appended with and leave an earlier one.
A request may replace one with another pair only if the old pair was appended again elsewhere,
and the new one is in the log. -/
def Harmless (tracked : Tracked Hash) : Call → Prop
  | .append vs request vss _ =>
    (∀ reqid ≠ request.reqid, tracked.indexed.log.clientReqMap reqid ≠ some vs.opnum) ∧
      ∀ v, v ∉ vss → tracked.indexed.vssMap v ≠ some vs.opnum
  | .removeAfter op =>
    (∀ reqid last, tracked.indexed.log.clientReqMap reqid = some last → op ≤ last →
      ∀ entry ∈ tracked.indexed.log.entries.take (op - tracked.indexed.log.start),
        entry.request.reqid ≠ reqid) ∧
      ∀ v last, tracked.indexed.vssMap v = some last → op ≤ last →
        ∀ vss ∈ tracked.appendedWith.take (op - tracked.indexed.log.start), v ∉ vss
  | .setStatus _ _ => True
  | .setRequest op request =>
    ∀ entry, tracked.indexed.log.find op = some entry →
      request.reqid = entry.request.reqid ∨
        tracked.indexed.log.clientReqMap entry.request.reqid ≠ some op ∧
          ∃ other ∈ tracked.indexed.log.entries, other.request.reqid = request.reqid

/-! ## The lookups as locating rows of a table -/

variable {tracked after : Tracked Hash}

/-- There is a record for each entry. -/
def Aligned (tracked : Tracked Hash) : Prop :=
  tracked.appendedWith.length = tracked.indexed.log.entries.length

/-- The pairs of the entries are located. -/
def LocatesReqids (log : Log Hash) : Prop :=
  Locates (fun entry reqid => entry.request.reqid = reqid) log.start log.entries log.clientReqMap

/-- The viewstamps that entries were appended with are located. -/
def LocatesViewstamps (tracked : Tracked Hash) : Prop :=
  Locates (fun vss v => v ∈ vss) tracked.indexed.log.start tracked.appendedWith
    tracked.indexed.vssMap

/-- A viewstamp leads to an entry exactly when it leads to a record. -/
theorem findViewstamp_eq_none_iff (aligned : tracked.Aligned) (v : ShardViewstamp) :
    tracked.indexed.findViewstamp v = none ↔
      lookup tracked.indexed.log.start tracked.appendedWith tracked.indexed.vssMap v = none := by
  unfold IndexedLog.findViewstamp lookup
  cases tracked.indexed.vssMap v with
  | none => simp
  | some number =>
      rw [Option.bind_some, Option.bind_some]
      unfold Log.find rowAt
      split
      · simp
      · rw [List.getElem?_eq_none_iff, List.getElem?_eq_none_iff, aligned]

/-- The lookups agree with the log when both maps locate. -/
theorem lookupsAgree_iff (aligned : tracked.Aligned) :
    tracked.LookupsAgree ↔ LocatesReqids tracked.indexed.log ∧ tracked.LocatesViewstamps := by
  constructor
  · intro agree
    constructor
    · constructor
      · intro reqid entry found
        exact (agree.findReqid reqid entry found).2
      · intro reqid entry member holds missing
        exact (agree.findReqid_none reqid).mp missing entry member holds
    · constructor
      · intro v vss looked
        obtain ⟨number, leads, here⟩ := lookup_eq_some_iff.mp looked
        obtain ⟨low, there⟩ := rowAt_eq_some_iff.mp here
        have inside := (List.getElem?_eq_some_iff.mp there).1
        rw [aligned] at inside
        have found : tracked.indexed.findViewstamp v =
            some tracked.indexed.log.entries[number - tracked.indexed.log.start] := by
          unfold IndexedLog.findViewstamp
          rw [leads, Option.bind_some]
          unfold Log.find
          rw [if_neg (Nat.not_lt.mpr low), List.getElem?_eq_getElem inside]
        obtain ⟨index, vss', entry, recorded, holds⟩ := agree.findViewstamp v _ found
        have number' := tracked.indexed.log.numbered _ _ entry
        have number'' := tracked.indexed.log.numbered _ _ (List.getElem?_eq_getElem inside)
        have same : index = number - tracked.indexed.log.start := by omega
        rw [same, there] at recorded
        exact Option.some.inj recorded ▸ holds
      · intro v vss member holds missing
        have := (agree.findViewstamp_none v).mp
          ((findViewstamp_eq_none_iff aligned v).mpr missing)
        exact this vss member holds
  · rintro ⟨reqids, viewstamps⟩
    constructor
    · intro reqid entry found
      exact ⟨mem_of_lookup found, reqids.hit reqid entry found⟩
    · intro reqid
      exact reqids.lookup_eq_none_iff
    · intro v entry found
      obtain ⟨number, leads, here⟩ := Option.bind_eq_some_iff.mp found
      obtain ⟨low, there⟩ := Log.of_find here
      have inside := (List.getElem?_eq_some_iff.mp there).1
      rw [← aligned] at inside
      have recorded := List.getElem?_eq_getElem inside
      have looked := lookup_eq_some_iff.mpr ⟨number, leads, rowAt_eq_some_iff.mpr ⟨low, recorded⟩⟩
      exact ⟨_, _, there, recorded, viewstamps.hit v _ looked⟩
    · intro v
      exact (findViewstamp_eq_none_iff aligned v).trans viewstamps.lookup_eq_none_iff

/-! ## What each call does to the lookups -/

/-- The loop that fills `vssMap`. -/
theorem foldl_update (vss : List ShardViewstamp) (map : ShardViewstamp → Option Nat) (number : Nat)
    (v : ShardViewstamp) :
    vss.foldl (fun map v => Function.update map v (some number)) map v =
      if v ∈ vss then some number else map v := by
  induction vss generalizing map with
  | nil => simp
  | cons first rest inductionHypothesis =>
      rw [List.foldl_cons, inductionHypothesis]
      by_cases here : v = first
      · simp [here]
      · simp [here]

/-- There is still a record for each entry after a call. -/
theorem aligned_perform {call : Call} (aligned : tracked.Aligned)
    (performed : tracked.perform call = some after) : after.Aligned := by
  obtain ⟨indexed, called, rfl⟩ := Option.map_eq_some_iff.mp performed
  cases call with
  | append vs request vss state =>
      obtain ⟨longer, appended, rfl⟩ := Option.map_eq_some_iff.mp called
      obtain ⟨-, entries, -⟩ := Log.eq_of_append appended
      simp only [Aligned, record, entries, List.length_append, List.length_singleton]
      rw [aligned]
  | removeAfter op =>
      obtain ⟨cut, removed, rfl⟩ := Option.map_eq_some_iff.mp called
      obtain ⟨-, entries, -⟩ := Log.eq_of_removeAfter removed
      simp only [Aligned, record, entries, List.length_take]
      rw [aligned]
  | setStatus op state =>
      obtain rfl := Option.some.inj called
      unfold Log.setStatus
      split
      · exact aligned
      · exact aligned.trans (List.length_modify ..).symm
  | setRequest op request =>
      obtain ⟨done, edited, rfl⟩ := Option.map_eq_some_iff.mp called
      unfold Log.setRequest at edited
      split at edited
      · simp at edited
      split at edited
      · obtain rfl := Option.some.inj edited
        exact aligned
      · obtain rfl := Option.some.inj edited
        exact aligned.trans (List.length_modify ..).symm

/-- An append keeps the lookups right exactly when it is harmless. -/
theorem lookups_append {vs : Viewstamp} {request : Request} {vss : List ShardViewstamp}
    {state : LogEntryState} (aligned : tracked.Aligned)
    (reqids : LocatesReqids tracked.indexed.log) (viewstamps : tracked.LocatesViewstamps)
    (performed : tracked.perform (.append vs request vss state) = some after) :
    LocatesReqids after.indexed.log ∧ after.LocatesViewstamps ↔
      tracked.Harmless (.append vs request vss state) := by
  obtain ⟨indexed, called, rfl⟩ := Option.map_eq_some_iff.mp performed
  obtain ⟨longer, appended, rfl⟩ := Option.map_eq_some_iff.mp called
  obtain ⟨start, entries, map⟩ := Log.eq_of_append appended
  have number := (Log.of_append appended).1
  apply and_congr
  · unfold LocatesReqids
    rw [start, entries, map]
    refine (reqids.concat_iff ?_ ?_).trans ?_
    · rintro reqid rfl
      rw [← number]
      exact Function.update_self ..
    · intro reqid other
      exact Function.update_of_ne (Ne.symm other) ..
    · rw [← number]
      apply forall_congr'
      intro reqid
      exact imp_congr_left ne_comm
  · have place : tracked.indexed.log.start + tracked.appendedWith.length = vs.opnum := by
      rw [aligned, number]
    unfold LocatesViewstamps record
    rw [start]
    refine (viewstamps.concat_iff ?_ ?_).trans ?_
    · intro v member
      rw [place]
      exact (foldl_update ..).trans (if_pos member)
    · intro v other
      exact (foldl_update ..).trans (if_neg other)
    · rw [place]

/-- So does a truncation. -/
theorem lookups_removeAfter {op : Nat}
    (reqids : LocatesReqids tracked.indexed.log) (viewstamps : tracked.LocatesViewstamps)
    (performed : tracked.perform (.removeAfter op) = some after) :
    LocatesReqids after.indexed.log ∧ after.LocatesViewstamps ↔
      tracked.Harmless (.removeAfter op) := by
  obtain ⟨indexed, called, rfl⟩ := Option.map_eq_some_iff.mp performed
  obtain ⟨cut, removed, rfl⟩ := Option.map_eq_some_iff.mp called
  obtain ⟨start, entries, map⟩ := Log.eq_of_removeAfter removed
  have low := Log.le_of_removeAfter removed
  have place : tracked.indexed.log.start + (op - tracked.indexed.log.start) = op := by omega
  apply and_congr
  · unfold LocatesReqids
    rw [start, entries, map]
    refine (reqids.take_iff _).trans ?_
    rw [place]
  · unfold LocatesViewstamps record
    rw [start]
    refine (viewstamps.take_iff _).trans ?_
    rw [place]

/-- Marking an entry changes no lookup. -/
theorem lookups_setStatus {op : Nat} {state : LogEntryState}
    (reqids : LocatesReqids tracked.indexed.log) (viewstamps : tracked.LocatesViewstamps)
    (performed : tracked.perform (.setStatus op state) = some after) :
    LocatesReqids after.indexed.log ∧ after.LocatesViewstamps := by
  obtain ⟨indexed, called, rfl⟩ := Option.map_eq_some_iff.mp performed
  obtain rfl := Option.some.inj called
  unfold Log.setStatus
  split
  next => exact ⟨reqids, viewstamps⟩
  next entry found =>
      refine ⟨?_, viewstamps⟩
      apply reqids.modify (Log.of_find found).2
      intro reqid
      rfl

/-- Editing a request keeps the lookups right exactly when it is harmless. -/
theorem lookups_setRequest {op : Nat} {request : Request}
    (reqids : LocatesReqids tracked.indexed.log) (viewstamps : tracked.LocatesViewstamps)
    (performed : tracked.perform (.setRequest op request) = some after) :
    LocatesReqids after.indexed.log ∧ after.LocatesViewstamps ↔
      tracked.Harmless (.setRequest op request) := by
  obtain ⟨indexed, called, rfl⟩ := Option.map_eq_some_iff.mp performed
  obtain ⟨done, edited, rfl⟩ := Option.map_eq_some_iff.mp called
  unfold Log.setRequest at edited
  split at edited
  next => simp at edited
  split at edited
  next missing =>
      obtain rfl := Option.some.inj edited
      apply iff_of_true ⟨reqids, viewstamps⟩
      intro entry found
      rw [missing] at found
      simp at found
  next entry found =>
      obtain rfl := Option.some.inj edited
      obtain ⟨low, here⟩ := Log.of_find found
      have place : tracked.indexed.log.start + (op - tracked.indexed.log.start) = op := by omega
      rw [and_iff_left (by exact viewstamps)]
      refine (reqids.modify_iff here).trans ?_
      rw [place]
      constructor
      · intro fine entry' found'
        obtain rfl := Option.some.inj (found.symm.trans found')
        exact fine
      · intro harmless
        exact harmless entry found

/-- A call keeps the lookups in agreement with the log exactly when it is harmless. -/
theorem lookupsAgree_perform {call : Call} (aligned : tracked.Aligned)
    (agree : tracked.LookupsAgree) (performed : tracked.perform call = some after) :
    after.LookupsAgree ↔ tracked.Harmless call := by
  obtain ⟨reqids, viewstamps⟩ := (lookupsAgree_iff aligned).mp agree
  apply (lookupsAgree_iff (aligned_perform aligned performed)).trans
  cases call with
  | append vs request vss state => exact lookups_append aligned reqids viewstamps performed
  | removeAfter op => exact lookups_removeAfter reqids viewstamps performed
  | setStatus op state =>
      exact iff_of_true (lookups_setStatus reqids viewstamps performed) trivial
  | setRequest op request => exact lookups_setRequest reqids viewstamps performed

/-! ## Runs -/

theorem aligned_init (hashing : Hashing Hash) (useHash : Bool) (skipped : Nat)
    (initialHash : Hash) : (init hashing useHash skipped initialHash).Aligned := rfl

/-- Nothing is to be found in an empty log. -/
theorem lookupsAgree_init (hashing : Hashing Hash) (useHash : Bool) (skipped : Nat)
    (initialHash : Hash) : (init hashing useHash skipped initialHash).LookupsAgree :=
  (lookupsAgree_iff (aligned_init ..)).mpr ⟨.nil, .nil⟩

/-- The lookups agree with the log after each call of a run that respects the assertions of the
class exactly when each call of the run is harmless where it is made. -/
theorem lookups_agree_iff_harmless (hashing : Hashing Hash) (useHash : Bool) (skipped : Nat)
    (initialHash : Hash) {calls : List Call} {final : Tracked Hash}
    (ran : (init hashing useHash skipped initialHash).performAll calls = some final) :
    Always perform LookupsAgree (init hashing useHash skipped initialHash) calls ↔
      Harmlessly perform Harmless (init hashing useHash skipped initialHash) calls :=
  always_iff_harmlessly aligned_perform lookupsAgree_perform (aligned_init ..)
    (lookupsAgree_init ..) ran

/-- `EMPTY_HASH` and nothing else, for logs without hashes. -/
def unhashed : Hashing Unit where
  digest _ _ _ := ()
  emptyHash := ()

/-- A viewstamp of another shard. -/
def sharded (msgnum : Nat) : ShardViewstamp where
  view := 0
  opnum := 7
  sessnum := 1
  msgnum := msgnum
  shardnum := 2

/-- The first of two entries is committed. The second is removed, and its request is appended again
with a further viewstamp and gets another operation. -/
def retrying : List Call :=
  [.append { view := 0, opnum := 1 } { op := "a", clientid := 1, clientreqid := 1 } [sharded 3]
      .prepared,
    .append { view := 0, opnum := 2 } { op := "b", clientid := 2, clientreqid := 1 } [sharded 4]
      .prepared,
    .setStatus 1 .committed,
    .removeAfter 2,
    .append { view := 1, opnum := 2 } { op := "b", clientid := 2, clientreqid := 1 }
      [sharded 4, sharded 5] .prepared,
    .setRequest 2 { op := "c", clientid := 2, clientreqid := 1 }]

/-- All calls are harmless, so that the lookups agree with the log after each of them. -/
theorem lookups_agree_retrying : Always perform LookupsAgree (init unhashed false 0 ()) retrying := by
  apply (@lookups_agree_iff_harmless Unit unhashed false 0 () retrying _ rfl).mpr
  refine .cons ?_ rfl (.cons ?_ rfl (.cons ?_ rfl (.cons ?_ rfl (.cons ?_ rfl (.cons ?_ rfl .nil)))))
  · exact ⟨fun _ _ => nofun, fun _ _ => nofun⟩
  · constructor
    · intro reqid _
      change Function.update (fun _ => none) (1, 1) (some 1) reqid ≠ some 2
      rcases eq_or_ne reqid (1, 1) with rfl | different <;> simp [*]
    · intro v _
      change Function.update (fun _ => none) (sharded 3) (some 1) v ≠ some 2
      rcases eq_or_ne v (sharded 3) with rfl | different <;> simp [*]
  · trivial
  · constructor
    · rintro reqid last found beyond entry member rfl
      obtain rfl := List.mem_singleton.mp member
      obtain rfl : 1 = last := Option.some.inj found
      omega
    · intro v last found beyond vss member inVss
      obtain rfl := List.mem_singleton.mp member
      obtain rfl := List.mem_singleton.mp inVss
      obtain rfl : 1 = last := Option.some.inj found
      omega
  · constructor
    · intro reqid different
      change Function.update (Function.update (fun _ => none) (1, 1) (some 1)) (2, 1) (some 2)
        reqid ≠ some 2
      change reqid ≠ (2, 1) at different
      rw [Function.update_of_ne different]
      rcases eq_or_ne reqid (1, 1) with rfl | other <;> simp [*]
    · intro v notIn
      change Function.update (Function.update (fun _ => none) (sharded 3) (some 1)) (sharded 4)
        (some 2) v ≠ some 2
      have different : v ≠ sharded 4 := fun same => notIn (same ▸ List.mem_cons_self)
      rw [Function.update_of_ne different]
      rcases eq_or_ne v (sharded 3) with rfl | other <;> simp [*]
  · intro entry found
    obtain rfl := Option.some.inj found
    exact .inl rfl

/-- A log that is truncated and refilled with another request at the same number. -/
def refilling : List Call :=
  [.append { view := 0, opnum := 1 } { op := "a", clientid := 1, clientreqid := 1 } [] .prepared,
    .removeAfter 1,
    .append { view := 1, opnum := 1 } { op := "b", clientid := 2, clientreqid := 1 } [] .prepared]

/-- The first request is still found, and the entry is that of the second one. -/
theorem not_lookups_agree_refilling :
    ¬ ∀ (calls : List Call) (final : Tracked Unit),
      (init unhashed false 0 ()).performAll calls = some final → final.LookupsAgree := by
  intro always
  have agree := always refilling _ rfl
  have found := agree.findReqid (1, 1) _ rfl
  exact absurd found.2 (by decide)

end Tracked

end PaxosBus.Common

import PaxosBus.Common.HashChain
import PaxosBus.Common.Lookups

/-!
# Runs of a hashed log

Whatever is appended to a hashed log and removed from it again, the hash of an
entry is the fold of the digest over the request ids up to it. So one hash stands
for the history of request ids, even between logs that grew along different ways.
-/

set_option autoImplicit false

namespace PaxosBus.Common

open PaxosBus.Library

variable {Hash : Type} {hashing : Hashing Hash}

namespace IndexedLog

/-- An empty hashed log. -/
def hashedInit (hashing : Hashing Hash) : IndexedLog Hash where
  log := .new hashing true
  vssMap _ := none

variable {indexed after : IndexedLog Hash}

/-- A call keeps a log hashed. -/
theorem hashed_perform {call : Call} (hashed : indexed.log.Hashed hashing)
    (performed : indexed.perform call = some after) : after.log.Hashed hashing := by
  cases call with
  | append vs request vss state =>
      obtain ⟨longer, appended, rfl⟩ := Option.map_eq_some_iff.mp performed
      exact (hashed.append appended).1
  | removeAfter op =>
      obtain ⟨cut, removed, rfl⟩ := Option.map_eq_some_iff.mp performed
      exact (hashed.removeAfter removed).1
  | setStatus op state =>
      obtain rfl := Option.some.inj performed
      exact hashed.setStatus op state
  | setRequest op request =>
      -- the class refuses to edit the requests of a hashed log
      obtain ⟨done, edited, -⟩ := Option.map_eq_some_iff.mp performed
      unfold Log.setRequest at edited
      rw [if_pos hashed.useHash] at edited
      simp at edited

/-- A run keeps a log hashed. -/
theorem hashed_performAll {calls : List Call} (hashed : indexed.log.Hashed hashing)
    (ran : indexed.performAll calls = some after) : after.log.Hashed hashing := by
  apply @runAll_induction _ _ perform indexed after calls (fun log => log.log.Hashed hashing) _
    hashed ran
  intro indexed call next hashed performed
  exact hashed_perform hashed performed

end IndexedLog

namespace Log.Hashed

variable {mine theirs : Log Hash} {opnum : Nat} {entry other : LogEntry Hash}

/-- Logs with equal hashes at a number have the same request ids at every number up to it. -/
theorem reqid_of_hash (free : hashing.CollisionFree) (hashed : mine.Hashed hashing)
    (hashed' : theirs.Hashed hashing) (found : mine.find opnum = some entry)
    (found' : theirs.find opnum = some other) (same : entry.hash = other.hash) {earlier : Nat}
    (low : 0 < earlier) (high : earlier ≤ opnum) :
    ∃ entry' other', mine.find earlier = some entry' ∧ theirs.find earlier = some other' ∧
      entry'.request.reqid = other'.request.reqid := by
  obtain ⟨-, within, -, -, hash⟩ := hashed.of_find found
  obtain ⟨-, within', -, -, hash'⟩ := hashed'.of_find found'
  have ids : (mine.requests.take opnum).map Request.reqid =
      (theirs.requests.take opnum).map Request.reqid := by
    apply free.map_reqid_of_chain
    · rw [List.length_take, List.length_take, min_eq_left within, min_eq_left within']
    · rw [← hash, ← hash', same]
  obtain ⟨entry', foundEntry⟩ := hashed.exists_find low (high.trans within)
  obtain ⟨other', foundOther⟩ := hashed'.exists_find low (high.trans within')
  refine ⟨entry', other', foundEntry, foundOther, ?_⟩
  have request := (hashed.of_find foundEntry).2.2.2.1
  have request' := (hashed'.of_find foundOther).2.2.2.1
  have at_ := congrArg (·[earlier - 1]?) ids
  simp only [List.getElem?_map] at at_
  rw [List.getElem?_take_of_lt (by omega), List.getElem?_take_of_lt (by omega), request,
    request'] at at_
  exact Option.some.inj at_

end Log.Hashed

/-- In every run of a hashed log, the hash at a number is the fold of `Log::ComputeHash` over the
requests up to it; so where no two inputs have the same digest, two runs that end with equal hashes
at a number have the same request ids at every number up to it. -/
theorem hash_chain (hashing : Hashing Hash) {calls : List Call} {mine : IndexedLog Hash}
    (ran : (IndexedLog.hashedInit hashing).performAll calls = some mine) :
    (∀ opnum entry, mine.log.find opnum = some entry →
      entry.hash = ((mine.log.entries.take opnum).map LogEntry.request).foldl
        hashing.computeHash hashing.emptyHash) ∧
      (hashing.CollisionFree → ∀ calls' theirs,
        (IndexedLog.hashedInit hashing).performAll calls' = some theirs →
          ∀ opnum entry other, mine.log.find opnum = some entry →
            theirs.log.find opnum = some other → entry.hash = other.hash →
              ∀ earlier, 0 < earlier → earlier ≤ opnum →
                ∃ entry' other', mine.log.find earlier = some entry' ∧
                  theirs.log.find earlier = some other' ∧
                    entry'.request.reqid = other'.request.reqid) := by
  have hashed := IndexedLog.hashed_performAll Log.Hashed.new ran
  constructor
  · intro opnum entry found
    rw [List.map_take]
    exact (hashed.of_find found).2.2.2.2
  · intro free calls' theirs ran' opnum entry other found found' same earlier low high
    have hashed' := IndexedLog.hashed_performAll Log.Hashed.new ran'
    exact hashed.reqid_of_hash free hashed' found found' same low high

/-- A log whose second entry is replaced. -/
def regrown : List Call :=
  [.append { view := 0, opnum := 1 } { op := "a", clientid := 1, clientreqid := 1 } [] .speculative,
    .append { view := 0, opnum := 2 } { op := "b", clientid := 2, clientreqid := 1 } [] .speculative,
    .removeAfter 2,
    .append { view := 1, opnum := 2 } { op := "c", clientid := 3, clientreqid := 1 } [] .speculative]

/-- A log that grew to the same requests at once. -/
def straight : List Call :=
  [.append { view := 1, opnum := 1 } { op := "a", clientid := 1, clientreqid := 1 } [] .committed,
    .append { view := 1, opnum := 2 } { op := "c", clientid := 3, clientreqid := 1 } [] .committed]

/-- The two logs have one hash at the second number, and so one request id at the first. -/
theorem hash_chain_regrown :
    ∃ mine theirs, (IndexedLog.hashedInit spelling).performAll regrown = some mine ∧
      (IndexedLog.hashedInit spelling).performAll straight = some theirs ∧
        ∃ entry' other', mine.log.find 1 = some entry' ∧ theirs.log.find 1 = some other' ∧
          entry'.request.reqid = other'.request.reqid :=
  ⟨_, _, rfl, rfl, (@hash_chain _ spelling regrown _ rfl).2 spelling_collisionFree straight _
    rfl 2 _ _ rfl rfl rfl 1 (by decide) (by decide)⟩

end PaxosBus.Common

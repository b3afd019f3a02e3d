import PaxosBus.Spec.MergedLog
import PaxosBus.Library.Quorum

/-!
# A fast quorum survives the merge

If a fast quorum of the logs has one hash at opnum `k`, then among any `f + 1`
of them enough have it for the vote, and the others are too few to win with
anything else. Hashes chain, so the same holds at every position before `k`.
-/

set_option autoImplicit false

namespace PaxosBus.Spec

open Std (TreeMap)
open PaxosBus.Common PaxosBus.Library

variable {Hash : Type}

/-! ## The senders of the messages -/

/-- The keys of the map are distinct. -/
theorem nodup_keys (dvcs : TreeMap Nat (DoViewChangeMessage Hash)) :
    (dvcs.toList.map (·.1)).Nodup := by
  rw [List.Nodup, List.pairwise_map]
  exact TreeMap.ordered_keys_toList.imp fun less same => by
    rw [same, compare_lt_iff_lt] at less
    exact lt_irrefl _ less

/-- The replicas that sent a message. -/
def senders (dvcs : TreeMap Nat (DoViewChangeMessage Hash)) : Finset Nat :=
  (dvcs.toList.map (·.1)).toFinset

/-- There are as many senders as votes. -/
theorem card_senders (dvcs : TreeMap Nat (DoViewChangeMessage Hash)) :
    (senders dvcs).card = dvcs.size := by
  rw [senders, List.toFinset_card_of_nodup (nodup_keys dvcs), List.length_map,
    TreeMap.length_toList]

/-- Who has sent a vote is a sender. -/
theorem mem_senders {dvcs : TreeMap Nat (DoViewChangeMessage Hash)} {idx : Nat} :
    idx ∈ senders dvcs ↔ ∃ msg, dvcs[idx]? = some msg := by
  simp only [senders, List.mem_toFinset, List.mem_map, Prod.exists]
  constructor
  · rintro ⟨_, msg, listed, rfl⟩
    exact ⟨msg, TreeMap.mem_toList_iff_getElem?_eq_some.mp listed⟩
  · rintro ⟨msg, found⟩
    exact ⟨idx, msg, TreeMap.mem_toList_iff_getElem?_eq_some.mpr found, rfl⟩

/-- The messages are the votes of the senders. -/
theorem mem_messages {dvcs : TreeMap Nat (DoViewChangeMessage Hash)}
    {msg : DoViewChangeMessage Hash} :
    msg ∈ messages dvcs ↔ ∃ idx : Nat, dvcs[idx]? = some msg := by
  simp only [messages, List.mem_map, Prod.exists]
  constructor
  · rintro ⟨idx, _, listed, rfl⟩
    exact ⟨idx, TreeMap.mem_toList_iff_getElem?_eq_some.mp listed⟩
  · rintro ⟨idx, found⟩
    exact ⟨idx, msg, TreeMap.mem_toList_iff_getElem?_eq_some.mpr found, rfl⟩

/-! ## Logs with a common view -/

/-- A replica's whole log: entries from opnum one on, hashed from `Log::EMPTY_HASH`. -/
structure FullLog (hashing : Hashing Hash) (log : List (LogEntry Hash)) : Prop where
  chain : log.IsChain (Chained hashing)
  first : ∀ entry ∈ log.head?, entry.viewstamp.opnum = 1 ∧
    entry.hash = hashing.computeHash hashing.emptyHash entry.request

namespace FullLog

variable {hashing : Hashing Hash} {log other : List (LogEntry Hash)}

/-- The entry at an index has the opnum after it. -/
theorem opnum_getElem (full : FullLog hashing log) (i : Nat) (bounded : i < log.length) :
    (log[i]).viewstamp.opnum = i + 1 := by
  induction i with
  | zero =>
      refine (full.first log[0] ?_).1
      rw [List.head?_eq_getElem?, List.getElem?_eq_getElem bounded]
      rfl
  | succ i inductionHypothesis =>
      rw [(List.isChain_iff_getElem.mp full.chain i bounded).opnum,
        inductionHypothesis (by omega)]

/-- The hash of an entry determines its request and, unless it is the first, the hash of the
entry before it. -/
theorem same_of_hash (full : FullLog hashing log) (fullOther : FullLog hashing other)
    (collisionFree : hashing.CollisionFree) {i : Nat} (bounded : i < log.length)
    (bounded' : i < other.length) (same : (log[i]).hash = (other[i]).hash) :
    (log[i]).request.reqid = (other[i]).request.reqid ∧
      ∀ j (less : j + 1 = i), (log[j]).hash = (other[j]).hash := by
  cases i with
  | zero =>
      have first := (full.first log[0] (by simp [List.head?_eq_getElem?, bounded])).2
      have first' := (fullOther.first other[0] (by simp [List.head?_eq_getElem?, bounded'])).2
      rw [first, first'] at same
      exact ⟨collisionFree.reqid same, fun j less => absurd less (by omega)⟩
  | succ i =>
      have chained := (List.isChain_iff_getElem.mp full.chain i bounded).hash
      have chained' := (List.isChain_iff_getElem.mp fullOther.chain i bounded').hash
      rw [chained, chained'] at same
      refine ⟨collisionFree.reqid same, fun j less => ?_⟩
      obtain rfl : j = i := by omega
      exact collisionFree.lastHash same

/-- Logs that have the same hash at one index are the same up to there. -/
theorem same_below (full : FullLog hashing log) (fullOther : FullLog hashing other)
    (collisionFree : hashing.CollisionFree) {top : Nat} (bounded : top < log.length)
    (bounded' : top < other.length) (same : (log[top]).hash = (other[top]).hash) {i : Nat}
    (below : i ≤ top) :
    (log[i]).hash = (other[i]).hash ∧ (log[i]).request.reqid = (other[i]).request.reqid := by
  induction top with
  | zero =>
      obtain rfl : i = 0 := by omega
      exact ⟨same, (full.same_of_hash fullOther collisionFree bounded bounded' same).1⟩
  | succ top inductionHypothesis =>
      obtain ⟨request, before⟩ :=
        full.same_of_hash fullOther collisionFree bounded bounded' same
      rcases Nat.eq_or_lt_of_le below with rfl | less
      · exact ⟨same, request⟩
      · exact inductionHypothesis (by omega) (by omega) (before top rfl) (by omega)

/-- The entries of a log and their opnums. -/
theorem mem_iff (full : FullLog hashing log) {entry : LogEntry Hash} :
    entry ∈ log ↔ ∃ i, ∃ bounded : i < log.length, log[i] = entry ∧
      entry.viewstamp.opnum = i + 1 := by
  constructor
  · intro inLog
    obtain ⟨i, bounded, rfl⟩ := List.getElem_of_mem inLog
    exact ⟨i, bounded, rfl, full.opnum_getElem i bounded⟩
  · rintro ⟨i, bounded, rfl, _⟩
    exact List.getElem_mem bounded

/-- Entries of two logs at one opnum with one hash are of the same request. -/
theorem reqid_of_hash (full : FullLog hashing log) (fullOther : FullLog hashing other)
    (collisionFree : hashing.CollisionFree) {entry entry' : LogEntry Hash} (inLog : entry ∈ log)
    (inOther : entry' ∈ other) (position : entry.viewstamp.opnum = entry'.viewstamp.opnum)
    (same : entry.hash = entry'.hash) : entry.request.reqid = entry'.request.reqid := by
  obtain ⟨i, bounded, rfl, left⟩ := full.mem_iff.mp inLog
  obtain ⟨j, bounded', rfl, right⟩ := fullOther.mem_iff.mp inOther
  obtain rfl : j = i := by omega
  exact (full.same_of_hash fullOther collisionFree bounded bounded' same).1

end FullLog

/-- The logs of the replicas: all end in one view, and a committed entry is also what any other
log has at its opnum. -/
structure ReplicaLogs (config : Configuration) (hashing : Hashing Hash)
    (logs : Nat → List (LogEntry Hash)) : Prop where
  full : ∀ idx < config.n, FullLog hashing (logs idx)
  lastView : ∃ view, ∀ idx < config.n,
    (logs idx).getLast?.map (·.viewstamp.view) = some view
  agreeCommitted : ∀ idx < config.n, ∀ idx' < config.n, ∀ entry ∈ logs idx,
    ∀ entry' ∈ logs idx', entry.state = .committed →
      entry'.viewstamp.opnum = entry.viewstamp.opnum → entry'.viewstamp = entry.viewstamp ∧
        entry'.request = entry.request ∧ entry'.hash = entry.hash

/-- Messages that carry the ends of the logs; all windows reach back to `maxStart` and agree
there. -/
structure Dumped (config : Configuration) (hashing : Hashing Hash)
    (logs : Nat → List (LogEntry Hash)) (maxStart : Nat)
    (dvcs : TreeMap Nat (DoViewChangeMessage Hash)) : Prop where
  quorum : config.quorumSize ≤ dvcs.size
  sender : ∀ (idx : Nat) msg, dvcs[idx]? = some msg → idx < config.n
  wellFormed : ∀ (idx : Nat) msg, dvcs[idx]? = some msg → msg.WellFormed hashing
  window : ∀ (idx : Nat) msg, dvcs[idx]? = some msg → msg.entries <:+ logs idx
  start : ∃ hash, ∀ (idx : Nat) msg, dvcs[idx]? = some msg →
    ∃ entry ∈ msg.entries, entry.viewstamp.opnum = maxStart ∧ entry.hash = hash

/-- A fast quorum of the logs holds the hash at the opnum. -/
structure FastQuorum (config : Configuration) (logs : Nat → List (LogEntry Hash)) (opnum : Nat)
    (hash : Hash) (replicas : Finset Nat) : Prop where
  members : replicas ⊆ Finset.range config.n
  large : config.fastQuorumSize ≤ replicas.card
  hold : ∀ idx ∈ replicas, ∃ entry ∈ logs idx, entry.viewstamp.opnum = opnum ∧ entry.hash = hash

variable {config : Configuration} {hashing : Hashing Hash} {logs : Nat → List (LogEntry Hash)}
  {maxStart lastSpeculative opnum : Nat} {dvcs : TreeMap Nat (DoViewChangeMessage Hash)}
  {hash : Hash} {replicas : Finset Nat}

namespace Dumped

/-- A message holds whatever its sender's log has from `maxStart` on. -/
theorem entryAt (dumped : Dumped config hashing logs maxStart dvcs)
    (replicaLogs : ReplicaLogs config hashing logs) {idx : Nat}
    {msg : DoViewChangeMessage Hash} (sent : dvcs[idx]? = some msg) {entry : LogEntry Hash}
    (inLog : entry ∈ logs idx) (low : maxStart ≤ entry.viewstamp.opnum) :
    msg.entryAt entry.viewstamp.opnum = some entry := by
  have full := replicaLogs.full idx (dumped.sender idx msg sent)
  obtain ⟨before, split⟩ := dumped.window idx msg sent
  obtain ⟨hash, starts⟩ := dumped.start
  obtain ⟨start, inWindow, position, _⟩ := starts idx msg sent
  obtain ⟨j, boundedStart, rfl⟩ := List.getElem_of_mem inWindow
  obtain ⟨i, bounded, rfl, entryPosition⟩ := full.mem_iff.mp inLog
  -- the window begins no later than `maxStart`, so the entry is not before it
  have startBound : before.length + j < (logs idx).length := by
    rw [← split, List.length_append]
    omega
  have startPosition := full.opnum_getElem (before.length + j) startBound
  have sameStart : (logs idx)[before.length + j] = msg.entries[j] := by
    simp only [← split]
    rw [List.getElem_append_right (Nat.le_add_right _ _)]
    simp
  rw [sameStart, position] at startPosition
  have inside : (logs idx)[i] ∈ msg.entries := by
    have found : (logs idx)[i]? = msg.entries[i - before.length]? := by
      rw [← split]
      exact List.getElem?_append_right (by omega)
    rw [List.getElem?_eq_getElem bounded] at found
    exact List.mem_of_getElem? found.symm
  exact (dumped.wellFormed idx msg sent).entryAt_of_mem inside

/-- What a message holds is in its sender's log. -/
theorem mem_log (dumped : Dumped config hashing logs maxStart dvcs) {idx : Nat}
    {msg : DoViewChangeMessage Hash} (sent : dvcs[idx]? = some msg) {entry : LogEntry Hash}
    (inWindow : entry ∈ msg.entries) : entry ∈ logs idx :=
  (dumped.window idx msg sent).subset inWindow

/-- The merge is meant for such messages. -/
theorem mergeable (dumped : Dumped config hashing logs maxStart dvcs)
    (replicaLogs : ReplicaLogs config hashing logs) (reached : maxStart ≤ lastSpeculative) :
    Mergeable config hashing lastSpeculative maxStart dvcs where
  quorum := dumped.quorum
  start := reached
  wellFormed msg inDvcs := by
    obtain ⟨idx, sent⟩ := mem_messages.mp inDvcs
    exact dumped.wellFormed idx msg sent
  reachesStart msg inDvcs := by
    obtain ⟨idx, sent⟩ := mem_messages.mp inDvcs
    obtain ⟨hash, starts⟩ := dumped.start
    obtain ⟨entry, inWindow, position, _⟩ := starts idx msg sent
    have positive := (dumped.wellFormed idx msg sent).positive entry inWindow
    exact .inr ⟨entry, inWindow, by omega⟩
  agreeStart msg inDvcs other inDvcs' entry inWindow entry' inWindow' position position' := by
    obtain ⟨hash, starts⟩ := dumped.start
    have same : ∀ msg ∈ messages dvcs, ∀ entry ∈ msg.entries,
        entry.viewstamp.opnum = maxStart → entry.hash = hash := by
      intro msg inDvcs entry inWindow position
      obtain ⟨idx, sent⟩ := mem_messages.mp inDvcs
      obtain ⟨start, startIn, startPosition, startHash⟩ := starts idx msg sent
      have wellFormed := dumped.wellFormed idx msg sent
      have found := wellFormed.entryAt_of_mem inWindow
      rw [position, ← startPosition, wellFormed.entryAt_of_mem startIn] at found
      rw [← Option.some.inj found, startHash]
    rw [same msg inDvcs entry inWindow position, same other inDvcs' entry' inWindow' position']
  agreeCommitted msg inDvcs other inDvcs' entry inWindow entry' inWindow' := by
    obtain ⟨idx, sent⟩ := mem_messages.mp inDvcs
    obtain ⟨idx', sent'⟩ := mem_messages.mp inDvcs'
    exact replicaLogs.agreeCommitted idx (dumped.sender idx msg sent) idx'
      (dumped.sender idx' other sent') entry (dumped.mem_log sent inWindow) entry'
      (dumped.mem_log sent' inWindow')

/-- Every message is a latest one. -/
theorem latest_eq (dumped : Dumped config hashing logs maxStart dvcs)
    (replicaLogs : ReplicaLogs config hashing logs) :
    latestViewMessages (messages dvcs) = messages dvcs := by
  obtain ⟨view, lastView⟩ := replicaLogs.lastView
  have same : ∀ msg ∈ messages dvcs, msg.lastnormalview = view := by
    intro msg inDvcs
    obtain ⟨idx, sent⟩ := mem_messages.mp inDvcs
    obtain ⟨before, split⟩ := dumped.window idx msg sent
    obtain ⟨hash, starts⟩ := dumped.start
    obtain ⟨entry, inWindow, _⟩ := starts idx msg sent
    have last := lastView idx (dumped.sender idx msg sent)
    rw [← split, List.getLast?_append_of_ne_nil _ (List.ne_nil_of_mem inWindow)] at last
    rw [(dumped.wellFormed idx msg sent).lastView, last]
    rfl
  exact latestViewMessages_of_same same

/-- The senders are replicas of the group. -/
theorem senders_subset (dumped : Dumped config hashing logs maxStart dvcs) :
    senders dvcs ⊆ Finset.range config.n := by
  intro idx sender
  obtain ⟨msg, sent⟩ := mem_senders.mp sender
  exact Finset.mem_range.mpr (dumped.sender idx msg sent)

end Dumped

namespace FastQuorum

/-- All logs of the quorum are the same up to its opnum. -/
theorem same (fast : FastQuorum config logs opnum hash replicas)
    (replicaLogs : ReplicaLogs config hashing logs) (collisionFree : hashing.CollisionFree)
    {idx idx' : Nat} (member : idx ∈ replicas) (member' : idx' ∈ replicas)
    {entry : LogEntry Hash} (inLog : entry ∈ logs idx) (below : entry.viewstamp.opnum ≤ opnum) :
    ∃ entry' ∈ logs idx', entry'.viewstamp.opnum = entry.viewstamp.opnum ∧
      entry'.hash = entry.hash ∧ entry'.request.reqid = entry.request.reqid := by
  have full := replicaLogs.full idx (Finset.mem_range.mp (fast.members member))
  have full' := replicaLogs.full idx' (Finset.mem_range.mp (fast.members member'))
  obtain ⟨top, topIn, topPosition, topHash⟩ := fast.hold idx member
  obtain ⟨top', topIn', topPosition', topHash'⟩ := fast.hold idx' member'
  obtain ⟨k, bounded, rfl, position⟩ := full.mem_iff.mp topIn
  obtain ⟨k', bounded', rfl, position'⟩ := full'.mem_iff.mp topIn'
  obtain ⟨i, boundedEntry, rfl, entryPosition⟩ := full.mem_iff.mp inLog
  obtain rfl : k' = k := by omega
  obtain ⟨sameHash, sameRequest⟩ := full'.same_below full collisionFree bounded' bounded
    (topHash'.trans topHash.symm) (show i ≤ k' by omega)
  exact ⟨(logs idx')[i], List.getElem_mem _, by rw [full'.opnum_getElem, entryPosition],
    sameHash, sameRequest⟩


variable {mostCommitted : DoViewChangeMessage Hash} {idx : Nat} {entry : LogEntry Hash}

/-- The opnums at which every entry of a log of the quorum can be found. -/
theorem exists_entry (fast : FastQuorum config logs opnum hash replicas)
    (replicaLogs : ReplicaLogs config hashing logs) (member : idx ∈ replicas) {position : Nat}
    (positive : 0 < position) (below : position ≤ opnum) :
    ∃ entry ∈ logs idx, entry.viewstamp.opnum = position := by
  have full := replicaLogs.full idx (Finset.mem_range.mp (fast.members member))
  obtain ⟨top, topIn, topPosition, _⟩ := fast.hold idx member
  obtain ⟨k, bounded, rfl, kPosition⟩ := full.mem_iff.mp topIn
  have inside : position - 1 < (logs idx).length := by omega
  refine ⟨(logs idx)[position - 1], List.getElem_mem inside, ?_⟩
  rw [full.opnum_getElem _ inside]
  omega

/-- An entry of the quorum's logs that some latest log has committed is in the committed
stretch. -/
theorem mem_stretch (fast : FastQuorum config logs opnum hash replicas)
    (replicaLogs : ReplicaLogs config hashing logs)
    (dumped : Dumped config hashing logs maxStart dvcs)
    (mergeable : Mergeable config hashing lastSpeculative maxStart dvcs)
    (inDvcs : mostCommitted ∈ messages dvcs) (member : idx ∈ replicas) (inLog : entry ∈ logs idx)
    (positive : 0 < entry.viewstamp.opnum) (low : maxStart ≤ entry.viewstamp.opnum)
    (committed : entry.viewstamp.opnum ≤ mostCommitted.lastcommitted) :
    ∃ copied ∈ stretch maxStart mostCommitted.lastcommitted mostCommitted.entries,
      copied.viewstamp = entry.viewstamp ∧ copied.request = entry.request ∧
        copied.hash = entry.hash := by
  have wellFormed := mergeable.wellFormed mostCommitted inDvcs
  obtain ⟨idx', sent⟩ := mem_messages.mp inDvcs
  obtain ⟨copied, found⟩ :=
    mergeable.exists_entryAt inDvcs positive low (committed.trans wellFormed.lastCommitted)
  obtain ⟨inWindow, position⟩ := DoViewChangeMessage.entryAt_some found
  obtain ⟨viewstamp, request, same⟩ := replicaLogs.agreeCommitted idx'
    (dumped.sender idx' mostCommitted sent) idx (Finset.mem_range.mp (fast.members member)) copied
    (dumped.mem_log sent inWindow) entry inLog ((wellFormed.state_iff found).mpr committed)
    position.symm
  refine ⟨copied, ?_, viewstamp.symm, request.symm, same.symm⟩
  exact (mergeable.mem_committed inDvcs).mpr ⟨position ▸ found, by omega, by omega⟩

end FastQuorum

/-- In a list whose opnums count up from its first one, every entry is at its own opnum. -/
theorem getElem?_of_consecutive {list : List (LogEntry Hash)} {first : Nat}
    (consecutive : list.IsChain fun entry next =>
      next.viewstamp.opnum = entry.viewstamp.opnum + 1)
    (start : ∀ entry ∈ list.head?, entry.viewstamp.opnum = first) {entry : LogEntry Hash}
    (inList : entry ∈ list) : list[entry.viewstamp.opnum - first]? = some entry := by
  have position : ∀ i (bounded : i < list.length), (list[i]).viewstamp.opnum = first + i := by
    intro i bounded
    induction i with
    | zero => exact start _ (by simp [List.head?_eq_getElem?, bounded])
    | succ i inductionHypothesis =>
        rw [List.isChain_iff_getElem.mp consecutive i bounded, inductionHypothesis (by omega)]
        omega
  obtain ⟨i, bounded, rfl⟩ := List.getElem_of_mem inList
  rw [position i bounded, Nat.add_sub_cancel_left, List.getElem?_eq_getElem bounded]

/-! ## Votes as sets of replicas -/

variable [LinearOrder Hash]

/-- The message holds the hash at the opnum. -/
def holdsHash (msg : DoViewChangeMessage Hash) (opnum : Nat) (hash : Hash) : Bool :=
  (msg.entryAt opnum).any fun entry => entry.hash = hash

/-- A vote holds a hash at an operation if its entry there has it. -/
theorem holdsHash_iff {msg : DoViewChangeMessage Hash} {opnum : Nat} {hash : Hash} :
    holdsHash msg opnum hash = true ↔
      ∃ entry, msg.entryAt opnum = some entry ∧ entry.hash = hash := by
  simp [holdsHash, Option.any_eq_true]

/-- The replicas whose messages hold the hash at the opnum. -/
def voters (dvcs : TreeMap Nat (DoViewChangeMessage Hash)) (opnum : Nat) (hash : Hash) :
    Finset Nat :=
  ((dvcs.toList.filter fun pair => holdsHash pair.2 opnum hash).map (·.1)).toFinset

/-- A voter is a sender whose vote holds the hash. -/
theorem mem_voters {dvcs : TreeMap Nat (DoViewChangeMessage Hash)} {opnum : Nat} {hash : Hash}
    {idx : Nat} : idx ∈ voters dvcs opnum hash ↔
      ∃ msg, dvcs[idx]? = some msg ∧ holdsHash msg opnum hash = true := by
  simp only [voters, List.mem_toFinset, List.mem_map, List.mem_filter, Prod.exists]
  constructor
  · rintro ⟨_, msg, ⟨listed, holds⟩, rfl⟩
    exact ⟨msg, TreeMap.mem_toList_iff_getElem?_eq_some.mp listed, holds⟩
  · rintro ⟨msg, found, holds⟩
    exact ⟨idx, msg, ⟨TreeMap.mem_toList_iff_getElem?_eq_some.mpr found, holds⟩, rfl⟩

/-- The count of the vote is the number of replicas that hold the hash. -/
theorem holders_entriesAt (dvcs : TreeMap Nat (DoViewChangeMessage Hash)) (opnum : Nat)
    (hash : Hash) :
    holders (entriesAt (messages dvcs) opnum) hash = (voters dvcs opnum hash).card := by
  have distinct : ((dvcs.toList.filter fun pair => holdsHash pair.2 opnum hash).map
      (·.1)).Nodup := (nodup_keys dvcs).sublist (List.filter_sublist.map _)
  rw [voters, List.toFinset_card_of_nodup distinct, List.length_map, ← List.countP_eq_length_filter,
    holders, entriesAt, messages, List.countP_filterMap, List.countP_map]
  congr 1
  funext pair
  cases found : pair.2.entryAt opnum <;> simp [holdsHash, found]

namespace FastQuorum

section Counting

variable {idx : Nat} {entry : LogEntry Hash}

/-- Members of the quorum that sent a message vote for the quorum's entry. -/
theorem senders_inter_subset (fast : FastQuorum config logs opnum hash replicas)
    (replicaLogs : ReplicaLogs config hashing logs) (collisionFree : hashing.CollisionFree)
    (dumped : Dumped config hashing logs maxStart dvcs) (member : idx ∈ replicas)
    (inLog : entry ∈ logs idx) (low : maxStart ≤ entry.viewstamp.opnum)
    (below : entry.viewstamp.opnum ≤ opnum) :
    senders dvcs ∩ replicas ⊆ voters dvcs entry.viewstamp.opnum entry.hash := by
  intro idx' inBoth
  obtain ⟨sender, member'⟩ := Finset.mem_inter.mp inBoth
  obtain ⟨msg, sent⟩ := mem_senders.mp sender
  obtain ⟨entry', inLog', position, sameHash, _⟩ :=
    fast.same replicaLogs collisionFree member member' inLog below
  have found := dumped.entryAt replicaLogs sent inLog' (by omega)
  rw [position] at found
  exact mem_voters.mpr ⟨msg, sent, holdsHash_iff.mpr ⟨entry', found, sameHash⟩⟩

/-- A member of the quorum votes for nothing else. -/
theorem disjoint_voters (fast : FastQuorum config logs opnum hash replicas)
    (replicaLogs : ReplicaLogs config hashing logs) (collisionFree : hashing.CollisionFree)
    (dumped : Dumped config hashing logs maxStart dvcs) (member : idx ∈ replicas)
    (inLog : entry ∈ logs idx) (low : maxStart ≤ entry.viewstamp.opnum)
    (below : entry.viewstamp.opnum ≤ opnum) {other : Hash} (different : other ≠ entry.hash) :
    Disjoint (voters dvcs entry.viewstamp.opnum other) replicas := by
  rw [Finset.disjoint_left]
  intro idx' votes member'
  obtain ⟨msg, sent, holds⟩ := mem_voters.mp votes
  obtain ⟨found', found, otherHash⟩ := holdsHash_iff.mp holds
  obtain ⟨entry', inLog', position, sameHash, _⟩ :=
    fast.same replicaLogs collisionFree member member' inLog below
  have own := dumped.entryAt replicaLogs sent inLog' (by omega)
  rw [position, found] at own
  apply different
  rw [← otherHash, Option.some.inj own, sameHash]

/-- The voters are replicas of the group. -/
theorem voters_subset (dumped : Dumped config hashing logs maxStart dvcs) {position : Nat}
    {other : Hash} : voters dvcs position other ⊆ Finset.range config.n := by
  intro idx votes
  obtain ⟨msg, sent, _⟩ := mem_voters.mp votes
  exact Finset.mem_range.mpr (dumped.sender idx msg sent)

/-- From `maxStart` to the opnum of the quorum, the vote is won by an entry with the hash that
the quorum's logs have there, and by nothing else. -/
theorem winner (fast : FastQuorum config logs opnum hash replicas) (balanced : config.Balanced)
    (replicaLogs : ReplicaLogs config hashing logs) (collisionFree : hashing.CollisionFree)
    (dumped : Dumped config hashing logs maxStart dvcs) (member : idx ∈ replicas)
    (inLog : entry ∈ logs idx) (low : maxStart ≤ entry.viewstamp.opnum)
    (below : entry.viewstamp.opnum ≤ opnum) :
    (∃ winner, Winner (messages dvcs) (matchingEntriesNeeded config (messages dvcs))
        entry.viewstamp.opnum winner) ∧
      ∀ winner, Winner (messages dvcs) (matchingEntriesNeeded config (messages dvcs))
        entry.viewstamp.opnum winner → winner.hash = entry.hash := by
  have balanced : config.n = 2 * config.f + 1 := balanced
  have large := fast.large
  have quorum := dumped.quorum
  rw [← card_senders] at quorum
  have needed : matchingEntriesNeeded config (messages dvcs) =
      config.fastQuorumSize - config.f := by
    have size : (messages dvcs).length = (senders dvcs).card := by
      rw [card_senders, messages, List.length_map, TreeMap.length_toList]
    simp only [matchingEntriesNeeded, Configuration.fastQuorumSize, Configuration.quorumSize]
      at size quorum ⊢
    omega
  -- the quorum's entry has enough votes
  have overlap := card_add_card_le dumped.senders_subset fast.members
  have votes := Finset.card_le_card
    (fast.senders_inter_subset replicaLogs collisionFree dumped member inLog low below)
  have enough : matchingEntriesNeeded config (messages dvcs) ≤
      holders (entriesAt (messages dvcs) entry.viewstamp.opnum) entry.hash := by
    rw [needed, holders_entriesAt]
    simp only [Configuration.fastQuorumSize, Configuration.quorumSize] at large quorum ⊢
    omega
  constructor
  · have positive : 0 < holders (entriesAt (messages dvcs) entry.viewstamp.opnum) entry.hash := by
      refine lt_of_lt_of_le ?_ enough
      simp only [needed, Configuration.fastQuorumSize]
      omega
    obtain ⟨voter, inList, same⟩ := List.countP_pos_iff.mp positive
    have same : voter.hash = entry.hash := by simpa using same
    exact exists_elected inList (same ▸ enough)
  · intro winner wins
    by_contra different
    -- any other hash is left to the replicas outside the quorum
    have apart := card_add_card_le_of_disjoint (voters_subset dumped) fast.members
      (fast.disjoint_voters replicaLogs collisionFree dumped member inLog low below different)
    have count := wins.enough
    rw [needed, holders_entriesAt] at count
    simp only [Configuration.fastQuorumSize] at large count
    omega

end Counting

end FastQuorum

/-! ## The output -/

namespace Assembled

variable {mostCommitted : DoViewChangeMessage Hash} {winners out : List (LogEntry Hash)}
  {newView : Nat}

/-- The opnum of a winner is the position that it won. -/
theorem winner_opnum
    (assembled : Assembled config hashing newView maxStart (latestViewMessages (messages dvcs))
      mostCommitted winners out) {i : Nat} (bounded : i < winners.length) :
    (winners[i]).viewstamp.opnum =
      max (mostCommitted.lastcommitted + 1) maxStart + i := by
  obtain ⟨msg, _, found⟩ := (assembled.won i bounded).entryAt
  rw [(DoViewChangeMessage.entryAt_some found).2, voteStart, assembled.most]

/-- Before the leftovers, opnums count up from `maxStart`. -/
theorem consecutive
    (assembled : Assembled config hashing newView maxStart (latestViewMessages (messages dvcs))
      mostCommitted winners out)
    (mergeable : Mergeable config hashing lastSpeculative maxStart dvcs)
    (positive : 0 < maxStart) :
    ((stretch maxStart mostCommitted.lastcommitted mostCommitted.entries ++
        winners.map announce).IsChain fun entry next =>
      next.viewstamp.opnum = entry.viewstamp.opnum + 1) ∧
    ∀ entry ∈ (stretch maxStart mostCommitted.lastcommitted mostCommitted.entries ++
        winners.map announce).head?, entry.viewstamp.opnum = maxStart := by
  have inDvcs := mem_messages_of_latest assembled.chosen
  have chain : (stretch maxStart mostCommitted.lastcommitted mostCommitted.entries).IsChain
      fun entry next => next.viewstamp.opnum = entry.viewstamp.opnum + 1 :=
    isChain_stretch ((mergeable.wellFormed _ inDvcs).chain.imp fun _ _ chained => chained.opnum)
  constructor
  · rw [List.isChain_append]
    refine ⟨chain, ?_, ?_⟩
    · rw [List.isChain_iff_getElem]
      intro i bounded
      have bounded : i + 1 < winners.length := by simpa using bounded
      simp only [List.getElem_map, announce]
      rw [assembled.winner_opnum bounded, assembled.winner_opnum (by omega)]
      omega
    · intro last isLast next isFirst
      rcases mergeable.getLast_committed inDvcs with ⟨entry, isEntry, position, _, low⟩ | empty
      · obtain rfl := Option.some.inj (isEntry.symm.trans isLast)
        cases winners with
        | nil => cases isFirst
        | cons winner rest =>
            obtain rfl : announce winner = next := by simpa using isFirst
            have first := assembled.winner_opnum (show 0 < (winner :: rest).length by simp)
            simp only [List.getElem_cons_zero] at first
            simp only [announce]
            omega
      · rw [empty.1] at isLast
        cases isLast
  · intro entry isFirst
    rcases mergeable.getLast_committed inDvcs with ⟨last, isLast, _, _, low⟩ | ⟨empty, none⟩
    · -- the stretch contains the entry at `maxStart`, so it starts there
      obtain ⟨start, found⟩ := mergeable.exists_entryAt inDvcs positive le_rfl
        (low.trans (mergeable.wellFormed _ inDvcs).lastCommitted)
      have position := (DoViewChangeMessage.entryAt_some found).2
      have startIn : start ∈ stretch maxStart mostCommitted.lastcommitted mostCommitted.entries :=
        (mergeable.mem_committed inDvcs).mpr ⟨position ▸ found, by omega, by omega⟩
      have sorted : (stretch maxStart mostCommitted.lastcommitted mostCommitted.entries).Pairwise
          (·.viewstamp.opnum < ·.viewstamp.opnum) :=
        (mergeable.wellFormed _ inDvcs).sorted.sublist
          ((List.takeWhile_sublist _).trans (List.dropWhile_sublist _))
      cases split : stretch maxStart mostCommitted.lastcommitted mostCommitted.entries with
      | nil =>
          rw [split] at startIn
          cases startIn
      | cons head rest =>
          rw [split] at isFirst sorted
          obtain rfl : head = entry := by simpa using isFirst
          have headIn : head ∈ stretch maxStart mostCommitted.lastcommitted
              mostCommitted.entries := by
            rw [split]
            exact List.mem_cons_self
          obtain ⟨_, headLow, _⟩ := (mergeable.mem_committed inDvcs).mp headIn
          rw [split] at startIn
          rcases List.mem_cons.mp startIn with rfl | later
          · exact position
          · have := (List.pairwise_cons.mp sorted).1 start later
            omega
    · rw [empty, List.nil_append] at isFirst
      cases winners with
      | nil => cases isFirst
      | cons winner rest =>
          obtain rfl : announce winner = entry := by simpa using isFirst
          have first := assembled.winner_opnum (show 0 < (winner :: rest).length by simp)
          simp only [List.getElem_cons_zero] at first
          simp only [announce]
          omega

end Assembled

namespace FastQuorum

variable {mostCommitted : DoViewChangeMessage Hash} {winners out : List (LogEntry Hash)}
  {newView idx : Nat} {entry : LogEntry Hash}

/-- An entry of the quorum's logs past the committed stretch is elected. -/
theorem mem_winners (fast : FastQuorum config logs opnum hash replicas)
    (balanced : config.Balanced) (replicaLogs : ReplicaLogs config hashing logs)
    (collisionFree : hashing.CollisionFree) (dumped : Dumped config hashing logs maxStart dvcs)
    (assembled : Assembled config hashing newView maxStart (messages dvcs) mostCommitted winners
      out)
    (member : idx ∈ replicas) (inLog : entry ∈ logs idx)
    (start : voteStart maxStart (messages dvcs) ≤ entry.viewstamp.opnum)
    (below : entry.viewstamp.opnum ≤ opnum) :
    ∃ winner ∈ winners, winner.hash = entry.hash ∧
      Winner (messages dvcs) (matchingEntriesNeeded config (messages dvcs))
        entry.viewstamp.opnum winner := by
  unfold voteStart at start
  have inside : entry.viewstamp.opnum - voteStart maxStart (messages dvcs) < winners.length := by
    -- otherwise the vote stopped at a position of the quorum's logs, which has a winner
    by_contra outside
    obtain ⟨next, nextIn, position⟩ := fast.exists_entry replicaLogs member
      (show 0 < voteStart maxStart (messages dvcs) + winners.length by unfold voteStart; omega)
      (by unfold voteStart at outside ⊢; omega)
    obtain ⟨⟨winner, wins⟩, _⟩ := fast.winner balanced replicaLogs collisionFree dumped member
      nextIn (by rw [position]; unfold voteStart; omega)
      (by rw [position]; unfold voteStart at outside ⊢; omega)
    rw [position] at wins
    exact assembled.stopped winner wins
  have wins := assembled.won _ inside
  rw [Nat.add_sub_cancel' (by unfold voteStart; omega)] at wins
  obtain ⟨_, only⟩ := fast.winner balanced replicaLogs collisionFree dumped member inLog
    (by omega) below
  exact ⟨_, List.getElem_mem inside, only _ wins, wins⟩

end FastQuorum

/-- What a fast quorum of logs that end in one view has at an opnum, and everything before it
from `maxStart` on, is what the merge of any quorum of these logs outputs there. -/
theorem mergeLogs_keeps_fastQuorum (config : Configuration) (balanced : config.Balanced)
    (hashing : Hashing Hash) (collisionFree : hashing.CollisionFree)
    (logs : Nat → List (LogEntry Hash)) (replicaLogs : ReplicaLogs config hashing logs)
    (opnum : Nat) (hash : Hash) (replicas : Finset Nat)
    (fast : FastQuorum config logs opnum hash replicas) (lastSpeculative newView maxStart : Nat)
    (reached : maxStart ≤ lastSpeculative)
    (dvcs : TreeMap Nat (DoViewChangeMessage Hash))
    (dumped : Dumped config hashing logs maxStart dvcs) :
    ∃ out, mergeLogs config hashing lastSpeculative newView maxStart dvcs = some out ∧
      ∀ idx ∈ replicas, ∀ entry ∈ logs idx, maxStart ≤ entry.viewstamp.opnum →
        entry.viewstamp.opnum ≤ opnum →
          ∃ output, out[entry.viewstamp.opnum - maxStart]? = some output ∧
            output.viewstamp.opnum = entry.viewstamp.opnum ∧ output.hash = entry.hash ∧
            output.request.reqid = entry.request.reqid ∧
            ∃ idx' < config.n, ∃ original ∈ logs idx', original.viewstamp = output.viewstamp ∧
              original.request = output.request ∧ original.hash = output.hash := by
  have mergeable := dumped.mergeable replicaLogs reached
  have latest := dumped.latest_eq replicaLogs
  obtain ⟨mostCommitted, winners, out, merged, assembled⟩ := mergeable.assembled newView
  refine ⟨out, merged, fun idx member entry inLog lowEntry below => ?_⟩
  have inDvcs := mem_messages_of_latest assembled.chosen
  obtain ⟨chosen, sent⟩ := mem_messages.mp inDvcs
  have positive : 0 < maxStart := by
    obtain ⟨_, starts⟩ := dumped.start
    obtain ⟨start, inWindow, position, _⟩ := starts chosen mostCommitted sent
    exact position ▸ (mergeable.wellFormed _ inDvcs).positive start inWindow
  obtain ⟨consecutive, first⟩ := assembled.consecutive mergeable positive
  obtain ⟨tail, grown, _⟩ := assembled.appended.grown
  rw [← assembled.most] at grown
  -- what is in the output before the leftovers is at its own opnum
  have placed : ∀ output ∈ stretch maxStart mostCommitted.lastcommitted mostCommitted.entries ++
      winners.map announce, out[output.viewstamp.opnum - maxStart]? = some output := by
    intro output inOut
    have found := getElem?_of_consecutive consecutive first inOut
    obtain ⟨bounded, _⟩ := List.getElem?_eq_some_iff.mp found
    rw [grown, List.getElem?_append_left bounded, found]
  by_cases committed : entry.viewstamp.opnum ≤ mostCommitted.lastcommitted
  · obtain ⟨copied, inStretch, viewstamp, request, same⟩ := fast.mem_stretch replicaLogs dumped
      mergeable inDvcs member inLog (by omega) lowEntry committed
    have found := placed copied (List.mem_append_left _ inStretch)
    rw [viewstamp] at found
    exact ⟨copied, found, congrArg _ viewstamp, same, congrArg _ request, idx,
      Finset.mem_range.mp (fast.members member), entry, inLog, viewstamp.symm, request.symm,
      same.symm⟩
  · have start : voteStart maxStart (messages dvcs) ≤ entry.viewstamp.opnum := by
      have most := assembled.most
      rw [latest] at most
      unfold voteStart
      omega
    obtain ⟨winner, inWinners, same, wins⟩ := fast.mem_winners balanced replicaLogs collisionFree
      dumped (latest ▸ assembled) member inLog start below
    obtain ⟨msg, msgIn, holds⟩ := wins.entryAt
    obtain ⟨inWindow, position⟩ := DoViewChangeMessage.entryAt_some holds
    obtain ⟨idx', sent'⟩ := mem_messages.mp msgIn
    have bounded' := dumped.sender idx' msg sent'
    have inLog' := dumped.mem_log sent' inWindow
    have found := placed (announce winner)
      (List.mem_append_right _ (List.mem_map.mpr ⟨winner, inWinners, rfl⟩))
    have request := (replicaLogs.full idx' bounded').reqid_of_hash
      (replicaLogs.full idx (Finset.mem_range.mp (fast.members member))) collisionFree inLog'
      inLog position same
    refine ⟨announce winner, ?_, position, same, request, idx', bounded', winner, inLog', rfl,
      rfl, rfl⟩
    rw [← position]
    exact found

/-- The logs of five replicas: the first four end alike, the last one diverges. -/
def fourOfFive (idx : Nat) : List (LogEntry (List Nat)) :=
  if idx < 4 then logOf [] 1 [5, 1, 9] else logOf [] 1 [5, 2]

/-- The messages of the last three of these replicas. -/
def lastThree : TreeMap Nat (DoViewChangeMessage (List Nat)) :=
  .ofList [(2, messageOf 2 [5, 1, 9]), (3, messageOf 3 [5, 1, 9]), (4, messageOf 4 [5, 2])]

set_option maxRecDepth 20000 in
/-- Three of the five replicas: opnum 3 of the four matching logs is kept. -/
theorem mergeLogs_keeps_fourOfFive :
    ∃ out, mergeLogs ⟨5, 2⟩ spelling 3 1 1 lastThree = some out ∧
      ∃ output, out[2]? = some output ∧ output.hash = [9, 1, 1, 1, 5, 1] := by
  have full : ∀ idx < 5, FullLog spelling (fourOfFive idx) := by
    intro idx bounded
    exact ⟨by revert idx; decide, by revert idx; decide⟩
  have agree : ∀ idx < 5, ∀ idx' < 5, ∀ entry ∈ fourOfFive idx, ∀ entry' ∈ fourOfFive idx',
      entry.state = .committed → entry'.viewstamp.opnum = entry.viewstamp.opnum →
        entry' = entry := by decide
  have replicaLogs : ReplicaLogs ⟨5, 2⟩ spelling fourOfFive := by
    refine ⟨full, ⟨0, by decide⟩, ?_⟩
    intro idx bounded idx' bounded' entry inLog entry' inLog' committed position
    rw [agree idx bounded idx' bounded' entry inLog entry' inLog' committed position]
    exact ⟨rfl, rfl, rfl⟩
  have sent : ∀ pair ∈ lastThree.toList, pair.1 < 5 ∧ pair.2.WellFormed spelling ∧
      pair.2.entries <:+ fourOfFive pair.1 ∧
      ∃ entry ∈ pair.2.entries, entry.viewstamp.opnum = 1 ∧ entry.hash = [5, 1] := by decide
  have sent (idx : Nat) (msg : DoViewChangeMessage (List Nat)) (found : lastThree[idx]? = some msg) :=
    sent (idx, msg) (TreeMap.mem_toList_iff_getElem?_eq_some.mpr found)
  have dumped : Dumped ⟨5, 2⟩ spelling fourOfFive 1 lastThree :=
    ⟨by decide, fun idx msg found => (sent idx msg found).1,
      fun idx msg found => (sent idx msg found).2.1,
      fun idx msg found => (sent idx msg found).2.2.1,
      ⟨[5, 1], fun idx msg found => (sent idx msg found).2.2.2⟩⟩
  have fast : FastQuorum ⟨5, 2⟩ fourOfFive 3 [9, 1, 1, 1, 5, 1] (Finset.range 4) :=
    ⟨by decide, by decide, by decide⟩
  obtain ⟨out, merged, kept⟩ := mergeLogs_keeps_fastQuorum ⟨5, 2⟩ (by decide) spelling
    spelling_collisionFree fourOfFive replicaLogs 3 _ (Finset.range 4) fast 3 1 1 (by decide)
    lastThree dumped
  obtain ⟨entry, inLog, position, hash⟩ := fast.hold 0 (by decide)
  obtain ⟨output, found, _, same, _⟩ := kept 0 (by decide) entry inLog (by omega) (by omega)
  rw [position] at found
  exact ⟨out, merged, output, found, same.trans hash⟩

end PaxosBus.Spec

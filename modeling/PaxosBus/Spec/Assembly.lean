import PaxosBus.Spec.Phases

/-!
# The assembled output

For messages whose windows all reach back to `maxStart` and which agree on every
committed position, the merge goes through: its output is the committed stretch
of one log, then one winner for each position voted on, then the leftovers.
-/

set_option autoImplicit false

namespace PaxosBus.Spec

open Std (TreeMap)
open PaxosBus.Common

variable {Hash : Type}

/-- The messages that a merge starting at `maxStart` is meant for: a quorum of well-formed
windows that contain `maxStart` (opnums start at one, and a window may be empty when its log
is), agree there, and agree on every committed position. -/
structure Mergeable (config : Configuration) (hashing : Hashing Hash)
    (lastSpeculative maxStart : Nat) (dvcs : TreeMap Nat (DoViewChangeMessage Hash)) :
    Prop where
  quorum : config.quorumSize ≤ dvcs.size
  start : maxStart ≤ lastSpeculative
  wellFormed : ∀ msg ∈ messages dvcs, msg.WellFormed hashing
  reachesStart : ∀ msg ∈ messages dvcs, msg.entries = [] ∨
    ∃ entry ∈ msg.entries, entry.viewstamp.opnum = max 1 maxStart
  agreeStart : ∀ msg ∈ messages dvcs, ∀ other ∈ messages dvcs, ∀ entry ∈ msg.entries,
    ∀ entry' ∈ other.entries, entry.viewstamp.opnum = maxStart →
      entry'.viewstamp.opnum = maxStart → entry'.hash = entry.hash
  agreeCommitted : ∀ msg ∈ messages dvcs, ∀ other ∈ messages dvcs, ∀ entry ∈ msg.entries,
    ∀ entry' ∈ other.entries, entry.state = .committed →
      entry'.viewstamp.opnum = entry.viewstamp.opnum → entry'.viewstamp = entry.viewstamp ∧
        entry'.request = entry.request ∧ entry'.hash = entry.hash

instance [DecidableEq Hash] (config : Configuration) (hashing : Hashing Hash)
    (lastSpeculative maxStart : Nat) (dvcs : TreeMap Nat (DoViewChangeMessage Hash)) :
    Decidable (Mergeable config hashing lastSpeculative maxStart dvcs) :=
  decidable_of_iff (config.quorumSize ≤ dvcs.size ∧ maxStart ≤ lastSpeculative ∧
      (∀ msg ∈ messages dvcs, msg.WellFormed hashing) ∧
      (∀ msg ∈ messages dvcs, msg.entries = [] ∨
        ∃ entry ∈ msg.entries, entry.viewstamp.opnum = max 1 maxStart) ∧
      (∀ msg ∈ messages dvcs, ∀ other ∈ messages dvcs, ∀ entry ∈ msg.entries,
        ∀ entry' ∈ other.entries, entry.viewstamp.opnum = maxStart →
          entry'.viewstamp.opnum = maxStart → entry'.hash = entry.hash) ∧
      ∀ msg ∈ messages dvcs, ∀ other ∈ messages dvcs, ∀ entry ∈ msg.entries,
        ∀ entry' ∈ other.entries, entry.state = .committed →
          entry'.viewstamp.opnum = entry.viewstamp.opnum → entry'.viewstamp = entry.viewstamp ∧
            entry'.request = entry.request ∧ entry'.hash = entry.hash)
    ⟨fun ⟨quorum, start, wellFormed, reachesStart, agreeStart, agreeCommitted⟩ =>
        ⟨quorum, start, wellFormed, reachesStart, agreeStart, agreeCommitted⟩,
      fun ⟨quorum, start, wellFormed, reachesStart, agreeStart, agreeCommitted⟩ =>
        ⟨quorum, start, wellFormed, reachesStart, agreeStart, agreeCommitted⟩⟩

/-- The highest committed opnum that the latest messages report. -/
def highestCommitted (latest : List (DoViewChangeMessage Hash)) : Nat :=
  latest.foldr (fun msg highest => max msg.lastcommitted highest) 0

theorem lastcommitted_le_highestCommitted {latest : List (DoViewChangeMessage Hash)}
    {msg : DoViewChangeMessage Hash} (inList : msg ∈ latest) :
    msg.lastcommitted ≤ highestCommitted latest := by
  induction latest with
  | nil => cases inList
  | cons head rest inductionHypothesis =>
      simp only [highestCommitted, List.foldr_cons]
      rcases List.mem_cons.mp inList with rfl | inRest
      · exact le_max_left _ _
      · exact (inductionHypothesis inRest).trans (le_max_right _ _)

theorem highestCommitted_le {latest : List (DoViewChangeMessage Hash)} {bound : Nat}
    (bounded : ∀ msg ∈ latest, msg.lastcommitted ≤ bound) : highestCommitted latest ≤ bound := by
  induction latest with
  | nil => exact Nat.zero_le _
  | cons head rest inductionHypothesis =>
      simp only [highestCommitted, List.foldr_cons]
      exact max_le (bounded head List.mem_cons_self)
        (inductionHypothesis fun msg inRest => bounded msg (List.mem_cons_of_mem _ inRest))

/-- The first position that is voted on. -/
def voteStart (maxStart : Nat) (latest : List (DoViewChangeMessage Hash)) : Nat :=
  max (highestCommitted latest + 1) maxStart

/-- The parts that the output is put together from. -/
structure Assembled [LinearOrder Hash] (config : Configuration) (hashing : Hashing Hash)
    (newView maxStart : Nat) (latest : List (DoViewChangeMessage Hash))
    (mostCommitted : DoViewChangeMessage Hash) (winners out : List (LogEntry Hash)) : Prop where
  chosen : mostCommitted ∈ latest
  most : mostCommitted.lastcommitted = highestCommitted latest
  won : ∀ i (bounded : i < winners.length),
    Winner latest (matchingEntriesNeeded config latest) (voteStart maxStart latest + i) winners[i]
  stopped : ∀ winner, ¬ Winner latest (matchingEntriesNeeded config latest)
    (voteStart maxStart latest + winners.length) winner
  appended : Appended hashing newView
    (stretch maxStart (highestCommitted latest) mostCommitted.entries ++ winners.map announce) out
  covered : ∀ msg ∈ latest, ∀ opnum entry, msg.entryAt opnum = some entry →
    msg.lastcommitted < opnum → maxStart ≤ opnum →
      ∃ output ∈ out, output.request.reqid = entry.request.reqid

/-- A latest message is one of the messages. -/
theorem mem_messages_of_latest {dvcs : TreeMap Nat (DoViewChangeMessage Hash)}
    {msg : DoViewChangeMessage Hash} (inLatest : msg ∈ latestViewMessages (messages dvcs)) :
    msg ∈ messages dvcs :=
  (mem_latestViewMessages.mp inLatest).1

namespace DoViewChangeMessage

variable {hashing : Hashing Hash} {msg : DoViewChangeMessage Hash}

/-- A window is in opnum order. -/
theorem WellFormed.sorted (wellFormed : msg.WellFormed hashing) :
    msg.entries.Pairwise (·.viewstamp.opnum < ·.viewstamp.opnum) := by
  rw [List.pairwise_iff_getElem]
  intro i j boundedI boundedJ less
  rw [wellFormed.opnum_getElem i boundedI, wellFormed.opnum_getElem j boundedJ]
  omega

/-- A log that reaches an opnum above zero is not empty. -/
theorem WellFormed.ne_nil (wellFormed : msg.WellFormed hashing)
    (positive : 0 < msg.lastspeculative) : msg.entries ≠ [] := by
  intro empty
  have last := wellFormed.last
  rw [empty] at last
  simp only [List.getLast?_nil, Option.map_none, Option.getD_none] at last
  omega

end DoViewChangeMessage

namespace Mergeable

variable {config : Configuration} {hashing : Hashing Hash}
  {lastSpeculative maxStart : Nat} {dvcs : TreeMap Nat (DoViewChangeMessage Hash)}

/-- Every position that a log of the merge reaches, from `maxStart` on, is in its window. -/
theorem exists_entryAt (mergeable : Mergeable config hashing lastSpeculative maxStart dvcs)
    {msg : DoViewChangeMessage Hash} (inDvcs : msg ∈ messages dvcs) {opnum : Nat}
    (positive : 0 < opnum) (low : maxStart ≤ opnum) (high : opnum ≤ msg.lastspeculative) :
    ∃ entry, msg.entryAt opnum = some entry := by
  have wellFormed := mergeable.wellFormed msg inDvcs
  rcases mergeable.reachesStart msg inDvcs with empty | ⟨first, found, position⟩
  · exact absurd empty (wellFormed.ne_nil (by omega))
  · exact wellFormed.exists_entryAt_above (wellFormed.entryAt_of_mem found) (by omega) high

/-- The committed stretch of a latest log with the most committed entries: what it contains,
and where it ends. -/
theorem mem_committed (mergeable : Mergeable config hashing lastSpeculative maxStart dvcs)
    {msg : DoViewChangeMessage Hash} (inDvcs : msg ∈ messages dvcs) {entry : LogEntry Hash} :
    entry ∈ stretch maxStart msg.lastcommitted msg.entries ↔
      msg.entryAt entry.viewstamp.opnum = some entry ∧ maxStart ≤ entry.viewstamp.opnum ∧
        entry.viewstamp.opnum ≤ msg.lastcommitted := by
  have wellFormed := mergeable.wellFormed msg inDvcs
  rw [mem_stretch wellFormed.sorted]
  constructor
  · rintro ⟨inLog, range⟩
    exact ⟨wellFormed.entryAt_of_mem inLog, range⟩
  · rintro ⟨found, range⟩
    exact ⟨(DoViewChangeMessage.entryAt_some found).1, range⟩

/-- The last entry of the committed stretch, if there is one, is at `lastcommitted`. -/
theorem getLast_committed
    (mergeable : Mergeable config hashing lastSpeculative maxStart dvcs)
    {msg : DoViewChangeMessage Hash} (inDvcs : msg ∈ messages dvcs) :
    (∃ entry, (stretch maxStart msg.lastcommitted msg.entries).getLast? = some entry ∧
        entry.viewstamp.opnum = msg.lastcommitted ∧ 0 < msg.lastcommitted ∧
        maxStart ≤ msg.lastcommitted) ∨
      stretch maxStart msg.lastcommitted msg.entries = [] ∧
        (msg.lastcommitted = 0 ∨ msg.lastcommitted < maxStart) := by
  have wellFormed := mergeable.wellFormed msg inDvcs
  cases last : (stretch maxStart msg.lastcommitted msg.entries).getLast? with
  | none =>
      rw [List.getLast?_eq_none_iff] at last
      refine .inr ⟨last, ?_⟩
      by_contra reaches
      obtain ⟨entry, found⟩ := mergeable.exists_entryAt inDvcs
        (show 0 < msg.lastcommitted by omega) (by omega) wellFormed.lastCommitted
      have position := (DoViewChangeMessage.entryAt_some found).2
      have inStretch : entry ∈ stretch maxStart msg.lastcommitted msg.entries :=
        (mergeable.mem_committed inDvcs).mpr ⟨position ▸ found, by omega, by omega⟩
      rw [last] at inStretch
      cases inStretch
  | some entry =>
      have inStretch := List.mem_of_getLast? last
      obtain ⟨found, low, high⟩ := (mergeable.mem_committed inDvcs).mp inStretch
      have positive := wellFormed.positive entry (DoViewChangeMessage.entryAt_some found).1
      refine .inl ⟨entry, rfl, ?_, by omega, by omega⟩
      -- the entry at `lastcommitted` is in the stretch, and nothing comes after the last one
      obtain ⟨top, foundTop⟩ := mergeable.exists_entryAt inDvcs
        (show 0 < msg.lastcommitted by omega) (by omega) wellFormed.lastCommitted
      have position := (DoViewChangeMessage.entryAt_some foundTop).2
      have topIn : top ∈ stretch maxStart msg.lastcommitted msg.entries :=
        (mergeable.mem_committed inDvcs).mpr ⟨position ▸ foundTop, by omega, by omega⟩
      have sorted : (stretch maxStart msg.lastcommitted msg.entries).Pairwise
          (·.viewstamp.opnum < ·.viewstamp.opnum) :=
        wellFormed.sorted.sublist
          ((List.takeWhile_sublist _).trans (List.dropWhile_sublist _))
      obtain ⟨before, split⟩ := List.getLast?_eq_some_iff.mp last
      rw [split] at topIn sorted
      rcases List.mem_append.mp topIn with early | same
      · have := (List.pairwise_append.mp sorted).2.2 top early entry (by simp)
        omega
      · rw [← List.mem_singleton.mp same]
        exact position

/-- The ballots of every position from the first vote on are cast. -/
theorem ballots_latest
    (mergeable : Mergeable config hashing lastSpeculative maxStart dvcs) {opnum : Nat}
    (above : voteStart maxStart (latestViewMessages (messages dvcs)) ≤ opnum) :
    ballots (latestViewMessages (messages dvcs)) opnum =
      some (entriesAt (latestViewMessages (messages dvcs)) opnum) := by
  unfold voteStart at above
  apply ballots_eq
  · intro msg inLatest reaches
    exact mergeable.exists_entryAt (mem_messages_of_latest inLatest) (by omega) (by omega) reaches
  · intro msg inLatest beyond
    by_contra present
    obtain ⟨entry, found⟩ := Option.ne_none_iff_exists'.mp present
    have wellFormed := mergeable.wellFormed msg (mem_messages_of_latest inLatest)
    obtain ⟨_, _, bound⟩ := wellFormed.entryAt_bounds found
    exact beyond bound

/-- The vote starts one past the last committed entry that is output, or at `maxStart`. -/
theorem voteStart_eq (mergeable : Mergeable config hashing lastSpeculative maxStart dvcs)
    {msg : DoViewChangeMessage Hash} (inDvcs : msg ∈ messages dvcs)
    {latest : List (DoViewChangeMessage Hash)}
    (most : msg.lastcommitted = highestCommitted latest) {merged : Merged Hash}
    (out : merged.out = stretch maxStart msg.lastcommitted msg.entries) :
    max (merged.lastOpnum + 1) maxStart = voteStart maxStart latest := by
  unfold voteStart Merged.lastOpnum
  rw [out, ← most]
  rcases mergeable.getLast_committed inDvcs with ⟨entry, last, position, _⟩ | ⟨empty, low⟩
  · simp [last, position]
  · simp only [empty, List.getLast?_nil]
    omega

/-- The third phase finds all the entries that it looks at. -/
theorem leftover_spec (mergeable : Mergeable config hashing lastSpeculative maxStart dvcs)
    {msg : DoViewChangeMessage Hash} (inDvcs : msg ∈ messages dvcs) :
    ∃ entries, leftover maxStart msg = some entries ∧
      ∀ opnum entry, msg.entryAt opnum = some entry → msg.lastcommitted < opnum →
        maxStart ≤ opnum → entry ∈ entries := by
  unfold leftover
  dsimp only
  have present : ∀ opnum ∈ List.range' (max (msg.lastcommitted + 1) maxStart)
      (msg.lastspeculative + 1 - max (msg.lastcommitted + 1) maxStart),
      ∃ entry, msg.entryAt opnum = some entry := by
    intro opnum inRange
    rw [List.mem_range'_1] at inRange
    exact mergeable.exists_entryAt inDvcs (by omega) (by omega) (by omega)
  obtain ⟨entries, mapped, members⟩ := mapM_some_iff present
  refine ⟨entries, mapped, fun opnum entry found uncommitted low => ?_⟩
  obtain ⟨_, _, high⟩ := (mergeable.wellFormed msg inDvcs).entryAt_bounds found
  rw [members]
  exact ⟨opnum, List.mem_range'_1.mpr (by omega), found⟩

/-- The merge goes through and assembles its output from the three phases. -/
theorem assembled [LinearOrder Hash] (newView : Nat)
    (mergeable : Mergeable config hashing lastSpeculative maxStart dvcs) :
    ∃ mostCommitted winners out,
      mergeLogs config hashing lastSpeculative newView maxStart dvcs = some out ∧
        Assembled config hashing newView maxStart (latestViewMessages (messages dvcs)) mostCommitted
          winners out := by
  have nonempty : latestViewMessages (messages dvcs) ≠ [] := by
    apply latestViewMessages_ne_nil
    intro empty
    have counted : (messages dvcs).length = dvcs.size := by simp [messages]
    have quorum := mergeable.quorum
    rw [← counted, empty] at quorum
    simp [Configuration.quorumSize] at quorum
  obtain ⟨mostCommitted, chosen⟩ := Option.ne_none_iff_exists'.mp
    (mt List.argmax_eq_none.mp nonempty : List.argmax (·.lastcommitted) _ ≠ none)
  obtain ⟨furthest, reaching⟩ := Option.ne_none_iff_exists'.mp
    (mt List.argmax_eq_none.mp nonempty : List.argmax (·.lastspeculative) _ ≠ none)
  have inLatest : mostCommitted ∈ latestViewMessages (messages dvcs) := List.argmax_mem chosen
  have inDvcs := mem_messages_of_latest inLatest
  have wellFormed := mergeable.wellFormed mostCommitted inDvcs
  have most : mostCommitted.lastcommitted =
      highestCommitted (latestViewMessages (messages dvcs)) :=
    le_antisymm (lastcommitted_le_highestCommitted inLatest)
      (highestCommitted_le fun msg present => List.le_of_mem_argmax present chosen)
  obtain ⟨merged, taken, out⟩ := takeCommitted_spec maxStart wellFormed.sorted
    (fun entry inLog low => (wellFormed.states entry inLog).mpr low) Merged.empty
  have first := mergeable.voteStart_eq inDvcs most out
  obtain ⟨winners, merged', looped, out', won, bound, stopped⟩ := voteLoop_spec
    (matchingEntriesNeeded config (latestViewMessages (messages dvcs)))
    (furthest.lastspeculative + 1 - voteStart maxStart (latestViewMessages (messages dvcs)))
    (fun opnum above => mergeable.ballots_latest above) merged
  have found : ∀ msg ∈ latestViewMessages (messages dvcs),
      ∃ entries, leftover maxStart msg = some entries := by
    intro msg present
    obtain ⟨entries, complete, _⟩ := mergeable.leftover_spec (mem_messages_of_latest present)
    exact ⟨entries, complete⟩
  obtain ⟨entries, mapped, members⟩ := mapM_some_iff found
  refine ⟨mostCommitted, winners,
    (entries.flatten.foldl (appendUnseen hashing newView) merged').out, ?_,
    { chosen := inLatest, most, won, stopped := ?_, appended := ?_, covered := ?_ }⟩
  · simp only [mergeLogs]
    rw [if_pos ⟨mergeable.quorum, mergeable.start⟩, chosen, mapped]
    simp only [Option.bind_eq_bind, Option.bind_some, taken, first, reaching, looped]
    rfl
  · intro winner wins
    by_cases short : winners.length < furthest.lastspeculative + 1 -
        voteStart maxStart (latestViewMessages (messages dvcs))
    · exact stopped short winner wins
    · -- no log reaches the position after the last round
      obtain ⟨msg, present, entry⟩ := wins.entryAt
      obtain ⟨_, _, high⟩ :=
        (mergeable.wellFormed msg (mem_messages_of_latest present)).entryAt_bounds entry
      have := List.le_of_mem_argmax present reaching
      omega
  · have appended := appended_foldl hashing newView entries.flatten merged'
    rw [out', out, most] at appended
    exact appended
  · intro msg present opnum entry inLog uncommitted low
    obtain ⟨list, complete, contains⟩ := mergeable.leftover_spec (mem_messages_of_latest present)
    have inList := contains opnum entry inLog uncommitted low
    have listed : list ∈ entries := (members list).mpr ⟨msg, present, complete⟩
    exact seen_foldl hashing newView entries.flatten merged'
      (List.mem_flatten.mpr ⟨list, listed, inList⟩)

end Mergeable

end PaxosBus.Spec

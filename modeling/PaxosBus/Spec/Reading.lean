import PaxosBus.Spec.Assembly
import PaxosBus.Spec.Conduct

/-!
# The entries that a merge reads

A vote is a window of its sender's log. The merge reads a window at positions
that it computes without looking where the window begins; it stays inside as long
as no window begins above the first position that is asked for. Where the votes
are compared from the latest beginning on, this is so. Where longer logs have
been asked for, it is so of every vote but the leader's own, which is not sent
again.
-/

set_option autoImplicit false

namespace PaxosBus.Spec

open PaxosBus.Common PaxosBus.Library
open Std (TreeMap)

variable {Hash : Type}

/-! ## The votes of a replica -/

/-- Consecutive entries of a piece are chained. -/
theorem isChain_of_piece {hashing : Hashing Hash} {requests : List Request} {skipped : Nat}
    {entries : List (LogEntry Hash)} (piece : Piece hashing requests skipped entries) :
    entries.IsChain (Chained hashing) := by
  rw [List.isChain_iff_getElem]
  intro index inside
  have here := List.getElem?_eq_getElem (show index < entries.length by omega)
  have next := List.getElem?_eq_getElem inside
  have number := piece.numbered _ _ here
  have numberNext := piece.numbered _ _ next
  refine ⟨by omega, ?_⟩
  have request := piece.request next
  rw [piece.hashed _ _ here, piece.hashed _ _ next, List.take_add_one, Nat.add_assoc skipped index 1,
    request]
  exact hashing.chain_concat _ _

/-- A vote with the end of a log that is in order is well formed. -/
theorem doViewChange_wellFormed {setup : Setup Hash} {r : Replica Hash}
    {terms : Terms Hash} (sound : r.LogSound setup terms) {from_ : Nat} (early : from_ ≤ max 1 r.lastSpeculative) :
    (r.doViewChange setup from_).WellFormed setup.hashing := by
  have piece := sound.hashed.dump from_
  have length := sound.lastSpeculative
  have dumped : r.log.dump from_ = r.log.entries.drop (from_ - 1) := by
    unfold Log.dump
    rw [sound.hashed.start]
    congr 1
    omega
  have ends : (r.log.dump from_).getLast? = r.log.entries.getLast? := by
    rw [Log.length_requests] at length
    rw [dumped, List.getLast?_drop]
    split
    next all =>
        have empty : r.log.entries.length = 0 := by omega
        rw [List.length_eq_zero_iff.mp empty]
        rfl
    next => rfl
  have found : ∀ entry ∈ r.log.dump from_, ∃ index, r.log.entries[index]? = some entry ∧
      entry.viewstamp.opnum = index + 1 := by
    intro entry member
    obtain ⟨index, inside⟩ := List.mem_iff_getElem?.mp member
    have number := piece.numbered _ _ inside
    rw [dumped, List.getElem?_drop] at inside
    exact ⟨_, inside, by omega⟩
  refine ⟨isChain_of_piece piece, ?_, ?_, ?_, ?_, sound.lastCommitted⟩
  · intro entry member
    obtain ⟨index, -, number⟩ := found entry member
    omega
  · intro entry member
    obtain ⟨index, inLog, number⟩ := found entry member
    rw [sound.states index entry inLog, number]
    exact Nat.lt_iff_add_one_le
  · simp only [Replica.doViewChange, ends]
    cases last : r.log.entries.getLast? with
    | none =>
        have empty := List.getLast?_eq_none_iff.mp last
        rw [length, Log.length_requests, empty]
        rfl
    | some entry => exact length.trans (sound.hashed.piece.last last).1.symm
  · simp only [Replica.doViewChange, ends]
    unfold Log.lastViewstamp
    cases r.log.entries.getLast? <;> rfl

/-- What a vote carries has been asked for. -/
theorem asked_of_mem_dump {setup : Setup Hash} {terms : Terms Hash} {r : Replica Hash}
    (sound : r.LogSound setup terms) (from_ : Nat) :
    ∀ entry ∈ r.log.dump from_, terms.asked entry.request := by
  intro entry member
  have carried := List.mem_map_of_mem (f := LogEntry.request) member
  rw [(sound.hashed.dump from_).carries] at carried
  exact sound.asked _ (List.mem_of_mem_drop carried)

/-! ## The reads of a merge -/

/-- The reads of the vote are of logs that reach the position, from the first position on. -/
theorem of_mem_voteReads [LinearOrder Hash] {latest : List (DoViewChangeMessage Hash)}
    {needed rounds next opnum : Nat} {msg : DoViewChangeMessage Hash}
    (member : (msg, opnum) ∈ voteReads latest needed rounds next) :
    msg ∈ latest ∧ next ≤ opnum ∧ opnum ≤ msg.lastspeculative := by
  induction rounds generalizing next with
  | zero => nomatch member
  | succ rounds inductionHypothesis =>
      have here : ∀ pair ∈ (latest.filter (next ≤ ·.lastspeculative)).map fun msg => (msg, next),
          pair.1 ∈ latest ∧ pair.2 = next ∧ next ≤ pair.1.lastspeculative := by
        intro pair inReads
        obtain ⟨voter, inFilter, rfl⟩ := List.mem_map.mp inReads
        obtain ⟨inLatest, reaches⟩ := List.mem_filter.mp inFilter
        exact ⟨inLatest, rfl, of_decide_eq_true reaches⟩
      have first : (msg, opnum) ∈ (latest.filter (next ≤ ·.lastspeculative)).map
          (fun msg => (msg, next)) → msg ∈ latest ∧ next ≤ opnum ∧ opnum ≤ msg.lastspeculative := by
        intro inReads
        obtain ⟨inLatest, same, reaches⟩ := here _ inReads
        simp only at inLatest same reaches
        exact ⟨inLatest, by omega, by omega⟩
      simp only [voteReads] at member
      split at member
      · exact first member
      · split at member
        · exact first member
        · rcases List.mem_append.mp member with inReads | later
          · exact first inReads
          · obtain ⟨inLatest, low, high⟩ := inductionHypothesis later
            exact ⟨inLatest, by omega, high⟩

/-- The reads of the leftovers are of logs that reach the position, above what they have
committed. -/
theorem of_mem_leftoverReads {latest : List (DoViewChangeMessage Hash)} {maxStart opnum : Nat}
    {msg : DoViewChangeMessage Hash} (member : (msg, opnum) ∈ leftoverReads maxStart latest) :
    msg ∈ latest ∧ msg.lastcommitted < opnum ∧ maxStart ≤ opnum ∧
      opnum ≤ msg.lastspeculative := by
  unfold leftoverReads at member
  obtain ⟨voter, inLatest, inReads⟩ := List.mem_flatMap.mp member
  obtain ⟨position, inRange, same⟩ := List.mem_map.mp inReads
  obtain ⟨rfl, rfl⟩ := Prod.mk.inj same
  rw [List.mem_range'_1] at inRange
  exact ⟨inLatest, by omega, by omega, by omega⟩

/-- A read of the merge is of a vote of the latest normal view that reaches the position, at the
start of the merge or above: above the committed entries that were taken, or above what the vote's
own log has committed. -/
theorem of_mem_mergeReads [LinearOrder Hash] {config : Configuration}
    {lastSpeculative maxStart opnum : Nat} {dvcs : TreeMap Nat (DoViewChangeMessage Hash)}
    {msg : DoViewChangeMessage Hash}
    (member : (msg, opnum) ∈ mergeReads config lastSpeculative maxStart dvcs) :
    msg ∈ latestViewMessages (messages dvcs) ∧ maxStart ≤ opnum ∧ opnum ≤ msg.lastspeculative ∧
      ∃ mostCommitted merged,
        (latestViewMessages (messages dvcs)).argmax (·.lastcommitted) = some mostCommitted ∧
          takeCommitted maxStart mostCommitted.lastcommitted mostCommitted.entries .empty =
            some merged ∧
          (merged.lastOpnum < opnum ∨ msg.lastcommitted < opnum) := by
  unfold mergeReads at member
  split at member
  · simp only at member
    split at member
    next mostCommitted furthest most far =>
        split at member
        · nomatch member
        next merged taken =>
            rcases List.mem_append.mp member with voted | leftover
            · obtain ⟨inLatest, low, high⟩ := of_mem_voteReads voted
              exact ⟨inLatest, by omega, high, mostCommitted, merged, most, taken, .inl (by omega)⟩
            · obtain ⟨inLatest, above, low, high⟩ := of_mem_leftoverReads leftover
              exact ⟨inLatest, low, high, mostCommitted, merged, most, taken, .inr above⟩
    · nomatch member
  · nomatch member

section Found

variable {hashing : Hashing Hash} {msg : DoViewChangeMessage Hash}

/-- The first opnum of a window that is not empty. -/
theorem firstOpnumOf_eq {entries : List (LogEntry Hash)} (nonempty : 0 < entries.length) :
    firstOpnumOf entries = (entries[0]).viewstamp.opnum := by
  unfold firstOpnumOf
  rw [List.head?_eq_getElem?, List.getElem?_eq_getElem nonempty]
  rfl

/-- A read from the beginning of a window on is of an entry of the window. -/
theorem exists_entryAt_of_firstOpnumOf_le (wellFormed : msg.WellFormed hashing) {opnum : Nat}
    (positive : 0 < opnum) (high : opnum ≤ msg.lastspeculative)
    (low : msg.entries ≠ [] → firstOpnumOf msg.entries ≤ opnum) :
    ∃ entry, msg.entryAt opnum = some entry := by
  have nonempty := wellFormed.ne_nil (by omega)
  have some_ := List.length_pos_iff.mpr nonempty
  have first := low nonempty
  rw [firstOpnumOf_eq some_] at first
  exact wellFormed.exists_entryAt some_ first high

/-- In a list in opnum order nothing is above the last entry. -/
theorem le_lastOpnum {merged : Merged Hash} {entry : LogEntry Hash}
    (sorted : merged.out.Pairwise (·.viewstamp.opnum < ·.viewstamp.opnum))
    (member : entry ∈ merged.out) : entry.viewstamp.opnum ≤ merged.lastOpnum := by
  unfold Merged.lastOpnum
  cases ends : merged.out.getLast? with
  | none =>
      rw [List.getLast?_eq_none_iff.mp ends] at member
      nomatch member
  | some last =>
      obtain ⟨before, split⟩ := List.getLast?_eq_some_iff.mp ends
      rw [split] at member sorted
      rcases List.mem_append.mp member with early | same
      · exact Nat.le_of_lt ((List.pairwise_append.mp sorted).2.2 entry early last (by simp))
      · rw [List.mem_singleton.mp same]

/-- An early vote with the most committed entries has all of them taken. -/
theorem lastcommitted_le_lastOpnum (wellFormed : msg.WellFormed hashing) (early : msg.Early)
    {merged : Merged Hash}
    (taken : takeCommitted 0 msg.lastcommitted msg.entries .empty = some merged) :
    msg.lastcommitted ≤ merged.lastOpnum := by
  rcases Nat.eq_zero_or_pos msg.lastcommitted with none_ | some_
  · omega
  · have reaches := wellFormed.lastCommitted
    obtain ⟨entry, found⟩ := exists_entryAt_of_firstOpnumOf_le wellFormed some_ reaches
      (fun nonempty => by
        rcases early with empty | one | low
        · exact absurd empty nonempty
        · omega
        · exact low)
    obtain ⟨inLog, position⟩ := DoViewChangeMessage.entryAt_some found
    obtain ⟨merged', taken', out⟩ := takeCommitted_spec 0 wellFormed.sorted
      (fun entry member le => (wellFormed.states entry member).mpr le) Merged.empty
    obtain rfl : merged' = merged := Option.some.inj (taken'.symm.trans taken)
    have whole : merged'.out = stretch 0 msg.lastcommitted msg.entries := by
      rw [out]
      rfl
    have sorted : merged'.out.Pairwise (·.viewstamp.opnum < ·.viewstamp.opnum) := by
      rw [whole]
      exact wellFormed.sorted.sublist
        ((List.takeWhile_sublist _).trans (List.dropWhile_sublist _))
    have member : entry ∈ merged'.out := by
      rw [whole, mem_stretch wellFormed.sorted]
      exact ⟨inLog, Nat.zero_le _, Nat.le_of_eq position⟩
    exact position ▸ le_lastOpnum sorted member

end Found

section Merges

variable [LinearOrder Hash] {config : Configuration} {hashing : Hashing Hash}
  {lastSpeculative opnum : Nat} {dvcs : TreeMap Nat (DoViewChangeMessage Hash)}
  {msg : DoViewChangeMessage Hash}

/-- A merge from a position on where every vote has begun stays inside the windows. -/
theorem exists_entryAt_of_truncated {maxStart : Nat}
    (wellFormed : ∀ msg ∈ messages dvcs, msg.WellFormed hashing)
    (begun : ∀ msg ∈ messages dvcs, msg.entries ≠ [] → firstOpnumOf msg.entries ≤ maxStart)
    (member : (msg, opnum) ∈ mergeReads config lastSpeculative maxStart dvcs) :
    ∃ entry, msg.entryAt opnum = some entry := by
  obtain ⟨inLatest, low, high, -, merged, -, -, above⟩ := of_mem_mergeReads member
  have inDvcs := mem_messages_of_latest inLatest
  exact exists_entryAt_of_firstOpnumOf_le (wellFormed msg inDvcs) (by omega) high
    fun nonempty => (begun msg inDvcs nonempty).trans low

/-- A vote that can be merged with whole logs: it begins early enough, or right above what its log
has committed while the committed entries are taken from another vote. -/
def DoViewChangeMessage.Fits (latest : List (DoViewChangeMessage Hash))
    (msg : DoViewChangeMessage Hash) : Prop :=
  msg.Early ∨ firstOpnumOf msg.entries = msg.lastcommitted + 1 ∧
    latest.argmax (·.lastcommitted) ≠ some msg

/-- A merge of whole logs stays inside the windows of votes that fit. -/
theorem exists_entryAt_of_filled
    (wellFormed : ∀ msg ∈ messages dvcs, msg.WellFormed hashing)
    (fits : ∀ msg ∈ latestViewMessages (messages dvcs),
      msg.Fits (latestViewMessages (messages dvcs)))
    (member : (msg, opnum) ∈ mergeReads config lastSpeculative 0 dvcs) :
    ∃ entry, msg.entryAt opnum = some entry := by
  obtain ⟨inLatest, -, high, mostCommitted, merged, most, taken, above⟩ := of_mem_mergeReads member
  have chosen := List.argmax_mem most
  have le := List.le_of_mem_argmax inLatest most
  have early : mostCommitted.Early := by
    rcases fits mostCommitted chosen with early | ⟨-, other⟩
    · exact early
    · exact absurd most other
  have reached := lastcommitted_le_lastOpnum (wellFormed _ (mem_messages_of_latest chosen)) early taken
  have inDvcs := mem_messages_of_latest inLatest
  refine exists_entryAt_of_firstOpnumOf_le (wellFormed msg inDvcs) (by omega) high
    fun nonempty => ?_
  rcases fits msg inLatest with (empty | one | low) | ⟨next, -⟩
  · exact absurd empty nonempty
  · omega
  · omega
  · omega

end Merges

/-! ## The requests of a merge -/

section Requests

variable {asked : Request → Prop}

/-- The first phase takes over requests. -/
theorem asked_of_takeCommitted {maxStart lastcommitted : Nat} {entries : List (LogEntry Hash)}
    {merged taken : Merged Hash} (before : ∀ entry ∈ merged.out, asked entry.request)
    (made : ∀ entry ∈ entries, asked entry.request)
    (took : takeCommitted maxStart lastcommitted entries merged = some taken) :
    ∀ entry ∈ taken.out, asked entry.request := by
  induction entries generalizing merged with
  | nil =>
      obtain rfl := Option.some.inj took
      exact before
  | cons head rest inductionHypothesis =>
      have later : ∀ entry ∈ rest, asked entry.request :=
        fun entry inRest => made entry (List.mem_cons_of_mem _ inRest)
      unfold takeCommitted at took
      split at took
      · exact inductionHypothesis before later took
      · split at took
        · obtain rfl := Option.some.inj took
          exact before
        · split at took
          · refine inductionHypothesis (fun entry member => ?_) later took
            rcases List.mem_append.mp member with old | new
            · exact before entry old
            · rw [List.mem_singleton.mp new]
              exact made head List.mem_cons_self
          · cases took

/-- What a function that may fail gives for a list is what it gives for its elements. -/
theorem exists_of_mem_mapM {α β : Type} {f : α → Option β} {list : List α} {images : List β}
    (mapped : list.mapM f = some images) {image : β} (member : image ∈ images) :
    ∃ x ∈ list, f x = some image := by
  induction list generalizing images with
  | nil =>
      obtain rfl := Option.some.inj mapped
      nomatch member
  | cons head rest inductionHypothesis =>
      rw [List.mapM_cons] at mapped
      obtain ⟨first, found, mappedRest⟩ := Option.bind_eq_some_iff.mp mapped
      obtain ⟨others, mappedOthers, same⟩ := Option.bind_eq_some_iff.mp mappedRest
      obtain rfl := Option.some.inj same
      rcases List.mem_cons.mp member with rfl | inOthers
      · exact ⟨head, List.mem_cons_self, found⟩
      · obtain ⟨x, inRest, there⟩ := inductionHypothesis mappedOthers inOthers
        exact ⟨x, List.mem_cons_of_mem _ inRest, there⟩

/-- What is read from a vote is an entry of it. -/
theorem mem_of_entryAt {msg : DoViewChangeMessage Hash} {opnum : Nat} {entry : LogEntry Hash}
    (found : msg.entryAt opnum = some entry) : entry ∈ msg.entries :=
  (DoViewChangeMessage.entryAt_some found).1

/-- The votes that are counted are for requests of the entries that are counted. -/
theorem asked_of_countVote [LinearOrder Hash] {entries : List (LogEntry Hash)}
    {votes : TreeMap Hash Vote}
    (before : ∀ (hash : Hash) (vote : Vote), votes[hash]? = some vote → asked vote.request)
    (made : ∀ entry ∈ entries, asked entry.request) :
    ∀ (hash : Hash) (vote : Vote), (entries.foldl countVote votes)[hash]? = some vote →
      asked vote.request := by
  induction entries generalizing votes with
  | nil => exact before
  | cons head rest inductionHypothesis =>
      refine inductionHypothesis (fun hash vote found => ?_)
        fun entry inRest => made entry (List.mem_cons_of_mem _ inRest)
      unfold countVote at found
      split at found
      next counted present =>
          rw [TreeMap.getElem?_insert] at found
          split at found
          · obtain rfl := Option.some.inj found
            exact before _ counted present
          · exact before hash vote found
      next =>
          rw [TreeMap.getElem?_insert] at found
          split at found
          · obtain rfl := Option.some.inj found
            exact made head List.mem_cons_self
          · exact before hash vote found

/-- The second phase takes over requests of the votes. -/
theorem asked_of_voteLoop [LinearOrder Hash] {latest : List (DoViewChangeMessage Hash)}
    {needed rounds next : Nat} {merged voted : Merged Hash}
    (before : ∀ entry ∈ merged.out, asked entry.request)
    (made : ∀ msg ∈ latest, ∀ entry ∈ msg.entries, asked entry.request)
    (ended : voteLoop latest needed rounds next merged = some voted) :
    ∀ entry ∈ voted.out, asked entry.request := by
  induction rounds generalizing next merged with
  | zero =>
      obtain rfl := Option.some.inj ended
      exact before
  | succ rounds inductionHypothesis =>
      unfold voteLoop at ended
      split at ended
      · nomatch ended
      next entries cast_ =>
          split at ended
          · obtain rfl := Option.some.inj ended
            exact before
          next hash vote elected =>
              refine inductionHypothesis (fun entry member => ?_) ended
              rcases List.mem_append.mp member with old | new
              · exact before entry old
              · rw [List.mem_singleton.mp new]
                have inVotes := List.mem_of_find?_eq_some elected
                have present := TreeMap.mem_toList_iff_getElem?_eq_some.mp inVotes
                refine asked_of_countVote (fun _ _ none_ => ?_) (fun entry inEntries => ?_) hash
                  vote present
                · simp at none_
                · obtain ⟨msg, inFilter, found⟩ := exists_of_mem_mapM cast_ inEntries
                  exact made msg (List.mem_of_mem_filter inFilter) entry (mem_of_entryAt found)

/-- The third phase takes over requests of the votes. -/
theorem asked_of_appendUnseen {hashing : Hashing Hash} {newView : Nat}
    {entries : List (LogEntry Hash)} {merged : Merged Hash}
    (before : ∀ entry ∈ merged.out, asked entry.request)
    (made : ∀ entry ∈ entries, asked entry.request) :
    ∀ entry ∈ (entries.foldl (appendUnseen hashing newView) merged).out, asked entry.request := by
  induction entries generalizing merged with
  | nil => exact before
  | cons head rest inductionHypothesis =>
      refine inductionHypothesis (fun entry member => ?_)
        fun entry inRest => made entry (List.mem_cons_of_mem _ inRest)
      unfold appendUnseen at member
      split at member
      · exact before entry member
      · rcases List.mem_append.mp member with old | new
        · exact before entry old
        · rw [List.mem_singleton.mp new]
          exact made head List.mem_cons_self

/-- A merged log has requests of the votes only. -/
theorem asked_of_mergeLogs [LinearOrder Hash] {config : Configuration} {hashing : Hashing Hash}
    {lastSpeculative newView maxStart : Nat} {dvcs : TreeMap Nat (DoViewChangeMessage Hash)}
    {log : List (LogEntry Hash)}
    (made : ∀ msg ∈ messages dvcs, ∀ entry ∈ msg.entries, asked entry.request)
    (merges : mergeLogs config hashing lastSpeculative newView maxStart dvcs = some log) :
    ∀ entry ∈ log, asked entry.request := by
  have voted : ∀ msg ∈ latestViewMessages (messages dvcs), ∀ entry ∈ msg.entries,
      asked entry.request := fun msg inLatest => made msg (mem_messages_of_latest inLatest)
  unfold mergeLogs at merges
  split at merges
  · obtain ⟨mostCommitted, most, merges⟩ := Option.bind_eq_some_iff.mp merges
    obtain ⟨taken, took, merges⟩ := Option.bind_eq_some_iff.mp merges
    obtain ⟨furthest, -, merges⟩ := Option.bind_eq_some_iff.mp merges
    obtain ⟨elected, ended, merges⟩ := Option.bind_eq_some_iff.mp merges
    obtain ⟨leftovers, left, same⟩ := Option.bind_eq_some_iff.mp merges
    obtain rfl := Option.some.inj same
    have first := asked_of_takeCommitted (fun _ none_ => nomatch none_)
      (voted mostCommitted (List.argmax_mem most)) took
    refine asked_of_appendUnseen (asked_of_voteLoop first voted ended) fun entry member => ?_
    obtain ⟨entries, inLeftovers, inEntries⟩ := List.mem_flatten.mp member
    obtain ⟨msg, inLatest, leftOf⟩ := exists_of_mem_mapM left inLeftovers
    obtain ⟨opnum, -, found⟩ := exists_of_mem_mapM leftOf inEntries
    exact voted msg inLatest entry (mem_of_entryAt found)
  · nomatch merges

end Requests

end PaxosBus.Spec

import PaxosBus.Spec.Assembly
import Mathlib.Data.List.Lex

/-!
# When the merged log is well formed

The three phases fit together except between positions that the vote decides
apart from each other: with more than `f + 1` messages two hashes can both have
enough holders, and the least one wins at each position. The output is a log
exactly when consecutive winners come from one log, and it contains no request
twice exactly when no request wins twice. Nothing is ever lost.
-/

set_option autoImplicit false

namespace PaxosBus.Spec

open Std (TreeMap)
open PaxosBus.Common

variable {Hash : Type}

/-- A piece of a log as the rest of the replica expects it. -/
structure WellFormedLog (hashing : Hashing Hash) (log : List (LogEntry Hash)) : Prop where
  consecutive : log.IsChain fun entry next =>
    next.viewstamp.opnum = entry.viewstamp.opnum + 1
  views : log.Pairwise (·.viewstamp.view ≤ ·.viewstamp.view)
  committedFirst : log.Pairwise fun entry later =>
    entry.state = .speculative → later.state ≠ .committed
  chained : log.IsChain fun entry next =>
    next.hash = hashing.computeHash entry.hash next.request

instance [DecidableEq Hash] (hashing : Hashing Hash) (log : List (LogEntry Hash)) :
    Decidable (WellFormedLog hashing log) :=
  decidable_of_iff
    ((log.IsChain fun entry next => next.viewstamp.opnum = entry.viewstamp.opnum + 1) ∧
      log.Pairwise (·.viewstamp.view ≤ ·.viewstamp.view) ∧
      (log.Pairwise fun entry later => entry.state = .speculative → later.state ≠ .committed) ∧
      log.IsChain fun entry next => next.hash = hashing.computeHash entry.hash next.request)
    ⟨fun ⟨consecutive, views, committedFirst, chained⟩ =>
        ⟨consecutive, views, committedFirst, chained⟩,
      fun ⟨consecutive, views, committedFirst, chained⟩ =>
        ⟨consecutive, views, committedFirst, chained⟩⟩

/-- What an entry is to every later one. -/
def Precedes (entry later : LogEntry Hash) : Prop :=
  entry.viewstamp.view ≤ later.viewstamp.view ∧
    (later.state = .committed → entry.state = .committed)

instance : IsTrans (LogEntry Hash) Precedes :=
  ⟨fun _ _ _ left right => ⟨left.1.trans right.1, fun committed => left.2 (right.2 committed)⟩⟩

/-- A log of committed and speculative entries is well formed when each entry follows the one
before it. -/
theorem wellFormedLog_iff_isChain {hashing : Hashing Hash} {log : List (LogEntry Hash)}
    (states : ∀ entry ∈ log, entry.state = .committed ∨ entry.state = .speculative) :
    WellFormedLog hashing log ↔ log.IsChain (Follows hashing) := by
  constructor
  · intro wellFormed
    rw [List.isChain_iff_getElem]
    intro i bounded
    have views := List.pairwise_iff_getElem.mp wellFormed.views i (i + 1) (by omega) bounded
      (by omega)
    have committedFirst := List.pairwise_iff_getElem.mp wellFormed.committedFirst i (i + 1)
      (by omega) bounded (by omega)
    refine ⟨⟨List.isChain_iff_getElem.mp wellFormed.consecutive i bounded,
      List.isChain_iff_getElem.mp wellFormed.chained i bounded⟩, views, fun committed => ?_⟩
    rcases states _ (List.getElem_mem (by omega : i < log.length)) with early | speculative
    · exact early
    · exact absurd committed (committedFirst speculative)
  · intro chain
    have ordered : log.Pairwise Precedes :=
      (chain.imp fun _ _ follows => ⟨follows.view, follows.committed⟩).pairwise
    refine ⟨chain.imp fun _ _ follows => follows.opnum, ordered.imp fun pair => pair.1,
      ordered.imp fun pair speculative committed => ?_, chain.imp fun _ _ follows => follows.hash⟩
    have early := pair.2 committed
    rw [speculative] at early
    cases early

/-- The views of every log never go back, and are not above the view to come. -/
def ViewsOrdered (newView : Nat) (dvcs : TreeMap Nat (DoViewChangeMessage Hash)) : Prop :=
  ∀ msg ∈ messages dvcs, msg.entries.Pairwise (·.viewstamp.view ≤ ·.viewstamp.view) ∧
    ∀ entry ∈ msg.entries, entry.viewstamp.view ≤ newView

instance (newView : Nat) (dvcs : TreeMap Nat (DoViewChangeMessage Hash)) :
    Decidable (ViewsOrdered newView dvcs) := by
  unfold ViewsOrdered
  infer_instance

/-- Of two entries of an ordered log, the one at the lower opnum has no later view. -/
theorem DoViewChangeMessage.WellFormed.view_le {hashing : Hashing Hash}
    {msg : DoViewChangeMessage Hash} (wellFormed : msg.WellFormed hashing)
    (ordered : msg.entries.Pairwise (·.viewstamp.view ≤ ·.viewstamp.view))
    {entry later : LogEntry Hash} (inLog : entry ∈ msg.entries) (laterIn : later ∈ msg.entries)
    (below : entry.viewstamp.opnum < later.viewstamp.opnum) :
    entry.viewstamp.view ≤ later.viewstamp.view := by
  obtain ⟨i, bounded, rfl⟩ := List.getElem_of_mem inLog
  obtain ⟨j, bounded', rfl⟩ := List.getElem_of_mem laterIn
  rw [wellFormed.opnum_getElem i bounded, wellFormed.opnum_getElem j bounded'] at below
  exact List.pairwise_iff_getElem.mp ordered i j bounded bounded' (by omega)

variable [LinearOrder Hash]

/-- Consecutive positions that are both voted on elect entries that one of the latest logs
holds one after the other, the second in no earlier view than the first. -/
def Stitches (config : Configuration) (maxStart : Nat)
    (latest : List (DoViewChangeMessage Hash)) : Prop :=
  ∀ opnum winner next, voteStart maxStart latest ≤ opnum →
    (∀ earlier, voteStart maxStart latest ≤ earlier → earlier < opnum →
      ∃ elected, Winner latest (matchingEntriesNeeded config latest) earlier elected) →
    Winner latest (matchingEntriesNeeded config latest) opnum winner →
    Winner latest (matchingEntriesNeeded config latest) (opnum + 1) next →
      (∃ msg ∈ latest, ∃ entry entry', msg.entryAt opnum = some entry ∧
        entry.hash = winner.hash ∧ msg.entryAt (opnum + 1) = some entry' ∧
        entry'.hash = next.hash) ∧
      winner.viewstamp.view ≤ next.viewstamp.view

/-- No two positions that are voted on elect the same request. -/
def ElectsOnce (config : Configuration) (maxStart : Nat)
    (latest : List (DoViewChangeMessage Hash)) : Prop :=
  ∀ opnum later winner winner', voteStart maxStart latest ≤ opnum → opnum < later →
    (∀ between, voteStart maxStart latest ≤ between → between < later →
      ∃ elected, Winner latest (matchingEntriesNeeded config latest) between elected) →
    Winner latest (matchingEntriesNeeded config latest) opnum winner →
    Winner latest (matchingEntriesNeeded config latest) later winner' →
      winner.request.reqid ≠ winner'.request.reqid

variable {config : Configuration} {hashing : Hashing Hash}
  {lastSpeculative newView maxStart : Nat} {dvcs : TreeMap Nat (DoViewChangeMessage Hash)}

namespace Assembled

variable {mostCommitted : DoViewChangeMessage Hash} {winners out : List (LogEntry Hash)}
  {latest : List (DoViewChangeMessage Hash)}

/-- The winners in the output are those of an unbroken run of positions, so a winner preceded
by winners is in the output. -/
theorem winner_index (assembled : Assembled config hashing newView maxStart latest mostCommitted
      winners out) {opnum : Nat} {winner : LogEntry Hash}
    (low : voteStart maxStart latest ≤ opnum)
    (earlier : ∀ earlier, voteStart maxStart latest ≤ earlier → earlier < opnum →
      ∃ elected, Winner latest (matchingEntriesNeeded config latest) earlier elected)
    (wins : Winner latest (matchingEntriesNeeded config latest) opnum winner) :
    ∃ i, ∃ bounded : i < winners.length, opnum = voteStart maxStart latest + i ∧
      winners[i] = winner := by
  have inside : opnum - voteStart maxStart latest < winners.length := by
    by_contra outside
    rcases Nat.lt_or_ge (voteStart maxStart latest + winners.length) opnum with below | above
    · obtain ⟨elected, electedWins⟩ := earlier _ (by omega) below
      exact assembled.stopped elected electedWins
    · have last : opnum = voteStart maxStart latest + winners.length := by omega
      exact assembled.stopped winner (last ▸ wins)
  have position : opnum = voteStart maxStart latest + (opnum - voteStart maxStart latest) := by
    omega
  refine ⟨_, inside, position, ?_⟩
  have found := assembled.won _ inside
  rw [← position] at found
  exact Elected.unique found wins

/-- Every position between the first vote and the end of the winners has a winner. -/
theorem exists_winner (assembled : Assembled config hashing newView maxStart latest mostCommitted
      winners out) {opnum : Nat} (low : voteStart maxStart latest ≤ opnum)
    (high : opnum < voteStart maxStart latest + winners.length) :
    ∃ elected, Winner latest (matchingEntriesNeeded config latest) opnum elected := by
  have found := assembled.won (opnum - voteStart maxStart latest) (by omega)
  rw [Nat.add_sub_cancel' low] at found
  exact ⟨_, found⟩

end Assembled

namespace Mergeable

omit [LinearOrder Hash] in
/-- A latest log that holds an entry at a position voted on also holds the position before it,
unless the merge starts there. -/
theorem exists_entryAt_before
    (mergeable : Mergeable config hashing lastSpeculative maxStart dvcs)
    {msg : DoViewChangeMessage Hash} (inDvcs : msg ∈ messages dvcs) {opnum before : Nat}
    {entry : LogEntry Hash} (found : msg.entryAt opnum = some entry) (earlier : before ≤ opnum)
    (positive : 0 < before) (low : maxStart ≤ before) :
    ∃ entry', msg.entryAt before = some entry' := by
  obtain ⟨_, _, high⟩ := (mergeable.wellFormed msg inDvcs).entryAt_bounds found
  exact mergeable.exists_entryAt inDvcs positive low (earlier.trans high)

/-- Two winners follow one another in the output exactly when some latest log holds their
hashes one after the other and their views do not go back. -/
theorem follows_announce_iff
    (mergeable : Mergeable config hashing lastSpeculative maxStart dvcs)
    (collisionFree : hashing.CollisionFree) {needed opnum : Nat} {winner next : LogEntry Hash}
    (positive : 0 < opnum) (low : maxStart ≤ opnum)
    (wins : Winner (latestViewMessages (messages dvcs)) needed opnum winner)
    (nextWins : Winner (latestViewMessages (messages dvcs)) needed (opnum + 1) next) :
    Follows hashing (announce winner) (announce next) ↔
      (∃ msg ∈ latestViewMessages (messages dvcs), ∃ entry entry',
        msg.entryAt opnum = some entry ∧ entry.hash = winner.hash ∧
          msg.entryAt (opnum + 1) = some entry' ∧ entry'.hash = next.hash) ∧
      winner.viewstamp.view ≤ next.viewstamp.view := by
  obtain ⟨first, _, foundWinner⟩ := wins.entryAt
  obtain ⟨second, inLatest, foundNext⟩ := nextWins.entryAt
  have inDvcs := mem_messages_of_latest inLatest
  obtain ⟨before, foundBefore⟩ :=
    mergeable.exists_entryAt_before inDvcs foundNext (Nat.le_succ opnum) positive low
  -- the log that announces `next` chains it to its own previous entry
  have own := (mergeable.wellFormed second inDvcs).chained foundBefore foundNext
  constructor
  · intro follows
    refine ⟨⟨second, inLatest, before, next, foundBefore, ?_, foundNext, rfl⟩, follows.view⟩
    have chained : next.hash = hashing.computeHash winner.hash next.request := follows.hash
    exact collisionFree.lastHash (own.hash.symm.trans chained)
  · rintro ⟨⟨msg, msgIn, entry, entry', found, same, found', same'⟩, views⟩
    have chained :=
      (mergeable.wellFormed msg (mem_messages_of_latest msgIn)).chained found found'
    refine ⟨⟨?_, ?_⟩, views, by simp [announce]⟩
    · have position := (DoViewChangeMessage.entryAt_some foundWinner).2
      have nextPosition := (DoViewChangeMessage.entryAt_some foundNext).2
      simp [announce, position, nextPosition]
    · have equal : hashing.computeHash entry.hash entry'.request =
          hashing.computeHash before.hash next.request := by
        rw [← chained.hash, ← own.hash, same']
      calc next.hash
          = hashing.computeHash before.hash next.request := own.hash
        _ = hashing.computeHash winner.hash next.request := by
            rw [← same, collisionFree.lastHash equal]

omit [LinearOrder Hash] in
/-- The committed stretch is a piece of a log. -/
theorem isChain_committed
    (mergeable : Mergeable config hashing lastSpeculative maxStart dvcs)
    (ordered : ViewsOrdered newView dvcs) {msg : DoViewChangeMessage Hash}
    (inDvcs : msg ∈ messages dvcs) :
    (stretch maxStart msg.lastcommitted msg.entries).IsChain (Follows hashing) := by
  have chain : (stretch maxStart msg.lastcommitted msg.entries).IsChain (Chained hashing) :=
    isChain_stretch (mergeable.wellFormed msg inDvcs).chain
  rw [List.isChain_iff_getElem] at chain ⊢
  intro i bounded
  have inStretch := (mergeable.mem_committed inDvcs).mp
    (List.getElem_mem (by omega : i < (stretch maxStart msg.lastcommitted msg.entries).length))
  have inStretch' := (mergeable.mem_committed inDvcs).mp (List.getElem_mem bounded)
  refine ⟨chain i bounded, ?_, fun _ => ?_⟩
  · refine (mergeable.wellFormed msg inDvcs).view_le (ordered msg inDvcs).1
      (DoViewChangeMessage.entryAt_some inStretch.1).1
      (DoViewChangeMessage.entryAt_some inStretch'.1).1 ?_
    rw [(chain i bounded).opnum]
    omega
  · exact ((mergeable.wellFormed msg inDvcs).state_iff inStretch.1).mpr inStretch.2.2

/-- The committed stretch and the first winner fit together. -/
theorem committed_follows
    (mergeable : Mergeable config hashing lastSpeculative maxStart dvcs)
    (ordered : ViewsOrdered newView dvcs) {mostCommitted : DoViewChangeMessage Hash}
    (inDvcs : mostCommitted ∈ messages dvcs) {needed : Nat} {last winner : LogEntry Hash}
    (isLast : (stretch maxStart mostCommitted.lastcommitted mostCommitted.entries).getLast? =
      some last)
    (wins : Winner (latestViewMessages (messages dvcs)) needed
      (max (mostCommitted.lastcommitted + 1) maxStart) winner) :
    Follows hashing last (announce winner) := by
  rcases mergeable.getLast_committed inDvcs with ⟨entry, isEntry, position, positive, low⟩ | empty
  · obtain rfl := Option.some.inj (isLast.symm.trans isEntry)
    rw [max_eq_left (by omega : maxStart ≤ mostCommitted.lastcommitted + 1)] at wins
    obtain ⟨msg, inLatest, found⟩ := wins.entryAt
    have msgIn := mem_messages_of_latest inLatest
    obtain ⟨before, foundBefore⟩ :=
      mergeable.exists_entryAt_before msgIn found (Nat.le_succ _) positive low
    have chained := (mergeable.wellFormed msg msgIn).chained foundBefore found
    obtain ⟨inWindow, beforePosition⟩ := DoViewChangeMessage.entryAt_some foundBefore
    have view := (mergeable.wellFormed msg msgIn).view_le (ordered msg msgIn).1 inWindow
      (DoViewChangeMessage.entryAt_some found).1 (by rw [chained.opnum]; omega)
    obtain ⟨foundLast, _⟩ := (mergeable.mem_committed inDvcs).mp (List.mem_of_getLast? isLast)
    have committed : last.state = .committed :=
      ((mergeable.wellFormed _ inDvcs).state_iff foundLast).mpr (le_of_eq position)
    obtain ⟨viewstamp, _, hash⟩ := mergeable.agreeCommitted _ inDvcs _ msgIn _
      (DoViewChangeMessage.entryAt_some foundLast).1 _ inWindow committed
      (beforePosition.trans position.symm)
    obtain ⟨opnum, hashed⟩ := chained
    rw [viewstamp] at opnum view
    rw [hash] at hashed
    exact ⟨⟨opnum, hashed⟩, view, fun _ => committed⟩
  · rw [empty.1] at isLast
    cases isLast

end Mergeable

namespace Assembled

variable {mostCommitted : DoViewChangeMessage Hash} {winners out : List (LogEntry Hash)}

/-- Every entry before the leftovers is one of some latest log, up to its state. -/
theorem mem_beforeLeftovers
    (assembled : Assembled config hashing newView maxStart (latestViewMessages (messages dvcs))
      mostCommitted winners out) {entry : LogEntry Hash}
    (inOut : entry ∈ stretch maxStart mostCommitted.lastcommitted mostCommitted.entries ++
      winners.map announce) :
    ∃ msg ∈ messages dvcs, ∃ original ∈ msg.entries, entry.viewstamp = original.viewstamp ∧
      entry.request = original.request := by
  rcases List.mem_append.mp inOut with copied | announced
  · refine ⟨mostCommitted, mem_messages_of_latest assembled.chosen, entry, ?_, rfl, rfl⟩
    exact ((List.takeWhile_sublist _).trans (List.dropWhile_sublist _)).subset copied
  · obtain ⟨winner, inWinners, rfl⟩ := List.mem_map.mp announced
    obtain ⟨i, bounded, rfl⟩ := List.getElem_of_mem inWinners
    obtain ⟨msg, inLatest, found⟩ := (assembled.won i bounded).entryAt
    exact ⟨msg, mem_messages_of_latest inLatest, winners[i],
      (DoViewChangeMessage.entryAt_some found).1, rfl, rfl⟩

/-- The output is chained exactly when the winners stitch together. -/
theorem isChain_iff_stitches
    (assembled : Assembled config hashing newView maxStart (latestViewMessages (messages dvcs))
      mostCommitted winners out)
    (mergeable : Mergeable config hashing lastSpeculative maxStart dvcs)
    (ordered : ViewsOrdered newView dvcs) (collisionFree : hashing.CollisionFree) :
    out.IsChain (Follows hashing) ↔
      Stitches config maxStart (latestViewMessages (messages dvcs)) := by
  have inDvcs := mem_messages_of_latest assembled.chosen
  have appended := assembled.appended
  rw [← assembled.most] at appended
  have views : ∀ entry ∈ stretch maxStart mostCommitted.lastcommitted mostCommitted.entries ++
      winners.map announce, entry.viewstamp.view ≤ newView := by
    intro entry inOut
    obtain ⟨msg, msgIn, original, inLog, viewstamp, _⟩ := assembled.mem_beforeLeftovers inOut
    rw [viewstamp]
    exact (ordered msg msgIn).2 original inLog
  have start : voteStart maxStart (latestViewMessages (messages dvcs)) =
      max (mostCommitted.lastcommitted + 1) maxStart := by
    rw [voteStart, assembled.most]
  rw [(appended.chain views).2, List.isChain_append]
  have pair : ∀ i (bounded : i + 1 < winners.length),
      Follows hashing (announce winners[i]) (announce winners[i + 1]) ↔ _ := fun i bounded =>
    mergeable.follows_announce_iff collisionFree (by omega) (by omega)
      (assembled.won i (by omega)) (assembled.won (i + 1) bounded)
  constructor
  · rintro ⟨_, chain, _⟩ opnum winner next low earlier wins nextWins
    obtain ⟨i, bounded, rfl, rfl⟩ := assembled.winner_index low earlier wins
    have nextEarlier : ∀ earlier, voteStart maxStart (latestViewMessages (messages dvcs)) ≤
        earlier → earlier < voteStart maxStart (latestViewMessages (messages dvcs)) + i + 1 →
          ∃ elected, Winner (latestViewMessages (messages dvcs))
            (matchingEntriesNeeded config (latestViewMessages (messages dvcs))) earlier elected :=
      fun position above below => assembled.exists_winner above (by omega)
    obtain ⟨j, boundedNext, position, rfl⟩ :=
      assembled.winner_index (by omega) nextEarlier nextWins
    obtain rfl : j = i + 1 := by omega
    refine (pair i boundedNext).mp ?_
    have follows := List.isChain_iff_getElem.mp chain i (by simpa using boundedNext)
    rwa [List.getElem_map, List.getElem_map] at follows
  · intro stitches
    refine ⟨mergeable.isChain_committed ordered inDvcs, ?_, ?_⟩
    · rw [List.isChain_iff_getElem]
      intro i bounded
      have bounded : i + 1 < winners.length := by simpa using bounded
      simp only [List.getElem_map]
      refine (pair i bounded).mpr (stitches _ _ _ (by omega) ?_ (assembled.won i (by omega))
        (assembled.won (i + 1) bounded))
      exact fun earlier above below => assembled.exists_winner above (by omega)
    · intro last isLast next isFirst
      cases winners with
      | nil => cases isFirst
      | cons winner rest =>
          obtain rfl : announce winner = next := by simpa using isFirst
          have wins := assembled.won 0 (by simp)
          rw [start] at wins
          exact mergeable.committed_follows ordered inDvcs isLast wins

end Assembled

/-- The merge of messages that agree on what is committed goes through, and its output is a
well-formed log exactly when the entries elected at consecutive positions stitch together. -/
theorem wellFormedLog_iff_stitches (collisionFree : hashing.CollisionFree)
    (mergeable : Mergeable config hashing lastSpeculative maxStart dvcs)
    (ordered : ViewsOrdered newView dvcs) :
    ∃ out, mergeLogs config hashing lastSpeculative newView maxStart dvcs = some out ∧
      (WellFormedLog hashing out ↔
        Stitches config maxStart (latestViewMessages (messages dvcs))) := by
  obtain ⟨mostCommitted, winners, out, merged, assembled⟩ := mergeable.assembled newView
  refine ⟨out, merged, ?_⟩
  rw [← assembled.isChain_iff_stitches mergeable ordered collisionFree]
  apply wellFormedLog_iff_isChain
  intro entry inOut
  obtain ⟨tail, rfl, speculative⟩ := assembled.appended.grown
  rcases List.mem_append.mp inOut with before | leftover
  · rcases List.mem_append.mp before with copied | announced
    · rw [← assembled.most] at copied
      have inDvcs := mem_messages_of_latest assembled.chosen
      obtain ⟨found, _, high⟩ := (mergeable.mem_committed inDvcs).mp copied
      exact .inl (((mergeable.wellFormed _ inDvcs).state_iff found).mpr high)
    · obtain ⟨winner, _, rfl⟩ := List.mem_map.mp announced
      exact .inr rfl
  · exact .inr (speculative entry leftover)

/-! ## Two merges of four messages

With `f = 2`, two matching entries are enough, and four messages can be in the map:
`HandleStartViewChange` adds the leader's own without checking for a quorum. -/

/-- A log in view 0 that contains one request of each client; the first is committed. -/
def logOf (lastHash : List Nat) (opnum : Nat) : List Nat → List (LogEntry (List Nat))
  | [] => []
  | clientid :: rest =>
    let request : Request := { op := "op", clientid, clientreqid := 1 }
    let hash := spelling.computeHash lastHash request
    { viewstamp := ⟨0, opnum⟩, state := if opnum ≤ 1 then .committed else .speculative,
      request, hash } :: logOf hash (opnum + 1) rest

/-- The message for view 1 of a replica with that log. -/
def messageOf (replicaidx : Nat) (clientids : List Nat) : DoViewChangeMessage (List Nat) where
  view := 1
  lastnormalview := 0
  lastspeculative := clientids.length
  lastcommitted := 1
  entries := logOf [] 1 clientids
  replicaidx := replicaidx

/-- The messages of replicas 0 to 3, two with one log and two with another. -/
def twoAndTwo (first second : List Nat) : TreeMap Nat (DoViewChangeMessage (List Nat)) :=
  .ofList [(0, messageOf 0 first), (1, messageOf 1 first), (2, messageOf 2 second),
    (3, messageOf 3 second)]

set_option maxRecDepth 20000 in
/-- Four messages with one log: the winners stitch together. -/
theorem stitches_agreeing :
    Stitches ⟨5, 2⟩ 1 (latestViewMessages (messages (twoAndTwo [5, 1, 9] [5, 1, 9]))) := by
  have mergeable : Mergeable ⟨5, 2⟩ spelling 3 1 (twoAndTwo [5, 1, 9] [5, 1, 9]) := by decide
  obtain ⟨out, merged, same⟩ := wellFormedLog_iff_stitches spelling_collisionFree mergeable
    (by decide : ViewsOrdered 1 _)
  have holds : (mergeLogs ⟨5, 2⟩ spelling 3 1 1 (twoAndTwo [5, 1, 9] [5, 1, 9])).any
      (fun out => WellFormedLog spelling out) = true := by decide
  rw [merged] at holds
  exact same.mp (by simpa using holds)

set_option maxRecDepth 20000 in
/-- Two logs win one position each: the entry output at opnum 3 is hashed from the entry of the
other log at opnum 2. -/
theorem not_wellFormedLog_diverging :
    spelling.CollisionFree ∧ Mergeable ⟨5, 2⟩ spelling 3 1 (twoAndTwo [5, 1, 9] [5, 2, 8]) ∧
      ViewsOrdered 1 (twoAndTwo [5, 1, 9] [5, 2, 8]) ∧
      ¬ ∃ out, mergeLogs ⟨5, 2⟩ spelling 3 1 1 (twoAndTwo [5, 1, 9] [5, 2, 8]) = some out ∧
        WellFormedLog spelling out := by
  refine ⟨spelling_collisionFree, by decide, by decide, ?_⟩
  rintro ⟨out, merged, wellFormed⟩
  have fails : (mergeLogs ⟨5, 2⟩ spelling 3 1 1 (twoAndTwo [5, 1, 9] [5, 2, 8])).any
      (fun out => ¬ WellFormedLog spelling out) = true := by decide
  rw [merged] at fails
  simp [wellFormed] at fails

/-! ## Requests in the output -/

/-- Every request that a latest log holds from `maxStart` on is in the output, and no request
is there twice. -/
structure ExactlyOnce (maxStart : Nat) (latest : List (DoViewChangeMessage Hash))
    (out : List (LogEntry Hash)) : Prop where
  kept : ∀ msg ∈ latest, ∀ entry ∈ msg.entries, maxStart ≤ entry.viewstamp.opnum →
    ∃ output ∈ out, output.request.reqid = entry.request.reqid
  distinct : (out.map (·.request.reqid)).Nodup

instance (maxStart : Nat) (latest : List (DoViewChangeMessage Hash))
    (out : List (LogEntry Hash)) : Decidable (ExactlyOnce maxStart latest out) :=
  decidable_of_iff ((∀ msg ∈ latest, ∀ entry ∈ msg.entries, maxStart ≤ entry.viewstamp.opnum →
      ∃ output ∈ out, output.request.reqid = entry.request.reqid) ∧
      (out.map (·.request.reqid)).Nodup)
    ⟨fun ⟨kept, distinct⟩ => ⟨kept, distinct⟩, fun ⟨kept, distinct⟩ => ⟨kept, distinct⟩⟩

namespace Assembled

variable {mostCommitted : DoViewChangeMessage Hash} {winners out : List (LogEntry Hash)}

/-- The merge loses no request of the latest logs. -/
theorem kept
    (assembled : Assembled config hashing newView maxStart (latestViewMessages (messages dvcs))
      mostCommitted winners out)
    (mergeable : Mergeable config hashing lastSpeculative maxStart dvcs)
    {msg : DoViewChangeMessage Hash} (inLatest : msg ∈ latestViewMessages (messages dvcs))
    {entry : LogEntry Hash} (inLog : entry ∈ msg.entries)
    (low : maxStart ≤ entry.viewstamp.opnum) :
    ∃ output ∈ out, output.request.reqid = entry.request.reqid := by
  have msgIn := mem_messages_of_latest inLatest
  have wellFormed := mergeable.wellFormed msg msgIn
  by_cases committed : entry.viewstamp.opnum ≤ msg.lastcommitted
  · -- the log with the most committed entries has the same entry
    have inDvcs := mem_messages_of_latest assembled.chosen
    have chosen := mergeable.wellFormed mostCommitted inDvcs
    have most : msg.lastcommitted ≤ mostCommitted.lastcommitted := by
      rw [assembled.most]
      exact lastcommitted_le_highestCommitted inLatest
    obtain ⟨copied, found⟩ := mergeable.exists_entryAt inDvcs (wellFormed.positive entry inLog)
      low ((committed.trans most).trans chosen.lastCommitted)
    obtain ⟨inWindow, position⟩ := DoViewChangeMessage.entryAt_some found
    have isCommitted : copied.state = .committed :=
      (chosen.state_iff found).mpr (committed.trans most)
    obtain ⟨_, request, _⟩ := mergeable.agreeCommitted _ inDvcs _ msgIn copied inWindow entry
      inLog isCommitted position.symm
    have inStretch : copied ∈ stretch maxStart mostCommitted.lastcommitted
        mostCommitted.entries :=
      (mergeable.mem_committed inDvcs).mpr
        ⟨position ▸ found, position ▸ low, position ▸ committed.trans most⟩
    obtain ⟨tail, grown, _⟩ := assembled.appended.grown
    refine ⟨copied, ?_, by rw [request]⟩
    rw [grown, ← assembled.most]
    exact List.mem_append_left _ (List.mem_append_left _ inStretch)
  · exact assembled.covered msg inLatest _ entry (wellFormed.entryAt_of_mem inLog)
      (by omega) low

/-- No request of the committed stretch is elected again. -/
theorem committed_not_elected
    (assembled : Assembled config hashing newView maxStart (latestViewMessages (messages dvcs))
      mostCommitted winners out)
    (mergeable : Mergeable config hashing lastSpeculative maxStart dvcs)
    (distinct : ∀ msg ∈ messages dvcs, (msg.entries.map (·.request.reqid)).Nodup)
    {copied winner : LogEntry Hash}
    (inStretch : copied ∈ stretch maxStart mostCommitted.lastcommitted mostCommitted.entries)
    (inWinners : winner ∈ winners) : copied.request.reqid ≠ winner.request.reqid := by
  intro same
  have inDvcs := mem_messages_of_latest assembled.chosen
  obtain ⟨foundCopied, low, high⟩ := (mergeable.mem_committed inDvcs).mp inStretch
  have inWindow := (DoViewChangeMessage.entryAt_some foundCopied).1
  have positive := (mergeable.wellFormed _ inDvcs).positive copied inWindow
  obtain ⟨i, bounded, rfl⟩ := List.getElem_of_mem inWinners
  obtain ⟨msg, inLatest, found⟩ := (assembled.won i bounded).entryAt
  have msgIn := mem_messages_of_latest inLatest
  have above : copied.viewstamp.opnum <
      voteStart maxStart (latestViewMessages (messages dvcs)) + i := by
    rw [voteStart, ← assembled.most]
    omega
  -- the winner's own log holds the committed entry too
  obtain ⟨twin, foundTwin⟩ :=
    mergeable.exists_entryAt_before msgIn found above.le positive low
  obtain ⟨inTwin, twinPosition⟩ := DoViewChangeMessage.entryAt_some foundTwin
  obtain ⟨inWinner, winnerPosition⟩ := DoViewChangeMessage.entryAt_some found
  have committed := ((mergeable.wellFormed _ inDvcs).state_iff foundCopied).mpr high
  obtain ⟨_, request, _⟩ := mergeable.agreeCommitted _ inDvcs _ msgIn copied inWindow twin inTwin
    committed twinPosition
  have equal : twin = winners[i] :=
    List.inj_on_of_nodup_map (distinct msg msgIn) inTwin inWinner (by rw [request, same])
  rw [equal, winnerPosition] at twinPosition
  omega

/-- No request is output twice exactly when no request is elected twice. -/
theorem nodup_iff_electsOnce
    (assembled : Assembled config hashing newView maxStart (latestViewMessages (messages dvcs))
      mostCommitted winners out)
    (mergeable : Mergeable config hashing lastSpeculative maxStart dvcs)
    (distinct : ∀ msg ∈ messages dvcs, (msg.entries.map (·.request.reqid)).Nodup) :
    (out.map (·.request.reqid)).Nodup ↔
      ElectsOnce config maxStart (latestViewMessages (messages dvcs)) := by
  have inDvcs := mem_messages_of_latest assembled.chosen
  have announced : (winners.map announce).map (·.request.reqid) =
      winners.map (·.request.reqid) := by
    rw [List.map_map]
    rfl
  rw [assembled.appended.distinct, ← assembled.most, List.map_append, announced,
    List.nodup_append]
  constructor
  · rintro ⟨_, nodup, _⟩ opnum later winner winner' low less earlier wins wins' same
    obtain ⟨i, bounded, rfl, rfl⟩ := assembled.winner_index low
      (fun between above below => earlier between above (below.trans less)) wins
    obtain ⟨j, bounded', rfl, rfl⟩ := assembled.winner_index (by omega) earlier wins'
    have apart := List.pairwise_iff_getElem.mp nodup i j (by simpa using bounded)
      (by simpa using bounded') (by omega)
    simp only [List.getElem_map] at apart
    exact apart same
  · intro electsOnce
    refine ⟨?_, ?_, ?_⟩
    · exact (distinct _ inDvcs).sublist
        (((List.takeWhile_sublist _).trans (List.dropWhile_sublist _)).map _)
    · rw [List.Nodup, List.pairwise_iff_getElem]
      intro i j bounded bounded' less
      simp only [List.length_map] at bounded bounded'
      simp only [List.getElem_map]
      refine electsOnce _ _ _ _ (by omega) (by omega) ?_ (assembled.won i bounded)
        (assembled.won j bounded')
      exact fun between above below => assembled.exists_winner above (by omega)
    · intro id inCopied id' inElected
      obtain ⟨copied, inStretch, rfl⟩ := List.mem_map.mp inCopied
      obtain ⟨winner, inWinners, rfl⟩ := List.mem_map.mp inElected
      exact assembled.committed_not_elected mergeable distinct inStretch inWinners

end Assembled

/-- Where no single log contains a request twice, the merge keeps every request of the latest
logs exactly once if and only if no request is elected at two positions. -/
theorem exactlyOnce_iff_electsOnce (newView : Nat)
    (mergeable : Mergeable config hashing lastSpeculative maxStart dvcs)
    (distinct : ∀ msg ∈ messages dvcs, (msg.entries.map (·.request.reqid)).Nodup) :
    ∃ out, mergeLogs config hashing lastSpeculative newView maxStart dvcs = some out ∧
      (ExactlyOnce maxStart (latestViewMessages (messages dvcs)) out ↔
        ElectsOnce config maxStart (latestViewMessages (messages dvcs))) := by
  obtain ⟨mostCommitted, winners, out, merged, assembled⟩ := mergeable.assembled newView
  refine ⟨out, merged, ?_⟩
  rw [← assembled.nodup_iff_electsOnce mergeable distinct]
  constructor
  · intro once
    exact once.distinct
  · intro nodup
    exact ⟨fun msg inLatest entry inLog low => assembled.kept mergeable inLatest inLog low, nodup⟩

set_option maxRecDepth 20000 in
/-- Four messages with one log: no request wins twice. -/
theorem electsOnce_agreeing :
    ElectsOnce ⟨5, 2⟩ 1 (latestViewMessages (messages (twoAndTwo [5, 1, 2] [5, 1, 2]))) := by
  have mergeable : Mergeable ⟨5, 2⟩ spelling 3 1 (twoAndTwo [5, 1, 2] [5, 1, 2]) := by decide
  obtain ⟨out, merged, same⟩ := exactlyOnce_iff_electsOnce 1 mergeable (by decide)
  have holds : (mergeLogs ⟨5, 2⟩ spelling 3 1 1 (twoAndTwo [5, 1, 2] [5, 1, 2])).any
      (fun out => ExactlyOnce 1 (latestViewMessages (messages (twoAndTwo [5, 1, 2] [5, 1, 2])))
        out) = true := by decide
  rw [merged] at holds
  exact same.mp (by simpa using holds)

set_option maxRecDepth 20000 in
/-- Two logs with the same two requests in opposite orders: the request of client 1 wins both
positions. -/
theorem not_exactlyOnce_conflicting :
    Mergeable ⟨5, 2⟩ spelling 3 1 (twoAndTwo [5, 1, 2] [5, 2, 1]) ∧
      (∀ msg ∈ messages (twoAndTwo [5, 1, 2] [5, 2, 1]),
        (msg.entries.map (·.request.reqid)).Nodup) ∧
      ¬ ∃ out, mergeLogs ⟨5, 2⟩ spelling 3 1 1 (twoAndTwo [5, 1, 2] [5, 2, 1]) = some out ∧
        ExactlyOnce 1 (latestViewMessages (messages (twoAndTwo [5, 1, 2] [5, 2, 1]))) out := by
  refine ⟨by decide, by decide, ?_⟩
  rintro ⟨out, merged, once⟩
  have fails : (mergeLogs ⟨5, 2⟩ spelling 3 1 1 (twoAndTwo [5, 1, 2] [5, 2, 1])).any
      (fun out => ¬ (out.map (·.request.reqid)).Nodup) = true := by decide
  rw [merged] at fails
  simp [once.distinct] at fails

end PaxosBus.Spec

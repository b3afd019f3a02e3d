import PaxosBus.Spec.Vote
import PaxosBus.Spec.Window
import Mathlib.Data.List.TakeWhile

/-!
# What each phase of the merge outputs

The committed phase copies a stretch of one log, the vote outputs one winner for
each position, the leftover phase chains every unseen request onto the output in
the new view. Each lemma says that the phase goes through and what it appends.
-/

set_option autoImplicit false

namespace PaxosBus.Spec

open Std (TreeMap)
open PaxosBus.Common

variable {Hash : Type}

/-! ## The latest messages -/

/-- The loop keeps the messages with the highest normal view so far. -/
theorem latestViewStep_spec (msgs : List (DoViewChangeMessage Hash)) :
    (∀ msg ∈ msgs, msg.lastnormalview ≤ (msgs.foldl latestViewStep (0, [])).1) ∧
      (msgs.foldl latestViewStep (0, [])).2 =
        msgs.filter (·.lastnormalview = (msgs.foldl latestViewStep (0, [])).1) ∧
      ((msgs.foldl latestViewStep (0, [])).2 = [] →
        (msgs.foldl latestViewStep (0, [])).1 = 0) := by
  induction msgs using List.reverseRecOn with
  | nil => simp
  | append_singleton msgs msg inductionHypothesis =>
      rw [List.foldl_append, List.foldl_cons, List.foldl_nil]
      generalize msgs.foldl latestViewStep (0, []) = found at inductionHypothesis
      obtain ⟨highest, kept⟩ := found
      obtain ⟨bound, same, unset⟩ := inductionHypothesis
      dsimp only at bound same unset
      unfold latestViewStep
      dsimp only
      by_cases higher : msg.lastnormalview > highest
      · -- every earlier message is below the new highest view
        have none : msgs.filter (·.lastnormalview = msg.lastnormalview) = [] := by
          rw [List.filter_eq_nil_iff]
          intro other earlier
          have := bound other earlier
          simp only [decide_eq_true_eq]
          omega
        simp only [higher, if_true]
        refine ⟨?_, ?_, by simp⟩
        · intro other inList
          rcases List.mem_append.mp inList with earlier | last
          · exact (bound other earlier).trans (Nat.le_of_lt higher)
          · exact le_of_eq (congrArg _ (List.mem_singleton.mp last))
        · rw [List.filter_append, none]
          simp
      · simp only [higher, if_false]
        by_cases equal : msg.lastnormalview = highest
        · simp only [equal, if_true]
          refine ⟨?_, ?_, by simp⟩
          · intro other inList
            rcases List.mem_append.mp inList with earlier | last
            · exact bound other earlier
            · rw [List.mem_singleton.mp last]
              exact le_of_eq equal
          · rw [List.filter_append, ← same]
            simp [equal]
        · simp only [equal, if_false]
          refine ⟨?_, ?_, unset⟩
          · intro other inList
            rcases List.mem_append.mp inList with earlier | last
            · exact bound other earlier
            · rw [List.mem_singleton.mp last]
              omega
          · rw [List.filter_append, ← same]
            simp [equal]

/-- The latest messages are those with the highest normal view, in map order. -/
theorem latestViewMessages_eq_filter (msgs : List (DoViewChangeMessage Hash)) :
    ∃ highest, latestViewMessages msgs = msgs.filter (·.lastnormalview = highest) ∧
      (∀ msg ∈ msgs, msg.lastnormalview ≤ highest) ∧
      (msgs ≠ [] → ∃ msg ∈ msgs, msg.lastnormalview = highest) := by
  obtain ⟨bound, same, unset⟩ := latestViewStep_spec msgs
  refine ⟨_, same, bound, fun nonempty => ?_⟩
  by_cases empty : (msgs.foldl latestViewStep (0, [])).2 = []
  · obtain ⟨msg, inList⟩ := List.exists_mem_of_ne_nil _ nonempty
    have below := bound msg inList
    rw [unset empty] at below ⊢
    exact ⟨msg, inList, Nat.le_zero.mp below⟩
  · obtain ⟨msg, kept⟩ := List.exists_mem_of_ne_nil _ empty
    rw [same] at kept
    obtain ⟨inList, highest⟩ := List.mem_filter.mp kept
    exact ⟨msg, inList, of_decide_eq_true highest⟩

/-- The latest votes are those with no other of a later view. -/
theorem mem_latestViewMessages {msgs : List (DoViewChangeMessage Hash)}
    {msg : DoViewChangeMessage Hash} :
    msg ∈ latestViewMessages msgs ↔
      msg ∈ msgs ∧ ∀ other ∈ msgs, other.lastnormalview ≤ msg.lastnormalview := by
  obtain ⟨highest, same, bound, attained⟩ := latestViewMessages_eq_filter msgs
  rw [same, List.mem_filter, decide_eq_true_eq]
  constructor
  · rintro ⟨inList, rfl⟩
    exact ⟨inList, bound⟩
  · rintro ⟨inList, largest⟩
    obtain ⟨other, present, rfl⟩ := attained (List.ne_nil_of_mem inList)
    exact ⟨inList, le_antisymm (bound msg inList) (largest other present)⟩

/-- Where every message has the same normal view, all of them are latest. -/
theorem latestViewMessages_of_same {msgs : List (DoViewChangeMessage Hash)} {view : Nat}
    (same : ∀ msg ∈ msgs, msg.lastnormalview = view) : latestViewMessages msgs = msgs := by
  obtain ⟨highest, filtered, bound, attained⟩ := latestViewMessages_eq_filter msgs
  rw [filtered, List.filter_eq_self]
  intro msg inList
  obtain ⟨other, present, rfl⟩ := attained (List.ne_nil_of_mem inList)
  simp [same msg inList, same other present]

/-- Some message is latest. -/
theorem latestViewMessages_ne_nil {msgs : List (DoViewChangeMessage Hash)} (nonempty : msgs ≠ []) :
    latestViewMessages msgs ≠ [] := by
  obtain ⟨highest, filtered, bound, attained⟩ := latestViewMessages_eq_filter msgs
  obtain ⟨msg, inList, rfl⟩ := attained nonempty
  apply List.ne_nil_of_mem (a := msg)
  rw [mem_latestViewMessages]
  exact ⟨inList, bound⟩

/-! ## The committed phase -/

/-- The entries of a log from one opnum through another. -/
def stretch (first last : Nat) (entries : List (LogEntry Hash)) : List (LogEntry Hash) :=
  (entries.dropWhile (·.viewstamp.opnum < first)).takeWhile (·.viewstamp.opnum ≤ last)

/-- A stretch of a log that is in opnum order has the entries between the two opnums. -/
theorem mem_stretch {first last : Nat} {entries : List (LogEntry Hash)}
    (sorted : entries.Pairwise (·.viewstamp.opnum < ·.viewstamp.opnum)) {entry : LogEntry Hash} :
    entry ∈ stretch first last entries ↔
      entry ∈ entries ∧ first ≤ entry.viewstamp.opnum ∧ entry.viewstamp.opnum ≤ last := by
  induction entries with
  | nil => simp [stretch]
  | cons head rest inductionHypothesis =>
      obtain ⟨above, sortedRest⟩ := List.pairwise_cons.mp sorted
      have shorter := inductionHypothesis sortedRest
      by_cases early : head.viewstamp.opnum < first
      · have skipped : stretch first last (head :: rest) = stretch first last rest := by
          simp [stretch, early]
        rw [skipped, shorter, List.mem_cons]
        constructor
        · rintro ⟨inRest, range⟩
          exact ⟨.inr inRest, range⟩
        · rintro ⟨rfl | inRest, range⟩
          · omega
          · exact ⟨inRest, range⟩
      · -- from here on nothing is skipped
        have kept : ∀ entry ∈ rest, ¬ entry.viewstamp.opnum < first := by
          intro entry inRest
          have := above entry inRest
          omega
        have restKept : rest.dropWhile (·.viewstamp.opnum < first) = rest := by
          rw [List.dropWhile_eq_self_iff]
          intro nonempty
          simpa using kept _ (List.getElem_mem nonempty)
        by_cases late : head.viewstamp.opnum ≤ last
        · have taken : stretch first last (head :: rest) = head :: stretch first last rest := by
            simp [stretch, early, late, restKept]
          rw [taken, List.mem_cons, shorter, List.mem_cons]
          constructor
          · rintro (rfl | ⟨inRest, range⟩)
            · exact ⟨.inl rfl, by omega, late⟩
            · exact ⟨.inr inRest, range⟩
          · rintro ⟨rfl | inRest, range⟩
            · exact .inl rfl
            · exact .inr ⟨inRest, range⟩
        · have stopped : stretch first last (head :: rest) = [] := by
            simp [stretch, early, late]
          rw [stopped, List.mem_cons]
          constructor
          · intro absurd
            cases absurd
          · rintro ⟨rfl | inRest, range⟩
            · omega
            · have := above entry inRest
              omega

/-- A stretch of a chain is a chain. -/
theorem isChain_stretch {relation : LogEntry Hash → LogEntry Hash → Prop} {first last : Nat}
    {entries : List (LogEntry Hash)} (chain : entries.IsChain relation) :
    (stretch first last entries).IsChain relation := by
  have skipped : (entries.dropWhile (·.viewstamp.opnum < first)).IsChain relation := by
    rw [← List.takeWhile_append_dropWhile (p := (·.viewstamp.opnum < first)) (l := entries)]
      at chain
    exact chain.right_of_append
  rw [← List.takeWhile_append_dropWhile (p := (·.viewstamp.opnum ≤ last))
    (l := entries.dropWhile (·.viewstamp.opnum < first))] at skipped
  exact skipped.left_of_append

/-- The first phase copies a stretch of committed entries. -/
theorem takeCommitted_spec (maxStart : Nat) {lastcommitted : Nat} {entries : List (LogEntry Hash)}
    (sorted : entries.Pairwise (·.viewstamp.opnum < ·.viewstamp.opnum))
    (states : ∀ entry ∈ entries, entry.viewstamp.opnum ≤ lastcommitted →
      entry.state = .committed) (merged : Merged Hash) :
    ∃ merged', takeCommitted maxStart lastcommitted entries merged = some merged' ∧
      merged'.out = merged.out ++ stretch maxStart lastcommitted entries := by
  induction entries generalizing merged with
  | nil => exact ⟨merged, rfl, by simp [stretch]⟩
  | cons head rest inductionHypothesis =>
      obtain ⟨above, sortedRest⟩ := List.pairwise_cons.mp sorted
      have shorter := inductionHypothesis sortedRest fun entry inRest =>
        states entry (List.mem_cons_of_mem _ inRest)
      unfold takeCommitted
      by_cases early : head.viewstamp.opnum < maxStart
      · rw [if_pos early]
        obtain ⟨merged', taken, out⟩ := shorter merged
        refine ⟨merged', taken, ?_⟩
        rw [out]
        simp [stretch, early]
      · rw [if_neg early]
        have restKept : rest.dropWhile (·.viewstamp.opnum < maxStart) = rest := by
          rw [List.dropWhile_eq_self_iff]
          intro nonempty
          have := above _ (List.getElem_mem nonempty)
          simp only [decide_eq_true_eq]
          omega
        by_cases late : head.viewstamp.opnum > lastcommitted
        · rw [if_pos late]
          refine ⟨merged, rfl, ?_⟩
          simp [stretch, early, late]
        · have committed : head.state = .committed :=
            states head List.mem_cons_self (by omega)
          rw [if_neg late, if_pos committed]
          obtain ⟨merged', taken, out⟩ := shorter (merged.push { head with state := .committed })
          refine ⟨merged', taken, ?_⟩
          have within : head.viewstamp.opnum ≤ lastcommitted := by omega
          have copied : { head with state := .committed } = head := by rw [← committed]
          rw [out]
          simp [Merged.push, stretch, early, within, restKept, copied]

/-! ## The vote -/

/-- The entries that the logs hold at a position, in message order. -/
def entriesAt (latest : List (DoViewChangeMessage Hash)) (opnum : Nat) : List (LogEntry Hash) :=
  latest.filterMap (·.entryAt opnum)

/-- The entries at an operation are those that the latest votes have there. -/
theorem mem_entriesAt {latest : List (DoViewChangeMessage Hash)} {opnum : Nat}
    {entry : LogEntry Hash} :
    entry ∈ entriesAt latest opnum ↔ ∃ msg ∈ latest, msg.entryAt opnum = some entry := by
  simp [entriesAt]

/-- Where every log that reaches a position has an entry there, the ballots are cast. -/
theorem ballots_eq {latest : List (DoViewChangeMessage Hash)} {next : Nat}
    (present : ∀ msg ∈ latest, next ≤ msg.lastspeculative → ∃ entry, msg.entryAt next = some entry)
    (absent : ∀ msg ∈ latest, ¬ next ≤ msg.lastspeculative → msg.entryAt next = none) :
    ballots latest next = some (entriesAt latest next) := by
  unfold ballots entriesAt
  induction latest with
  | nil => rfl
  | cons msg rest inductionHypothesis =>
      have shorter := inductionHypothesis
        (fun other inRest => present other (List.mem_cons_of_mem _ inRest))
        (fun other inRest => absent other (List.mem_cons_of_mem _ inRest))
      by_cases reaches : next ≤ msg.lastspeculative
      · obtain ⟨entry, found⟩ := present msg List.mem_cons_self reaches
        rw [List.filter_cons_of_pos (by simpa using reaches), List.mapM_cons, shorter, found]
        simp [found]
      · have missing := absent msg List.mem_cons_self reaches
        rw [List.filter_cons_of_neg (by simpa using reaches), shorter]
        simp [missing]

/-- The entry that wins at a position. -/
def Winner [LinearOrder Hash] (latest : List (DoViewChangeMessage Hash)) (needed opnum : Nat)
    (winner : LogEntry Hash) : Prop :=
  Elected needed (entriesAt latest opnum) winner

/-- An entry that wins is one of a vote. -/
theorem Winner.entryAt [LinearOrder Hash] {latest : List (DoViewChangeMessage Hash)}
    {needed opnum : Nat} {winner : LogEntry Hash} (wins : Winner latest needed opnum winner) :
    ∃ msg ∈ latest, msg.entryAt opnum = some winner :=
  mem_entriesAt.mp (Elected.mem wins)

/-- An entry as the vote outputs it. -/
def announce (winner : LogEntry Hash) : LogEntry Hash := { winner with state := .speculative }

/-- The second phase outputs the winners of consecutive positions, up to the first position
without a winner. -/
theorem voteLoop_spec [LinearOrder Hash] {latest : List (DoViewChangeMessage Hash)}
    (needed rounds : Nat) {next : Nat} (cast : ∀ opnum, next ≤ opnum →
      ballots latest opnum = some (entriesAt latest opnum)) (merged : Merged Hash) :
    ∃ (winners : List (LogEntry Hash)) (merged' : Merged Hash),
      voteLoop latest needed rounds next merged = some merged' ∧
      merged'.out = merged.out ++ winners.map announce ∧
      (∀ i (bounded : i < winners.length), Winner latest needed (next + i) winners[i]) ∧
      winners.length ≤ rounds ∧
      (winners.length < rounds → ∀ winner, ¬ Winner latest needed (next + winners.length) winner)
      := by
  induction rounds generalizing next merged with
  | zero => exact ⟨[], merged, rfl, by simp, by simp, by simp, by simp⟩
  | succ rounds inductionHypothesis =>
      unfold voteLoop
      rw [cast next le_rfl]
      dsimp only
      split
      · rename_i failed
        refine ⟨[], merged, rfl, by simp, by simp, by simp, fun _ winner wins => ?_⟩
        exact absurd wins.enough (not_enough_of_elect failed winner wins.mem).not_ge
      · rename_i hash vote chosen
        obtain ⟨winner, elected, rfl, request, view⟩ := elected_of_elect chosen
        have position : winner.viewstamp.opnum = next := by
          obtain ⟨msg, _, found⟩ := mem_entriesAt.mp elected.mem
          exact (DoViewChangeMessage.entryAt_some found).2
        have announced : (⟨⟨vote.view, next⟩, .speculative, vote.request, winner.hash⟩ :
            LogEntry Hash) = announce winner := by
          rw [request, view, ← position]
          rfl
        rw [announced]
        have castLater : ∀ opnum, next + 1 ≤ opnum →
            ballots latest opnum = some (entriesAt latest opnum) :=
          fun opnum above => cast opnum (by omega)
        obtain ⟨winners, merged', looped, out, won, bound, stopped⟩ :=
          inductionHypothesis castLater (merged.push (announce winner))
        refine ⟨winner :: winners, merged', looped, ?_, ?_, ?_, ?_⟩
        · rw [out]
          simp [Merged.push]
        · intro i bounded
          cases i with
          | zero => exact elected
          | succ i =>
              have later := won i (by simpa using bounded)
              rw [show next + (i + 1) = next + 1 + i by omega]
              exact later
        · simpa using bound
        · intro short other wins
          refine stopped (by simpa using short) other ?_
          rw [show next + 1 + winners.length = next + (winner :: winners).length by
            simp only [List.length_cons]; omega]
          exact wins

/-! ## The leftovers -/

/-- A function that is defined on a whole list maps it. -/
theorem mapM_some_iff {α β : Type} {f : α → Option β} {list : List α}
    (defined : ∀ x ∈ list, ∃ y, f x = some y) :
    ∃ images, list.mapM f = some images ∧ ∀ y, y ∈ images ↔ ∃ x ∈ list, f x = some y := by
  induction list with
  | nil => exact ⟨[], rfl, by simp⟩
  | cons head rest inductionHypothesis =>
      obtain ⟨image, found⟩ := defined head List.mem_cons_self
      obtain ⟨images, mapped, members⟩ := inductionHypothesis
        fun x inRest => defined x (List.mem_cons_of_mem _ inRest)
      refine ⟨image :: images, by simp [mapped, found], fun y => ?_⟩
      rw [List.mem_cons, members]
      constructor
      · rintro (rfl | ⟨x, inRest, same⟩)
        · exact ⟨head, List.mem_cons_self, found⟩
        · exact ⟨x, List.mem_cons_of_mem _ inRest, same⟩
      · rintro ⟨x, inList, same⟩
        rcases List.mem_cons.mp inList with rfl | inRest
        · rw [found] at same
          exact .inl (Option.some.inj same).symm
        · exact .inr ⟨x, inRest, same⟩

/-- What a log entry is to the entry before it in the merged log. -/
structure Follows (hashing : Hashing Hash) (entry next : LogEntry Hash) : Prop
    extends Chained hashing entry next where
  view : entry.viewstamp.view ≤ next.viewstamp.view
  committed : next.state = .committed → entry.state = .committed

/-- What the third phase keeps true of the output `start` it began with. -/
structure Appended (hashing : Hashing Hash) (newView : Nat) (start final : List (LogEntry Hash)) :
    Prop where
  grown : ∃ tail, final = start ++ tail ∧ ∀ entry ∈ tail, entry.state = .speculative
  chain : (∀ entry ∈ start, entry.viewstamp.view ≤ newView) →
    ((∀ entry ∈ final, entry.viewstamp.view ≤ newView) ∧
      (final.IsChain (Follows hashing) ↔ start.IsChain (Follows hashing)))
  distinct : (final.map (·.request.reqid)).Nodup ↔ (start.map (·.request.reqid)).Nodup

theorem Appended.refl {hashing : Hashing Hash} {newView : Nat} {start : List (LogEntry Hash)} :
    Appended hashing newView start start :=
  ⟨⟨[], by simp, by simp⟩, fun views => ⟨views, Iff.rfl⟩, Iff.rfl⟩

/-- What is appended in two steps is appended. -/
theorem Appended.trans {hashing : Hashing Hash} {newView : Nat}
    {first middle last : List (LogEntry Hash)} (left : Appended hashing newView first middle)
    (right : Appended hashing newView middle last) : Appended hashing newView first last := by
  obtain ⟨tail, rfl, speculative⟩ := left.grown
  obtain ⟨later, rfl, speculativeLater⟩ := right.grown
  refine ⟨⟨tail ++ later, by simp, ?_⟩, fun views => ?_, right.distinct.trans left.distinct⟩
  · intro entry inTail
    rcases List.mem_append.mp inTail with early | late
    · exact speculative entry early
    · exact speculativeLater entry late
  · obtain ⟨bounded, same⟩ := left.chain views
    obtain ⟨boundedLater, sameLater⟩ := right.chain bounded
    exact ⟨boundedLater, sameLater.trans same⟩

/-- Appending one request keeps the log chained, and only an unseen request is appended. -/
theorem appended_appendUnseen (hashing : Hashing Hash) (newView : Nat) (merged : Merged Hash)
    (entry : LogEntry Hash) :
    Appended hashing newView merged.out (appendUnseen hashing newView merged entry).out := by
  unfold appendUnseen
  split
  · exact .refl
  · rename_i unseen
    refine ⟨⟨_, rfl, by simp⟩, fun views => ⟨?_, ?_⟩, ?_⟩
    · intro other inOut
      rcases List.mem_append.mp inOut with old | new
      · exact views other old
      · rw [List.mem_singleton.mp new]
    · rw [Merged.push, List.isChain_append]
      refine ⟨fun chains => chains.1, fun chain => ⟨chain, by simp, ?_⟩⟩
      intro last isLast next isNext
      obtain rfl : _ = next := by simpa using isNext
      have isLast : merged.out.getLast? = some last := isLast
      refine ⟨⟨?_, ?_⟩, views last (List.mem_of_getLast? isLast), by simp⟩
      · simp [Merged.lastOpnum, isLast]
      · simp [Merged.lastHash, isLast]
    · have fresh : entry.request.reqid ∉ merged.out.map (·.request.reqid) := by
        intro inOut
        obtain ⟨other, present, same⟩ := List.mem_map.mp inOut
        exact unseen ((merged.seenOut _).mpr ⟨other, present, same⟩)
      rw [Merged.push, List.map_append, List.nodup_append]
      simp only [List.map_cons, List.map_nil, List.nodup_singleton, true_and,
        List.mem_singleton]
      refine ⟨fun distinct => distinct.1, fun distinct => ⟨distinct, ?_⟩⟩
      rintro a inOut b rfl rfl
      exact fresh inOut

/-- The third phase as a whole. -/
theorem appended_foldl (hashing : Hashing Hash) (newView : Nat) (entries : List (LogEntry Hash))
    (merged : Merged Hash) :
    Appended hashing newView merged.out
      (entries.foldl (appendUnseen hashing newView) merged).out := by
  induction entries generalizing merged with
  | nil => exact .refl
  | cons entry rest inductionHypothesis =>
      exact (appended_appendUnseen hashing newView merged entry).trans (inductionHypothesis _)

/-- Every request that the third phase looks at is in its output. -/
theorem seen_foldl (hashing : Hashing Hash) (newView : Nat) (entries : List (LogEntry Hash))
    (merged : Merged Hash) {entry : LogEntry Hash} (inList : entry ∈ entries) :
    ∃ output ∈ (entries.foldl (appendUnseen hashing newView) merged).out,
      output.request.reqid = entry.request.reqid := by
  induction entries generalizing merged with
  | nil => cases inList
  | cons head rest inductionHypothesis =>
      rcases List.mem_cons.mp inList with rfl | inRest
      · have now : ∃ output ∈ (appendUnseen hashing newView merged entry).out,
            output.request.reqid = entry.request.reqid := by
          rw [← (appendUnseen hashing newView merged entry).seenOut]
          unfold appendUnseen
          split
          · assumption
          · simp [Merged.push]
        obtain ⟨output, inOut, same⟩ := now
        obtain ⟨tail, grown, _⟩ := (appended_foldl hashing newView rest
          (appendUnseen hashing newView merged entry)).grown
        refine ⟨output, ?_, same⟩
        rw [List.foldl_cons, grown]
        exact List.mem_append_left _ inOut
      · exact inductionHypothesis _ inRest

end PaxosBus.Spec

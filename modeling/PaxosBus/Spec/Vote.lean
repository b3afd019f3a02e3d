import PaxosBus.Spec.MergeLogs

/-!
# The vote at one position

The tally keeps, for every hash, how many entries have it and the first of them.
`Elected` says which entry wins without reference to the tally: the first holder
of the least hash that enough entries have.
-/

set_option autoImplicit false

namespace PaxosBus.Spec

open Std (TreeMap)
open PaxosBus.Common

variable {Hash : Type} [LinearOrder Hash]

/-- How many of the entries have the hash. -/
def holders (entries : List (LogEntry Hash)) (hash : Hash) : Nat :=
  entries.countP fun entry => entry.hash = hash

/-- The first of the entries with the hash. -/
def firstHolder (entries : List (LogEntry Hash)) (hash : Hash) : Option (LogEntry Hash) :=
  entries.find? fun entry => entry.hash = hash

/-- The entry that wins the vote: the first holder of the least hash with enough holders. -/
structure Elected (needed : Nat) (entries : List (LogEntry Hash)) (winner : LogEntry Hash) :
    Prop where
  first : firstHolder entries winner.hash = some winner
  enough : needed ≤ holders entries winner.hash
  least : ∀ entry ∈ entries, entry.hash < winner.hash → holders entries entry.hash < needed

/-- What the tally holds for a hash. -/
def voteOf (entries : List (LogEntry Hash)) (hash : Hash) : Option Vote :=
  (firstHolder entries hash).map fun entry =>
    { count := holders entries hash, request := entry.request, view := entry.viewstamp.view }

/-- Counting one more entry changes the vote of its own hash only. -/
theorem getElem?_countVote (votes : TreeMap Hash Vote) (entry : LogEntry Hash) (hash : Hash) :
    (countVote votes entry)[hash]? =
      if entry.hash = hash then
        some (match votes[hash]? with
          | some vote => { vote with count := vote.count + 1 }
          | none => { count := 1, request := entry.request, view := entry.viewstamp.view })
      else votes[hash]? := by
  unfold countVote
  by_cases same : entry.hash = hash
  · subst same
    cases votes[entry.hash]? <;> simp
  · cases votes[entry.hash]? <;>
      simp [TreeMap.getElem?_insert, same]

/-- The tally of a list of entries. -/
theorem getElem?_tally (entries : List (LogEntry Hash)) (hash : Hash) :
    (entries.foldl countVote ({} : TreeMap Hash Vote))[hash]? = voteOf entries hash := by
  induction entries using List.reverseRecOn with
  | nil => simp [voteOf, firstHolder]
  | append_singleton entries entry inductionHypothesis =>
      rw [List.foldl_append, List.foldl_cons, List.foldl_nil, getElem?_countVote,
        inductionHypothesis]
      by_cases same : entry.hash = hash
      · subst same
        rw [if_pos rfl]
        cases found : firstHolder entries entry.hash with
        | none =>
            have absent : holders entries entry.hash = 0 := by
              simpa [holders, firstHolder, List.countP_eq_zero] using found
            have alone : firstHolder (entries ++ [entry]) entry.hash = some entry := by
              simp only [firstHolder] at found ⊢
              simp [List.find?_append, found]
            simp only [voteOf, found, alone, Option.map_none, Option.map_some]
            simp only [holders] at absent ⊢
            simp [absent]
        | some winner =>
            have kept : firstHolder (entries ++ [entry]) entry.hash = some winner := by
              simp only [firstHolder] at found ⊢
              simp [List.find?_append, found]
            simp only [voteOf, found, kept, Option.map_some]
            simp [holders]
      · rw [if_neg same]
        simp [voteOf, firstHolder, holders, List.find?_append, same]

/-- Every hash in the tally is that of some entry. -/
theorem exists_of_tally {entries : List (LogEntry Hash)} {hash : Hash} {vote : Vote}
    (found : (entries.foldl countVote ({} : TreeMap Hash Vote))[hash]? = some vote) :
    ∃ entry, firstHolder entries hash = some entry ∧
      vote = ⟨holders entries hash, entry.request, entry.viewstamp.view⟩ := by
  rw [getElem?_tally, voteOf, Option.map_eq_some_iff] at found
  obtain ⟨entry, first, same⟩ := found
  exact ⟨entry, first, same.symm⟩

theorem firstHolder_some {entries : List (LogEntry Hash)} {hash : Hash} {entry : LogEntry Hash}
    (found : firstHolder entries hash = some entry) : entry ∈ entries ∧ entry.hash = hash :=
  ⟨List.mem_of_find?_eq_some found, by simpa using List.find?_some found⟩

/-- Every entry's hash has a first holder. -/
theorem exists_firstHolder {entries : List (LogEntry Hash)} {entry : LogEntry Hash}
    (inList : entry ∈ entries) : ∃ first, firstHolder entries entry.hash = some first := by
  rw [← Option.isSome_iff_exists]
  unfold firstHolder
  rw [List.find?_isSome]
  exact ⟨entry, inList, by simp⟩

/-- A successful election announces the elected entry. -/
theorem elected_of_elect {needed : Nat} {entries : List (LogEntry Hash)} {hash : Hash}
    {vote : Vote} (chosen : elect needed (entries.foldl countVote {}) = some (hash, vote)) :
    ∃ winner, Elected needed entries winner ∧ winner.hash = hash ∧
      vote.request = winner.request ∧ vote.view = winner.viewstamp.view := by
  obtain ⟨enough, before, after, split, rejected⟩ := List.find?_eq_some_iff_append.mp chosen
  have inTally : (hash, vote) ∈ (entries.foldl countVote ({} : TreeMap Hash Vote)).toList := by
    rw [split]
    simp
  obtain ⟨winner, first, rfl⟩ :=
    exists_of_tally (TreeMap.mem_toList_iff_getElem?_eq_some.mp inTally)
  obtain ⟨_, rfl⟩ := firstHolder_some first
  refine ⟨winner, ⟨first, by simpa using enough, ?_⟩, rfl, rfl, rfl⟩
  intro entry inList smaller
  -- the tally is in hash order, so a smaller hash was rejected before
  obtain ⟨other, firstOther⟩ := exists_firstHolder inList
  have otherVote := getElem?_tally entries entry.hash
  rw [voteOf, firstOther, Option.map_some] at otherVote
  have listed := TreeMap.mem_toList_iff_getElem?_eq_some.mpr otherVote
  have ordered := TreeMap.ordered_keys_toList
    (t := entries.foldl countVote ({} : TreeMap Hash Vote))
  rw [split] at listed ordered
  rcases List.mem_append.mp listed with early | late
  · simpa using rejected _ early
  · rcases List.mem_cons.mp late with same | later
    · have equal : entry.hash = winner.hash := congrArg Prod.fst same
      exact absurd smaller (equal ▸ lt_irrefl _)
    · have above := (List.pairwise_cons.mp (List.pairwise_append.mp ordered).2.1).1 _ later
      exact absurd smaller (compare_lt_iff_lt.mp above).not_gt

/-- An election fails when no hash has enough holders. -/
theorem not_enough_of_elect {needed : Nat} {entries : List (LogEntry Hash)}
    (failed : elect needed (entries.foldl countVote {}) = none) :
    ∀ entry ∈ entries, holders entries entry.hash < needed := by
  intro entry inList
  obtain ⟨first, found⟩ := exists_firstHolder inList
  have vote := getElem?_tally entries entry.hash
  rw [voteOf, found, Option.map_some] at vote
  have listed := TreeMap.mem_toList_iff_getElem?_eq_some.mpr vote
  simpa using List.find?_eq_none.mp failed _ listed

theorem Elected.mem {needed : Nat} {entries : List (LogEntry Hash)} {winner : LogEntry Hash}
    (elected : Elected needed entries winner) : winner ∈ entries :=
  (firstHolder_some elected.first).1

/-- At most one entry wins. -/
theorem Elected.unique {needed : Nat} {entries : List (LogEntry Hash)}
    {first second : LogEntry Hash} (left : Elected needed entries first)
    (right : Elected needed entries second) : first = second := by
  have same : first.hash = second.hash := by
    rcases lt_trichotomy first.hash second.hash with smaller | equal | larger
    · exact absurd left.enough (right.least first left.mem smaller).not_ge
    · exact equal
    · exact absurd right.enough (left.least second right.mem larger).not_ge
  have found := left.first
  rw [same, right.first] at found
  exact (Option.some.inj found).symm

/-- Where some entry has enough holders, one is elected. -/
theorem exists_elected {needed : Nat} {entries : List (LogEntry Hash)} {entry : LogEntry Hash}
    (inList : entry ∈ entries) (enough : needed ≤ holders entries entry.hash) :
    ∃ winner, Elected needed entries winner := by
  cases chosen : elect needed (entries.foldl countVote {}) with
  | none => exact absurd enough (not_enough_of_elect chosen entry inList).not_ge
  | some found =>
      obtain ⟨hash, vote⟩ := found
      obtain ⟨winner, elected, _⟩ := elected_of_elect chosen
      exact ⟨winner, elected⟩

end PaxosBus.Spec

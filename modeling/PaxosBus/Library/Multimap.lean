import Mathlib.Data.List.Sort
import Mathlib.Data.Nat.Basic

/-!
# Multimaps

A multimap keeps its entries in the order of their keys, and entries with the
same key in the order in which they were inserted. A new entry therefore goes
behind all entries whose keys are not greater, and the first entry is the one
with the least key that has been there the longest.
-/

set_option autoImplicit false

namespace PaxosBus.Library

/-- Entries in the order of their keys. -/
structure Multimap (κ α : Type) [LinearOrder κ] where
  entries : List (κ × α)
  sorted : entries.Pairwise fun first second => first.1 ≤ second.1

namespace Multimap

variable {κ α : Type} [LinearOrder κ] {key other : κ} {value : α} {m : Multimap κ α}

/-- The entry with the first key comes before the one with the second. -/
def Before (first second : κ × α) : Prop := first.1 < second.1

instance : DecidableRel (Before (κ := κ) (α := α)) := fun first second =>
  inferInstanceAs (Decidable (first.1 < second.1))

/-- An entry goes between those whose keys are not greater and those whose keys are. -/
theorem orderedInsert_eq {entries : List (κ × α)}
    (sorted : entries.Pairwise fun first second => first.1 ≤ second.1) :
    entries.orderedInsert Before (key, value) =
      entries.filter (fun entry => decide (entry.1 ≤ key)) ++
        (key, value) :: entries.filter fun entry => decide (key < entry.1) := by
  induction entries with
  | nil => rfl
  | cons entry rest inductionHypothesis =>
      obtain ⟨after, sorted⟩ := List.pairwise_cons.mp sorted
      rw [List.orderedInsert_cons]
      by_cases later : key < entry.1
      · have none_ : rest.filter (fun entry => decide (entry.1 ≤ key)) = [] := by
          rw [List.filter_eq_nil_iff]
          intro other member
          rw [decide_eq_true_iff, not_le]
          exact lt_of_lt_of_le later (after other member)
        have all : rest.filter (fun entry => decide (key < entry.1)) = rest := by
          rw [List.filter_eq_self]
          intro other member
          rw [decide_eq_true_iff]
          exact lt_of_lt_of_le later (after other member)
        rw [if_pos (show Before (key, value) entry from later)]
        rw [List.filter_cons_of_neg (by simpa using later),
          List.filter_cons_of_pos (by simpa using later), none_, all]
        rfl
      · rw [if_neg (show ¬ Before (key, value) entry from later), inductionHypothesis sorted]
        rw [List.filter_cons_of_pos (by simpa using later),
          List.filter_cons_of_neg (by simpa using later)]
        rfl

/-- Inserting keeps the order. -/
theorem sorted_orderedInsert {entries : List (κ × α)}
    (sorted : entries.Pairwise fun first second => first.1 ≤ second.1) :
    (entries.orderedInsert Before (key, value)).Pairwise
      fun first second => first.1 ≤ second.1 := by
  rw [orderedInsert_eq sorted]
  apply List.pairwise_append.mpr
  refine ⟨sorted.filter _, ?_, ?_⟩
  · apply List.pairwise_cons.mpr
    refine ⟨?_, sorted.filter _⟩
    intro entry member
    exact le_of_lt (of_decide_eq_true (List.mem_filter.mp member).2)
  · intro first before second member
    have le : first.1 ≤ key := of_decide_eq_true (List.mem_filter.mp before).2
    rcases List.mem_cons.mp member with rfl | after
    · exact le
    · exact le.trans (le_of_lt (of_decide_eq_true (List.mem_filter.mp after).2))

/-- The multimap without entries. -/
def empty : Multimap κ α where
  entries := []
  sorted := .nil

/-- Insert an entry behind those with the same key. -/
def insert (m : Multimap κ α) (key : κ) (value : α) : Multimap κ α where
  entries := m.entries.orderedInsert Before (key, value)
  sorted := sorted_orderedInsert m.sorted

/-- Keep the entries that satisfy a condition. -/
def filter (m : Multimap κ α) (keep : κ → α → Bool) : Multimap κ α where
  entries := m.entries.filter fun entry => keep entry.1 entry.2
  sorted := m.sorted.filter _

/-- Erase all entries with a key. -/
def erase (m : Multimap κ α) (key : κ) : Multimap κ α :=
  m.filter fun other _ => decide (other ≠ key)

/-- Erase the first entry. -/
def eraseBegin (m : Multimap κ α) : Multimap κ α where
  entries := m.entries.tail
  sorted := m.sorted.tail

theorem entries_insert : (m.insert key value).entries =
    m.entries.filter (fun entry => decide (entry.1 ≤ key)) ++
      (key, value) :: m.entries.filter (fun entry => decide (key < entry.1)) :=
  orderedInsert_eq m.sorted

@[simp]
theorem mem_insert {entry : κ × α} :
    entry ∈ (m.insert key value).entries ↔ entry = (key, value) ∨ entry ∈ m.entries :=
  List.mem_orderedInsert _

theorem insert_perm : (m.insert key value).entries.Perm ((key, value) :: m.entries) :=
  List.perm_orderedInsert _ _ _

end Multimap

end PaxosBus.Library

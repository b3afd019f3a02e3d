import Mathlib.Data.List.Basic
import Mathlib.Data.List.Infix
import Mathlib.Data.List.TakeDrop

/-!
# Looking rows up by a second key

A table is a list of rows, numbered from `first`, and a map leads from keys to
numbers. Nothing keeps the map in step with the table: rows are appended, cut off
at the end and edited in place, and the map remembers where a key was last. For
each of these the map still locates the rows exactly when a condition on the table
and the map before it holds.
-/

set_option autoImplicit false

namespace PaxosBus.Library

universe u v

variable {Row : Type u} {Key : Type v}

/-- The row with a number. -/
def rowAt (first : Nat) (rows : List Row) (number : Nat) : Option Row :=
  if number < first then none else rows[number - first]?

/-- The row that the map leads to. -/
def lookup (first : Nat) (rows : List Row) (map : Key → Option Nat) (key : Key) : Option Row :=
  (map key).bind (rowAt first rows)

/-- Looking a key up gives a row that has the key, and some row if any row has it. -/
structure Locates (has : Row → Key → Prop) (first : Nat) (rows : List Row)
    (map : Key → Option Nat) : Prop where
  hit : ∀ key row, lookup first rows map key = some row → has row key
  miss : ∀ key row, row ∈ rows → has row key → lookup first rows map key ≠ none

variable {has : Row → Key → Prop} {first number : Nat} {rows : List Row}
  {map map' : Key → Option Nat} {key : Key} {row : Row}

/-- A row is at a number if that is as far from the first as the row from the head. -/
theorem rowAt_eq_some_iff :
    rowAt first rows number = some row ↔ first ≤ number ∧ rows[number - first]? = some row := by
  unfold rowAt
  split
  next below => simp [Nat.not_le.mpr below]
  next above => simp [Nat.not_lt.mp above]

/-- What is found under a key is the row that the map has the number of. -/
theorem lookup_eq_some_iff :
    lookup first rows map key = some row ↔
      ∃ number, map key = some number ∧ rowAt first rows number = some row :=
  Option.bind_eq_some_iff

/-- Nothing is found under a key that is not in the map, or whose row is gone. -/
theorem lookup_eq_none_iff :
    lookup first rows map key = none ↔
      ∀ number, map key = some number → rowAt first rows number = none :=
  Option.bind_eq_none_iff

/-- A row that is looked up is in the table. -/
theorem mem_of_lookup (found : lookup first rows map key = some row) : row ∈ rows := by
  obtain ⟨number, -, here⟩ := lookup_eq_some_iff.mp found
  exact List.mem_of_getElem? (rowAt_eq_some_iff.mp here).2

namespace Locates

/-- Nothing is found in an empty table, and nothing is missed. -/
theorem nil : Locates has first [] map where
  hit _ _ found := absurd (mem_of_lookup found) List.not_mem_nil
  miss _ _ member := absurd member List.not_mem_nil

/-- A key is not found exactly when no row has it. -/
theorem lookup_eq_none_iff (locates : Locates has first rows map) :
    lookup first rows map key = none ↔ ∀ row ∈ rows, ¬ has row key := by
  constructor
  · intro missing row member holds
    exact locates.miss key row member holds missing
  · intro nowhere
    cases found : lookup first rows map key with
    | none => rfl
    | some row => exact absurd (locates.hit key row found) (nowhere row (mem_of_lookup found))

/-! ## A row more -/

/-- A row at the end leaves the others where they are. -/
theorem rowAt_concat_of_ne (other : number ≠ first + rows.length) :
    rowAt first (rows ++ [row]) number = rowAt first rows number := by
  unfold rowAt
  split
  next => rfl
  next above =>
      rcases Nat.lt_or_gt_of_ne (show number - first ≠ rows.length by omega) with inside | beyond
      · exact List.getElem?_append_left inside
      · rw [List.getElem?_eq_none_iff.mpr (by simp; omega),
          List.getElem?_eq_none_iff.mpr beyond.le]

/-- A row at the end comes after the last number. -/
theorem rowAt_concat_self : rowAt first (rows ++ [row]) (first + rows.length) = some row := by
  rw [rowAt_eq_some_iff]
  simp

/-- A row can follow exactly when no key that it does not have leads to its place. -/
theorem concat_iff (locates : Locates has first rows map)
    (recorded : ∀ key, has row key → map' key = some (first + rows.length))
    (others : ∀ key, ¬ has row key → map' key = map key) :
    Locates has first (rows ++ [row]) map' ↔
      ∀ key, ¬ has row key → map key ≠ some (first + rows.length) := by
  constructor
  · intro after key lacks stale
    apply lacks
    apply after.hit
    exact lookup_eq_some_iff.mpr ⟨_, (others key lacks).trans stale, rowAt_concat_self⟩
  · intro fresh
    have same : ∀ key, ¬ has row key →
        lookup first (rows ++ [row]) map' key = lookup first rows map key := by
      intro key lacks
      unfold lookup
      rw [others key lacks]
      apply Option.bind_congr
      intro number leads
      apply rowAt_concat_of_ne
      rintro rfl
      exact fresh key lacks leads
    have added : ∀ key, has row key → lookup first (rows ++ [row]) map' key = some row := by
      intro key holds
      exact lookup_eq_some_iff.mpr ⟨_, recorded key holds, rowAt_concat_self⟩
    constructor
    · intro key found looked
      by_cases holds : has row key
      · rw [added key holds] at looked
        exact Option.some.inj looked ▸ holds
      · rw [same key holds] at looked
        exact locates.hit key found looked
    · intro key other member holdsOther missing
      by_cases holds : has row key
      · simp [added key holds] at missing
      · rw [same key holds] at missing
        apply locates.miss key other _ holdsOther missing
        rcases List.mem_append.mp member with inside | last
        · exact inside
        · rw [List.mem_singleton] at last
          exact absurd (last ▸ holdsOther) holds

/-! ## Fewer rows -/

/-- The rows that are kept are those with numbers before the end. -/
theorem rowAt_take (count : Nat) :
    rowAt first (rows.take count) number =
      if number < first + count then rowAt first rows number else none := by
  unfold rowAt
  by_cases below : number < first
  · simp [below]
  · rw [if_neg below, if_neg below, List.getElem?_take]
    apply if_congr _ rfl rfl
    omega

/-- The rows after the first `count` can go exactly when no key that leads beyond these is a key
of one of them. -/
theorem take_iff (locates : Locates has first rows map) (count : Nat) :
    Locates has first (rows.take count) map ↔
      ∀ key number, map key = some number → first + count ≤ number →
        ∀ row ∈ rows.take count, ¬ has row key := by
  constructor
  · intro after key number leads beyond row member holds
    apply after.miss key row member holds
    apply PaxosBus.Library.lookup_eq_none_iff.mpr
    intro number' leads'
    obtain rfl := Option.some.inj (leads.symm.trans leads')
    rw [rowAt_take, if_neg (Nat.not_lt.mpr beyond)]
  · intro kept
    constructor
    · intro key row found
      obtain ⟨number, leads, here⟩ := lookup_eq_some_iff.mp found
      rw [rowAt_take] at here
      split at here
      · exact locates.hit key row (lookup_eq_some_iff.mpr ⟨number, leads, here⟩)
      · simp at here
    · intro key row member holds missing
      apply locates.miss key row (List.mem_of_mem_take member) holds
      apply PaxosBus.Library.lookup_eq_none_iff.mpr
      intro number leads
      have none_ := PaxosBus.Library.lookup_eq_none_iff.mp missing number leads
      rw [rowAt_take] at none_
      split at none_
      · exact none_
      next beyond => exact absurd holds (kept key number leads (Nat.not_lt.mp beyond) row member)

/-! ## A row that is edited -/

/-- Only the row at the position is modified. -/
theorem rowAt_modify (position : Nat) (change : Row → Row) :
    rowAt first (rows.modify position change) number =
      (rowAt first rows number).map fun row =>
        if number = first + position then change row else row := by
  unfold rowAt
  by_cases below : number < first
  · simp [below]
  · rw [if_neg below, if_neg below, List.getElem?_modify]
    have here : position = number - first ↔ number = first + position := by omega
    simp only [here]
    cases rows[number - first]? with
    | none => rfl
    | some row =>
        split <;> rfl

/-- A key leads to the row it led to, edited or not. -/
theorem lookup_modify (position : Nat) (change : Row → Row) :
    lookup first (rows.modify position change) map key =
      (lookup first rows map key).map fun row =>
        if map key = some (first + position) then change row else row := by
  unfold lookup
  cases map key with
  | none => rfl
  | some number =>
      rw [Option.bind_some, Option.bind_some, rowAt_modify]
      simp only [Option.some.injEq]

/-- The rows of an edited table are those of the table and the edited one. -/
theorem mem_modify {position : Nat} {change : Row → Row} (old : rows[position]? = some row)
    {other : Row} (member : other ∈ rows.modify position change) :
    other = change row ∨ other ∈ rows := by
  obtain ⟨index, here⟩ := List.mem_iff_getElem?.mp member
  rw [List.getElem?_modify] at here
  obtain ⟨before, there, rfl⟩ := Option.map_eq_some_iff.mp here
  split
  next same =>
      obtain rfl := Option.some.inj (old.symm.trans (same ▸ there))
      exact .inl rfl
  next => exact .inr (List.mem_of_getElem? there)

/-- An edited table still has its rows located if each key leads to a row that has it after the
edit, and no row gets a key that no row had. -/
theorem modify_of (locates : Locates has first rows map) {position : Nat} {change : Row → Row}
    (old : rows[position]? = some row)
    (leads : ∀ key, map key = some (first + position) → has row key → has (change row) key)
    (known : ∀ key, has (change row) key → ∃ other ∈ rows, has other key) :
    Locates has first (rows.modify position change) map := by
  have there : rowAt first rows (first + position) = some row := by
    rw [rowAt_eq_some_iff]
    simpa using old
  constructor
  · intro key found looked
    rw [lookup_modify] at looked
    obtain ⟨before, lookedBefore, rfl⟩ := Option.map_eq_some_iff.mp looked
    have holds := locates.hit key before lookedBefore
    split
    next here =>
        have same : lookup first rows map key = some row :=
          lookup_eq_some_iff.mpr ⟨_, here, there⟩
        obtain rfl := Option.some.inj (same.symm.trans lookedBefore)
        exact leads key here holds
    next => exact holds
  · intro key found member holds missing
    rw [lookup_modify, Option.map_eq_none_iff] at missing
    rcases mem_modify old member with rfl | inside
    · obtain ⟨other, member, holdsOther⟩ := known key holds
      exact locates.miss key other member holdsOther missing
    · exact locates.miss key found inside holds missing

/-- An edit that keeps the keys of the row keeps the rows located. -/
theorem modify (locates : Locates has first rows map) {position : Nat} {change : Row → Row}
    (old : rows[position]? = some row) (keeps : ∀ key, has (change row) key ↔ has row key) :
    Locates has first (rows.modify position change) map := by
  apply locates.modify_of old
  · intro key _ holds
    exact (keeps key).mpr holds
  · intro key holds
    exact ⟨row, List.mem_of_getElem? old, (keeps key).mp holds⟩

variable {keyOf : Row → Key}

/-- An edit of a row with one key can give it another one exactly when the old key leads elsewhere
and the new one is a key of the table already. -/
theorem modify_iff (locates : Locates (fun row key => keyOf row = key) first rows map)
    {position : Nat} {change : Row → Row} (old : rows[position]? = some row) :
    Locates (fun row key => keyOf row = key) first (rows.modify position change) map ↔
      keyOf (change row) = keyOf row ∨
        map (keyOf row) ≠ some (first + position) ∧
          ∃ other ∈ rows, keyOf other = keyOf (change row) := by
  have there : rowAt first rows (first + position) = some row := by
    rw [rowAt_eq_some_iff]
    simpa using old
  constructor
  · intro after
    have edited : rowAt first (rows.modify position change) (first + position) =
        some (change row) := by
      rw [rowAt_modify, there]
      simp
    by_cases same : keyOf (change row) = keyOf row
    · exact .inl same
    apply Or.inr
    constructor
    · intro leads
      exact same (after.hit _ _ (lookup_eq_some_iff.mpr ⟨_, leads, edited⟩))
    · have member := List.mem_of_getElem? (rowAt_eq_some_iff.mp edited).2
      have found := after.miss _ _ member rfl
      rw [lookup_modify, Ne, Option.map_eq_none_iff] at found
      obtain ⟨other, looked⟩ := Option.ne_none_iff_exists'.mp found
      exact ⟨other, mem_of_lookup looked, locates.hit _ _ looked⟩
  · rintro (same | ⟨elsewhere, known⟩)
    · apply locates.modify old
      intro key
      rw [same]
    · apply locates.modify_of old
      · rintro key here rfl
        exact absurd here elsewhere
      · rintro key rfl
        exact known

end Locates

end PaxosBus.Library

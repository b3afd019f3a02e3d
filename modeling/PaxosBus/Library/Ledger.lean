import Std.Data.TreeMap.Lemmas
import Mathlib.Data.List.Perm.Basic
import Mathlib.Data.List.Nodup
import Mathlib.Data.List.Range
import Mathlib.Data.List.Count

/-!
# Items issued in order and settled once

A process numbers items from one, keeps the open ones in a table under keys that
have nothing to do with the numbers, and moves an item to another key or settles
it. `Tallied` says that the numbers in the table and the settled ones are, up to
order, exactly the numbers issued; each operation on the table has one rule.
-/

set_option autoImplicit false

namespace PaxosBus.Library

open Std

universe u

variable {Entry : Type u}

/-- Inserting under a fresh key adds one binding. -/
theorem toList_insert_of_not_mem {table : TreeMap Nat Entry} {key : Nat} (entry : Entry)
    (fresh : table[key]? = none) :
    (table.insert key entry).toList.Perm ((key, entry) :: table.toList) := by
  have others : table.toList.filter (fun binding => ¬ key == binding.1) = table.toList := by
    apply List.filter_eq_self.mpr
    intro binding listed
    have bound : table[binding.1]? = some binding.2 :=
      TreeMap.mem_toList_iff_getElem?_eq_some.mp listed
    have different : key ≠ binding.1 := by
      rintro rfl
      rw [fresh] at bound
      cases bound
    simpa using different
  have inserted := TreeMap.toList_insert_perm (t := table) (k := key) (v := entry)
  rwa [others] at inserted

/-- A table consists of any one of its bindings and the rest. -/
theorem toList_of_getElem? {table : TreeMap Nat Entry} {key : Nat} {entry : Entry}
    (found : table[key]? = some entry) :
    table.toList.Perm ((key, entry) :: (table.erase key).toList) := by
  have restored : ((table.erase key).insert key entry).Equiv table := by
    apply TreeMap.Equiv.of_forall_constGet?_eq
    intro other
    simp only [TreeMap.getElem?_insert, TreeMap.getElem?_erase]
    split
    · rename_i same
      obtain rfl : key = other := by simpa using same
      exact found.symm
    · rfl
  exact (TreeMap.equiv_iff_toList_perm.mp restored).symm.trans
    (toList_insert_of_not_mem entry (by simp))

/-- The numbers of the open items, `ident` giving the number of an entry. -/
def openItems (ident : Entry → Nat) (table : TreeMap Nat Entry) : List Nat :=
  table.toList.map fun binding => ident binding.2

/-- The open and the settled items are the numbers from one to `issued`, each once. -/
def Tallied (ident : Entry → Nat) (table : TreeMap Nat Entry) (settled : List Nat)
    (issued : Nat) : Prop :=
  (openItems ident table ++ settled).Perm (List.range' 1 issued)

namespace Tallied

variable {ident : Entry → Nat} {table : TreeMap Nat Entry} {settled : List Nat} {issued : Nat}

/-- Nothing has been issued. -/
theorem empty (ident : Entry → Nat) : Tallied ident {} [] 0 := by
  have nothing : openItems ident {} = [] := rfl
  simp [Tallied, nothing]

/-- A new item takes the next number and a fresh key. -/
theorem issue (tallied : Tallied ident table settled issued) {key : Nat} {entry : Entry}
    (fresh : table[key]? = none) (next : ident entry = issued + 1) :
    Tallied ident (table.insert key entry) settled (issued + 1) := by
  have grown : (openItems ident (table.insert key entry)).Perm
      ((issued + 1) :: openItems ident table) := by
    simpa [openItems, next] using
      (toList_insert_of_not_mem entry fresh).map fun binding => ident binding.2
  have counted : List.range' 1 (issued + 1) = List.range' 1 issued ++ [issued + 1] := by
    rw [List.range'_concat]
    simp [Nat.add_comm]
  unfold Tallied at *
  rw [counted]
  calc (openItems ident (table.insert key entry) ++ settled).Perm
        (((issued + 1) :: openItems ident table) ++ settled) := grown.append_right settled
    _ |>.Perm ((issued + 1) :: List.range' 1 issued) := by
        simpa using tallied.cons (issued + 1)
    _ |>.Perm (List.range' 1 issued ++ [issued + 1]) := (List.perm_append_singleton _ _).symm

/-- Taking an item out of the table leaves its number to be accounted for. -/
theorem remove (tallied : Tallied ident table settled issued) {key : Nat} {entry : Entry}
    (found : table[key]? = some entry) :
    ((ident entry :: openItems ident (table.erase key)) ++ settled).Perm
      (List.range' 1 issued) := by
  have split : (openItems ident table).Perm
      (ident entry :: openItems ident (table.erase key)) := by
    simpa [openItems] using (toList_of_getElem? found).map fun binding => ident binding.2
  exact (split.append_right settled).symm.trans tallied

/-- An item moves to a fresh key. -/
theorem move (tallied : Tallied ident table settled issued) {key key' : Nat}
    {entry entry' : Entry} (found : table[key]? = some entry)
    (fresh : (table.erase key)[key']? = none) (same : ident entry' = ident entry) :
    Tallied ident ((table.erase key).insert key' entry') settled issued := by
  have grown : (openItems ident ((table.erase key).insert key' entry')).Perm
      (ident entry :: openItems ident (table.erase key)) := by
    simpa [openItems, same] using
      (toList_insert_of_not_mem entry' fresh).map fun binding => ident binding.2
  exact (grown.append_right settled).trans (tallied.remove found)

/-- An entry is replaced by one of the same item. -/
theorem amend (tallied : Tallied ident table settled issued) {key : Nat} {entry entry' : Entry}
    (found : table[key]? = some entry) (same : ident entry' = ident entry) :
    Tallied ident (table.insert key entry') settled issued := by
  have split : (openItems ident (table.insert key entry')).Perm
      (ident entry :: openItems ident (table.erase key)) := by
    have bound : (table.insert key entry')[key]? = some entry' := by simp
    have rest : ((table.insert key entry').erase key).Equiv (table.erase key) := by
      apply TreeMap.Equiv.of_forall_constGet?_eq
      intro other
      simp only [TreeMap.getElem?_erase, TreeMap.getElem?_insert]
      split <;> rfl
    have listed := (toList_of_getElem? bound).trans
      ((TreeMap.equiv_iff_toList_perm.mp rest).cons _)
    simpa [openItems, same] using listed.map fun binding => ident binding.2
  exact (split.append_right settled).trans (tallied.remove found)

/-- An item is settled. -/
theorem settle (tallied : Tallied ident table settled issued) {key : Nat} {entry : Entry}
    (found : table[key]? = some entry) :
    Tallied ident (table.erase key) (settled ++ [ident entry]) issued := by
  have moved : (openItems ident (table.erase key) ++ (settled ++ [ident entry])).Perm
      ((ident entry :: openItems ident (table.erase key)) ++ settled) := by
    rw [← List.append_assoc]
    exact List.perm_append_singleton _ _
  exact moved.trans (tallied.remove found)

/-! ## What a tally says -/

/-- The open and the settled items add up to the issued ones. -/
theorem total (tallied : Tallied ident table settled issued) :
    settled.length + table.size = issued := by
  have lengths := tallied.length_eq
  simp only [openItems, List.length_append, List.length_map, TreeMap.length_toList,
    List.length_range'] at lengths
  omega

/-- No number stands twice, in the table or among the settled ones. -/
theorem nodup (tallied : Tallied ident table settled issued) :
    (openItems ident table ++ settled).Nodup :=
  tallied.nodup_iff.mpr List.nodup_range'

/-- Two keys hold different items. -/
theorem distinct (tallied : Tallied ident table settled issued) {key key' : Nat}
    {entry entry' : Entry} (found : table[key]? = some entry)
    (found' : table[key']? = some entry') (same : ident entry = ident entry') : key = key' := by
  have listed : (key, entry) ∈ table.toList := TreeMap.mem_toList_iff_getElem?_eq_some.mpr found
  have listed' : (key', entry') ∈ table.toList :=
    TreeMap.mem_toList_iff_getElem?_eq_some.mpr found'
  have once : (openItems ident table).Nodup := (List.nodup_append.mp tallied.nodup).1
  exact congrArg Prod.fst (List.inj_on_of_nodup_map once listed listed' same)

/-- An issued number is open and unsettled, or settled once and not open. -/
theorem exactly_once (tallied : Tallied ident table settled issued) {number : Nat}
    (positive : 1 ≤ number) (bounded : number ≤ issued) :
    ((∃ (key : Nat) (entry : Entry), table[key]? = some entry ∧ ident entry = number) ∧
        settled.count number = 0) ∨
      ((¬ ∃ (key : Nat) (entry : Entry), table[key]? = some entry ∧ ident entry = number) ∧
        settled.count number = 1) := by
  have isOpen : (∃ (key : Nat) (entry : Entry), table[key]? = some entry ∧
      ident entry = number) ↔
      number ∈ openItems ident table := by
    constructor
    · rintro ⟨key, entry, found, rfl⟩
      exact List.mem_map.mpr
        ⟨(key, entry), TreeMap.mem_toList_iff_getElem?_eq_some.mpr found, rfl⟩
    · intro listed
      obtain ⟨⟨key, entry⟩, bound, rfl⟩ := List.mem_map.mp listed
      exact ⟨key, entry, TreeMap.mem_toList_iff_getElem?_eq_some.mp bound, rfl⟩
  obtain ⟨-, onceSettled, apart⟩ := List.nodup_append.mp tallied.nodup
  have issuedNumber : number ∈ openItems ident table ++ settled :=
    tallied.mem_iff.mpr (List.mem_range'_1.mpr ⟨positive, by omega⟩)
  rw [isOpen]
  by_cases listed : number ∈ openItems ident table
  · refine .inl ⟨listed, List.count_eq_zero.mpr fun isSettled => ?_⟩
    exact apart _ listed _ isSettled rfl
  · have isSettled := (List.mem_append.mp issuedNumber).resolve_left listed
    exact .inr ⟨listed, List.count_eq_one_of_mem onceSettled isSettled⟩

end Tallied

end PaxosBus.Library

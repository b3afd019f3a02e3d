import Mathlib.Data.List.Perm.Basic
import Mathlib.Order.Lattice

/-!
# Sets that a comparator orders

The elements of such a set stand in a list in their order, and an element that
the comparator cannot tell from one of the set stays out. Where the comparator
goes by keys on the elements at hand, insertion keeps the order of the keys and
each key once.
-/

set_option autoImplicit false

namespace PaxosBus.Library.OrderedSet

variable {α κ : Type}

/-- Insertion in front of the first element that comes later. -/
def insert (less : α → α → Bool) (a : α) : List α → List α
  | [] => [a]
  | b :: rest =>
    if less a b then
      a :: b :: rest
    else if less b a then
      b :: insert less a rest
    else
      b :: rest

variable [LinearOrder κ] {less : α → α → Bool} {key : α → κ} {a b : α} {set : List α}

/-- The comparator goes by the keys of two elements. -/
def ByKey (less : α → α → Bool) (key : α → κ) (a b : α) : Prop :=
  (less a b = true ↔ key a < key b) ∧ (less b a = true ↔ key b < key a)

/-- The elements stand in the order of their keys. -/
def Ascending (key : α → κ) (set : List α) : Prop := set.Pairwise fun a b => key a < key b

/-- A new element is put somewhere, and one with the key of another stays out. -/
theorem insert_perm (byKey : ∀ b ∈ set, ByKey less key a b) (ascending : Ascending key set) :
    (insert less a set).Perm (if key a ∈ set.map key then set else a :: set) := by
  induction set with
  | nil => simp [insert]
  | cons b rest inductionHypothesis =>
      obtain ⟨after, sorted⟩ := List.pairwise_cons.mp ascending
      obtain ⟨before_iff, after_iff⟩ := byKey b List.mem_cons_self
      rw [insert]
      rcases lt_trichotomy (key a) (key b) with before | same | later
      · have fresh : key a ∉ (b :: rest).map key := by
          intro member
          obtain ⟨c, inSet, same⟩ := List.mem_map.mp member
          rcases List.mem_cons.mp inSet with rfl | inRest
          · exact absurd same before.ne'
          · exact absurd same (before.trans (after c inRest)).ne'
        rw [if_pos (before_iff.mpr before), if_neg fresh]
      · have notBefore : ¬ less a b = true := fun yes => (before_iff.mp yes).ne same
        have notLater : ¬ less b a = true := fun yes => (after_iff.mp yes).ne' same
        rw [if_neg notBefore, if_neg notLater, if_pos (by simp [same])]
      · have notBefore : ¬ less a b = true := fun yes => later.not_gt (before_iff.mp yes)
        have goesOn : key a ∈ (b :: rest).map key ↔ key a ∈ rest.map key := by
          simp [later.ne']
        have perm := inductionHypothesis (fun c inRest => byKey c (List.mem_cons_of_mem _ inRest))
          sorted
        rw [if_neg notBefore, if_pos (after_iff.mpr later)]
        simp only [goesOn]
        split
        next known =>
            rw [if_pos known] at perm
            exact perm.cons b
        next fresh =>
            rw [if_neg fresh] at perm
            exact (perm.cons b).trans (.swap a b rest)

/-- What is in the set after an insertion. -/
theorem mem_insert (byKey : ∀ b ∈ set, ByKey less key a b) (ascending : Ascending key set) :
    b ∈ insert less a set ↔ b ∈ set ∨ b = a ∧ key a ∉ set.map key := by
  rw [(insert_perm byKey ascending).mem_iff]
  split
  next known => simp [known]
  next fresh => simp [fresh, or_comm]

/-- The set has the key of the new element as well. -/
theorem mem_keys_insert {k : κ} (byKey : ∀ b ∈ set, ByKey less key a b)
    (ascending : Ascending key set) :
    k ∈ (insert less a set).map key ↔ k = key a ∨ k ∈ set.map key := by
  rw [((insert_perm byKey ascending).map key).mem_iff]
  split
  next known =>
      constructor
      · exact .inr
      · rintro (rfl | inSet)
        · exact known
        · exact inSet
  next fresh => simp

/-- Insertion keeps the order. -/
theorem ascending_insert (byKey : ∀ b ∈ set, ByKey less key a b)
    (ascending : Ascending key set) : Ascending key (insert less a set) := by
  induction set with
  | nil => exact List.pairwise_singleton _ _
  | cons b rest inductionHypothesis =>
      obtain ⟨after, sorted⟩ := List.pairwise_cons.mp ascending
      obtain ⟨before_iff, after_iff⟩ := byKey b List.mem_cons_self
      have byKey' : ∀ c ∈ rest, ByKey less key a c :=
        fun c inRest => byKey c (List.mem_cons_of_mem _ inRest)
      rw [insert]
      split
      next before =>
          apply List.pairwise_cons.mpr ⟨fun c inSet => ?_, ascending⟩
          rcases List.mem_cons.mp inSet with rfl | inRest
          · exact before_iff.mp before
          · exact (before_iff.mp before).trans (after c inRest)
      next =>
          split
          next later =>
              apply List.pairwise_cons.mpr ⟨fun c inSet => ?_, inductionHypothesis byKey' sorted⟩
              rcases (mem_insert byKey' sorted).mp inSet with inRest | ⟨rfl, -⟩
              · exact after c inRest
              · exact after_iff.mp later
          next => exact ascending

/-- Every key is kept once. -/
theorem Ascending.nodup (ascending : Ascending key set) : (set.map key).Nodup :=
  List.pairwise_map.mpr (ascending.imp ne_of_lt)

end PaxosBus.Library.OrderedSet

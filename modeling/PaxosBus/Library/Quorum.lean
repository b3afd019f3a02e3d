import Mathlib.Data.Finset.Card
import Mathlib.Data.Finset.Range

/-!
# Quorum counting

Two sets of members of a group of `n` overlap by at least what their sizes
exceed `n` by. Everything a protocol infers from a quorum starts here.
-/

set_option autoImplicit false

namespace PaxosBus.Library

variable {n : Nat} {left right : Finset Nat}

/-- The sizes of two sets of members exceed the group by no more than their overlap. -/
theorem card_add_card_le (leftIn : left ⊆ Finset.range n) (rightIn : right ⊆ Finset.range n) :
    left.card + right.card ≤ n + (left ∩ right).card := by
  have union : (left ∪ right).card ≤ n := by
    calc (left ∪ right).card
        ≤ (Finset.range n).card := Finset.card_le_card (Finset.union_subset leftIn rightIn)
      _ = n := Finset.card_range n
  have counted := Finset.card_union_add_card_inter left right
  omega

/-- Disjoint sets of members fit into the group together. -/
theorem card_add_card_le_of_disjoint (leftIn : left ⊆ Finset.range n)
    (rightIn : right ⊆ Finset.range n) (apart : Disjoint left right) :
    left.card + right.card ≤ n := by
  have counted := card_add_card_le leftIn rightIn
  rwa [Finset.disjoint_iff_inter_eq_empty.mp apart, Finset.card_empty] at counted

/-- Two sets that are together larger than the group have a member in common. -/
theorem exists_common_member (leftIn : left ⊆ Finset.range n) (rightIn : right ⊆ Finset.range n)
    (large : n < left.card + right.card) : ∃ member, member ∈ left ∧ member ∈ right := by
  have counted := card_add_card_le leftIn rightIn
  have nonempty : (left ∩ right).Nonempty := by
    rw [← Finset.card_pos]
    omega
  obtain ⟨member, inBoth⟩ := nonempty
  exact ⟨member, Finset.mem_inter.mp inBoth⟩

end PaxosBus.Library

import Mathlib.Data.List.Basic
import Mathlib.Order.Basic

/-!
# Lists that ascend from one bound to another

The keys of a list ascend if each is greater than those before it, and all lie
above a first bound and not above a last one. Ascents compose where the bounds
meet, so what a process does step by step ascends as long as each step does.
-/

set_option autoImplicit false

namespace PaxosBus.Library

variable {Item Key : Type} [Preorder Key]

/-- The keys of the items ascend from above `first` up to `last`. -/
structure Ascends (key : Item → Key) (first : Key) (items : List Item) (last : Key) : Prop where
  le : first ≤ last
  increasing : items.Pairwise fun item later => key item < key later
  above : ∀ item ∈ items, first < key item
  below : ∀ item ∈ items, key item ≤ last

namespace Ascends

variable {key : Item → Key} {first middle last : Key} {items more : List Item} {item : Item}

/-- No items at all. -/
theorem nil (le : first ≤ last) : Ascends key first [] last :=
  ⟨le, .nil, fun _ none_ => (nomatch none_), fun _ none_ => nomatch none_⟩

/-- One item. -/
theorem single (above : first < key item) (below : key item ≤ last) :
    Ascends key first [item] last where
  le := above.le.trans below
  increasing := List.pairwise_singleton _ item
  above := by simpa using above
  below := by simpa using below

/-- One ascent after the other. -/
theorem trans (before : Ascends key first items middle) (after : Ascends key middle more last) :
    Ascends key first (items ++ more) last where
  le := before.le.trans after.le
  increasing := by
    apply List.pairwise_append.mpr ⟨before.increasing, after.increasing, _⟩
    intro item inItems later inMore
    exact (before.below item inItems).trans_lt (after.above later inMore)
  above item member := by
    rcases List.mem_append.mp member with inItems | inMore
    · exact before.above item inItems
    · exact before.le.trans_lt (after.above item inMore)
  below item member := by
    rcases List.mem_append.mp member with inItems | inMore
    · exact (before.below item inItems).trans after.le
    · exact after.below item inMore

end Ascends

end PaxosBus.Library

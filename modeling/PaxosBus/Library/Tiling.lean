import Mathlib.Data.List.Basic
import Mathlib.Data.List.Pairwise

/-!
# Ranges laid end to end

A sender that hands out the numbers after `start` in consecutive ranges, and may
hand out its last range again, lays tiles. Two tiles are the same range, or the
later one comes after the earlier one.
-/

set_option autoImplicit false

namespace PaxosBus.Library

variable {Item : Type} (first last : Item → Nat)

/-- Items of which each covers a range that starts right after the range of the one before it, or
is that item once more. They reach from `start` to `stop`. -/
inductive Tiles (start : Nat) : List Item → Nat → Prop where
  | nil : Tiles start [] start
  | next {items item stop} (before : Tiles start items stop) (adjacent : first item = stop + 1)
      (within : stop < last item) : Tiles start (items ++ [item]) (last item)
  | again {items item stop} (before : Tiles start (items ++ [item]) stop) :
      Tiles start (items ++ [item] ++ [item]) stop

namespace Tiles

variable {first last} {start stop count : Nat} {items : List Item} {item : Item}

/-- A new item, any number of times. -/
theorem append_next (before : Tiles first last start items stop)
    (adjacent : first item = stop + 1) (within : stop < last item) :
    Tiles first last start (items ++ List.replicate (count + 1) item) (last item) := by
  induction count with
  | zero => exact .next before adjacent within
  | succ count inductionHypothesis =>
      rw [List.replicate_succ', ← List.append_assoc] at inductionHypothesis
      rw [List.replicate_succ', List.replicate_succ', ← List.append_assoc, ← List.append_assoc]
      exact .again inductionHypothesis

/-- The latest item, any number of times. -/
theorem append_again (before : Tiles first last start items stop)
    (latest : items.getLast? = some item) :
    Tiles first last start (items ++ List.replicate count item) stop := by
  obtain ⟨front, rfl⟩ := List.getLast?_eq_some_iff.mp latest
  induction count with
  | zero => rwa [List.replicate_zero, List.append_nil]
  | succ count inductionHypothesis =>
      rw [List.replicate_succ', ← List.append_assoc]
      cases count with
      | zero =>
          rw [List.replicate_zero, List.append_nil] at inductionHypothesis ⊢
          exact .again inductionHypothesis
      | succ count =>
          rw [List.replicate_succ', ← List.append_assoc] at inductionHypothesis ⊢
          exact .again inductionHypothesis

/-- No item reaches beyond the end. -/
theorem last_le (tiles : Tiles first last start items stop) (member : item ∈ items) :
    last item ≤ stop := by
  induction tiles with
  | nil => cases member
  | next before _ within inductionHypothesis =>
      rcases List.mem_append.mp member with earlier | new
      · exact Nat.le_trans (inductionHypothesis earlier) (Nat.le_of_lt within)
      · obtain rfl := List.mem_singleton.mp new
        exact Nat.le_refl _
  | again before inductionHypothesis =>
      apply inductionHypothesis
      rcases List.mem_append.mp member with earlier | new
      · exact earlier
      · exact List.mem_append_right _ new

/-- Of two items the later one is the earlier one again, or comes after it. -/
theorem pairwise (tiles : Tiles first last start items stop) :
    items.Pairwise fun a b => a = b ∨ last a < first b := by
  induction tiles with
  | nil => exact .nil
  | next before adjacent _ inductionHypothesis =>
      apply List.pairwise_append.mpr
      refine ⟨inductionHypothesis, List.pairwise_singleton .., ?_⟩
      intro earlier member new inNew
      obtain rfl := List.mem_singleton.mp inNew
      have := before.last_le member
      exact .inr (by omega)
  | again before inductionHypothesis =>
      obtain ⟨-, -, apart⟩ := List.pairwise_append.mp inductionHypothesis
      apply List.pairwise_append.mpr
      refine ⟨inductionHypothesis, List.pairwise_singleton .., ?_⟩
      intro earlier member new inNew
      obtain rfl := List.mem_singleton.mp inNew
      rcases List.mem_append.mp member with before | same
      · exact apart earlier before new (List.mem_singleton_self new)
      · exact .inl (List.mem_singleton.mp same)

end Tiles

end PaxosBus.Library

import Mathlib.Data.Finset.Card
import Mathlib.Data.Finset.Range
import Mathlib.Data.Set.Insert
import Mathlib.Logic.Function.Basic
import Mathlib.Order.Bounds.Basic
import Mathlib.Order.Lattice
import Mathlib.Order.Preorder.Chain
import PaxosBus.Library.Quorum

/-!
# Members that only move up

Each member of a group moves up in an order, which need not be total. What one
member has held is a chain, but what two members have held may be incomparable.
What a quorum has held is comparable with what any other quorum has, because of
the member that has held both. So the least upper bound of certified positions
is one of them.
-/

set_option autoImplicit false

namespace PaxosBus.Library

variable {Position : Type} {n quorum member : Nat}

/-- The positions that each member has held. -/
abbrev Holdings (Position : Type) := Nat → Set Position

namespace Holdings

section

variable [Preorder Position] {held held' : Holdings Position} {position other : Position}

/-- No member has ever gone anywhere but up. -/
def Climbing (held : Holdings Position) : Prop := ∀ member, IsChain (· ≤ ·) (held member)

/-- Where a member is: it has held nothing that is not below. -/
def At (held : Holdings Position) (member : Nat) (position : Position) : Prop :=
  IsGreatest (held member) position

/-- A quorum of the group has held the position. -/
def Certified (held : Holdings Position) (n quorum : Nat) (position : Position) : Prop :=
  ∃ members ⊆ Finset.range n, quorum ≤ members.card ∧ ∀ member ∈ members, position ∈ held member

omit [Preorder Position] in
/-- A quorum stays one. -/
theorem Certified.mono (certified : held.Certified n quorum position)
    (more : ∀ member, held member ⊆ held' member) : held'.Certified n quorum position := by
  obtain ⟨members, inGroup, large, holders⟩ := certified
  exact ⟨members, inGroup, large, fun member inMembers => more member (holders member inMembers)⟩

/-- Any two quorums have a member in common, which has held one position after the other. -/
theorem Certified.comparable (certified : held.Certified n quorum position)
    (certified' : held.Certified n quorum other) (climbing : held.Climbing)
    (overlap : n < quorum + quorum) : position ≤ other ∨ other ≤ position := by
  obtain ⟨members, inGroup, large, holders⟩ := certified
  obtain ⟨members', inGroup', large', holders'⟩ := certified'
  obtain ⟨member, inMembers, inMembers'⟩ :=
    exists_common_member inGroup inGroup' (by omega)
  exact (climbing member).total (holders member inMembers) (holders' member inMembers')

/-- A member moves up, or stays where it is. -/
def move (held : Holdings Position) (member : Nat) (position : Position) : Holdings Position :=
  Function.update held member (insert position (held member))

omit [Preorder Position] in
/-- What was held before is not forgotten. -/
theorem subset_move (held : Holdings Position) (member : Nat) (position : Position) (other : Nat) :
    held other ⊆ held.move member position other := by
  unfold move
  rcases eq_or_ne other member with rfl | different
  · rw [Function.update_self]
    exact Set.subset_insert position _
  · rw [Function.update_of_ne different]

/-- The member is there then. -/
theorem At.move (at_ : held.At member other) (up : other ≤ position) :
    (held.move member position).At member position := by
  unfold Holdings.move At
  rw [Function.update_self]
  constructor
  · exact Set.mem_insert position _
  · intro earlier member_
    rcases Set.mem_insert_iff.mp member_ with rfl | before
    · exact le_rfl
    · exact (at_.2 before).trans up

/-- Moving up keeps everybody's positions comparable. -/
theorem Climbing.move (climbing : held.Climbing) (at_ : held.At member other)
    (up : other ≤ position) : (held.move member position).Climbing := by
  intro anyone
  unfold Holdings.move
  rcases eq_or_ne anyone member with rfl | different
  · rw [Function.update_self]
    apply (climbing anyone).insert
    intro earlier member_ _
    exact .inr ((at_.2 member_).trans up)
  · rw [Function.update_of_ne different]
    exact climbing anyone

end

end Holdings

variable [SemilatticeSup Position]

/-- The least upper bound of positions any two of which are comparable is one of them. -/
theorem isGreatest_foldl_sup {first : Position} {rest : List Position}
    (comparable : ∀ position ∈ first :: rest, ∀ other ∈ first :: rest,
      position ≤ other ∨ other ≤ position) :
    IsGreatest {position | position ∈ first :: rest} (rest.foldl (· ⊔ ·) first) := by
  induction rest generalizing first with
  | nil => simp
  | cons next rest inductionHypothesis =>
      have sup : first ⊔ next = first ∨ first ⊔ next = next := by
        rcases comparable first (by simp) next (by simp) with below | above
        · exact .inr (sup_eq_right.mpr below)
        · exact .inl (sup_eq_left.mpr above)
      have inside : ∀ position ∈ (first ⊔ next) :: rest, position ∈ first :: next :: rest := by
        intro position member
        rcases List.mem_cons.mp member with rfl | inRest
        · rcases sup with same | same <;> simp [same]
        · simp [inRest]
      obtain ⟨found, bound⟩ := inductionHypothesis fun position member other member' =>
        comparable position (inside position member) other (inside other member')
      constructor
      · exact inside _ found
      · intro position member
        have top : first ⊔ next ≤ rest.foldl (· ⊔ ·) (first ⊔ next) := bound List.mem_cons_self
        rcases List.mem_cons.mp member with rfl | member
        · exact le_sup_left.trans top
        · rcases List.mem_cons.mp member with rfl | inRest
          · exact le_sup_right.trans top
          · exact bound (List.mem_cons_of_mem _ inRest)

end PaxosBus.Library

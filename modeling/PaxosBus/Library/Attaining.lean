import Mathlib.Logic.Relation

/-!
# What can be brought about

A goal is attainable if, from every state of an invariant, some steps lead to a
state where it holds: it may never come about, but it is never out of reach. To
attain a bound it is enough to be able to raise a measure; to attain several
goals it is enough to attain each, if a goal that has been attained is not lost.
-/

set_option autoImplicit false

namespace PaxosBus.Library

universe u v

variable {State : Type u} {step : State → State → Prop} {Inv Goal : State → Prop}

/-- From every state of the invariant, some steps lead to the goal. -/
def Attainable (step : State → State → Prop) (Inv Goal : State → Prop) : Prop :=
  ∀ state, Inv state → ∃ later, Relation.ReflTransGen step state later ∧ Goal later

/-- No step from a state of the invariant loses the property. -/
def Lasting (step : State → State → Prop) (Inv Property : State → Prop) : Prop :=
  ∀ state next, Inv state → step state next → Property state → Property next

/-- An invariant holds after any number of steps. -/
theorem Lasting.invariant (lasting : Lasting step Inv Inv) {state later : State}
    (steps : Relation.ReflTransGen step state later) (holds : Inv state) : Inv later := by
  induction steps with
  | refl => exact holds
  | tail _ transition inductionHypothesis =>
      exact lasting _ _ inductionHypothesis transition inductionHypothesis

/-- What no step loses is not lost after any number of steps. -/
theorem Lasting.steps (lasting : Lasting step Inv Goal) (invariant : Lasting step Inv Inv)
    {state later : State} (steps : Relation.ReflTransGen step state later) (holds : Inv state)
    (goal : Goal state) : Goal later := by
  induction steps with
  | refl => exact goal
  | tail prior transition inductionHypothesis =>
      exact lasting _ _ (invariant.invariant prior holds) transition inductionHypothesis

namespace Attainable

/-- A measure that can be raised as long as it is within a bound can be raised above it. -/
theorem of_raises (invariant : Lasting step Inv Inv) (measure : State → Nat) (bound : Nat)
    (raises : ∀ state, Inv state → measure state ≤ bound →
      ∃ later, Relation.ReflTransGen step state later ∧ measure state < measure later) :
    Attainable step Inv fun state => bound < measure state := by
  intro state
  induction missing : bound + 1 - measure state using Nat.strongRecOn generalizing state with
  | _ _ inductionHypothesis =>
      intro holds
      by_cases within : measure state ≤ bound
      · obtain ⟨next, steps, raised⟩ := raises state holds within
        obtain ⟨later, onward, above⟩ :=
          inductionHypothesis (bound + 1 - measure next) (by omega) next rfl
            (invariant.invariant steps holds)
        exact ⟨later, steps.trans onward, above⟩
      · exact ⟨state, .refl, Nat.lt_of_not_le within⟩

/-- Lasting goals can be attained one after the other. -/
theorem forall_mem {Index : Type v} {Goals : Index → State → Prop}
    (invariant : Lasting step Inv Inv) (lasting : ∀ index, Lasting step Inv (Goals index)) (indices : List Index)
    (each : ∀ index ∈ indices, Attainable step Inv (Goals index)) :
    Attainable step Inv fun state => ∀ index ∈ indices, Goals index state := by
  induction indices with
  | nil => exact fun state _ => ⟨state, .refl, nofun⟩
  | cons index rest inductionHypothesis =>
      intro state holds
      obtain ⟨middle, before, all⟩ :=
        inductionHypothesis (fun other member => each other (List.mem_cons_of_mem _ member)) state
          holds
      have between := invariant.invariant before holds
      obtain ⟨later, after, last⟩ := each index List.mem_cons_self middle between
      refine ⟨later, before.trans after, ?_⟩
      intro other member
      rcases List.mem_cons.mp member with rfl | inRest
      · exact last
      · exact (lasting other).steps invariant after between (all other inRest)

/-- A goal is attainable if another one is, from which it can be attained. -/
theorem trans {Middle : State → Prop} (first : Attainable step Inv Middle)
    (invariant : Lasting step Inv Inv)
    (second : Attainable step (fun state => Inv state ∧ Middle state) Goal) :
    Attainable step Inv Goal := by
  intro state holds
  obtain ⟨middle, before, reached⟩ := first state holds
  obtain ⟨later, after, goal⟩ := second middle ⟨invariant.invariant before holds, reached⟩
  exact ⟨later, before.trans after, goal⟩

end Attainable

end PaxosBus.Library

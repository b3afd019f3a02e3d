import PaxosBus.Library.Transition

/-!
# Simulation of one transition system by another

A `Simulation` relates the states of a system to those of a more abstract one,
so that every admitted step of the first is matched by zero or more steps of the
second. What the abstract system can never reach is then never reached by the
other one either; `of_reachable` is the only induction over runs.
-/

set_option autoImplicit false

namespace PaxosBus.Library

universe u v u' v'

namespace TransitionSystem

variable {State : Type u} {Action : Type v} {Abstract : Type u'} {Move : Type v'}

/-- Every step that `guard` admits is matched by steps of the abstract system. -/
structure Simulation (concrete : TransitionSystem State Action) (guard : State → Action → Prop)
    (abstract : TransitionSystem Abstract Move) (Related : State → Abstract → Prop) : Prop where
  initial : ∀ state, concrete.Initial state →
    ∃ image, abstract.Initial image ∧ Related state image
  matched : ∀ {state image action next}, Related state image → guard state action →
    concrete.step state action = some next →
      ∃ moves image', abstract.Steps unguarded image moves image' ∧ Related next image'

variable {concrete : TransitionSystem State Action} {guard : State → Action → Prop}
  {abstract : TransitionSystem Abstract Move} {Related : State → Abstract → Prop}

/-- Whatever is reached is related to something that the abstract system reaches. -/
theorem Simulation.of_reachable (simulation : concrete.Simulation guard abstract Related)
    {state : State} (reachable : concrete.Reachable guard state) :
    ∃ image, abstract.Reachable unguarded image ∧ Related state image := by
  obtain ⟨first, actions, valid, steps⟩ := reachable
  induction steps with
  | refl =>
      obtain ⟨image, initial, related⟩ := simulation.initial _ valid
      exact ⟨image, .initial initial, related⟩
  | step _ admitted transition inductionHypothesis =>
      obtain ⟨image, reached, related⟩ := inductionHypothesis
      obtain ⟨moves, image', steps, related'⟩ := simulation.matched related admitted transition
      exact ⟨image', reached.steps steps, related'⟩

/-- One step as a run. -/
theorem Steps.single {state next : Abstract} {move : Move}
    (transition : abstract.step state move = some next) :
    abstract.Steps unguarded state [move] next :=
  Steps.step .refl trivial transition

end TransitionSystem

end PaxosBus.Library

import Mathlib.Data.List.Basic
import Mathlib.Logic.Basic

/-!
# Guarded runs of a transition system

A `TransitionSystem` computes its successor from the action the environment
chooses, and refuses an action that is not enabled. `Steps` keeps the actions of
a finite suffix, each taken in a state its `guard` admits, so that one relation
serves both the unrestricted runs and the runs that stay clear of one branch of
the code. An `Invariant` needs one lemma about a single step; `of_reachable`
is the only induction over runs.
-/

set_option autoImplicit false

namespace PaxosBus.Library

universe u v

/-- A system whose step is a partial function of the state and the action. -/
structure TransitionSystem (State : Type u) (Action : Type v) where
  Initial : State → Prop
  step : State → Action → Option State

namespace TransitionSystem

variable {State : Type u} {Action : Type v}

/-- The guard which admits every step. -/
def unguarded : State → Action → Prop := fun _ _ => True

/-- Zero or more steps, each from a state and action that `guard` admits. -/
inductive Steps (system : TransitionSystem State Action) (guard : State → Action → Prop) :
    State → List Action → State → Prop where
  | refl {state} : Steps system guard state [] state
  | step {state actions current action next}
      (prior : Steps system guard state actions current)
      (admitted : guard current action)
      (transition : system.step current action = some next) :
      Steps system guard state (actions ++ [action]) next

/-- A state at the end of some guarded run from an initial state. -/
def Reachable (system : TransitionSystem State Action) (guard : State → Action → Prop)
    (state : State) : Prop :=
  ∃ initial actions, system.Initial initial ∧ system.Steps guard initial actions state

variable {system : TransitionSystem State Action} {guard : State → Action → Prop}

/-- Two suffixes that meet compose. -/
theorem Steps.trans {first middle last : State} {before after : List Action}
    (left : system.Steps guard first before middle)
    (right : system.Steps guard middle after last) :
    system.Steps guard first (before ++ after) last := by
  induction right with
  | refl => simpa using left
  | step _ admitted transition inductionHypothesis =>
      simpa [List.append_assoc] using
        Steps.step inductionHypothesis admitted transition

/-- A suffix that keeps to a guard keeps to a weaker one. -/
theorem Steps.imp {weaker : State → Action → Prop} {state next : State} {actions : List Action}
    (steps : system.Steps guard state actions next)
    (admits : ∀ state action, guard state action → weaker state action) :
    system.Steps weaker state actions next := by
  induction steps with
  | refl => exact .refl
  | step _ admitted transition inductionHypothesis =>
      exact .step inductionHypothesis (admits _ _ admitted) transition

/-- A suffix keeps to a stronger guard if its actions meet in every state what is added. -/
theorem Steps.of_forall {stronger : State → Action → Prop} {state next : State}
    {actions : List Action} (steps : system.Steps guard state actions next)
    (admits : ∀ action ∈ actions, ∀ state, guard state action → stronger state action) :
    system.Steps stronger state actions next := by
  induction steps with
  | refl => exact .refl
  | step _ admitted transition inductionHypothesis =>
      apply Steps.step _ (admits _ (by simp) _ admitted) transition
      exact inductionHypothesis fun action member =>
        admits action (List.mem_append_left _ member)

/-- What is reached under a guard is reached under a weaker one. -/
theorem Reachable.imp {weaker : State → Action → Prop} {state : State}
    (reachable : system.Reachable guard state)
    (admits : ∀ state action, guard state action → weaker state action) :
    system.Reachable weaker state := by
  obtain ⟨initial, actions, valid, steps⟩ := reachable
  exact ⟨initial, actions, valid, steps.imp admits⟩

/-- Initial states are reachable. -/
theorem Reachable.initial {state : State} (initial : system.Initial state) :
    system.Reachable guard state :=
  ⟨state, [], initial, .refl⟩

/-- Whatever follows a reachable state is reachable. -/
theorem Reachable.steps {state next : State} {actions : List Action}
    (reachable : system.Reachable guard state)
    (suffix : system.Steps guard state actions next) : system.Reachable guard next := by
  obtain ⟨initial, before, valid, steps⟩ := reachable
  exact ⟨initial, before ++ actions, valid, steps.trans suffix⟩

/-- An inductive invariant of the runs that keep to `guard`. -/
structure Invariant (system : TransitionSystem State Action) (guard : State → Action → Prop)
    (Inv : State → Prop) : Prop where
  initial : ∀ state, system.Initial state → Inv state
  preserved : ∀ {state action next}, Inv state → guard state action →
    system.step state action = some next → Inv next

/-- An invariant holds along every guarded suffix from a state where it holds. -/
theorem Invariant.of_steps {Inv : State → Prop} (invariant : system.Invariant guard Inv)
    {state next : State} {actions : List Action} (holds : Inv state)
    (steps : system.Steps guard state actions next) : Inv next := by
  induction steps with
  | refl => exact holds
  | step _ admitted transition inductionHypothesis =>
      exact invariant.preserved inductionHypothesis admitted transition

/-- An invariant holds in every state that a guarded run reaches. -/
theorem Invariant.of_reachable {Inv : State → Prop} (invariant : system.Invariant guard Inv)
    {state : State} (reachable : system.Reachable guard state) : Inv state := by
  obtain ⟨initial, actions, valid, steps⟩ := reachable
  exact invariant.of_steps (invariant.initial initial valid) steps

instance (state : State) (action : Action) : Decidable (unguarded state action) :=
  inferInstanceAs (Decidable True)

/-- Execute a list of actions, refusing as soon as one is not enabled or not admitted. -/
def run (system : TransitionSystem State Action) (guard : State → Action → Prop)
    [∀ state action, Decidable (guard state action)] (state : State) :
    List Action → Option State
  | [] => some state
  | action :: rest =>
    if guard state action then
      (system.step state action).bind fun next => system.run guard next rest
    else
      none

variable [∀ state action, Decidable (guard state action)]

/-- An execution that is not refused is a guarded suffix. -/
theorem steps_of_run {state final : State} {actions : List Action}
    (executed : system.run guard state actions = some final) :
    system.Steps guard state actions final := by
  induction actions generalizing state with
  | nil =>
      have same : state = final := by simpa [run] using executed
      exact same ▸ .refl
  | cons action rest inductionHypothesis =>
      by_cases admitted : guard state action
      · simp only [run, admitted, if_true] at executed
        obtain ⟨next, transition, remaining⟩ := Option.bind_eq_some_iff.mp executed
        exact (Steps.step .refl admitted transition).trans (inductionHypothesis remaining)
      · simp [run, admitted] at executed

/-- A property that an execution from an initial state ends in holds of a reachable state. -/
theorem exists_reachable_of_run (system : TransitionSystem State Action)
    (guard : State → Action → Prop) [∀ state action, Decidable (guard state action)]
    (Property : State → Bool) {initial : State}
    (actions : List Action) (valid : system.Initial initial)
    (executed : (system.run guard initial actions).any Property = true) :
    ∃ state, system.Reachable guard state ∧ Property state = true := by
  obtain ⟨state, final, holds⟩ := (Option.any_eq_true _ _).mp executed
  exact ⟨state, ⟨initial, actions, valid, steps_of_run final⟩, holds⟩

end TransitionSystem

end PaxosBus.Library

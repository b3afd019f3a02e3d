import Mathlib.Data.List.Induction

/-!
# Properties that a harmless step keeps

A step is a partial function of the state and an action, and a sequence of actions
is folded over the state. Where a property survives a step exactly when the step is
harmless in the state before it, the property holds all along a sequence exactly
when every step of the sequence is harmless.
-/

set_option autoImplicit false

namespace PaxosBus.Library

universe u v

variable {State : Type u} {Action : Type v}

/-- Take the actions one after the other, as long as each of them can be taken. -/
def runAll (step : State → Action → Option State) (state : State) (actions : List Action) :
    Option State :=
  actions.foldlM step state

/-- The property holds after any first part of the actions. -/
def Always (step : State → Action → Option State) (Good : State → Prop) (state : State)
    (actions : List Action) : Prop :=
  ∀ before rest, actions = before ++ rest →
    ∀ middle, runAll step state before = some middle → Good middle

/-- Every action is harmless in the state in which it is taken. -/
def Harmlessly (step : State → Action → Option State) (Harmless : State → Action → Prop)
    (state : State) (actions : List Action) : Prop :=
  ∀ before action rest, actions = before ++ action :: rest →
    ∀ middle, runAll step state before = some middle → Harmless middle action

variable {step : State → Action → Option State} {state final : State} {actions : List Action}

theorem runAll_cons (action : Action) (rest : List Action) :
    runAll step state (action :: rest) =
      (step state action).bind fun next => runAll step next rest :=
  List.foldlM_cons

theorem runAll_append (before rest : List Action) :
    runAll step state (before ++ rest) =
      (runAll step state before).bind fun middle => runAll step middle rest :=
  List.foldlM_append

theorem runAll_concat (before : List Action) (action : Action) :
    runAll step state (before ++ [action]) =
      (runAll step state before).bind fun middle => step middle action := by
  rw [runAll_append]
  apply Option.bind_congr
  intro middle _
  rw [runAll_cons]
  exact Option.bind_fun_some _

section Harmlessly

variable {Harmless : State → Action → Prop} {action : Action} {next : State} {rest : List Action}

theorem Harmlessly.nil : Harmlessly step Harmless state [] := by
  intro before action rest split_
  simp at split_

/-- A harmless action and then the others. -/
theorem Harmlessly.cons (harmless : Harmless state action) (taken : step state action = some next)
    (after : Harmlessly step Harmless next rest) :
    Harmlessly step Harmless state (action :: rest) := by
  intro before other others split_ middle ran
  cases before with
  | nil =>
      obtain rfl := Option.some.inj ran
      rwa [← (List.cons.inj split_).1]
  | cons first earlier =>
      obtain ⟨rfl, split'⟩ := List.cons.inj split_
      rw [runAll_cons, taken] at ran
      exact after earlier other others split' middle ran

end Harmlessly

/-- What every step keeps, every sequence keeps. -/
theorem runAll_induction {Inv : State → Prop}
    (keeps : ∀ {state action next}, Inv state → step state action = some next → Inv next)
    (holds : Inv state) (ran : runAll step state actions = some final) : Inv final := by
  induction actions generalizing state with
  | nil =>
      obtain rfl := Option.some.inj ran
      exact holds
  | cons action rest inductionHypothesis =>
      rw [runAll_cons] at ran
      obtain ⟨next, transition, ran⟩ := Option.bind_eq_some_iff.mp ran
      exact inductionHypothesis (keeps holds transition) ran

variable {Inv Good : State → Prop} {Harmless : State → Action → Prop}

/-- Harmless steps keep the property. -/
theorem good_of_harmlessly
    (keeps : ∀ {state action next}, Inv state → step state action = some next → Inv next)
    (exactly : ∀ {state action next}, Inv state → Good state → step state action = some next →
      (Good next ↔ Harmless state action))
    (holds : Inv state) (good : Good state) (harmless : Harmlessly step Harmless state actions)
    (ran : runAll step state actions = some final) : Good final := by
  induction actions using List.reverseRecOn generalizing final with
  | nil =>
      obtain rfl := Option.some.inj ran
      exact good
  | append_singleton before action inductionHypothesis =>
      rw [runAll_concat] at ran
      obtain ⟨middle, ran, transition⟩ := Option.bind_eq_some_iff.mp ran
      have goodBefore : Good middle := by
        apply inductionHypothesis _ ran
        intro earlier action' rest split_
        apply harmless earlier action' (rest ++ [action])
        rw [split_, List.append_assoc, List.cons_append]
      apply (exactly (runAll_induction keeps holds ran) goodBefore transition).mpr
      exact harmless before action [] rfl middle ran

/-- The property holds all along a sequence exactly when every step is harmless. -/
theorem always_iff_harmlessly
    (keeps : ∀ {state action next}, Inv state → step state action = some next → Inv next)
    (exactly : ∀ {state action next}, Inv state → Good state → step state action = some next →
      (Good next ↔ Harmless state action))
    (holds : Inv state) (good : Good state) (ran : runAll step state actions = some final) :
    Always step Good state actions ↔ Harmlessly step Harmless state actions := by
  constructor
  · intro always before action rest split_ middle ranBefore
    rw [split_, runAll_append, ranBefore, Option.bind_some, runAll_cons] at ran
    obtain ⟨next, transition, -⟩ := Option.bind_eq_some_iff.mp ran
    have goodBefore := always before (action :: rest) split_ middle ranBefore
    apply (exactly (runAll_induction keeps holds ranBefore) goodBefore transition).mp
    apply always (before ++ [action]) rest (by simp [split_])
    rw [runAll_concat, ranBefore, Option.bind_some, transition]
  · intro harmless before rest split_ middle ranBefore
    apply good_of_harmlessly keeps exactly holds good _ ranBefore
    intro earlier action rest' split'
    apply harmless earlier action (rest' ++ rest)
    rw [split_, split', List.append_assoc, List.cons_append]

end PaxosBus.Library

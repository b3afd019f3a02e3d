import PaxosBus.Library.Transition

/-!
# Runs that keep a record

A law may speak of what a process has been through, which its state need not
show. `recording` adds to a system the list of all that its steps have noted, in
order. The record neither forbids a step nor changes one.
-/

set_option autoImplicit false

namespace PaxosBus.Library

universe u v w

namespace TransitionSystem

variable {State : Type u} {Action : Type v} {Note : Type w}

/-- The system whose every step adds what it notes to a record. -/
def recording (system : TransitionSystem State Action) (note : State → Action → List Note) :
    TransitionSystem (State × List Note) Action where
  Initial recorded := system.Initial recorded.1 ∧ recorded.2 = []
  step recorded action :=
    (system.step recorded.1 action).map fun next => (next, recorded.2 ++ note recorded.1 action)

variable {system : TransitionSystem State Action} {note : State → Action → List Note}

/-- A recorded step is a step, with what it notes added to the record. -/
theorem step_recording {recorded next : State × List Note} {action : Action} :
    (system.recording note).step recorded action = some next ↔
      system.step recorded.1 action = some next.1 ∧
        next.2 = recorded.2 ++ note recorded.1 action := by
  constructor
  · intro transition
    obtain ⟨state, stepped, rfl⟩ := Option.map_eq_some_iff.mp transition
    exact ⟨stepped, rfl⟩
  · rintro ⟨stepped, noted⟩
    apply Option.map_eq_some_iff.mpr
    exact ⟨next.1, stepped, Prod.ext rfl noted.symm⟩

end TransitionSystem

end PaxosBus.Library

import PaxosBus.Library.Simulation
import Mathlib.Data.List.Nodup

/-!
# One copy of an object

What a replicated service is for: its clients see what they would see if there
were one copy of the object that takes their calls one at a time. A call is
invoked, applied at one moment between its invocation and its return, and
returns what the object answers after the calls that were applied before it. A
caller has one call outstanding at a time.

A service whose history is that of an `Object` is linearizable: `Lawful` says
what that means of the history itself.
-/

set_option autoImplicit false

namespace PaxosBus.Library

universe u v w

/-- What an onlooker sees of a call. -/
inductive Event (Call : Type u) (Result : Type v) where
  | invoked (call : Call)
  | returned (call : Call) (result : Result)

/-- The kind of an object: who makes a call, and what it returns after others. -/
structure ObjectKind (Caller : Type w) (Call : Type u) (Result : Type v) where
  caller : Call → Caller
  answer : List Call → Call → Result

/-- An object: the calls that have been applied, in order, and what has been seen. -/
structure Object (Call : Type u) (Result : Type v) where
  applied : List Call := []
  history : List (Event Call Result) := []

/-- What can happen next: a call is invoked or applied, or the call that was applied at some
place returns. -/
inductive ObjectMove (Call : Type u) where
  | invoke (call : Call)
  | apply (call : Call)
  | complete (index : Nat)

variable {Caller : Type w} {Call : Type u} {Result : Type v}

namespace Event

/-- The call has returned. -/
def Returned (history : List (Event Call Result)) (call : Call) : Prop :=
  ∃ result, Event.returned call result ∈ history

/-- The call has been invoked and has not returned. -/
def Outstanding (history : List (Event Call Result)) (call : Call) : Prop :=
  Event.invoked call ∈ history ∧ ¬ Returned history call

theorem returned_append {history : List (Event Call Result)} {event : Event Call Result}
    {call : Call} : Returned (history ++ [event]) call ↔
      Returned history call ∨ ∃ result, event = .returned call result := by
  constructor
  · rintro ⟨result, member⟩
    rcases List.mem_append.mp member with before | new
    · exact .inl ⟨result, before⟩
    · exact .inr ⟨result, (List.mem_singleton.mp new).symm⟩
  · rintro (⟨result, before⟩ | ⟨result, rfl⟩)
    · exact ⟨result, List.mem_append_left _ before⟩
    · exact ⟨result, List.mem_append_right _ (List.mem_singleton_self _)⟩

/-- The call that an event is about. -/
def call : Event Call Result → Call
  | .invoked call => call
  | .returned call _ => call

/-- An event of one call changes nothing for another one. -/
theorem outstanding_append_of_ne {history : List (Event Call Result)} {event : Event Call Result}
    {call : Call} (other : event.call ≠ call) :
    Outstanding (history ++ [event]) call ↔ Outstanding history call := by
  have same : Event.invoked call ∈ history ++ [event] ↔ Event.invoked call ∈ history := by
    rw [List.mem_append, List.mem_singleton]
    constructor
    · rintro (before | rfl)
      · exact before
      · exact absurd rfl other
    · exact .inl
  have answered : Returned (history ++ [event]) call ↔ Returned history call := by
    rw [returned_append]
    constructor
    · rintro (before | ⟨result, rfl⟩)
      · exact before
      · exact absurd rfl other
    · exact .inl
  unfold Outstanding
  rw [same, answered]

/-- A call that is invoked is outstanding. -/
theorem outstanding_invoked {history : List (Event Call Result)} {call : Call}
    (unanswered : ¬ Returned history call) :
    Outstanding (history ++ [Event.invoked call]) call := by
  constructor
  · exact List.mem_append_right _ (List.mem_singleton_self _)
  · rw [returned_append]
    rintro (before | ⟨result, wrong⟩)
    · exact unanswered before
    · cases wrong

/-- A call that has returned is not outstanding. -/
theorem not_outstanding_returned {history : List (Event Call Result)} {call : Call}
    {result : Result} : ¬ Outstanding (history ++ [Event.returned call result]) call := by
  rintro ⟨-, unanswered⟩
  exact unanswered (returned_append.mpr (.inr ⟨result, rfl⟩))

end Event

namespace Object

variable (kind : ObjectKind Caller Call Result)

open Classical in
/-- One step of the object; a move that is not enabled is refused. -/
noncomputable def step (o : Object Call Result) : ObjectMove Call → Option (Object Call Result)
  | .invoke call =>
    if Event.invoked call ∉ o.history ∧
        ∀ other, kind.caller other = kind.caller call → ¬ Event.Outstanding o.history other then
      some { o with history := o.history ++ [.invoked call] }
    else
      none
  | .apply call =>
    if Event.invoked call ∈ o.history ∧ call ∉ o.applied then
      some { o with applied := o.applied ++ [call] }
    else
      none
  | .complete index =>
    o.applied[index]?.bind fun call =>
      if Event.Returned o.history call then
        none
      else
        some { o with
          history := o.history ++ [.returned call (kind.answer (o.applied.take index) call)] }

/-- The object as a transition system. -/
noncomputable def system : TransitionSystem (Object Call Result) (ObjectMove Call) where
  Initial o := o = {}
  step := step kind

theorem step_invoke {o : Object Call Result} {call : Call} (new : Event.invoked call ∉ o.history)
    (alone : ∀ other, kind.caller other = kind.caller call →
      ¬ Event.Outstanding o.history other) :
    (system kind).step o (.invoke call) =
      some { o with history := o.history ++ [.invoked call] } :=
  if_pos ⟨new, alone⟩

theorem step_apply {o : Object Call Result} {call : Call} (asked : Event.invoked call ∈ o.history)
    (new : call ∉ o.applied) :
    (system kind).step o (.apply call) = some { o with applied := o.applied ++ [call] } :=
  if_pos ⟨asked, new⟩

theorem step_complete {o : Object Call Result} {call : Call} {index : Nat}
    (here : o.applied[index]? = some call) (unanswered : ¬ Event.Returned o.history call) :
    (system kind).step o (.complete index) = some { o with
      history := o.history ++ [.returned call (kind.answer (o.applied.take index) call)] } := by
  show (o.applied[index]?.bind _) = _
  rw [here]
  exact if_neg unanswered

variable {kind}

/-- Calls can be applied one after the other. -/
theorem steps_apply {o : Object Call Result} {calls : List Call}
    (asked : ∀ call ∈ calls, Event.invoked call ∈ o.history)
    (new : (o.applied ++ calls).Nodup) :
    (system kind).Steps TransitionSystem.unguarded o (calls.map .apply)
      { o with applied := o.applied ++ calls } := by
  induction calls generalizing o with
  | nil => simpa using TransitionSystem.Steps.refl
  | cons call rest inductionHypothesis =>
      have fresh : call ∉ o.applied := fun before =>
        List.disjoint_of_nodup_append new before List.mem_cons_self
      have first := TransitionSystem.Steps.single
        (step_apply kind (asked call List.mem_cons_self) fresh)
      have later := @inductionHypothesis { o with applied := o.applied ++ [call] }
        (fun other inRest => asked other (List.mem_cons_of_mem _ inRest)) (by simpa using new)
      simpa using first.trans later

/-! ## What is seen of an object -/

/-- What one copy of an object shows its callers. -/
structure Lawful (kind : ObjectKind Caller Call Result) (o : Object Call Result) : Prop where
  /-- No call is applied twice. -/
  once : o.applied.Nodup
  /-- Only what has been invoked is applied. -/
  asked : ∀ call ∈ o.applied, Event.invoked call ∈ o.history
  /-- A call returns what the object answers after the calls that were applied before. -/
  result : ∀ call result, Event.returned call result ∈ o.history →
    ∃ index : Nat, o.applied[index]? = some call ∧ result = kind.answer (o.applied.take index) call
  /-- A call that returned before another one was invoked has been applied before it. -/
  realTime : ∀ (earlier later : Nat) (call : Call) (result : Result) (other : Call),
    o.history[earlier]? = some (Event.returned call result) →
    o.history[later]? = some (Event.invoked other) → earlier < later →
      ∀ place : Nat, o.applied[place]? = some other →
        ∃ before < place, o.applied[before]? = some call
  /-- A caller has one call outstanding at a time. -/
  sequential : ∀ call other, kind.caller call = kind.caller other →
    Event.Outstanding o.history call → Event.Outstanding o.history other → call = other
  /-- No call is invoked twice. -/
  invokedOnce : ∀ (first second : Nat) (call : Call),
    o.history[first]? = some (Event.invoked call) →
    o.history[second]? = some (Event.invoked call) → first = second
  /-- No call returns twice. -/
  returnedOnce : ∀ (first second : Nat) (call : Call) (result result' : Result),
    o.history[first]? = some (Event.returned call result) →
    o.history[second]? = some (Event.returned call result') → first = second

/-- Where an event stands that is in a history with one more at its end. -/
theorem getElem?_history_append {history : List (Event Call Result)} {new event : Event Call Result}
    {index : Nat} (here : (history ++ [new])[index]? = some event) :
    history[index]? = some event ∨ index = history.length ∧ event = new := by
  rcases Nat.lt_trichotomy index history.length with before | rfl | after
  · rw [List.getElem?_append_left before] at here
    exact .inl here
  · rw [List.getElem?_concat_length] at here
    exact .inr ⟨rfl, (Option.some.inj here).symm⟩
  · rw [List.getElem?_eq_none (by simp; omega)] at here
    cases here

variable {o : Object Call Result}

/-- An object that nobody has used is lawful. -/
theorem lawful_initial : Lawful kind ({} : Object Call Result) where
  once := List.nodup_nil
  asked := fun _ member => by cases member
  result := fun _ _ member => by cases member
  realTime := fun _ _ _ _ _ here => by cases here
  sequential := fun _ _ _ outstanding => by cases outstanding.1
  invokedOnce := fun _ _ _ here => by cases here
  returnedOnce := fun _ _ _ _ _ here => by cases here

/-- Invoking a call keeps an object lawful. -/
theorem Lawful.invoke (lawful : Lawful kind o) {call : Call}
    (new : Event.invoked call ∉ o.history)
    (alone : ∀ other, kind.caller other = kind.caller call →
      ¬ Event.Outstanding o.history other) :
    Lawful kind { o with history := o.history ++ [Event.invoked call] } where
  once := lawful.once
  asked := fun other member => List.mem_append_left _ (lawful.asked other member)
  result := by
    intro other result member
    rcases List.mem_append.mp member with before | now
    · exact lawful.result other result before
    · cases List.mem_singleton.mp now
  realTime := by
    intro earlier later other result last returned invoked before place applied
    rcases getElem?_history_append returned with returned | ⟨-, wrong⟩
    · rcases getElem?_history_append invoked with invoked | ⟨-, same⟩
      · exact lawful.realTime earlier later other result last returned invoked before place applied
      · -- what has just been invoked is not applied yet
        cases same
        exact absurd (lawful.asked _ (List.mem_of_getElem? applied)) new
    · cases wrong
  sequential := by
    have old : ∀ other, other ≠ call →
        Event.Outstanding (o.history ++ [Event.invoked call]) other →
          Event.Outstanding o.history other :=
      fun other different => (Event.outstanding_append_of_ne (Ne.symm different)).mp
    intro first second same outstanding outstanding'
    by_cases isFirst : first = call
    · by_cases isSecond : second = call
      · exact isFirst.trans isSecond.symm
      · subst isFirst
        exact absurd (old second isSecond outstanding') (alone second same.symm)
    · by_cases isSecond : second = call
      · subst isSecond
        exact absurd (old first isFirst outstanding) (alone first same)
      · exact lawful.sequential first second same (old first isFirst outstanding)
          (old second isSecond outstanding')
  invokedOnce := by
    intro first second other here here'
    rcases getElem?_history_append here with before | ⟨rfl, same⟩
    · rcases getElem?_history_append here' with before' | ⟨-, same⟩
      · exact lawful.invokedOnce first second other before before'
      · cases same
        exact absurd (List.mem_of_getElem? before) new
    · rcases getElem?_history_append here' with before' | ⟨rfl, -⟩
      · cases same
        exact absurd (List.mem_of_getElem? before') new
      · rfl
  returnedOnce := by
    intro first second other result result' here here'
    rcases getElem?_history_append here with before | ⟨-, wrong⟩
    · rcases getElem?_history_append here' with before' | ⟨-, wrong⟩
      · exact lawful.returnedOnce first second other result result' before before'
      · cases wrong
    · cases wrong

/-- Applying a call keeps an object lawful. -/
theorem Lawful.apply (lawful : Lawful kind o) {call : Call}
    (asked : Event.invoked call ∈ o.history) (new : call ∉ o.applied) :
    Lawful kind { o with applied := o.applied ++ [call] } where
  once := by
    rw [List.nodup_append_comm]
    exact List.nodup_cons.mpr ⟨new, lawful.once⟩
  asked := by
    intro other member
    rcases List.mem_append.mp member with before | now
    · exact lawful.asked other before
    · cases List.mem_singleton.mp now
      exact asked
  result := by
    intro other result member
    obtain ⟨index, here, answered⟩ := lawful.result other result member
    have inside := (List.getElem?_eq_some_iff.mp here).1
    refine ⟨index, ?_, ?_⟩
    · rw [List.getElem?_append_left inside]
      exact here
    · rw [List.take_append_of_le_length (Nat.le_of_lt inside)]
      exact answered
  realTime := by
    intro earlier later other result last returned invoked before place applied
    rcases Nat.lt_or_ge place o.applied.length with inside | beyond
    · rw [List.getElem?_append_left inside] at applied
      obtain ⟨index, less, here⟩ :=
        lawful.realTime earlier later other result last returned invoked before place applied
      refine ⟨index, less, ?_⟩
      rw [List.getElem?_append_left (Nat.lt_trans less inside)]
      exact here
    · -- what has returned was applied earlier than what is applied only now
      obtain ⟨index, here, -⟩ := lawful.result other result (List.mem_of_getElem? returned)
      have inside := (List.getElem?_eq_some_iff.mp here).1
      refine ⟨index, Nat.lt_of_lt_of_le inside beyond, ?_⟩
      rw [List.getElem?_append_left inside]
      exact here
  sequential := lawful.sequential
  invokedOnce := lawful.invokedOnce
  returnedOnce := lawful.returnedOnce

/-- The return of a call that has been applied keeps an object lawful. -/
theorem Lawful.complete (lawful : Lawful kind o) {call : Call} {index : Nat}
    (here : o.applied[index]? = some call) (unanswered : ¬ Event.Returned o.history call) :
    Lawful kind { o with
      history := o.history ++
        [Event.returned call (kind.answer (o.applied.take index) call)] } where
  once := lawful.once
  asked := fun other member => List.mem_append_left _ (lawful.asked other member)
  result := by
    intro other result member
    rcases List.mem_append.mp member with before | now
    · exact lawful.result other result before
    · cases List.mem_singleton.mp now
      exact ⟨index, here, rfl⟩
  realTime := by
    intro earlier later other result last returned invoked before place applied
    rcases getElem?_history_append invoked with invoked | ⟨-, wrong⟩
    · have inside := (List.getElem?_eq_some_iff.mp invoked).1
      rw [List.getElem?_append_left (Nat.lt_trans before inside)] at returned
      exact lawful.realTime earlier later other result last returned invoked before place applied
    · cases wrong
  sequential := by
    have old : ∀ other, Event.Outstanding (o.history ++
        [Event.returned call (kind.answer (o.applied.take index) call)]) other →
          Event.Outstanding o.history other := by
      intro other outstanding
      by_cases same : call = other
      · subst same
        exact absurd outstanding Event.not_outstanding_returned
      · have different : (Event.returned call (kind.answer (o.applied.take index) call)).call ≠
            other := same
        exact (Event.outstanding_append_of_ne different).mp outstanding
    intro first second same outstanding outstanding'
    exact lawful.sequential first second same (old first outstanding) (old second outstanding')
  invokedOnce := by
    intro first second other here here'
    rcases getElem?_history_append here with before | ⟨-, wrong⟩
    · rcases getElem?_history_append here' with before' | ⟨-, wrong⟩
      · exact lawful.invokedOnce first second other before before'
      · cases wrong
    · cases wrong
  returnedOnce := by
    intro first second other result result' here here'
    rcases getElem?_history_append here with before | ⟨rfl, same⟩
    · rcases getElem?_history_append here' with before' | ⟨-, same⟩
      · exact lawful.returnedOnce first second other result result' before before'
      · cases same
        exact absurd ⟨result, List.mem_of_getElem? before⟩ unanswered
    · rcases getElem?_history_append here' with before' | ⟨rfl, -⟩
      · cases same
        exact absurd ⟨result', List.mem_of_getElem? before'⟩ unanswered
      · rfl

/-- Whatever is done with an object, it is lawful. -/
theorem invariant_lawful (kind : ObjectKind Caller Call Result) :
    (system kind).Invariant TransitionSystem.unguarded (Lawful kind) where
  initial o initial := by
    obtain rfl : o = {} := initial
    exact lawful_initial
  preserved {o move next} lawful _ stepped := by
    cases move with
    | invoke call =>
        by_cases enabled : Event.invoked call ∉ o.history ∧
            ∀ other, kind.caller other = kind.caller call → ¬ Event.Outstanding o.history other
        · rw [step_invoke kind enabled.1 enabled.2] at stepped
          cases stepped
          exact lawful.invoke enabled.1 enabled.2
        · cases (if_neg enabled).symm.trans stepped
    | apply call =>
        by_cases enabled : Event.invoked call ∈ o.history ∧ call ∉ o.applied
        · rw [step_apply kind enabled.1 enabled.2] at stepped
          cases stepped
          exact lawful.apply enabled.1 enabled.2
        · cases (if_neg enabled).symm.trans stepped
    | complete index =>
        cases here : o.applied[index]? with
        | none =>
            have refused : (system kind).step o (.complete index) = none := by
              show (o.applied[index]?.bind _) = _
              rw [here]
              rfl
            cases refused.symm.trans stepped
        | some call =>
            by_cases answered : Event.Returned o.history call
            · have refused : (system kind).step o (.complete index) = none := by
                show (o.applied[index]?.bind _) = _
                rw [here]
                exact if_pos answered
              cases refused.symm.trans stepped
            · rw [step_complete kind here answered] at stepped
              cases stepped
              exact lawful.complete here answered

end Object

end PaxosBus.Library

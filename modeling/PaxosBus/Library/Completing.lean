import PaxosBus.Library.Handler

/-!
# Total correctness of handlers

`Logic.Meets` says what a handler may do until it ends or stops. A handler
completes if it also ends: no assertion fails on the way, everything it puts out
is valid in the final world, and the postcondition is met. As the process does
not stop, nothing has to be carried along but what the postconditions say. Each
construct has one rule again.
-/

set_option autoImplicit false

namespace PaxosBus.Library

variable {World State Output : Type} {α β : Type}

namespace Logic

variable (logic : Logic World State Output)

/-- A handler run in a state of a world ends in a value and meets a postcondition. -/
def Completes (handler : Handler State Output α) (world : World) (state : State)
    (Post : α → World → State → Prop) : Prop :=
  ∃ value final, (handler state).value = some value ∧ logic.Later world final ∧
    (∀ output ∈ (handler state).outputs, logic.Valid final output) ∧
    Post value final (handler state).state

variable {logic} {world : World} {state : State} {Post : α → World → State → Prop}

namespace Completes

/-- The postcondition can be weakened, also by what the move of the world gives. -/
theorem imp {handler : Handler State Output α} {Weaker : α → World → State → Prop}
    (completes : logic.Completes handler world state Post)
    (weaker : ∀ value final after, logic.Later world final → Post value final after →
      Weaker value final after) : logic.Completes handler world state Weaker := by
  obtain ⟨value, final, ended, later, valid, post⟩ := completes
  exact ⟨value, final, ended, later, valid, weaker value final _ later post⟩

theorem pure {value : α} (post : Post value world state) :
    logic.Completes (Pure.pure value : Handler State Output α) world state Post :=
  ⟨value, world, rfl, logic.refl world, fun _ none_ => (nomatch none_), post⟩

/-- Sequencing: the second part completes from wherever the first ends. -/
theorem bind {first : Handler State Output β} {next : β → Handler State Output α}
    (completes : logic.Completes first world state fun value middle after =>
      logic.Completes (next value) middle after Post) :
    logic.Completes (first >>= next) world state Post := by
  obtain ⟨value, middle, ended, forward, valid, post⟩ := completes
  obtain ⟨result, final, endedRest, onward, validRest, postRest⟩ := post
  have whole : first state = ⟨(first state).state, (first state).outputs, some value⟩ := by
    rw [← ended]
  have continued : (first >>= next) state = _ := Handler.bind_of_ended whole
  refine ⟨result, final, ?_, logic.trans forward onward, ?_, ?_⟩
  · rw [continued]
    exact endedRest
  · rw [continued]
    intro output inOutputs
    rcases List.mem_append.mp inOutputs with before | after
    · exact logic.mono onward (valid output before)
    · exact validRest output after
  · rw [continued]
    exact postRest

/-- A change of the state. -/
theorem modify {change : State → State} {Post : Unit → World → State → Prop}
    (post : Post () world (change state)) :
    logic.Completes (Handler.modify change : Handler State Output Unit) world state Post :=
  ⟨(), world, rfl, logic.refl world, fun _ none_ => (nomatch none_), post⟩

/-- An output that the world, moved forward, justifies. -/
theorem emit {output : Output} {Post : Unit → World → State → Prop} {next : World}
    (forward : logic.Later world next) (valid : logic.Valid next output)
    (post : Post () next state) :
    logic.Completes (Handler.emit output : Handler State Output Unit) world state Post := by
  refine ⟨(), next, rfl, forward, fun other single => ?_, post⟩
  obtain rfl : other = output := List.mem_singleton.mp single
  exact valid

theorem get_bind {next : State → Handler State Output α}
    (rest : logic.Completes (next state) world state Post) :
    logic.Completes (Handler.get >>= next) world state Post := by
  apply bind
  exact ⟨state, world, rfl, logic.refl world, fun _ none_ => (nomatch none_), rest⟩

theorem modify_bind {change : State → State} {next : Unit → Handler State Output α}
    (rest : logic.Completes (next ()) world (change state) Post) :
    logic.Completes (Handler.modify change >>= next) world state Post :=
  bind (modify rest)

/-- An assertion has to hold. -/
theorem require {condition : Prop} [Decidable condition] {Post : Unit → World → State → Prop}
    (holds : condition) (post : Post () world state) :
    logic.Completes (Handler.require condition : Handler State Output Unit) world state Post := by
  unfold Handler.require
  rw [if_pos holds]
  exact pure post

theorem require_bind {condition : Prop} [Decidable condition] {next : Unit → Handler State Output α}
    (holds : condition) (rest : logic.Completes (next ()) world state Post) :
    logic.Completes (Handler.require condition >>= next) world state Post :=
  bind (require holds rest)

/-- A value has to be there. -/
theorem demand_bind {found : Option β} {value : β} {next : β → Handler State Output α}
    (there : found = some value) (rest : logic.Completes (next value) world state Post) :
    logic.Completes (Handler.demand found >>= next) world state Post := by
  subst there
  exact bind (pure rest)

/-- A branch completes where the side that is taken completes. -/
theorem branch {condition : Prop} [Decidable condition] {yes no : Handler State Output α}
    (holds : condition → logic.Completes yes world state Post)
    (fails : ¬ condition → logic.Completes no world state Post) :
    logic.Completes (if condition then yes else no) world state Post := by
  split
  next true_ => exact holds true_
  next false_ => exact fails false_

/-- A loop over a list keeps an invariant that its body keeps. -/
theorem forEach {items : List β} {body : β → Handler State Output Unit}
    (Inv : World → State → Prop)
    (step : ∀ item ∈ items, ∀ world state, Inv world state →
      logic.Completes (body item) world state fun _ => Inv)
    (holds : Inv world state) :
    logic.Completes (Handler.forEach items body) world state fun _ => Inv := by
  induction items generalizing world state with
  | nil => exact pure holds
  | cons item rest inductionHypothesis =>
      apply bind
      apply (step item List.mem_cons_self world state holds).imp
      intro _ middle after _ holds
      exact inductionHypothesis (fun other inRest => step other (List.mem_cons_of_mem _ inRest))
        holds

/-- A counted loop keeps an invariant, which may speak of the number of rounds that are left. -/
theorem repeated {count : Nat} {body : Handler State Output Unit}
    (Inv : Nat → World → State → Prop)
    (step : ∀ rounds world state, Inv (rounds + 1) world state →
      logic.Completes body world state fun _ => Inv rounds)
    (holds : Inv count world state) :
    logic.Completes (Handler.repeated count body) world state fun _ => Inv 0 := by
  induction count generalizing world state with
  | zero => exact pure holds
  | succ count inductionHypothesis =>
      apply bind
      apply (step count world state holds).imp
      intro _ middle after _ holds
      exact inductionHypothesis holds

end Completes

end Logic

end PaxosBus.Library

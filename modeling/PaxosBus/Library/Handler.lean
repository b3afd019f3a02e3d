import Mathlib.Logic.Function.Basic

/-!
# Message handlers that may stop

A `Handler` runs on the local state of a process, emits outputs on the way, and
ends in a value or, where an assertion fails, stops the process with whatever
it had done by then. `Logic.Meets` is a weakest precondition for handlers over
a world that the handler's actions move forward: every output is valid in the
final world, what has to hold of a process at every point (stopped or not) is
carried along, and the postcondition is due only where the handler does not
stop. Each construct has one rule; a proof about a handler follows its text.
-/

set_option autoImplicit false

namespace PaxosBus.Library

universe u

/-- How a handler ended: without a value it has stopped the process. -/
structure Outcome (State Output : Type) (α : Type u) where
  state : State
  outputs : List Output
  value : Option α

/-- A computation on the state of one process. -/
def Handler (State Output : Type) (α : Type u) := State → Outcome State Output α

namespace Handler

variable {State Output : Type} {α β : Type}

instance : Monad (Handler State Output) where
  pure value := fun state => ⟨state, [], some value⟩
  bind first next := fun state =>
    match first state with
    | ⟨middle, outputs, none⟩ => ⟨middle, outputs, none⟩
    | ⟨middle, outputs, some value⟩ =>
      let rest := next value middle
      ⟨rest.state, outputs ++ rest.outputs, rest.value⟩

/-- Read the state. -/
def get : Handler State Output State := fun state => ⟨state, [], some state⟩

/-- Change the state. -/
def modify (change : State → State) : Handler State Output Unit :=
  fun state => ⟨change state, [], some ()⟩

/-- Emit one output. -/
def emit (output : Output) : Handler State Output Unit := fun state => ⟨state, [output], some ()⟩

/-- Stop the process, as `Panic` does. -/
def stop : Handler State Output α := fun state => ⟨state, [], none⟩

/-- Stop the process unless a condition holds, as `ASSERT` does. -/
def require (condition : Prop) [Decidable condition] : Handler State Output Unit :=
  if condition then pure () else stop

/-- Go on with a value that must be there. -/
def demand : Option α → Handler State Output α
  | some value => pure value
  | none => stop

/-- Run a handler for each element of a list. -/
def forEach (items : List α) (body : α → Handler State Output Unit) : Handler State Output Unit :=
  match items with
  | [] => pure ()
  | item :: rest => do
    body item
    forEach rest body

/-- Run a handler a number of times. -/
def repeated (count : Nat) (body : Handler State Output Unit) : Handler State Output Unit :=
  match count with
  | 0 => pure ()
  | rest + 1 => do
    body
    repeated rest body

/-- The second part goes on from where the first one ends. -/
theorem bind_of_ended {first : Handler State Output β} {next : β → Handler State Output α}
    {state middle : State} {outputs : List Output} {value : β}
    (ended : first state = ⟨middle, outputs, some value⟩) :
    (first >>= next) state = ⟨(next value middle).state, outputs ++ (next value middle).outputs,
      (next value middle).value⟩ := by
  have unfolded : (first >>= next) state =
      match first state with
      | ⟨middle, outputs, none⟩ => ⟨middle, outputs, none⟩
      | ⟨middle, outputs, some value⟩ =>
        let rest := next value middle
        ⟨rest.state, outputs ++ rest.outputs, rest.value⟩ := rfl
  rw [unfolded, ended]

/-- The second part does not run where the first one stops. -/
theorem bind_of_stopped {first : Handler State Output β} {next : β → Handler State Output α}
    {state middle : State} {outputs : List Output} (stopped : first state = ⟨middle, outputs, none⟩) :
    (first >>= next) state = ⟨middle, outputs, none⟩ := by
  have unfolded : (first >>= next) state =
      match first state with
      | ⟨middle, outputs, none⟩ => ⟨middle, outputs, none⟩
      | ⟨middle, outputs, some value⟩ =>
        let rest := next value middle
        ⟨rest.state, outputs ++ rest.outputs, rest.value⟩ := rfl
  rw [unfolded, stopped]

/-- Two second parts that do the same from where the first one ends do the same after it. -/
theorem bind_congr {first : Handler State Output β} {next next' : β → Handler State Output α}
    {state : State} (same : ∀ value, next value (first state).state =
      next' value (first state).state) : (first >>= next) state = (first >>= next') state := by
  rcases result : first state with ⟨middle, outputs, value⟩
  rw [result] at same
  cases value with
  | none => rw [bind_of_stopped result, bind_of_stopped result]
  | some value => rw [bind_of_ended result, bind_of_ended result, same value]

/-- Reading the state hands it on. -/
theorem get_bind {next : State → Handler State Output α} {state : State} :
    (get >>= next) state = next state state := rfl

/-- An assertion that does not hold stops. -/
theorem require_bind {condition : Prop} [Decidable condition] {next : Unit → Handler State Output α}
    {state : State} : (require condition >>= next) state =
      if condition then next () state else ⟨state, [], none⟩ := by
  unfold require
  split <;> rfl

/-- A value that is not there stops. -/
theorem demand_bind {found : Option β} {next : β → Handler State Output α} {state : State} :
    (demand found >>= next) state =
      match found with
      | some value => next value state
      | none => ⟨state, [], none⟩ := by
  cases found <;> rfl

/-- What a sequence puts out comes from its first part, or from the second after the first has
ended. -/
theorem of_mem_outputs_bind {first : Handler State Output β} {next : β → Handler State Output α}
    {state : State} {output : Output} (member : output ∈ ((first >>= next) state).outputs) :
    output ∈ (first state).outputs ∨ ∃ value, (first state).value = some value ∧
      output ∈ (next value (first state).state).outputs := by
  rcases result : first state with ⟨middle, outputs, value⟩
  cases value with
  | none =>
      rw [bind_of_stopped result] at member
      exact .inl member
  | some value =>
      rw [bind_of_ended result] at member
      rcases List.mem_append.mp member with before | after
      · exact .inl before
      · exact .inr ⟨value, rfl, after⟩

/-- What the second part puts out after the first has ended is put out. -/
theorem mem_outputs_bind_of_ended {first : Handler State Output β}
    {next : β → Handler State Output α} {state : State} {output : Output} {value : β}
    (ended : (first state).value = some value)
    (member : output ∈ (next value (first state).state).outputs) :
    output ∈ ((first >>= next) state).outputs := by
  rcases result : first state with ⟨middle, outputs, found⟩
  rw [result] at ended member
  obtain rfl : found = some value := ended
  rw [bind_of_ended result]
  exact List.mem_append_right _ member

/-- An assertion changes nothing and puts out nothing. -/
theorem state_require {condition : Prop} [Decidable condition] {state : State} :
    ((require condition : Handler State Output Unit) state).state = state := by
  unfold require
  split <;> rfl

/-- An assertion that holds does not stop. -/
theorem value_require {condition : Prop} [Decidable condition] (holds : condition) {state : State} :
    ((require condition : Handler State Output Unit) state).value = some () := by
  unfold require
  rw [if_pos holds]
  rfl

/-- A condition that is required puts nothing out. -/
theorem outputs_require {condition : Prop} [Decidable condition] {state : State} :
    ((require condition : Handler State Output Unit) state).outputs = [] := by
  unfold require
  split <;> rfl

/-- What the first part puts out is put out. -/
theorem mem_outputs_bind {first : Handler State Output β} {next : β → Handler State Output α}
    {state : State} {output : Output} (member : output ∈ (first state).outputs) :
    output ∈ ((first >>= next) state).outputs := by
  rcases result : first state with ⟨middle, outputs, value⟩
  have unfolded : (first >>= next) state =
      match first state with
      | ⟨middle, outputs, none⟩ => ⟨middle, outputs, none⟩
      | ⟨middle, outputs, some value⟩ =>
        let rest := next value middle
        ⟨rest.state, outputs ++ rest.outputs, rest.value⟩ := rfl
  rw [unfolded, result]
  rw [result] at member
  cases value with
  | none => exact member
  | some value => exact List.mem_append_left _ member

end Handler

/-- What handlers of one process are judged by. -/
structure Logic (World State Output : Type) where
  /-- A world that the process can move forward to. -/
  Later : World → World → Prop
  refl : ∀ world, Later world world
  trans : ∀ {first second third}, Later first second → Later second third → Later first third
  /-- An output is justified in a world, and in every later one. -/
  Valid : World → Output → Prop
  mono : ∀ {first second output}, Later first second → Valid first output → Valid second output
  /-- What the world and the state have to do with each other at every point. -/
  Keeps : World → State → Prop

namespace Logic

variable {World State Output : Type} {α β : Type} (logic : Logic World State Output)

/-- The logic of what a handler does to the state alone. -/
def bare (State Output : Type) : Logic Unit State Output where
  Later _ _ := True
  refl _ := trivial
  trans _ _ := trivial
  Valid _ _ := True
  mono _ _ := trivial
  Keeps _ _ := True

/-- A handler run in a state of a world meets a postcondition. -/
def Meets (handler : Handler State Output α) (world : World) (state : State)
    (Post : α → World → State → Prop) : Prop :=
  ∃ final, logic.Later world final ∧
    (∀ output ∈ (handler state).outputs, logic.Valid final output) ∧
    logic.Keeps final (handler state).state ∧
    ∀ value, (handler state).value = some value → Post value final (handler state).state

variable {logic} {world : World} {state : State} {Post : α → World → State → Prop}

namespace Meets

/-- What a handler meets depends only on what it does in the state that it starts from. -/
theorem of_eq {handler handler' : Handler State Output α} (same : handler state = handler' state)
    (meets : logic.Meets handler' world state Post) : logic.Meets handler world state Post := by
  unfold Logic.Meets
  rw [same]
  exact meets

/-- The postcondition can be weakened. -/
theorem imp {handler : Handler State Output α} {Weaker : α → World → State → Prop}
    (meets : logic.Meets handler world state Post)
    (weaker : ∀ value final after, logic.Keeps final after → Post value final after →
      Weaker value final after) : logic.Meets handler world state Weaker := by
  obtain ⟨final, later, valid, keeps, post⟩ := meets
  exact ⟨final, later, valid, keeps, fun value ended =>
    weaker value final _ keeps (post value ended)⟩

/-- The postcondition can be weakened by what the move of the world gives. -/
theorem imp_later {handler : Handler State Output α} {Weaker : α → World → State → Prop}
    (meets : logic.Meets handler world state Post)
    (weaker : ∀ value final after, logic.Later world final → logic.Keeps final after →
      Post value final after → Weaker value final after) :
    logic.Meets handler world state Weaker := by
  obtain ⟨final, later, valid, keeps, post⟩ := meets
  exact ⟨final, later, valid, keeps, fun value ended =>
    weaker value final _ later keeps (post value ended)⟩

/-- The world can move forward once the handler has ended. -/
theorem advance {handler : Handler State Output α} {Other : α → World → State → Prop}
    (meets : logic.Meets handler world state Post)
    (forward : ∀ value final after, Post value final after →
      ∃ next, logic.Later final next ∧ logic.Keeps next after ∧ Other value next after) :
    logic.Meets handler world state Other := by
  obtain ⟨final, later, valid, keeps, post⟩ := meets
  cases ended : (handler state).value with
  | none =>
      refine ⟨final, later, valid, keeps, fun value present => ?_⟩
      rw [ended] at present
      nomatch present
  | some value =>
      obtain ⟨next, onward, keepsNext, other⟩ := forward value final _ (post value ended)
      refine ⟨next, logic.trans later onward, fun output member => ?_, keepsNext, ?_⟩
      · exact logic.mono onward (valid output member)
      · intro found present
        rw [ended] at present
        obtain rfl := Option.some.inj present
        exact other

/-- The world can move forward first. -/
theorem later {handler : Handler State Output α} {next : World} (forward : logic.Later world next)
    (meets : logic.Meets handler next state Post) : logic.Meets handler world state Post := by
  obtain ⟨final, later, rest⟩ := meets
  exact ⟨final, logic.trans forward later, rest⟩

/-- A handler that only returns. -/
theorem pure {value : α} (keeps : logic.Keeps world state) (post : Post value world state) :
    logic.Meets (Pure.pure value : Handler State Output α) world state Post := by
  refine ⟨world, logic.refl world, fun _ none_ => (nomatch none_), keeps, fun ended same => ?_⟩
  obtain rfl : value = ended := Option.some.inj same
  exact post

/-- A handler that only stops. -/
theorem stop (keeps : logic.Keeps world state) :
    logic.Meets (Handler.stop : Handler State Output α) world state Post :=
  ⟨world, logic.refl world, fun _ none_ => (nomatch none_), keeps, fun _ none_ => nomatch none_⟩

/-- Sequencing: what the first part establishes is what the second part starts from. -/
theorem bind {first : Handler State Output β} {next : β → Handler State Output α}
    (meets : logic.Meets first world state fun value middle after =>
      logic.Keeps middle after → logic.Meets (next value) middle after Post) :
    logic.Meets (first >>= next) world state Post := by
  obtain ⟨middle, forward, valid, keeps, post⟩ := meets
  rcases result : first state with ⟨after, outputs, value⟩
  rw [result] at valid keeps post
  have unfolded : (first >>= next) state =
      match first state with
      | ⟨middle, outputs, none⟩ => ⟨middle, outputs, none⟩
      | ⟨middle, outputs, some value⟩ =>
        let rest := next value middle
        ⟨rest.state, outputs ++ rest.outputs, rest.value⟩ := rfl
  cases value with
  | none =>
      have stopped : (first >>= next) state = ⟨after, outputs, none⟩ := by rw [unfolded, result]
      refine ⟨middle, forward, ?_, ?_, ?_⟩
      · rwa [stopped]
      · rwa [stopped]
      · rw [stopped]
        exact fun _ none_ => nomatch none_
  | some value =>
      obtain ⟨final, onward, validRest, keepsRest, postRest⟩ := post value rfl keeps
      have continued : (first >>= next) state =
          ⟨(next value after).state, outputs ++ (next value after).outputs,
            (next value after).value⟩ := by rw [unfolded, result]
      refine ⟨final, logic.trans forward onward, ?_, ?_, ?_⟩
      · rw [continued]
        intro output inOutputs
        rcases List.mem_append.mp inOutputs with before | after
        · exact logic.mono onward (valid output before)
        · exact validRest output after
      · rwa [continued]
      · rwa [continued]

/-- Reading the state. -/
theorem get {Post : State → World → State → Prop} (keeps : logic.Keeps world state)
    (post : Post state world state) :
    logic.Meets (Handler.get : Handler State Output State) world state Post := by
  refine ⟨world, logic.refl world, fun _ none_ => (nomatch none_), keeps, fun ended same => ?_⟩
  obtain rfl : state = ended := Option.some.inj same
  exact post

/-- A change of the state can come with a move of the world. -/
theorem modify {change : State → State} {Post : Unit → World → State → Prop} {next : World}
    (forward : logic.Later world next) (keeps : logic.Keeps next (change state))
    (post : Post () next (change state)) :
    logic.Meets (Handler.modify change : Handler State Output Unit) world state Post :=
  ⟨next, forward, fun _ none_ => (nomatch none_), keeps, fun _ _ => post⟩

/-- A change of the state that leaves the world where it is. -/
theorem change {change : State → State} {Post : Unit → World → State → Prop}
    (keeps : logic.Keeps world (change state)) (post : Post () world (change state)) :
    logic.Meets (Handler.modify change : Handler State Output Unit) world state Post :=
  modify (logic.refl world) keeps post

/-- An output that is valid. -/
theorem emit {output : Output} {Post : Unit → World → State → Prop}
    (keeps : logic.Keeps world state) (valid : logic.Valid world output)
    (post : Post () world state) :
    logic.Meets (Handler.emit output : Handler State Output Unit) world state Post := by
  refine ⟨world, logic.refl world, fun other single => ?_, keeps, fun _ _ => post⟩
  obtain rfl : other = output := List.mem_singleton.mp single
  exact valid

/-- A condition that is required, and may be relied on. -/
theorem require {condition : Prop} [Decidable condition] {Post : Unit → World → State → Prop}
    (keeps : logic.Keeps world state) (post : condition → Post () world state) :
    logic.Meets (Handler.require condition : Handler State Output Unit) world state Post := by
  unfold Handler.require
  split
  next holds => exact pure keeps (post holds)
  next => exact stop keeps

/-- A value that is demanded, and may be relied on. -/
theorem demand {found : Option α} (keeps : logic.Keeps world state)
    (post : ∀ value, found = some value → Post value world state) :
    logic.Meets (Handler.demand found : Handler State Output α) world state Post := by
  cases found with
  | none => exact stop keeps
  | some value => exact pure keeps (post value rfl)

/-- A loop over a list keeps an invariant that its body keeps. -/
theorem forEach {items : List β} {body : β → Handler State Output Unit}
    (Inv : World → State → Prop)
    (step : ∀ item ∈ items, ∀ world state, logic.Keeps world state → Inv world state →
      logic.Meets (body item) world state fun _ => Inv)
    (keeps : logic.Keeps world state) (holds : Inv world state) :
    logic.Meets (Handler.forEach items body) world state fun _ => Inv := by
  induction items generalizing world state with
  | nil => exact pure keeps holds
  | cons item rest inductionHypothesis =>
      refine bind ((step item List.mem_cons_self world state keeps holds).imp ?_)
      intro _ middle after _ holds keeps
      exact inductionHypothesis (fun other inRest => step other (List.mem_cons_of_mem _ inRest))
        keeps holds

/-- A counted loop keeps an invariant, which may speak of the number of rounds that are left. -/
theorem repeated {count : Nat} {body : Handler State Output Unit}
    (Inv : Nat → World → State → Prop)
    (step : ∀ rounds world state, logic.Keeps world state → Inv (rounds + 1) world state →
      logic.Meets body world state fun _ => Inv rounds)
    (keeps : logic.Keeps world state) (holds : Inv count world state) :
    logic.Meets (Handler.repeated count body) world state fun _ => Inv 0 := by
  induction count generalizing world state with
  | zero => exact pure keeps holds
  | succ count inductionHypothesis =>
      refine bind ((step count world state keeps holds).imp ?_)
      intro _ middle after _ holds keeps
      exact inductionHypothesis keeps holds

/-- A branch meets what both of its sides meet. -/
theorem branch {condition : Prop} [Decidable condition]
    {yes no : Handler State Output α}
    (holds : condition → logic.Meets yes world state Post)
    (fails : ¬ condition → logic.Meets no world state Post) :
    logic.Meets (if condition then yes else no) world state Post := by
  split
  next true_ => exact holds true_
  next false_ => exact fails false_

/-- A handler meets two postconditions at once where one of them is about the state alone. -/
theorem and_bare {handler : Handler State Output α} {Local : α → Unit → State → Prop}
    (local_ : (bare State Output).Meets handler () state Local)
    (meets : logic.Meets handler world state Post) :
    logic.Meets handler world state fun value final after =>
      Local value () after ∧ Post value final after := by
  obtain ⟨_, -, -, -, localPost⟩ := local_
  obtain ⟨final, later, valid, keeps, post⟩ := meets
  exact ⟨final, later, valid, keeps, fun value ended =>
    ⟨localPost value ended, post value ended⟩⟩

end Meets

end Logic

end PaxosBus.Library

import PaxosBus.Library.Handler

/-!
# Handlers that do not stop

A handler returns with a postcondition if no assertion fails on the way and the
postcondition holds at its end. As a handler is a function, this is not only
what suffices: each construct returns with a postcondition if and only if its
parts do, so the same rules show where a handler must stop.
-/

set_option autoImplicit false

namespace PaxosBus.Library

variable {State Output α β : Type} {state : State} {Post : α → State → Prop}

namespace Handler

/-- The handler ends in a value, and value and state meet a postcondition. -/
def Returns (handler : Handler State Output α) (state : State) (Post : α → State → Prop) : Prop :=
  ∃ value, (handler state).value = some value ∧ Post value (handler state).state

namespace Returns

variable {handler : Handler State Output α}

/-- The postcondition can be weakened. -/
theorem imp {Weaker : α → State → Prop} (returns : handler.Returns state Post)
    (weaker : ∀ value after, Post value after → Weaker value after) :
    handler.Returns state Weaker := by
  obtain ⟨value, ended, post⟩ := returns
  exact ⟨value, ended, weaker value _ post⟩

/-- A handler that returns with each of two postconditions returns with both. -/
theorem and {Other : α → State → Prop} (returns : handler.Returns state Post)
    (other : handler.Returns state Other) :
    handler.Returns state fun value after => Post value after ∧ Other value after := by
  obtain ⟨value, ended, post⟩ := returns
  obtain ⟨value', ended', post'⟩ := other
  obtain rfl : value = value' := Option.some.inj (ended.symm.trans ended')
  exact ⟨value, ended, post, post'⟩

/-- What is so wherever a handler returns is so where it does return. -/
theorem and_meets {World : Type} {logic : Logic World State Output} {world : World}
    {Local : α → World → State → Prop} (returns : handler.Returns state Post)
    (meets : logic.Meets handler world state Local) :
    handler.Returns state fun value after =>
      Post value after ∧ ∃ final, Local value final after := by
  obtain ⟨value, ended, post⟩ := returns
  obtain ⟨final, -, -, -, keeps⟩ := meets
  exact ⟨value, ended, post, final, keeps value ended⟩

end Returns

variable {first : Handler State Output β} {next : β → Handler State Output α}

/-- Where a handler returns, there it ends. -/
theorem returns_iff_of_unit {handler : Handler State Output Unit} {Post : State → Prop} :
    (handler.Returns state fun _ => Post) ↔
      (handler state).value = some () ∧ Post (handler state).state := by
  constructor
  · rintro ⟨⟨⟩, ended, post⟩
    exact ⟨ended, post⟩
  · rintro ⟨ended, post⟩
    exact ⟨(), ended, post⟩

/-- A handler that only returns. -/
@[simp] theorem returns_pure {value : α} :
    (pure value : Handler State Output α).Returns state Post ↔ Post value state := by
  constructor
  · rintro ⟨other, ended, post⟩
    obtain rfl : value = other := Option.some.inj ended
    exact post
  · exact fun post => ⟨value, rfl, post⟩

/-- Sequencing: the second part returns from wherever the first returns. -/
theorem returns_bind : (first >>= next).Returns state Post ↔
    first.Returns state fun value middle => (next value).Returns middle Post := by
  rcases result : first state with ⟨middle, outputs, value⟩
  have unfolded : (first >>= next) state =
      match first state with
      | ⟨middle, outputs, none⟩ => ⟨middle, outputs, none⟩
      | ⟨middle, outputs, some value⟩ =>
        let rest := next value middle
        ⟨rest.state, outputs ++ rest.outputs, rest.value⟩ := rfl
  cases value with
  | none => simp [Returns, unfolded, result]
  | some value => simp [Returns, unfolded, result]

/-- The value is the state. -/
@[simp] theorem returns_get {Post : State → State → Prop} :
    (get : Handler State Output State).Returns state Post ↔ Post state state :=
  returns_pure

/-- A change of the state always returns. -/
@[simp] theorem returns_modify {change : State → State} {Post : Unit → State → Prop} :
    (modify change : Handler State Output Unit).Returns state Post ↔ Post () (change state) := by
  constructor
  · rintro ⟨⟨⟩, -, post⟩
    exact post
  · exact fun post => ⟨(), rfl, post⟩

/-- An output always returns. -/
@[simp] theorem returns_emit {output : Output} {Post : Unit → State → Prop} :
    (emit output).Returns state Post ↔ Post () state := by
  constructor
  · rintro ⟨⟨⟩, -, post⟩
    exact post
  · exact fun post => ⟨(), rfl, post⟩

/-- Stopping is no return. -/
@[simp] theorem returns_stop : ¬ (stop : Handler State Output α).Returns state Post := by
  simp [Returns, stop]

/-- A condition that is required has to hold. -/
@[simp] theorem returns_require {condition : Prop} [Decidable condition]
    {Post : Unit → State → Prop} :
    (require condition : Handler State Output Unit).Returns state Post ↔
      condition ∧ Post () state := by
  unfold require
  split
  next holds => simp [holds]
  next fails => simp [fails]

/-- A value that is demanded has to be there. -/
@[simp] theorem returns_demand {found : Option α} :
    (demand found : Handler State Output α).Returns state Post ↔
      ∃ value, found = some value ∧ Post value state := by
  cases found <;> simp [demand]

/-- A branch returns where the side that is taken returns. -/
theorem returns_ite {condition : Prop} [Decidable condition] {yes no : Handler State Output α} :
    (if condition then yes else no).Returns state Post ↔
      if condition then yes.Returns state Post else no.Returns state Post := by
  split <;> rfl

/-- A loop over two lists is two loops. -/
theorem returns_forEach_append {items more : List β} {body : β → Handler State Output Unit}
    {Post : Unit → State → Prop} : (Handler.forEach (items ++ more) body).Returns state Post ↔
      (Handler.forEach items body).Returns state fun _ middle =>
        (Handler.forEach more body).Returns middle Post := by
  induction items generalizing state with
  | nil =>
      change _ ↔ (pure () : Handler State Output Unit).Returns state _
      rw [returns_pure]
      rfl
  | cons item rest inductionHypothesis =>
      change (body item >>= fun _ => Handler.forEach (rest ++ more) body).Returns state Post ↔
        (body item >>= fun _ => Handler.forEach rest body).Returns state _
      simp only [returns_bind, inductionHypothesis]

/-! ## The same rules, forward -/

namespace Returns

/-- A handler that only returns. -/
theorem pure {value : α} (post : Post value state) :
    (Pure.pure value : Handler State Output α).Returns state Post :=
  returns_pure.mpr post

/-- Sequencing: both parts return. -/
theorem bind {Middle : β → State → Prop} (returns : first.Returns state Middle)
    (rest : ∀ value middle, Middle value middle → (next value).Returns middle Post) :
    (first >>= next).Returns state Post :=
  returns_bind.mpr (returns.imp rest)

/-- The state is read first. -/
theorem get_bind {next : State → Handler State Output α} (rest : (next state).Returns state Post) :
    (get >>= next).Returns state Post :=
  returns_bind.mpr (returns_get.mpr rest)

/-- The state is changed first. -/
theorem modify_bind {change : State → State} {next : Unit → Handler State Output α}
    (rest : (next ()).Returns (change state) Post) : (modify change >>= next).Returns state Post :=
  returns_bind.mpr (returns_modify.mpr rest)

/-- Something is put out first. -/
theorem emit_bind {output : Output} {next : Unit → Handler State Output α}
    (rest : (next ()).Returns state Post) : (emit output >>= next).Returns state Post :=
  returns_bind.mpr (returns_emit.mpr rest)

/-- A condition that holds is required first. -/
theorem require_bind {condition : Prop} [Decidable condition] {next : Unit → Handler State Output α}
    (holds : condition) (rest : (next ()).Returns state Post) :
    (require condition >>= next).Returns state Post :=
  returns_bind.mpr (returns_require.mpr ⟨holds, rest⟩)

/-- A value that is there is demanded first. -/
theorem demand_bind {found : Option β} {value : β} (there : found = some value)
    (rest : (next value).Returns state Post) : (demand found >>= next).Returns state Post :=
  returns_bind.mpr (returns_demand.mpr ⟨value, there, rest⟩)

/-- A branch, of which the side that is taken returns. -/
theorem branch {condition : Prop} [Decidable condition] {yes no : Handler State Output α}
    (holds : condition → yes.Returns state Post) (fails : ¬ condition → no.Returns state Post) :
    (if condition then yes else no).Returns state Post := by
  split
  next true_ => exact holds true_
  next false_ => exact fails false_

/-- A loop over a list keeps an invariant that its body keeps, which may speak of the elements that
are left. -/
theorem forEach {items : List β} {body : β → Handler State Output Unit}
    (Inv : List β → State → Prop)
    (step : ∀ item rest state, Inv (item :: rest) state →
      (body item).Returns state fun _ => Inv rest)
    (holds : Inv items state) : (Handler.forEach items body).Returns state fun _ => Inv [] := by
  induction items generalizing state with
  | nil => exact pure holds
  | cons item rest inductionHypothesis =>
      apply bind (step item rest state holds)
      intro _ after holds
      exact inductionHypothesis holds

/-- A counted loop keeps an invariant, which may speak of the number of rounds that are left. -/
theorem repeated {count : Nat} {body : Handler State Output Unit} (Inv : Nat → State → Prop)
    (step : ∀ rounds state, Inv (rounds + 1) state → body.Returns state fun _ => Inv rounds)
    (holds : Inv count state) : (Handler.repeated count body).Returns state fun _ => Inv 0 := by
  induction count generalizing state with
  | zero => exact pure holds
  | succ count inductionHypothesis =>
      apply bind (step count state holds)
      intro _ after holds
      exact inductionHypothesis holds

end Returns

end Handler

end PaxosBus.Library

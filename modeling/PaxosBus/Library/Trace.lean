import PaxosBus.Library.Handler

/-!
# What handlers put out, in order

`Logic.Meets` speaks of the outputs of a handler one by one. A `Trace` relates
all of them, in their order, to how the state moves; what it says of two runs it
says of one after the other. A handler that is covered by a trace is so in every
state, whether it stops or not.
-/

set_option autoImplicit false

namespace PaxosBus.Library

/-- A relation between where a handler starts, what it puts out and where it ends, which
composes. -/
structure Trace (State Output : Type) where
  Rel : State → List Output → State → Prop
  refl : ∀ state, Rel state [] state
  trans : ∀ {first middle last outputs more}, Rel first outputs middle → Rel middle more last →
    Rel first (outputs ++ more) last

namespace Trace

variable {State Output : Type} {α β : Type} (trace : Trace State Output)

/-- Every run of a handler is related. -/
def Covers (handler : Handler State Output α) : Prop :=
  ∀ state, trace.Rel state (handler state).outputs (handler state).state

variable {trace}

namespace Covers

/-- A handler that only returns. -/
theorem pure (value : α) : trace.Covers (Pure.pure value : Handler State Output α) :=
  fun state => trace.refl state

/-- A handler that only stops. -/
theorem stop : trace.Covers (Handler.stop : Handler State Output α) :=
  fun state => trace.refl state

/-- Reading the state. -/
theorem get : trace.Covers (Handler.get : Handler State Output State) :=
  fun state => trace.refl state

/-- A change of the state that is related to nothing put out. -/
theorem modify {change : State → State} (related : ∀ state, trace.Rel state [] (change state)) :
    trace.Covers (Handler.modify change : Handler State Output Unit) :=
  related

/-- An output that leaves the state where it is. -/
theorem emit {output : Output} (related : ∀ state, trace.Rel state [output] state) :
    trace.Covers (Handler.emit output : Handler State Output Unit) :=
  related

/-- A condition that is required, whether it holds or not. -/
theorem require (condition : Prop) [Decidable condition] :
    trace.Covers (Handler.require condition : Handler State Output Unit) := by
  unfold Handler.require
  split
  next => exact pure ()
  next => exact stop

/-- A value that is demanded, whether it is there or not. -/
theorem demand (found : Option α) :
    trace.Covers (Handler.demand found : Handler State Output α) := by
  cases found with
  | none => exact stop
  | some value => exact pure value

/-- A handler after another one. -/
theorem bind {first : Handler State Output β} {next : β → Handler State Output α}
    (covers : trace.Covers first) (rest : ∀ value, trace.Covers (next value)) :
    trace.Covers (first >>= next) := by
  intro state
  have before := covers state
  rcases result : first state with ⟨middle, outputs, value⟩
  rw [result] at before
  have unfolded : (first >>= next) state =
      match first state with
      | ⟨middle, outputs, none⟩ => ⟨middle, outputs, none⟩
      | ⟨middle, outputs, some value⟩ =>
        let rest := next value middle
        ⟨rest.state, outputs ++ rest.outputs, rest.value⟩ := rfl
  rw [unfolded, result]
  cases value with
  | none => exact before
  | some value => exact trace.trans before (rest value middle)

/-- A branch, of which both sides are covered. -/
theorem branch {condition : Prop} [Decidable condition] {yes no : Handler State Output α}
    (holds : trace.Covers yes) (fails : trace.Covers no) :
    trace.Covers (if condition then yes else no) := by
  split
  next => exact holds
  next => exact fails

/-- A loop over items, round by round. -/
theorem forEach {items : List β} {body : β → Handler State Output Unit}
    (covers : ∀ item, trace.Covers (body item)) : trace.Covers (Handler.forEach items body) := by
  induction items with
  | nil => exact pure ()
  | cons item rest inductionHypothesis =>
      exact bind (covers item) fun _ => inductionHypothesis

/-- The same handler several times over. -/
theorem repeated {count : Nat} {body : Handler State Output Unit} (covers : trace.Covers body) :
    trace.Covers (Handler.repeated count body) := by
  induction count with
  | zero => exact pure ()
  | succ count inductionHypothesis => exact bind covers fun _ => inductionHypothesis

end Covers

/-- What a run puts out, after some outputs since an earlier state, is related to that state. -/
def From (trace : Trace State Output) (start : State) (outputs : List Output)
    (handler : Handler State Output α) (state : State) : Prop :=
  trace.Rel start (outputs ++ (handler state).outputs) (handler state).state

namespace From

variable {start state : State} {outputs : List Output}

/-- A handler that is covered can go on from what is related. -/
theorem covers {handler : Handler State Output α} (covers : trace.Covers handler)
    (before : trace.Rel start outputs state) : trace.From start outputs handler state :=
  trace.trans before (covers state)

/-- The state is read, and the outputs so far stay owed. -/
theorem get {next : State → Handler State Output α}
    (rest : trace.From start outputs (next state) state) :
    trace.From start outputs (Handler.get >>= next) state :=
  rest

/-- The state changes, which is accounted for together with what comes later. -/
theorem modify {change : State → State} {next : Unit → Handler State Output α}
    (rest : trace.From start outputs (next ()) (change state)) :
    trace.From start outputs (Handler.modify change >>= next) state :=
  rest

/-- Where the condition fails, what has been put out has to be related already. -/
theorem require {condition : Prop} [Decidable condition] {next : Unit → Handler State Output α}
    (before : trace.Rel start outputs state)
    (rest : condition → trace.From start outputs (next ()) state) :
    trace.From start outputs (Handler.require condition >>= next) state := by
  unfold Handler.require
  split
  next holds => exact rest holds
  next =>
      have stopped := trace.trans before (trace.refl state)
      exact stopped

/-- A branch, with what its condition says. -/
theorem branch {condition : Prop} [Decidable condition] {yes no : Handler State Output α}
    (holds : condition → trace.From start outputs yes state)
    (fails : ¬ condition → trace.From start outputs no state) :
    trace.From start outputs (if condition then yes else no) state := by
  split
  next true_ => exact holds true_
  next false_ => exact fails false_

/-- Where there is no value, what has been put out has to be related already. -/
theorem demand {found : Option β} {next : β → Handler State Output α}
    (before : trace.Rel start outputs state)
    (rest : ∀ value, trace.From start outputs (next value) state) :
    trace.From start outputs (Handler.demand found >>= next) state := by
  cases found with
  | none =>
      have stopped := trace.trans before (trace.refl state)
      exact stopped
  | some value => exact rest value

/-- One output more is owed. -/
theorem emit {output : Output} {next : Unit → Handler State Output α}
    (rest : trace.From start (outputs ++ [output]) (next ()) state) :
    trace.From start outputs (Handler.emit output >>= next) state := by
  unfold From at rest ⊢
  rw [List.append_assoc] at rest
  exact rest

end From

end Trace

end PaxosBus.Library

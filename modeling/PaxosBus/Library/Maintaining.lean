import PaxosBus.Library.Handler

/-!
# What a handler maintains wherever it is run

`Logic.Meets` is about a handler in one state. Where everything that a handler
needs to know of the state is an invariant, its rules can leave the state out: a
handler maintains the invariant if its parts do, what it reads comes from some
state in which the invariant holds, and what it changes or puts out has to be
right in all of them.
-/

set_option autoImplicit false

namespace PaxosBus.Library

variable {World State Output : Type} {α β : Type}

namespace Logic

variable (logic : Logic World State Output)

/-- Wherever it is run, the handler ends with the invariant if it ends. -/
def Maintains (Inv : State → Prop) (handler : Handler State Output α) : Prop :=
  ∀ world state, logic.Keeps world state → Inv state →
    logic.Meets handler world state fun _ _ => Inv

variable {logic} {Inv : State → Prop}

namespace Maintains

/-- A handler that only returns. -/
theorem pure {value : α} : logic.Maintains Inv (Pure.pure value : Handler State Output α) := by
  intro world state keeps holds
  exact .pure keeps holds

/-- A handler that only stops. -/
theorem stop : logic.Maintains Inv (Handler.stop : Handler State Output α) := by
  intro world state keeps holds
  exact .stop keeps

/-- Sequencing. -/
theorem bind {first : Handler State Output β} {next : β → Handler State Output α}
    (maintains : logic.Maintains Inv first) (rest : ∀ value, logic.Maintains Inv (next value)) :
    logic.Maintains Inv (first >>= next) := by
  intro world state keeps holds
  apply Meets.bind
  apply (maintains world state keeps holds).imp
  intro value final after _ holds keeps
  exact rest value final after keeps holds

/-- What is read comes from a state in which the invariant holds. -/
theorem get_bind {next : State → Handler State Output α}
    (rest : ∀ world state, logic.Keeps world state → Inv state →
      logic.Maintains Inv (next state)) :
    logic.Maintains Inv (Handler.get >>= next) := by
  intro world state keeps holds
  apply Meets.bind
  apply Meets.get keeps
  exact fun _ => rest world state keeps holds world state keeps holds

/-- A change that leaves the world where it is. -/
theorem modify {change : State → State}
    (kept : ∀ world state, logic.Keeps world state → Inv state →
      logic.Keeps world (change state) ∧ Inv (change state)) :
    logic.Maintains Inv (Handler.modify change : Handler State Output Unit) := by
  intro world state keeps holds
  obtain ⟨keeps', holds'⟩ := kept world state keeps holds
  exact .change keeps' holds'

/-- A change that keeps the invariant, and the rest. -/
theorem modify_bind {change : State → State} {next : Unit → Handler State Output α}
    (kept : ∀ world state, logic.Keeps world state → Inv state →
      logic.Keeps world (change state) ∧ Inv (change state))
    (rest : logic.Maintains Inv (next ())) :
    logic.Maintains Inv (Handler.modify change >>= next) :=
  bind (modify kept) fun _ => rest

/-- An output has to be valid wherever it may be put out. -/
theorem emit {output : Output}
    (valid : ∀ world state, logic.Keeps world state → Inv state → logic.Valid world output) :
    logic.Maintains Inv (Handler.emit output : Handler State Output Unit) := by
  intro world state keeps holds
  exact .emit keeps (valid world state keeps holds) holds

/-- A condition that is required. -/
theorem require {condition : Prop} [Decidable condition] :
    logic.Maintains Inv (Handler.require condition : Handler State Output Unit) := by
  intro world state keeps holds
  exact .require keeps fun _ => holds

/-- A condition that is required, and the rest, which may rely on it. -/
theorem require_bind {condition : Prop} [Decidable condition]
    {next : Unit → Handler State Output α}
    (rest : condition → logic.Maintains Inv (next ())) :
    logic.Maintains Inv (Handler.require condition >>= next) := by
  intro world state keeps holds
  apply Meets.bind
  apply Meets.require keeps
  intro condition_ _
  exact rest condition_ world state keeps holds

/-- A value that is demanded, and the rest, which may rely on it. -/
theorem demand_bind {found : Option β} {next : β → Handler State Output α}
    (rest : ∀ value, found = some value → logic.Maintains Inv (next value)) :
    logic.Maintains Inv (Handler.demand found >>= next) := by
  intro world state keeps holds
  apply Meets.bind
  apply Meets.demand keeps
  intro value there _
  exact rest value there world state keeps holds

/-- A branch maintains what both of its sides do. -/
theorem branch {condition : Prop} [Decidable condition] {yes no : Handler State Output α}
    (holds : condition → logic.Maintains Inv yes) (fails : ¬ condition → logic.Maintains Inv no) :
    logic.Maintains Inv (if condition then yes else no) := by
  split
  next true_ => exact holds true_
  next false_ => exact fails false_

/-- A loop over a list maintains what its body does. -/
theorem forEach {items : List β} {body : β → Handler State Output Unit}
    (each : ∀ item ∈ items, logic.Maintains Inv (body item)) :
    logic.Maintains Inv (Handler.forEach items body) := by
  intro world state keeps holds
  apply Meets.forEach (fun _ => Inv) _ keeps holds
  intro item inItems world state keeps holds
  exact each item inItems world state keeps holds

/-- So does a counted loop. -/
theorem repeated {count : Nat} {body : Handler State Output Unit}
    (each : logic.Maintains Inv body) : logic.Maintains Inv (Handler.repeated count body) := by
  intro world state keeps holds
  apply Meets.repeated (fun _ _ => Inv) _ keeps holds
  intro _ world state keeps holds
  exact each world state keeps holds

end Maintains

end Logic

end PaxosBus.Library

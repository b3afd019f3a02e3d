import PaxosBus.Library.Handler

/-!
# What a process accounts for

`Logic.Meets` speaks of outputs one by one, and a `Trace` of what two points of
a run have to do with each other. An `Account` is a fact about all that has been
put out so far and the state: it is good between handlers, and still fair where
a handler stops halfway. What a handler reads or puts out may depend on it.
-/

set_option autoImplicit false

namespace PaxosBus.Library

/-- What is so of the outputs so far and the state, between handlers and wherever one may stop. -/
structure Account (State Output : Type) where
  Good : List Output → State → Prop
  Fair : List Output → State → Prop
  fair : ∀ {past state}, Good past state → Fair past state

namespace Account

variable {State Output : Type} {α β : Type} (account : Account State Output)

/-- Run in a state after some outputs, the handler leaves the account fair, and good if it ends. -/
def Holds (handler : Handler State Output α) (past : List Output) (state : State) : Prop :=
  account.Fair (past ++ (handler state).outputs) (handler state).state ∧
    ∀ value, (handler state).value = some value →
      account.Good (past ++ (handler state).outputs) (handler state).state

/-- Wherever the account is good, the handler holds it. -/
def Keeps (handler : Handler State Output α) : Prop :=
  ∀ past state, account.Good past state → account.Holds handler past state

variable {account} {past : List Output} {state : State}

namespace Holds

/-- What a handler accounts for depends only on what it does in the state that it starts from. -/
theorem of_eq {handler handler' : Handler State Output α} (same : handler state = handler' state)
    (holds : account.Holds handler' past state) : account.Holds handler past state := by
  unfold Holds
  rw [same]
  exact holds

/-- A handler that only returns has to be good by then. -/
theorem pure {value : α} (good : account.Good past state) :
    account.Holds (Pure.pure value : Handler State Output α) past state := by
  have same : past ++ [] = past := List.append_nil past
  constructor
  · show account.Fair (past ++ []) state
    rw [same]
    exact account.fair good
  · intro _ _
    show account.Good (past ++ []) state
    rw [same]
    exact good

/-- A handler that only stops has to be fair by then. -/
theorem stop (fair : account.Fair past state) :
    account.Holds (Handler.stop : Handler State Output α) past state := by
  constructor
  · show account.Fair (past ++ []) state
    rw [List.append_nil]
    exact fair
  · intro _ ended
    cases ended

/-- A handler after one that holds the account. -/
theorem bind {first : Handler State Output β} {next : β → Handler State Output α}
    (holds : account.Holds first past state)
    (rest : ∀ value, account.Good (past ++ (first state).outputs) (first state).state →
      account.Holds (next value) (past ++ (first state).outputs) (first state).state) :
    account.Holds (first >>= next) past state := by
  rcases result : first state with ⟨middle, outputs, value⟩
  unfold Holds at holds
  rw [result] at holds rest
  cases value with
  | none =>
      unfold Holds
      rw [Handler.bind_of_stopped result]
      exact ⟨holds.1, fun _ ended => by cases ended⟩
  | some value =>
      have after := rest value (holds.2 value rfl)
      unfold Holds at after ⊢
      rw [List.append_assoc] at after
      rw [Handler.bind_of_ended result]
      exact after

/-- The state is read first. -/
theorem get_bind {next : State → Handler State Output α}
    (rest : account.Holds (next state) past state) :
    account.Holds (Handler.get >>= next) past state :=
  rest

/-- The state is changed first, and the account need not be good in between. -/
theorem modify_bind {change : State → State} {next : Unit → Handler State Output α}
    (rest : account.Holds (next ()) past (change state)) :
    account.Holds (Handler.modify change >>= next) past state :=
  rest

/-- An output that counts among those before. -/
theorem emit_bind {output : Output} {next : Unit → Handler State Output α}
    (rest : account.Holds (next ()) (past ++ [output]) state) :
    account.Holds (Handler.emit output >>= next) past state := by
  unfold Holds at rest ⊢
  rw [List.append_assoc] at rest
  exact rest

/-- An output that makes the account good. -/
theorem emit {output : Output} (good : account.Good (past ++ [output]) state) :
    account.Holds (Handler.emit output : Handler State Output Unit) past state :=
  ⟨account.fair good, fun _ _ => good⟩

/-- A value that is demanded. Where there is none, the account has to be fair. -/
theorem demand_bind {found : Option β} {next : β → Handler State Output α}
    (fair : account.Fair past state)
    (rest : ∀ value, found = some value → account.Holds (next value) past state) :
    account.Holds (Handler.demand found >>= next) past state := by
  cases found with
  | none => exact stop fair
  | some value => exact rest value rfl

/-- A branch, with what its condition says. -/
theorem branch {condition : Prop} [Decidable condition] {yes no : Handler State Output α}
    (holds : condition → account.Holds yes past state)
    (fails : ¬ condition → account.Holds no past state) :
    account.Holds (if condition then yes else no) past state := by
  split
  next true_ => exact holds true_
  next false_ => exact fails false_

end Holds

namespace Keeps

/-- A handler that only returns. -/
theorem pure {value : α} : account.Keeps (Pure.pure value : Handler State Output α) :=
  fun _ _ good => .pure good

/-- A handler that only stops. -/
theorem stop : account.Keeps (Handler.stop : Handler State Output α) :=
  fun _ _ good => .stop (account.fair good)

/-- Sequencing. -/
theorem bind {first : Handler State Output β} {next : β → Handler State Output α}
    (keeps : account.Keeps first) (rest : ∀ value, account.Keeps (next value)) :
    account.Keeps (first >>= next) :=
  fun past state good => (keeps past state good).bind fun value good' => rest value _ _ good'

/-- What is read comes from a state in which the account is good. -/
theorem get_bind {next : State → Handler State Output α}
    (rest : ∀ past state, account.Good past state → account.Keeps (next state)) :
    account.Keeps (Handler.get >>= next) :=
  fun past state good => .get_bind (rest past state good past state good)

/-- A change that keeps the account good. -/
theorem modify {change : State → State}
    (kept : ∀ past state, account.Good past state → account.Good past (change state)) :
    account.Keeps (Handler.modify change : Handler State Output Unit) :=
  fun past state good => Holds.modify_bind (Holds.pure (kept past state good))

/-- A change that keeps the account good, and the rest. -/
theorem modify_bind {change : State → State} {next : Unit → Handler State Output α}
    (kept : ∀ past state, account.Good past state → account.Good past (change state))
    (rest : account.Keeps (next ())) : account.Keeps (Handler.modify change >>= next) :=
  fun past state good => .modify_bind (rest past _ (kept past state good))

/-- An output has to be accounted for wherever it may be put out. -/
theorem emit {output : Output}
    (kept : ∀ past state, account.Good past state → account.Good (past ++ [output]) state) :
    account.Keeps (Handler.emit output : Handler State Output Unit) :=
  fun past state good => .emit (kept past state good)

/-- A condition that is required. -/
theorem require {condition : Prop} [Decidable condition] :
    account.Keeps (Handler.require condition : Handler State Output Unit) := by
  unfold Handler.require
  split
  next => exact pure
  next => exact stop

/-- A condition that is required, and the rest, which may rely on it. -/
theorem require_bind {condition : Prop} [Decidable condition]
    {next : Unit → Handler State Output α} (rest : condition → account.Keeps (next ())) :
    account.Keeps (Handler.require condition >>= next) := by
  unfold Handler.require
  split
  next holds => exact bind pure fun _ => rest holds
  next => exact fun past state good => Holds.stop (account.fair good)

/-- A value that is demanded, and the rest, which may rely on it. -/
theorem demand_bind {found : Option β} {next : β → Handler State Output α}
    (rest : ∀ value, found = some value → account.Keeps (next value)) :
    account.Keeps (Handler.demand found >>= next) :=
  fun past state good => .demand_bind (account.fair good) fun value present =>
    rest value present past state good

/-- A branch holds the account if both of its sides do. -/
theorem branch {condition : Prop} [Decidable condition] {yes no : Handler State Output α}
    (holds : condition → account.Keeps yes) (fails : ¬ condition → account.Keeps no) :
    account.Keeps (if condition then yes else no) := by
  split
  next true_ => exact holds true_
  next false_ => exact fails false_

/-- A loop over a list holds it if its body does. -/
theorem forEach {items : List β} {body : β → Handler State Output Unit}
    (each : ∀ item ∈ items, account.Keeps (body item)) :
    account.Keeps (Handler.forEach items body) := by
  induction items with
  | nil => exact pure
  | cons item rest inductionHypothesis =>
      apply bind (each item List.mem_cons_self)
      intro _
      exact inductionHypothesis fun other member => each other (List.mem_cons_of_mem _ member)

/-- So does a counted loop. -/
theorem repeated {count : Nat} {body : Handler State Output Unit} (each : account.Keeps body) :
    account.Keeps (Handler.repeated count body) := by
  induction count with
  | zero => exact pure
  | succ count inductionHypothesis => exact bind each fun _ => inductionHypothesis

end Keeps

end Account

end PaxosBus.Library

import PaxosBus.Library.Handler

/-!
# Handlers as sequences of moves

An abstract process goes from core state to core state by moves, each of which
puts something out. A `Matching` says which core a concrete state has, and what
holds of the state whenever it is at its core. What a handler does then is a
sequence of moves that puts out the same, in the same order, even where the
handler stops in the middle. What each kind of move preserves, any handler
preserves; so a property of the concrete process needs one lemma about each kind
of move, and none about the text of the handlers.
-/

set_option autoImplicit false

namespace PaxosBus.Library

variable {Core State Output : Type}

/-- Any number of moves, with all that they put out. -/
inductive Moves (move : Core → List Output → Core → Prop) (first : Core) :
    List Output → Core → Prop where
  | refl : Moves move first [] first
  | step {outputs more middle last} (prior : Moves move first outputs middle)
      (moved : move middle more last) : Moves move first (outputs ++ more) last

namespace Moves

variable {World : Type} {move : Core → List Output → Core → Prop} {first middle last : Core}
  {outputs more : List Output}

/-- Sequences of moves compose. -/
theorem trans (before : Moves move first outputs middle) (after : Moves move middle more last) :
    Moves move first (outputs ++ more) last := by
  induction after with
  | refl => rwa [List.append_nil]
  | step _ moved inductionHypothesis =>
      rw [← List.append_assoc]
      exact .step inductionHypothesis moved

/-- One move. -/
theorem single (moved : move first outputs last) : Moves move first outputs last := by
  have moves : Moves move first ([] ++ outputs) last := .step .refl moved
  rwa [List.nil_append] at moves

/-- What each move preserves, of the core and of all that has been put out so far, a sequence of
moves preserves. -/
theorem preserves {Inv : List Output → Core → Prop}
    (step : ∀ {before core more next}, Inv before core → move core more next →
      Inv (before ++ more) next)
    (moves : Moves move first outputs last) {before : List Output} (holds : Inv before first) :
    Inv (before ++ outputs) last := by
  induction moves with
  | refl => rwa [List.append_nil]
  | step _ moved inductionHypothesis =>
      rw [← List.append_assoc]
      exact step inductionHypothesis moved

/-- What each move keeps, in a world that may move forward with it, a sequence of moves keeps, and
everything that it puts out is valid. -/
theorem keeps (logic : Logic World Core Output)
    (step : ∀ {world core more next}, logic.Keeps world core → move core more next →
      ∃ world', logic.Later world world' ∧ logic.Keeps world' next ∧
        ∀ output ∈ more, logic.Valid world' output)
    (moves : Moves move first outputs last) {world : World} (keeps : logic.Keeps world first) :
    ∃ world', logic.Later world world' ∧ logic.Keeps world' last ∧
      ∀ output ∈ outputs, logic.Valid world' output := by
  induction moves with
  | refl => exact ⟨world, logic.refl world, keeps, fun _ none_ => nomatch none_⟩
  | step _ moved inductionHypothesis =>
      obtain ⟨middle, later, keeps, valid⟩ := inductionHypothesis
      obtain ⟨last, later', keeps', valid'⟩ := step keeps moved
      refine ⟨last, logic.trans later later', keeps', fun output member => ?_⟩
      rcases List.mem_append.mp member with before | after
      · exact logic.mono later' (valid output before)
      · exact valid' output after

end Moves

/-- The logic of parts that put nothing out. -/
def Logic.silent (State Output : Type) : Logic Unit State Output where
  Later _ _ := True
  refl _ := trivial
  trans _ _ := trivial
  Valid _ _ := False
  mono _ none_ := none_
  Keeps _ _ := True

/-- How a concrete process is matched with an abstract one. -/
structure Matching (Core State Output : Type) where
  move : Core → List Output → Core → Prop
  core : State → Core
  /-- What holds of the concrete state whenever it is at its core. -/
  Proper : State → Prop

namespace Matching

variable {α β : Type} (matching : Matching Core State Output)

/-- What the handler does from a state on, after some outputs since the core was `start`, is a
sequence of moves. Where the handler ends, the state is at its core, and meets a postcondition. -/
def TracesFrom (start : Core) (owed : List Output) (handler : Handler State Output α)
    (state : State) (Post : α → State → Prop) : Prop :=
  ∃ last, Moves matching.move start (owed ++ (handler state).outputs) last ∧
    ∀ value, (handler state).value = some value →
      last = matching.core (handler state).state ∧ matching.Proper (handler state).state ∧
        Post value (handler state).state

/-- The same from a state that is at its core. -/
def Traces (handler : Handler State Output α) (state : State) (Post : α → State → Prop) : Prop :=
  matching.TracesFrom (matching.core state) [] handler state Post

variable {matching} {start : Core} {owed : List Output} {state : State} {Post : α → State → Prop}

namespace TracesFrom

/-- The postcondition can be weakened. -/
theorem imp {handler : Handler State Output α} {Weaker : α → State → Prop}
    (traces : matching.TracesFrom start owed handler state Post)
    (weaker : ∀ value after, matching.Proper after → Post value after → Weaker value after) :
    matching.TracesFrom start owed handler state Weaker := by
  obtain ⟨last, moves, post⟩ := traces
  refine ⟨last, moves, fun value ended => ?_⟩
  obtain ⟨core, proper, post⟩ := post value ended
  exact ⟨core, proper, weaker value _ proper post⟩

/-- What has been put out so far is matched by moves. -/
theorem settle {handler : Handler State Output α} {middle : Core}
    (moves : Moves matching.move start owed middle)
    (traces : matching.TracesFrom middle [] handler state Post) :
    matching.TracesFrom start owed handler state Post := by
  obtain ⟨last, onward, post⟩ := traces
  exact ⟨last, moves.trans onward, post⟩

/-- A handler that only returns settles what is owed. -/
theorem pure {value : α} (moves : Moves matching.move start owed (matching.core state))
    (proper : matching.Proper state) (post : Post value state) :
    matching.TracesFrom start owed (Pure.pure value) state Post := by
  refine ⟨matching.core state, ?_, fun ended same => ?_⟩
  · change Moves _ _ (owed ++ []) _
    rwa [List.append_nil]
  · obtain rfl : value = ended := Option.some.inj same
    exact ⟨rfl, proper, post⟩

/-- A change of the state after which it is at its core. -/
theorem modify {change : State → State} {Post : Unit → State → Prop}
    (moves : Moves matching.move start owed (matching.core (change state)))
    (proper : matching.Proper (change state)) (post : Post () (change state)) :
    matching.TracesFrom start owed (Handler.modify change) state Post := by
  refine ⟨matching.core (change state), ?_, fun _ _ => ⟨rfl, proper, post⟩⟩
  change Moves _ _ (owed ++ []) _
  rwa [List.append_nil]

/-- A handler that only stops settles what is owed, wherever the moves end. -/
theorem stop {last : Core} (moves : Moves matching.move start owed last) :
    matching.TracesFrom start owed (Handler.stop : Handler State Output α) state Post := by
  refine ⟨last, ?_, fun _ none_ => nomatch none_⟩
  change Moves _ _ (owed ++ []) _
  rwa [List.append_nil]

/-- A branch, with what its condition says. -/
theorem branch {condition : Prop} [Decidable condition] {yes no : Handler State Output α}
    (holds : condition → matching.TracesFrom start owed yes state Post)
    (fails : ¬ condition → matching.TracesFrom start owed no state Post) :
    matching.TracesFrom start owed (if condition then yes else no) state Post := by
  split
  next true_ => exact holds true_
  next false_ => exact fails false_

/-! What comes first determines where the rest starts. -/

/-- One part after the other. -/
theorem bind {first : Handler State Output β} {next : β → Handler State Output α}
    {Middle : β → State → Prop} (before : matching.TracesFrom start owed first state Middle)
    (after : ∀ value middle, matching.Proper middle → Middle value middle →
      matching.Traces (next value) middle Post) :
    matching.TracesFrom start owed (first >>= next) state Post := by
  obtain ⟨core, moves, post⟩ := before
  rcases result : first state with ⟨middle, outputs, value⟩
  rw [result] at moves post
  have unfolded : (first >>= next) state =
      match first state with
      | ⟨middle, outputs, none⟩ => ⟨middle, outputs, none⟩
      | ⟨middle, outputs, some value⟩ =>
        let rest := next value middle
        ⟨rest.state, outputs ++ rest.outputs, rest.value⟩ := rfl
  unfold TracesFrom
  rw [unfolded, result]
  cases value with
  | none => exact ⟨core, moves, fun _ none_ => nomatch none_⟩
  | some value =>
      obtain ⟨rfl, proper, holds⟩ := post value rfl
      obtain ⟨last, onward, rest⟩ := after value middle proper holds
      refine ⟨last, ?_, rest⟩
      rw [← List.append_assoc]
      exact moves.trans onward

/-- A part whose outputs are to be matched together with what follows. -/
theorem owe_bind {first : Handler State Output β} {next : β → Handler State Output α} {last : Core}
    (stops : Moves matching.move start (owed ++ (first state).outputs) last)
    (rest : ∀ value, (first state).value = some value →
      matching.TracesFrom start (owed ++ (first state).outputs) (next value) (first state).state
        Post) :
    matching.TracesFrom start owed (first >>= next) state Post := by
  rcases result : first state with ⟨middle, outputs, value⟩
  rw [result] at stops rest
  have unfolded : (first >>= next) state =
      match first state with
      | ⟨middle, outputs, none⟩ => ⟨middle, outputs, none⟩
      | ⟨middle, outputs, some value⟩ =>
        let rest := next value middle
        ⟨rest.state, outputs ++ rest.outputs, rest.value⟩ := rfl
  unfold TracesFrom
  rw [unfolded, result]
  cases value with
  | none => exact ⟨last, stops, fun _ none_ => nomatch none_⟩
  | some value =>
      obtain ⟨final, moves, post⟩ := rest value rfl
      refine ⟨final, ?_, post⟩
      rwa [← List.append_assoc]

/-- A part that puts nothing out, which is matched together with what follows. -/
theorem silent_bind {first : Handler State Output β} {next : β → Handler State Output α}
    {last : Core} {Local : β → State → Prop} (stops : Moves matching.move start owed last)
    (silent : (Logic.silent State Output).Meets first () state fun value _ => Local value)
    (rest : ∀ value after, Local value after →
      matching.TracesFrom start owed (next value) after Post) :
    matching.TracesFrom start owed (first >>= next) state Post := by
  obtain ⟨_, -, none_, -, post⟩ := silent
  have quiet : owed ++ (first state).outputs = owed := by
    rw [List.eq_nil_iff_forall_not_mem.mpr none_, List.append_nil]
  apply owe_bind (quiet.symm ▸ stops)
  intro value ended
  rw [quiet]
  exact rest value _ (post value ended)

/-- The state is read first. -/
theorem get_bind {next : State → Handler State Output α}
    (rest : matching.TracesFrom start owed (next state) state Post) :
    matching.TracesFrom start owed (Handler.get >>= next) state Post :=
  rest

/-- A change that is matched together with what comes later. -/
theorem modify_bind {change : State → State} {next : Unit → Handler State Output α}
    (rest : matching.TracesFrom start owed (next ()) (change state) Post) :
    matching.TracesFrom start owed (Handler.modify change >>= next) state Post :=
  rest

/-- An output that is owed until a move accounts for it. -/
theorem emit_bind {output : Output} {next : Unit → Handler State Output α}
    (rest : matching.TracesFrom start (owed ++ [output]) (next ()) state Post) :
    matching.TracesFrom start owed (Handler.emit output >>= next) state Post := by
  unfold TracesFrom at rest ⊢
  rw [List.append_assoc] at rest
  exact rest

/-- A condition that is required. Where it fails, what is owed has to be settled. -/
theorem require_bind {last : Core} {condition : Prop} [Decidable condition]
    {next : Unit → Handler State Output α} (stops : Moves matching.move start owed last)
    (rest : condition → matching.TracesFrom start owed (next ()) state Post) :
    matching.TracesFrom start owed (Handler.require condition >>= next) state Post := by
  unfold Handler.require
  split
  next holds => exact rest holds
  next => exact stop stops

/-- A value that is demanded. Where there is none, what is owed has to be settled. -/
theorem demand_bind {last : Core} {found : Option β} {next : β → Handler State Output α}
    (stops : Moves matching.move start owed last)
    (rest : ∀ value, found = some value →
      matching.TracesFrom start owed (next value) state Post) :
    matching.TracesFrom start owed (Handler.demand found >>= next) state Post := by
  cases found with
  | none => exact stop stops
  | some value => exact rest value rfl

end TracesFrom

namespace Traces

/-- The postcondition can be weakened. -/
theorem imp {handler : Handler State Output α} {Weaker : α → State → Prop}
    (traces : matching.Traces handler state Post)
    (weaker : ∀ value after, matching.Proper after → Post value after → Weaker value after) :
    matching.Traces handler state Weaker :=
  TracesFrom.imp traces weaker

/-- What a handler does to the state alone comes for free. -/
theorem and_bare {handler : Handler State Output α} {Local : α → Unit → State → Prop}
    (bare : (Logic.bare State Output).Meets handler () state Local)
    (traces : matching.Traces handler state Post) :
    matching.Traces handler state fun value after => Local value () after ∧ Post value after := by
  obtain ⟨_, -, -, -, holds⟩ := bare
  obtain ⟨last, moves, post⟩ := traces
  refine ⟨last, moves, fun value ended => ?_⟩
  obtain ⟨core, proper, post⟩ := post value ended
  exact ⟨core, proper, holds value ended, post⟩

/-- A handler that only returns makes no move. -/
theorem pure {value : α} (proper : matching.Proper state) (post : Post value state) :
    matching.Traces (Pure.pure value) state Post :=
  TracesFrom.pure .refl proper post

/-- A handler that only stops makes no move. -/
theorem stop : matching.Traces (Handler.stop : Handler State Output α) state Post :=
  TracesFrom.stop .refl

/-- A condition that is required, and may be relied on. -/
theorem require {condition : Prop} [Decidable condition] {Post : Unit → State → Prop}
    (proper : matching.Proper state) (post : condition → Post () state) :
    matching.Traces (Handler.require condition) state Post := by
  unfold Handler.require
  split
  next holds => exact pure proper (post holds)
  next => exact stop

/-- A branch, with what its condition says. -/
theorem branch {condition : Prop} [Decidable condition] {yes no : Handler State Output α}
    (holds : condition → matching.Traces yes state Post)
    (fails : ¬ condition → matching.Traces no state Post) :
    matching.Traces (if condition then yes else no) state Post :=
  TracesFrom.branch holds fails

/-- A change of the state that is a move. -/
theorem move {change : State → State} {Post : Unit → State → Prop}
    (moved : matching.move (matching.core state) [] (matching.core (change state)))
    (proper : matching.Proper (change state)) (post : Post () (change state)) :
    matching.Traces (Handler.modify change) state Post :=
  TracesFrom.modify (.single moved) proper post

/-- A change of the state that the core does not show. -/
theorem quiet {change : State → State} {Post : Unit → State → Prop}
    (core : matching.core (change state) = matching.core state)
    (proper : matching.Proper (change state)) (post : Post () (change state)) :
    matching.Traces (Handler.modify change) state Post :=
  ⟨matching.core state, .refl, fun _ _ => ⟨core.symm, proper, post⟩⟩

/-- An output that is a move. -/
theorem emit {output : Output} {Post : Unit → State → Prop}
    (moved : matching.move (matching.core state) [output] (matching.core state))
    (proper : matching.Proper state) (post : Post () state) :
    matching.Traces (Handler.emit output) state Post :=
  ⟨matching.core state, .single moved, fun _ _ => ⟨rfl, proper, post⟩⟩

/-- One part after the other. -/
theorem bind {first : Handler State Output β} {next : β → Handler State Output α}
    {Middle : β → State → Prop} (before : matching.Traces first state Middle)
    (after : ∀ value middle, matching.Proper middle → Middle value middle →
      matching.Traces (next value) middle Post) :
    matching.Traces (first >>= next) state Post :=
  TracesFrom.bind before after

/-- The state is read first. -/
theorem get_bind {next : State → Handler State Output α}
    (rest : matching.Traces (next state) state Post) :
    matching.Traces (Handler.get >>= next) state Post :=
  rest

/-- A condition that is required first. -/
theorem require_bind {condition : Prop} [Decidable condition]
    {next : Unit → Handler State Output α} (rest : condition → matching.Traces (next ()) state Post) :
    matching.Traces (Handler.require condition >>= next) state Post :=
  TracesFrom.require_bind .refl rest

/-- A value that is demanded first. -/
theorem demand_bind {found : Option β} {next : β → Handler State Output α}
    (rest : ∀ value, found = some value → matching.Traces (next value) state Post) :
    matching.Traces (Handler.demand found >>= next) state Post :=
  TracesFrom.demand_bind .refl rest

/-- A change that is a move by itself. -/
theorem move_bind {change : State → State} {next : Unit → Handler State Output α}
    (moved : matching.move (matching.core state) [] (matching.core (change state)))
    (rest : matching.Traces (next ()) (change state) Post) :
    matching.Traces (Handler.modify change >>= next) state Post :=
  TracesFrom.modify_bind (TracesFrom.settle (.single moved) rest)

/-- A change that the core does not see. -/
theorem quiet_bind {change : State → State} {next : Unit → Handler State Output α}
    (core : matching.core (change state) = matching.core state)
    (rest : matching.Traces (next ()) (change state) Post) :
    matching.Traces (Handler.modify change >>= next) state Post := by
  unfold Traces at rest
  rw [core] at rest
  exact TracesFrom.modify_bind rest

/-- An output that is a move by itself. -/
theorem emit_bind {output : Output} {next : Unit → Handler State Output α}
    (moved : matching.move (matching.core state) [output] (matching.core state))
    (rest : matching.Traces (next ()) state Post) :
    matching.Traces (Handler.emit output >>= next) state Post :=
  TracesFrom.emit_bind (TracesFrom.settle (.single moved) rest)

/-- A loop over a list keeps an invariant that its body keeps. -/
theorem forEach {items : List β} {body : β → Handler State Output Unit} (Inv : State → Prop)
    (step : ∀ item ∈ items, ∀ state, matching.Proper state → Inv state →
      matching.Traces (body item) state fun _ => Inv)
    (proper : matching.Proper state) (holds : Inv state) :
    matching.Traces (Handler.forEach items body) state fun _ => Inv := by
  induction items generalizing state with
  | nil => exact pure proper holds
  | cons item rest inductionHypothesis =>
      refine bind (step item List.mem_cons_self state proper holds) fun _ after proper holds => ?_
      exact inductionHypothesis (fun other inRest => step other (List.mem_cons_of_mem _ inRest))
        proper holds

/-- A counted loop keeps an invariant that its body keeps. -/
theorem repeated {count : Nat} {body : Handler State Output Unit} (Inv : State → Prop)
    (step : ∀ state, matching.Proper state → Inv state →
      matching.Traces body state fun _ => Inv)
    (proper : matching.Proper state) (holds : Inv state) :
    matching.Traces (Handler.repeated count body) state fun _ => Inv := by
  induction count generalizing state with
  | zero => exact pure proper holds
  | succ count inductionHypothesis =>
      exact bind (step state proper holds) fun _ _ proper holds => inductionHypothesis proper holds

end Traces

end Matching

end PaxosBus.Library

import Mathlib.Data.List.Basic
import Mathlib.Logic.Function.Basic
import PaxosBus.Library.Transition

/-!
# Alarm clocks

A clock with many alarms. An alarm that is armed is due after its delay, and it
rings then and only then, unless it is armed again or disarmed before. Time
passes, but it does not pass the time at which an alarm is due.

The events of a clock say when what happened to its alarms. They are timely if
every ring comes exactly when the alarm was last armed for, with nothing in
between that concerns the alarm, and if no alarm has been missed.
-/

set_option autoImplicit false

namespace PaxosBus.Library

/-- What happens to alarms. -/
inductive AlarmEvent (ι : Type) where
  | armed (alarm : ι) (delay : Nat)
  | disarmed (alarm : ι)
  | rang (alarm : ι)
  | silenced
deriving DecidableEq, Repr

/-- An event is about an alarm. -/
def AlarmEvent.Concerns {ι : Type} (alarm : ι) : AlarmEvent ι → Prop
  | .armed other _ => other = alarm
  | .disarmed other => other = alarm
  | .rang other => other = alarm
  | .silenced => True

/-- What can happen to an alarm clock. -/
inductive AlarmMove (ι : Type) where
  | arm (alarm : ι) (delay : Nat)
  | disarm (alarm : ι)
  | silence
  | elapse (time : Nat)
  | ring (alarm : ι)

/-- An alarm clock, and what has happened to it. -/
structure AlarmClock (ι : Type) where
  now : Nat := 0
  due : ι → Option Nat := fun _ => none
  events : List (Nat × AlarmEvent ι) := []

namespace AlarmClock

variable {ι : Type}

/-- Note an event. -/
def note (c : AlarmClock ι) (event : AlarmEvent ι) : List (Nat × AlarmEvent ι) :=
  c.events ++ [(c.now, event)]

open Classical in
/-- One step of the clock. Time does not pass an alarm that is due, and only an alarm that is due
rings. -/
noncomputable def step [DecidableEq ι] (c : AlarmClock ι) : AlarmMove ι → Option (AlarmClock ι)
  | .arm alarm delay => some
    { c with
      due := Function.update c.due alarm (some (c.now + delay))
      events := c.note (.armed alarm delay) }
  | .disarm alarm => some
    { c with due := Function.update c.due alarm none, events := c.note (.disarmed alarm) }
  | .silence => some { c with due := fun _ => none, events := c.note .silenced }
  | .elapse time =>
    if c.now ≤ time ∧ ∀ alarm due, c.due alarm = some due → time ≤ due then
      some { c with now := time }
    else
      none
  | .ring alarm =>
    if c.due alarm = some c.now then
      some { c with due := Function.update c.due alarm none, events := c.note (.rang alarm) }
    else
      none

/-- The alarm clock as a transition system. -/
noncomputable def system (ι : Type) [DecidableEq ι] :
    TransitionSystem (AlarmClock ι) (AlarmMove ι) where
  Initial c := c = {}
  step := step

/-- An alarm has been armed for a time, and nothing has concerned it since. -/
def Armed (events : List (Nat × AlarmEvent ι)) (alarm : ι) (due : Nat) : Prop :=
  ∃ before start delay after, events = before ++ (start, .armed alarm delay) :: after ∧
    start + delay = due ∧ ∀ event ∈ after, ¬ event.2.Concerns alarm

/-- Every ring comes exactly when the alarm was armed for, and no alarm has been missed. -/
structure Timely (now : Nat) (events : List (Nat × AlarmEvent ι)) : Prop where
  rings : ∀ before time alarm after, events = before ++ (time, .rang alarm) :: after →
    Armed before alarm time
  due : ∀ alarm due, Armed events alarm due → now ≤ due
  past : ∀ event ∈ events, event.1 ≤ now
  order : (events.map Prod.fst).Pairwise (· ≤ ·)

variable {c next : AlarmClock ι} {events : List (Nat × AlarmEvent ι)} {alarm : ι} {now due : Nat}

/-- An event that does not concern an alarm leaves it as it is. -/
theorem armed_append_of_not_concerns {event : AlarmEvent ι} (other : ¬ event.Concerns alarm) :
    Armed (events ++ [(now, event)]) alarm due ↔ Armed events alarm due := by
  constructor
  · rintro ⟨before, start, delay, after, split, sum, quiet⟩
    rcases List.eq_nil_or_concat after with rfl | ⟨init, last, rfl⟩
    · obtain ⟨-, last⟩ := List.append_inj' split rfl
      obtain ⟨-, same⟩ := Prod.mk.inj (List.cons.inj last).1
      exact absurd (show AlarmEvent.Concerns alarm event from same ▸ rfl) other
    · rw [List.concat_eq_append, ← List.cons_append, ← List.append_assoc] at split
      obtain ⟨split, -⟩ := List.append_inj' split rfl
      refine ⟨before, start, delay, init, split, sum, ?_⟩
      intro event member
      apply quiet event
      rw [List.concat_eq_append]
      exact List.mem_append_left _ member
  · rintro ⟨before, start, delay, after, rfl, sum, quiet⟩
    refine ⟨before, start, delay, after ++ [(now, event)], by simp, sum, ?_⟩
    intro which member
    rcases List.mem_append.mp member with old | new
    · exact quiet which old
    · obtain rfl := List.mem_singleton.mp new
      exact other

/-- An event that concerns an alarm and does not arm it leaves it disarmed. -/
theorem not_armed_append {event : AlarmEvent ι} (concerns : event.Concerns alarm)
    (other : ∀ delay, event ≠ .armed alarm delay) :
    ¬ Armed (events ++ [(now, event)]) alarm due := by
  rintro ⟨before, start, delay, after, split, sum, quiet⟩
  rcases List.eq_nil_or_concat after with rfl | ⟨init, last, rfl⟩
  · obtain ⟨-, last⟩ := List.append_inj' split rfl
    exact other delay (Prod.mk.inj (List.cons.inj last).1).2
  · rw [List.concat_eq_append, ← List.cons_append, ← List.append_assoc] at split
    obtain ⟨-, last'⟩ := List.append_inj' split rfl
    obtain rfl := (List.cons.inj last').1
    apply quiet (now, event) _ concerns
    rw [List.concat_eq_append]
    exact List.mem_append_right _ (List.mem_singleton_self _)

/-- An alarm that has just been armed is due after its delay. -/
theorem armed_append_self {delay : Nat} :
    Armed (events ++ [(now, .armed alarm delay)]) alarm due ↔ due = now + delay := by
  constructor
  · rintro ⟨before, start, delay', after, split, sum, quiet⟩
    rcases List.eq_nil_or_concat after with rfl | ⟨init, last, rfl⟩
    · obtain ⟨-, last⟩ := List.append_inj' split rfl
      obtain ⟨rfl, same⟩ := Prod.mk.inj (List.cons.inj last).1
      obtain ⟨-, rfl⟩ := AlarmEvent.armed.inj same
      exact sum.symm
    · rw [List.concat_eq_append, ← List.cons_append, ← List.append_assoc] at split
      obtain ⟨-, last'⟩ := List.append_inj' split rfl
      obtain rfl := (List.cons.inj last').1
      have concerned : AlarmEvent.Concerns alarm (.armed alarm delay) := rfl
      apply absurd concerned
      apply quiet (now, .armed alarm delay)
      rw [List.concat_eq_append]
      exact List.mem_append_right _ (List.mem_singleton_self _)
  · rintro rfl
    exact ⟨events, now, delay, [], rfl, rfl, fun _ none_ => by cases none_⟩

/-- The events of a clock are timely, and say which alarms are due. -/
structure Sound (c : AlarmClock ι) : Prop where
  timely : Timely c.now c.events
  due : ∀ alarm due, c.due alarm = some due ↔ Armed c.events alarm due

/-- A new event that is no ring, or a ring that is due, leaves the past timely. -/
theorem Timely.note {event : AlarmEvent ι} (timely : Timely now events)
    (rings : ∀ alarm, event = .rang alarm → Armed events alarm now)
    (due : ∀ alarm due, Armed (events ++ [(now, event)]) alarm due → now ≤ due) :
    Timely now (events ++ [(now, event)]) where
  rings before time alarm after split := by
    rcases List.eq_nil_or_concat after with rfl | ⟨init, last, rfl⟩
    · obtain ⟨rfl, last⟩ := List.append_inj' split rfl
      obtain ⟨rfl, same⟩ := Prod.mk.inj (List.cons.inj last).1
      exact rings alarm same
    · rw [List.concat_eq_append, ← List.cons_append, ← List.append_assoc] at split
      obtain ⟨split, -⟩ := List.append_inj' split rfl
      exact timely.rings before time alarm init split
  due := due
  past which member := by
    rcases List.mem_append.mp member with old | new
    · exact timely.past which old
    · obtain rfl := List.mem_singleton.mp new
      exact Nat.le_refl _
  order := by
    rw [List.map_append]
    apply List.pairwise_append.mpr
    refine ⟨timely.order, List.pairwise_singleton _ _, ?_⟩
    intro time member new single
    obtain ⟨which, old, rfl⟩ := List.mem_map.mp member
    obtain rfl := List.mem_singleton.mp single
    exact timely.past which old

/-- What every event keeps: if the alarms that are due after it are those that the events say, and
none of them is overdue, the clock stays sound. -/
theorem Sound.note (sound : c.Sound) {event : AlarmEvent ι} {dues : ι → Option Nat}
    (rings : ∀ alarm, event = .rang alarm → c.due alarm = some c.now)
    (told : ∀ alarm due, dues alarm = some due ↔ Armed (c.note event) alarm due)
    (future : ∀ alarm due, dues alarm = some due → c.now ≤ due) :
    ({ c with due := dues, events := c.note event } : AlarmClock ι).Sound where
  timely := by
    apply sound.timely.note
    · intro alarm rang
      exact (sound.due alarm c.now).mp (rings alarm rang)
    · intro alarm due armed
      exact future alarm due ((told alarm due).mpr armed)
  due := told

/-- No alarm of a sound clock is overdue. -/
theorem Sound.future (sound : c.Sound) {alarm : ι} {due : Nat} (due_ : c.due alarm = some due) :
    c.now ≤ due := sound.timely.due alarm due ((sound.due alarm due).mp due_)

theorem sound_initial : ({} : AlarmClock ι).Sound where
  timely := {
    rings := fun before _ _ _ split => by cases before <;> cases split
    due := fun _ _ armed => by
      obtain ⟨before, _, _, _, split, -⟩ := armed
      cases before <;> cases split
    past := fun _ none_ => by cases none_
    order := .nil }
  due alarm due := by
    constructor
    · intro none_
      cases none_
    · rintro ⟨before, _, _, _, split, -⟩
      cases before <;> cases split

/-- An alarm that an event switches off, and the others. -/
theorem Sound.switchOff [DecidableEq ι] (sound : c.Sound) {event : AlarmEvent ι} {alarm : ι}
    (concerns : ∀ other, event.Concerns other ↔ other = alarm)
    (off : ∀ delay, event ≠ .armed alarm delay)
    (rings : ∀ alarm, event = .rang alarm → c.due alarm = some c.now) :
    ({ c with due := Function.update c.due alarm none, events := c.note event } :
      AlarmClock ι).Sound := by
  apply sound.note rings
  · intro other due
    by_cases who : other = alarm
    · subst who
      rw [Function.update_self]
      apply iff_of_false
      · intro none_
        cases none_
      · exact not_armed_append ((concerns other).mpr rfl) off
    · rw [Function.update_of_ne who, sound.due]
      exact (armed_append_of_not_concerns fun its => who ((concerns other).mp its)).symm
  · intro other due due_
    by_cases who : other = alarm
    · subst who
      rw [Function.update_self] at due_
      cases due_
    · rw [Function.update_of_ne who] at due_
      exact sound.future due_

/-- Every step leaves the clock sound. -/
theorem Sound.step [DecidableEq ι] (sound : c.Sound) {move : AlarmMove ι}
    (stepped : c.step move = some next) :
    next.Sound := by
  cases move with
  | arm alarm delay =>
      obtain rfl := Option.some.inj stepped
      apply sound.note
      · intro other rang
        cases rang
      · intro other due
        by_cases who : other = alarm
        · subst who
          simp only [Function.update_self]
          rw [AlarmClock.note, armed_append_self]
          exact ⟨fun same => (Option.some.inj same).symm, fun same => congrArg some same.symm⟩
        · rw [Function.update_of_ne who, sound.due]
          have unconcerned : ¬ (AlarmEvent.armed alarm delay).Concerns other :=
            fun its => who (Eq.symm its)
          exact (armed_append_of_not_concerns unconcerned).symm
      · intro other due due_
        by_cases who : other = alarm
        · subst who
          simp only [Function.update_self] at due_
          rw [← Option.some.inj due_]
          exact Nat.le_add_right _ _
        · rw [Function.update_of_ne who] at due_
          exact sound.future due_
  | disarm alarm =>
      obtain rfl := Option.some.inj stepped
      apply sound.switchOff
      · exact fun other => eq_comm
      · intro delay wrong
        cases wrong
      · intro other rang
        cases rang
  | silence =>
      obtain rfl := Option.some.inj stepped
      apply sound.note
      · intro other rang
        cases rang
      · intro other due
        apply iff_of_false
        · intro none_
          cases none_
        · exact not_armed_append trivial fun delay wrong => by cases wrong
      · intro other due none_
        cases none_
  | elapse time =>
      simp only [AlarmClock.step] at stepped
      split at stepped
      next enabled =>
          obtain rfl := Option.some.inj stepped
          obtain ⟨later, waits⟩ := enabled
          refine ⟨⟨sound.timely.rings, ?_, ?_, sound.timely.order⟩, sound.due⟩
          · intro alarm due armed
            exact waits alarm due ((sound.due alarm due).mpr armed)
          · intro event member
            exact Nat.le_trans (sound.timely.past event member) later
      next => cases stepped
  | ring alarm =>
      simp only [AlarmClock.step] at stepped
      split at stepped
      next enabled =>
          obtain rfl := Option.some.inj stepped
          apply sound.switchOff
          · exact fun other => eq_comm
          · intro delay wrong
            cases wrong
          · intro other rang
            obtain rfl := AlarmEvent.rang.inj rang
            exact enabled
      next => cases stepped

/-- In every reachable state, the events are timely. -/
theorem invariant_sound [DecidableEq ι] :
    (system ι).Invariant TransitionSystem.unguarded Sound where
  initial := by
    rintro c rfl
    exact sound_initial
  preserved sound _ stepped := sound.step stepped

end AlarmClock

end PaxosBus.Library

import PaxosBus.Library.AlarmClock
import PaxosBus.Library.Simulation
import PaxosBus.Simulated.Delivery

/-!
# Timeouts

A `Timeout` has a timer of the transport, which it sets again whenever it fires,
until it is stopped. Replicas and clients know it as a flag that says whether it
is running: the callback can run as long as the flag is set, and leaves it set.

Behind the timeouts of a simulated transport stands an alarm clock: a timeout
calls back exactly when its time is over since it was last started or last
called back, and never after it has been stopped.
-/

set_option autoImplicit false

namespace PaxosBus.Simulated

open PaxosBus.Library

/-- What a timer that is set by a user of the transport calls: the callback of a `Timeout`, or
something else. -/
inductive Call where
  | timeout (idx : Nat)
  | other (tag : Nat)
deriving DecidableEq, Repr

/-- `Timeout`. -/
structure Timeout where
  ms : Nat
  timerId : Nat := 0
deriving DecidableEq, Repr

/-- `Timeout::Active`. -/
def Timeout.active (timeout : Timeout) : Bool := decide (timeout.timerId ≠ 0)

/-- A transport, and the timeouts of those who use it. The last field is history. -/
structure Timed (W M : Type) where
  transport : SimulatedTransport W M Call
  timeouts : Nat → Timeout
  events : List (Nat × AlarmEvent Nat) := []

/-- What can happen next. -/
inductive TimedAction (W M : Type) where
  | use (action : Action W M Nat)
  | start (idx : Nat)
  | reset (idx : Nat)
  | stop (idx : Nat)
  | setTimeout (idx ms : Nat)

variable {W M : Type}

/-- The timers that users set themselves are not those of timeouts. -/
def Action.tagged : Action W M Nat → Action W M Call
  | .sendMessage src dst m => .sendMessage src dst m
  | .orderedMulticast src groups m => .orderedMulticast src groups m
  | .timer ms tag => .timer ms (.other tag)
  | .cancelTimer id => .cancelTimer id
  | .cancelAllTimers => .cancelAllTimers
  | .addFilter id filter => .addFilter id filter
  | .removeFilter id => .removeFilter id
  | .sessionChange => .sessionChange
  | .stop => .stop
  | .assign world => .assign world
  | .run => .run

/-- The timeout that a timer belongs to. -/
def Callback.alarm : Callback M Call → Option Nat
  | .call (.timeout idx) => some idx
  | .call (.other _) => none
  | .enqueue _ => none

/-- The timer that a user of the transport cancels. -/
def TimedAction.cancels : TimedAction W M → Option Nat
  | .use (.cancelTimer id) => some id
  | _ => none

namespace Timed

/-- Note what happens to a timeout. -/
def note (s : Timed W M) (event : AlarmEvent Nat) : Timed W M :=
  { s with events := s.events ++ [(s.transport.clock.vtime, event)] }

/-- Change the clock of the transport. -/
def setClock (s : Timed W M) (clock : Clock (Callback M Call)) : Timed W M :=
  { s with transport := { s.transport with clock := clock } }

/-- Change the timer of a timeout. -/
def setTimerId (s : Timed W M) (idx timerId : Nat) : Timed W M :=
  { s with
    timeouts := Function.update s.timeouts idx { s.timeouts idx with timerId := timerId } }

/-- `Timeout::Stop`, but for the note of it. -/
def cancel (s : Timed W M) (idx : Nat) : Timed W M :=
  if 0 < (s.timeouts idx).timerId then
    (s.setClock (s.transport.clock.cancelTimer (s.timeouts idx).timerId).1).setTimerId idx 0
  else
    s

/-- `Timeout::Stop`. -/
def stop (s : Timed W M) (idx : Nat) : Timed W M := (s.cancel idx).note (.disarmed idx)

/-- Set the timer of a timeout. -/
def arm (s : Timed W M) (idx : Nat) : Timed W M :=
  let set := s.transport.clock.timer (s.timeouts idx).ms (.call (.timeout idx))
  ((s.setClock set.1).setTimerId idx set.2).note (.armed idx (s.timeouts idx).ms)

/-- `Timeout::Reset`. -/
def reset (s : Timed W M) (idx : Nat) : Timed W M := (s.cancel idx).arm idx

/-- `Timeout::Start`. -/
def start (s : Timed W M) (idx : Nat) : Timed W M := s.reset idx

/-- `Timeout::SetTimeout`, which asserts that the timeout is not active. -/
def setTimeout (s : Timed W M) (idx ms : Nat) : Timed W M :=
  if (s.timeouts idx).active then
    { s with transport := { s.transport with crashed := true } }
  else
    { s with timeouts := Function.update s.timeouts idx { s.timeouts idx with ms := ms } }

/-- The callback that `Timeout::Reset` gives its timer, before it calls the callback of the
timeout. -/
def expire (s : Timed W M) (idx : Nat) : Timed W M :=
  ((s.setTimerId idx 0).note (.rang idx)).reset idx

variable (setup : Setup)

/-- `SimulatedTransport::Run`, with the callbacks of timeouts. -/
def run (s : Timed W M) : Timed W M :=
  let ran : Timed W M := { s with transport := s.transport.run setup }
  match s.transport.calls with
  | some (.timeout idx) => ran.expire idx
  | some (.other _) => ran
  | none => ran

/-- What an action does. -/
def act (s : Timed W M) : TimedAction W M → Timed W M
  | .use action =>
    match action with
    | .run => s.run setup
    | .cancelAllTimers => (s.setClock s.transport.clock.cancelAllTimers).note .silenced
    | other => { s with transport := s.transport.act setup other.tagged }
  | .start idx => s.start idx
  | .reset idx => s.reset idx
  | .stop idx => s.stop idx
  | .setTimeout idx ms => s.setTimeout idx ms

/-- One step. Nothing happens after an assertion has failed. -/
def step (s : Timed W M) (action : TimedAction W M) : Option (Timed W M) :=
  if s.transport.crashed then none else some (s.act setup action)

/-- A transport and timeouts that have just been constructed. -/
def initial (world : W) (periods : Nat → Nat) : Timed W M where
  transport := SimulatedTransport.initial world
  timeouts idx := { ms := periods idx }

/-- The transport with its timeouts and everything that uses them. -/
def system : TransitionSystem (Timed W M) (TimedAction W M) where
  Initial s := ∃ world periods, s = initial world periods
  step := step setup

/-- The users of the transport cancel no timer of a timeout. -/
def Proper (s : Timed W M) (action : TimedAction W M) : Prop :=
  ∀ id ∈ action.cancels, ∀ timer ∈ s.transport.clock.pending, timer.id = id →
    timer.cb.alarm = none

instance (s : Timed W M) (action : TimedAction W M) : Decidable (s.Proper action) :=
  inferInstanceAs (Decidable (∀ id ∈ action.cancels, ∀ timer ∈ s.transport.clock.pending,
    timer.id = id → timer.cb.alarm = none))

/-- Only a timeout cancels its timer, and no deadline has wrapped around. -/
def Admitted (s : Timed W M) (action : TimedAction W M) : Prop :=
  s.Proper action ∧ (s.act setup action).transport.clock.Fits

instance (s : Timed W M) (action : TimedAction W M) : Decidable (s.Admitted setup action) :=
  inferInstanceAs (Decidable (s.Proper action ∧ (s.act setup action).transport.clock.Fits))

end Timed

/-! ## What leaves the timeouts alone -/

/-- A clock has moved without touching the timers of timeouts. -/
structure Undisturbed (c after : Clock (Callback M Call)) : Prop where
  vtime : after.vtime = c.vtime
  processTimers : after.processTimers = c.processTimers
  created : ∀ timer ∈ c.created, timer ∈ after.created
  alarms : ∀ timer, timer.cb.alarm ≠ none → (timer ∈ after.pending ↔ timer ∈ c.pending)

namespace Undisturbed

variable {c middle after : Clock (Callback M Call)}

theorem refl : Undisturbed c c where
  vtime := rfl
  processTimers := rfl
  created _ member := member
  alarms _ _ := Iff.rfl

/-- What is left undisturbed twice is undisturbed. -/
theorem trans (first : Undisturbed c middle) (second : Undisturbed middle after) :
    Undisturbed c after where
  vtime := second.vtime.trans first.vtime
  processTimers := second.processTimers.trans first.processTimers
  created timer member := second.created timer (first.created timer member)
  alarms timer alarm := (second.alarms timer alarm).trans (first.alarms timer alarm)

/-- Setting a timer that is not one of a timeout touches none of those. -/
theorem timer {cb : Callback M Call} (other : cb.alarm = none) (ms : Nat) :
    Undisturbed c (c.timer ms cb).1 where
  vtime := rfl
  processTimers := rfl
  created timer member := List.mem_append_left _ member
  alarms timer alarm := by
    rw [Clock.mem_pending_timer]
    constructor
    · rintro (rfl | old)
      · exact absurd other alarm
      · exact old
    · exact .inr

/-- Nor does cancelling such a timer. -/
theorem cancelTimer {id : Nat}
    (other : ∀ timer ∈ c.pending, timer.id = id → timer.cb.alarm = none) :
    Undisturbed c (c.cancelTimer id).1 where
  vtime := rfl
  processTimers := rfl
  created timer member := member
  alarms timer alarm := by
    rw [Clock.mem_pending_cancelTimer]
    constructor
    · exact And.left
    · intro member
      exact ⟨member, fun same => alarm (other timer member same)⟩

end Undisturbed

/-- Sending sets at most the timer of a delay. -/
theorem undisturbed_sendStamped (t : SimulatedTransport W M Call) (src dst : Nat) (m : M)
    (stamp : Option Multistamp) :
    Undisturbed t.clock (t.sendStamped src dst m stamp).clock := by
  unfold SimulatedTransport.sendStamped SimulatedTransport.accept
  simp only
  split
  · split
    · exact .refl
    · exact .timer rfl _
  · exact .refl

/-- A multicast arms no timer but those that delay it. -/
theorem undisturbed_orderedMulticast (setup : Setup) (t : SimulatedTransport W M Call) (src : Nat)
    (groups : List Int) (m : M) :
    Undisturbed t.clock (t.orderedMulticast setup src groups m).clock := by
  apply SimulatedTransport.orderedMulticast_keeps
    (motive := fun after : SimulatedTransport W M Call => Undisturbed t.clock after.clock)
  · exact .refl
  · intro after dst _ undisturbed
    exact undisturbed.trans (undisturbed_sendStamped after src dst m _)

namespace Timed

variable {setup : Setup} {s : Timed W M}

/-! ## The timers of timeouts -/

/-- What the timeouts know of their timers: a timer that is pending for a timeout is the one that it
knows, which has been set for it, and an active timeout has one unless timers are not processed. -/
structure Kept (s : Timed W M) : Prop where
  right : s.transport.clock.Right
  owned : ∀ idx, 0 < (s.timeouts idx).timerId → ∃ timer ∈ s.transport.clock.created,
    timer.id = (s.timeouts idx).timerId ∧ timer.cb.alarm = some idx
  mine : ∀ timer ∈ s.transport.clock.pending, ∀ idx, timer.cb.alarm = some idx →
    timer.id = (s.timeouts idx).timerId
  live : ∀ idx, 0 < (s.timeouts idx).timerId → s.transport.clock.processTimers = true →
    ∃ timer ∈ s.transport.clock.pending, timer.cb.alarm = some idx

/-- A timer is pending for a timeout. -/
def Due (s : Timed W M) (idx due : Nat) : Prop :=
  ∃ timer ∈ s.transport.clock.pending, timer.cb.alarm = some idx ∧ timer.when = due

/-- An alarm clock stands behind the timeouts. -/
structure Related (s : Timed W M) (c : AlarmClock Nat) : Prop where
  kept : s.Kept
  now : c.now = s.transport.clock.vtime
  due : ∀ idx due, c.due idx = some due ↔ s.Due idx due
  events : c.events = s.events

/-- Timers that are pending for one timeout are one timer. -/
theorem Kept.single (kept : s.Kept) {idx : Nat} {first second : PendingTimer (Callback M Call)}
    (pending : first ∈ s.transport.clock.pending) (pending' : second ∈ s.transport.clock.pending)
    (mine : first.cb.alarm = some idx) (mine' : second.cb.alarm = some idx) : first = second := by
  apply kept.right.eq_of_id
  · exact kept.right.created_of_mem (List.mem_append_right _ pending)
  · exact kept.right.created_of_mem (List.mem_append_right _ pending')
  · rw [kept.mine first pending idx mine, kept.mine second pending' idx mine']

/-- What leaves the timers of timeouts alone leaves the timeouts. -/
theorem Kept.undisturbed (kept : s.Kept) {after : Timed W M}
    (undisturbed : Undisturbed s.transport.clock after.transport.clock)
    (right : after.transport.clock.Right) (same : ∀ idx,
      (after.timeouts idx).timerId = (s.timeouts idx).timerId) : after.Kept where
  right := right
  owned idx active := by
    rw [same] at active ⊢
    obtain ⟨timer, created, found⟩ := kept.owned idx active
    exact ⟨timer, undisturbed.created timer created, found⟩
  mine timer pending idx alarm := by
    rw [same]
    have some_ : timer.cb.alarm ≠ none := by
      rw [alarm]
      exact Option.some_ne_none idx
    exact kept.mine timer ((undisturbed.alarms timer some_).mp pending) idx alarm
  live idx active processed := by
    rw [same] at active
    rw [undisturbed.processTimers] at processed
    obtain ⟨timer, pending, alarm⟩ := kept.live idx active processed
    have some_ : timer.cb.alarm ≠ none := by
      rw [alarm]
      exact Option.some_ne_none idx
    exact ⟨timer, (undisturbed.alarms timer some_).mpr pending, alarm⟩

/-- What is due stays due. -/
theorem due_undisturbed {after : Timed W M}
    (undisturbed : Undisturbed s.transport.clock after.transport.clock) {idx due : Nat} :
    after.Due idx due ↔ s.Due idx due := by
  have some_ : ∀ {timer : PendingTimer (Callback M Call)}, timer.cb.alarm = some idx →
      timer.cb.alarm ≠ none := by
    intro timer alarm
    rw [alarm]
    exact Option.some_ne_none idx
  constructor
  · rintro ⟨timer, pending, alarm, when_⟩
    exact ⟨timer, (undisturbed.alarms timer (some_ alarm)).mp pending, alarm, when_⟩
  · rintro ⟨timer, pending, alarm, when_⟩
    exact ⟨timer, (undisturbed.alarms timer (some_ alarm)).mpr pending, alarm, when_⟩

/-- What does not disturb the clock keeps timeouts and alarms related. -/
theorem Related.undisturbed {c : AlarmClock Nat} (related : s.Related c) {after : Timed W M}
    (undisturbed : Undisturbed s.transport.clock after.transport.clock)
    (right : after.transport.clock.Right)
    (same : ∀ idx, (after.timeouts idx).timerId = (s.timeouts idx).timerId)
    (events : after.events = s.events) : after.Related c where
  kept := related.kept.undisturbed undisturbed right same
  now := related.now.trans undisturbed.vtime.symm
  due idx due := (related.due idx due).trans (due_undisturbed undisturbed).symm
  events := related.events.trans events.symm

/-! ## Cancelling and setting the timer of a timeout -/

variable {idx : Nat} {c : AlarmClock Nat}

/-- What `cancel` leaves as it is. -/
theorem frame_cancel (s : Timed W M) (idx : Nat) : (s.cancel idx).events = s.events ∧
    (s.cancel idx).transport.clock.vtime = s.transport.clock.vtime ∧
    (s.cancel idx).transport.clock.processTimers = s.transport.clock.processTimers ∧
    (s.cancel idx).transport.clock.created = s.transport.clock.created ∧
    ((s.cancel idx).timeouts idx).ms = (s.timeouts idx).ms := by
  unfold cancel
  split
  · refine ⟨rfl, rfl, rfl, rfl, ?_⟩
    show (Function.update s.timeouts idx _ idx).ms = _
    rw [Function.update_self]
    rfl
  · exact ⟨rfl, rfl, rfl, rfl, rfl⟩

/-- A cancelled timeout has no timer, and the others keep theirs. -/
theorem timerId_cancel (other : Nat) : ((s.cancel idx).timeouts other).timerId =
    if other = idx then 0 else (s.timeouts other).timerId := by
  unfold cancel
  split
  next active =>
      show (Function.update s.timeouts idx _ other).timerId = _
      by_cases who : other = idx
      · subst who
        rw [Function.update_self, if_pos rfl]
      · rw [Function.update_of_ne who, if_neg who]
  next inactive =>
      by_cases who : other = idx
      · subst who
        rw [if_pos rfl]
        exact Nat.eq_zero_of_not_pos inactive
      · rw [if_neg who]

/-- The timers of other timeouts stay pending, and no timer of the cancelled one does. -/
theorem Kept.mem_cancel (kept : s.Kept) {timer : PendingTimer (Callback M Call)} {other : Nat}
    (alarm : timer.cb.alarm = some other) :
    timer ∈ (s.cancel idx).transport.clock.pending ↔
      other ≠ idx ∧ timer ∈ s.transport.clock.pending := by
  unfold cancel
  split
  next active =>
      show timer ∈ (s.transport.clock.cancelTimer (s.timeouts idx).timerId).1.pending ↔ _
      rw [Clock.mem_pending_cancelTimer]
      constructor
      · rintro ⟨pending, different⟩
        refine ⟨?_, pending⟩
        rintro rfl
        exact different (kept.mine timer pending other alarm)
      · rintro ⟨who, pending⟩
        refine ⟨pending, fun same => who ?_⟩
        obtain ⟨owned, created, id, alarm'⟩ := kept.owned idx active
        have created' := kept.right.created_of_mem (List.mem_append_right _ pending)
        obtain rfl := kept.right.eq_of_id created created' (id.trans same.symm)
        exact Option.some.inj (alarm.symm.trans alarm')
  next inactive =>
      constructor
      · intro pending
        refine ⟨?_, pending⟩
        rintro rfl
        have created := kept.right.created_of_mem (List.mem_append_right _ pending)
        have positive := kept.right.positive timer created
        rw [kept.mine timer pending other alarm] at positive
        exact inactive positive
      · exact And.right

/-- Cancelling leaves the timeouts right. -/
theorem Kept.cancel (kept : s.Kept) (idx : Nat) : (s.cancel idx).Kept := by
  obtain ⟨-, -, processTimers, created, -⟩ := frame_cancel s idx
  constructor
  · unfold Timed.cancel
    split
    · exact kept.right.cancelTimer _
    · exact kept.right
  · intro other active
    rw [timerId_cancel] at active ⊢
    split at active
    next => exact absurd active (Nat.lt_irrefl 0)
    next who =>
        rw [created, if_neg who]
        exact kept.owned other active
  · intro timer pending other alarm
    obtain ⟨who, pending⟩ := (kept.mem_cancel alarm).mp pending
    rw [timerId_cancel, if_neg who]
    exact kept.mine timer pending other alarm
  · intro other active processed
    rw [timerId_cancel] at active
    rw [processTimers] at processed
    split at active
    next => exact absurd active (Nat.lt_irrefl 0)
    next who =>
        obtain ⟨timer, pending, alarm⟩ := kept.live other active processed
        exact ⟨timer, (kept.mem_cancel alarm).mpr ⟨who, pending⟩, alarm⟩

/-- A timeout that is cancelled is not due, and the others are as before. -/
theorem Kept.due_cancel (kept : s.Kept) {other due : Nat} :
    (s.cancel idx).Due other due ↔ other ≠ idx ∧ s.Due other due := by
  constructor
  · rintro ⟨timer, pending, alarm, when_⟩
    obtain ⟨who, pending⟩ := (kept.mem_cancel alarm).mp pending
    exact ⟨who, timer, pending, alarm, when_⟩
  · rintro ⟨who, timer, pending, alarm, when_⟩
    exact ⟨timer, (kept.mem_cancel alarm).mpr ⟨who, pending⟩, alarm, when_⟩

/-- A note leaves the timeouts as they are. -/
theorem Kept.note (kept : s.Kept) (event : AlarmEvent Nat) : (s.note event).Kept :=
  kept.undisturbed .refl kept.right fun _ => rfl

/-- `Timeout::Stop` disarms the alarm. -/
theorem Related.stop (related : s.Related c) (idx : Nat) :
    ∃ next, c.step (.disarm idx) = some next ∧ (s.stop idx).Related next := by
  obtain ⟨events, vtime, -⟩ := frame_cancel s idx
  refine ⟨_, rfl, (related.kept.cancel idx).note _, related.now.trans vtime.symm, ?_, ?_⟩
  · intro other due
    show Function.update c.due idx none other = some due ↔ (s.cancel idx).Due other due
    rw [related.kept.due_cancel]
    by_cases who : other = idx
    · subst who
      rw [Function.update_self]
      apply iff_of_false
      · intro none_
        cases none_
      · exact fun wrong => wrong.1 rfl
    · rw [Function.update_of_ne who, related.due]
      exact ⟨fun due => ⟨who, due⟩, And.right⟩
  · show c.events ++ [(c.now, _)] = (s.cancel idx).events ++ [_]
    rw [events, vtime, related.events, related.now]

/-- An alarm clock stands behind all timeouts but one, which is not active. -/
structure Beside (s : Timed W M) (idx : Nat) (c : AlarmClock Nat) : Prop where
  kept : s.Kept
  now : c.now = s.transport.clock.vtime
  due : ∀ other ≠ idx, ∀ due, c.due other = some due ↔ s.Due other due
  events : c.events = s.events
  off : (s.timeouts idx).timerId = 0

/-- The other timeouts are related as before when one is cancelled. -/
theorem Related.beside_cancel (related : s.Related c) (idx : Nat) :
    (s.cancel idx).Beside idx c := by
  obtain ⟨events, vtime, -⟩ := frame_cancel s idx
  constructor
  · exact related.kept.cancel idx
  · exact related.now.trans vtime.symm
  · intro other who due
    rw [related.kept.due_cancel, related.due]
    exact ⟨fun due => ⟨who, due⟩, And.right⟩
  · exact related.events.trans events.symm
  · rw [timerId_cancel, if_pos rfl]

/-- Setting the timer of that timeout arms its alarm. -/
theorem Beside.arm (related : s.Beside idx c)
    (fits : (s.arm idx).transport.clock.Fits) :
    ∃ next, c.step (.arm idx (s.timeouts idx).ms) = some next ∧ (s.arm idx).Related next := by
  have small : s.transport.clock.vtime + (s.timeouts idx).ms < 2 ^ 64 :=
    fits (s.transport.clock.next (s.timeouts idx).ms (.call (.timeout idx)))
      (List.mem_append_right _ (List.mem_singleton_self _))
  have kept := related.kept
  have right := kept.right.timer small (.call (.timeout idx))
  have when_ := Clock.when_next small (Callback.call (M := M) (Call.timeout idx))
  have ids : ∀ other, ((s.arm idx).timeouts other).timerId =
      if other = idx then s.transport.clock.lastTimerId + 1
      else (s.timeouts other).timerId := by
    intro other
    show (Function.update s.timeouts idx _ other).timerId = _
    by_cases who : other = idx
    · subst who
      rw [Function.update_self, if_pos rfl]
      rfl
    · rw [Function.update_of_ne who, if_neg who]
  have pending : ∀ timer, timer ∈ (s.arm idx).transport.clock.pending ↔
      timer = s.transport.clock.next (s.timeouts idx).ms (.call (.timeout idx)) ∨
        timer ∈ s.transport.clock.pending := fun timer => Clock.mem_pending_timer
  -- no timer was pending for the timeout
  have none_ : ∀ timer ∈ s.transport.clock.pending, timer.cb.alarm ≠ some idx := by
    intro timer old alarm
    have created := kept.right.created_of_mem (List.mem_append_right _ old)
    have positive := kept.right.positive timer created
    rw [kept.mine timer old idx alarm, related.off] at positive
    exact Nat.lt_irrefl 0 positive
  refine ⟨_, rfl, ⟨right, ?_, ?_, ?_⟩, related.now, ?_, ?_⟩
  · intro other active
    rw [ids] at active ⊢
    by_cases who : other = idx
    · subst who
      rw [if_pos rfl]
      exact ⟨_, List.mem_append_right _ (List.mem_singleton_self _), rfl, rfl⟩
    · rw [if_neg who] at active ⊢
      obtain ⟨timer, created, found⟩ := kept.owned other active
      exact ⟨timer, List.mem_append_left _ created, found⟩
  · intro timer member other alarm
    rw [ids]
    rcases (pending timer).mp member with rfl | old
    · obtain rfl := Option.some.inj alarm
      rw [if_pos rfl]
      rfl
    · have who : other ≠ idx := by
        rintro rfl
        exact none_ timer old alarm
      rw [if_neg who]
      exact kept.mine timer old other alarm
  · intro other active processed
    rw [ids] at active
    by_cases who : other = idx
    · subst who
      exact ⟨_, (pending _).mpr (.inl rfl), rfl⟩
    · rw [if_neg who] at active
      obtain ⟨timer, old, alarm⟩ := kept.live other active processed
      exact ⟨timer, (pending timer).mpr (.inr old), alarm⟩
  · intro other due
    show Function.update c.due idx (some (c.now + (s.timeouts idx).ms)) other = some due ↔ _
    by_cases who : other = idx
    · subst who
      rw [Function.update_self, related.now]
      constructor
      · intro same
        refine ⟨_, (pending _).mpr (.inl rfl), rfl, ?_⟩
        rw [when_]
        exact Option.some.inj same
      · rintro ⟨timer, member, alarm, rfl⟩
        rcases (pending timer).mp member with rfl | old
        · rw [when_]
        · exact absurd alarm (none_ timer old)
    · rw [Function.update_of_ne who, related.due other who]
      constructor
      · rintro ⟨timer, old, found⟩
        exact ⟨timer, (pending timer).mpr (.inr old), found⟩
      · rintro ⟨timer, member, alarm, found⟩
        rcases (pending timer).mp member with rfl | old
        · exact absurd (Option.some.inj alarm).symm who
        · exact ⟨timer, old, alarm, found⟩
  · show c.events ++ [(c.now, _)] = s.events ++ [_]
    rw [related.events, related.now]
    rfl

/-- `Timeout::Reset` arms the alarm. -/
theorem Related.reset (related : s.Related c) (fits : (s.reset idx).transport.clock.Fits) :
    ∃ next, c.step (.arm idx (s.timeouts idx).ms) = some next ∧ (s.reset idx).Related next := by
  obtain ⟨-, -, -, -, ms⟩ := frame_cancel s idx
  rw [← ms]
  exact (related.beside_cancel idx).arm fits

/-! ## What `Run` does to timeouts -/

/-- The clock of the transport after its earliest timer has fired. -/
def fired (s : Timed W M) (timer : PendingTimer (Callback M Call)) : Timed W M :=
  s.setClock (s.transport.clock.fire timer)

/-- Time passes until the earliest timer is due. -/
theorem Related.elapse (related : s.Related c) {timer : PendingTimer (Callback M Call)}
    (earliest : s.transport.clock.earliest = some timer) :
    c.step (.elapse timer.when) = some { c with now := timer.when } := by
  have right := related.kept.right
  have first : timer ∈ s.transport.clock.pending :=
    (Clock.mem_pending_fire earliest).mpr (.inl rfl)
  simp only [AlarmClock.step]
  apply if_pos
  constructor
  · rw [related.now]
    exact right.due timer first
  · intro alarm due due_
    obtain ⟨other, pending, -, rfl⟩ := (related.due alarm due).mp due_
    exact right.earliest_le earliest other pending

/-- A timer that belongs to no timeout leaves them alone when it fires, except that time passes. -/
theorem Related.fire_other (related : s.Related c) {timer : PendingTimer (Callback M Call)}
    (earliest : s.transport.clock.earliest = some timer) (other : timer.cb.alarm = none) :
    (s.fired timer).Related { c with now := timer.when } := by
  have same : ∀ which : PendingTimer (Callback M Call), which.cb.alarm ≠ none →
      (which ∈ (s.fired timer).transport.clock.pending ↔
        which ∈ s.transport.clock.pending) := by
    intro which alarm
    rw [Clock.mem_pending_fire earliest]
    constructor
    · exact .inr
    · rintro (rfl | rest)
      · exact absurd other alarm
      · exact rest
  have kept := related.kept
  have some_ : ∀ {which : PendingTimer (Callback M Call)} {idx : Nat},
      which.cb.alarm = some idx → which.cb.alarm ≠ none := by
    intro which idx alarm
    rw [alarm]
    exact Option.some_ne_none idx
  refine ⟨⟨kept.right.fire earliest, kept.owned, ?_, ?_⟩, rfl, ?_, related.events⟩
  · intro which pending idx alarm
    exact kept.mine which ((same which (some_ alarm)).mp pending) idx alarm
  · intro idx active processed
    obtain ⟨which, pending, alarm⟩ := kept.live idx active processed
    exact ⟨which, (same which (some_ alarm)).mpr pending, alarm⟩
  · intro idx due
    rw [related.due]
    constructor
    · rintro ⟨which, pending, alarm, when_⟩
      exact ⟨which, (same which (some_ alarm)).mpr pending, alarm, when_⟩
    · rintro ⟨which, pending, alarm, when_⟩
      exact ⟨which, (same which (some_ alarm)).mp pending, alarm, when_⟩

/-- A timeout whose timer has fired rings, and is not active until it is reset. -/
theorem Related.ring (related : s.Related c) {timer : PendingTimer (Callback M Call)}
    (earliest : s.transport.clock.earliest = some timer) (alarm : timer.cb.alarm = some idx) :
    ∃ next, ({ c with now := timer.when } : AlarmClock Nat).step (.ring idx) = some next ∧
      (((s.fired timer).setTimerId idx 0).note (.rang idx)).Related next := by
  have kept := related.kept
  have first : timer ∈ s.transport.clock.pending :=
    (Clock.mem_pending_fire earliest).mpr (.inl rfl)
  have due_ : c.due idx = some timer.when :=
    (related.due idx timer.when).mpr ⟨timer, first, alarm, rfl⟩
  have rest : ∀ {which : PendingTimer (Callback M Call)} {other : Nat},
      which.cb.alarm = some other →
        (which ∈ (s.fired timer).transport.clock.pending ↔
          other ≠ idx ∧ which ∈ s.transport.clock.pending) := by
    intro which other its
    rw [Clock.mem_pending_fire earliest]
    constructor
    · intro pending
      refine ⟨?_, .inr pending⟩
      rintro rfl
      obtain rfl := kept.single first ((Clock.mem_pending_fire earliest).mpr (.inr pending))
        alarm its
      exact kept.right.not_pending_fire earliest pending
    · rintro ⟨who, rfl | pending⟩
      · exact absurd (Option.some.inj (its.symm.trans alarm)) who
      · exact pending
  have ids : ∀ other,
      ((((s.fired timer).setTimerId idx 0).note (.rang idx)).timeouts other).timerId =
        if other = idx then 0 else (s.timeouts other).timerId := by
    intro other
    show (Function.update s.timeouts idx _ other).timerId = _
    by_cases who : other = idx
    · subst who
      rw [Function.update_self, if_pos rfl]
    · rw [Function.update_of_ne who, if_neg who]
  refine ⟨{ now := timer.when, due := Function.update c.due idx none,
            events := c.events ++ [(timer.when, .rang idx)] }, ?_, ?_⟩
  · simp only [AlarmClock.step]
    exact if_pos due_
  refine ⟨⟨kept.right.fire earliest, ?_, ?_, ?_⟩, rfl, ?_, ?_⟩
  · intro other active
    rw [ids] at active ⊢
    split at active
    next => exact absurd active (Nat.lt_irrefl 0)
    next who =>
        rw [if_neg who]
        exact kept.owned other active
  · intro which pending other its
    obtain ⟨who, pending⟩ := (rest its).mp pending
    rw [ids, if_neg who]
    exact kept.mine which pending other its
  · intro other active processed
    rw [ids] at active
    split at active
    next => exact absurd active (Nat.lt_irrefl 0)
    next who =>
        obtain ⟨which, pending, its⟩ := kept.live other active processed
        exact ⟨which, (rest its).mpr ⟨who, pending⟩, its⟩
  · intro other due
    show Function.update c.due idx none other = some due ↔ _
    by_cases who : other = idx
    · subst who
      rw [Function.update_self]
      apply iff_of_false
      · intro none_
        cases none_
      · rintro ⟨which, pending, its, -⟩
        exact ((rest its).mp pending).1 rfl
    · rw [Function.update_of_ne who, related.due]
      constructor
      · rintro ⟨which, pending, its, when_⟩
        exact ⟨which, (rest its).mpr ⟨who, pending⟩, its, when_⟩
      · rintro ⟨which, pending, its, when_⟩
        exact ⟨which, ((rest its).mp pending).2, its, when_⟩
  · show c.events ++ [(timer.when, _)] = s.events ++ [_]
    rw [related.events]
    rfl

/-- Timeouts depend on the transport by its clock only. -/
theorem Related.of_clock (related : s.Related c) {after : Timed W M}
    (clock : after.transport.clock = s.transport.clock)
    (same : ∀ idx, (after.timeouts idx).timerId = (s.timeouts idx).timerId)
    (events : after.events = s.events) : after.Related c := by
  apply related.undisturbed _ _ same events
  · rw [clock]
    exact .refl
  · rw [clock]
    exact related.kept.right

/-- A step of the alarm clock. -/
theorem steps_single {c next : AlarmClock Nat} {move : AlarmMove Nat}
    (stepped : c.step move = some next) :
    (AlarmClock.system Nat).Steps TransitionSystem.unguarded c [move] next :=
  TransitionSystem.Steps.single stepped

/-- What `Run` does is matched by the alarm clock. -/
theorem Related.run (related : s.Related c) (fits : (s.run setup).transport.clock.Fits) :
    ∃ moves next, (AlarmClock.system Nat).Steps TransitionSystem.unguarded c moves next ∧
      (s.run setup).Related next := by
  rcases SimulatedTransport.run_cases setup related.kept.right with
    ⟨clock, called⟩ | ⟨timer, earliest, clock, called⟩
  · have ran : s.run setup = { s with transport := s.transport.run setup } := by
      unfold Timed.run
      rw [called]
    rw [ran]
    exact ⟨[], c, .refl, related.of_clock clock (fun _ => rfl) rfl⟩
  · have elapsed := steps_single (related.elapse earliest)
    have other : timer.cb.alarm = none →
        ({ s with transport := s.transport.run setup } : Timed W M).Related
          { c with now := timer.when } := by
      intro other
      exact (related.fire_other earliest other).of_clock clock (fun _ => rfl) rfl
    unfold Timed.run at fits ⊢
    rw [called] at fits ⊢
    cases cb : timer.cb with
    | enqueue q => exact ⟨_, _, elapsed, other (by rw [cb]; rfl)⟩
    | call call =>
        cases call with
        | other tag => exact ⟨_, _, elapsed, other (by rw [cb]; rfl)⟩
        | timeout idx =>
            rw [cb] at fits
            have alarm : timer.cb.alarm = some idx := by
              rw [cb]
              rfl
            obtain ⟨rung, ringing, related⟩ := related.ring earliest alarm
            have ran : ((({ s with transport := s.transport.run setup } : Timed W M).setTimerId
                idx 0).note (.rang idx)).Related rung := by
              apply related.of_clock clock
              · exact fun _ => rfl
              · show s.events ++ [((s.transport.run setup).clock.vtime, _)] = _
                rw [clock]
                rfl
            obtain ⟨armed, arming, related⟩ := ran.reset fits
            exact ⟨_, armed, (elapsed.trans (steps_single ringing)).trans (steps_single arming),
              related⟩

/-! ## Timeouts are timely -/

/-- A user of the transport that neither runs it nor cancels all timers leaves the timeouts
alone. -/
theorem undisturbed_use (setup : Setup) {action : Action W M Nat}
    (proper : s.Proper (.use action)) (run : action ≠ .run) (all : action ≠ .cancelAllTimers) :
    Undisturbed s.transport.clock (s.transport.act setup action.tagged).clock := by
  cases action with
  | sendMessage src dst m => exact undisturbed_sendStamped s.transport src dst m none
  | orderedMulticast src groups m =>
      exact undisturbed_orderedMulticast setup s.transport src groups m
  | timer ms tag => exact .timer rfl ms
  | cancelTimer id => exact .cancelTimer (proper id rfl)
  | cancelAllTimers => exact absurd rfl all
  | run => exact absurd rfl run
  | addFilter | removeFilter | sessionChange | stop | assign => exact .refl

/-- What such a user does. -/
theorem act_use (setup : Setup) {action : Action W M Nat} (run : action ≠ .run)
    (all : action ≠ .cancelAllTimers) :
    s.act setup (.use action) = { s with transport := s.transport.act setup action.tagged } := by
  cases action with
  | cancelAllTimers => exact absurd rfl all
  | run => exact absurd rfl run
  | sendMessage | orderedMulticast | timer | cancelTimer | addFilter | removeFilter
  | sessionChange | stop | assign => rfl

/-- Cancelling all timers silences the alarm clock. -/
theorem Related.cancelAllTimers (related : s.Related c) :
    ∃ next, c.step .silence = some next ∧
      ((s.setClock s.transport.clock.cancelAllTimers).note .silenced).Related next := by
  have kept := related.kept
  refine ⟨_, rfl, ⟨kept.right.cancelAllTimers, kept.owned, ?_, ?_⟩, related.now, ?_, ?_⟩
  · intro timer none_
    cases none_
  · intro idx _ processed
    cases processed
  · intro idx due
    apply iff_of_false
    · intro none_
      cases none_
    · rintro ⟨timer, none_, -⟩
      cases none_
  · show c.events ++ [(c.now, _)] = s.events ++ [_]
    rw [related.events, related.now]
    rfl

/-- Setting the time of a timeout that is not active touches no timer. -/
theorem Related.setTimeout (related : s.Related c) (idx ms : Nat) :
    (s.setTimeout idx ms).Related c := by
  unfold Timed.setTimeout
  split
  · exact related.of_clock rfl (fun _ => rfl) rfl
  · refine related.of_clock rfl ?_ rfl
    intro other
    show (Function.update s.timeouts idx _ other).timerId = _
    by_cases who : other = idx
    · subst who
      rw [Function.update_self]
    · rw [Function.update_of_ne who]

/-- What happens to timeouts is matched by what can happen to an alarm clock. -/
theorem simulation (setup : Setup) :
    (system (W := W) (M := M) setup).Simulation (Admitted setup) (AlarmClock.system Nat)
      Related where
  initial := by
    rintro s ⟨world, periods, rfl⟩
    refine ⟨{}, rfl, ⟨Clock.right_initial, ?_, ?_, ?_⟩, rfl, ?_, rfl⟩
    · intro idx active
      exact absurd active (Nat.lt_irrefl 0)
    · intro timer none_
      cases none_
    · intro idx active
      exact absurd active (Nat.lt_irrefl 0)
    · intro idx due
      apply iff_of_false
      · intro none_
        cases none_
      · rintro ⟨timer, none_, -⟩
        cases none_
  matched {s c action next} related admitted stepped := by
    obtain ⟨proper, fits⟩ := admitted
    simp only [system, step] at stepped
    split at stepped
    · cases stepped
    · obtain rfl := Option.some.inj stepped
      cases action with
      | start idx =>
          obtain ⟨armed, arming, related⟩ := related.reset fits
          exact ⟨_, armed, steps_single arming, related⟩
      | reset idx =>
          obtain ⟨armed, arming, related⟩ := related.reset fits
          exact ⟨_, armed, steps_single arming, related⟩
      | stop idx =>
          obtain ⟨off, disarming, related⟩ := related.stop idx
          exact ⟨_, off, steps_single disarming, related⟩
      | setTimeout idx ms => exact ⟨[], c, .refl, related.setTimeout idx ms⟩
      | use action =>
          by_cases run : action = .run
          · subst run
            exact related.run fits
          · by_cases all : action = .cancelAllTimers
            · subst all
              obtain ⟨off, silencing, related⟩ := related.cancelAllTimers
              exact ⟨_, off, steps_single silencing, related⟩
            · have undisturbed := undisturbed_use setup proper run all
              have moves := (SimulatedTransport.act_clock setup related.kept.right action.tagged).1
              rw [act_use setup run all] at fits ⊢
              have right := related.kept.right.of_moves moves fits
              exact ⟨[], c, .refl, related.undisturbed undisturbed right (fun _ => rfl) rfl⟩

/-- What is right about timeouts: they call back exactly when their time is over since they were
last started or reset, and never after they have been stopped; no call is missed; and a timeout is
active exactly if it has been started and not stopped since, unless all timers have been
cancelled. -/
structure Timely (s : Timed W M) : Prop where
  events : AlarmClock.Timely s.transport.clock.vtime s.events
  active : s.transport.clock.processTimers = true → ∀ idx,
    (s.timeouts idx).active = true ↔ ∃ due, AlarmClock.Armed s.events idx due

/-- In every reachable state, as long as no deadline has wrapped around, the timeouts have called
back when they should have. -/
theorem timely_of_reachable (reachable : (system setup).Reachable (Admitted setup) s) :
    s.Timely := by
  obtain ⟨c, reached, related⟩ := (simulation setup).of_reachable reachable
  have sound := AlarmClock.invariant_sound.of_reachable reached
  constructor
  · rw [← related.now, ← related.events]
    exact sound.timely
  · intro processed idx
    have active : (s.timeouts idx).active = true ↔ 0 < (s.timeouts idx).timerId := by
      unfold Timeout.active
      rw [decide_eq_true_iff]
      exact Nat.pos_iff_ne_zero.symm
    rw [active, ← related.events]
    constructor
    · intro live
      obtain ⟨timer, pending, alarm⟩ := related.kept.live idx live processed
      exact ⟨timer.when, (sound.due idx timer.when).mp
        ((related.due idx timer.when).mpr ⟨timer, pending, alarm, rfl⟩)⟩
    · rintro ⟨due, armed⟩
      obtain ⟨timer, pending, alarm, -⟩ :=
        (related.due idx due).mp ((sound.due idx due).mpr armed)
      have created := related.kept.right.created_of_mem (List.mem_append_right _ pending)
      rw [← related.kept.mine timer pending idx alarm]
      exact related.kept.right.positive timer created

/-- Two timeouts are started, the second one is reset and calls back, and the first one is stopped
before its time. -/
def timeoutRun : List (TimedAction Unit String) :=
  [.start 0, .use (.timer 300 7), .start 1, .use .run, .use .run, .reset 1, .use .run, .use .run,
    .use .run, .stop 0, .use .run, .use .run]

theorem timely_timeoutRun : ∃ s : Timed Unit String,
    s.transport.clock.vtime = 1500 ∧ s.events.length = 8 ∧ s.Timely := by
  obtain ⟨s, reachable, happened⟩ :=
    (system SimulatedTransport.threeReplicas).exists_reachable_of_run
    (Admitted SimulatedTransport.threeReplicas)
    (fun s => decide (s.transport.clock.vtime = 1500 ∧ s.events.length = 8))
    timeoutRun ⟨(), fun idx => 1000 - 400 * idx, rfl⟩ (by decide +kernel)
  obtain ⟨time, events⟩ := of_decide_eq_true happened
  exact ⟨s, time, events, timely_of_reachable reachable⟩

end Timed

end PaxosBus.Simulated

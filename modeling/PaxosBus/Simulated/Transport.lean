import Mathlib.Data.Int.Order.Basic
import Mathlib.Logic.Function.Basic
import PaxosBus.Library.Transition
import PaxosBus.Simulated.Clock

/-!
# The simulated transport

`SimulatedTransport` hands messages over in one thread. `Run` empties the queue
before it lets a timer fire, and goes back to the queue after each timer. Filters
see every message on its way: they may drop it, change it, or delay it by a
timer. Whoever is called, a receiver, a callback or a test, may use the transport
at any moment.

The variables that filters share with a test are a world of their own, which a
filter may change whenever it is asked and the test at any moment.

`Run` is not called from inside `Run`, and the 32-bit ids of timers and the
64-bit counters, the sequencer's id and those of the groups, do not wrap around.
-/

set_option autoImplicit false

namespace PaxosBus.Simulated

open PaxosBus.Library

/-- `multistamp_t`. -/
structure Multistamp where
  sessnum : Nat
  seqnums : Int → Option Nat

/-- `QueuedMessage`. A message that is not multicast has a stamp that nobody has filled in. -/
structure QueuedMessage (M : Type) where
  dst : Nat
  src : Nat
  msg : M
  stamp : Option Multistamp

/-- What a timer does: it puts a message that has been delayed into the queue, or makes a call. -/
inductive Callback (M C : Type) where
  | enqueue (q : QueuedMessage M)
  | call (cb : C)

/-- The delayed message that a timer stands for. -/
def Callback.message {M C : Type} : Callback M C → Option (QueuedMessage M)
  | .enqueue q => some q
  | .call _ => none

/-- The call that a timer makes. -/
def Callback.called {M C : Type} : Callback M C → Option C
  | .enqueue _ => none
  | .call cb => some cb

/-- A message on its way through the filters, and the variables that they use. -/
structure Passage (W M : Type) where
  world : W
  msg : M
  delay : Nat := 0
  passes : Bool := true

/-- `filter_t`, which gets the endpoints and what is on its way. -/
abbrev Filter (W M : Type) := Nat → Nat → Passage W M → Passage W M

/-- What a transport is constructed with, and the addresses of the replicas of each group. -/
structure Setup where
  continuous : Bool := false
  replicaAddresses : Int → List Nat

/-- Where `Run` is: it has not been called, it is emptying the queue, or it is about to check
whether to go on. -/
inductive Control where
  | outside
  | draining
  | checking
deriving DecidableEq, Repr

/-- A multicast: the groups it goes to, and its stamp. -/
structure Multicast where
  groups : List Int
  stamp : Multistamp

/-- The state of a `SimulatedTransport`. The last five fields are history: the messages that the
filters have let pass, those among them that were not delayed, those that have been put into the
queue, those that have been delivered, and the multicasts. -/
structure SimulatedTransport (W M C : Type) where
  world : W
  queue : List (QueuedMessage M) := []
  filters : Multimap Int (Filter W M) := .empty
  clock : Clock (Callback M C) := {}
  running : Bool := false
  noCounters : Int → Option Nat := fun _ => none
  sequencerID : Nat := 0
  control : Control := .outside
  crashed : Bool := false
  accepted : List (QueuedMessage M) := []
  undelayed : List (QueuedMessage M) := []
  enqueued : List (QueuedMessage M) := []
  delivered : List (QueuedMessage M) := []
  multicasts : List Multicast := []

/-- What can happen next: somebody uses the transport, `Run` is called or goes on, or a variable
that filters use changes. -/
inductive Action (W M C : Type) where
  | sendMessage (src dst : Nat) (m : M)
  | orderedMulticast (src : Nat) (groups : List Int) (m : M)
  | timer (ms : Nat) (cb : C)
  | cancelTimer (id : Nat)
  | cancelAllTimers
  | addFilter (id : Int) (filter : Filter W M)
  | removeFilter (id : Int)
  | sessionChange
  | stop
  | assign (world : W)
  | run

/-- The replicas that a multicast goes to: those of its groups, except for its sender. -/
def Setup.targets (setup : Setup) (src : Nat) (groups : List Int) : List Nat :=
  (groups.flatMap setup.replicaAddresses).filter fun dst => decide (dst ≠ src)

variable {W M C : Type}

/-- Ask one filter after the other, until one of them drops the message. -/
def runFilters (src dst : Nat) : List (Filter W M) → Passage W M → Passage W M
  | [], passage => passage
  | filter :: rest, passage =>
    let passed := filter src dst passage
    if passed.passes then
      runFilters src dst rest passed
    else
      passed

/-- Count a multicast for each of its groups: the counters, and the numbers that it gets. -/
def stampGroups : List Int → (Int → Option Nat) → (Int → Option Nat) →
    (Int → Option Nat) × (Int → Option Nat)
  | [], counters, seqnums => (counters, seqnums)
  | groupIdx :: rest, counters, seqnums =>
    let number := some ((counters groupIdx).getD 0 + 1)
    stampGroups rest (Function.update counters groupIdx number)
      (Function.update seqnums groupIdx number)

namespace SimulatedTransport

/-- Put a message into the queue. -/
def push (t : SimulatedTransport W M C) (q : QueuedMessage M) : SimulatedTransport W M C :=
  { t with queue := t.queue ++ [q], enqueued := t.enqueued ++ [q] }

/-- What the filters leave of a message. -/
def passage (t : SimulatedTransport W M C) (src dst : Nat) (m : M) : Passage W M :=
  runFilters src dst (t.filters.entries.map Prod.snd) { world := t.world, msg := m }

/-- Take a message that the filters have let pass. -/
def accept (t : SimulatedTransport W M C) (delay : Nat) (q : QueuedMessage M) :
    SimulatedTransport W M C :=
  if delay = 0 then
    { t with accepted := t.accepted ++ [q], undelayed := t.undelayed ++ [q] }.push q
  else
    { t with
      accepted := t.accepted ++ [q]
      clock := (t.clock.timer delay (.enqueue q)).1 }

/-- `SimulatedTransport::_SendMessageInternal`. -/
def sendStamped (t : SimulatedTransport W M C) (src dst : Nat) (m : M)
    (stamp : Option Multistamp) : SimulatedTransport W M C :=
  let passage := t.passage src dst m
  if passage.passes then
    { t with world := passage.world }.accept passage.delay
      { dst := dst, src := src, msg := passage.msg, stamp := stamp }
  else
    { t with world := passage.world }

/-- `SimulatedTransport::SendMessageInternal`. -/
def sendMessageInternal (t : SimulatedTransport W M C) (src dst : Nat) (m : M) :
    SimulatedTransport W M C :=
  t.sendStamped src dst m none

/-- Give a multicast its stamp. -/
def stamp (t : SimulatedTransport W M C) (groups : List Int) : Multistamp where
  sessnum := t.sequencerID
  seqnums := (stampGroups groups t.noCounters fun _ => none).2

/-- The counters after a multicast. -/
def countMulticast (t : SimulatedTransport W M C) (groups : List Int) :
    SimulatedTransport W M C :=
  { t with
    noCounters := (stampGroups groups t.noCounters fun _ => none).1
    multicasts := t.multicasts ++ [{ groups := groups, stamp := t.stamp groups }] }

variable (setup : Setup)

/-- `SimulatedTransport::OrderedMulticast`. -/
def orderedMulticast (t : SimulatedTransport W M C) (src : Nat) (groups : List Int) (m : M) :
    SimulatedTransport W M C :=
  (setup.targets src groups).foldl
    (fun t' dst => t'.sendStamped src dst m (some (t.stamp groups))) (t.countMulticast groups)

/-- `SimulatedTransport::SessionChange`. -/
def sessionChange (t : SimulatedTransport W M C) : SimulatedTransport W M C :=
  { t with sequencerID := t.sequencerID + 1, noCounters := fun _ => none }

/-- Deliver the earliest timer. The assertion that it is not overdue may fail. -/
def fireTimer (t : SimulatedTransport W M C) (timer : PendingTimer (Callback M C)) :
    SimulatedTransport W M C :=
  if t.clock.vtime ≤ timer.when then
    let fired := { t with clock := t.clock.fire timer, control := .checking }
    match timer.cb with
    | .enqueue q => fired.push q
    | .call _ => fired
  else
    { t with crashed := true }

/-- `Run` goes on as long as there is something to do, or, if it is continuous, until `Stop`. -/
def goesOn (t : SimulatedTransport W M C) : Bool :=
  if setup.continuous then
    t.running
  else
    !t.queue.isEmpty || t.clock.earliest.isSome

/-- `SimulatedTransport::Run`, as far as it gets without a call from outside. -/
def run (t : SimulatedTransport W M C) : SimulatedTransport W M C :=
  match t.control with
  | .outside => { t with control := .draining, running := true }
  | .draining =>
    match t.queue with
    | q :: rest => { t with queue := rest, delivered := t.delivered ++ [q] }
    | [] =>
      match t.clock.earliest with
      | some timer => t.fireTimer timer
      | none => { t with control := .checking }
  | .checking =>
    if t.goesOn setup then
      { t with control := .draining }
    else
      { t with control := .outside, running := false }

/-- What an action does. -/
def act (t : SimulatedTransport W M C) : Action W M C → SimulatedTransport W M C
  | .sendMessage src dst m => t.sendMessageInternal src dst m
  | .orderedMulticast src groups m => t.orderedMulticast setup src groups m
  | .timer ms cb => { t with clock := (t.clock.timer ms (.call cb)).1 }
  | .cancelTimer id => { t with clock := (t.clock.cancelTimer id).1 }
  | .cancelAllTimers => { t with clock := t.clock.cancelAllTimers }
  | .addFilter id filter => { t with filters := t.filters.insert id filter }
  | .removeFilter id => { t with filters := t.filters.erase id }
  | .sessionChange => t.sessionChange
  | .stop => { t with running := false }
  | .assign world => { t with world := world }
  | .run => t.run setup

/-- One step. Nothing happens after an assertion has failed. -/
def step (t : SimulatedTransport W M C) (action : Action W M C) :
    Option (SimulatedTransport W M C) :=
  if t.crashed then none else some (t.act setup action)

/-- A transport that has just been constructed. -/
def initial (world : W) : SimulatedTransport W M C where
  world := world

/-- The transport with everything that uses it. -/
def system : TransitionSystem (SimulatedTransport W M C) (Action W M C) where
  Initial t := ∃ world, t = initial world
  step := step setup

/-- The steps after which no deadline has wrapped around. -/
def Fits (t : SimulatedTransport W M C) (action : Action W M C) : Prop :=
  (t.act setup action).clock.Fits

instance (t : SimulatedTransport W M C) (action : Action W M C) :
    Decidable (t.Fits setup action) :=
  inferInstanceAs (Decidable (t.act setup action).clock.Fits)

/-- The call that `Run` makes next, if it lets a timer fire. -/
def calls (t : SimulatedTransport W M C) : Option C :=
  match t.control, t.queue, t.clock.earliest with
  | .draining, [], some timer =>
    if t.clock.vtime ≤ timer.when then timer.cb.called else none
  | _, _, _ => none

/-! ## What `Run` does next -/

variable {setup} {t : SimulatedTransport W M C}

/-- It delivers the first message of the queue, -/
theorem run_of_queue (control : t.control = .draining) {q : QueuedMessage M}
    {rest : List (QueuedMessage M)} (queue : t.queue = q :: rest) :
    t.run setup = { t with queue := rest, delivered := t.delivered ++ [q] } := by
  unfold run
  rw [control]
  simp only [queue]

/-- or, when the queue is empty, lets the earliest timer fire, -/
theorem run_of_earliest (control : t.control = .draining) (empty : t.queue = [])
    {timer : PendingTimer (Callback M C)} (earliest : t.clock.earliest = some timer) :
    t.run setup = t.fireTimer timer := by
  unfold run
  rw [control]
  simp only [empty, earliest]

/-- or comes to the end of the loop. -/
theorem run_of_idle (control : t.control = .draining) (empty : t.queue = [])
    (none_ : t.clock.earliest = none) : t.run setup = { t with control := .checking } := by
  unfold run
  rw [control]
  simp only [empty, none_]

/-- There it begins again, -/
theorem run_of_goesOn (control : t.control = .checking) (goes : t.goesOn setup = true) :
    t.run setup = { t with control := .draining } := by
  unfold run
  rw [control]
  simp only [goes, if_true]

/-- or returns. -/
theorem run_of_done (control : t.control = .checking) (done : t.goesOn setup = false) :
    t.run setup = { t with control := .outside, running := false } := by
  unfold run
  rw [control]
  simp only [done, Bool.false_eq_true, if_false]

end SimulatedTransport

end PaxosBus.Simulated

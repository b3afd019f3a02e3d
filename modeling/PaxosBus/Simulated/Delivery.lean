import PaxosBus.Simulated.Transport

/-!
# What the simulated transport delivers

No message is lost and none is delivered twice: what the filters have let pass
has been delivered, is in the queue, waits for its delay, or has been cancelled
with the timer of its delay. Messages that are not delayed arrive in the order
in which they were sent. Timers fire at their deadlines and in their order.
-/

set_option autoImplicit false

namespace PaxosBus.Simulated

open PaxosBus.Library

variable {W M C : Type} {setup : Setup} {t : SimulatedTransport W M C}

/-- The delayed messages that timers stand for. -/
def messages (timers : List (PendingTimer (Callback M C))) : List (QueuedMessage M) :=
  timers.filterMap fun timer => timer.cb.message

/-- The messages of two lists of timers are those of one and the other. -/
theorem messages_append (first second : List (PendingTimer (Callback M C))) :
    messages (first ++ second) = messages first ++ messages second := List.filterMap_append

/-- A delayed message is that of its timer. -/
theorem messages_of_enqueue {timer : PendingTimer (Callback M C)} {q : QueuedMessage M}
    (cb : timer.cb = .enqueue q) : messages [timer] = [q] := by
  unfold messages
  rw [List.filterMap_cons, cb]
  rfl

/-- A timer of a replica has no message. -/
theorem messages_of_call {timer : PendingTimer (Callback M C)} {call : C}
    (cb : timer.cb = .call call) : messages [timer] = [] := by
  unfold messages
  rw [List.filterMap_cons, cb]
  rfl

namespace SimulatedTransport

/-! ## Time -/

/-- Sending moves the clock at most by setting a timer, and no assertion is on the way. -/
theorem sendStamped_clock (src dst : Nat) (m : M) (stamp : Option Multistamp) :
    t.clock.Moves (t.sendStamped src dst m stamp).clock ∧
      (t.sendStamped src dst m stamp).crashed = t.crashed := by
  unfold sendStamped accept
  simp only
  split
  · split
    · exact ⟨.refl, rfl⟩
    · exact ⟨.timer _ _ .refl, rfl⟩
  · exact ⟨.refl, rfl⟩

/-- A multicast keeps what each of its messages keeps. -/
theorem orderedMulticast_keeps {motive : SimulatedTransport W M C → Prop} {src : Nat}
    {groups : List Int} {m : M} (counted : motive (t.countMulticast groups))
    (sent : ∀ after, ∀ dst ∈ setup.targets src groups, motive after →
      motive (after.sendStamped src dst m (some (t.stamp groups)))) :
    motive (t.orderedMulticast setup src groups m) := by
  unfold orderedMulticast
  generalize t.countMulticast groups = after at counted
  generalize setup.targets src groups = targets at sent
  induction targets generalizing after with
  | nil => exact counted
  | cons dst rest inductionHypothesis =>
      rw [List.foldl_cons]
      apply inductionHypothesis
      · exact sent after dst List.mem_cons_self counted
      · exact fun after other inRest => sent after other (List.mem_cons_of_mem _ inRest)

/-- A timer that is not overdue fires. -/
theorem fireTimer_of_due {timer : PendingTimer (Callback M C)}
    (due : t.clock.vtime ≤ timer.when) :
    (t.fireTimer timer).clock = t.clock.fire timer ∧ (t.fireTimer timer).crashed = t.crashed := by
  unfold fireTimer
  rw [if_pos due]
  cases timer.cb with
  | enqueue q => exact ⟨rfl, rfl⟩
  | call cb => exact ⟨rfl, rfl⟩

/-- Timers that are in the future are in the future of any of them. -/
theorem due_of_earliest (right : t.clock.Right) {timer : PendingTimer (Callback M C)}
    (earliest : t.clock.earliest = some timer) : t.clock.vtime ≤ timer.when := by
  apply right.due
  rw [Clock.pending_of_earliest earliest]
  exact List.mem_cons_self

/-- What `Run` does to the clock. -/
theorem run_clock (right : t.clock.Right) :
    t.clock.Moves (t.run setup).clock ∧ (t.run setup).crashed = t.crashed := by
  unfold run
  split
  · exact ⟨.refl, rfl⟩
  · split
    · exact ⟨.refl, rfl⟩
    · split
      · next timer earliest =>
          obtain ⟨clock, crashed⟩ := fireTimer_of_due (due_of_earliest right earliest)
          rw [clock]
          exact ⟨.fire .refl earliest, crashed⟩
      · exact ⟨.refl, rfl⟩
  · split
    · exact ⟨.refl, rfl⟩
    · exact ⟨.refl, rfl⟩

/-- `Run` leaves the clock as it is and makes no call, or lets the earliest timer fire and makes its
call. -/
theorem run_cases (setup : Setup) (right : t.clock.Right) :
    (t.run setup).clock = t.clock ∧ t.calls = none ∨
      ∃ timer, t.clock.earliest = some timer ∧ (t.run setup).clock = t.clock.fire timer ∧
        t.calls = timer.cb.called := by
  unfold calls
  cases control : t.control with
  | outside =>
      left
      unfold run
      rw [control]
      exact ⟨rfl, rfl⟩
  | draining =>
      cases queue : t.queue with
      | cons q rest =>
          left
          rw [run_of_queue control queue]
          exact ⟨rfl, rfl⟩
      | nil =>
          cases earliest : t.clock.earliest with
          | none =>
              left
              rw [run_of_idle control queue earliest]
              exact ⟨rfl, rfl⟩
          | some timer =>
              have due := due_of_earliest right earliest
              right
              refine ⟨timer, rfl, ?_, if_pos due⟩
              rw [run_of_earliest control queue earliest]
              exact (fireTimer_of_due due).1
  | checking =>
      left
      cases goes : t.goesOn setup with
      | true =>
          rw [run_of_goesOn control goes]
          exact ⟨rfl, rfl⟩
      | false =>
          rw [run_of_done control goes]
          exact ⟨rfl, rfl⟩

/-- What an action does to the clock. -/
theorem act_clock (setup : Setup) (right : t.clock.Right) (action : Action W M C) :
    t.clock.Moves (t.act setup action).clock ∧ (t.act setup action).crashed = t.crashed := by
  cases action with
  | sendMessage src dst m => exact sendStamped_clock src dst m none
  | orderedMulticast src groups m =>
      apply orderedMulticast_keeps (motive := fun after =>
        t.clock.Moves after.clock ∧ after.crashed = t.crashed)
      · exact ⟨.refl, rfl⟩
      · rintro after dst - ⟨moves, crashed⟩
        obtain ⟨moves', crashed'⟩ := sendStamped_clock (t := after) src dst m
          (some (t.stamp groups))
        exact ⟨moves.trans moves', crashed'.trans crashed⟩
  | timer ms cb => exact ⟨.timer _ _ .refl, rfl⟩
  | cancelTimer id => exact ⟨.cancelTimer _ .refl, rfl⟩
  | cancelAllTimers => exact ⟨.cancelAllTimers .refl, rfl⟩
  | run => exact run_clock right
  | addFilter | removeFilter | sessionChange | stop | assign => exact ⟨.refl, rfl⟩

/-- An action leaves the clock right, and no assertion fails. -/
theorem right_act (right : t.clock.Right) {action : Action W M C}
    (fits : t.Fits setup action) : (t.act setup action).clock.Right :=
  right.of_moves (act_clock setup right action).1 fits

/-- No assertion has failed, and the clock is right. -/
def Punctual (t : SimulatedTransport W M C) : Prop := t.crashed = false ∧ t.clock.Right

/-- In every run the clock is right. -/
theorem invariant_punctual (setup : Setup) :
    (system (W := W) (M := M) (C := C) setup).Invariant (Fits setup) Punctual where
  initial := by
    rintro t ⟨world, rfl⟩
    exact ⟨rfl, Clock.right_initial⟩
  preserved := by
    rintro t action next ⟨alive, right⟩ fits stepped
    simp only [system, step, alive, Bool.false_eq_true, if_false] at stepped
    obtain rfl := Option.some.inj stepped
    exact ⟨(act_clock setup right action).2.trans alive, right_act right fits⟩

/-- In every reachable state, as long as no deadline has wrapped around, the assertion of `Run` has
not failed, the timers have fired at their deadlines and in their order, none of them more than once
or after it was cancelled, and none is overdue. -/
theorem punctual_of_reachable (reachable : (system setup).Reachable (Fits setup) t) :
    Punctual t := (invariant_punctual setup).of_reachable reachable

/-! ## Messages -/

/-- What has become of the messages. -/
structure Conserved (t : SimulatedTransport W M C) : Prop where
  fifo : t.enqueued = t.delivered ++ t.queue
  order : t.undelayed.Sublist t.enqueued
  account : t.enqueued.Perm (t.undelayed ++ messages t.clock.fired)
  accepted : t.accepted.Perm (t.undelayed ++ messages t.clock.created)

/-- A message that is not delayed is enqueued. -/
theorem Conserved.accept (conserved : t.Conserved) (delay : Nat) (q : QueuedMessage M) :
    (t.accept delay q).Conserved := by
  have behind : ∀ first second : List (QueuedMessage M),
      (first ++ second ++ [q]).Perm (first ++ [q] ++ second) := by
    intro first second
    rw [List.append_assoc, List.append_assoc]
    exact List.Perm.append_left _ List.perm_append_comm
  unfold SimulatedTransport.accept
  split
  · constructor
    · show t.enqueued ++ [q] = t.delivered ++ (t.queue ++ [q])
      rw [conserved.fifo, List.append_assoc]
    · exact conserved.order.append (List.Sublist.refl _)
    · exact (conserved.account.append_right [q]).trans (behind _ _)
    · exact (conserved.accepted.append_right [q]).trans (behind _ _)
  · constructor
    · exact conserved.fifo
    · exact conserved.order
    · exact conserved.account
    · show (t.accepted ++ [q]).Perm (t.undelayed ++ messages (t.clock.created ++ [_]))
      rw [messages_append, messages_of_enqueue rfl, ← List.append_assoc]
      exact conserved.accepted.append_right [q]

/-- A message that is sent is queued, delayed or dropped. -/
theorem Conserved.sendStamped (conserved : t.Conserved) (src dst : Nat) (m : M)
    (stamp : Option Multistamp) : (t.sendStamped src dst m stamp).Conserved := by
  unfold SimulatedTransport.sendStamped
  simp only
  split
  · apply Conserved.accept
    exact { conserved with }
  · exact { conserved with }

/-- A timer that fires enqueues the message that it has delayed. -/
theorem Conserved.fireTimer (conserved : t.Conserved) (timer : PendingTimer (Callback M C)) :
    (t.fireTimer timer).Conserved := by
  have fired := messages_append t.clock.fired [timer]
  unfold SimulatedTransport.fireTimer
  split
  · simp only
    split
    next q cb =>
        rw [messages_of_enqueue cb] at fired
        constructor
        · show t.enqueued ++ [q] = t.delivered ++ (t.queue ++ [q])
          rw [conserved.fifo, List.append_assoc]
        · exact conserved.order.trans (List.sublist_append_left _ _)
        · show (t.enqueued ++ [q]).Perm (t.undelayed ++ messages (t.clock.fired ++ [timer]))
          rw [fired, ← List.append_assoc]
          exact conserved.account.append_right [q]
        · exact conserved.accepted
    next call cb =>
        rw [messages_of_call cb, List.append_nil] at fired
        constructor
        · exact conserved.fifo
        · exact conserved.order
        · show t.enqueued.Perm (t.undelayed ++ messages (t.clock.fired ++ [timer]))
          rw [fired]
          exact conserved.account
        · exact conserved.accepted
  · exact { conserved with }

/-- A call of `Run` delivers messages, and loses none. -/
theorem Conserved.run (conserved : t.Conserved) : (t.run setup).Conserved := by
  unfold SimulatedTransport.run
  split
  · exact { conserved with }
  · split
    next q rest queue =>
        constructor
        · show t.enqueued = t.delivered ++ [q] ++ rest
          rw [conserved.fifo, queue, List.append_assoc]
          rfl
        · exact conserved.order
        · exact conserved.account
        · exact conserved.accepted
    next =>
        split
        · exact conserved.fireTimer _
        · exact { conserved with }
  · split
    · exact { conserved with }
    · exact { conserved with }

/-- Whatever is called, a message goes nowhere but on. -/
theorem Conserved.act (conserved : t.Conserved) (action : Action W M C) :
    (t.act setup action).Conserved := by
  cases action with
  | sendMessage src dst m => exact conserved.sendStamped src dst m none
  | orderedMulticast src groups m =>
      apply orderedMulticast_keeps (motive := Conserved)
      · exact { conserved with }
      · intro after dst _ conserved
        exact conserved.sendStamped src dst m _
  | timer ms cb =>
      constructor
      · exact conserved.fifo
      · exact conserved.order
      · exact conserved.account
      · show t.accepted.Perm (t.undelayed ++ messages (t.clock.created ++ [_]))
        rw [messages_append, messages_of_call rfl, List.append_nil]
        exact conserved.accepted
  | cancelTimer | cancelAllTimers | addFilter | removeFilter | sessionChange | stop | assign =>
      exact { conserved with }
  | run => exact conserved.run

/-- In every run no message is lost or made up. -/
theorem invariant_conserved (setup : Setup) :
    (system (W := W) (M := M) (C := C) setup).Invariant (Fits setup) Conserved where
  initial := by
    rintro t ⟨world, rfl⟩
    exact ⟨rfl, .slnil, .nil, .nil⟩
  preserved := by
    rintro t action next conserved - stepped
    simp only [system, step] at stepped
    split at stepped
    · cases stepped
    · obtain rfl := Option.some.inj stepped
      exact conserved.act action

/-- All messages that the filters have let pass are accounted for: they have been delivered, are in
the queue, are delayed, or have been cancelled; and those that were not delayed keep their order. -/
structure Accounted (t : SimulatedTransport W M C) : Prop where
  accepted : t.accepted.Perm (t.delivered ++ t.queue ++ messages t.clock.pending ++
    messages t.clock.cancelled)
  order : t.undelayed.Sublist (t.delivered ++ t.queue)

/-- A transport that conserves its messages accounts for them, in the order of the queue. -/
theorem Conserved.accounted (conserved : t.Conserved) (right : t.clock.Right) : t.Accounted where
  accepted := by
    have created : (messages t.clock.created).Perm (messages t.clock.fired ++
        messages t.clock.pending ++ messages t.clock.cancelled) := by
      rw [← messages_append, ← messages_append]
      exact right.account.filterMap _
    apply conserved.accepted.trans
    apply (created.append_left _).trans
    rw [← conserved.fifo, ← List.append_assoc, ← List.append_assoc]
    exact (conserved.account.symm.append_right _).append_right _
  order := conserved.fifo ▸ conserved.order

/-- In every reachable state, as long as no deadline has wrapped around, all messages are accounted
for. -/
theorem accounted_of_reachable (reachable : (system setup).Reachable (Fits setup) t) :
    Accounted t :=
  ((invariant_conserved setup).of_reachable reachable).accounted
    (punctual_of_reachable reachable).2

/-! ## Run returns -/

/-- How much there is to do before `Run` returns, if nobody uses the transport meanwhile. -/
def rank (setup : Setup) (t : SimulatedTransport W M C) : Nat :=
  match t.control with
  | .outside => 0
  | .draining => 4 * t.clock.pending.length + 2 * t.queue.length + 2
  | .checking =>
    if t.goesOn setup then 4 * t.clock.pending.length + 2 * t.queue.length + 3 else 1

/-- While `Run` checks whether to go on, what is left is bounded by the queue and the timers. -/
theorem rank_checking_le (setup : Setup) (control : t.control = .checking) :
    t.rank setup ≤ 4 * t.clock.pending.length + 2 * t.queue.length + 3 := by
  unfold rank
  rw [control]
  simp only
  split
  · exact Nat.le_refl _
  · exact Nat.le_add_left 1 _

/-- A timer that fires leaves less to do. -/
theorem rank_fireTimer {timer : PendingTimer (Callback M C)} (empty : t.queue = [])
    (earliest : t.clock.earliest = some timer) (due : t.clock.vtime ≤ timer.when) :
    (t.fireTimer timer).rank setup < 4 * t.clock.pending.length + 2 := by
  have pending := Clock.pending_of_earliest earliest
  have checking : (t.fireTimer timer).control = .checking := by
    unfold fireTimer
    rw [if_pos due]
    cases timer.cb with
    | enqueue q => rfl
    | call cb => rfl
  have queue : (t.fireTimer timer).queue.length ≤ 1 := by
    unfold fireTimer
    rw [if_pos due]
    cases timer.cb with
    | enqueue q =>
        show (t.queue ++ [q]).length ≤ 1
        rw [empty]
        exact Nat.le_refl 1
    | call cb =>
        show t.queue.length ≤ 1
        rw [empty]
        exact Nat.zero_le 1
  have bound := rank_checking_le setup checking
  rw [(fireTimer_of_due due).1] at bound
  rw [pending, List.length_cons]
  omega

/-- Each step of `Run` leaves less to do. -/
theorem rank_run (punctual : t.Punctual) (inside : t.control ≠ .outside)
    (stops : setup.continuous = false) : (t.run setup).rank setup < t.rank setup := by
  cases control : t.control with
  | outside => exact absurd control inside
  | draining =>
      have before : t.rank setup = 4 * t.clock.pending.length + 2 * t.queue.length + 2 := by
        unfold rank
        rw [control]
      rw [before]
      cases queue : t.queue with
      | cons q rest =>
          have after : (t.run setup).rank setup =
              4 * t.clock.pending.length + 2 * rest.length + 2 := by
            rw [run_of_queue control queue]
            unfold rank
            simp only [control]
          rw [after, List.length_cons]
          omega
      | nil =>
          cases earliest : t.clock.earliest with
          | some timer =>
              rw [run_of_earliest control queue earliest]
              exact rank_fireTimer queue earliest (due_of_earliest punctual.2 earliest)
          | none =>
              have done : ({ t with control := .checking } : SimulatedTransport W M C).goesOn
                  setup = false := by
                unfold goesOn
                simp only [stops, queue, earliest]
                rfl
              have after : (t.run setup).rank setup = 1 := by
                rw [run_of_idle control queue earliest]
                unfold rank
                simp only [done]
                rfl
              rw [after]
              omega
  | checking =>
      cases goes : t.goesOn setup with
      | true =>
          rw [run_of_goesOn control goes]
          unfold rank
          simp only [control, goes, if_true]
          exact Nat.lt_succ_self _
      | false =>
          rw [run_of_done control goes]
          unfold rank
          simp only [control, goes, Bool.false_eq_true, if_false]
          exact Nat.one_pos

/-- `Run` itself sets no timer. -/
theorem created_run : (t.run setup).clock.created = t.clock.created := by
  unfold run
  split
  · rfl
  · split
    · rfl
    · split
      · unfold fireTimer
        split
        · simp only
          split
          · rfl
          · rfl
        · rfl
      · rfl
  · split
    · rfl
    · rfl

/-- What holds when `Run` has returned: nothing is in the queue, no timer is pending unless timers
are not processed any more, and all messages have been delivered, except those whose timers have
been cancelled or are not processed. -/
structure Returned (t : SimulatedTransport W M C) : Prop where
  control : t.control = .outside
  queue : t.queue = []
  pending : t.clock.processTimers = true → t.clock.pending = []
  accepted : t.accepted.Perm (t.delivered ++ messages t.clock.pending ++
    messages t.clock.cancelled)

/-- `Run` has nothing to do any more when it returns. -/
theorem Accounted.returned (accounted : t.Accounted) (control : t.control = .checking)
    (done : t.goesOn setup = false) (stops : setup.continuous = false) :
    (t.run setup).Returned := by
  have idle := done
  unfold goesOn at idle
  simp only [stops, Bool.or_eq_false_iff, Bool.not_eq_false', Bool.false_eq_true, if_false] at idle
  obtain ⟨empty, none_⟩ := idle
  have empty := List.isEmpty_iff.mp empty
  rw [run_of_done control done]
  constructor
  · rfl
  · exact empty
  · intro processed
    unfold Clock.earliest at none_
    rw [if_pos (show t.clock.processTimers = true from processed)] at none_
    show t.clock.pending = []
    cases pending : t.clock.pending with
    | nil => rfl
    | cons timer rest =>
        rw [pending] at none_
        cases none_
  · have accepted := accounted.accepted
    rw [empty, List.append_nil] at accepted
    exact accepted

/-- A step of `Run` that has been called. -/
theorem reachable_run (reachable : (system setup).Reachable (Fits setup) t)
    (fits : t.clock.Fits) :
    (system setup).Reachable (Fits setup) (t.run setup) ∧ (t.run setup).clock.Fits := by
  have fits' : (t.run setup).clock.Fits := by
    unfold Clock.Fits
    rw [created_run]
    exact fits
  have stepped : (system setup).step t .run = some (t.run setup) := by
    show (if t.crashed then none else some (t.run setup)) = _
    rw [(punctual_of_reachable reachable).1]
    rfl
  exact ⟨reachable.steps (.step .refl (show t.Fits setup .run from fits') stepped), fits'⟩

/-- `Run` does not return as long as it goes on. -/
theorem run_inside (inside : t.control ≠ .outside)
    (goes : ¬ (t.control = .checking ∧ t.goesOn setup = false)) :
    (t.run setup).control ≠ .outside := by
  cases control : t.control with
  | outside => exact absurd control inside
  | draining =>
      cases queue : t.queue with
      | cons q rest =>
          rw [run_of_queue control queue]
          exact inside
      | nil =>
          cases earliest : t.clock.earliest with
          | some timer =>
              rw [run_of_earliest control queue earliest]
              unfold fireTimer
              split
              · cases timer.cb <;> exact Control.noConfusion
              · exact inside
          | none =>
              rw [run_of_idle control queue earliest]
              exact Control.noConfusion
  | checking =>
      have goes : t.goesOn setup = true := by
        cases goes_ : t.goesOn setup with
        | true => rfl
        | false => exact absurd ⟨control, goes_⟩ goes
      rw [run_of_goesOn control goes]
      exact Control.noConfusion

/-- As long as no deadline wraps around, a `Run` that is not continuous returns when nobody uses the
transport any more, and by then it has delivered everything. -/
theorem returns_of_reachable (reachable : (system setup).Reachable (Fits setup) t)
    (inside : t.control ≠ .outside) (stops : setup.continuous = false) (fits : t.clock.Fits) :
    ∃ steps, ((run setup)^[steps] t).Returned := by
  generalize bound : t.rank setup = work
  induction work using Nat.strong_induction_on generalizing t with
  | h work inductionHypothesis =>
      subst bound
      obtain ⟨next, fits'⟩ := reachable_run reachable fits
      by_cases done : t.control = .checking ∧ t.goesOn setup = false
      · have accounted := accounted_of_reachable reachable
        exact ⟨1, accounted.returned done.1 done.2 stops⟩
      · obtain ⟨steps, returned⟩ := inductionHypothesis _
          (rank_run (punctual_of_reachable reachable) inside stops) next (run_inside inside done)
            fits' rfl
        exact ⟨steps + 1, returned⟩

/-! ## A run with a filter -/

/-- Three replicas in one group. -/
def threeReplicas : Setup where
  replicaAddresses _ := [1, 2, 3]

/-- A filter that delays one message. -/
def delayFoo : Filter Unit String := fun _ _ passage =>
  if passage.msg = "foo" then { passage with delay := 1000 } else passage

/-- Three messages are sent, the first of which is delayed, and a timer is set and another one is
cancelled. Then `Run` delivers two of the messages and lets the timer fire. -/
def delayRun : List (Action Unit String Nat) :=
  [.addFilter 10 delayFoo, .sendMessage 1 2 "foo", .sendMessage 1 2 "bar", .sendMessage 2 3 "baz",
    .timer 20 7, .timer 10 8, .cancelTimer 3, .run, .run, .run, .run, .run]

/-- What the state is like in which it ends. -/
theorem exists_reachable_delayRun : ∃ t : SimulatedTransport Unit String Nat,
    (system threeReplicas).Reachable (Fits threeReplicas) t ∧
      (t.delivered.map QueuedMessage.msg = ["bar", "baz"] ∧ t.accepted.length = 3) ∧
      (t.clock.firedAt = [20] ∧ t.clock.pending.length = 1 ∧ t.clock.cancelled.length = 1) ∧
      t.control ≠ .outside ∧ t.clock.Fits := by
  obtain ⟨t, reachable, happened⟩ := (system threeReplicas).exists_reachable_of_run
    (Fits threeReplicas)
    (fun t => decide ((t.delivered.map QueuedMessage.msg = ["bar", "baz"] ∧
        t.accepted.length = 3) ∧
      (t.clock.firedAt = [20] ∧ t.clock.pending.length = 1 ∧ t.clock.cancelled.length = 1) ∧
      t.control ≠ .outside ∧ t.clock.Fits))
    delayRun ⟨(), rfl⟩ (by decide +kernel)
  exact ⟨t, reachable, of_decide_eq_true happened⟩

/-- One timer has fired, one is pending, and one has been cancelled. -/
theorem punctual_delayRun : ∃ t : SimulatedTransport Unit String Nat,
    t.clock.firedAt = [20] ∧ t.clock.pending.length = 1 ∧ t.clock.cancelled.length = 1 ∧
      t.Punctual := by
  obtain ⟨t, reachable, -, ⟨fired, pending, cancelled⟩, -⟩ := exists_reachable_delayRun
  exact ⟨t, fired, pending, cancelled, punctual_of_reachable reachable⟩

/-- Two messages have been delivered, and the timer that is pending carries the third. -/
theorem accounted_delayRun : ∃ t : SimulatedTransport Unit String Nat,
    t.delivered.map QueuedMessage.msg = ["bar", "baz"] ∧ t.accepted.length = 3 ∧
      t.Accounted := by
  obtain ⟨t, reachable, ⟨delivered, accepted⟩, -⟩ := exists_reachable_delayRun
  exact ⟨t, delivered, accepted, accounted_of_reachable reachable⟩

/-- `Run` goes on from there, and returns. -/
theorem returns_delayRun : ∃ t : SimulatedTransport Unit String Nat,
    t.clock.pending.length = 1 ∧ ∃ steps, ((run threeReplicas)^[steps] t).Returned := by
  obtain ⟨t, reachable, -, ⟨-, pending, -⟩, inside, fits⟩ := exists_reachable_delayRun
  exact ⟨t, pending, returns_of_reachable reachable inside rfl fits⟩

end SimulatedTransport

end PaxosBus.Simulated

import Mathlib.Algebra.Group.Nat.Defs
import Mathlib.Data.List.Nodup
import PaxosBus.Library.Multimap

/-!
# Simulated time

The timers of a `SimulatedTransport` and its clock. Time passes only when a
timer fires, and then it jumps to the deadline of that timer. The earliest timer
fires first, and of several with one deadline the one that was set first.

The deadline of a timer is a 64-bit number, so a clock is right only as long as
no deadline wraps around.
-/

set_option autoImplicit false

namespace PaxosBus.Simulated

open PaxosBus.Library

variable {Callback : Type}

/-- `PendingTimer`. The last two fields are history: when the timer was set, and for how long. -/
structure PendingTimer (Callback : Type) where
  when : Nat
  id : Nat
  cb : Callback
  start : Nat
  ms : Nat
deriving DecidableEq, Repr

/-- What a `SimulatedTransport` keeps about time. The last four fields are history: all timers that
have been set, those that have fired and the time that the clock showed at each, and those that have
been cancelled. -/
structure Clock (Callback : Type) where
  timers : Multimap Nat (PendingTimer Callback) := .empty
  lastTimerId : Nat := 0
  vtime : Nat := 0
  processTimers : Bool := true
  created : List (PendingTimer Callback) := []
  fired : List (PendingTimer Callback) := []
  firedAt : List Nat := []
  cancelled : List (PendingTimer Callback) := []

namespace Clock

/-- The timers that can still fire, in the order in which they will. -/
def pending (c : Clock Callback) : List (PendingTimer Callback) := c.timers.entries.map Prod.snd

/-- The timer that is set next. -/
def next (c : Clock Callback) (ms : Nat) (cb : Callback) : PendingTimer Callback where
  when := (c.vtime + ms) % 2 ^ 64
  id := c.lastTimerId + 1
  cb := cb
  start := c.vtime
  ms := ms

/-- `SimulatedTransport::Timer`, which returns the id of the timer. -/
def timer (c : Clock Callback) (ms : Nat) (cb : Callback) : Clock Callback × Nat :=
  let t := c.next ms cb
  ({ c with
      lastTimerId := t.id
      timers := c.timers.insert t.when t
      created := c.created ++ [t] }, t.id)

/-- `SimulatedTransport::CancelTimer`, which tells whether there was such a timer. -/
def cancelTimer (c : Clock Callback) (id : Nat) : Clock Callback × Bool :=
  ({ c with
      timers := c.timers.filter fun _ t => decide (t.id ≠ id)
      cancelled := c.cancelled ++ c.pending.filter fun t => decide (t.id = id) },
    c.pending.any fun t => decide (t.id = id))

/-- `SimulatedTransport::CancelAllTimers`, after which no timer fires any more. -/
def cancelAllTimers (c : Clock Callback) : Clock Callback :=
  { c with timers := .empty, processTimers := false, cancelled := c.cancelled ++ c.pending }

/-- The earliest timer, if timers are processed. -/
def earliest (c : Clock Callback) : Option (PendingTimer Callback) :=
  if c.processTimers then c.pending.head? else none

/-- Deliver the earliest timer, after time has jumped. -/
def fire (c : Clock Callback) (t : PendingTimer Callback) : Clock Callback :=
  let due := { c with vtime := t.when }
  { due with
    timers := due.timers.eraseBegin
    fired := due.fired ++ [t]
    firedAt := due.firedAt ++ [due.vtime] }

/-- No deadline has wrapped around. -/
def Fits (c : Clock Callback) : Prop := ∀ t ∈ c.created, t.start + t.ms < 2 ^ 64

instance (c : Clock Callback) : Decidable c.Fits :=
  inferInstanceAs (Decidable (∀ t ∈ c.created, t.start + t.ms < 2 ^ 64))

/-- What can happen to a clock. -/
inductive Moves (c : Clock Callback) : Clock Callback → Prop where
  | refl : Moves c c
  | timer {middle : Clock Callback} (ms : Nat) (cb : Callback) :
      Moves c middle → Moves c (middle.timer ms cb).1
  | cancelTimer {middle : Clock Callback} (id : Nat) :
      Moves c middle → Moves c (middle.cancelTimer id).1
  | cancelAllTimers {middle : Clock Callback} : Moves c middle → Moves c middle.cancelAllTimers
  | fire {middle : Clock Callback} {t : PendingTimer Callback} : Moves c middle →
      middle.earliest = some t → Moves c (middle.fire t)

/-- Moves can be put together. -/
theorem Moves.trans {first second third : Clock Callback} (before : first.Moves second)
    (after : second.Moves third) : first.Moves third := by
  induction after with
  | refl => exact before
  | timer ms cb _ inductionHypothesis => exact inductionHypothesis.timer ms cb
  | cancelTimer id _ inductionHypothesis => exact inductionHypothesis.cancelTimer id
  | cancelAllTimers _ inductionHypothesis => exact inductionHypothesis.cancelAllTimers
  | fire _ earliest inductionHypothesis => exact inductionHypothesis.fire earliest

/-! ## The order in which timers fire -/

/-- One timer is due before another one, or at the same time and was set earlier. -/
def Earlier (first second : PendingTimer Callback) : Prop :=
  first.when < second.when ∨ first.when = second.when ∧ first.id < second.id

/-- What is right about a clock: each timer has fired at its deadline, and time has not passed the
deadlines of those that are pending; all of them stand in the order in which they fire; and every
timer that has been set has fired, is pending, or has been cancelled. -/
structure Right (c : Clock Callback) : Prop where
  keys : ∀ entry ∈ c.timers.entries, entry.1 = entry.2.when
  due : ∀ t ∈ c.pending, c.vtime ≤ t.when
  past : ∀ t ∈ c.fired, t.when ≤ c.vtime
  punctual : c.firedAt = c.fired.map PendingTimer.when
  order : (c.fired ++ c.pending).Pairwise Earlier
  ids : (c.created.map PendingTimer.id).Pairwise (· < ·)
  known : ∀ t ∈ c.created, t.id ≤ c.lastTimerId
  positive : ∀ t ∈ c.created, 0 < t.id
  deadline : ∀ t ∈ c.created, t.start + t.ms < 2 ^ 64 → t.when = t.start + t.ms
  account : c.created.Perm (c.fired ++ c.pending ++ c.cancelled)

variable {c : Clock Callback}

/-- What is pending is in the map. -/
theorem mem_pending {t : PendingTimer Callback} :
    t ∈ c.pending ↔ ∃ key, (key, t) ∈ c.timers.entries := by
  unfold pending
  rw [List.mem_map]
  constructor
  · rintro ⟨⟨key, t⟩, member, rfl⟩
    exact ⟨key, member⟩
  · rintro ⟨key, member⟩
    exact ⟨(key, t), member, rfl⟩

/-- The earliest timer is the first one. -/
theorem pending_of_earliest {t : PendingTimer Callback} (earliest : c.earliest = some t) :
    c.pending = t :: (c.fire t).pending := by
  unfold Clock.earliest at earliest
  split at earliest
  next =>
      unfold pending fire Multimap.eraseBegin at *
      simp only
      cases entries : c.timers.entries with
      | nil =>
          rw [entries] at earliest
          cases earliest
      | cons entry rest =>
          rw [entries] at earliest
          obtain rfl := Option.some.inj earliest
          rfl
  next => cases earliest

/-- What is pending after it has fired was pending before. -/
theorem mem_pending_fire {t other : PendingTimer Callback} (earliest : c.earliest = some t) :
    other ∈ c.pending ↔ other = t ∨ other ∈ (c.fire t).pending := by
  rw [pending_of_earliest earliest, List.mem_cons]

/-- Setting a timer puts it among the others by its deadline. -/
theorem pending_timer (right : c.Right) (ms : Nat) (cb : Callback) :
    (c.timer ms cb).1.pending =
      c.pending.filter (fun t => decide (t.when ≤ (c.next ms cb).when)) ++
        c.next ms cb :: c.pending.filter fun t => decide ((c.next ms cb).when < t.when) := by
  unfold pending timer
  simp only
  rw [Multimap.entries_insert, List.map_append, List.map_cons, List.filter_map, List.filter_map]
  have keys : ∀ entry ∈ c.timers.entries, entry.2.when = entry.1 :=
    fun entry member => (right.keys entry member).symm
  congr 2
  · apply List.filter_congr
    intro entry member
    simp only [Function.comp, keys entry member]
  · congr 1
    apply List.filter_congr
    intro entry member
    simp only [Function.comp, keys entry member]

/-- Cancelling a timer takes it out. -/
theorem pending_cancelTimer (id : Nat) :
    (c.cancelTimer id).1.pending = c.pending.filter fun t => decide (t.id ≠ id) := by
  unfold pending cancelTimer Multimap.filter
  rw [List.filter_map]
  rfl

/-- A new timer is pending, -/
theorem mem_pending_timer {ms : Nat} {cb : Callback} {t : PendingTimer Callback} :
    t ∈ (c.timer ms cb).1.pending ↔ t = c.next ms cb ∨ t ∈ c.pending := by
  have inserted : (c.timer ms cb).1.pending.Perm (c.next ms cb :: c.pending) :=
    Multimap.insert_perm.map Prod.snd
  rw [inserted.mem_iff, List.mem_cons]

/-- and one that is cancelled is not. -/
theorem mem_pending_cancelTimer {id : Nat} {t : PendingTimer Callback} :
    t ∈ (c.cancelTimer id).1.pending ↔ t ∈ c.pending ∧ t.id ≠ id := by
  rw [pending_cancelTimer, List.mem_filter, decide_eq_true_iff]

/-- Timers with the same id are one. -/
theorem Right.eq_of_id (right : c.Right) {first second : PendingTimer Callback}
    (created : first ∈ c.created) (created' : second ∈ c.created) (same : first.id = second.id) :
    first = second := by
  have nodup : (c.created.map PendingTimer.id).Nodup := right.ids.imp Nat.ne_of_lt
  exact List.inj_on_of_nodup_map nodup created created' same

/-- No timer is set twice. -/
theorem Right.nodup (right : c.Right) : (c.fired ++ c.pending ++ c.cancelled).Nodup := by
  have nodup : (c.created.map PendingTimer.id).Nodup := right.ids.imp Nat.ne_of_lt
  exact right.account.nodup_iff.mp nodup.of_map

/-- What has fired or is pending has been set. -/
theorem Right.created_of_mem (right : c.Right) {t : PendingTimer Callback}
    (member : t ∈ c.fired ++ c.pending) : t ∈ c.created :=
  right.account.mem_iff.mpr (List.mem_append_left _ member)

/-- No pending timer is due before the earliest one. -/
theorem Right.earliest_le (right : c.Right) {t : PendingTimer Callback}
    (earliest : c.earliest = some t) : ∀ other ∈ c.pending, t.when ≤ other.when := by
  have ordered := (List.pairwise_append.mp right.order).2.1
  rw [pending_of_earliest earliest] at ordered
  intro other member
  rcases (mem_pending_fire earliest).mp member with rfl | rest
  · exact Nat.le_refl _
  · rcases (List.pairwise_cons.mp ordered).1 other rest with lt | ⟨same, -⟩
    · exact Nat.le_of_lt lt
    · exact Nat.le_of_eq same

/-- A timer that has fired is not pending. -/
theorem Right.not_pending_fire (right : c.Right) {t : PendingTimer Callback}
    (earliest : c.earliest = some t) : t ∉ (c.fire t).pending := by
  have nodup := List.Nodup.of_append_right (List.Nodup.of_append_left right.nodup)
  rw [pending_of_earliest earliest] at nodup
  exact (List.nodup_cons.mp nodup).1

/-! ## Every move keeps the clock right -/

/-- A clock that nobody has used is right. -/
theorem right_initial : ({} : Clock Callback).Right where
  keys _ none_ := by cases none_
  due _ none_ := by cases none_
  past _ none_ := by cases none_
  punctual := rfl
  order := .nil
  ids := .nil
  known _ none_ := by cases none_
  positive _ none_ := by cases none_
  deadline _ none_ := by cases none_
  account := .nil

/-- A timer whose deadline does not wrap around is due no earlier than now. -/
theorem when_next {ms : Nat} (fits : c.vtime + ms < 2 ^ 64) (cb : Callback) :
    (c.next ms cb).when = c.vtime + ms := Nat.mod_eq_of_lt fits

/-- A new timer fires after all that have been set for no later than it. -/
theorem Right.earlier_next (right : c.Right) {ms : Nat} {cb : Callback}
    {t : PendingTimer Callback} (created : t ∈ c.created) (le : t.when ≤ (c.next ms cb).when) :
    Earlier t (c.next ms cb) := by
  have older : t.id < (c.next ms cb).id := Nat.lt_succ_of_le (right.known t created)
  rcases Nat.lt_or_eq_of_le le with lt | same
  · exact .inl lt
  · exact .inr ⟨same, older⟩

/-- A clock stays right when a timer is set whose deadline does not wrap around, -/
theorem Right.timer (right : c.Right) {ms : Nat} (fits : c.vtime + ms < 2 ^ 64) (cb : Callback) :
    (c.timer ms cb).1.Right := by
  have pending := pending_timer right ms cb
  have when_ := when_next fits cb
  have soon : c.vtime ≤ (c.next ms cb).when := when_ ▸ Nat.le_add_right _ _
  generalize inserted : c.next ms cb = t at pending when_ soon
  have placed : ∀ other, other ∈ (c.timer ms cb).1.pending → other = t ∨ other ∈ c.pending := by
    intro other member
    obtain ⟨key, entry⟩ := mem_pending.mp member
    rcases Multimap.mem_insert.mp entry with new | old
    · exact .inl ((Prod.mk.inj new).2.trans inserted)
    · exact .inr (mem_pending.mpr ⟨key, old⟩)
  obtain ⟨-, ordered, across⟩ := List.pairwise_append.mp right.order
  constructor
  · rintro ⟨key, other⟩ entry
    rcases Multimap.mem_insert.mp entry with new | old
    · rw [new]
    · exact right.keys _ old
  · intro other member
    rcases placed other member with rfl | old
    · exact soon
    · exact right.due other old
  · exact right.past
  · exact right.punctual
  · show (c.fired ++ (c.timer ms cb).1.pending).Pairwise Earlier
    have before : ∀ other ∈ c.fired ++ c.pending, other.when ≤ t.when → Earlier other t := by
      intro other member le
      rw [← inserted] at le ⊢
      exact right.earlier_next (right.created_of_mem member) le
    rw [pending]
    apply List.pairwise_append.mpr
    refine ⟨(List.pairwise_append.mp right.order).1, ?_, ?_⟩
    · apply List.pairwise_append.mpr
      refine ⟨ordered.filter _, List.pairwise_cons.mpr ⟨?_, ordered.filter _⟩, ?_⟩
      · intro other member
        exact .inl (of_decide_eq_true (List.mem_filter.mp member).2)
      · intro first member second member'
        obtain ⟨old, le⟩ := List.mem_filter.mp member
        have le := of_decide_eq_true le
        rcases List.mem_cons.mp member' with rfl | after
        · exact before first (List.mem_append_right _ old) le
        · exact .inl (Nat.lt_of_le_of_lt le (of_decide_eq_true (List.mem_filter.mp after).2))
    · intro first member second member'
      rcases List.mem_append.mp member' with below | above
      · exact across first member second (List.mem_filter.mp below).1
      · rcases List.mem_cons.mp above with rfl | above
        · exact before first (List.mem_append_left _ member)
            ((right.past first member).trans soon)
        · exact across first member second (List.mem_filter.mp above).1
  · show ((c.created ++ [c.next ms cb]).map PendingTimer.id).Pairwise (· < ·)
    rw [List.map_append]
    apply List.pairwise_append.mpr
    refine ⟨right.ids, List.pairwise_singleton _ _, ?_⟩
    intro id member new single
    obtain ⟨other, created, rfl⟩ := List.mem_map.mp member
    obtain rfl := List.mem_singleton.mp single
    exact Nat.lt_succ_of_le (right.known other created)
  · intro other member
    rcases List.mem_append.mp member with old | new
    · exact Nat.le_succ_of_le (right.known other old)
    · obtain rfl := List.mem_singleton.mp new
      exact Nat.le_refl _
  · intro other member
    rcases List.mem_append.mp member with old | new
    · exact right.positive other old
    · obtain rfl := List.mem_singleton.mp new
      exact Nat.succ_pos _
  · intro other member small
    rcases List.mem_append.mp member with old | new
    · exact right.deadline other old small
    · obtain rfl := List.mem_singleton.mp new
      exact when_next fits cb
  · show (c.created ++ [c.next ms cb]).Perm (c.fired ++ (c.timer ms cb).1.pending ++ c.cancelled)
    have grown : (c.timer ms cb).1.pending.Perm (c.next ms cb :: c.pending) :=
      Multimap.insert_perm.map Prod.snd
    apply List.perm_append_singleton _ _ |>.trans
    apply (right.account.cons _).trans
    apply List.Perm.trans _ ((grown.append_left _).append_right _).symm
    rw [List.append_assoc, List.append_assoc]
    exact List.perm_middle.symm

/-- when one is cancelled, -/
theorem Right.cancelTimer (right : c.Right) (id : Nat) : (c.cancelTimer id).1.Right := by
  have pending := pending_cancelTimer (c := c) id
  constructor
  · intro entry member
    exact right.keys entry (List.mem_filter.mp member).1
  · intro other member
    rw [pending] at member
    exact right.due other (List.mem_filter.mp member).1
  · exact right.past
  · exact right.punctual
  · show (c.fired ++ (c.cancelTimer id).1.pending).Pairwise Earlier
    rw [pending]
    exact right.order.sublist (List.filter_sublist.append_left _)
  · exact right.ids
  · exact right.known
  · exact right.positive
  · exact right.deadline
  · show c.created.Perm (c.fired ++ (c.cancelTimer id).1.pending ++
      (c.cancelled ++ c.pending.filter fun t => decide (t.id = id)))
    rw [pending]
    apply right.account.trans
    have split : c.pending.Perm ((c.pending.filter fun t => decide (t.id ≠ id)) ++
        c.pending.filter fun t => decide (t.id = id)) := by
      apply (List.filter_append_perm (fun t => decide (t.id = id)) c.pending).symm.trans
      simp only [← decide_not]
      exact List.perm_append_comm
    apply ((split.append_left _).append_right _).trans
    rw [← List.append_assoc, List.append_assoc]
    exact List.Perm.append_left _ List.perm_append_comm

/-- when all are, -/
theorem Right.cancelAllTimers (right : c.Right) : c.cancelAllTimers.Right where
  keys _ none_ := by cases none_
  due _ none_ := by cases none_
  past := right.past
  punctual := right.punctual
  order := by
    show (c.fired ++ []).Pairwise Earlier
    rw [List.append_nil]
    exact (List.pairwise_append.mp right.order).1
  ids := right.ids
  known := right.known
  positive := right.positive
  deadline := right.deadline
  account := by
    show c.created.Perm (c.fired ++ [] ++ (c.cancelled ++ c.pending))
    apply right.account.trans
    rw [List.append_nil, List.append_assoc]
    exact List.Perm.append_left _ List.perm_append_comm

/-- and when the earliest one fires. -/
theorem Right.fire (right : c.Right) {t : PendingTimer Callback} (earliest : c.earliest = some t) :
    (c.fire t).Right := by
  have pending := pending_of_earliest earliest
  have order := right.order
  rw [pending] at order
  obtain ⟨-, ordered, across⟩ := List.pairwise_append.mp order
  have later := (List.pairwise_cons.mp ordered).1
  constructor
  · intro entry member
    exact right.keys entry (List.mem_of_mem_tail member)
  · intro other member
    rcases later other member with lt | ⟨same, -⟩
    · exact Nat.le_of_lt lt
    · exact Nat.le_of_eq same
  · intro other member
    have due := right.due t (pending ▸ List.mem_cons_self)
    rcases List.mem_append.mp member with old | new
    · exact (right.past other old).trans due
    · obtain rfl := List.mem_singleton.mp new
      exact Nat.le_refl _
  · show c.firedAt ++ [t.when] = (c.fired ++ [t]).map PendingTimer.when
    rw [right.punctual, List.map_append, List.map_singleton]
  · show (c.fired ++ [t] ++ (c.fire t).pending).Pairwise Earlier
    rw [List.append_assoc]
    exact order
  · exact right.ids
  · exact right.known
  · exact right.positive
  · exact right.deadline
  · show c.created.Perm (c.fired ++ [t] ++ (c.fire t).pending ++ c.cancelled)
    have account := right.account
    rw [pending] at account
    rw [List.append_assoc c.fired]
    exact account

/-- A clock on which no deadline wraps around stays right. -/
theorem Right.of_moves {later : Clock Callback} (right : c.Right) (moves : c.Moves later)
    (fits : later.Fits) : later.Right := by
  induction moves with
  | refl => exact right
  | @timer middle ms cb _ inductionHypothesis =>
      have new := fits (middle.next ms cb) (List.mem_append_right _ (List.mem_singleton_self _))
      apply Right.timer _ new
      exact inductionHypothesis fun t member => fits t (List.mem_append_left _ member)
  | cancelTimer id _ inductionHypothesis => exact (inductionHypothesis fits).cancelTimer id
  | cancelAllTimers _ inductionHypothesis => exact (inductionHypothesis fits).cancelAllTimers
  | fire _ earliest inductionHypothesis => exact (inductionHypothesis fits).fire earliest

end Clock

end PaxosBus.Simulated

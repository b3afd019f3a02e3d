import Mathlib.Data.List.Induction
import PaxosBus.Simulated.Delivery

/-!
# The numbers of ordered multicasts

A transport that simulates the sequencer counts for each group how often it has
been listed in the multicasts of a session, and a multicast carries the counts
of its groups. So no two multicasts of a session have the same number for a
group, and a receiver that misses a number has missed a message.
-/

set_option autoImplicit false

namespace PaxosBus.Simulated

open PaxosBus.Library

variable {W M C : Type} {setup : Setup} {t : SimulatedTransport W M C}

/-- How often a group is listed in the multicasts of a session. -/
def listings (sessnum : Nat) (groupIdx : Int) : List Multicast → Nat
  | [] => 0
  | m :: rest =>
    (if m.stamp.sessnum = sessnum then m.groups.count groupIdx else 0) +
      listings sessnum groupIdx rest

/-- A group is listed as often as in one list and in the other. -/
theorem listings_append (sessnum : Nat) (groupIdx : Int) (first second : List Multicast) :
    listings sessnum groupIdx (first ++ second) =
      listings sessnum groupIdx first + listings sessnum groupIdx second := by
  induction first with
  | nil => exact (Nat.zero_add _).symm
  | cons m rest inductionHypothesis =>
      rw [List.cons_append, listings, listings, inductionHypothesis, Nat.add_assoc]

/-- A multicast of the session lists a group as often as its groups do. -/
theorem listings_single {sessnum : Nat} {groupIdx : Int} {m : Multicast}
    (session : m.stamp.sessnum = sessnum) :
    listings sessnum groupIdx [m] = m.groups.count groupIdx := by
  rw [listings, if_pos session]
  exact Nat.add_zero _

/-- In other sessions, nothing is listed. -/
theorem listings_of_ne {sessnum : Nat} {groupIdx : Int} {multicasts : List Multicast}
    (others : ∀ m ∈ multicasts, m.stamp.sessnum ≠ sessnum) :
    listings sessnum groupIdx multicasts = 0 := by
  induction multicasts with
  | nil => rfl
  | cons m rest inductionHypothesis =>
      rw [listings, if_neg (others m List.mem_cons_self), Nat.zero_add]
      exact inductionHypothesis fun other member => others other (List.mem_cons_of_mem _ member)

/-- A multicast that lists a group has a larger count than all before it. -/
theorem listings_take_lt {multicasts : List Multicast} {i j : Nat} {m : Multicast} {sessnum : Nat}
    {groupIdx : Int} (earlier : i < j) (here : multicasts[j]? = some m)
    (session : m.stamp.sessnum = sessnum) (listed : groupIdx ∈ m.groups) :
    listings sessnum groupIdx (multicasts.take (i + 1)) <
      listings sessnum groupIdx (multicasts.take (j + 1)) := by
  have whole : multicasts.take (j + 1) = multicasts.take j ++ [m] := by
    rw [List.take_add_one, here]
    rfl
  have part : multicasts.take j = multicasts.take (i + 1) ++ (multicasts.take j).drop (i + 1) := by
    conv_lhs => rw [← List.take_append_drop (i + 1) (multicasts.take j)]
    rw [List.take_take, Nat.min_eq_left earlier]
  have positive : 0 < m.groups.count groupIdx := List.count_pos_iff.mpr listed
  rw [whole, part, listings_append, listings_append, listings_single session]
  omega

/-- If no multicast lists a group twice, every count up to the last one is the count up to some
multicast. -/
theorem exists_listing {multicasts : List Multicast} {sessnum number : Nat} {groupIdx : Int}
    (distinct : ∀ m ∈ multicasts, m.groups.Nodup) (positive : 0 < number)
    (le : number ≤ listings sessnum groupIdx multicasts) :
    ∃ (i : Nat) (m : Multicast), multicasts[i]? = some m ∧ m.stamp.sessnum = sessnum ∧
      groupIdx ∈ m.groups ∧ listings sessnum groupIdx (multicasts.take (i + 1)) = number := by
  induction multicasts using List.reverseRecOn with
  | nil => exact absurd (Nat.lt_of_lt_of_le positive le) (Nat.lt_irrefl 0)
  | append_singleton before last inductionHypothesis =>
      by_cases earlier : number ≤ listings sessnum groupIdx before
      · obtain ⟨i, m, here, session, listed, count⟩ := inductionHypothesis
          (fun m member => distinct m (List.mem_append_left _ member)) earlier
        have inside := (List.getElem?_eq_some_iff.mp here).1
        refine ⟨i, m, ?_, session, listed, ?_⟩
        · rw [List.getElem?_append_left inside]
          exact here
        · rw [List.take_append_of_le_length inside]
          exact count
      · rw [listings_append] at le
        have session : last.stamp.sessnum = sessnum := by
          by_contra other
          have nothing : listings sessnum groupIdx [last] = 0 := by
            apply listings_of_ne
            intro m single
            obtain rfl := List.mem_singleton.mp single
            exact other
          omega
        have once := List.nodup_iff_count_le_one.mp
          (distinct last (List.mem_append_right _ (List.mem_singleton_self _))) groupIdx
        rw [listings_single session] at le
        have listed : groupIdx ∈ last.groups := List.count_pos_iff.mp (by omega)
        refine ⟨before.length, last, List.getElem?_concat_length, session, listed, ?_⟩
        rw [List.take_of_length_le (by simp), listings_append, listings_single session]
        omega

/-! ## Counting -/

/-- The counter of a group goes up by as often as the group is addressed. -/
theorem counters_stampGroups (groups : List Int) (counters seqnums : Int → Option Nat)
    (groupIdx : Int) :
    ((stampGroups groups counters seqnums).1 groupIdx).getD 0 =
      (counters groupIdx).getD 0 + groups.count groupIdx := by
  induction groups generalizing counters seqnums with
  | nil => rfl
  | cons head rest inductionHypothesis =>
      rw [stampGroups, inductionHypothesis, List.count_cons]
      by_cases same : head = groupIdx
      · subst same
        simp only [Function.update_self, Option.getD_some, beq_self_eq_true, if_true]
        omega
      · rw [Function.update_of_ne (Ne.symm same), if_neg (by simpa using same), Nat.add_zero]

/-- A multicast carries the counts of its groups. -/
theorem seqnums_stampGroups (groups : List Int) (counters seqnums : Int → Option Nat)
    (groupIdx : Int) :
    (stampGroups groups counters seqnums).2 groupIdx =
      if groupIdx ∈ groups then some ((counters groupIdx).getD 0 + groups.count groupIdx)
      else seqnums groupIdx := by
  induction groups generalizing counters seqnums with
  | nil => rfl
  | cons head rest inductionHypothesis =>
      rw [stampGroups, inductionHypothesis, List.count_cons]
      by_cases same : head = groupIdx
      · subst same
        simp only [Function.update_self, Option.getD_some, beq_self_eq_true, if_true,
          List.mem_cons_self]
        split
        next => exact congrArg some (by omega)
        next absent =>
            rw [List.count_eq_zero_of_not_mem absent]
      · have single : (if (head == groupIdx) = true then 1 else 0) = 0 :=
          if_neg (by simpa using same)
        rw [Function.update_of_ne (Ne.symm same), Function.update_of_ne (Ne.symm same), single,
          Nat.add_zero]
        simp only [List.mem_cons, Ne.symm same, false_or]

namespace SimulatedTransport

/-- What is right about the numbers: the counters count the listings of the session, and each
multicast carries for each of its groups how often the group had been listed by then. -/
structure Numbered (setup : Setup) (t : SimulatedTransport W M C) : Prop where
  counters : ∀ groupIdx, (t.noCounters groupIdx).getD 0 =
    listings t.sequencerID groupIdx t.multicasts
  sessions : ∀ m ∈ t.multicasts, m.stamp.sessnum ≤ t.sequencerID
  numbers : ∀ (i : Nat) (m : Multicast), t.multicasts[i]? = some m → ∀ groupIdx,
    m.stamp.seqnums groupIdx = if groupIdx ∈ m.groups then
      some (listings m.stamp.sessnum groupIdx (t.multicasts.take (i + 1))) else none
  carried : ∀ q ∈ t.accepted, ∀ stamp, q.stamp = some stamp →
    ∃ m ∈ t.multicasts, m.stamp = stamp ∧ q.dst ∈ setup.targets q.src m.groups

/-- What the numbers do not depend on. -/
theorem Numbered.frame {after : SimulatedTransport W M C} (numbered : t.Numbered setup)
    (counters : after.noCounters = t.noCounters) (session : after.sequencerID = t.sequencerID)
    (multicasts : after.multicasts = t.multicasts)
    (accepted : ∀ q ∈ after.accepted, q ∈ t.accepted ∨ ∀ stamp, q.stamp = some stamp →
      ∃ m ∈ t.multicasts, m.stamp = stamp ∧ q.dst ∈ setup.targets q.src m.groups) :
    after.Numbered setup where
  counters := by
    rw [counters, session, multicasts]
    exact numbered.counters
  sessions := by
    rw [session, multicasts]
    exact numbered.sessions
  numbers := by
    rw [multicasts]
    exact numbered.numbers
  carried := by
    rw [multicasts]
    intro q member
    rcases accepted q member with old | new
    · exact numbered.carried q old
    · exact new

/-- A new multicast carries the next numbers. -/
theorem Numbered.countMulticast (numbered : t.Numbered setup) (groups : List Int) :
    (t.countMulticast groups).Numbered setup where
  counters groupIdx := by
    show ((stampGroups groups t.noCounters fun _ => none).1 groupIdx).getD 0 =
      listings t.sequencerID groupIdx (t.multicasts ++ [⟨groups, t.stamp groups⟩])
    have single : listings t.sequencerID groupIdx [⟨groups, t.stamp groups⟩] =
      groups.count groupIdx := listings_single rfl
    rw [counters_stampGroups, listings_append, numbered.counters, single]
  sessions m member := by
    rcases List.mem_append.mp member with old | new
    · exact numbered.sessions m old
    · obtain rfl := List.mem_singleton.mp new
      exact Nat.le_refl _
  numbers i m here groupIdx := by
    show m.stamp.seqnums groupIdx = if groupIdx ∈ m.groups then
      some (listings m.stamp.sessnum groupIdx ((t.multicasts ++ [_]).take (i + 1))) else none
    have here : (t.multicasts ++ [⟨groups, t.stamp groups⟩])[i]? = some m := here
    rcases Nat.lt_trichotomy i t.multicasts.length with old | rfl | beyond
    · rw [List.getElem?_append_left old] at here
      rw [List.take_append_of_le_length old]
      exact numbered.numbers i m here groupIdx
    · rw [List.getElem?_concat_length] at here
      obtain rfl := Option.some.inj here
      rw [List.take_of_length_le (by simp)]
      show (stampGroups groups t.noCounters fun _ => none).2 groupIdx = _
      have single : listings t.sequencerID groupIdx [⟨groups, t.stamp groups⟩] =
        groups.count groupIdx := listings_single rfl
      rw [seqnums_stampGroups, numbered.counters, ← single, ← listings_append]
      rfl
    · rw [List.getElem?_eq_none (by simpa using Nat.succ_le_of_lt beyond)] at here
      cases here
  carried q member stamp has := by
    obtain ⟨m, before, same⟩ := numbered.carried q member stamp has
    exact ⟨m, List.mem_append_left _ before, same⟩

/-- What is accepted when a message is sent. -/
theorem of_mem_accepted {src dst : Nat} {m : M} {stamp : Option Multistamp} {q : QueuedMessage M}
    (member : q ∈ (t.sendStamped src dst m stamp).accepted) :
    q ∈ t.accepted ∨ q.src = src ∧ q.dst = dst ∧ q.stamp = stamp := by
  unfold sendStamped accept at member
  simp only at member
  split at member
  · have appended : q ∈ t.accepted ++ [⟨dst, src, (t.passage src dst m).msg, stamp⟩] := by
      split at member
      · exact member
      · exact member
    rcases List.mem_append.mp appended with old | new
    · exact .inl old
    · obtain rfl := List.mem_singleton.mp new
      exact .inr ⟨rfl, rfl, rfl⟩
  · exact .inl member

/-- Sending leaves the numbers. -/
theorem frame_sendStamped (src dst : Nat) (m : M) (stamp : Option Multistamp) :
    (t.sendStamped src dst m stamp).noCounters = t.noCounters ∧
      (t.sendStamped src dst m stamp).sequencerID = t.sequencerID ∧
      (t.sendStamped src dst m stamp).multicasts = t.multicasts := by
  unfold sendStamped accept
  simp only
  split
  · split
    · exact ⟨rfl, rfl, rfl⟩
    · exact ⟨rfl, rfl, rfl⟩
  · exact ⟨rfl, rfl, rfl⟩

/-- A multicast takes the next number of each of its groups. -/
theorem Numbered.orderedMulticast (numbered : t.Numbered setup) (src : Nat) (groups : List Int)
    (m : M) : (t.orderedMulticast setup src groups m).Numbered setup := by
  have kept : (t.orderedMulticast setup src groups m).Numbered setup ∧
      (⟨groups, t.stamp groups⟩ : Multicast) ∈
        (t.orderedMulticast setup src groups m).multicasts := by
    apply orderedMulticast_keeps (motive := fun after : SimulatedTransport W M C =>
      after.Numbered setup ∧ (⟨groups, t.stamp groups⟩ : Multicast) ∈ after.multicasts)
    · exact ⟨numbered.countMulticast groups, List.mem_append_right _ (List.mem_singleton_self _)⟩
    · rintro after dst target ⟨numbered, listed⟩
      obtain ⟨counters, session, multicasts⟩ :=
        frame_sendStamped (t := after) src dst m (some (t.stamp groups))
      constructor
      · apply numbered.frame counters session multicasts
        intro q member
        rcases of_mem_accepted member with old | ⟨rfl, rfl, stamped⟩
        · exact .inl old
        · right
          intro stamp has
          obtain rfl := Option.some.inj (stamped.symm.trans has)
          exact ⟨_, listed, rfl, target⟩
      · rw [multicasts]
        exact listed
  exact kept.1

/-- `Run` leaves the numbers. -/
theorem frame_run (setup : Setup) (t : SimulatedTransport W M C) :
    (t.run setup).noCounters = t.noCounters ∧
    (t.run setup).sequencerID = t.sequencerID ∧ (t.run setup).multicasts = t.multicasts ∧
    (t.run setup).accepted = t.accepted := by
  unfold run
  split
  · exact ⟨rfl, rfl, rfl, rfl⟩
  · split
    · exact ⟨rfl, rfl, rfl, rfl⟩
    · split
      · unfold fireTimer
        split
        · simp only
          split
          · exact ⟨rfl, rfl, rfl, rfl⟩
          · exact ⟨rfl, rfl, rfl, rfl⟩
        · exact ⟨rfl, rfl, rfl, rfl⟩
      · exact ⟨rfl, rfl, rfl, rfl⟩
  · split
    · exact ⟨rfl, rfl, rfl, rfl⟩
    · exact ⟨rfl, rfl, rfl, rfl⟩

/-- Whatever is called, the numbers go on where they are. -/
theorem Numbered.act (numbered : t.Numbered setup) (action : Action W M C) :
    (t.act setup action).Numbered setup := by
  cases action with
  | sendMessage src dst m =>
      obtain ⟨counters, session, multicasts⟩ := frame_sendStamped (t := t) src dst m none
      apply numbered.frame counters session multicasts
      intro q member
      rcases of_mem_accepted member with old | ⟨-, -, stamped⟩
      · exact .inl old
      · right
        intro stamp has
        cases stamped.symm.trans has
  | orderedMulticast src groups m => exact numbered.orderedMulticast src groups m
  | sessionChange =>
      constructor
      · intro groupIdx
        apply Eq.symm
        apply listings_of_ne
        exact fun m member => Nat.ne_of_lt (Nat.lt_succ_of_le (numbered.sessions m member))
      · exact fun m member => Nat.le_succ_of_le (numbered.sessions m member)
      · exact numbered.numbers
      · exact numbered.carried
  | run =>
      obtain ⟨counters, session, multicasts, accepted⟩ := frame_run setup t
      apply numbered.frame counters session multicasts
      intro q member
      exact .inl (accepted ▸ member)
  | timer | cancelTimer | cancelAllTimers | addFilter | removeFilter | stop | assign =>
      exact numbered.frame rfl rfl rfl fun q member => .inl member

/-- In every run the numbers of each session are given out one by one. -/
theorem invariant_numbered (setup : Setup) :
    (system (W := W) (M := M) (C := C) setup).Invariant TransitionSystem.unguarded
      (Numbered setup) where
  initial := by
    rintro t ⟨world, rfl⟩
    constructor
    · exact fun _ => rfl
    · intro m none_
      cases none_
    · intro i m none_
      cases none_
    · intro q none_
      cases none_
  preserved := by
    rintro t action next numbered - stepped
    simp only [system, step] at stepped
    split at stepped
    · cases stepped
    · obtain rfl := Option.some.inj stepped
      exact numbered.act action

/-- No two multicasts of a session have the same number for a group. -/
theorem Numbered.unique (numbered : t.Numbered setup) {i j number : Nat} {m m' : Multicast}
    {groupIdx : Int} (here : t.multicasts[i]? = some m) (there : t.multicasts[j]? = some m')
    (session : m.stamp.sessnum = m'.stamp.sessnum)
    (has : m.stamp.seqnums groupIdx = some number)
    (has' : m'.stamp.seqnums groupIdx = some number) : i = j := by
  have counted : ∀ {k : Nat} {m : Multicast}, t.multicasts[k]? = some m →
      m.stamp.seqnums groupIdx = some number → groupIdx ∈ m.groups ∧
        listings m.stamp.sessnum groupIdx (t.multicasts.take (k + 1)) = number := by
    intro k m at_ has
    rw [numbered.numbers k m at_ groupIdx] at has
    split at has
    next listed => exact ⟨listed, Option.some.inj has⟩
    next => cases has
  obtain ⟨listed, number_⟩ := counted here has
  obtain ⟨listed', number'⟩ := counted there has'
  rw [session] at number_
  rcases Nat.lt_trichotomy i j with before | same | after
  · have lt := listings_take_lt before there rfl listed'
    rw [number_, number'] at lt
    exact absurd lt (Nat.lt_irrefl _)
  · exact same
  · have lt := listings_take_lt after here session listed
    rw [number_, number'] at lt
    exact absurd lt (Nat.lt_irrefl _)

/-- What receivers can rely on. -/
structure Sequenced (setup : Setup) (t : SimulatedTransport W M C) : Prop where
  /-- A multicast carries for each of its groups how often the group has been listed. -/
  numbers : ∀ (i : Nat) (m : Multicast), t.multicasts[i]? = some m → ∀ groupIdx,
    m.stamp.seqnums groupIdx = if groupIdx ∈ m.groups then
      some (listings m.stamp.sessnum groupIdx (t.multicasts.take (i + 1))) else none
  /-- No two multicasts of a session have the same number for a group. -/
  unique : ∀ (i j : Nat) (m m' : Multicast), t.multicasts[i]? = some m →
    t.multicasts[j]? = some m' → m.stamp.sessnum = m'.stamp.sessnum → ∀ groupIdx number,
      m.stamp.seqnums groupIdx = some number → m'.stamp.seqnums groupIdx = some number → i = j
  /-- If no multicast lists a group twice, each number that has been passed belongs to one. -/
  complete : (∀ m ∈ t.multicasts, m.groups.Nodup) → ∀ sessnum groupIdx number, 0 < number →
    number ≤ listings sessnum groupIdx t.multicasts → ∃ m ∈ t.multicasts,
      m.stamp.sessnum = sessnum ∧ m.stamp.seqnums groupIdx = some number
  /-- A stamp that is delivered is the one of a multicast to the receiver. -/
  carried : ∀ q ∈ t.delivered, ∀ stamp, q.stamp = some stamp →
    ∃ m ∈ t.multicasts, m.stamp = stamp ∧ q.dst ∈ setup.targets q.src m.groups

/-- In every reachable state, as long as no deadline has wrapped around, receivers can rely on the
numbers of the multicasts. -/
theorem sequenced_of_reachable (reachable : (system setup).Reachable (Fits setup) t) :
    t.Sequenced setup := by
  have numbered := (invariant_numbered setup).of_reachable
    (reachable.imp fun _ _ _ => trivial)
  have conserved := (invariant_conserved setup).of_reachable reachable
  have accounted := conserved.accounted ((invariant_punctual setup).of_reachable reachable).2
  constructor
  · exact numbered.numbers
  · intro i j m m' here there session groupIdx number has has'
    exact numbered.unique here there session has has'
  · intro distinct sessnum groupIdx number positive le
    obtain ⟨i, m, here, session, listed, count⟩ := exists_listing distinct positive le
    refine ⟨m, List.mem_of_getElem? here, session, ?_⟩
    rw [numbered.numbers i m here groupIdx, if_pos listed, session, count]
  · intro q member stamp has
    apply numbered.carried q _ stamp has
    apply accounted.accepted.mem_iff.mpr
    exact List.mem_append_left _ (List.mem_append_left _ (List.mem_append_left _ member))

/-- Two multicasts to one group, in two sessions. -/
def sessionRun : List (Action Unit String Nat) :=
  [.orderedMulticast 4 [0] "a", .orderedMulticast 4 [0] "b", .sessionChange,
    .orderedMulticast 4 [0] "c", .run, .run]

theorem sequenced_sessionRun : ∃ t : SimulatedTransport Unit String Nat,
    t.multicasts.length = 3 ∧ t.delivered.length = 1 ∧ t.Sequenced threeReplicas := by
  obtain ⟨t, reachable, happened⟩ := (system threeReplicas).exists_reachable_of_run
    (Fits threeReplicas)
    (fun t => decide (t.multicasts.length = 3 ∧ t.delivered.length = 1))
    sessionRun ⟨(), rfl⟩ (by decide +kernel)
  obtain ⟨multicasts, delivered⟩ := of_decide_eq_true happened
  exact ⟨t, multicasts, delivered, sequenced_of_reachable reachable⟩

end SimulatedTransport

end PaxosBus.Simulated

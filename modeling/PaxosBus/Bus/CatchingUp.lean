import PaxosBus.Bus.Spacing
import PaxosBus.Library.Attaining

/-!
# Every slot can be filled

A gap timer that is pending stays pending: it is armed again whenever it fires
or the frontier is walked. Each firing at the leader fills the slot at the
frontier, and a follower whose frontier does not move asks the leader for the
slot there. So no run gets stuck: from every state, the timers and the packets
that they send can fill any slot at the leader, and then at the followers.
-/

set_option autoImplicit false

namespace PaxosBus.Bus

open Std PaxosBus.Common PaxosBus.Library

/-- The message tells its receiver what the slot holds. -/
def Message.Answers (client slot : Nat) : Message → Prop
  | .gapReply reply => reply.clientId = client ∧ reply.seqNum = slot ∧ reply.found = true
  | .gapCommit commit => commit.clientId = client ∧ commit.seqNum = slot
  | _ => False

/-- An answer is about the client whose slot it tells. -/
theorem Message.Answers.clientId {msg : Message} {client slot : Nat}
    (answers : msg.Answers client slot) : msg.clientId = client := by
  cases msg with
  | gapReply reply => exact answers.1
  | gapCommit commit => exact answers.1
  | sync => cases answers
  | data => cases answers
  | dataReply => cases answers
  | gapRequest => cases answers
  | gapCommitReply => cases answers

namespace ClientStream

/-- The frontier has started at slot one, and has only filled slots behind it. -/
structure Walked (s : ClientStream) : Prop where
  started : 1 ≤ s.nextExpected
  filled : ∀ slot, 1 ≤ slot → slot < s.nextExpected → s.filled slot = true

/-- A handler fills slots and walks the frontier, or puts the frontier back to slot one. -/
def Continues (s s' : ClientStream) : Prop :=
  s.Advances s' ∨ (s'.log = s.log ∧ s'.nextExpected = 1)

variable {s s' t : ClientStream}

/-- The id of the gap timer is no part of it. -/
theorem Continues.of_untimed (same : s'.untimed = t.untimed) (continues : s.Continues t) :
    s.Continues s' := by
  obtain ⟨_, _, next, _, log, _⟩ := fields_of_untimed same
  rcases continues with ⟨kept, onward⟩ | ⟨sameLog, back⟩
  · refine .inl ⟨?_, ?_⟩
    · intro slot filled
      rw [filled_congr log]
      exact kept slot filled
    · rw [next, log, frontierFrom_congr log]
      rcases onward with ⟨waits, unchanged⟩ | walked
      · refine .inl ⟨waits, fun slot => ?_⟩
        rw [filled_congr log]
        exact unchanged slot
      · exact .inr walked
  · exact .inr ⟨log.trans sameLog, next.trans back⟩

/-- What is filled stays filled. -/
theorem Continues.filled (continues : s.Continues s') {slot : Nat} (filled : s.filled slot = true) :
    s'.filled slot = true := by
  rcases continues with advances | ⟨log, _⟩
  · exact advances.kept slot filled
  · rw [filled_congr log]
    exact filled

/-- What a handler leaves behind the frontier is filled. -/
theorem Continues.walked (continues : s.Continues s') (walked : s.Walked) : s'.Walked := by
  rcases continues with advances | ⟨_, back⟩
  · constructor
    · exact Nat.le_trans walked.started advances.le
    · intro slot low high
      by_cases old : slot < s.nextExpected
      · exact advances.kept slot (walked.filled slot low old)
      · rcases advances.onward with ⟨waits, _⟩ | reached
        · omega
        · rw [reached] at high
          exact s'.filled_of_lt_frontierFrom _ _ slot (by omega) high
  · constructor
    · exact Nat.le_of_eq back.symm
    · intro slot low high
      omega

/-- A walk of the frontier passes a slot that is filled. -/
theorem lt_advance (s : ClientStream) {frontier : Nat} (here : s.nextExpected = frontier)
    (filled : s.filled frontier = true) : frontier < s.advance.nextExpected := by
  subst here
  have onward := s.le_frontierFrom s.log.size s.nextExpected
  have stops := s.filled_frontierFrom_size s.nextExpected
  apply Nat.lt_of_le_of_ne onward
  intro same
  rw [← same, filled] at stops
  cases stops

end ClientStream

namespace Replica

variable (r : Replica)

/-- What a replica relies on when it catches up: its gap timers are in order, and its frontiers
have only filled slots behind them. -/
structure Sound : Prop where
  timed : r.Timed
  walked : ∀ client, (r.stream client).Walked

/-- Whatever a message is, the stream of its client goes on. -/
theorem continues_takes (msg : Message) (clock : Nat → Nat) :
    (r.stream msg.clientId).Continues (r.takes msg clock (r.stream msg.clientId)) := by
  cases msg with
  | sync msg => exact .inr ⟨rfl, rfl⟩
  | data msg =>
      unfold takes
      dsimp only
      split
      · exact .inl (ClientStream.advances_takeData _ _ _ _ _)
      · exact .inl (.of_same rfl rfl)
  | dataReply msg => exact .inl (.of_same rfl rfl)
  | gapRequest msg => exact .inl (.of_same rfl rfl)
  | gapReply msg => exact .inl (ClientStream.advances_takeReply _ _ _)
  | gapCommit msg => exact .inl (ClientStream.advances_takeCommit _ _)
  | gapCommitReply msg =>
      unfold takes
      dsimp only
      split
      · exact .inl (ClientStream.advances_takeAck _ _ _)
      · exact .inl (.of_same rfl rfl)

variable {r}

/-- Whatever happens to a replica, every stream goes on. -/
theorem continues_undergo (r : Replica) (event : Event) (client : Nat) :
    (r.stream client).Continues ((r.undergo event).1.stream client) := by
  have same : (r.stream client).Continues (r.stream client) := .inl (.of_same rfl rfl)
  cases event with
  | message remote msg clock =>
      have after := r.untimed_receiveMessage client remote msg clock
      split at after
      · rename_i about
        subst about
        exact (r.continues_takes msg clock).of_untimed after
      · exact same.of_untimed after
  | gapTimer clientId clock =>
      unfold Replica.undergo
      dsimp only
      split
      · exact same
      · rename_i timer pending
        have after := (r.expire (r.stream clientId).gapTimerId).untimed_onGapTimeout
          timer.callback client clock
        split at after
        · rename_i own
          subst own
          have advances := (r.stream timer.callback).advances_scanned
            (r.expire (r.stream clientId).gapTimerId).amLeader
              (r.expire (r.stream clientId).gapTimerId).options clock
          exact ClientStream.Continues.of_untimed after (.inl advances)
        · exact same.of_untimed after

/-- In gap mode a gap timer that is pending stays pending. -/
theorem Timed.armed_undergo (timed : r.Timed) (gapMode : r.options.gapEnabled = true)
    {client : Nat} (armed : (r.gapTimer client).isSome = true) (event : Event) :
    ((r.undergo event).1.gapTimer client).isSome = true := by
  by_cases about : client = event.clientId
  · subst about
    cases event with
    | message remote msg clock =>
        have after := r.gapTimer_receiveMessage remote msg clock
        change ((r.receiveMessage remote msg clock).1.gapTimer msg.clientId).isSome = true
        rw [after]
        split
        · exact armed
        · rfl
    | gapTimer clientId clock =>
        unfold Replica.undergo
        dsimp only
        split
        · exact armed
        · rename_i timer pending
          have own := timed.callback_gapTimer pending
          have after := (r.expire (r.stream clientId).gapTimerId).gapTimer_onGapTimeout clientId
            clock gapMode
          rw [own]
          exact Option.isSome_of_eq_some after
  · have writes : Writes event.clientId r (r.undergo event).1 :=
      .undergo r event fun _ _ => timed.callback_gapTimer
    rw [(untouched_of_writes timed writes about).timer]
    exact armed

/-- Whatever happens to a replica, it can still catch up. -/
theorem Sound.undergo (sound : r.Sound) (event : Event) : (r.undergo event).1.Sound where
  timed := sound.timed.undergo event
  walked client := (r.continues_undergo event client).walked (sound.walked client)

/-! ## One firing, one answer -/

/-- A gap timer leaves the frontier at a slot that is missing, and does not put it back. -/
theorem frontier_onGapTimeout (r : Replica) (client : Nat) (clock : Nat → Nat) :
    (r.stream client).nextExpected ≤ ((r.onGapTimeout client clock).1.stream client).nextExpected ∧
      ((r.onGapTimeout client clock).1.entry client
        ((r.onGapTimeout client clock).1.stream client).nextExpected).state = .empty := by
  have after := r.untimed_onGapTimeout client client clock
  rw [if_pos rfl] at after
  obtain ⟨_, _, next, _, log, _⟩ := ClientStream.fields_of_untimed after
  constructor
  · rw [next]
    exact ((r.stream client).advances_scanned r.amLeader r.options clock).le
  · have stops := ((r.stream client).untimed.scanned r.amLeader r.options
      clock).filled_frontierFrom_size
        ((r.stream client).untimed.scanned r.amLeader r.options clock).nextExpected
    rw [entry, ClientStream.entry_congr log, next]
    exact ClientStream.filled_eq_false.mp stops

/-- The leader's gap timer moves the frontier, if the slot there is due. -/
theorem lt_nextExpected_onGapTimeout (leads : r.amLeader = true) {client now : Nat}
    (due : (r.stream client).deadlineNs r.options (r.stream client).nextExpected ≤ now) :
    (r.stream client).nextExpected <
      ((r.onGapTimeout client fun _ => now).1.stream client).nextExpected := by
  obtain ⟨onward, missing⟩ := r.frontier_onGapTimeout client fun _ => now
  apply Nat.lt_of_le_of_ne onward
  intro same
  rw [← same] at missing
  have before : (r.entry client (r.stream client).nextExpected).state = .empty := by
    by_contra filled
    rw [r.entry_onGapTimeout client _ client _ filled] at missing
    exact filled missing
  have recovers := (r.recovers_iff client (fun _ => now) (r.stream client).nextExpected).mpr
    ⟨Nat.le_refl _, Nat.le_max_right _ _, ⟨before, due⟩, .inl leads⟩
  rw [Recovers, if_pos leads, missing] at recovers
  cases recovers.2

/-- A follower's gap timer moves the frontier, or asks the leader for the slot there, if it is due
and the leader has not just been asked for it. -/
theorem moves_or_asks (follows : r.amLeader = false) {client now : Nat}
    (due : (r.stream client).deadlineNs r.options (r.stream client).nextExpected ≤ now)
    (stale : (r.stream client).recentlyRequested r.options (r.stream client).nextExpected now =
      false) :
    (r.stream client).nextExpected <
        ((r.onGapTimeout client fun _ => now).1.stream client).nextExpected ∨
      ((r.onGapTimeout client fun _ => now).1.stream client).nextExpected =
          (r.stream client).nextExpected ∧
        (⟨.replica (r.config.getLeaderIndex r.viewId), .gapRequest ⟨client,
          (r.stream client).nextExpected, r.viewId, r.replicaIdx⟩⟩ : Send) ∈
            (r.onGapTimeout client fun _ => now).2 := by
  obtain ⟨onward, missing⟩ := r.frontier_onGapTimeout client fun _ => now
  rcases Nat.lt_or_eq_of_le onward with moved | same
  · exact .inl moved
  · refine .inr ⟨same.symm, ?_⟩
    rw [← same] at missing
    have before : (r.entry client (r.stream client).nextExpected).state = .empty := by
      by_contra filled
      rw [r.entry_onGapTimeout client _ client _ filled] at missing
      exact filled missing
    have recovers := (r.recovers_iff client (fun _ => now) (r.stream client).nextExpected).mpr
      ⟨Nat.le_refl _, Nat.le_max_right _ _, ⟨before, due⟩, .inr stale⟩
    rw [Recovers, if_neg (by simp [follows])] at recovers
    obtain ⟨send, sent, isRequest⟩ := recovers
    rcases r.mem_onGapTimeout client sent with ⟨leads, _⟩ | ⟨_, slot, rfl⟩
    · rw [follows] at leads
      cases leads
    · cases isRequest
      exact sent

/-- The leader answers a request for a slot that it has filled. -/
theorem answers_handleGapRequest (leads : r.amLeader = true) (remote : Address)
    {msg : GapRequestMessage}
    (filled : (r.stream msg.clientId).filled msg.seqNum = true) :
    ∃ send ∈ (r.handleGapRequest remote msg).2, send.dst = remote ∧
      send.msg.Answers msg.clientId msg.seqNum := by
  unfold handleGapRequest
  rw [if_pos leads]
  dsimp only
  split
  · exact ⟨_, List.mem_singleton_self _, rfl, rfl, rfl, rfl⟩
  · exact ⟨_, List.mem_singleton_self _, rfl, rfl, rfl⟩
  · rename_i missing
    exact absurd missing (ClientStream.filled_eq_true.mp filled)

/-- An answer for the slot at the frontier moves the frontier, if the slot is missing. -/
theorem lt_nextExpected_receiveMessage (r : Replica) {client : Nat} {msg : Message}
    (remote : Address) (clock : Nat → Nat)
    (answers : msg.Answers client (r.stream client).nextExpected)
    (missing : (r.stream client).filled (r.stream client).nextExpected = false) :
    (r.stream client).nextExpected <
      ((r.receiveMessage remote msg clock).1.stream client).nextExpected := by
  have after := r.untimed_receiveMessage client remote msg clock
  rw [if_pos answers.clientId] at after
  obtain ⟨_, _, next, _⟩ := ClientStream.fields_of_untimed after
  rw [next]
  cases msg with
  | gapReply reply =>
      obtain ⟨rfl, slot, found⟩ := answers
      unfold takes ClientStream.takeReply
      dsimp only
      rw [slot, found, missing]
      apply ClientStream.lt_advance
      · exact ((r.stream reply.clientId).fills_record _ _ _ _).waits
      · exact (r.stream reply.clientId).filled_record _ _ _ _
  | gapCommit commit =>
      obtain ⟨rfl, slot⟩ := answers
      unfold takes ClientStream.takeCommit
      dsimp only
      rw [slot]
      apply ClientStream.lt_advance
      · rfl
      · simp [ClientStream.filled]
  | sync => cases answers
  | data => cases answers
  | dataReply => cases answers
  | gapRequest => cases answers
  | gapCommitReply => cases answers

end Replica

namespace System

/-- What can happen while slots are recovered, the clock not going back: a gap timer fires, or one
of the packets from the position `sent` on arrives. -/
inductive Recovering (d : Deployment) (sent : Nat) : Nat × System → Nat × System → Prop where
  | fire {now reading : Nat} {s s' : System} (idx id : Nat) (later : now ≤ reading)
      (transition : (system d).step s (.replicaTimer idx id fun _ => reading) = some s') :
      Recovering d sent (now, s) (reading, s')
  | deliver {now reading : Nat} {s s' : System} (position : Nat) (fresh : sent ≤ position)
      (later : now ≤ reading)
      (transition : (system d).step s (.deliver position fun _ => reading) = some s') :
      Recovering d sent (now, s) (reading, s')

/-- The group is in order, and the replicas in question have a gap timer pending. -/
structure Live (d : Deployment) (sent client : Nat) (armed : Nat → Prop) (moment : Nat × System) :
    Prop where
  aligned : Aligned d moment.2
  sound : ∀ idx, (moment.2.replicas idx).Sound
  armed : ∀ idx, armed idx → ((moment.2.replicas idx).gapTimer client).isSome = true
  sent : sent ≤ moment.2.network.length

/-- The slots of the client up to the bound are filled. -/
def FilledTo (client bound idx : Nat) (moment : Nat × System) : Prop :=
  ∀ slot, 1 ≤ slot → slot ≤ bound →
    ((moment.2.replicas idx).stream client).filled slot = true

variable {d : Deployment} {s s' : System} {sent client bound : Nat} {armed : Nat → Prop}

/-- What happens to a replica in a step: nothing, or one event. -/
theorem replica_undergoes (sound : ∀ idx, (s.replicas idx).Sound) {action : Action}
    (transition : (system d).step s action = some s') (idx : Nat) :
    s'.replicas idx = s.replicas idx ∨
      ∃ event, s'.replicas idx = ((s.replicas idx).undergo event).1 := by
  rcases replica_step transition idx with same |
    ⟨position, clock, packet, rfl, found, addressed, received⟩ |
    ⟨id, clock, timer, rfl, pending, fired⟩
  · exact .inl same
  · exact .inr ⟨.message packet.src packet.msg clock, received⟩
  · refine .inr ⟨.gapTimer timer.callback clock, fired.trans ?_⟩
    have timed := (sound idx).timed
    rw [Replica.undergo, timed.gapTimer_of_pending pending, (timed.owned pending).2.2]
    rfl

/-- Every replica is in order in every reachable state. -/
theorem sound_invariant (d : Deployment) :
    (system d).Invariant TransitionSystem.unguarded fun s => ∀ idx, (s.replicas idx).Sound where
  initial s start idx := by
    rw [show s = initial d from start]
    constructor
    · exact Replica.Timed.new d.config idx d.options
    · intro client
      exact ⟨Nat.le_refl 1, fun _ low high => absurd low (Nat.not_le.mpr high)⟩
  preserved {s action s'} sound _ transition idx := by
    rcases replica_undergoes sound transition idx with same | ⟨event, same⟩
    · rw [same]
      exact sound idx
    · rw [same]
      exact (sound idx).undergo event

/-- The network only grows. -/
theorem length_network_le {action : Action} (transition : (system d).step s action = some s') :
    s.network.length ≤ s'.network.length := by
  rcases step_cases transition with ⟨_, ⟨posted, grown, _⟩, _⟩ | ⟨_, _, _, _, _, _, _, rfl⟩ |
    ⟨_, _, _, _, _, _, rfl⟩
  · rw [grown, List.length_append]
    exact Nat.le_add_right _ _
  · simp [updateReplica]
  · simp [updateReplica]

/-- A step of a recovery is one of the system. -/
theorem Recovering.step {moment next : Nat × System} (recovering : Recovering d sent moment next) :
    ∃ action, (system d).step moment.2 action = some next.2 := by
  cases recovering with
  | fire idx id later transition => exact ⟨_, transition⟩
  | deliver position fresh later transition => exact ⟨_, transition⟩

/-- A live group stays live. -/
theorem lasting_live (gapMode : d.options.gapEnabled = true) :
    Lasting (Recovering d sent) (Live d sent client armed) (Live d sent client armed) := by
  intro moment next live recovering _
  obtain ⟨action, transition⟩ := recovering.step
  constructor
  · exact (live.aligned.step gapMode transition).1
  · exact (sound_invariant d).preserved live.sound trivial transition
  · intro idx inGroup
    rcases replica_undergoes live.sound transition idx with same | ⟨event, same⟩
    · rw [same]
      exact live.armed idx inGroup
    · rw [same]
      apply (live.sound idx).timed.armed_undergo _ (live.armed idx inGroup)
      rw [(live.aligned.fields idx).2.2.1]
      exact gapMode
  · exact Nat.le_trans live.sent (length_network_le transition)

/-- Filled slots stay filled. -/
theorem lasting_filledTo (idx : Nat) :
    Lasting (Recovering d sent) (Live d sent client armed) (FilledTo client bound idx) := by
  intro moment next live recovering filled slot low high
  obtain ⟨action, transition⟩ := recovering.step
  rcases replica_undergoes live.sound transition idx with same | ⟨event, same⟩
  · rw [same]
    exact filled slot low high
  · rw [same]
    exact ((moment.2.replicas idx).continues_undergo event client).filled (filled slot low high)

/-- A gap timer that is pending may fire. -/
theorem step_fire (sound : ∀ idx, (s.replicas idx).Sound) {idx : Nat}
    (pending : ((s.replicas idx).gapTimer client).isSome = true) (clock : Nat → Nat) :
    (system d).step s
        (.replicaTimer idx ((s.replicas idx).stream client).gapTimerId clock) =
      some (s.updateReplica idx
        (((s.replicas idx).expire ((s.replicas idx).stream client).gapTimerId).onGapTimeout
          client clock).1
        (((s.replicas idx).expire ((s.replicas idx).stream client).gapTimerId).onGapTimeout
          client clock).2) := by
  obtain ⟨timer, found⟩ := Option.isSome_iff_exists.mp pending
  obtain rfl := (sound idx).timed.callback_gapTimer found
  have there : (s.replicas idx).timers.pending[((s.replicas idx).stream
      timer.callback).gapTimerId]? = some timer := found
  show s.fireReplicaTimer _ _ _ = _
  rw [fireReplicaTimer, there]
  rfl

/-- A packet to a replica may arrive. -/
theorem step_deliver {position idx : Nat} {packet : Packet}
    (found : s.network[position]? = some packet) (addressed : packet.dst = .replica idx)
    (clock : Nat → Nat) :
    (system d).step s (.deliver position clock) =
      some (s.updateReplica idx
        ((s.replicas idx).receiveMessage packet.src packet.msg clock).1
        ((s.replicas idx).receiveMessage packet.src packet.msg clock).2) := by
  have arrives : (system d).step s (.deliver position clock) = some (s.receive d packet clock) := by
    simp only [system, System.step, found]
  rw [arrives, receive, addressed]

/-- What a replica sends is somewhere in the network, behind all that was there. -/
theorem exists_position (s : System) (idx : Nat) (r : Replica) {sends : List Send} {send : Send}
    (member : send ∈ sends) :
    ∃ position, s.network.length ≤ position ∧
      (s.updateReplica idx r sends).network[position]? =
        some ⟨.replica idx, send.dst, send.msg⟩ := by
  obtain ⟨index, there⟩ := List.getElem?_of_mem member
  refine ⟨s.network.length + index, Nat.le_add_right _ _, ?_⟩
  rw [updateReplica, List.getElem?_append_right (Nat.le_add_right _ _), Nat.add_sub_cancel_left,
    post, List.getElem?_map, there]
  rfl

/-! ## Catching up -/

/-- Whatever a gap timer waits for, there is a time for it: the slot is due, and its last request is
`gapRetryMs` old. -/
theorem exists_reading (options : Options) (stream : ClientStream) (slot now : Nat) :
    ∃ reading, now ≤ reading ∧ stream.deadlineNs options slot ≤ reading ∧
      stream.recentlyRequested options slot reading = false := by
  have due := Int.self_le_toNat (stream.deadlineNs options slot)
  unfold ClientStream.recentlyRequested
  cases stream.gapLastReqNs[slot]? with
  | none =>
      refine ⟨max now (stream.deadlineNs options slot).toNat, Nat.le_max_left _ _, ?_, rfl⟩
      omega
  | some last =>
      -- the elapsed time must not wrap around before it is long enough
      obtain ⟨since, atLeast⟩ : ∃ since, since =
          max (max now (stream.deadlineNs options slot).toNat) last := ⟨_, rfl⟩
      have retries : options.gapRetryNs < 2 ^ 64 := Nat.mod_lt _ (by decide)
      have waits : ∃ more, options.gapRetryNs ≤ (since + more + 2 ^ 64 - last) % 2 ^ 64 := by
        refine ⟨min options.gapRetryNs (2 ^ 64 - 1 - (since - last) % 2 ^ 64), ?_⟩
        omega
      obtain ⟨more, enough⟩ := waits
      refine ⟨since + more, by omega, by omega, ?_⟩
      exact decide_eq_false (Nat.not_lt.mpr enough)

/-- A replica whose frontier is beyond the bound has filled the slots up to it. -/
theorem filledTo_of_lt {moment : Nat × System} (sound : ∀ idx, (moment.2.replicas idx).Sound)
    {idx : Nat} (beyond : bound < ((moment.2.replicas idx).stream client).nextExpected) :
    FilledTo client bound idx moment := by
  intro slot low high
  exact ((sound idx).walked client).filled slot low (by omega)

/-- The leader's gap timer can fill any slot at the leader. -/
theorem attainable_leader (gapMode : d.options.gapEnabled = true) (leads : armed (leaderIdx d)) :
    Attainable (Recovering d sent) (Live d sent client armed)
      (FilledTo client bound (leaderIdx d)) := by
  have above : Attainable (Recovering d sent) (Live d sent client armed) fun moment =>
      bound < ((moment.2.replicas (leaderIdx d)).stream client).nextExpected := by
    apply Attainable.of_raises (lasting_live gapMode)
    rintro ⟨now, s⟩ live -
    have transition := step_fire (d := d) live.sound (live.armed _ leads) fun _ =>
      max now (((s.replicas (leaderIdx d)).stream client).deadlineNs
        (s.replicas (leaderIdx d)).options
          ((s.replicas (leaderIdx d)).stream client).nextExpected).toNat
    refine ⟨_, .single (.fire _ _ (Nat.le_max_left _ _) transition), ?_⟩
    rw [updateReplica_self]
    apply Replica.lt_nextExpected_onGapTimeout
      (r := (s.replicas (leaderIdx d)).expire _) ((live.aligned.amLeader_iff _).mpr rfl)
    have due := Int.self_le_toNat (((s.replicas (leaderIdx d)).stream client).deadlineNs
      (s.replicas (leaderIdx d)).options
        ((s.replicas (leaderIdx d)).stream client).nextExpected)
    exact Int.le_trans due (Int.ofNat_le.mpr (Nat.le_max_right _ _))
  intro moment live
  obtain ⟨later, steps, beyond⟩ := above moment live
  exact ⟨later, steps, filledTo_of_lt ((lasting_live gapMode).invariant steps live).sound beyond⟩

/-- The request of a follower, and then the answer of the leader, may arrive; they move the
follower's frontier if the leader has filled the slot there. -/
theorem raises_asker {idx now position : Nat} {request : GapRequestMessage}
    (follows : idx ≠ leaderIdx d) (live : Live d sent client armed (now, s))
    (fresh : sent ≤ position)
    (found : s.network[position]? =
      some ⟨.replica idx, .replica (leaderIdx d), .gapRequest request⟩)
    (about : request.clientId = client)
    (frontier : request.seqNum = ((s.replicas idx).stream client).nextExpected)
    (served : ((s.replicas (leaderIdx d)).stream client).filled request.seqNum = true)
    (missing : ((s.replicas idx).stream client).filled request.seqNum = false) :
    ∃ later, Relation.ReflTransGen (Recovering d sent) (now, s) later ∧
      ((s.replicas idx).stream client).nextExpected <
        ((later.2.replicas idx).stream client).nextExpected := by
  subst about
  have arrival := step_deliver (d := d) found rfl fun _ => now
  have asking : Recovering d sent (now, s) (now, _) := .deliver position fresh le_rfl arrival
  obtain ⟨send, member, answer, answers⟩ := Replica.answers_handleGapRequest
    ((live.aligned.amLeader_iff _).mpr rfl) (.replica idx) served
  obtain ⟨position', fresh', found'⟩ := exists_position s (leaderIdx d)
    ((s.replicas (leaderIdx d)).handleGapRequest (.replica idx) request).1 member
  rw [answer] at found'
  have arrival' := step_deliver (d := d) found' rfl fun _ => now
  have answering : Recovering d sent (now, _) (now, _) :=
    .deliver position' (Nat.le_trans live.sent fresh') le_rfl arrival'
  refine ⟨_, .tail (.single asking) answering, ?_⟩
  rw [updateReplica_self, updateReplica_of_ne _ _ _ follows]
  rw [frontier] at answers missing
  exact Replica.lt_nextExpected_receiveMessage _ _ _ answers missing

/-- A follower's gap timer, the leader's answer and its arrival move the follower's frontier, as
long as the leader has filled the slot there. -/
theorem raises_follower (gapMode : d.options.gapEnabled = true) {idx now : Nat}
    (follows : idx ≠ leaderIdx d) (inGroup : armed idx)
    (live : Live d sent client armed (now, s))
    (served : FilledTo client bound (leaderIdx d) (now, s))
    (within : ((s.replicas idx).stream client).nextExpected ≤ bound) :
    ∃ later, Relation.ReflTransGen (Recovering d sent) (now, s) later ∧
      ((s.replicas idx).stream client).nextExpected <
        ((later.2.replicas idx).stream client).nextExpected := by
  have options := (live.aligned.fields idx).2.2.1
  have follower : (s.replicas idx).amLeader = false := by
    rw [← Bool.not_eq_true, live.aligned.amLeader_iff]
    exact follows
  obtain ⟨reading, later, due, stale⟩ := exists_reading d.options
    ((s.replicas idx).stream client) ((s.replicas idx).stream client).nextExpected now
  rw [← options] at due stale
  have firing := step_fire (d := d) live.sound (live.armed idx inGroup) fun _ => reading
  have fired : Recovering d sent (now, s) (reading, _) := .fire _ _ later firing
  rcases Replica.moves_or_asks (r := (s.replicas idx).expire
    ((s.replicas idx).stream client).gapTimerId) follower due stale with moved | ⟨waits, asked⟩
  · refine ⟨_, .single fired, ?_⟩
    rw [updateReplica_self]
    exact moved
  · -- the leader is asked, and has the slot
    obtain ⟨_, missing⟩ := Replica.frontier_onGapTimeout ((s.replicas idx).expire
      ((s.replicas idx).stream client).gapTimerId) client fun _ => reading
    obtain ⟨position, fresh, found⟩ := exists_position s idx
      (((s.replicas idx).expire ((s.replicas idx).stream client).gapTimerId).onGapTimeout client
        fun _ => reading).1 asked
    have leader : (s.replicas idx).config.getLeaderIndex (s.replicas idx).viewId = leaderIdx d := by
      rw [(live.aligned.fields idx).1, (live.aligned.fields idx).2.2.2]
      rfl
    have live' := lasting_live gapMode _ _ live fired live
    have served' := lasting_filledTo (leaderIdx d) _ _ live fired served _
      ((live.sound idx).walked client).started within
    rw [waits] at missing
    obtain ⟨last, steps, moved⟩ := raises_asker follows live' (Nat.le_trans live.sent fresh)
      (by rw [found, ← leader]; rfl) rfl (by rw [updateReplica_self]; exact waits.symm) served'
      (by rw [updateReplica_self]; exact ClientStream.filled_eq_false.mpr missing)
    rw [updateReplica_self, waits] at moved
    exact ⟨last, .head fired steps, moved⟩

/-- The group is live, and the leader has filled the slots of the client up to the bound. -/
abbrev Served (d : Deployment) (sent client bound : Nat) (armed : Nat → Prop)
    (moment : Nat × System) : Prop :=
  Live d sent client armed moment ∧ FilledTo client bound (leaderIdx d) moment

/-- A served group stays so. -/
theorem lasting_served (gapMode : d.options.gapEnabled = true) :
    Lasting (Recovering d sent) (Served d sent client bound armed)
      (Served d sent client bound armed) := by
  intro moment next served recovering _
  constructor
  · exact lasting_live gapMode _ _ served.1 recovering served.1
  · exact lasting_filledTo _ _ _ served.1 recovering served.2

/-- Once the leader has filled its slots, a follower can fill them too. -/
theorem attainable_follower (gapMode : d.options.gapEnabled = true) {idx : Nat}
    (follows : idx ≠ leaderIdx d) (inGroup : armed idx) :
    Attainable (Recovering d sent) (Served d sent client bound armed)
      (FilledTo client bound idx) := by
  have above : Attainable (Recovering d sent) (Served d sent client bound armed) fun moment =>
      bound < ((moment.2.replicas idx).stream client).nextExpected := by
    apply Attainable.of_raises (lasting_served gapMode)
    rintro ⟨now, s⟩ ⟨live, served⟩ within
    exact raises_follower gapMode follows inGroup live served within
  intro moment served
  obtain ⟨later, steps, beyond⟩ := above moment served
  exact ⟨later, steps,
    filledTo_of_lt ((lasting_served gapMode).invariant steps served).1.sound beyond⟩

/-- All replicas with a gap timer pending can fill their slots. -/
theorem attainable_group (bound : Nat) (gapMode : d.options.gapEnabled = true)
    (leads : armed (leaderIdx d)) :
    Attainable (Recovering d sent) (Live d sent client armed) fun moment =>
      ∀ idx ∈ List.range d.config.n, armed idx → FilledTo client bound idx moment := by
  apply (attainable_leader gapMode leads).trans (lasting_live gapMode)
  apply Attainable.forall_mem (lasting_served gapMode)
  · intro idx moment next served recovering filled inGroup
    exact lasting_filledTo idx _ _ served.1 recovering (filled inGroup)
  · intro idx _ moment served
    by_cases inGroup : armed idx
    · by_cases leader : idx = leaderIdx d
      · exact ⟨moment, .refl, fun _ => leader ▸ served.2⟩
      · obtain ⟨later, steps, filled⟩ :=
          attainable_follower gapMode leader inGroup moment served
        exact ⟨later, steps, fun _ => filled⟩
    · exact ⟨moment, .refl, fun member => absurd member inGroup⟩

/-- In gap mode no slot is ever lost for good: from every reachable state in which the leader has a
gap timer pending for the client, gap timers alone, and the packets that are sent from then on, can
bring about a state in which every replica that had a gap timer pending for the client has filled
all slots up to any bound; and there the replicas agree on what they have filled. -/
theorem recoverable_of_reachable (d : Deployment) (gapMode : d.options.gapEnabled = true)
    (s : System)
    (reachable : (system d).Reachable TransitionSystem.unguarded s) (client bound now : Nat)
    (leads : ((s.replicas (leaderIdx d)).gapTimer client).isSome = true) :
    ∃ later s', Relation.ReflTransGen (Recovering d s.network.length) (now, s) (later, s') ∧
      s'.SlotsAgree d ∧ ∀ idx < d.config.n, ((s.replicas idx).gapTimer client).isSome = true →
        ∀ slot, 1 ≤ slot → slot ≤ bound →
          ((s'.replicas idx).stream client).filled slot = true := by
  have live : Live d s.network.length client
      (fun idx => ((s.replicas idx).gapTimer client).isSome = true) (now, s) := by
    constructor
    · exact (aligned_invariant d gapMode).of_reachable reachable
    · exact (sound_invariant d).of_reachable reachable
    · exact fun _ armed => armed
    · exact Nat.le_refl _
  obtain ⟨⟨later, s'⟩, steps, filled⟩ :=
    attainable_group bound gapMode leads (now, s) live
  refine ⟨later, s', steps, ?_, ?_⟩
  · exact ((lasting_live gapMode).invariant steps live).aligned.slotsAgree
  · intro idx inRange armed
    exact filled idx (List.mem_range.mpr inRange) armed

/-! ## A run from which the group catches up -/

/-- The leader gets the second request only, and replica 2 the first; it drops the second. -/
def apartRun : List Action :=
  warmUp ++ [.deliver 6 (clockAt 5012), .deliver 5 (clockAt 5012), .deliver 8 (clockAt 5012)]

set_option maxRecDepth 10000 in
/-- The leader misses slot 1 and replica 2 slot 2; both can be filled at both. -/
theorem recoverable_apartRun : ∃ s later s',
    ((s.replicas 0).stream 7).filled 1 = false ∧ ((s.replicas 2).stream 7).filled 2 = false ∧
      Relation.ReflTransGen (Recovering trio s.network.length) (5013000000, s) (later, s') ∧
        s'.SlotsAgree trio ∧ ((s'.replicas 0).stream 7).filled 1 = true ∧
          ((s'.replicas 2).stream 7).filled 2 = true := by
  obtain ⟨s, reachable, apart⟩ :=
    (system trio).exists_reachable_of_run TransitionSystem.unguarded
      (fun s => decide (((s.replicas 0).stream 7).filled 1 = false ∧
        ((s.replicas 2).stream 7).filled 2 = false ∧
          ((s.replicas 0).gapTimer 7).isSome = true ∧ ((s.replicas 2).gapTimer 7).isSome = true))
      apartRun rfl (by decide)
  obtain ⟨missing, missing', leads, follows⟩ := of_decide_eq_true apart
  obtain ⟨later, s', steps, agree, filled⟩ :=
    recoverable_of_reachable trio rfl s reachable 7 2 5013000000 leads
  refine ⟨s, later, s', missing, missing', steps, agree, ?_, ?_⟩
  · exact filled 0 (by decide) leads 1 (by decide) (by decide)
  · exact filled 2 (by decide) follows 2 (by decide) (by decide)

end System

end PaxosBus.Bus

import PaxosBus.Bus.Gaps
import PaxosBus.Bus.System

/-!
# What each handler does to the stream of one client

A replica keeps its clients apart: a handler touches the stream of the client it
is about and no other. For each handler there is a function of that one stream,
and a lemma that the handler applies it, up to the id which the transport gave
the gap timer. The invariants of a stream are proved about these functions.
-/

set_option autoImplicit false

namespace PaxosBus.Bus

open Std PaxosBus.Common

/-- The client whose stream a message is about. -/
def Message.clientId : Message → Nat
  | .sync msg => msg.clientId
  | .data msg => msg.clientId
  | .dataReply msg => msg.clientId
  | .gapRequest msg => msg.clientId
  | .gapReply msg => msg.clientId
  | .gapCommit msg => msg.clientId
  | .gapCommitReply msg => msg.clientId

namespace ClientStream

variable (s : ClientStream)

/-- The stream without the id of its gap timer. -/
def untimed : ClientStream := { s with gapTimerId := 0 }

/-- What `HandleSync` resets. -/
def resync (msg : SyncMessage) (recvNs : Nat) : ClientStream :=
  { s with
    baseRecvNs := recvNs + (msg.startDelayMs * nsPerMs : Nat)
    intervalNs := msg.intervalMs * nsPerMs
    anchored := false
    nextExpected := 1
    maxSeqSeen := 0 }

/-- Move the frontier past the filled slots. -/
def advance : ClientStream :=
  { s with nextExpected := s.frontierFrom s.log.size s.nextExpected }

/-- What `RecordReceived` writes. -/
def record (seq : Nat) (payload : String) (sendTimeNs now : Nat) : ClientStream :=
  if ((s.noteSeq seq).entry seq).state = .noop then
    s.noteSeq seq
  else
    (s.noteSeq seq).setEntry seq { state := .received, payload, sendTimeNs, recvNs := now }

/-- What `StartGapAgreement` writes. -/
def nullify (seq now : Nat) : ClientStream :=
  if (s.entry seq).state = .noop then
    s
  else
    (s.setEntry seq { s.entry seq with state := .noop }).startAgreement seq now

/-- What `SendGapRequest` notes. -/
def ask (options : Options) (seq now : Nat) : ClientStream :=
  if s.recentlyRequested options seq now then s else s.noteRequest seq now

/-- What the gap scan does about one missing slot. -/
def resolve (leader : Bool) (options : Options) (seq now : Nat) : ClientStream :=
  if leader then s.nullify seq now else s.ask options seq now

/-- The scan in `OnGapTimeout` over the `slots` slots from `slot` up. -/
def scan (leader : Bool) (options : Options) (nowNs : Nat) (clock : Nat → Nat)
    (s : ClientStream) : Nat → Nat → ClientStream
  | _, 0 => s
  | slot, slots + 1 =>
    if s.filled slot then
      scan leader options nowNs clock s (slot + 1) slots
    else if (nowNs : Int) < s.deadlineNs options slot then
      s
    else
      scan leader options nowNs clock (s.resolve leader options slot (clock slot)) (slot + 1) slots

/-- The slots which `OnGapTimeout` scans. -/
def scanned (leader : Bool) (options : Options) (clock : Nat → Nat) : ClientStream :=
  s.scan leader options (clock 0) clock s.nextExpected
    (max s.maxSeqSeen s.nextExpected + 1 - s.nextExpected)

/-- What `HandleData` does to a stream that exists. -/
def takeData (gapMode dropped : Bool) (msg : DataMessage) (clock : Nat → Nat) : ClientStream :=
  if gapMode && dropped then
    s.noteSeq msg.seqNum
  else
    let s := (s.noteSeq msg.seqNum).reanchor msg.seqNum (clock 0)
    if gapMode then (s.record msg.seqNum msg.payload msg.sendTimeNs (clock 1)).advance else s

/-- What `HandleGapReply` does to the stream. -/
def takeReply (msg : GapReplyMessage) (now : Nat) : ClientStream :=
  if msg.found && !s.filled msg.seqNum then
    ((s.record msg.seqNum msg.payload msg.sendTimeNs now).dropRequest msg.seqNum).advance
  else
    s

/-- What `HandleGapCommit` does to the stream. -/
def takeCommit (seq : Nat) : ClientStream :=
  ((s.setEntry seq { s.entry seq with state := .noop }).dropRequest seq).advance

/-- What `HandleGapCommitReply` does to the stream at the leader, `needed` being the number of
acknowledgements that make a NoOp durable. -/
def takeAck (needed : Nat) (msg : GapCommitReplyMessage) : ClientStream :=
  if s.noopStartNs.contains msg.seqNum then
    let acks := insert msg.replicaIdx ((s.gapCommitAcks[msg.seqNum]?).getD ∅)
    if acks.card ≥ needed then
      { s with
        noopStartNs := s.noopStartNs.erase msg.seqNum
        gapCommitAcks := s.gapCommitAcks.erase msg.seqNum }
    else
      { s with gapCommitAcks := s.gapCommitAcks.insert msg.seqNum acks }
  else
    s

/-- There is one timer to forget. -/
@[simp] theorem untimed_untimed : s.untimed.untimed = s.untimed := rfl

end ClientStream

namespace Replica

variable (r : Replica) (clientId other : Nat)

/-- Storing a stream that is the old one up to the id of the gap timer. -/
theorem untimed_setStream (s : ClientStream) :
    ((r.setStream clientId s).stream other).untimed =
      if clientId = other then s.untimed else (r.stream other).untimed := by
  rw [stream_setStream]
  split <;> rfl

/-- Arming the timer changes nothing else of the stream. -/
theorem untimed_armGapTimer (now : Nat) :
    ((r.armGapTimer clientId now).stream other).untimed = (r.stream other).untimed := by
  obtain ⟨s, stored, same⟩ : ∃ s : ClientStream,
      (r.armGapTimer clientId now).clients = (r.setStream clientId s).clients ∧
        s.untimed = (r.stream clientId).untimed :=
    ⟨_, rfl, rfl⟩
  have found : (r.armGapTimer clientId now).stream other = (r.setStream clientId s).stream other := by
    simp [stream, stored]
  rw [found, untimed_setStream]
  split
  · rename_i equal
    rw [same, equal]
  · rfl

/-- The frontier of the client's stream advances, and its timer is armed. -/
theorem untimed_advanceContiguous (now : Nat) :
    ((r.advanceContiguous clientId now).stream other).untimed =
      if clientId = other then (r.stream clientId).advance.untimed
      else (r.stream other).untimed := by
  unfold advanceContiguous
  dsimp only
  split
  · rw [untimed_armGapTimer, untimed_setStream]
    rfl
  · rw [untimed_setStream]
    rfl

/-- The request is recorded in the client's stream. -/
theorem stream_recordReceived (seq : Nat) (payload : String) (sendTimeNs now : Nat) :
    (r.recordReceived clientId seq payload sendTimeNs now).stream other =
      if clientId = other then (r.stream clientId).record seq payload sendTimeNs now
      else r.stream other := by
  unfold recordReceived ClientStream.record
  dsimp only
  split <;> rw [stream_setStream]

/-- The gap is resolved in the client's stream. -/
theorem stream_resolveGap (slot now : Nat) :
    (r.resolveGap clientId slot now).1.stream other =
      if clientId = other then (r.stream clientId).resolve r.amLeader r.options slot now
      else r.stream other := by
  unfold resolveGap ClientStream.resolve
  split
  · unfold startGapAgreement ClientStream.nullify
    dsimp only
    split <;> rw [stream_setStream]
  · unfold sendGapRequest ClientStream.ask
    dsimp only
    split <;> rw [stream_setStream]

/-- The overdue gaps are resolved in the client's stream. -/
theorem stream_scanGaps (nowNs : Nat) (clock : Nat → Nat) (slot slots : Nat) :
    (r.scanGaps clientId nowNs clock slot slots).1.stream other =
      if clientId = other then
        (r.stream clientId).scan r.amLeader r.options nowNs clock slot slots
      else r.stream other := by
  induction slots generalizing r slot with
  | zero =>
      split
      · rename_i same
        rw [← same]
        rfl
      · rfl
  | succ slots inductionHypothesis =>
      unfold scanGaps ClientStream.scan
      dsimp only
      split
      · exact inductionHypothesis r (slot + 1)
      · split
        · split
          · rename_i same
            rw [← same]
          · rfl
        · have identityEq := r.identity_resolveGap clientId slot (clock slot)
          have options : (r.resolveGap clientId slot (clock slot)).1.options = r.options := by
            simp only [identity, Prod.mk.injEq] at identityEq
            exact identityEq.2.2.1
          rw [inductionHypothesis, amLeader_congr identityEq, options, stream_resolveGap,
            stream_resolveGap, if_pos rfl]
          split <;> rfl

/-- The timer resolves the overdue gaps, advances the frontier and is armed again. -/
theorem untimed_onGapTimeout (clock : Nat → Nat) :
    ((r.onGapTimeout clientId clock).1.stream other).untimed =
      if clientId = other then
        ((r.stream clientId).untimed.scanned r.amLeader r.options clock).advance.untimed
      else (r.stream other).untimed := by
  unfold onGapTimeout
  dsimp only
  rw [untimed_advanceContiguous, stream_scanGaps, stream_scanGaps, if_pos rfl, stream_setStream,
    stream_setStream, if_pos rfl]
  split <;> rfl

/-- What receiving a message does to the stream of the client it is about. -/
def takes (msg : Message) (clock : Nat → Nat) (s : ClientStream) : ClientStream :=
  match msg with
  | .sync msg => s.resync msg (clock 0)
  | .data msg =>
    if (r.clients[msg.clientId]?).isSome then
      s.takeData r.options.gapEnabled (r.shouldDrop msg.seqNum) msg clock
    else
      s
  | .dataReply _ => s
  | .gapRequest _ => s
  | .gapReply msg => s.takeReply msg (clock 0)
  | .gapCommit msg => s.takeCommit msg.seqNum
  | .gapCommitReply msg => if r.amLeader then s.takeAck (r.config.quorumSize - 1) msg else s

/-- Storing the stream of one client as it was. -/
theorem stream_setStream_stream :
    (r.setStream clientId (r.stream clientId)).stream other = r.stream other := by
  rw [stream_setStream]
  split
  · rename_i same
    rw [same]
  · rfl

/-- What data does to the client's stream, up to the timer. -/
theorem untimed_handleData (remote : Address) (msg : DataMessage) (clock : Nat → Nat) :
    ((r.handleData remote msg clock).1.stream other).untimed =
      if msg.clientId = other then (r.takes (.data msg) clock (r.stream other)).untimed
      else (r.stream other).untimed := by
  unfold handleData takes
  split
  · rename_i absent
    simp [absent]
  · rename_i s found
    have present : r.stream msg.clientId = s := by simp [stream, found]
    have sameDrop : (r.learnAddress msg.clientId remote).shouldDrop msg.seqNum =
        r.shouldDrop msg.seqNum := rfl
    have sameMode : (r.learnAddress msg.clientId remote).options = r.options := rfl
    have elsewhere : (r.learnAddress msg.clientId remote).stream other = r.stream other := rfl
    simp only [found, Option.isSome_some, if_true, ClientStream.takeData, sameDrop, sameMode]
    split
    · rw [untimed_setStream, elsewhere]
      split
      · rename_i same
        rw [← same, present]
      · rfl
    · split
      · rename_i gapMode
        have enabled : r.options.gapEnabled = true := gapMode
        simp only [enabled, if_true, untimed_advanceContiguous, stream_recordReceived,
          stream_setStream, elsewhere]
        split
        · rename_i same
          rw [← same, present]
        · rfl
      · rename_i plain
        have disabled : r.options.gapEnabled = false := eq_false_of_ne_true plain
        simp only [disabled, untimed_setStream, elsewhere]
        split
        · rename_i same
          rw [← same, present]
          rfl
        · rfl

/-- What a gap reply does to the client's stream, up to the timer. -/
theorem untimed_handleGapReply (msg : GapReplyMessage) (clock : Nat → Nat) :
    ((r.handleGapReply msg clock).1.stream other).untimed =
      if msg.clientId = other then ((r.stream other).takeReply msg (clock 0)).untimed
      else (r.stream other).untimed := by
  unfold handleGapReply ClientStream.takeReply
  split
  · rename_i found
    dsimp only
    split
    · rename_i resolved
      rw [stream_setStream_stream]
      split
      · rename_i same
        rw [← same, found, resolved]
        rfl
      · rfl
    · rename_i missing
      simp only [untimed_advanceContiguous, stream_setStream, stream_recordReceived]
      split
      · rename_i same
        simp [← same, found, missing]
      · rfl
  · rename_i lacking
    simp [lacking]

/-- What the commit of a gap does to the client's stream, up to the timer. -/
theorem untimed_handleGapCommit (remote : Address) (msg : GapCommitMessage) (now : Nat) :
    ((r.handleGapCommit remote msg now).1.stream other).untimed =
      if msg.clientId = other then ((r.stream other).takeCommit msg.seqNum).untimed
      else (r.stream other).untimed := by
  unfold handleGapCommit
  dsimp only
  rw [untimed_advanceContiguous, stream_setStream, stream_setStream, if_pos rfl]
  split
  · rename_i same
    rw [← same]
    rfl
  · rfl

/-- A gap request changes no stream. -/
theorem stream_handleGapRequest (remote : Address) (msg : GapRequestMessage) :
    (r.handleGapRequest remote msg).1.stream other = r.stream other := by
  unfold handleGapRequest
  split
  · dsimp only
    split <;> exact r.stream_setStream_stream msg.clientId other
  · rfl

/-- An acknowledgement is counted in the client's stream. -/
theorem stream_handleGapCommitReply (msg : GapCommitReplyMessage) :
    (r.handleGapCommitReply msg).stream other =
      if msg.clientId = other then r.takes (.gapCommitReply msg) (fun _ => 0) (r.stream other)
      else r.stream other := by
  unfold handleGapCommitReply takes ClientStream.takeAck
  by_cases same : msg.clientId = other
  · subst same
    dsimp only
    split
    · split
      · split <;> simp
      · simp
    · simp
  · dsimp only
    split
    · split
      · split <;> simp [same]
      · simp [same]
    · simp

/-- Receiving a message changes the stream of the client it is about, and no other. -/
theorem untimed_receiveMessage (remote : Address) (msg : Message) (clock : Nat → Nat) :
    ((r.receiveMessage remote msg clock).1.stream other).untimed =
      if msg.clientId = other then (r.takes msg clock (r.stream other)).untimed
      else (r.stream other).untimed := by
  cases msg with
  | sync msg =>
      have learned : ((r.handleSync remote msg (clock 0)).stream other) =
          (r.setStream msg.clientId ((r.stream msg.clientId).resync msg (clock 0))).stream other :=
        rfl
      rw [receiveMessage, learned, untimed_setStream, Message.clientId]
      split
      · rename_i same
        rw [same]
        rfl
      · rfl
  | data msg => exact r.untimed_handleData other remote msg clock
  | dataReply msg => simp [receiveMessage, takes]
  | gapRequest msg => simp [receiveMessage, takes, stream_handleGapRequest]
  | gapReply msg => exact r.untimed_handleGapReply other msg clock
  | gapCommit msg => exact r.untimed_handleGapCommit other remote msg (clock 0)
  | gapCommitReply msg =>
      rw [receiveMessage, stream_handleGapCommitReply, Message.clientId]
      split <;> rfl

end Replica

namespace System

/-- A step leaves the replicas alone and posts what a client sends, hands a packet to the replica
it is addressed to, or fires a pending gap timer. -/
theorem step_cases {d : Deployment} {s s' : System} {action : Action}
    (transition : (system d).step s action = some s') :
    (s'.replicas = s.replicas ∧
        (∃ sent, s'.network = s.network ++ sent ∧
          ∀ packet ∈ sent, ∃ client, packet.src = .client client) ∧
        ∀ position clock packet, action = .deliver position clock →
          s.network[position]? = some packet → ∃ client, packet.dst = .client client) ∨
      (∃ position clock packet idx, action = .deliver position clock ∧
        s.network[position]? = some packet ∧ packet.dst = .replica idx ∧
          s' = s.updateReplica idx
            ((s.replicas idx).receiveMessage packet.src packet.msg clock).1
            ((s.replicas idx).receiveMessage packet.src packet.msg clock).2) ∨
      ∃ idx id clock timer, action = .replicaTimer idx id clock ∧
        (s.replicas idx).timers.pending[id]? = some timer ∧
          s' = s.updateReplica idx
            ({ s.replicas idx with
              timers := (s.replicas idx).timers.cancelTimer id }.onGapTimeout
                timer.callback clock).1
            ({ s.replicas idx with
              timers := (s.replicas idx).timers.cancelTimer id }.onGapTimeout
                timer.callback clock).2 := by
  have posted : ∀ (clientId : Nat) (c : Client) (sends : List Send),
      ∃ sent, (s.updateClient clientId c sends).network = s.network ++ sent ∧
        ∀ packet ∈ sent, ∃ client, packet.src = .client client := by
    intro clientId c sends
    refine ⟨post (.client clientId) sends, rfl, fun packet member => ?_⟩
    obtain ⟨send, _, rfl⟩ := List.mem_map.mp member
    exact ⟨clientId, rfl⟩
  cases action with
  | start clientId now =>
      simp only [system, step] at transition
      split at transition
      · cases transition
      · obtain rfl := Option.some.inj transition
        exact .inl ⟨rfl, posted clientId _ _, nofun⟩
  | clientTimer clientId id readings =>
      simp only [system, step] at transition
      split at transition
      · cases transition
      · obtain rfl := Option.some.inj transition
        exact .inl ⟨rfl, posted clientId _ _, nofun⟩
  | replicaTimer idx id clock =>
      simp only [system, step, fireReplicaTimer] at transition
      split at transition
      · cases transition
      · rename_i timer pending
        obtain rfl := Option.some.inj transition
        exact .inr (.inr ⟨idx, id, clock, timer, rfl, pending, rfl⟩)
  | deliver position clock =>
      simp only [system, step] at transition
      split at transition
      · cases transition
      · rename_i packet found
        obtain rfl := Option.some.inj transition
        unfold receive
        split
        · rename_i idx addressed
          exact .inr (.inl ⟨position, clock, packet, idx, rfl, found, addressed, rfl⟩)
        · rename_i client addressed
          refine .inl ⟨rfl, ⟨[], (List.append_nil _).symm, nofun⟩, ?_⟩
          intro position' clock' packet' same found'
          cases same
          rw [found] at found'
          cases found'
          exact ⟨client, addressed⟩

/-- The replica that is updated is the one given. -/
@[simp] theorem updateReplica_self (s : System) (idx : Nat) (r : Replica) (sends : List Send) :
    (s.updateReplica idx r sends).replicas idx = r := by
  simp [updateReplica]

/-- The other replicas stay as they are. -/
theorem updateReplica_of_ne (s : System) {idx other : Nat} (r : Replica) (sends : List Send)
    (different : other ≠ idx) : (s.updateReplica idx r sends).replicas other = s.replicas other := by
  simp [updateReplica, different]

/-- What one replica goes through in a step: nothing, a packet addressed to it, or one of its
pending gap timers. -/
theorem replica_step {d : Deployment} {s s' : System} {action : Action}
    (transition : (system d).step s action = some s') (idx : Nat) :
    s'.replicas idx = s.replicas idx ∨
      (∃ position clock packet, action = .deliver position clock ∧
        s.network[position]? = some packet ∧ packet.dst = .replica idx ∧
          s'.replicas idx = ((s.replicas idx).receiveMessage packet.src packet.msg clock).1) ∨
      ∃ id clock timer, action = .replicaTimer idx id clock ∧
        (s.replicas idx).timers.pending[id]? = some timer ∧
          s'.replicas idx = ({ s.replicas idx with
            timers := (s.replicas idx).timers.cancelTimer id }.onGapTimeout
              timer.callback clock).1 := by
  rcases step_cases transition with ⟨same, _, _⟩ |
    ⟨position, clock, packet, receiver, rfl, found, addressed, rfl⟩ |
    ⟨fired, id, clock, timer, rfl, pending, rfl⟩
  · exact .inl (congrFun same idx)
  · by_cases same : idx = receiver
    · subst same
      exact .inr (.inl ⟨position, clock, packet, rfl, found, addressed,
        updateReplica_self _ _ _ _⟩)
    · exact .inl (updateReplica_of_ne _ _ _ same)
  · by_cases same : idx = fired
    · subst same
      exact .inr (.inr ⟨id, clock, timer, rfl, pending, updateReplica_self _ _ _ _⟩)
    · exact .inl (updateReplica_of_ne _ _ _ same)

/-- Every message handed to a replica is one that the replica `admits` in its state. -/
def Admitting (admits : Replica → Message → Prop) (s : System) : Action → Prop
  | .deliver position _ => ∀ packet, s.network[position]? = some packet →
      ∀ idx, packet.dst = .replica idx → admits (s.replicas idx) packet.msg
  | _ => True

instance (admits : Replica → Message → Prop) [∀ r msg, Decidable (admits r msg)] (s : System)
    (action : Action) : Decidable (s.Admitting admits action) :=
  match action with
  | .deliver position _ =>
    match found : s.network[position]? with
    | none => .isTrue (by simp [Admitting, found])
    | some packet =>
      match addressed : packet.dst with
      | .replica idx =>
        decidable_of_iff (admits (s.replicas idx) packet.msg) (by
          simp [Admitting, found, addressed])
      | .client id => .isTrue (by simp [Admitting, found, addressed])
  | .start _ _ => .isTrue trivial
  | .clientTimer _ _ _ => .isTrue trivial
  | .replicaTimer _ _ _ => .isTrue trivial

/-- What every replica starts with, and keeps when it handles an admitted message or a gap timer,
holds of every replica along every run that keeps to the guard. -/
theorem replica_invariant (d : Deployment) {admits : Replica → Message → Prop}
    (Inv : Replica → Prop) (start : ∀ idx, Inv ((initial d).replicas idx))
    (receives : ∀ r remote msg clock, Inv r → admits r msg →
      Inv (r.receiveMessage remote msg clock).1)
    (fires : ∀ (r : Replica) (id : Nat) (clock : Nat → Nat) (timer : PendingTimer Nat),
      Inv r → r.timers.pending[id]? = some timer →
      Inv ({ r with timers := r.timers.cancelTimer id }.onGapTimeout timer.callback clock).1) :
    (system d).Invariant (Admitting admits) (fun s => ∀ idx, Inv (s.replicas idx)) where
  initial s first idx := by
    rw [show s = initial d from first]
    exact start idx
  preserved {s action s'} holds admitted transition idx := by
    rcases replica_step transition idx with same |
      ⟨position, clock, packet, rfl, found, addressed, received⟩ |
      ⟨id, clock, timer, rfl, pending, fired⟩
    · rw [same]
      exact holds idx
    · rw [received]
      exact receives _ _ _ _ (holds idx) (admitted packet found idx addressed)
    · rw [fired]
      exact fires _ _ _ _ (holds idx) pending

end System

end PaxosBus.Bus

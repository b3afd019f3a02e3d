import PaxosBus.Bus.Recovery
import PaxosBus.Library.Recording

/-!
# The gate for clients that have not synchronised

`HandleData` ignores a client without a stream. A `Sync` makes the stream, but
so does every handler that looks one up: a NoOp commit, a recovered slot, and at
the leader a request or an acknowledgement. What is recorded and answered for a
client before its `Sync` is exactly what such a message lets in.

Whether a `Sync` has been handled is not in the state, so the runs here carry
the list of the messages that the replicas have handled.
-/

set_option autoImplicit false

namespace PaxosBus.Bus

open Std PaxosBus.Common PaxosBus.Library

/-- A message that a replica has handled. -/
structure Handled where
  idx : Nat
  msg : Message
deriving DecidableEq, Repr

namespace Message

/-- The message is a `Sync`. -/
def isSync : Message → Bool
  | .sync _ => true
  | _ => false

/-- Handling the message makes a stream for its client, although it is no `Sync`. -/
def opens (leader : Bool) : Message → Bool
  | .gapRequest _ => leader
  | .gapCommitReply _ => leader
  | .gapReply msg => msg.found
  | .gapCommit _ => true
  | _ => false

end Message

/-- The replica has handled a `Sync` of the client. -/
def synced (handled : List Handled) (idx client : Nat) : Bool :=
  handled.any fun each => each.idx == idx && each.msg.isSync && each.msg.clientId == client

/-- The replica has handled a message that made a stream for the client without a `Sync`. -/
def opened (leaderIdx : Nat) (handled : List Handled) (idx client : Nat) : Bool :=
  handled.any fun each =>
    each.idx == idx && each.msg.opens (leaderIdx == idx) && each.msg.clientId == client

/-- Who has been synced counts all that has been handled. -/
theorem synced_append (handled more : List Handled) (idx client : Nat) :
    synced (handled ++ more) idx client = (synced handled idx client || synced more idx client) := by
  simp [synced]

/-- Whose gate has been opened counts all that has been handled. -/
theorem opened_append (leaderIdx : Nat) (handled more : List Handled) (idx client : Nat) :
    opened leaderIdx (handled ++ more) idx client =
      (opened leaderIdx handled idx client || opened leaderIdx more idx client) := by
  simp [opened]

/-! ## What a replica makes of an unknown client -/

namespace ClientStream

variable {s : ClientStream} {slot : Nat}

/-- A slot other than the one recorded becomes RECEIVED only by having been so. -/
theorem received_of_log {s' : ClientStream} (same : s'.log = s.log)
    (received : (s'.entry slot).state = .received) : (s.entry slot).state = .received := by
  rw [← entry_congr same]
  exact received

/-- The commit of a gap receives nothing. -/
theorem received_of_takeCommit {seq : Nat}
    (received : ((s.takeCommit seq).entry slot).state = .received) :
    (s.entry slot).state = .received := by
  have written : ((s.setEntry seq { s.entry seq with state := .noop }).entry slot).state =
      .received := received
  rw [entry_setEntry] at written
  split at written
  · cases written
  · exact written

/-- An acknowledgement leaves the log alone. -/
theorem log_takeAck (s : ClientStream) (needed : Nat) (msg : GapCommitReplyMessage) :
    (s.takeAck needed msg).log = s.log := by
  unfold takeAck
  split
  · dsimp only
    split <;> rfl
  · rfl

end ClientStream

namespace Replica

variable (r : Replica)

/-- The message makes the replica record data of its client, or answer it. -/
def letsIn (msg : Message) : Prop :=
  match msg with
  | .data msg => (r.clients[msg.clientId]?).isSome = true ∧
      (r.options.gapEnabled && r.shouldDrop msg.seqNum) = false
  | .gapReply msg => msg.found = true ∧ (r.entry msg.clientId msg.seqNum).state = .empty
  | _ => False

/-- A slot is RECEIVED only by having been so, or by a message that lets data in. -/
theorem received_takes (msg : Message) (clock : Nat → Nat) {slot : Nat}
    (received : ((r.takes msg clock (r.stream msg.clientId)).entry slot).state = .received) :
    ((r.stream msg.clientId).entry slot).state = .received ∨ r.letsIn msg := by
  cases msg with
  | sync msg => exact .inl received
  | data msg =>
      unfold takes at received
      dsimp only at received
      split at received
      · rename_i known
        unfold ClientStream.takeData at received
        split at received
        · exact .inl (ClientStream.received_of_log rfl received)
        · rename_i kept
          exact .inr ⟨known, eq_false_of_ne_true kept⟩
      · exact .inl received
  | dataReply msg => exact .inl received
  | gapRequest msg => exact .inl received
  | gapReply msg =>
      unfold takes ClientStream.takeReply at received
      dsimp only at received
      split at received
      · rename_i fresh
        obtain ⟨found, missing⟩ := Bool.and_eq_true_iff.mp fresh
        rw [Bool.not_eq_true'] at missing
        exact .inr ⟨found, ClientStream.filled_eq_false.mp missing⟩
      · exact .inl received
  | gapCommit msg => exact .inl (ClientStream.received_of_takeCommit received)
  | gapCommitReply msg =>
      unfold takes at received
      dsimp only at received
      split at received
      · exact .inl (ClientStream.received_of_log (ClientStream.log_takeAck _ _ msg) received)
      · exact .inl received

/-- The same of the replica's log. -/
theorem received_receiveMessage (remote : Address) (msg : Message) (clock : Nat → Nat)
    {client slot : Nat}
    (received : ((r.receiveMessage remote msg clock).1.entry client slot).state = .received) :
    (r.entry client slot).state = .received ∨ msg.clientId = client ∧ r.letsIn msg := by
  have after := r.untimed_receiveMessage client remote msg clock
  split at after
  · rename_i same
    subst same
    have log := congrArg ClientStream.log after
    have taken := ClientStream.received_of_log log received
    rcases r.received_takes msg clock taken with before | lets
    · exact .inl before
    · exact .inr ⟨rfl, lets⟩
  · have log := congrArg ClientStream.log after
    exact .inl (ClientStream.received_of_log log received)

/-- A client is answered only on a message about it that lets data in. -/
theorem answers_receiveMessage {remote : Address} {msg : Message} {clock : Nat → Nat}
    {send : Send} {reply : DataReplyMessage}
    (sent : send ∈ (r.receiveMessage remote msg clock).2) (isReply : send.msg = .dataReply reply) :
    reply.clientId = msg.clientId ∧ r.letsIn msg := by
  have named : ∀ {r' : Replica} {client seq : Nat}, send ∈ r'.replyToClient client seq →
      reply.clientId = client := by
    intro r' client seq member
    obtain ⟨addr, _, rfl⟩ := mem_replyToClient r' client seq member
    cases isReply
    rfl
  cases msg with
  | sync msg => cases sent
  | data msg =>
      simp only [receiveMessage, handleData] at sent
      split at sent
      · cases sent
      · rename_i s found
        have known : (r.clients[msg.clientId]?).isSome = true := by simp [found]
        split at sent
        · cases sent
        · rename_i kept
          have arrived : (r.options.gapEnabled && r.shouldDrop msg.seqNum) = false :=
            eq_false_of_ne_true kept
          split at sent
          · exact ⟨named sent, known, arrived⟩
          · exact ⟨named sent, known, arrived⟩
  | dataReply msg => cases sent
  | gapRequest msg =>
      simp only [receiveMessage, handleGapRequest] at sent
      split at sent
      · split at sent
        · obtain rfl := List.mem_singleton.mp sent
          cases isReply
        · obtain rfl := List.mem_singleton.mp sent
          cases isReply
        · cases sent
      · cases sent
  | gapReply msg =>
      simp only [receiveMessage, handleGapReply] at sent
      split at sent
      · rename_i found
        split at sent
        · cases sent
        · rename_i missing
          refine ⟨named sent, found, ?_⟩
          exact ClientStream.filled_eq_false.mp (eq_false_of_ne_true missing)
      · cases sent
  | gapCommit msg =>
      obtain rfl := List.mem_singleton.mp sent
      cases isReply
  | gapCommitReply msg => cases sent

/-- The gap timer answers no client. -/
theorem not_answer_onGapTimeout {clientId : Nat} {clock : Nat → Nat} {send : Send}
    {reply : DataReplyMessage} (sent : send ∈ (r.onGapTimeout clientId clock).2) :
    send.msg ≠ .dataReply reply := by
  rcases r.mem_onGapTimeout clientId sent with ⟨_, idx, seq, _, _, rfl⟩ | ⟨_, seq, rfl⟩
  · exact nofun
  · exact nofun

/-! ## Which clients a replica knows of -/

/-- The replica has a stream of the client, or a gap timer pending for it. -/
def Touched (client : Nat) : Prop :=
  (r.clients[client]?).isSome = true ∨
    ∃ (id : Nat) (timer : PendingTimer Nat),
      r.timers.pending[id]? = some timer ∧ timer.callback = client

/-- The later replica knows of no more clients than the earlier one and the one given. -/
def Touches (client : Nat) (r' : Replica) : Prop :=
  ∀ other, r'.Touched other → r.Touched other ∨ other = client

variable {r} {client : Nat}

namespace Touches

/-- Clients that are known by the same streams and timers. -/
theorem of_same {r' : Replica} (clients : r'.clients = r.clients) (timers : r'.timers = r.timers) :
    r.Touches client r' := by
  intro other touched
  unfold Touched at touched ⊢
  rw [clients, timers] at touched
  exact .inl touched

/-- Clients that are known after two steps. -/
theorem trans {r' r'' : Replica} (first : r.Touches client r') (second : r'.Touches client r'') :
    r.Touches client r'' := by
  intro other touched
  rcases second other touched with before | same
  · exact first other before
  · exact .inr same

/-- Storing a stream makes its client known. -/
theorem setStream (r : Replica) (s : ClientStream) : r.Touches client (r.setStream client s) := by
  intro other touched
  by_cases same : other = client
  · exact .inr same
  · have elsewhere : (r.setStream client s).clients[other]? = r.clients[other]? := by
      simp [Replica.setStream, TreeMap.getElem?_insert, Ne.symm same]
    unfold Touched at touched ⊢
    rw [elsewhere] at touched
    exact .inl touched

/-- Cancelling a timer leaves fewer of them. -/
theorem cancelTimer (r : Replica) (id : Nat) :
    r.Touches client { r with timers := r.timers.cancelTimer id } := by
  intro other touched
  rcases touched with known | ⟨pendingId, timer, pending, same⟩
  · exact .inl (.inl known)
  · simp only [Timers.cancelTimer, TreeMap.getElem?_erase] at pending
    split at pending
    · cases pending
    · exact .inl (.inr ⟨pendingId, timer, pending, same⟩)

/-- A new timer is for the client given. -/
theorem timer (r : Replica) (ms : Nat) :
    r.Touches client { r with timers := (r.timers.timer ms client).1 } := by
  intro other touched
  rcases touched with known | ⟨pendingId, timer, pending, same⟩
  · exact .inl (.inl known)
  · simp only [Timers.timer, TreeMap.getElem?_insert] at pending
    split at pending
    · obtain rfl := Option.some.inj pending
      exact .inr same.symm
    · exact .inl (.inr ⟨pendingId, timer, pending, same⟩)

/-- Arming the gap timer of the client. -/
theorem armGapTimer (r : Replica) (now : Nat) : r.Touches client (r.armGapTimer client now) := by
  have cancelled : r.Touches client { r with
      timers := if (r.stream client).gapTimerId ≠ 0 then
        r.timers.cancelTimer (r.stream client).gapTimerId else r.timers } := by
    split
    · exact cancelTimer r _
    · exact of_same rfl rfl
  exact (cancelled.trans (timer _ _)).trans (setStream _ _)

/-- Advancing the frontier of the client. -/
theorem advanceContiguous (r : Replica) (now : Nat) :
    r.Touches client (r.advanceContiguous client now) := by
  unfold Replica.advanceContiguous
  dsimp only
  split
  · exact (setStream r _).trans (armGapTimer _ now)
  · exact setStream r _

/-- Recording a request of the client. -/
theorem recordReceived (r : Replica) (seq : Nat) (payload : String) (sendTimeNs now : Nat) :
    r.Touches client (r.recordReceived client seq payload sendTimeNs now) := by
  unfold Replica.recordReceived
  dsimp only
  split <;> exact setStream r _

/-- Resolving a gap of the client. -/
theorem resolveGap (r : Replica) (slot now : Nat) :
    r.Touches client (r.resolveGap client slot now).1 := by
  unfold Replica.resolveGap startGapAgreement sendGapRequest
  split <;> dsimp only <;> split <;> exact setStream r _

/-- Resolving the overdue gaps of the client. -/
theorem scanGaps (r : Replica) (nowNs : Nat) (clock : Nat → Nat) (slot slots : Nat) :
    r.Touches client (r.scanGaps client nowNs clock slot slots).1 := by
  induction slots generalizing r slot with
  | zero => exact of_same rfl rfl
  | succ slots inductionHypothesis =>
      unfold Replica.scanGaps
      dsimp only
      split
      · exact inductionHypothesis r (slot + 1)
      · split
        · exact of_same rfl rfl
        · exact (resolveGap r slot (clock slot)).trans (inductionHypothesis _ (slot + 1))

/-- The gap timer of the client fires. -/
theorem onGapTimeout (r : Replica) (clock : Nat → Nat) :
    r.Touches client (r.onGapTimeout client clock).1 := by
  unfold Replica.onGapTimeout
  dsimp only
  exact ((setStream r _).trans (scanGaps _ (clock 0) clock _ _)).trans (advanceContiguous _ _)

end Touches

/-- A message makes its client known to the replica by being its `Sync`, or by looking up the
stream. -/
theorem touched_receiveMessage (r : Replica) (remote : Address) (msg : Message)
    (clock : Nat → Nat) {other : Nat}
    (touched : (r.receiveMessage remote msg clock).1.Touched other) :
    r.Touched other ∨
      other = msg.clientId ∧ (msg.isSync = true ∨ msg.opens r.amLeader = true) := by
  cases msg with
  | sync msg =>
      have stored : r.Touches msg.clientId (r.handleSync remote msg (clock 0)) :=
        (Touches.setStream r _).trans (.of_same rfl rfl)
      rcases stored other touched with before | same
      · exact .inl before
      · exact .inr ⟨same, .inl rfl⟩
  | data msg =>
      simp only [receiveMessage, handleData] at touched
      split at touched
      · exact .inl touched
      · rename_i s found
        have known : r.Touched msg.clientId := .inl (by simp [found])
        have absorbed : ∀ {r' : Replica}, r.Touches msg.clientId r' → r'.Touched other →
            r.Touched other := by
          intro r' touches later
          rcases touches other later with before | rfl
          · exact before
          · exact known
        have learned : r.Touches msg.clientId (r.learnAddress msg.clientId remote) :=
          .of_same rfl rfl
        split at touched
        · exact .inl (absorbed (learned.trans (.setStream _ _)) touched)
        · split at touched
          · exact .inl (absorbed (((learned.trans (.setStream _ _)).trans
              (.recordReceived _ _ _ _ _)).trans (.advanceContiguous _ _)) touched)
          · exact .inl (absorbed (learned.trans (.setStream _ _)) touched)
  | dataReply msg => exact .inl touched
  | gapRequest msg =>
      simp only [receiveMessage, handleGapRequest] at touched
      split at touched
      · rename_i leads
        have stored : ∀ s, (r.setStream msg.clientId s).Touched other →
            r.Touched other ∨ other = msg.clientId := fun s => Touches.setStream r s other
        have cases : r.Touched other ∨ other = msg.clientId := by
          split at touched <;> exact stored _ touched
        rcases cases with before | same
        · exact .inl before
        · exact .inr ⟨same, .inr leads⟩
      · exact .inl touched
  | gapReply msg =>
      simp only [receiveMessage, handleGapReply] at touched
      split at touched
      · rename_i found
        have cases : r.Touched other ∨ other = msg.clientId := by
          split at touched
          · exact Touches.setStream r _ other touched
          · exact ((((Touches.setStream r _).trans (.recordReceived _ _ _ _ _)).trans
              (.setStream _ _)).trans (.advanceContiguous _ _)) other touched
        rcases cases with before | same
        · exact .inl before
        · exact .inr ⟨same, .inr found⟩
      · exact .inl touched
  | gapCommit msg =>
      have stored : r.Touches msg.clientId (r.handleGapCommit remote msg (clock 0)).1 :=
        (Touches.setStream r _).trans (.advanceContiguous _ _)
      rcases stored other touched with before | same
      · exact .inl before
      · exact .inr ⟨same, .inr rfl⟩
  | gapCommitReply msg =>
      simp only [receiveMessage, handleGapCommitReply] at touched
      split at touched
      · rename_i leads
        have cases : r.Touched other ∨ other = msg.clientId := by
          split at touched
          · split at touched <;> exact Touches.setStream r _ other touched
          · exact Touches.setStream r _ other touched
        rcases cases with before | same
        · exact .inl before
        · exact .inr ⟨same, .inr leads⟩
      · exact .inl touched

end Replica

/-! ## Runs with the messages that have been handled -/

namespace System

/-- What a step hands to a replica. -/
def handed (s : System) : Action → List Handled
  | .deliver position _ =>
    match s.network[position]? with
    | some ⟨_, .replica idx, msg⟩ => [⟨idx, msg⟩]
    | _ => []
  | _ => []

/-- The deployment whose runs carry the messages that the replicas have handled. -/
abbrev heard (d : Deployment) : TransitionSystem (System × List Handled) Action :=
  (system d).recording handed

/-- With the stream of a client opened or not, the message makes the replica record data of the
client, or answer it. -/
def slipsIn (r : Replica) (opened : Bool) : Message → Bool
  | .data msg => opened && !(r.options.gapEnabled && r.shouldDrop msg.seqNum)
  | .gapReply msg => msg.found && (r.entry msg.clientId msg.seqNum).state == .empty
  | _ => false

/-- No replica is handed, for a client whose `Sync` it has not handled, recovered data for an
empty slot, or undropped data after a message that has opened the client's stream. -/
def Gated (d : Deployment) (state : System × List Handled) : Action → Prop
  | .deliver position _ => ∀ packet, state.1.network[position]? = some packet →
      ∀ idx, packet.dst = .replica idx → synced state.2 idx packet.msg.clientId = false →
        slipsIn (state.1.replicas idx)
          (opened (d.config.getLeaderIndex 0) state.2 idx packet.msg.clientId) packet.msg = false
  | _ => True

instance (d : Deployment) (state : System × List Handled) (action : Action) :
    Decidable (Gated d state action) :=
  match action with
  | .deliver position _ =>
    match found : state.1.network[position]? with
    | none => .isTrue (by simp [Gated, found])
    | some packet =>
      match addressed : packet.dst with
      | .replica idx =>
        decidable_of_iff (synced state.2 idx packet.msg.clientId = false →
          slipsIn (state.1.replicas idx)
            (opened (d.config.getLeaderIndex 0) state.2 idx packet.msg.clientId)
              packet.msg = false) (by simp [Gated, found, addressed])
      | .client id => .isTrue (by simp [Gated, found, addressed])
  | .start _ _ => .isTrue trivial
  | .clientTimer _ _ _ => .isTrue trivial
  | .replicaTimer _ _ _ => .isTrue trivial

/-- The replica holds no data of the client, and has sent it no answer. -/
structure Ignored (s : System) (idx client : Nat) : Prop where
  unrecorded : ∀ seq, ((s.replicas idx).entry client seq).state ≠ .received
  unanswered : ∀ packet ∈ s.network, packet.src = .replica idx →
    ∀ reply, packet.msg = .dataReply reply → reply.clientId ≠ client

/-- Every client that a replica knows of has synchronised or has been let in by a message of
another replica; one that has not synchronised is ignored. -/
structure Shut (d : Deployment) (state : System × List Handled) : Prop where
  replicas : ∀ idx, (state.1.replicas idx).identity = (d.config, idx, d.options, 0)
  known : ∀ idx client, (state.1.replicas idx).Touched client →
    synced state.2 idx client = true ∨
      opened (d.config.getLeaderIndex 0) state.2 idx client = true
  ignored : ∀ idx client, synced state.2 idx client = false → Ignored state.1 idx client

/-- What has been handled before stays so. -/
theorem not_synced_of_append {handled more : List Handled} {idx client : Nat}
    (unsynced : synced (handled ++ more) idx client = false) :
    synced handled idx client = false ∧ synced more idx client = false := by
  rw [synced_append] at unsynced
  exact Bool.or_eq_false_iff.mp unsynced

/-- The clients step, or are handed a packet. -/
theorem shut_of_clients {d : Deployment} {s s' : System} {handled : List Handled}
    (shut : Shut d (s, handled)) (same : s'.replicas = s.replicas)
    (posted : ∃ sent, s'.network = s.network ++ sent ∧
      ∀ packet ∈ sent, ∃ client, packet.src = .client client) :
    Shut d (s', handled) where
  replicas := by
    rw [same]
    exact shut.replicas
  known := by
    rw [same]
    exact shut.known
  ignored idx client unsynced := by
    have before := shut.ignored idx client unsynced
    constructor
    · rw [same]
      exact before.unrecorded
    · intro packet member fromReplica reply isReply
      obtain ⟨sent, grown, fromClients⟩ := posted
      rw [grown] at member
      rcases List.mem_append.mp member with old | new
      · exact before.unanswered packet old fromReplica reply isReply
      · obtain ⟨sender, fromClient⟩ := fromClients packet new
        rw [fromClient] at fromReplica
        cases fromReplica

/-- A replica steps. It need only be seen that it comes to know of clients by what it is handed,
and neither records nor answers anything of one that has not synchronised. -/
theorem shut_updateReplica {d : Deployment} {s : System} {handled more : List Handled} {idx : Nat}
    {r : Replica} {sends : List Send} (shut : Shut d (s, handled))
    (same : r.identity = (s.replicas idx).identity)
    (known : ∀ client, r.Touched client → (s.replicas idx).Touched client ∨
      synced more idx client = true ∨ opened (d.config.getLeaderIndex 0) more idx client = true)
    (recorded : ∀ client, synced (handled ++ more) idx client = false → ∀ seq,
      (r.entry client seq).state = .received →
        ((s.replicas idx).entry client seq).state = .received)
    (answered : ∀ client, synced (handled ++ more) idx client = false → ∀ send ∈ sends,
      ∀ reply, send.msg = .dataReply reply → reply.clientId ≠ client) :
    Shut d (s.updateReplica idx r sends, handled ++ more) := by
  constructor
  · intro other
    by_cases acting : other = idx
    · subst acting
      rw [updateReplica_self, same]
      exact shut.replicas other
    · rw [updateReplica_of_ne _ _ _ acting]
      exact shut.replicas other
  · intro other client touched
    rw [synced_append, opened_append, Bool.or_eq_true, Bool.or_eq_true]
    have widen : synced handled other client = true ∨
        opened (d.config.getLeaderIndex 0) handled other client = true →
        (synced handled other client = true ∨ synced more other client = true) ∨
          opened (d.config.getLeaderIndex 0) handled other client = true ∨
            opened (d.config.getLeaderIndex 0) more other client = true := by
      rintro (before | before)
      · exact .inl (.inl before)
      · exact .inr (.inl before)
    by_cases acting : other = idx
    · subst acting
      rw [updateReplica_self] at touched
      rcases known client touched with before | nowSynced | nowOpened
      · exact widen (shut.known other client before)
      · exact .inl (.inr nowSynced)
      · exact .inr (.inr nowOpened)
    · rw [updateReplica_of_ne _ _ _ acting] at touched
      exact widen (shut.known other client touched)
  · intro other client unsynced
    have before := shut.ignored other client (not_synced_of_append unsynced).1
    constructor
    · intro seq received
      by_cases acting : other = idx
      · subst acting
        rw [updateReplica_self] at received
        exact before.unrecorded seq (recorded client unsynced seq received)
      · rw [updateReplica_of_ne _ _ _ acting] at received
        exact before.unrecorded seq received
    · intro packet member fromReplica reply isReply
      rcases List.mem_append.mp member with old | new
      · exact before.unanswered packet old fromReplica reply isReply
      · obtain ⟨send, sent, rfl⟩ := List.mem_map.mp new
        cases fromReplica
        exact answered client unsynced send sent reply isReply

/-- What keeps to the gate lets nothing in for a client that has not synchronised. -/
theorem not_letsIn_of_gated {d : Deployment} {state : System × List Handled} {position idx : Nat}
    {clock : Nat → Nat} {packet : Packet} (shut : Shut d state)
    (gated : Gated d state (.deliver position clock))
    (found : state.1.network[position]? = some packet) (addressed : packet.dst = .replica idx)
    (unsynced : synced state.2 idx packet.msg.clientId = false) :
    ¬ (state.1.replicas idx).letsIn packet.msg := by
  intro lets
  have refused := gated packet found idx addressed unsynced
  have knows := shut.known idx packet.msg.clientId
  rcases packet with ⟨src, dst, msg⟩
  cases msg with
  | data msg =>
      obtain ⟨known, arrived⟩ := lets
      rcases knows (.inl known) with isSynced | isOpened
      · rw [unsynced] at isSynced
        cases isSynced
      · simp only [slipsIn, isOpened, arrived, Bool.not_false, Bool.and_self] at refused
        cases refused
  | gapReply msg =>
      obtain ⟨isFound, missing⟩ := lets
      simp only [slipsIn, isFound, missing, beq_self_eq_true, Bool.and_self] at refused
      cases refused
  | sync msg => exact lets
  | dataReply msg => exact lets
  | gapRequest msg => exact lets
  | gapCommit msg => exact lets
  | gapCommitReply msg => exact lets

/-- A replica whose `Sync`s have not included one of the client is handed a message. -/
theorem shut_receive {d : Deployment} {s : System} {handled : List Handled} {position idx : Nat}
    {clock : Nat → Nat} {packet : Packet} (shut : Shut d (s, handled))
    (gated : Gated d (s, handled) (.deliver position clock))
    (found : s.network[position]? = some packet) (addressed : packet.dst = .replica idx) :
    Shut d (s.updateReplica idx
      ((s.replicas idx).receiveMessage packet.src packet.msg clock).1
      ((s.replicas idx).receiveMessage packet.src packet.msg clock).2,
        handled ++ [⟨idx, packet.msg⟩]) := by
  have leads : (s.replicas idx).amLeader = (d.config.getLeaderIndex 0 == idx) := by
    have identity := shut.replicas idx
    simp only [Replica.identity, Prod.mk.injEq] at identity
    rw [Replica.amLeader, identity.1, identity.2.1, identity.2.2.2]
  have closed : ∀ client, synced (handled ++ [⟨idx, packet.msg⟩]) idx client = false →
      packet.msg.clientId = client → ¬ (s.replicas idx).letsIn packet.msg := by
    intro client unsynced same
    subst same
    exact not_letsIn_of_gated shut gated found addressed (not_synced_of_append unsynced).1
  apply shut_updateReplica shut
  · exact Replica.identity_receiveMessage _ _ _ _
  · intro client touched
    rcases Replica.touched_receiveMessage _ _ _ _ touched with before | ⟨rfl, isSync | opens⟩
    · exact .inl before
    · exact .inr (.inl (by simp [synced, isSync]))
    · rw [leads] at opens
      exact .inr (.inr (by simp [opened, opens]))
  · intro client unsynced seq received
    rcases Replica.received_receiveMessage _ _ _ _ received with before | ⟨same, lets⟩
    · exact before
    · exact absurd lets (closed client unsynced same)
  · intro client unsynced send sent reply isReply same
    obtain ⟨names, lets⟩ := Replica.answers_receiveMessage _ sent isReply
    exact closed client unsynced (names.symm.trans same) lets

/-- A gap timer fires at a replica. -/
theorem shut_fire {d : Deployment} {s : System} {handled : List Handled} {idx id : Nat}
    {clock : Nat → Nat} {timer : PendingTimer Nat} (shut : Shut d (s, handled))
    (pending : (s.replicas idx).timers.pending[id]? = some timer) :
    Shut d (s.updateReplica idx
      ({ s.replicas idx with timers := (s.replicas idx).timers.cancelTimer id }.onGapTimeout
        timer.callback clock).1
      ({ s.replicas idx with timers := (s.replicas idx).timers.cancelTimer id }.onGapTimeout
        timer.callback clock).2, handled ++ []) := by
  apply shut_updateReplica shut
  · exact Replica.identity_onGapTimeout _ timer.callback clock
  · intro client touched
    have cancelled : (s.replicas idx).Touches timer.callback
        { s.replicas idx with timers := (s.replicas idx).timers.cancelTimer id } :=
      .cancelTimer (s.replicas idx) id
    have touches := cancelled.trans (.onGapTimeout _ clock)
    rcases touches client touched with before | rfl
    · exact .inl before
    · exact .inl (.inr ⟨id, timer, pending, rfl⟩)
  · intro client unsynced seq received
    by_contra missing
    exact Replica.not_received_onGapTimeout { s.replicas idx with
      timers := (s.replicas idx).timers.cancelTimer id } client seq timer.callback clock missing
        received
  · intro client unsynced send sent reply isReply
    exact absurd isReply (Replica.not_answer_onGapTimeout _ sent)

/-- A step that hands no packet to a replica notes nothing. -/
theorem handed_of_clients {s : System} {action : Action}
    (toClient : ∀ position clock packet, action = .deliver position clock →
      s.network[position]? = some packet → ∃ client, packet.dst = .client client) :
    s.handed action = [] := by
  cases action with
  | deliver position clock =>
      unfold handed
      dsimp only
      split
      · rename_i idx msg found
        obtain ⟨client, addressed⟩ := toClient position clock _ rfl found
        cases addressed
      · rfl
  | start clientId now => rfl
  | clientTimer clientId id readings => rfl
  | replicaTimer idx id clock => rfl

/-- Before anything has happened, nothing has been handled. -/
theorem heard_initial (d : Deployment) : (heard d).Initial (initial d, []) := ⟨rfl, rfl⟩

/-- Along every gated run, a client that has not synchronised is ignored. -/
theorem shut_invariant (d : Deployment) : (heard d).Invariant (Gated d) (Shut d) where
  initial state start := by
    obtain ⟨s, handled⟩ := state
    obtain ⟨rfl, rfl⟩ : s = initial d ∧ handled = [] := start
    constructor
    · intro idx
      rfl
    · rintro idx client (known | ⟨id, timer, pending, _⟩)
      · cases known
      · cases pending
    · intro idx client unsynced
      constructor
      · intro seq
        have missing : (((initial d).replicas idx).entry client seq).state = .empty := rfl
        rw [missing]
        exact nofun
      · intro packet member
        cases member
  preserved {state action next} shut gated transition := by
    obtain ⟨s, handled⟩ := state
    obtain ⟨s', handled'⟩ := next
    obtain ⟨stepped, noted⟩ := TransitionSystem.step_recording.mp transition
    simp only at stepped noted
    subst noted
    rcases step_cases stepped with ⟨same, posted, toClient⟩ |
      ⟨position, clock, packet, idx, rfl, found, addressed, rfl⟩ |
      ⟨idx, id, clock, timer, rfl, pending, rfl⟩
    · rw [handed_of_clients toClient, List.append_nil]
      exact shut_of_clients shut same posted
    · have noted : s.handed (.deliver position clock) = [⟨idx, packet.msg⟩] := by
        rcases packet with ⟨src, dst, msg⟩
        simp only at addressed
        subst addressed
        simp [handed, found]
      rw [noted]
      exact shut_receive shut gated found addressed
    · exact shut_fire shut pending

/-- Along every run that keeps to the gate, a replica that has not handled a `Sync` of a client
holds no data of the client, and has sent it no answer. -/
theorem ignored_of_gated (d : Deployment) (state : System × List Handled)
    (reachable : (heard d).Reachable (Gated d) state) (idx client : Nat)
    (unsynced : synced state.2 idx client = false) : Ignored state.1 idx client :=
  ((shut_invariant d).of_reachable reachable).ignored idx client unsynced

/-! ## Two executions in which a `Sync` is lost -/

/-- Follower 1, which the `Sync` of client 7 has not reached, is told that slot 1 is a NoOp. -/
def overtakingRun : List Action :=
  warmUp ++ [.deliver 6 (clockAt 5012), .replicaTimer 0 1 (clockAt 5022),
    .deliver 10 (clockAt 5023)]

/-- Then the second request reaches the follower. -/
def slippingRun : List Action := overtakingRun ++ [.deliver 7 (clockAt 5024)]

set_option maxRecDepth 10000 in
/-- The NoOp commit alone keeps to the gate. -/
theorem ignored_overtakingRun : ∃ state : System × List Handled,
    ((state.1.replicas 1).entry 7 1).state = .noop ∧ Ignored state.1 1 7 := by
  obtain ⟨state, reachable, reached⟩ :=
    (heard trio).exists_reachable_of_run (Gated trio)
      (fun state => decide (((state.1.replicas 1).entry 7 1).state = .noop) &&
        !synced state.2 1 7) overtakingRun (heard_initial trio) (by decide)
  obtain ⟨noop, unsynced⟩ := Bool.and_eq_true_iff.mp reached
  rw [Bool.not_eq_true'] at unsynced
  exact ⟨state, of_decide_eq_true noop, ignored_of_gated trio state reachable 1 7 unsynced⟩

set_option maxRecDepth 10000 in
/-- The follower records and answers the second request although no `Sync` has reached it. -/
theorem not_ignored_slippingRun :
    ¬ ∀ state, (heard trio).Reachable TransitionSystem.unguarded state → ∀ idx client,
      synced state.2 idx client = false → Ignored state.1 idx client := by
  intro always
  obtain ⟨state, reachable, reached⟩ :=
    (heard trio).exists_reachable_of_run TransitionSystem.unguarded
      (fun state => decide (((state.1.replicas 1).entry 7 2).state = .received) &&
        !synced state.2 1 7) slippingRun (heard_initial trio) (by decide)
  obtain ⟨received, unsynced⟩ := Bool.and_eq_true_iff.mp reached
  rw [Bool.not_eq_true'] at unsynced
  exact (always state reachable 1 7 unsynced).unrecorded 2 (of_decide_eq_true received)

end System

end PaxosBus.Bus

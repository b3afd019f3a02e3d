import PaxosBus.Bus.Alike

/-!
# Replicas in lockstep

Two replicas are in lockstep about a client when they agree on all that their
handlers ever read of it. Whatever happens, they stay so: they tell the same
about the client at every event, and agree on its slots and its frontier.
-/

set_option autoImplicit false

namespace PaxosBus.Bus

open Std PaxosBus.Common

/-- The message is a data reply, a gap request or a gap commit about the client. -/
def Message.tellsOf (client : Nat) : Message → Bool
  | .dataReply msg => msg.clientId == client
  | .gapRequest msg => msg.clientId == client
  | .gapCommit msg => msg.clientId == client
  | _ => false

namespace Replica

/-- The replica after a sequence of events. -/
def underwent (r : Replica) (events : List Event) : Replica :=
  events.foldl (fun r event => (r.undergo event).1) r

/-- The data replies, gap requests and gap commits about a client that the replica sends at each
of the events. -/
def tells (client : Nat) : Replica → List Event → List (List Send)
  | _, [] => []
  | r, event :: events =>
    (r.undergo event).2.filter (·.msg.tellsOf client) :: (r.undergo event).1.tells client events

/-- The events do not tell the replicas apart: both tell the same about the client at each, and
have the same slot states and frontier in the end. -/
structure Indistinct (client : Nat) (r r' : Replica) (events : List Event) : Prop where
  tells : r.tells client events = r'.tells client events
  states : ∀ slot, ((r.underwent events).entry client slot).state =
    ((r'.underwent events).entry client slot).state
  frontier : ((r.underwent events).stream client).nextExpected =
    ((r'.underwent events).stream client).nextExpected

/-! ## What an event is about -/

/-- What a replica is decides its options and whether it drops a message. -/
theorem options_congr {r r' : Replica} (same : r'.identity = r.identity) :
    r'.options = r.options := by
  simp only [identity, Prod.mk.injEq] at same
  exact same.2.2.1

theorem shouldDrop_congr {r r' : Replica} (same : r'.identity = r.identity) (seq : Nat) :
    r'.shouldDrop seq = r.shouldDrop seq := by
  have leader := amLeader_congr same
  simp only [identity, Prod.mk.injEq] at same
  unfold shouldDrop
  rw [leader, same.2.1, same.2.2.1]

/-- Writes about a client do not make the replica forget it. -/
theorem known_of_writes {r last : Replica} {clientId client : Nat}
    (writes : Writes clientId r last) (known : (r.clients[client]?).isSome = true) :
    (last.clients[client]?).isSome = true := by
  have stored : ∀ (r : Replica) (s : ClientStream), (r.clients[client]?).isSome = true →
      ((r.setStream clientId s).clients[client]?).isSome = true := by
    intro r s held
    simp only [setStream, TreeMap.getElem?_insert]
    split
    · rfl
    · exact held
  induction writes with
  | refl => exact known
  | stream _ s _ inductionHypothesis => exact stored _ s inductionHypothesis
  | address _ _ inductionHypothesis => exact inductionHypothesis
  | arm _ _ inductionHypothesis => exact stored _ _ inductionHypothesis
  | forget _ inductionHypothesis => exact stored _ _ inductionHypothesis

/-- The reply to a client is about it. -/
theorem clientId_replyToClient (r : Replica) {clientId seq : Nat} {send : Send}
    (sent : send ∈ r.replyToClient clientId seq) : send.msg.clientId = clientId := by
  unfold replyToClient at sent
  split at sent
  · cases sent
  · obtain rfl := List.mem_singleton.mp sent
    rfl

/-- What a message makes the replica send is about the client of the message. -/
theorem clientId_receiveMessage (r : Replica) {remote : Address} {msg : Message}
    {clock : Nat → Nat} {send : Send} (sent : send ∈ (r.receiveMessage remote msg clock).2) :
    send.msg.clientId = msg.clientId := by
  cases msg with
  | sync msg => cases sent
  | data msg =>
      rw [receiveMessage, sends_handleData] at sent
      split at sent
      · obtain rfl := List.mem_singleton.mp sent
        rfl
      · cases sent
  | dataReply msg => cases sent
  | gapRequest msg =>
      simp only [receiveMessage, handleGapRequest] at sent
      split at sent
      · split at sent
        · obtain rfl := List.mem_singleton.mp sent
          rfl
        · obtain rfl := List.mem_singleton.mp sent
          rfl
        · cases sent
      · cases sent
  | gapReply msg =>
      rw [receiveMessage, sends_handleGapReply] at sent
      split at sent
      · exact r.clientId_replyToClient sent
      · cases sent
  | gapCommit msg =>
      obtain rfl := List.mem_singleton.mp sent
      rfl
  | gapCommitReply msg => cases sent

/-- What an event makes the replica send is about the client of the event. -/
theorem Timed.clientId_undergo {r : Replica} (timed : r.Timed) {event : Event} {send : Send}
    (sent : send ∈ (r.undergo event).2) : send.msg.clientId = event.clientId := by
  cases event with
  | message remote msg clock => exact r.clientId_receiveMessage sent
  | gapTimer client clock =>
      unfold Replica.undergo at sent
      dsimp only at sent
      split at sent
      · cases sent
      · rename_i timer pending
        have owner : timer.callback = client := timed.callback_gapTimer pending
        rcases mem_onGapTimeout _ _ sent with ⟨_, _, _, _, _, rfl⟩ | ⟨_, _, rfl⟩
        · exact owner
        · exact owner

/-- An event about another client tells nothing of this one. -/
theorem Timed.silent {r : Replica} (timed : r.Timed) {client : Nat} {event : Event}
    (different : client ≠ event.clientId) :
    (r.undergo event).2.filter (·.msg.tellsOf client) = [] := by
  apply List.filter_eq_nil_iff.mpr
  intro send sent
  have about := timed.clientId_undergo sent
  have other : send.msg.clientId ≠ client := fun same => different (same.symm.trans about)
  unfold Message.tellsOf
  split <;> simp_all [Message.clientId]

/-- The address of a client after a message about it. -/
theorem clientAddr_handleData_of_known (r : Replica) (remote : Address) (msg : DataMessage)
    (clock : Nat → Nat) (known : (r.clients[msg.clientId]?).isSome = true) :
    (r.handleData remote msg clock).1.clientAddr = r.clientAddr.insert msg.clientId remote := by
  unfold handleData
  split
  · rename_i absent
    rw [absent] at known
    cases known
  · dsimp only
    split
    · rfl
    · split
      · rw [clientAddr_advanceContiguous, clientAddr_recordReceived]
        rfl
      · rfl

/-- Only a `Sync` and data teach the address of a client. -/
theorem clientAddr_receiveMessage_of_known (r : Replica) (remote : Address) (msg : Message)
    (clock : Nat → Nat) (known : (r.clients[msg.clientId]?).isSome = true) :
    (r.receiveMessage remote msg clock).1.clientAddr =
      match msg with
      | .sync _ => r.clientAddr.insert msg.clientId remote
      | .data _ => r.clientAddr.insert msg.clientId remote
      | _ => r.clientAddr := by
  cases msg with
  | sync msg => rfl
  | data msg => exact r.clientAddr_handleData_of_known remote msg clock known
  | dataReply msg => rfl
  | gapRequest msg =>
      simp only [receiveMessage, handleGapRequest]
      split
      · split <;> rfl
      · rfl
  | gapReply msg => exact r.clientAddr_handleGapReply msg clock
  | gapCommit msg => simp [receiveMessage, handleGapCommit]
  | gapCommitReply msg =>
      simp only [receiveMessage, handleGapCommitReply]
      split
      · split
        · split <;> rfl
        · rfl
      · rfl

/-- The frontier never falls below the first slot. -/
theorem one_le_nextExpected_takes (r : Replica) (msg : Message) (clock : Nat → Nat)
    (known : (r.clients[msg.clientId]?).isSome = true)
    (started : 1 ≤ (r.stream msg.clientId).nextExpected) :
    1 ≤ (r.takes msg clock (r.stream msg.clientId)).nextExpected := by
  have advances : ∀ msg : Message, (r.clients[msg.clientId]?).isSome = true →
      (∀ sync, msg ≠ .sync sync) → 1 ≤ (r.stream msg.clientId).nextExpected →
        1 ≤ (r.takes msg clock (r.stream msg.clientId)).nextExpected := by
    intro msg known noSync started
    have inOrder : r.InOrder msg := by
      unfold InOrder
      split
      · exact absurd rfl (noSync _)
      · exact known
    rcases r.advances_takes msg clock inOrder with advances | ⟨_, sync, same⟩
    · exact Nat.le_trans started advances.le
    · exact absurd same (noSync sync)
  cases msg with
  | sync msg => exact Nat.le_refl 1
  | data msg => exact advances (.data msg) known nofun started
  | dataReply msg => exact started
  | gapRequest msg => exact started
  | gapReply msg => exact advances (.gapReply msg) known nofun started
  | gapCommit msg => exact advances (.gapCommit msg) known nofun started
  | gapCommitReply msg => exact advances (.gapCommitReply msg) known nofun started

/-! ## The scan in two replicas -/

/-- One missing slot is resolved with the same messages. -/
theorem sends_resolveGap_congr {r r' : Replica} {client slot : Nat} (now : Nat)
    (identityEq : r'.identity = r.identity)
    (alike : (r.stream client).Alike (r'.stream client))
    (held : r.amLeader = false → ClientStream.SameHeld r.options (r.stream client)
      (r'.stream client)) (positive : 1 ≤ slot) :
    (r.resolveGap client slot now).2 = (r'.resolveGap client slot now).2 := by
  have leader := amLeader_congr identityEq
  have mode := options_congr identityEq
  simp only [identity, Prod.mk.injEq] at identityEq
  unfold resolveGap
  by_cases leads : r.amLeader = true
  · rw [dif_pos leads, dif_pos (leader.trans leads)]
    unfold startGapAgreement
    dsimp only
    rw [← (alike.entries slot).1, identityEq.1, identityEq.2.1, identityEq.2.2.2]
    split <;> rfl
  · have follows : r.amLeader = false := eq_false_of_ne_true leads
    rw [dif_neg leads, dif_neg (by rwa [leader])]
    unfold sendGapRequest
    dsimp only
    rw [mode, ← held follows slot now positive, identityEq.1, identityEq.2.1, identityEq.2.2.2]
    split <;> rfl

/-- The gap scan sends the same messages. -/
theorem sends_scanGaps_congr {r r' : Replica} {client slot slots : Nat} (nowNs : Nat)
    (clock : Nat → Nat) (identityEq : r'.identity = r.identity)
    (alike : (r.stream client).Alike (r'.stream client))
    (held : r.amLeader = false → ClientStream.SameHeld r.options (r.stream client)
      (r'.stream client)) (positive : 1 ≤ slot) :
    (r.scanGaps client nowNs clock slot slots).2 =
      (r'.scanGaps client nowNs clock slot slots).2 := by
  induction slots generalizing r r' slot with
  | zero => rfl
  | succ slots inductionHypothesis =>
      have leader := amLeader_congr identityEq
      have mode := options_congr identityEq
      unfold scanGaps
      dsimp only
      rw [← alike.filled, mode, ← alike.deadlineNs]
      split
      · exact inductionHypothesis identityEq alike held (by omega)
      · split
        · rfl
        · have kept := r.identity_resolveGap client slot (clock slot)
          have kept' := r'.identity_resolveGap client slot (clock slot)
          have now := sends_resolveGap_congr (clock slot) identityEq alike held positive
          have resolved : ((r.resolveGap client slot (clock slot)).1.stream client).Alike
              ((r'.resolveGap client slot (clock slot)).1.stream client) := by
            rw [stream_resolveGap, stream_resolveGap, if_pos rfl, if_pos rfl, leader, mode]
            exact alike.resolve r.amLeader r.options slot (clock slot)
          have stillHeld : (r.resolveGap client slot (clock slot)).1.amLeader = false →
              ClientStream.SameHeld (r.resolveGap client slot (clock slot)).1.options
                ((r.resolveGap client slot (clock slot)).1.stream client)
                ((r'.resolveGap client slot (clock slot)).1.stream client) := by
            intro follows
            rw [amLeader_congr kept] at follows
            rw [options_congr kept, stream_resolveGap, stream_resolveGap, if_pos rfl, if_pos rfl,
              leader, mode, follows]
            exact (held follows).ask positive (clock slot)
          rw [now, inductionHypothesis (kept'.trans (identityEq.trans kept.symm)) resolved
            stillHeld (by omega)]

/-- In gap mode the gap timer arms itself again when it has fired. -/
theorem gapTimer_onGapTimeout (r : Replica) (client : Nat) (clock : Nat → Nat)
    (gapMode : r.options.gapEnabled = true) :
    (r.onGapTimeout client clock).1.gapTimer client = some
      { ms := ((r.stream client).untimed.scanned r.amLeader r.options clock).advance.delayMs
          r.options (clock (max (r.stream client).maxSeqSeen (r.stream client).nextExpected + 1))
        callback := client } := by
  have kept := (r.setStream client (r.stream client).untimed).identity_scanGaps client (clock 0)
    clock (r.stream client).nextExpected (max (r.stream client).maxSeqSeen
      (r.stream client).nextExpected + 1 - (r.stream client).nextExpected)
  have mode := (options_congr kept).trans
    (show (r.setStream client (r.stream client).untimed).options = r.options from rfl)
  have scan := (r.setStream client (r.stream client).untimed).stream_scanGaps client client
    (clock 0) clock (r.stream client).nextExpected (max (r.stream client).maxSeqSeen
      (r.stream client).nextExpected + 1 - (r.stream client).nextExpected)
  rw [if_pos rfl, stream_setStream, if_pos rfl] at scan
  have armed := gapTimer_advanceContiguous
    ((r.setStream client (r.stream client).untimed).scanGaps client (clock 0) clock
      (r.stream client).nextExpected (max (r.stream client).maxSeqSeen
        (r.stream client).nextExpected + 1 - (r.stream client).nextExpected)).1 client
    (clock (max (r.stream client).maxSeqSeen (r.stream client).nextExpected + 1))
  rw [mode, if_pos gapMode, scan] at armed
  exact armed

/-! ## Lockstep -/

/-- Two replicas that treat the client in the same way from now on. -/
structure Lockstep (client : Nat) (r r' : Replica) : Prop where
  identity : r'.identity = r.identity
  known : (r.clients[client]?).isSome = true
  known' : (r'.clients[client]?).isSome = true
  address : r'.clientAddr[client]? = r.clientAddr[client]?
  alike : (r.stream client).Alike (r'.stream client)
  started : 1 ≤ (r.stream client).nextExpected
  held : r.amLeader = false → r.options.gapEnabled = true →
    ClientStream.SameHeld r.options (r.stream client) (r'.stream client)
  timer : r'.gapTimer client = r.gapTimer client
  idle : r.options.gapEnabled = false → r.gapTimer client = none
  timed : r.Timed
  timed' : r'.Timed

namespace Lockstep

variable {client : Nat} {r r' : Replica}

/-- Both let in the same data, and drop the same. -/
theorem takes (lockstep : Lockstep client r r') {msg : Message} (about : msg.clientId = client)
    (clock : Nat → Nat) :
    (r.takes msg clock (r.stream client)).Alike (r'.takes msg clock (r'.stream client)) := by
  have leader := amLeader_congr lockstep.identity
  have mode := options_congr lockstep.identity
  have alike := lockstep.alike
  cases msg with
  | sync msg => exact alike.resync msg (clock 0)
  | data msg =>
      obtain rfl : msg.clientId = client := about
      simp only [Replica.takes, lockstep.known, lockstep.known', if_true, mode,
        shouldDrop_congr lockstep.identity]
      exact alike.takeData _ _ msg clock
  | dataReply msg => exact alike
  | gapRequest msg => exact alike
  | gapReply msg => exact alike.takeReply msg (clock 0)
  | gapCommit msg => exact alike.takeCommit msg.seqNum
  | gapCommitReply msg =>
      have config : r'.config = r.config := congrArg Prod.fst lockstep.identity
      simp only [Replica.takes, leader, config]
      split
      · exact alike.takeAck _ msg
      · exact alike

/-- Both answer with the same messages. -/
theorem sends (lockstep : Lockstep client r r') {msg : Message} (about : msg.clientId = client)
    (remote : Address) (clock : Nat → Nat) :
    (r.receiveMessage remote msg clock).2 = (r'.receiveMessage remote msg clock).2 := by
  have leader := amLeader_congr lockstep.identity
  have mode := options_congr lockstep.identity
  have fields := lockstep.identity
  simp only [Replica.identity, Prod.mk.injEq] at fields
  cases msg with
  | sync msg => rfl
  | data msg =>
      obtain rfl : msg.clientId = client := about
      rw [receiveMessage, receiveMessage, sends_handleData, sends_handleData, lockstep.known,
        lockstep.known', mode, shouldDrop_congr lockstep.identity, fields.2.1, fields.2.2.2]
  | dataReply msg => rfl
  | gapRequest msg =>
      obtain rfl : msg.clientId = client := about
      have entry := lockstep.alike.entries msg.seqNum
      simp only [receiveMessage, handleGapRequest, leader, ← entry.1]
      split
      · split
        · rename_i received
          rw [← entry.2 received, setStream, setStream, fields.2.1, fields.2.2.2]
        · rw [setStream, setStream, fields.2.2.2]
        · rfl
      · rfl
  | gapReply msg =>
      obtain rfl : msg.clientId = client := about
      rw [receiveMessage, receiveMessage, sends_handleGapReply, sends_handleGapReply,
        ← lockstep.alike.filled]
      unfold replyToClient
      rw [lockstep.address, fields.2.1, fields.2.2.2]
  | gapCommit msg =>
      have view : ∀ r : Replica, (r.handleGapCommit remote msg (clock 0)).2 =
          [{ dst := remote
             msg := .gapCommitReply
              { clientId := msg.clientId, seqNum := msg.seqNum, viewId := r.viewId,
                replicaIdx := r.replicaIdx } }] := by
        intro r
        have same := (r.setStream msg.clientId
          (((r.stream msg.clientId).setEntry msg.seqNum
            { (r.stream msg.clientId).entry msg.seqNum with state := .noop }).dropRequest
              msg.seqNum)).identity_advanceContiguous msg.clientId (clock 0)
        simp only [Replica.identity, Prod.mk.injEq] at same
        unfold handleGapCommit
        dsimp only
        rw [same.2.1, same.2.2.2]
        rfl
      rw [receiveMessage, receiveMessage, view, view, fields.2.1, fields.2.2.2]
  | gapCommitReply msg => rfl

/-- Both hold back the same requests after a message. -/
theorem heldAfter (lockstep : Lockstep client r r') {msg : Message}
    (about : msg.clientId = client) (clock : Nat → Nat)
    (held : ClientStream.SameHeld r.options (r.stream client) (r'.stream client)) :
    ClientStream.SameHeld r.options (r.takes msg clock (r.stream client))
      (r'.takes msg clock (r'.stream client)) := by
  cases msg with
  | sync msg => exact held.of_same rfl rfl
  | data msg =>
      obtain rfl : msg.clientId = client := about
      simp only [Replica.takes, lockstep.known, lockstep.known', if_true]
      exact held.of_same (ClientStream.gapLastReqNs_takeData _ _ _ _ _)
        (ClientStream.gapLastReqNs_takeData _ _ _ _ _)
  | dataReply msg => exact held
  | gapRequest msg => exact held
  | gapReply msg =>
      have recorded : ∀ s : ClientStream, (s.record msg.seqNum msg.payload msg.sendTimeNs
          (clock 0)).gapLastReqNs = s.gapLastReqNs := fun s => s.gapLastReqNs_record _ _ _ _
      simp only [Replica.takes, ClientStream.takeReply, ← lockstep.alike.filled]
      split
      · have dropped := (held.of_same (recorded _) (recorded _)).dropRequest msg.seqNum
        exact dropped.of_same rfl rfl
      · exact held
  | gapCommit msg =>
      have written : ClientStream.SameHeld r.options
          ((r.stream client).setEntry msg.seqNum
            { (r.stream client).entry msg.seqNum with state := .noop })
          ((r'.stream client).setEntry msg.seqNum
            { (r'.stream client).entry msg.seqNum with state := .noop }) := held.of_same rfl rfl
      exact (written.dropRequest msg.seqNum).of_same rfl rfl
  | gapCommitReply msg =>
      have leader := amLeader_congr lockstep.identity
      simp only [Replica.takes, leader]
      split
      · exact held.of_same (ClientStream.gapLastReqNs_takeAck _ _ _)
          (ClientStream.gapLastReqNs_takeAck _ _ _)
      · exact held

/-- Both arm the gap timer at the same messages. -/
theorem arming (lockstep : Lockstep client r r') {msg : Message} (about : msg.clientId = client)
    (clock : Nat → Nat) : r'.arming msg clock = r.arming msg clock := by
  have mode := options_congr lockstep.identity
  cases msg with
  | data msg =>
      obtain rfl : msg.clientId = client := about
      simp only [Replica.arming, mode, lockstep.known, lockstep.known',
        shouldDrop_congr lockstep.identity]
  | gapReply msg =>
      obtain rfl : msg.clientId = client := about
      simp only [Replica.arming, mode, lockstep.alike.filled]
  | gapCommit msg => simp only [Replica.arming, mode]
  | sync msg => rfl
  | dataReply msg => rfl
  | gapRequest msg => rfl
  | gapCommitReply msg => rfl

/-- A message about the client keeps the replicas in lockstep. -/
theorem receiveMessage (lockstep : Lockstep client r r') {msg : Message}
    (about : msg.clientId = client) (remote : Address) (clock : Nat → Nat) :
    Lockstep client (r.receiveMessage remote msg clock).1
      (r'.receiveMessage remote msg clock).1 := by
  have same : ∀ r : Replica, ((r.receiveMessage remote msg clock).1.stream client).untimed =
      (r.takes msg clock (r.stream client)).untimed := by
    intro r
    rw [untimed_receiveMessage, if_pos about]
  have taken := lockstep.takes about clock
  have identityEq : (r.receiveMessage remote msg clock).1.identity = r.identity :=
    r.identity_receiveMessage remote msg clock
  have timer := fun r : Replica => r.gapTimer_receiveMessage remote msg clock
  rw [about] at timer
  constructor
  · rw [identity_receiveMessage, identity_receiveMessage]
    exact lockstep.identity
  · exact known_of_writes (.receiveMessage r remote msg clock) lockstep.known
  · exact known_of_writes (.receiveMessage r' remote msg clock) lockstep.known'
  · rw [clientAddr_receiveMessage_of_known _ _ _ _ (by rw [about]; exact lockstep.known'),
      clientAddr_receiveMessage_of_known _ _ _ _ (by rw [about]; exact lockstep.known)]
    subst about
    cases msg with
    | sync msg => simp only [TreeMap.getElem?_insert_self]
    | data msg => simp only [TreeMap.getElem?_insert_self]
    | dataReply msg => exact lockstep.address
    | gapRequest msg => exact lockstep.address
    | gapReply msg => exact lockstep.address
    | gapCommit msg => exact lockstep.address
    | gapCommitReply msg => exact lockstep.address
  · exact .of_untimed (same r) (same r') taken
  · obtain ⟨_, _, next, _⟩ := ClientStream.fields_of_untimed (same r)
    rw [next]
    subst about
    exact r.one_le_nextExpected_takes msg clock lockstep.known lockstep.started
  · intro follows gapMode
    rw [amLeader_congr identityEq] at follows
    rw [options_congr identityEq] at gapMode ⊢
    have held := lockstep.heldAfter about clock (lockstep.held follows gapMode)
    obtain ⟨_, _, _, _, _, asked⟩ := ClientStream.fields_of_untimed (same r)
    obtain ⟨_, _, _, _, _, asked'⟩ := ClientStream.fields_of_untimed (same r')
    exact held.of_same asked asked'
  · rw [timer, timer, lockstep.arming about clock]
    split
    · exact lockstep.timer
    · rw [← taken.delayMs, options_congr lockstep.identity]
  · intro plain
    rw [options_congr identityEq] at plain
    have unarmed : r.arming msg clock = none := by
      unfold Replica.arming
      split <;> simp [plain]
    rw [timer, unarmed]
    exact lockstep.idle plain
  · exact lockstep.timed.of_writes (.receiveMessage r remote msg clock)
  · exact lockstep.timed'.of_writes (.receiveMessage r' remote msg clock)

/-- Nothing that the lockstep is about changes at an event of another client. -/
theorem of_untouched (lockstep : Lockstep client r r') {next next' : Replica} {clientId : Nat}
    (writes : Writes clientId r next) (writes' : Writes clientId r' next')
    (different : client ≠ clientId) : Lockstep client next next' := by
  have kept := untouched_of_writes lockstep.timed writes different
  have kept' := untouched_of_writes lockstep.timed' writes' different
  have identityEq := identity_of_writes writes
  have identityEq' := identity_of_writes writes'
  have stream : next.stream client = r.stream client := by
    unfold Replica.stream
    rw [kept.stream]
  have stream' : next'.stream client = r'.stream client := by
    unfold Replica.stream
    rw [kept'.stream]
  constructor
  · rw [identityEq, identityEq']
    exact lockstep.identity
  · exact known_of_writes writes lockstep.known
  · exact known_of_writes writes' lockstep.known'
  · rw [kept.address, kept'.address]
    exact lockstep.address
  · rw [stream, stream']
    exact lockstep.alike
  · rw [stream]
    exact lockstep.started
  · rw [amLeader_congr identityEq, options_congr identityEq, stream, stream']
    exact lockstep.held
  · rw [kept.timer, kept'.timer]
    exact lockstep.timer
  · rw [kept.timer, options_congr identityEq]
    exact lockstep.idle
  · exact lockstep.timed.of_writes writes
  · exact lockstep.timed'.of_writes writes'

/-- The gap timer of the client fires in both. -/
theorem onGapTimeout (lockstep : Lockstep client r r') (clock : Nat → Nat)
    (pending : r.gapTimer client ≠ none) :
    Lockstep client ((r.expire (r.stream client).gapTimerId).onGapTimeout client clock).1
        ((r'.expire (r'.stream client).gapTimerId).onGapTimeout client clock).1 ∧
      ((r.expire (r.stream client).gapTimerId).onGapTimeout client clock).2 =
        ((r'.expire (r'.stream client).gapTimerId).onGapTimeout client clock).2 := by
  have leader := amLeader_congr lockstep.identity
  have mode := options_congr lockstep.identity
  have gapMode : r.options.gapEnabled = true := by
    cases plain : r.options.gapEnabled with
    | true => rfl
    | false => exact absurd (lockstep.idle plain) pending
  have writes : Writes client r
      ((r.expire (r.stream client).gapTimerId).onGapTimeout client clock).1 :=
    .onGapTimeout (.refl r) clock
  have writes' : Writes client r'
      ((r'.expire (r'.stream client).gapTimerId).onGapTimeout client clock).1 :=
    .onGapTimeout (.refl r') clock
  have identityEq := identity_of_writes writes
  have identityEq' := identity_of_writes writes'
  have untimed : (r.stream client).untimed.Alike (r'.stream client).untimed :=
    lockstep.alike.of_fields rfl rfl rfl rfl rfl rfl rfl rfl rfl rfl
  have scanned : ((r.stream client).untimed.scanned r.amLeader r.options clock).Alike
      ((r'.stream client).untimed.scanned r.amLeader r.options clock) := by
    unfold ClientStream.scanned
    rw [← untimed.maxSeqSeen, ← untimed.nextExpected]
    exact untimed.scan _ _ _ _ _ _
  have after : (((r.expire (r.stream client).gapTimerId).onGapTimeout client clock).1.stream
      client).untimed =
        ((r.stream client).untimed.scanned r.amLeader r.options clock).advance.untimed := by
    rw [untimed_onGapTimeout, if_pos rfl]
    rfl
  have after' : (((r'.expire (r'.stream client).gapTimerId).onGapTimeout client clock).1.stream
      client).untimed =
        ((r'.stream client).untimed.scanned r.amLeader r.options clock).advance.untimed := by
    rw [untimed_onGapTimeout, if_pos rfl, ← leader, ← mode]
    rfl
  obtain ⟨_, _, next, _, _, asked⟩ := ClientStream.fields_of_untimed after
  obtain ⟨_, _, _, _, _, asked'⟩ := ClientStream.fields_of_untimed after'
  constructor
  · constructor
    · rw [identityEq, identityEq']
      exact lockstep.identity
    · exact known_of_writes writes lockstep.known
    · exact known_of_writes writes' lockstep.known'
    · rw [clientAddr_onGapTimeout, clientAddr_onGapTimeout]
      exact lockstep.address
    · exact .of_untimed after after' scanned.advance
    · rw [next]
      exact Nat.le_trans lockstep.started
        ((r.stream client).advances_scanned r.amLeader r.options clock).le
    · intro follows _
      rw [amLeader_congr identityEq] at follows
      rw [options_congr identityEq]
      have held : ClientStream.SameHeld r.options (r.stream client).untimed
          (r'.stream client).untimed := (lockstep.held follows gapMode).of_same rfl rfl
      have heldAfter := held.scan untimed (clock 0) clock lockstep.started
        (max (r.stream client).maxSeqSeen (r.stream client).nextExpected + 1 -
          (r.stream client).nextExpected)
      apply heldAfter.of_same
      · rw [asked, follows]
        rfl
      · rw [asked', follows, lockstep.alike.maxSeqSeen, lockstep.alike.nextExpected]
        rfl
    · have timer := (r.expire (r.stream client).gapTimerId).gapTimer_onGapTimeout client clock
        gapMode
      have timer' := (r'.expire (r'.stream client).gapTimerId).gapTimer_onGapTimeout client clock
        ((congrArg Options.gapEnabled mode).trans gapMode)
      have sameDelay : ((r'.stream client).untimed.scanned r'.amLeader r'.options
          clock).advance.delayMs r'.options (clock (max (r'.stream client).maxSeqSeen
            (r'.stream client).nextExpected + 1)) =
          ((r.stream client).untimed.scanned r.amLeader r.options clock).advance.delayMs
            r.options (clock (max (r.stream client).maxSeqSeen
              (r.stream client).nextExpected + 1)) := by
        rw [leader, mode, scanned.advance.delayMs, lockstep.alike.maxSeqSeen,
          lockstep.alike.nextExpected]
      exact timer'.trans ((congrArg (fun ms => some (PendingTimer.mk ms client))
        sameDelay).trans timer.symm)
    · intro plain
      rw [options_congr identityEq, gapMode] at plain
      cases plain
    · exact lockstep.timed.of_writes writes
    · exact lockstep.timed'.of_writes writes'
  · have bounds : max (r'.stream client).maxSeqSeen (r'.stream client).nextExpected =
        max (r.stream client).maxSeqSeen (r.stream client).nextExpected := by
      rw [lockstep.alike.maxSeqSeen, lockstep.alike.nextExpected]
    have fired : ∀ (r : Replica), (r.onGapTimeout client clock).2 =
        ((r.setStream client (r.stream client).untimed).scanGaps client (clock 0) clock
          (r.stream client).nextExpected (max (r.stream client).maxSeqSeen
            (r.stream client).nextExpected + 1 - (r.stream client).nextExpected)).2 :=
      fun _ => rfl
    have streams : ∀ (r : Replica) (id : Nat), (r.expire id).stream client = r.stream client :=
      fun _ _ => rfl
    rw [fired, fired, streams, streams, bounds, ← lockstep.alike.nextExpected]
    apply sends_scanGaps_congr (clock 0) clock
    · exact lockstep.identity
    · rw [stream_setStream, stream_setStream, if_pos rfl, if_pos rfl]
      exact untimed
    · intro follows
      rw [stream_setStream, stream_setStream, if_pos rfl, if_pos rfl]
      exact (lockstep.held follows gapMode).of_same rfl rfl
    · exact lockstep.started

/-- Whatever happens, the replicas stay in lockstep and tell the same of the client. -/
theorem undergo (lockstep : Lockstep client r r') (event : Event) :
    Lockstep client (r.undergo event).1 (r'.undergo event).1 ∧
      (r.undergo event).2.filter (·.msg.tellsOf client) =
        (r'.undergo event).2.filter (·.msg.tellsOf client) := by
  by_cases different : client ≠ event.clientId
  · constructor
    · exact lockstep.of_untouched
        (.undergo r event fun _ _ => lockstep.timed.callback_gapTimer)
        (.undergo r' event fun _ _ => lockstep.timed'.callback_gapTimer) different
    · rw [lockstep.timed.silent different, lockstep.timed'.silent different]
  · have about : event.clientId = client := (not_not.mp different).symm
    cases event with
    | message remote msg clock =>
        have sent := lockstep.sends about remote clock
        exact ⟨lockstep.receiveMessage about remote clock,
          congrArg (List.filter (·.msg.tellsOf client)) sent⟩
    | gapTimer clientId clock =>
        obtain rfl : clientId = client := about
        unfold Replica.undergo
        dsimp only
        rw [lockstep.timer]
        cases pending : r.gapTimer clientId with
        | none => exact ⟨lockstep, rfl⟩
        | some timer =>
            have owner := lockstep.timed.callback_gapTimer pending
            obtain ⟨fired, sent⟩ := lockstep.onGapTimeout clock (by rw [pending]; exact nofun)
            dsimp only
            rw [owner]
            exact ⟨fired, congrArg (List.filter (·.msg.tellsOf clientId)) sent⟩

/-- No events tell replicas apart that are in lockstep. -/
theorem indistinct (lockstep : Lockstep client r r') (events : List Event) :
    Indistinct client r r' events := by
  induction events generalizing r r' with
  | nil =>
      exact ⟨rfl, fun slot => (lockstep.alike.entries slot).1, lockstep.alike.nextExpected⟩
  | cons event events inductionHypothesis =>
      obtain ⟨next, sent⟩ := lockstep.undergo event
      have later := inductionHypothesis next
      constructor
      · unfold tells
        rw [sent, later.tells]
      · exact later.states
      · exact later.frontier

end Lockstep

/-! ## What a replica starts with -/

/-- Along any events the gap timers stay in order, and what the replica is does not change. -/
theorem timed_underwent {r : Replica} (timed : r.Timed) (events : List Event) :
    (r.underwent events).Timed := by
  induction events generalizing r with
  | nil => exact timed
  | cons event events inductionHypothesis => exact inductionHypothesis (timed.undergo event)

theorem identity_undergo {r : Replica} (timed : r.Timed) (event : Event) :
    (r.undergo event).1.identity = r.identity :=
  identity_of_writes (.undergo r event fun _ _ => timed.callback_gapTimer)

theorem identity_underwent {r : Replica} (timed : r.Timed) (events : List Event) :
    (r.underwent events).identity = r.identity := by
  induction events generalizing r with
  | nil => rfl
  | cons event events inductionHypothesis =>
      exact (inductionHypothesis (timed.undergo event)).trans (identity_undergo timed event)

/-- Events about other clients leave everything about a client as it was. -/
theorem untouched_underwent {r : Replica} (timed : r.Timed) {client : Nat} {events : List Event}
    (others : ∀ event ∈ events, event.clientId ≠ client) :
    Untouched client r (r.underwent events) := by
  induction events generalizing r with
  | nil => exact ⟨rfl, rfl, rfl⟩
  | cons event events inductionHypothesis =>
      have first := untouched_of_writes timed
        (.undergo r event fun _ _ => timed.callback_gapTimer)
        (Ne.symm (others event List.mem_cons_self))
      have rest := inductionHypothesis (timed.undergo event)
        fun later member => others later (List.mem_cons_of_mem _ member)
      exact ⟨rest.stream.trans first.stream, rest.address.trans first.address,
        rest.timer.trans first.timer⟩

/-- Outside gap mode no gap timer is ever pending. -/
theorem idle_undergo {r : Replica} (timed : r.Timed) (event : Event)
    (plain : r.options.gapEnabled = false) (idle : ∀ client, r.gapTimer client = none)
    (client : Nat) : (r.undergo event).1.gapTimer client = none := by
  by_cases different : client ≠ event.clientId
  · have kept := untouched_of_writes timed
      (.undergo r event fun _ _ => timed.callback_gapTimer) different
    rw [kept.timer]
    exact idle client
  · have about : event.clientId = client := (not_not.mp different).symm
    cases event with
    | message remote msg clock =>
        have unarmed : r.arming msg clock = none := by
          unfold arming
          split <;> simp [plain]
        obtain rfl : msg.clientId = client := about
        unfold undergo
        rw [gapTimer_receiveMessage, unarmed]
        exact idle msg.clientId
    | gapTimer clientId clock =>
        unfold undergo
        dsimp only
        rw [idle clientId]
        exact idle client

theorem idle_underwent {r : Replica} (timed : r.Timed) (events : List Event)
    (plain : r.options.gapEnabled = false) (idle : ∀ client, r.gapTimer client = none)
    (client : Nat) : (r.underwent events).gapTimer client = none := by
  induction events generalizing r with
  | nil => exact idle client
  | cons event events inductionHypothesis =>
      apply inductionHypothesis (timed.undergo event)
      · rw [options_congr (identity_undergo timed event)]
        exact plain
      · exact idle_undergo timed event plain idle

/-- A replica that has just started has no gap timers. -/
theorem gapTimer_new (config : Configuration) (replicaIdx : Nat) (options : Options)
    (client : Nat) : ({ config, replicaIdx, options } : Replica).gapTimer client = none :=
  (Timed.new config replicaIdx options).gapTimer_of_zero rfl

end Replica

end PaxosBus.Bus

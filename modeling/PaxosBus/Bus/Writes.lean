import PaxosBus.Bus.Detection

/-!
# What a handler writes

Whatever a replica does about a client is a sequence of writes to that client's
stream and address and of armings of its gap timer. Two laws follow once for all
handlers: a client has at most one gap timer pending, the one whose id is in its
stream; and nothing about another client is touched.
-/

set_option autoImplicit false

namespace PaxosBus.Bus

open Std PaxosBus.Common

/-- What happens to a replica: a message is handed to it, or the gap timer of a client fires. -/
inductive Event where
  | message (remote : Address) (msg : Message) (clock : Nat → Nat)
  | gapTimer (clientId : Nat) (clock : Nat → Nat)

/-- The client that an event is about. -/
def Event.clientId : Event → Nat
  | .message _ msg _ => msg.clientId
  | .gapTimer clientId _ => clientId

/-- After how many milliseconds a gap timer that is armed now fires. -/
def ClientStream.delayMs (s : ClientStream) (options : Options) (now : Nat) : Nat :=
  let ms := (s.deadlineNs options s.nextExpected - now).tdiv nsPerMs
  if ms ≤ 0 then options.deltaMs else ms.toNat

namespace Replica

variable (r : Replica)

/-- The gap timer that is pending for a client. -/
def gapTimer (clientId : Nat) : Option (PendingTimer Nat) :=
  r.timers.pending[(r.stream clientId).gapTimerId]?

/-- An event happens. A gap timer that is not pending does not fire. -/
def undergo : Event → Replica × List Send
  | .message remote msg clock => r.receiveMessage remote msg clock
  | .gapTimer clientId clock =>
    match r.gapTimer clientId with
    | none => (r, [])
    | some timer => (r.expire (r.stream clientId).gapTimerId).onGapTimeout timer.callback clock

/-- The gap timer that has fired is forgotten, by the transport and in the stream. -/
def forgetTimer (clientId : Nat) : Replica :=
  (r.expire (r.stream clientId).gapTimerId).setStream clientId (r.stream clientId).untimed

/-! ## Arming a gap timer -/

/-- Every timer that is armed has a new id. -/
theorem lastTimerId_armGapTimer (clientId now : Nat) :
    (r.armGapTimer clientId now).timers.lastTimerId = r.timers.lastTimerId + 1 := by
  unfold armGapTimer
  dsimp only [Timers.timer]
  split <;> rfl

/-- The stream of the client takes the id of the timer that is armed. -/
theorem stream_armGapTimer (clientId now other : Nat) :
    (r.armGapTimer clientId now).stream other =
      if clientId = other then
        { r.stream clientId with gapTimerId := r.timers.lastTimerId + 1 }
      else r.stream other := by
  have armed : (r.armGapTimer clientId now).clients = (r.setStream clientId { r.stream clientId with
      gapTimerId := r.timers.lastTimerId + 1 }).clients := by
    unfold armGapTimer
    dsimp only [Timers.timer]
    split <;> rfl
  have found : (r.armGapTimer clientId now).stream other = (r.setStream clientId
      { r.stream clientId with gapTimerId := r.timers.lastTimerId + 1 }).stream other := by
    simp only [stream, armed]
  rw [found, stream_setStream]

/-- The timer armed before is cancelled, and a new one is pending. -/
theorem pending_armGapTimer (clientId now id : Nat) :
    (r.armGapTimer clientId now).timers.pending[id]? =
      if id = r.timers.lastTimerId + 1 then
        some { ms := (r.stream clientId).delayMs r.options now, callback := clientId }
      else if (r.stream clientId).gapTimerId ≠ 0 ∧ id = (r.stream clientId).gapTimerId then none
      else r.timers.pending[id]? := by
  have cancelled : ∀ timers : Timers Nat,
      timers = (if (r.stream clientId).gapTimerId ≠ 0 then
        r.timers.cancelTimer (r.stream clientId).gapTimerId else r.timers) →
      timers.lastTimerId = r.timers.lastTimerId ∧ timers.pending[id]? =
        if (r.stream clientId).gapTimerId ≠ 0 ∧ id = (r.stream clientId).gapTimerId then none
        else r.timers.pending[id]? := by
    rintro timers rfl
    by_cases armed : (r.stream clientId).gapTimerId = 0
    · simp [armed]
    · refine ⟨by simp [armed, Timers.cancelTimer], ?_⟩
      simp [armed, Timers.cancelTimer, TreeMap.getElem?_erase]
      simp only [eq_comm]
  obtain ⟨last, pending⟩ := cancelled _ rfl
  have inserted : (r.armGapTimer clientId now).timers.pending[id]? =
      if (if (r.stream clientId).gapTimerId ≠ 0 then
        r.timers.cancelTimer (r.stream clientId).gapTimerId else r.timers).lastTimerId + 1 = id then
        some { ms := (r.stream clientId).delayMs r.options now, callback := clientId }
      else (if (r.stream clientId).gapTimerId ≠ 0 then
        r.timers.cancelTimer (r.stream clientId).gapTimerId else r.timers).pending[id]? := by
    unfold armGapTimer
    dsimp only [Timers.timer]
    rw [TreeMap.getElem?_insert]
    simp only [Std.compare_eq_iff_eq]
    rfl
  rw [inserted, last, pending]
  simp only [eq_comm]

/-! ## Writes about one client -/

/-- The later replica comes from the earlier one by writes about the client. -/
inductive Writes (clientId : Nat) : Replica → Replica → Prop where
  | refl (r : Replica) : Writes clientId r r
  | stream {first r : Replica} (prior : Writes clientId first r) (s : ClientStream)
      (sameTimer : s.gapTimerId = (r.stream clientId).gapTimerId) :
      Writes clientId first (r.setStream clientId s)
  | address {first r : Replica} (prior : Writes clientId first r) (remote : Address) :
      Writes clientId first (r.learnAddress clientId remote)
  | arm {first r : Replica} (prior : Writes clientId first r) (now : Nat) :
      Writes clientId first (r.armGapTimer clientId now)
  | forget {first r : Replica} (prior : Writes clientId first r) :
      Writes clientId first (r.forgetTimer clientId)

namespace Writes

variable {clientId : Nat} {first r last : Replica}

/-- Advancing writes the client's stream, and may arm its timer. -/
theorem advanceContiguous (prior : Writes clientId first r) (now : Nat) :
    Writes clientId first (r.advanceContiguous clientId now) := by
  have advanced : Writes clientId first (r.setStream clientId (r.stream clientId).advance) :=
    .stream prior _ rfl
  unfold Replica.advanceContiguous
  dsimp only
  split
  · exact .arm advanced now
  · exact advanced

/-- Recording writes the client's stream. -/
theorem recordReceived (prior : Writes clientId first r) (seq : Nat) (payload : String)
    (sendTimeNs now : Nat) :
    Writes clientId first (r.recordReceived clientId seq payload sendTimeNs now) := by
  unfold Replica.recordReceived
  dsimp only
  split <;> exact .stream prior _ rfl

/-- Resolving writes the client's stream. -/
theorem resolveGap (prior : Writes clientId first r) (slot now : Nat) :
    Writes clientId first (r.resolveGap clientId slot now).1 := by
  unfold Replica.resolveGap startGapAgreement sendGapRequest
  split <;> dsimp only <;> split <;> exact .stream prior _ rfl

/-- The scan writes the client's stream, slot by slot. -/
theorem scanGaps (prior : Writes clientId first r) (nowNs : Nat) (clock : Nat → Nat)
    (slot slots : Nat) :
    Writes clientId first (r.scanGaps clientId nowNs clock slot slots).1 := by
  induction slots generalizing r slot with
  | zero => exact prior
  | succ slots inductionHypothesis =>
      unfold Replica.scanGaps
      dsimp only
      split
      · exact inductionHypothesis prior (slot + 1)
      · split
        · exact prior
        · exact inductionHypothesis (prior.resolveGap slot (clock slot)) (slot + 1)

/-- The gap timer that is pending fires. -/
theorem onGapTimeout (prior : Writes clientId first r) (clock : Nat → Nat) :
    Writes clientId first
      ((r.expire (r.stream clientId).gapTimerId).onGapTimeout clientId clock).1 := by
  have forgotten : Writes clientId first (r.forgetTimer clientId) := .forget prior
  unfold Replica.onGapTimeout
  dsimp only
  exact (forgotten.scanGaps (clock 0) clock _ _).advanceContiguous _

/-- Data writes the client's stream and address. -/
theorem handleData (r : Replica) (remote : Address) (msg : DataMessage) (clock : Nat → Nat) :
    Writes msg.clientId r (r.handleData remote msg clock).1 := by
  unfold Replica.handleData
  split
  · exact .refl r
  · rename_i s found
    have sameTimer : s.gapTimerId =
        ((r.learnAddress msg.clientId remote).stream msg.clientId).gapTimerId := by
      simp [Replica.stream, learnAddress, found]
    have learned : Writes msg.clientId r (r.learnAddress msg.clientId remote) :=
      .address (.refl r) remote
    dsimp only
    split
    · exact .stream learned _ sameTimer
    · have anchored : Writes msg.clientId r ((r.learnAddress msg.clientId remote).setStream
          msg.clientId ((s.noteSeq msg.seqNum).reanchor msg.seqNum (clock 0))) :=
        .stream learned _ sameTimer
      split
      · exact (anchored.recordReceived _ _ _ _).advanceContiguous _
      · exact anchored

/-- Receiving a message writes about the client that it is about. -/
theorem receiveMessage (r : Replica) (remote : Address) (msg : Message) (clock : Nat → Nat) :
    Writes msg.clientId r (r.receiveMessage remote msg clock).1 := by
  cases msg with
  | sync msg =>
      have started : Writes msg.clientId r (r.setStream msg.clientId
          ((r.stream msg.clientId).resync msg (clock 0))) := .stream (.refl r) _ rfl
      exact .address started remote
  | data msg => exact handleData r remote msg clock
  | dataReply msg => exact .refl r
  | gapRequest msg =>
      unfold Replica.receiveMessage handleGapRequest
      dsimp only
      split
      · split <;> exact .stream (.refl r) _ rfl
      · exact .refl r
  | gapReply msg =>
      unfold Replica.receiveMessage handleGapReply
      dsimp only
      split
      · have touched : Writes msg.clientId r
            (r.setStream msg.clientId (r.stream msg.clientId)) := .stream (.refl r) _ rfl
        split
        · exact touched
        · have recorded := touched.recordReceived msg.seqNum msg.payload msg.sendTimeNs (clock 0)
          have dropped := Writes.stream recorded (ClientStream.dropRequest
            (Replica.stream _ msg.clientId) msg.seqNum) rfl
          exact dropped.advanceContiguous _
      · exact .refl r
  | gapCommit msg =>
      have dropped : Writes msg.clientId r (r.setStream msg.clientId
          (((r.stream msg.clientId).setEntry msg.seqNum
            { (r.stream msg.clientId).entry msg.seqNum with state := .noop }).dropRequest
              msg.seqNum)) := .stream (.refl r) _ rfl
      exact dropped.advanceContiguous _
  | gapCommitReply msg =>
      unfold Replica.receiveMessage handleGapCommitReply
      dsimp only
      split
      · split
        · split <;> exact .stream (.refl r) _ rfl
        · exact .stream (.refl r) _ rfl
      · exact .refl r

/-- An event writes about the client that it is about. -/
theorem undergo (r : Replica) (event : Event)
    (owned : ∀ clientId timer, r.gapTimer clientId = some timer → timer.callback = clientId) :
    Writes event.clientId r (r.undergo event).1 := by
  cases event with
  | message remote msg clock => exact receiveMessage r remote msg clock
  | gapTimer client clock =>
      unfold Replica.undergo
      dsimp only
      split
      · exact .refl r
      · rename_i timer pending
        rw [owned client timer pending]
        exact onGapTimeout (.refl r) clock

end Writes

/-! ## One gap timer for each client -/

/-- Every pending timer is the gap timer of its client, and every id in a stream is that of a
pending timer of the client. -/
structure Timed (r : Replica) : Prop where
  owned : ∀ {id timer}, r.timers.pending[id]? = some timer →
    id ≠ 0 ∧ id ≤ r.timers.lastTimerId ∧ (r.stream timer.callback).gapTimerId = id
  armed : ∀ {clientId}, (r.stream clientId).gapTimerId ≠ 0 →
    ∃ timer, r.gapTimer clientId = some timer ∧ timer.callback = clientId

namespace Timed

variable {r : Replica} {clientId : Nat}

/-- A client without a gap timer in its stream has none pending. -/
theorem gapTimer_of_zero (timed : r.Timed) (none_ : (r.stream clientId).gapTimerId = 0) :
    r.gapTimer clientId = none := by
  unfold gapTimer
  rw [none_]
  cases pending : r.timers.pending[0]? with
  | none => rfl
  | some timer => exact absurd rfl (timed.owned pending).1

/-- The gap timer that is pending for a client is its own. -/
theorem callback_gapTimer (timed : r.Timed) {timer : PendingTimer Nat}
    (pending : r.gapTimer clientId = some timer) : timer.callback = clientId := by
  by_cases zero : (r.stream clientId).gapTimerId = 0
  · rw [timed.gapTimer_of_zero zero] at pending
    cases pending
  · obtain ⟨own, pending', callback⟩ := timed.armed zero
    rw [pending] at pending'
    cases pending'
    exact callback

/-- A timer of a client that is pending is the one in its stream. -/
theorem gapTimer_of_pending (timed : r.Timed) {id : Nat} {timer : PendingTimer Nat}
    (pending : r.timers.pending[id]? = some timer) :
    r.gapTimer timer.callback = some timer := by
  unfold gapTimer
  rw [(timed.owned pending).2.2]
  exact pending

/-- Two clients do not share a pending timer. -/
theorem gapTimerId_ne (timed : r.Timed) {other : Nat} (different : other ≠ clientId)
    (armed : (r.stream other).gapTimerId ≠ 0) :
    (r.stream other).gapTimerId ≠ (r.stream clientId).gapTimerId := by
  intro same
  obtain ⟨timer, pending, callback⟩ := timed.armed armed
  have own : r.gapTimer clientId = some timer := by
    unfold gapTimer at pending ⊢
    rwa [← same]
  exact different (callback.symm.trans (timed.callback_gapTimer own))

/-- The stream that is stored has the timer that it had. -/
theorem stream_gapTimerId_setStream {s : ClientStream}
    (sameTimer : s.gapTimerId = (r.stream clientId).gapTimerId) (other : Nat) :
    ((r.setStream clientId s).stream other).gapTimerId = (r.stream other).gapTimerId := by
  rw [stream_setStream]
  split
  · rename_i same
    rw [sameTimer, same]
  · rfl

/-- Timers and streams still belong together when a stream with its own timer is stored. -/
theorem setStream (timed : r.Timed) {s : ClientStream}
    (sameTimer : s.gapTimerId = (r.stream clientId).gapTimerId) :
    (r.setStream clientId s).Timed := by
  have ids := stream_gapTimerId_setStream sameTimer
  constructor
  · intro id timer pending
    rw [ids]
    exact timed.owned pending
  · intro other armed
    rw [ids] at armed
    unfold gapTimer
    rw [ids]
    exact timed.armed armed

/-- An address is no timer. -/
theorem learnAddress (timed : r.Timed) (remote : Address) :
    (r.learnAddress clientId remote).Timed where
  owned := timed.owned
  armed := timed.armed

/-- Arming leaves the timers of the other clients pending. -/
theorem gapTimer_armGapTimer (timed : r.Timed) (now : Nat) {other : Nat}
    (different : other ≠ clientId) :
    (r.armGapTimer clientId now).gapTimer other = r.gapTimer other := by
  have stream : (r.armGapTimer clientId now).stream other = r.stream other := by
    rw [stream_armGapTimer, if_neg (Ne.symm different)]
  unfold gapTimer
  rw [stream, pending_armGapTimer]
  by_cases zero : (r.stream other).gapTimerId = 0
  · rw [zero, if_neg (by omega), if_neg]
    rintro ⟨armed, same⟩
    exact armed same.symm
  · obtain ⟨timer, pending, _⟩ := timed.armed zero
    have old := (timed.owned pending).2.1
    rw [if_neg (by omega), if_neg]
    rintro ⟨_, same⟩
    exact timed.gapTimerId_ne different zero same

/-- The timer that is pending is the one that has been armed. -/
theorem gapTimer_armGapTimer_self (r : Replica) (clientId now : Nat) :
    (r.armGapTimer clientId now).gapTimer clientId =
      some { ms := (r.stream clientId).delayMs r.options now, callback := clientId } := by
  unfold gapTimer
  rw [stream_armGapTimer, if_pos rfl, pending_armGapTimer, if_pos rfl]

/-- The timer that was armed before is cancelled, and the new one is the stream's. -/
theorem armGapTimer (timed : r.Timed) (now : Nat) : (r.armGapTimer clientId now).Timed := by
  constructor
  · intro id timer pending
    rw [lastTimerId_armGapTimer]
    rw [pending_armGapTimer] at pending
    split at pending
    · rename_i new
      obtain rfl := Option.some.inj pending
      rw [stream_armGapTimer, if_pos rfl]
      exact ⟨by omega, by omega, new.symm⟩
    · split at pending
      · cases pending
      · rename_i kept
        obtain ⟨nonzero, bounded, own⟩ := timed.owned pending
        have different : clientId ≠ timer.callback := by
          rintro rfl
          exact kept ⟨by rw [own]; exact nonzero, own.symm⟩
        rw [stream_armGapTimer, if_neg different]
        exact ⟨nonzero, by omega, own⟩
  · intro other armed
    by_cases same : other = clientId
    · subst same
      exact ⟨_, gapTimer_armGapTimer_self r other now, rfl⟩
    · rw [timed.gapTimer_armGapTimer now same]
      rw [stream_armGapTimer, if_neg (Ne.symm same)] at armed
      exact timed.armed armed

/-- Only the client's stream forgets its timer. -/
theorem stream_forgetTimer (r : Replica) (clientId other : Nat) :
    (r.forgetTimer clientId).stream other =
      if clientId = other then (r.stream clientId).untimed else r.stream other := by
  unfold forgetTimer
  rw [stream_setStream]
  rfl

/-- The timer that is forgotten is pending no more. -/
theorem pending_forgetTimer (r : Replica) (clientId id : Nat) :
    (r.forgetTimer clientId).timers.pending[id]? =
      if (r.stream clientId).gapTimerId = id then none else r.timers.pending[id]? := by
  have erased : (r.forgetTimer clientId).timers.pending =
      r.timers.pending.erase (r.stream clientId).gapTimerId := rfl
  rw [erased, TreeMap.getElem?_erase]
  simp only [Std.compare_eq_iff_eq]

/-- Forgetting one timer leaves those of the other clients pending. -/
theorem gapTimer_forgetTimer (timed : r.Timed) {other : Nat} (different : other ≠ clientId) :
    (r.forgetTimer clientId).gapTimer other = r.gapTimer other := by
  unfold gapTimer
  rw [stream_forgetTimer, if_neg (Ne.symm different), pending_forgetTimer]
  split
  · rename_i same
    by_cases zero : (r.stream other).gapTimerId = 0
    · exact (timed.gapTimer_of_zero zero).symm
    · exact absurd same.symm (timed.gapTimerId_ne different zero)
  · rfl

/-- Timers and streams belong together when a timer has been forgotten on both sides. -/
theorem forgetTimer (timed : r.Timed) : (r.forgetTimer clientId).Timed := by
  constructor
  · intro id timer pending
    rw [pending_forgetTimer] at pending
    split at pending
    · cases pending
    · rename_i kept
      obtain ⟨nonzero, bounded, own⟩ := timed.owned pending
      have different : clientId ≠ timer.callback := by
        rintro rfl
        exact kept own
      rw [stream_forgetTimer, if_neg different]
      exact ⟨nonzero, bounded, own⟩
  · intro other armed
    rw [stream_forgetTimer] at armed
    split at armed
    · exact absurd rfl armed
    · rename_i different
      rw [timed.gapTimer_forgetTimer (Ne.symm different)]
      exact timed.armed armed

/-- Writes keep the gap timers in order. -/
theorem of_writes (timed : r.Timed) {last : Replica} (writes : Writes clientId r last) :
    last.Timed := by
  induction writes with
  | refl => exact timed
  | stream _ s sameTimer inductionHypothesis => exact inductionHypothesis.setStream sameTimer
  | address _ remote inductionHypothesis => exact inductionHypothesis.learnAddress remote
  | arm _ now inductionHypothesis => exact inductionHypothesis.armGapTimer now
  | forget _ inductionHypothesis => exact inductionHypothesis.forgetTimer

/-- A replica that has just started has no timers. -/
theorem new (config : Configuration) (replicaIdx : Nat) (options : Options) :
    Timed { config, replicaIdx, options } where
  owned pending := by cases pending
  armed armed := absurd rfl armed

/-- An event keeps the gap timers in order. -/
theorem undergo (timed : r.Timed) (event : Event) : (r.undergo event).1.Timed :=
  timed.of_writes (.undergo r event fun _ _ => timed.callback_gapTimer)

end Timed

/-! ## The other clients -/

/-- Nothing about the client has changed. -/
structure Untouched (client : Nat) (r r' : Replica) : Prop where
  stream : r'.clients[client]? = r.clients[client]?
  address : r'.clientAddr[client]? = r.clientAddr[client]?
  timer : r'.gapTimer client = r.gapTimer client

/-- Writes about one client touch no other. -/
theorem untouched_of_writes {r last : Replica} {clientId client : Nat} (timed : r.Timed)
    (writes : Writes clientId r last) (different : client ≠ clientId) :
    Untouched client r last := by
  induction writes with
  | refl => exact ⟨rfl, rfl, rfl⟩
  | stream prior s sameTimer inductionHypothesis =>
      rename_i middle
      refine ⟨?_, inductionHypothesis.address, ?_⟩
      · rw [← inductionHypothesis.stream]
        simp [setStream, TreeMap.getElem?_insert, Ne.symm different]
      · rw [← inductionHypothesis.timer]
        have sameStream : (middle.setStream clientId s).stream client = middle.stream client := by
          rw [stream_setStream, if_neg (Ne.symm different)]
        unfold gapTimer
        rw [sameStream]
        rfl
  | address prior remote inductionHypothesis =>
      refine ⟨inductionHypothesis.stream, ?_, inductionHypothesis.timer⟩
      rw [← inductionHypothesis.address]
      simp [learnAddress, TreeMap.getElem?_insert, Ne.symm different]
  | arm prior now inductionHypothesis =>
      refine ⟨?_, inductionHypothesis.address, ?_⟩
      · rw [← inductionHypothesis.stream]
        unfold armGapTimer
        simp [setStream, TreeMap.getElem?_insert, Ne.symm different]
      · rw [← inductionHypothesis.timer]
        exact (timed.of_writes prior).gapTimer_armGapTimer now different
  | forget prior inductionHypothesis =>
      refine ⟨?_, inductionHypothesis.address, ?_⟩
      · rw [← inductionHypothesis.stream]
        simp [forgetTimer, expire, setStream, TreeMap.getElem?_insert, Ne.symm different]
      · rw [← inductionHypothesis.timer]
        exact (timed.of_writes prior).gapTimer_forgetTimer different

/-- Writes do not change what the replica is. -/
theorem identity_of_writes {r last : Replica} {clientId : Nat} (writes : Writes clientId r last) :
    last.identity = r.identity := by
  induction writes with
  | refl => rfl
  | stream _ _ _ inductionHypothesis => exact inductionHypothesis
  | address _ _ inductionHypothesis => exact inductionHypothesis
  | arm _ _ inductionHypothesis => exact inductionHypothesis
  | forget _ inductionHypothesis => exact inductionHypothesis

end Replica

end PaxosBus.Bus

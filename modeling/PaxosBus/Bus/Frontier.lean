import PaxosBus.Bus.Streams
import PaxosBus.Bus.Committed

/-!
# The contiguity frontier

`nextExpected` is the first slot of a stream that is neither RECEIVED nor NOOP.
Data, recovered data, NoOp commits and the gap timer fill slots anywhere in the
log, so it is enough that each of them walks the frontier over what it has
filled, or fills nothing. A repeated `Sync` would put the frontier back to slot
one of a log that is kept; the runs here handle each client's `Sync` first and
only once.
-/

set_option autoImplicit false

namespace PaxosBus.Bus

open Std PaxosBus.Common PaxosBus.Library

namespace ClientStream

/-- The frontier of the stream is its first slot that is not resolved. -/
structure Contiguous (s : ClientStream) : Prop where
  started : 1 ≤ s.nextExpected
  resolved : ∀ slot, 1 ≤ slot → slot < s.nextExpected →
    (s.entry slot).state = .received ∨ (s.entry slot).state = .noop
  missing : (s.entry s.nextExpected).state = .empty

/-- Slots are filled, and the frontier waits. -/
structure Fills (s s' : ClientStream) : Prop where
  waits : s'.nextExpected = s.nextExpected
  kept : ∀ slot, s.filled slot = true → s'.filled slot = true

/-- Either nothing is filled and the frontier stays, or the frontier is walked over all that is
filled. -/
structure Advances (s s' : ClientStream) : Prop where
  kept : ∀ slot, s.filled slot = true → s'.filled slot = true
  onward : (s'.nextExpected = s.nextExpected ∧ ∀ slot, s'.filled slot = s.filled slot) ∨
    s'.nextExpected = s'.frontierFrom s'.log.size s.nextExpected

variable {s s' s'' : ClientStream}

/-- A slot is filled if it is not EMPTY, -/
theorem filled_eq_true {slot : Nat} : s.filled slot = true ↔ (s.entry slot).state ≠ .empty := by
  simp [filled]

/-- and otherwise it is EMPTY. -/
theorem filled_eq_false {slot : Nat} : s.filled slot = false ↔ (s.entry slot).state = .empty := by
  simp [filled]

/-- A filled slot is RECEIVED or NOOP. -/
theorem resolved_of_filled {slot : Nat} (filled : s.filled slot = true) :
    (s.entry slot).state = .received ∨ (s.entry slot).state = .noop := by
  rw [filled_eq_true] at filled
  cases state : (s.entry slot).state with
  | empty => exact absurd state filled
  | received => exact .inl rfl
  | noop => exact .inr rfl

/-- A slot that is RECEIVED or NOOP is filled. -/
theorem filled_of_resolved {slot : Nat}
    (resolved : (s.entry slot).state = .received ∨ (s.entry slot).state = .noop) :
    s.filled slot = true := by
  rw [filled_eq_true]
  rcases resolved with received | noop
  · simp [received]
  · simp [noop]

/-- Streams with the same log have the same slots filled. -/
theorem filled_congr (same : s'.log = s.log) (slot : Nat) : s'.filled slot = s.filled slot := by
  rw [filled, filled, entry_congr same]

/-- The walk of the frontier depends on the log only. -/
theorem frontierFrom_congr (same : s'.log = s.log) (rounds next : Nat) :
    s'.frontierFrom rounds next = s.frontierFrom rounds next := by
  induction rounds generalizing next with
  | zero => rfl
  | succ rounds inductionHypothesis =>
      unfold frontierFrom
      rw [filled_congr same, inductionHypothesis]

/-- The walk of the frontier does not go back. -/
theorem le_frontierFrom (s : ClientStream) (rounds next : Nat) :
    next ≤ s.frontierFrom rounds next := by
  induction rounds generalizing next with
  | zero => exact Nat.le_refl next
  | succ rounds inductionHypothesis =>
      unfold frontierFrom
      split
      · exact Nat.le_trans (Nat.le_succ next) (inductionHypothesis (next + 1))
      · exact Nat.le_refl next

/-- The id of the gap timer is not part of the frontier. -/
theorem Contiguous.of_untimed (same : s'.untimed = s.untimed) (contiguous : s.Contiguous) :
    s'.Contiguous := by
  have log : s'.log = s.log := by
    have sameLog := congrArg ClientStream.log same
    exact sameLog
  have next : s'.nextExpected = s.nextExpected := by
    have sameNext := congrArg ClientStream.nextExpected same
    exact sameNext
  have entries : ∀ slot, s'.entry slot = s.entry slot := entry_congr log
  constructor
  · rw [next]
    exact contiguous.started
  · intro slot low high
    rw [entries]
    exact contiguous.resolved slot low (next ▸ high)
  · rw [next, entries]
    exact contiguous.missing

namespace Advances

/-- The frontier does not go back. -/
theorem le (advances : s.Advances s') : s.nextExpected ≤ s'.nextExpected := by
  rcases advances.onward with ⟨same, _⟩ | walked
  · exact Nat.le_of_eq same.symm
  · rw [walked]
    exact s'.le_frontierFrom _ _

/-- The frontier ends at the first slot that is not resolved. -/
theorem contiguous (advances : s.Advances s') (before : s.Contiguous) : s'.Contiguous := by
  constructor
  · exact Nat.le_trans before.started advances.le
  · intro slot low high
    apply resolved_of_filled
    by_cases old : slot < s.nextExpected
    · exact advances.kept slot (filled_of_resolved (before.resolved slot low old))
    · rcases advances.onward with ⟨same, _⟩ | walked
      · omega
      · rw [walked] at high
        exact s'.filled_of_lt_frontierFrom _ _ slot (by omega) high
  · rw [← filled_eq_false]
    rcases advances.onward with ⟨same, unchanged⟩ | walked
    · rw [unchanged, same, filled_eq_false]
      exact before.missing
    · rw [walked]
      exact s'.filled_frontierFrom_size s.nextExpected

/-- Nothing is filled and the frontier stays. -/
theorem of_same (log : s'.log = s.log) (next : s'.nextExpected = s.nextExpected) :
    s.Advances s' where
  kept slot filled := by
    rw [filled_congr log]
    exact filled
  onward := .inl ⟨next, filled_congr log⟩

end Advances

namespace Fills

theorem refl (s : ClientStream) : s.Fills s := ⟨rfl, fun _ filled => filled⟩

/-- What is filled in two steps is filled. -/
theorem trans (first : s.Fills s') (second : s'.Fills s'') : s.Fills s'' where
  waits := second.waits.trans first.waits
  kept slot filled := second.kept slot (first.kept slot filled)

/-- Nothing is filled. -/
theorem of_same (log : s'.log = s.log) (next : s'.nextExpected = s.nextExpected) : s.Fills s' where
  waits := next
  kept slot filled := by
    rw [filled_congr log]
    exact filled

/-- What has been filled is followed by a walk of the frontier. -/
theorem advance (fills : s.Fills s') : s.Advances s'.advance where
  kept slot filled := fills.kept slot filled
  onward := by
    have walk : s'.advance.frontierFrom s'.log.size s.nextExpected =
        s'.frontierFrom s'.log.size s.nextExpected := by
      apply frontierFrom_congr
      rfl
    have reached : s'.advance.nextExpected = s'.frontierFrom s'.log.size s'.nextExpected := rfl
    exact .inr (by rw [reached, fills.waits]; exact walk.symm)

end Fills

/-- A slot is filled by writing data or a NoOp into it. -/
theorem fills_setEntry (s : ClientStream) (seq : Nat) {e : LogEntry} (full : e.state ≠ .empty) :
    s.Fills (s.setEntry seq e) where
  waits := rfl
  kept slot filled := by
    rw [filled_eq_true, entry_setEntry]
    split
    · exact full
    · exact filled_eq_true.mp filled

/-- A request fills its slot if that is EMPTY. -/
theorem fills_record (s : ClientStream) (seq : Nat) (payload : String) (sendTimeNs now : Nat) :
    s.Fills (s.record seq payload sendTimeNs now) := by
  have noted : s.Fills (s.noteSeq seq) := .of_same rfl rfl
  unfold record
  split
  · exact noted
  · apply noted.trans
    apply fills_setEntry
    simp

/-- A slot that becomes a NOOP is filled. -/
theorem fills_nullify (s : ClientStream) (seq now : Nat) : s.Fills (s.nullify seq now) := by
  unfold nullify
  split
  · exact .refl s
  · have written : s.Fills (s.setEntry seq { s.entry seq with state := .noop }) := by
      apply fills_setEntry
      simp
    exact written.trans (.of_same rfl rfl)

/-- A gap is resolved by a NOOP, or asked for, which fills nothing. -/
theorem fills_resolve (s : ClientStream) (leader : Bool) (options : Options) (seq now : Nat) :
    s.Fills (s.resolve leader options seq now) := by
  unfold resolve
  split
  · exact s.fills_nullify seq now
  · unfold ask
    split
    · exact .refl s
    · exact .of_same rfl rfl

/-- The scan fills slots one after the other. -/
theorem fills_scan (s : ClientStream) (leader : Bool) (options : Options) (nowNs : Nat)
    (clock : Nat → Nat) (slot slots : Nat) :
    s.Fills (s.scan leader options nowNs clock slot slots) := by
  induction slots generalizing s slot with
  | zero => exact .refl s
  | succ slots inductionHypothesis =>
      unfold scan
      split
      · exact inductionHypothesis s (slot + 1)
      · split
        · exact .refl s
        · exact (s.fills_resolve leader options slot (clock slot)).trans
            (inductionHypothesis _ (slot + 1))

/-- Data is recorded and the frontier walked, or dropped. -/
theorem advances_takeData (s : ClientStream) (gapMode dropped : Bool) (msg : DataMessage)
    (clock : Nat → Nat) : s.Advances (s.takeData gapMode dropped msg clock) := by
  unfold takeData
  split
  · exact .of_same rfl rfl
  · dsimp only
    split
    · have anchored : s.Fills ((s.noteSeq msg.seqNum).reanchor msg.seqNum (clock 0)) :=
        .of_same rfl rfl
      exact (anchored.trans (fills_record _ _ _ _ _)).advance
    · exact .of_same rfl rfl

/-- A gap reply that brings the entry is recorded like data. -/
theorem advances_takeReply (s : ClientStream) (msg : GapReplyMessage) (now : Nat) :
    s.Advances (s.takeReply msg now) := by
  unfold takeReply
  split
  · have recorded := s.fills_record msg.seqNum msg.payload msg.sendTimeNs now
    have dropped : s.Fills ((s.record msg.seqNum msg.payload msg.sendTimeNs now).dropRequest
        msg.seqNum) := recorded.trans (.of_same rfl rfl)
    exact dropped.advance
  · exact .of_same rfl rfl

/-- A slot that has become a NOOP may let the frontier pass. -/
theorem advances_takeCommit (s : ClientStream) (seq : Nat) : s.Advances (s.takeCommit seq) := by
  have written : s.Fills (s.setEntry seq { s.entry seq with state := .noop }) := by
    apply fills_setEntry
    simp
  have dropped : s.Fills ((s.setEntry seq { s.entry seq with state := .noop }).dropRequest seq) :=
    written.trans (.of_same rfl rfl)
  exact dropped.advance

/-- Counting an acknowledgement fills nothing. -/
theorem advances_takeAck (s : ClientStream) (needed : Nat) (msg : GapCommitReplyMessage) :
    s.Advances (s.takeAck needed msg) := by
  unfold takeAck
  split
  · dsimp only
    split <;> exact .of_same rfl rfl
  · exact .of_same rfl rfl

/-- The timer walks the frontier over what it has filled. -/
theorem advances_scanned (s : ClientStream) (leader : Bool) (options : Options)
    (clock : Nat → Nat) : s.Advances (s.untimed.scanned leader options clock).advance := by
  have untimed : s.Fills s.untimed := .of_same rfl rfl
  have scanned : s.untimed.Fills (s.untimed.scanned leader options clock) :=
    s.untimed.fills_scan leader options (clock 0) clock _ _
  exact (untimed.trans scanned).advance

/-- A stream that has just been created and synchronised waits for slot one. -/
theorem contiguous_resync (msg : SyncMessage) (recvNs : Nat) :
    (({} : ClientStream).resync msg recvNs).Contiguous where
  started := Nat.le_refl 1
  resolved _ low high := absurd low (Nat.not_le.mpr high)
  missing := rfl

end ClientStream

namespace Replica

variable (r : Replica)

/-- The message is the first `Sync` of its client, or comes after it: a replica that handles
every message so has a stream for exactly the clients whose `Sync` it has handled. -/
def InOrder (msg : Message) : Prop :=
  match msg with
  | .sync msg => (r.clients[msg.clientId]?).isNone = true
  | msg => (r.clients[msg.clientId]?).isSome = true

instance (msg : Message) : Decidable (r.InOrder msg) := by
  unfold InOrder
  exact match msg with
  | .sync _ => inferInstance
  | .data _ => inferInstance
  | .dataReply _ => inferInstance
  | .gapRequest _ => inferInstance
  | .gapReply _ => inferInstance
  | .gapCommit _ => inferInstance
  | .gapCommitReply _ => inferInstance

/-- Whatever a message is that comes in order, the stream of its client is the one that the
`Sync` has started, or it advances. -/
theorem advances_takes (msg : Message) (clock : Nat → Nat) (inOrder : r.InOrder msg) :
    (r.stream msg.clientId).Advances (r.takes msg clock (r.stream msg.clientId)) ∨
      r.stream msg.clientId = {} ∧ ∃ sync, msg = .sync sync := by
  cases msg with
  | sync msg =>
      have absent : r.clients[msg.clientId]? = none := Option.isNone_iff_eq_none.mp inOrder
      exact .inr ⟨by simp [stream, Message.clientId, absent], msg, rfl⟩
  | data msg =>
      unfold takes
      dsimp only
      split
      · exact .inl (ClientStream.advances_takeData _ _ _ _ _)
      · exact .inl (.of_same rfl rfl)
  | dataReply msg => exact .inl (.of_same rfl rfl)
  | gapRequest msg => exact .inl (.of_same rfl rfl)
  | gapReply msg => exact .inl (ClientStream.advances_takeReply _ _ _)
  | gapCommit msg => exact .inl (ClientStream.advances_takeCommit _ _)
  | gapCommitReply msg =>
      unfold takes
      dsimp only
      split
      · exact .inl (ClientStream.advances_takeAck _ _ _)
      · exact .inl (.of_same rfl rfl)

/-- One handler leaves the frontier of a stream at its first unresolved slot, and does not put
it back. -/
def Onward (r' : Replica) : Prop :=
  ∀ client, (r.stream client).Contiguous →
    (r'.stream client).Contiguous ∧
      (r.stream client).nextExpected ≤ (r'.stream client).nextExpected

/-- A message that comes in order moves every frontier onward. -/
theorem onward_receiveMessage (remote : Address) (msg : Message) (clock : Nat → Nat)
    (inOrder : r.InOrder msg) : r.Onward (r.receiveMessage remote msg clock).1 := by
  intro client contiguous
  have after := r.untimed_receiveMessage client remote msg clock
  have next := congrArg ClientStream.nextExpected after
  split at after
  · rename_i same
    subst same
    rw [if_pos rfl] at next
    rcases r.advances_takes msg clock inOrder with advances | ⟨fresh, sync, rfl⟩
    · refine ⟨(advances.contiguous contiguous).of_untimed after, ?_⟩
      exact Nat.le_trans advances.le (Nat.le_of_eq next.symm)
    · have started : (r.takes (.sync sync) clock (r.stream sync.clientId)).Contiguous := by
        rw [show r.stream sync.clientId = {} from fresh]
        exact ClientStream.contiguous_resync sync (clock 0)
      refine ⟨started.of_untimed after, ?_⟩
      rw [fresh]
      exact Nat.le_of_eq next.symm
  · rename_i elsewhere
    rw [if_neg elsewhere] at next
    exact ⟨contiguous.of_untimed after, Nat.le_of_eq next.symm⟩

/-- The gap timer moves every frontier onward. -/
theorem onward_onGapTimeout (clientId : Nat) (clock : Nat → Nat) :
    r.Onward (r.onGapTimeout clientId clock).1 := by
  intro client contiguous
  have after := r.untimed_onGapTimeout clientId client clock
  have next := congrArg ClientStream.nextExpected after
  split at after
  · rename_i same
    subst same
    rw [if_pos rfl] at next
    have advances := (r.stream clientId).advances_scanned r.amLeader r.options clock
    refine ⟨(advances.contiguous contiguous).of_untimed after, ?_⟩
    exact Nat.le_trans advances.le (Nat.le_of_eq next.symm)
  · rename_i elsewhere
    rw [if_neg elsewhere] at next
    exact ⟨contiguous.of_untimed after, Nat.le_of_eq next.symm⟩

/-- It does so whatever timers are pending. -/
theorem onward_fire (timers : Timers Nat) (clientId : Nat) (clock : Nat → Nat) :
    r.Onward ({ r with timers }.onGapTimeout clientId clock).1 :=
  onward_onGapTimeout { r with timers } clientId clock

end Replica

namespace System

/-- Every replica handles each client's `Sync` once and before any other message of the client. -/
abbrev SyncsFirst : System → Action → Prop := Admitting Replica.InOrder

/-- Every frontier of every replica is at the first unresolved slot of its stream. -/
def Contiguous (s : System) : Prop :=
  ∀ idx client, ((s.replicas idx).stream client).Contiguous

/-- In every run in which each stream is synced first, the frontiers are where they should be. -/
theorem contiguous_invariant (d : Deployment) :
    (system d).Invariant SyncsFirst Contiguous := by
  apply replica_invariant d (fun r => ∀ client, (r.stream client).Contiguous)
  · intro idx client
    exact ⟨Nat.le_refl 1, fun _ low high => absurd low (Nat.not_le.mpr high), rfl⟩
  · intro r remote msg clock contiguous inOrder client
    exact (r.onward_receiveMessage remote msg clock inOrder client (contiguous client)).1
  · intro r id clock timer contiguous pending client
    exact (r.onward_fire _ timer.callback clock client (contiguous client)).1

/-- No step that keeps to the order puts a frontier back. -/
theorem nextExpected_step {d : Deployment} {s s' : System} {action : Action}
    (contiguous : s.Contiguous) (syncsFirst : s.SyncsFirst action)
    (transition : (system d).step s action = some s') (idx client : Nat) :
    ((s.replicas idx).stream client).nextExpected ≤
      ((s'.replicas idx).stream client).nextExpected := by
  rcases replica_step transition idx with same |
    ⟨position, clock, packet, rfl, found, addressed, received⟩ |
    ⟨id, clock, timer, rfl, pending, fired⟩
  · rw [same]
  · rw [received]
    exact (Replica.onward_receiveMessage _ _ _ _ (syncsFirst packet found idx addressed) client
      (contiguous idx client)).2
  · rw [fired]
    exact (Replica.onward_fire _ _ timer.callback clock client (contiguous idx client)).2

/-- Along every run in which each replica handles a client's `Sync` first and only once, all slots
of a stream below its frontier are resolved, the slot at the frontier is not, and no frontier ever
goes back. -/
theorem contiguous_of_syncsFirst (d : Deployment) (s : System)
    (reachable : (system d).Reachable SyncsFirst s) :
    (∀ idx client, ((s.replicas idx).stream client).Contiguous) ∧
      ∀ actions s', (system d).Steps SyncsFirst s actions s' → ∀ idx client,
        ((s.replicas idx).stream client).nextExpected ≤
          ((s'.replicas idx).stream client).nextExpected := by
  have invariant := contiguous_invariant d
  have contiguous := invariant.of_reachable reachable
  refine ⟨contiguous, fun actions s' steps idx client => ?_⟩
  induction steps with
  | refl => exact Nat.le_refl _
  | step prior admitted transition inductionHypothesis =>
      have before := invariant.of_steps contiguous prior
      exact Nat.le_trans inductionHypothesis
        (nextExpected_step before admitted transition idx client)

set_option maxRecDepth 10000 in
/-- The prompt run keeps to the order and moves the leader's frontier. -/
theorem contiguous_promptRun : ∃ s : System,
    ((s.replicas 0).stream 7).nextExpected = 2 ∧ ((s.replicas 0).stream 7).Contiguous := by
  obtain ⟨s, reachable, moved⟩ :=
    (system trio).exists_reachable_of_run SyncsFirst
      (fun s => decide (((s.replicas 0).stream 7).nextExpected = 2)) promptRun rfl (by decide)
  exact ⟨s, of_decide_eq_true moved, (contiguous_of_syncsFirst trio s reachable).1 0 7⟩

end System

end PaxosBus.Bus

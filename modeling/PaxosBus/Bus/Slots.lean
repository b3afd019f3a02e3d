import PaxosBus.Bus.Replica

/-!
# What each handler does to the slots of the log

One lemma per function says which log entries it may change and how. The
protocol proofs use these and never unfold a handler for its effect on the log.
Bookkeeping (timers, request times, acknowledgement sets) leaves every entry
alone; `recordReceived`, `startGapAgreement` and `handleGapCommit` write the one
slot they are about.
-/

set_option autoImplicit false

namespace PaxosBus.Bus

open Std PaxosBus.Common

namespace ClientStream

/-- An entry is set in its own slot. -/
@[simp] theorem entry_setEntry (s : ClientStream) (seq other : Nat) (e : LogEntry) :
    (s.setEntry seq e).entry other = if seq = other then e else s.entry other := by
  by_cases same : seq = other
  · simp [setEntry, entry, same]
  · simp [setEntry, entry, TreeMap.getElem?_insert, same]

/-- A stream whose log is unchanged has the same entries. -/
theorem entry_congr {s s' : ClientStream} (same : s'.log = s.log) (seq : Nat) :
    s'.entry seq = s.entry seq := by
  simp [entry, same]

/-- Noting the highest number seen leaves the slots alone. -/
@[simp] theorem entry_noteSeq (s : ClientStream) (seq other : Nat) :
    (s.noteSeq seq).entry other = s.entry other := rfl

/-- Another anchor leaves the slots alone. -/
@[simp] theorem entry_reanchor (s : ClientStream) (seq actualNs other : Nat) :
    (s.reanchor seq actualNs).entry other = s.entry other := rfl

/-- The start of an agreement leaves the slots alone. -/
@[simp] theorem entry_startAgreement (s : ClientStream) (seq now other : Nat) :
    (s.startAgreement seq now).entry other = s.entry other := rfl

/-- A note of a gap request leaves the slots alone. -/
@[simp] theorem entry_noteRequest (s : ClientStream) (seq now other : Nat) :
    (s.noteRequest seq now).entry other = s.entry other := rfl

/-- So does taking the note back. -/
@[simp] theorem entry_dropRequest (s : ClientStream) (seq other : Nat) :
    (s.dropRequest seq).entry other = s.entry other := rfl

/-- A filled slot is in the log. -/
theorem mem_log_of_filled {s : ClientStream} {slot : Nat} (filled : s.filled slot = true) :
    slot ∈ s.log := by
  by_contra absent
  simp [ClientStream.filled, entry, TreeMap.getElem?_eq_none absent] at filled

/-- The walk of the frontier passes filled slots only. -/
theorem filled_of_lt_frontierFrom (s : ClientStream) (rounds next slot : Nat)
    (low : next ≤ slot) (high : slot < s.frontierFrom rounds next) : s.filled slot = true := by
  induction rounds generalizing next with
  | zero => simp only [frontierFrom] at high; omega
  | succ rounds inductionHypothesis =>
      by_cases filled : s.filled next
      · simp only [frontierFrom, filled, if_true] at high
        rcases Nat.eq_or_lt_of_le low with rfl | above
        · exact filled
        · exact inductionHypothesis (next + 1) above high
      · simp only [frontierFrom, filled] at high
        simp at high
        omega

/-- A walk that stops before its rounds are used up stops at a slot that is not filled. -/
theorem frontierFrom_stops (s : ClientStream) (rounds next : Nat) :
    s.filled (s.frontierFrom rounds next) = false ∨ s.frontierFrom rounds next = next + rounds := by
  induction rounds generalizing next with
  | zero => exact .inr rfl
  | succ rounds inductionHypothesis =>
      by_cases filled : s.filled next
      · simp only [frontierFrom, filled, if_true]
        rcases inductionHypothesis (next + 1) with stopped | exhausted
        · exact .inl stopped
        · exact .inr (by omega)
      · simp [frontierFrom, filled]

/-- As many rounds as the log has entries reach the end of the filled slots: the bounded
walk is the `while (true)` loop of the source. -/
theorem filled_frontierFrom_size (s : ClientStream) (next : Nat) :
    s.filled (s.frontierFrom s.log.size next) = false := by
  rcases s.frontierFrom_stops s.log.size next with stopped | exhausted
  · exact stopped
  · by_contra reached
    have filled : ∀ slot ∈ List.range' next (s.log.size + 1), slot ∈ s.log.keys := by
      intro slot inRange
      rw [List.mem_range'_1] at inRange
      rw [TreeMap.mem_keys]
      apply mem_log_of_filled
      by_cases last : slot = next + s.log.size
      · rw [last, ← exhausted]
        simpa using reached
      · exact s.filled_of_lt_frontierFrom s.log.size next slot inRange.1 (by omega)
    have distinct : (List.range' next (s.log.size + 1)).Nodup := List.nodup_range'
    have counted := (distinct.subperm filled).length_le
    rw [List.length_range', TreeMap.length_keys] at counted
    omega

end ClientStream

namespace Replica

variable (r : Replica) (clientId seq : Nat)

/-- A stream is stored under its own client. -/
@[simp] theorem stream_setStream (other : Nat) (s : ClientStream) :
    (r.setStream clientId s).stream other = if clientId = other then s else r.stream other := by
  by_cases same : clientId = other
  · simp [setStream, stream, same]
  · simp [setStream, stream, TreeMap.getElem?_insert, same]

/-- The slots are those of the stream that is stored. -/
@[simp] theorem entry_setStream (other otherSeq : Nat) (s : ClientStream) :
    (r.setStream clientId s).entry other otherSeq =
      if clientId = other then s.entry otherSeq else r.entry other otherSeq := by
  by_cases same : clientId = other <;> simp [entry, same]

/-- Storing a stream whose log is the old one changes no entry. -/
theorem entry_setStream_of_log {s : ClientStream} (same : s.log = (r.stream clientId).log)
    (other otherSeq : Nat) :
    (r.setStream clientId s).entry other otherSeq = r.entry other otherSeq := by
  rw [entry_setStream]
  split
  · rename_i equal
    rw [← equal, ClientStream.entry_congr same]
    rfl
  · rfl

/-- The slots depend on the streams alone. -/
theorem entry_congr {r r' : Replica} (same : r'.clients = r.clients) (clientId seq : Nat) :
    r'.entry clientId seq = r.entry clientId seq := by
  simp [entry, stream, same]

/-- A `Sync` sets the anchor, and no slot. -/
@[simp] theorem entry_handleSync (remote : Address) (msg : SyncMessage) (recvNs : Nat) :
    (r.handleSync remote msg recvNs).entry clientId seq = r.entry clientId seq := by
  rw [← r.entry_setStream_of_log msg.clientId (s := { r.stream msg.clientId with
    baseRecvNs := recvNs + (msg.startDelayMs * nsPerMs : Nat)
    intervalNs := msg.intervalMs * nsPerMs
    anchored := false
    nextExpected := 1
    maxSeqSeen := 0 }) rfl clientId seq]
  exact entry_congr rfl clientId seq

/-- Arming the gap timer sets no slot. -/
@[simp] theorem entry_armGapTimer (armed now : Nat) :
    (r.armGapTimer armed now).entry clientId seq = r.entry clientId seq := by
  obtain ⟨s, sameClients, sameLog⟩ : ∃ s : ClientStream,
      (r.armGapTimer armed now).clients = (r.setStream armed s).clients ∧
        s.log = (r.stream armed).log :=
    ⟨_, rfl, rfl⟩
  rw [entry_congr sameClients]
  exact r.entry_setStream_of_log armed sameLog clientId seq

/-- The frontier moves over the slots and leaves them as they are. -/
@[simp] theorem entry_advanceContiguous (advanced now : Nat) :
    (r.advanceContiguous advanced now).entry clientId seq = r.entry clientId seq := by
  have unchanged := r.entry_setStream_of_log advanced (s := { r.stream advanced with
    nextExpected := (r.stream advanced).frontierFrom (r.stream advanced).log.size
      (r.stream advanced).nextExpected }) rfl clientId seq
  unfold advanceContiguous
  dsimp only
  split
  · rw [entry_armGapTimer, unchanged]
  · exact unchanged

/-- `RecordReceived` writes its slot unless it holds a NoOp, and no other slot. -/
theorem entry_recordReceived (recorded slot : Nat) (payload : String) (sendTimeNs now : Nat) :
    (r.recordReceived recorded slot payload sendTimeNs now).entry clientId seq =
      if recorded = clientId ∧ slot = seq ∧ (r.entry recorded slot).state ≠ .noop then
        { state := .received, payload, sendTimeNs, recvNs := now }
      else r.entry clientId seq := by
  have noChange : (r.setStream recorded ((r.stream recorded).noteSeq slot)).entry clientId seq =
      r.entry clientId seq :=
    r.entry_setStream_of_log recorded (by rfl) clientId seq
  by_cases final : (r.entry recorded slot).state = .noop
  · have branch : r.recordReceived recorded slot payload sendTimeNs now =
        r.setStream recorded ((r.stream recorded).noteSeq slot) := if_pos final
    simp [branch, final, noChange]
  · have branch : r.recordReceived recorded slot payload sendTimeNs now =
        r.setStream recorded (((r.stream recorded).noteSeq slot).setEntry slot
          { state := .received, payload, sendTimeNs, recvNs := now }) := if_neg final
    rw [branch, entry_setStream]
    by_cases sameClient : recorded = clientId
    · subst sameClient
      rw [if_pos rfl, ClientStream.entry_setEntry]
      by_cases sameSlot : slot = seq
      · subst sameSlot
        simp [final]
      · simp only [sameSlot, if_false, false_and, and_false]
        exact ClientStream.entry_congr rfl seq
    · simp [sameClient]

/-- `SendGapRequest` leaves the log alone. -/
@[simp] theorem entry_sendGapRequest (asked slot now : Nat) :
    (r.sendGapRequest asked slot now).1.entry clientId seq = r.entry clientId seq := by
  unfold sendGapRequest
  dsimp only
  split <;> exact r.entry_setStream_of_log asked (by rfl) clientId seq

/-- `StartGapAgreement` turns its slot into a NoOp and touches no other slot. -/
theorem entry_startGapAgreement (leader : r.amLeader = true) (client slot now : Nat) :
    (r.startGapAgreement leader client slot now).1.entry clientId seq =
      if client = clientId ∧ slot = seq then { r.entry client slot with state := .noop }
      else r.entry clientId seq := by
  by_cases final : (r.entry client slot).state = .noop
  · have branch : r.startGapAgreement leader client slot now =
        (r.setStream client (r.stream client), []) := if_pos final
    rw [branch, r.entry_setStream_of_log client (by rfl)]
    split
    · rename_i same
      obtain ⟨rfl, rfl⟩ := same
      rw [← final]
    · rfl
  · have branch : (r.startGapAgreement leader client slot now).1 =
        r.setStream client (((r.stream client).setEntry slot
          { r.entry client slot with state := .noop }).startAgreement slot now) :=
      congrArg Prod.fst (if_neg final)
    rw [branch, entry_setStream, ClientStream.entry_startAgreement, ClientStream.entry_setEntry]
    by_cases sameClient : client = clientId
    · subst sameClient
      simp [entry]
    · simp [sameClient]

/-- Resolving a gap writes at most the slot that is missing. -/
theorem entry_resolveGap_of_ne (client slot now : Nat)
    (other : ¬ (client = clientId ∧ slot = seq)) :
    (r.resolveGap client slot now).1.entry clientId seq = r.entry clientId seq := by
  unfold resolveGap
  split
  · rw [entry_startGapAgreement, if_neg other]
  · exact r.entry_sendGapRequest clientId seq client slot now

/-- The gap scan never writes a slot that is filled. -/
theorem entry_scanGaps (client nowNs : Nat) (clock : Nat → Nat) (slot slots : Nat)
    (filled : (r.entry clientId seq).state ≠ .empty) :
    (r.scanGaps client nowNs clock slot slots).1.entry clientId seq = r.entry clientId seq := by
  induction slots generalizing r slot with
  | zero => rfl
  | succ slots inductionHypothesis =>
      unfold scanGaps
      dsimp only
      split
      · exact inductionHypothesis r (slot + 1) filled
      · rename_i missing
        split
        · rfl
        · -- the slot resolved here is empty, so it is not the one in question
          have other : ¬ (client = clientId ∧ slot = seq) := by
            rintro ⟨rfl, rfl⟩
            exact missing (by simpa [ClientStream.filled, entry] using filled)
          have resolved := r.entry_resolveGap_of_ne clientId seq client slot (clock slot) other
          have later := inductionHypothesis (r.resolveGap client slot (clock slot)).1 (slot + 1)
            (by rw [resolved]; exact filled)
          exact later.trans resolved

/-- The gap timer never writes a slot that is filled. -/
theorem entry_onGapTimeout (client : Nat) (clock : Nat → Nat)
    (filled : (r.entry clientId seq).state ≠ .empty) :
    (r.onGapTimeout client clock).1.entry clientId seq = r.entry clientId seq := by
  have start : (r.setStream client { r.stream client with gapTimerId := 0 }).entry clientId seq =
      r.entry clientId seq := r.entry_setStream_of_log client (by rfl) clientId seq
  simp only [onGapTimeout, entry_advanceContiguous]
  rw [entry_scanGaps _ _ _ _ _ _ _ _ (by rw [start]; exact filled), start]

/-- Resolving a gap never makes a slot RECEIVED. -/
theorem not_received_resolveGap (client slot now : Nat)
    (missing : (r.entry clientId seq).state ≠ .received) :
    ((r.resolveGap client slot now).1.entry clientId seq).state ≠ .received := by
  unfold resolveGap
  split
  · rw [entry_startGapAgreement]
    split
    · simp
    · exact missing
  · rw [entry_sendGapRequest]
    exact missing

/-- The gap scan never makes a slot RECEIVED. -/
theorem not_received_scanGaps (client nowNs : Nat) (clock : Nat → Nat) (slot slots : Nat)
    (missing : (r.entry clientId seq).state ≠ .received) :
    ((r.scanGaps client nowNs clock slot slots).1.entry clientId seq).state ≠ .received := by
  induction slots generalizing r slot with
  | zero => exact missing
  | succ slots inductionHypothesis =>
      unfold scanGaps
      dsimp only
      split
      · exact inductionHypothesis r (slot + 1) missing
      · split
        · exact missing
        · exact inductionHypothesis _ (slot + 1)
            (r.not_received_resolveGap clientId seq client slot (clock slot) missing)

/-- The gap timer never makes a slot RECEIVED. -/
theorem not_received_onGapTimeout (client : Nat) (clock : Nat → Nat)
    (missing : (r.entry clientId seq).state ≠ .received) :
    ((r.onGapTimeout client clock).1.entry clientId seq).state ≠ .received := by
  have start : (r.setStream client { r.stream client with gapTimerId := 0 }).entry clientId seq =
      r.entry clientId seq := r.entry_setStream_of_log client (by rfl) clientId seq
  simp only [onGapTimeout, entry_advanceContiguous]
  exact not_received_scanGaps _ _ _ _ _ _ _ _ (by rw [start]; exact missing)

/-- Serving a gap request leaves the log alone. -/
@[simp] theorem entry_handleGapRequest (remote : Address) (msg : GapRequestMessage) :
    (r.handleGapRequest remote msg).1.entry clientId seq = r.entry clientId seq := by
  unfold handleGapRequest
  split
  · dsimp only
    split <;> exact r.entry_setStream_of_log msg.clientId (by rfl) clientId seq
  · rfl

/-- Counting an acknowledgement leaves the log alone. -/
@[simp] theorem entry_handleGapCommitReply (msg : GapCommitReplyMessage) :
    (r.handleGapCommitReply msg).entry clientId seq = r.entry clientId seq := by
  unfold handleGapCommitReply
  split
  · dsimp only
    split
    · split <;> exact r.entry_setStream_of_log msg.clientId (by rfl) clientId seq
    · exact r.entry_setStream_of_log msg.clientId (by rfl) clientId seq
  · rfl

/-! ## Identity

A replica's configuration, index, options and view never change, and its client
addresses are learned from the client's own messages. -/

/-- What a replica is, as opposed to what it has received. -/
def identity (r : Replica) : Configuration × Nat × Options × Nat :=
  (r.config, r.replicaIdx, r.options, r.viewId)

@[simp] theorem identity_setStream (s : ClientStream) :
    (r.setStream clientId s).identity = r.identity := rfl

@[simp] theorem identity_learnAddress (remote : Address) :
    (r.learnAddress clientId remote).identity = r.identity := rfl

/-- The address of a client is no part of its slots. -/
@[simp] theorem entry_learnAddress (other : Nat) (remote : Address) :
    (r.learnAddress other remote).entry clientId seq = r.entry clientId seq := rfl

@[simp] theorem clientAddr_setStream (s : ClientStream) :
    (r.setStream clientId s).clientAddr = r.clientAddr := rfl

@[simp] theorem identity_armGapTimer (now : Nat) :
    (r.armGapTimer clientId now).identity = r.identity := rfl

@[simp] theorem clientAddr_armGapTimer (now : Nat) :
    (r.armGapTimer clientId now).clientAddr = r.clientAddr := rfl

@[simp] theorem identity_advanceContiguous (now : Nat) :
    (r.advanceContiguous clientId now).identity = r.identity := by
  unfold advanceContiguous
  dsimp only
  split <;> rfl

@[simp] theorem clientAddr_advanceContiguous (now : Nat) :
    (r.advanceContiguous clientId now).clientAddr = r.clientAddr := by
  unfold advanceContiguous
  dsimp only
  split <;> rfl

/-- Recording a request leaves the configuration, the options and the view alone. -/
@[simp] theorem identity_recordReceived (payload : String) (sendTimeNs now : Nat) :
    (r.recordReceived clientId seq payload sendTimeNs now).identity = r.identity := by
  unfold recordReceived
  dsimp only
  split <;> rfl

@[simp] theorem clientAddr_recordReceived (payload : String) (sendTimeNs now : Nat) :
    (r.recordReceived clientId seq payload sendTimeNs now).clientAddr = r.clientAddr := by
  unfold recordReceived
  dsimp only
  split <;> rfl

/-- Resolving a gap leaves the configuration, the options and the view alone. -/
@[simp] theorem identity_resolveGap (now : Nat) :
    (r.resolveGap clientId seq now).1.identity = r.identity := by
  unfold resolveGap startGapAgreement sendGapRequest
  split <;> dsimp only <;> split <;> rfl

@[simp] theorem clientAddr_resolveGap (now : Nat) :
    (r.resolveGap clientId seq now).1.clientAddr = r.clientAddr := by
  unfold resolveGap startGapAgreement sendGapRequest
  split <;> dsimp only <;> split <;> rfl

/-- So does resolving all gaps that are overdue. -/
@[simp] theorem identity_scanGaps (nowNs : Nat) (clock : Nat → Nat) (slot slots : Nat) :
    (r.scanGaps clientId nowNs clock slot slots).1.identity = r.identity := by
  induction slots generalizing r slot with
  | zero => rfl
  | succ slots inductionHypothesis =>
      unfold scanGaps
      dsimp only
      split
      · exact inductionHypothesis r (slot + 1)
      · split
        · rfl
        · exact (inductionHypothesis _ (slot + 1)).trans (r.identity_resolveGap clientId slot _)

@[simp] theorem clientAddr_scanGaps (nowNs : Nat) (clock : Nat → Nat) (slot slots : Nat) :
    (r.scanGaps clientId nowNs clock slot slots).1.clientAddr = r.clientAddr := by
  induction slots generalizing r slot with
  | zero => rfl
  | succ slots inductionHypothesis =>
      unfold scanGaps
      dsimp only
      split
      · exact inductionHypothesis r (slot + 1)
      · split
        · rfl
        · exact (inductionHypothesis _ (slot + 1)).trans (r.clientAddr_resolveGap clientId slot _)

/-- A gap timer that fires leaves the configuration, the options and the view alone. -/
@[simp] theorem identity_onGapTimeout (clock : Nat → Nat) :
    (r.onGapTimeout clientId clock).1.identity = r.identity := by
  simp [onGapTimeout]

@[simp] theorem clientAddr_onGapTimeout (clock : Nat → Nat) :
    (r.onGapTimeout clientId clock).1.clientAddr = r.clientAddr := by
  simp [onGapTimeout]

/-- A reply to a gap request does not say where the client is. -/
@[simp] theorem clientAddr_handleGapReply (msg : GapReplyMessage) (clock : Nat → Nat) :
    (r.handleGapReply msg clock).1.clientAddr = r.clientAddr := by
  unfold handleGapReply
  split
  · dsimp only
    split
    · rfl
    · simp
  · rfl

/-- Receiving a message does not change what the replica is. -/
@[simp] theorem identity_receiveMessage (remote : Address) (msg : Message) (clock : Nat → Nat) :
    (r.receiveMessage remote msg clock).1.identity = r.identity := by
  cases msg with
  | sync msg => rfl
  | data msg =>
      simp only [receiveMessage, handleData]
      split
      · rfl
      · split
        · rfl
        · split
          · simp
          · rfl
  | gapRequest msg =>
      simp only [receiveMessage, handleGapRequest]
      split
      · split <;> rfl
      · rfl
  | gapReply msg =>
      simp only [receiveMessage, handleGapReply]
      split
      · split
        · rfl
        · simp
      · rfl
  | gapCommit msg => simp [receiveMessage, handleGapCommit]
  | gapCommitReply msg =>
      simp only [receiveMessage, handleGapCommitReply]
      split
      · split
        · split <;> rfl
        · rfl
      · rfl
  | dataReply msg => rfl

/-- A client's address is learned from the endpoint its messages come from. -/
theorem clientAddr_receiveMessage (remote : Address) (msg : Message) (clock : Nat → Nat)
    {client : Nat} {addr : Address}
    (known : (r.receiveMessage remote msg clock).1.clientAddr[client]? = some addr) :
    r.clientAddr[client]? = some addr ∨
      addr = remote ∧ ((∃ sync, msg = .sync sync ∧ sync.clientId = client) ∨
        ∃ data, msg = .data data ∧ data.clientId = client) := by
  have learned : ∀ sender : Nat, (r.clientAddr.insert sender remote)[client]? = some addr →
      r.clientAddr[client]? = some addr ∨ addr = remote ∧ sender = client := by
    intro sender found
    rw [TreeMap.getElem?_insert] at found
    split at found
    · rename_i same
      exact .inr ⟨(Option.some.inj found).symm, by simpa using same⟩
    · exact .inl found
  cases msg with
  | sync msg =>
      rcases learned msg.clientId known with old | ⟨sender, same⟩
      · exact .inl old
      · exact .inr ⟨sender, .inl ⟨msg, rfl, same⟩⟩
  | data msg =>
      have cases : r.clientAddr[client]? = some addr ∨
          (r.clientAddr.insert msg.clientId remote)[client]? = some addr := by
        simp only [receiveMessage, handleData] at known
        split at known
        · exact .inl known
        · split at known
          · exact .inr known
          · split at known
            · simp only [clientAddr_advanceContiguous, clientAddr_recordReceived] at known
              exact .inr known
            · exact .inr known
      rcases cases with old | inserted
      · exact .inl old
      · rcases learned msg.clientId inserted with old | ⟨sender, same⟩
        · exact .inl old
        · exact .inr ⟨sender, .inr ⟨msg, rfl, same⟩⟩
  | gapRequest msg =>
      simp only [receiveMessage, handleGapRequest] at known
      split at known
      · split at known <;> exact .inl known
      · exact .inl known
  | gapReply msg =>
      rw [receiveMessage, clientAddr_handleGapReply] at known
      exact .inl known
  | gapCommit msg =>
      simp [receiveMessage, handleGapCommit] at known
      exact .inl known
  | gapCommitReply msg =>
      simp only [receiveMessage, handleGapCommitReply] at known
      split at known
      · split at known
        · split at known <;> exact .inl known
        · exact .inl known
      · exact .inl known
  | dataReply msg => exact .inl known

/-! ## What a replica sends -/

/-- A reply goes to the address on record for the client. -/
theorem mem_replyToClient {send : Send} (sent : send ∈ r.replyToClient clientId seq) :
    ∃ addr, r.clientAddr[clientId]? = some addr ∧
      send = ⟨addr, .dataReply ⟨clientId, seq, r.viewId, seq, r.replicaIdx⟩⟩ := by
  unfold replyToClient at sent
  split at sent
  · cases sent
  · rename_i addr known
    exact ⟨addr, known, List.mem_singleton.mp sent⟩

/-- What the gap scan may send while resolving one slot: the leader broadcasts a NoOp commit
to the others, a follower asks the leader. -/
theorem mem_resolveGap {now : Nat} {send : Send}
    (sent : send ∈ (r.resolveGap clientId seq now).2) :
    (r.amLeader = true ∧ ∃ idx, idx < r.config.n ∧ idx ≠ r.replicaIdx ∧
        send = ⟨.replica idx, .gapCommit ⟨clientId, seq, r.viewId⟩⟩) ∨
      r.amLeader = false ∧ send = ⟨.replica (r.config.getLeaderIndex r.viewId),
        .gapRequest ⟨clientId, seq, r.viewId, r.replicaIdx⟩⟩ := by
  unfold resolveGap at sent
  split at sent
  · rename_i leader
    unfold startGapAgreement at sent
    dsimp only at sent
    split at sent
    · cases sent
    · obtain ⟨idx, member, other, rfl⟩ := mem_sendToOthers.mp sent
      exact .inl ⟨leader, idx, member, other, rfl⟩
  · rename_i follower
    unfold sendGapRequest at sent
    dsimp only at sent
    split at sent
    · cases sent
    · exact .inr ⟨by simpa using follower, List.mem_singleton.mp sent⟩

/-- Who leads is a matter of the configuration and the view. -/
theorem amLeader_congr {r r' : Replica} (same : r'.identity = r.identity) :
    r'.amLeader = r.amLeader := by
  simp only [identity, Prod.mk.injEq] at same
  simp [amLeader, same]

/-- Every message of the gap scan is about some slot, in the same two forms. -/
theorem mem_scanGaps {nowNs : Nat} {clock : Nat → Nat} {slot slots : Nat} {send : Send}
    (sent : send ∈ (r.scanGaps clientId nowNs clock slot slots).2) :
    (r.amLeader = true ∧ ∃ idx seq, idx < r.config.n ∧ idx ≠ r.replicaIdx ∧
        send = ⟨.replica idx, .gapCommit ⟨clientId, seq, r.viewId⟩⟩) ∨
      r.amLeader = false ∧ ∃ seq, send = ⟨.replica (r.config.getLeaderIndex r.viewId),
        .gapRequest ⟨clientId, seq, r.viewId, r.replicaIdx⟩⟩ := by
  induction slots generalizing r slot with
  | zero => cases sent
  | succ slots inductionHypothesis =>
      unfold scanGaps at sent
      dsimp only at sent
      split at sent
      · exact inductionHypothesis r sent
      · split at sent
        · cases sent
        · rcases List.mem_append.mp sent with now | later
          · rcases r.mem_resolveGap clientId slot now with
              ⟨leader, idx, member, other, rfl⟩ | ⟨follower, rfl⟩
            · exact .inl ⟨leader, idx, slot, member, other, rfl⟩
            · exact .inr ⟨follower, slot, rfl⟩
          · have same := r.identity_resolveGap clientId slot (clock slot)
            have fields := same
            simp only [identity, Prod.mk.injEq] at fields
            have result := inductionHypothesis _ later
            rwa [amLeader_congr same, fields.1, fields.2.1, fields.2.2.2] at result

/-- Every message of the gap timer, in the same two forms. -/
theorem mem_onGapTimeout {clock : Nat → Nat} {send : Send}
    (sent : send ∈ (r.onGapTimeout clientId clock).2) :
    (r.amLeader = true ∧ ∃ idx seq, idx < r.config.n ∧ idx ≠ r.replicaIdx ∧
        send = ⟨.replica idx, .gapCommit ⟨clientId, seq, r.viewId⟩⟩) ∨
      r.amLeader = false ∧ ∃ seq, send = ⟨.replica (r.config.getLeaderIndex r.viewId),
        .gapRequest ⟨clientId, seq, r.viewId, r.replicaIdx⟩⟩ :=
  mem_scanGaps (r.setStream clientId { r.stream clientId with gapTimerId := 0 }) clientId sent

/-! ## Data messages in gap mode -/

/-- What `HandleData` can do in gap mode: ignore an unsynced client, drop the message, or
record it, answer, and advance the frontier. -/
theorem handleData_cases (remote : Address) (msg : DataMessage) (clock : Nat → Nat)
    (gapMode : r.options.gapEnabled = true) :
    r.handleData remote msg clock = (r, []) ∨
      ∃ r₁ : Replica, r₁.identity = r.identity ∧
        r₁.clientAddr = r.clientAddr.insert msg.clientId remote ∧
        (∀ c q, r₁.entry c q = r.entry c q) ∧
        (r.shouldDrop msg.seqNum = true ∧ r.handleData remote msg clock = (r₁, []) ∨
          r.shouldDrop msg.seqNum = false ∧
            r.handleData remote msg clock =
              ((r₁.recordReceived msg.clientId msg.seqNum msg.payload msg.sendTimeNs
                  (clock 1)).advanceContiguous msg.clientId (clock 2),
                (r₁.recordReceived msg.clientId msg.seqNum msg.payload msg.sendTimeNs
                  (clock 1)).replyToClient msg.clientId msg.seqNum)) := by
  unfold handleData
  split
  · exact .inl rfl
  · rename_i s found
    have present : (r.learnAddress msg.clientId remote).stream msg.clientId = s := by
      simp [stream, learnAddress, found]
    have unchanged : ∀ s' : ClientStream, s'.log = s.log → ∀ c q,
        ((r.learnAddress msg.clientId remote).setStream msg.clientId s').entry c q =
          r.entry c q := by
      intro s' sameLog c q
      rw [entry_setStream_of_log _ _ (by rw [sameLog, present]), entry_learnAddress]
    have sameDrop : (r.learnAddress msg.clientId remote).shouldDrop msg.seqNum =
        r.shouldDrop msg.seqNum := rfl
    have sameMode : (r.learnAddress msg.clientId remote).options.gapEnabled = true := gapMode
    dsimp only
    rw [sameDrop, sameMode, Bool.true_and]
    cases dropped : r.shouldDrop msg.seqNum with
    | true =>
        exact .inr ⟨(r.learnAddress msg.clientId remote).setStream msg.clientId
          (s.noteSeq msg.seqNum), rfl, rfl, unchanged _ rfl, .inl ⟨rfl, rfl⟩⟩
    | false =>
        refine .inr ⟨(r.learnAddress msg.clientId remote).setStream msg.clientId
          ((s.noteSeq msg.seqNum).reanchor msg.seqNum (clock 0)), rfl, rfl, unchanged _ rfl,
            .inr ⟨rfl, ?_⟩⟩
        exact if_pos sameMode

/-- `HandleData` writes its slot unless it holds a NoOp, and no other slot. -/
theorem entry_handleData (remote : Address) (msg : DataMessage) (clock : Nat → Nat)
    (gapMode : r.options.gapEnabled = true) :
    (r.handleData remote msg clock).1.entry clientId seq = r.entry clientId seq ∨
      msg.clientId = clientId ∧ msg.seqNum = seq ∧ (r.entry clientId seq).state ≠ .noop ∧
        (r.handleData remote msg clock).1.entry clientId seq =
          { state := .received, payload := msg.payload, sendTimeNs := msg.sendTimeNs,
            recvNs := clock 1 } := by
  rcases r.handleData_cases remote msg clock gapMode with ignored | ⟨r₁, _, _, same, outcome⟩
  · exact .inl (by rw [ignored])
  · rcases outcome with ⟨_, dropped⟩ | ⟨_, recorded⟩
    · exact .inl (by rw [dropped]; exact same clientId seq)
    · rw [recorded]
      simp only [entry_advanceContiguous, entry_recordReceived]
      split
      · rename_i written
        obtain ⟨rfl, rfl, undecided⟩ := written
        rw [same] at undecided
        exact .inr ⟨rfl, rfl, undecided, rfl⟩
      · exact .inl (same clientId seq)

/-- A data message is answered when it is not dropped. Its slot is then RECEIVED, except
that `HandleData` also answers when `RecordReceived` has refused to overwrite a NoOp. -/
theorem mem_handleData {remote : Address} {msg : DataMessage} {clock : Nat → Nat} {send : Send}
    (gapMode : r.options.gapEnabled = true)
    (sent : send ∈ (r.handleData remote msg clock).2) :
    send = ⟨remote, .dataReply ⟨msg.clientId, msg.seqNum, r.viewId, msg.seqNum, r.replicaIdx⟩⟩ ∧
      r.shouldDrop msg.seqNum = false ∧
        (((r.handleData remote msg clock).1.entry msg.clientId msg.seqNum).state = .received ∨
          (r.entry msg.clientId msg.seqNum).state = .noop) := by
  rcases r.handleData_cases remote msg clock gapMode with
    ignored | ⟨r₁, sameIdentity, addresses, same, outcome⟩
  · rw [ignored] at sent
    cases sent
  · rcases outcome with ⟨_, dropped⟩ | ⟨kept, recorded⟩
    · rw [dropped] at sent
      cases sent
    · rw [recorded] at sent
      obtain ⟨addr, known, rfl⟩ := mem_replyToClient _ _ _ sent
      have identityEq := (r₁.identity_recordReceived msg.clientId msg.seqNum msg.payload
        msg.sendTimeNs (clock 1)).trans sameIdentity
      simp only [identity, Prod.mk.injEq] at identityEq
      rw [clientAddr_recordReceived, addresses, TreeMap.getElem?_insert_self] at known
      refine ⟨?_, kept, ?_⟩
      · rw [identityEq.2.1, identityEq.2.2.2, Option.some.inj known]
      · rw [recorded, entry_advanceContiguous, entry_recordReceived, same]
        by_cases final : (r.entry msg.clientId msg.seqNum).state = .noop
        · exact .inr final
        · exact .inl (by simp [final])

/-- Recovered data fills an empty slot, which is then answered; a slot that is already
resolved is left alone and not answered. -/
theorem handleGapReply_cases (msg : GapReplyMessage) (clock : Nat → Nat) :
    ((∀ c q, (r.handleGapReply msg clock).1.entry c q = r.entry c q) ∧
        (r.handleGapReply msg clock).2 = []) ∨
      (r.entry msg.clientId msg.seqNum).state = .empty ∧
        (∀ c q, (r.handleGapReply msg clock).1.entry c q =
          if msg.clientId = c ∧ msg.seqNum = q then
            { state := .received, payload := msg.payload, sendTimeNs := msg.sendTimeNs,
              recvNs := clock 0 }
          else r.entry c q) ∧
        ∀ send ∈ (r.handleGapReply msg clock).2, ∃ addr,
          r.clientAddr[msg.clientId]? = some addr ∧ send =
            ⟨addr, .dataReply ⟨msg.clientId, msg.seqNum, r.viewId, msg.seqNum, r.replicaIdx⟩⟩ := by
  have touched : ∀ c q, (r.setStream msg.clientId (r.stream msg.clientId)).entry c q =
      r.entry c q := r.entry_setStream_of_log msg.clientId (by rfl)
  unfold handleGapReply
  split
  · dsimp only
    split
    · exact .inl ⟨touched, rfl⟩
    · rename_i missing
      have empty : (r.entry msg.clientId msg.seqNum).state = .empty := by
        simpa [ClientStream.filled, entry] using missing
      refine .inr ⟨empty, fun c q => ?_, fun send sent => ?_⟩
      · rw [entry_advanceContiguous, entry_setStream_of_log _ _ (by rfl), entry_recordReceived,
          touched, touched, empty]
        simp
      · obtain ⟨addr, known, rfl⟩ := mem_replyToClient _ _ _ sent
        have identityEq := (r.setStream msg.clientId (r.stream msg.clientId)).identity_recordReceived
          msg.clientId msg.seqNum msg.payload msg.sendTimeNs (clock 0)
        simp only [identity, Prod.mk.injEq] at identityEq
        refine ⟨addr, by simpa using known, ?_⟩
        simp only [setStream] at identityEq ⊢
        rw [identityEq.2.1, identityEq.2.2.2]
  · exact .inl ⟨fun _ _ => rfl, rfl⟩

/-- Whatever a replica sends on receiving a message in gap mode: an answer to the client, a
served or refused gap request, or the acknowledgement of a NoOp commit. -/
theorem mem_receiveMessage {remote : Address} {msg : Message} {clock : Nat → Nat} {send : Send}
    (gapMode : r.options.gapEnabled = true)
    (sent : send ∈ (r.receiveMessage remote msg clock).2) :
    (∃ addr c q, (r.receiveMessage remote msg clock).1.clientAddr[c]? = some addr ∧
        send = ⟨addr, .dataReply ⟨c, q, r.viewId, q, r.replicaIdx⟩⟩ ∧
        (((r.receiveMessage remote msg clock).1.entry c q).state = .received ∨
          (r.entry c q).state = .noop ∧ r.shouldDrop q = false ∧
            ∃ data, msg = .data data ∧ data.clientId = c ∧ data.seqNum = q)) ∨
      (∃ req, msg = .gapRequest req ∧ r.amLeader = true ∧ send.dst = remote ∧
        ((∃ reply, send.msg = .gapReply reply) ∨ ∃ commit, send.msg = .gapCommit commit)) ∨
      ∃ reply, send = ⟨remote, .gapCommitReply reply⟩ := by
  cases msg with
  | sync msg => cases sent
  | data msg =>
      obtain ⟨rfl, kept, outcome⟩ := mem_handleData r gapMode sent
      refine .inl ⟨remote, msg.clientId, msg.seqNum, ?_, rfl, ?_⟩
      · rcases r.handleData_cases remote msg clock gapMode with
          ignored | ⟨r₁, _, addresses, _, dropped | recorded⟩
        · simp only [receiveMessage, ignored] at sent
          cases sent
        · simp only [receiveMessage, dropped.2] at sent
          cases sent
        · simp only [receiveMessage, recorded.2, clientAddr_advanceContiguous,
            clientAddr_recordReceived, addresses, TreeMap.getElem?_insert_self]
      · rcases outcome with received | final
        · exact .inl received
        · exact .inr ⟨final, kept, msg, rfl, rfl, rfl⟩
  | gapRequest msg =>
      simp only [receiveMessage, handleGapRequest] at sent
      split at sent
      · rename_i leader
        refine .inr (.inl ⟨msg, rfl, leader, ?_⟩)
        split at sent
        · obtain rfl := List.mem_singleton.mp sent
          exact ⟨rfl, .inl ⟨_, rfl⟩⟩
        · obtain rfl := List.mem_singleton.mp sent
          exact ⟨rfl, .inr ⟨_, rfl⟩⟩
        · cases sent
      · cases sent
  | gapReply msg =>
      rcases r.handleGapReply_cases msg clock with ⟨_, silent⟩ | ⟨_, written, answers⟩
      · rw [receiveMessage, silent] at sent
        cases sent
      · obtain ⟨addr, known, rfl⟩ := answers send sent
        refine .inl ⟨addr, msg.clientId, msg.seqNum, ?_, rfl, .inl ?_⟩
        · rw [receiveMessage, clientAddr_handleGapReply]
          exact known
        · rw [receiveMessage, written, if_pos ⟨rfl, rfl⟩]
  | gapCommit msg =>
      obtain rfl := List.mem_singleton.mp sent
      exact .inr (.inr ⟨_, rfl⟩)
  | gapCommitReply msg => cases sent
  | dataReply msg => cases sent

end Replica

end PaxosBus.Bus

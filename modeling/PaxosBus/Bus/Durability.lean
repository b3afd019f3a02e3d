import PaxosBus.Bus.Agreement

/-!
# Durable NoOps

The leader counts acknowledgements of a NoOp in `gapCommitAcks` while the slot
is open in `noopStartNs`. A slot is opened in the handler that turns it into a
NoOp, an acknowledgement is sent by the handler that has just written the NoOp,
and no handler takes a NoOp back; so whatever order the acknowledgements arrive
in, every follower counted for an open slot holds the NoOp.
-/

set_option autoImplicit false

namespace PaxosBus.Bus

open Std PaxosBus.Common PaxosBus.Library

namespace Replica

/-- The leader has started the NoOp agreement for a slot and not yet found it durable. -/
def agreeing (r : Replica) (clientId seq : Nat) : Bool :=
  (r.stream clientId).noopStartNs.contains seq

/-- The replicas whose acknowledgements for a slot have been counted. -/
def acks (r : Replica) (clientId seq : Nat) : Finset Nat :=
  ((r.stream clientId).gapCommitAcks[seq]?).getD ∅

/-- The reply makes `HandleGapCommitReply` declare its slot durable. -/
def declaresDurable (r : Replica) (msg : GapCommitReplyMessage) : Bool :=
  r.amLeader && r.agreeing msg.clientId msg.seqNum &&
    (insert msg.replicaIdx (r.acks msg.clientId msg.seqNum)).card ≥ r.config.quorumSize - 1

/-- A declared slot is no longer open; a reply that declares nothing closes no slot. -/
theorem agreeing_handleGapCommitReply (r : Replica) (msg : GapCommitReplyMessage)
    (clientId seq : Nat) :
    (r.handleGapCommitReply msg).agreeing clientId seq =
      (r.agreeing clientId seq &&
        !(r.declaresDurable msg && msg.clientId == clientId && msg.seqNum == seq)) := by
  by_cases leader : r.amLeader = true
  swap
  · simp [handleGapCommitReply, declaresDurable, leader]
  by_cases started : (r.stream msg.clientId).noopStartNs.contains msg.seqNum = true
  swap
  · have branch : r.handleGapCommitReply msg = r.setStream msg.clientId (r.stream msg.clientId) := by
      simp only [handleGapCommitReply, leader, started, if_true, Bool.false_eq_true, if_false]
    rw [branch]
    simp only [agreeing, stream_setStream, declaresDurable, started]
    split
    · rename_i same
      simp [← same]
    · simp
  by_cases enough : (insert msg.replicaIdx (r.acks msg.clientId msg.seqNum)).card ≥
      r.config.quorumSize - 1
  · have branch : r.handleGapCommitReply msg = r.setStream msg.clientId
        { r.stream msg.clientId with
          noopStartNs := (r.stream msg.clientId).noopStartNs.erase msg.seqNum
          gapCommitAcks := (r.stream msg.clientId).gapCommitAcks.erase msg.seqNum } := by
      simp only [handleGapCommitReply, leader, started, if_true]
      exact if_pos enough
    have durable : r.declaresDurable msg = true := by
      simp [declaresDurable, agreeing, leader, started, enough]
    rw [branch, durable]
    simp only [agreeing, stream_setStream]
    by_cases sameClient : msg.clientId = clientId
    · subst sameClient
      rw [if_pos rfl, TreeMap.contains_erase]
      by_cases sameSlot : msg.seqNum = seq
      · simp [sameSlot]
      · have different : compare msg.seqNum seq ≠ .eq := fun equal =>
          sameSlot (Std.compare_eq_iff_eq.mp equal)
        have other : (msg.seqNum == seq) = false := by simpa using sameSlot
        simp [different, other]
    · simp [sameClient]
  · have branch : r.handleGapCommitReply msg = r.setStream msg.clientId
        { r.stream msg.clientId with
          gapCommitAcks := (r.stream msg.clientId).gapCommitAcks.insert msg.seqNum
            (insert msg.replicaIdx (r.acks msg.clientId msg.seqNum)) } := by
      simp only [handleGapCommitReply, leader, started, if_true]
      exact if_neg enough
    have waits : r.declaresDurable msg = false := by
      simp [declaresDurable, agreeing, leader, started, enough]
    rw [branch, waits]
    simp only [agreeing, stream_setStream]
    by_cases sameClient : msg.clientId = clientId
    · subst sameClient
      simp
    · simp [sameClient]

/-- What every handler but `HandleGapCommitReply` does to the agreements: NoOps stay, only a
NoOp is opened, and no acknowledgement is counted. -/
structure Proceeds (r r' : Replica) : Prop where
  noop : ∀ clientId seq, (r.entry clientId seq).state = .noop →
    (r'.entry clientId seq).state = .noop
  opened : ∀ clientId seq, r'.agreeing clientId seq = true →
    r.agreeing clientId seq = true ∨ (r'.entry clientId seq).state = .noop
  acks : ∀ clientId seq, r'.acks clientId seq ⊆ r.acks clientId seq

/-- Handlers that keep the streams. -/
theorem Proceeds.of_clients {r r' : Replica} (same : r'.clients = r.clients) :
    Proceeds r r' := by
  constructor
  · intro clientId seq noop
    rwa [entry_congr same]
  · intro clientId seq started
    simp only [agreeing, stream, same] at started ⊢
    exact .inl started
  · intro clientId seq
    simp only [Replica.acks, stream, same]
    exact Finset.Subset.refl _

theorem Proceeds.refl (r : Replica) : Proceeds r r := .of_clients rfl

/-- The parts of a handler compose: what the first opens is a NoOp, and stays one. -/
theorem Proceeds.trans {first middle last : Replica} (left : Proceeds first middle)
    (right : Proceeds middle last) : Proceeds first last := by
  constructor
  · exact fun clientId seq noop => right.noop _ _ (left.noop _ _ noop)
  · intro clientId seq started
    rcases right.opened _ _ started with earlier | noop
    · rcases left.opened _ _ earlier with before | noop
      · exact .inl before
      · exact .inr (right.noop _ _ noop)
    · exact .inr noop
  · exact fun clientId seq => (right.acks clientId seq).trans (left.acks clientId seq)

/-- Storing one client's stream. -/
theorem proceeds_setStream (r : Replica) (clientId : Nat) {s : ClientStream}
    (noop : ∀ seq, (r.entry clientId seq).state = .noop → (s.entry seq).state = .noop)
    (opened : ∀ seq, s.noopStartNs.contains seq = true → r.agreeing clientId seq = true ∨
      (s.entry seq).state = .noop)
    (acks : ∀ seq, (s.gapCommitAcks[seq]?).getD ∅ ⊆ r.acks clientId seq) :
    Proceeds r (r.setStream clientId s) := by
  constructor
  · intro other seq final
    rw [entry_setStream]
    split
    · rename_i same
      subst same
      exact noop seq final
    · exact final
  · intro other seq started
    simp only [agreeing, stream_setStream] at started
    rw [entry_setStream]
    split at started
    · rename_i same
      subst same
      simpa using opened seq started
    · exact .inl started
  · intro other seq
    simp only [Replica.acks, stream_setStream]
    split
    · rename_i same
      subst same
      exact acks seq
    · exact Finset.Subset.refl _

/-- Storing a stream whose log and agreements are the old ones. -/
theorem proceeds_of_books (r : Replica) (clientId : Nat) {s : ClientStream}
    (log : s.log = (r.stream clientId).log)
    (noopStartNs : s.noopStartNs = (r.stream clientId).noopStartNs)
    (gapCommitAcks : s.gapCommitAcks = (r.stream clientId).gapCommitAcks) :
    Proceeds r (r.setStream clientId s) := by
  apply proceeds_setStream
  · intro seq noop
    rwa [ClientStream.entry_congr log]
  · intro seq started
    rw [noopStartNs] at started
    exact .inl started
  · intro seq
    rw [gapCommitAcks]
    exact Finset.Subset.refl _

variable (r : Replica)

/-- Arming the timer touches neither the slots nor the agreements. -/
theorem proceeds_armGapTimer (clientId now : Nat) : Proceeds r (r.armGapTimer clientId now) := by
  have stored := r.proceeds_of_books clientId
    (s := { r.stream clientId with gapTimerId := (r.armGapTimer clientId now |>.stream
      clientId).gapTimerId }) rfl rfl rfl
  refine stored.trans (.of_clients ?_)
  simp [armGapTimer, setStream, stream]

/-- The frontier touches neither the slots nor the agreements. -/
theorem proceeds_advanceContiguous (clientId now : Nat) :
    Proceeds r (r.advanceContiguous clientId now) := by
  have walked := r.proceeds_of_books clientId
    (s := { r.stream clientId with
      nextExpected := (r.stream clientId).frontierFrom (r.stream clientId).log.size
        (r.stream clientId).nextExpected }) rfl rfl rfl
  unfold advanceContiguous
  dsimp only
  split
  · exact walked.trans (proceeds_armGapTimer _ clientId now)
  · exact walked

/-- A `Sync` keeps the NoOps and the agreements. -/
theorem proceeds_handleSync (remote : Address) (msg : SyncMessage) (recvNs : Nat) :
    Proceeds r (r.handleSync remote msg recvNs) :=
  (r.proceeds_of_books msg.clientId (by rfl) (by rfl) (by rfl)).trans (.of_clients rfl)

/-- A request is not recorded in a slot that has become a NoOp. -/
theorem proceeds_recordReceived (clientId seq : Nat) (payload : String) (sendTimeNs now : Nat) :
    Proceeds r (r.recordReceived clientId seq payload sendTimeNs now) := by
  unfold recordReceived
  dsimp only
  split
  · exact r.proceeds_of_books clientId rfl rfl rfl
  · rename_i undecided
    apply proceeds_setStream
    · intro other noop
      rw [ClientStream.entry_setEntry]
      split
      · rename_i same
        subst same
        exact absurd noop undecided
      · exact noop
    · exact fun other started => .inl started
    · exact fun other => Finset.Subset.refl _

/-- Data for a slot that has become a NoOp changes nothing. -/
theorem proceeds_handleData (remote : Address) (msg : DataMessage) (clock : Nat → Nat) :
    Proceeds r (r.handleData remote msg clock).1 := by
  unfold handleData
  split
  · exact .refl r
  · rename_i s found
    have present : (r.learnAddress msg.clientId remote).stream msg.clientId = s := by
      simp [stream, learnAddress, found]
    have learned : Proceeds r (r.learnAddress msg.clientId remote) := .of_clients rfl
    have stored : ∀ s' : ClientStream, s'.log = s.log → s'.noopStartNs = s.noopStartNs →
        s'.gapCommitAcks = s.gapCommitAcks →
        Proceeds r ((r.learnAddress msg.clientId remote).setStream msg.clientId s') := by
      intro s' log starts acks
      exact learned.trans (proceeds_of_books _ _ (by rw [log, present]) (by rw [starts, present])
        (by rw [acks, present]))
    dsimp only
    split
    · exact stored _ rfl rfl rfl
    · split
      · apply Proceeds.trans _ (proceeds_advanceContiguous _ _ _)
        apply Proceeds.trans _ (proceeds_recordReceived _ _ _ _ _ _)
        exact stored ((s.noteSeq msg.seqNum).reanchor msg.seqNum (clock 0)) rfl rfl rfl
      · exact stored _ rfl rfl rfl

/-- A gap request is answered, and decides nothing. -/
theorem proceeds_handleGapRequest (remote : Address) (msg : GapRequestMessage) :
    Proceeds r (r.handleGapRequest remote msg).1 := by
  unfold handleGapRequest
  split
  · dsimp only
    split <;> exact r.proceeds_of_books msg.clientId rfl rfl rfl
  · exact .refl r

/-- A gap reply fills a slot, unless it has become a NoOp. -/
theorem proceeds_handleGapReply (msg : GapReplyMessage) (clock : Nat → Nat) :
    Proceeds r (r.handleGapReply msg clock).1 := by
  have touched := r.proceeds_of_books msg.clientId (s := r.stream msg.clientId) rfl rfl rfl
  unfold handleGapReply
  split
  · dsimp only
    split
    · exact touched
    · apply Proceeds.trans _ (proceeds_advanceContiguous _ _ _)
      apply Proceeds.trans _ (proceeds_of_books _ msg.clientId _ _ _)
      · exact touched.trans (proceeds_recordReceived _ _ _ _ _ _)
      · rfl
      · rfl
      · rfl
  · exact .refl r

/-- A slot becomes a NoOp when the leader says so. -/
theorem proceeds_handleGapCommit (remote : Address) (msg : GapCommitMessage) (now : Nat) :
    Proceeds r (r.handleGapCommit remote msg now).1 := by
  have written : Proceeds r (r.setStream msg.clientId
      (((r.stream msg.clientId).setEntry msg.seqNum
        { (r.stream msg.clientId).entry msg.seqNum with state := .noop }).dropRequest
          msg.seqNum)) := by
    apply proceeds_setStream
    · intro seq noop
      rw [ClientStream.entry_dropRequest, ClientStream.entry_setEntry]
      split
      · rfl
      · exact noop
    · exact fun seq started => .inl started
    · exact fun seq => Finset.Subset.refl _
  exact written.trans (proceeds_advanceContiguous ..)

/-- A gap request that is sent is noted, and decides nothing. -/
theorem proceeds_sendGapRequest (clientId seq now : Nat) :
    Proceeds r (r.sendGapRequest clientId seq now).1 := by
  unfold sendGapRequest
  dsimp only
  split <;> exact r.proceeds_of_books clientId rfl rfl rfl

/-- The agreement is opened in the same breath as the slot becomes a NoOp. -/
theorem proceeds_startGapAgreement (leader : r.amLeader = true) (clientId seq now : Nat) :
    Proceeds r (r.startGapAgreement leader clientId seq now).1 := by
  unfold startGapAgreement
  dsimp only
  split
  · exact r.proceeds_of_books clientId rfl rfl rfl
  · apply proceeds_setStream
    · intro other noop
      rw [ClientStream.entry_startAgreement, ClientStream.entry_setEntry]
      split
      · rfl
      · exact noop
    · intro other started
      rw [ClientStream.entry_startAgreement, ClientStream.entry_setEntry]
      by_cases same : seq = other
      · exact .inr (by rw [if_pos same])
      · refine .inl ?_
        simpa [ClientStream.startAgreement, ClientStream.setEntry, agreeing,
          TreeMap.contains_insert, same] using started
    · intro other
      simp only [ClientStream.startAgreement, TreeMap.getElem?_insert]
      split
      · exact Finset.empty_subset _
      · exact Finset.Subset.refl _

/-- The leader makes the slot a NoOp before it opens the agreement, and another replica asks. -/
theorem proceeds_resolveGap (clientId slot now : Nat) :
    Proceeds r (r.resolveGap clientId slot now).1 := by
  unfold resolveGap
  split
  · exact r.proceeds_startGapAgreement _ clientId slot now
  · exact r.proceeds_sendGapRequest clientId slot now

/-- Slot by slot, what the leader opens an agreement on is a NoOp. -/
theorem proceeds_scanGaps (clientId nowNs : Nat) (clock : Nat → Nat) (slot slots : Nat) :
    Proceeds r (r.scanGaps clientId nowNs clock slot slots).1 := by
  induction slots generalizing r slot with
  | zero => exact .refl r
  | succ slots inductionHypothesis =>
      unfold scanGaps
      dsimp only
      split
      · exact inductionHypothesis r (slot + 1)
      · split
        · exact .refl r
        · exact (r.proceeds_resolveGap clientId slot (clock slot)).trans
            (inductionHypothesis _ (slot + 1))

/-- The timer resolves what is overdue, and is armed again. -/
theorem proceeds_onGapTimeout (clientId : Nat) (clock : Nat → Nat) :
    Proceeds r (r.onGapTimeout clientId clock).1 := by
  have disarmed := r.proceeds_of_books clientId
    (s := { r.stream clientId with gapTimerId := 0 }) rfl rfl rfl
  exact (disarmed.trans (proceeds_scanGaps ..)).trans (proceeds_advanceContiguous ..)

/-- A reply counts its sender for its own slot, and opens nothing. -/
theorem acks_handleGapCommitReply (msg : GapCommitReplyMessage) {clientId seq idx : Nat}
    (counted : idx ∈ (r.handleGapCommitReply msg).acks clientId seq) :
    idx ∈ r.acks clientId seq ∨
      idx = msg.replicaIdx ∧ clientId = msg.clientId ∧ seq = msg.seqNum := by
  unfold handleGapCommitReply at counted
  split at counted
  swap
  · exact .inl counted
  dsimp only at counted
  split at counted
  swap
  · simp only [acks, stream_setStream] at counted
    split at counted
    · rename_i same
      subst same
      exact .inl counted
    · exact .inl counted
  split at counted
  · simp only [acks, stream_setStream] at counted
    split at counted
    · rename_i same
      subst same
      simp only [TreeMap.getElem?_erase] at counted
      split at counted
      · simp at counted
      · exact .inl counted
    · exact .inl counted
  · simp only [acks, stream_setStream] at counted
    split at counted
    · rename_i same
      subst same
      simp only [TreeMap.getElem?_insert] at counted
      split at counted
      · rename_i sameSlot
        have slot : msg.seqNum = seq := by simpa using sameSlot
        subst slot
        rcases Finset.mem_insert.mp counted with new | old
        · exact .inr ⟨new, rfl, rfl⟩
        · exact .inl old
      · exact .inl counted
    · exact .inl counted

/-- A NoOp commit is acknowledged to its sender under the replica's own index. -/
theorem sends_handleGapCommit (remote : Address) (msg : GapCommitMessage) (now : Nat) :
    (r.handleGapCommit remote msg now).2 =
      [⟨remote, .gapCommitReply ⟨msg.clientId, msg.seqNum, r.viewId, r.replicaIdx⟩⟩] := by
  have same := identity_advanceContiguous (r.setStream msg.clientId
    (((r.stream msg.clientId).setEntry msg.seqNum
      { (r.stream msg.clientId).entry msg.seqNum with state := .noop }).dropRequest msg.seqNum))
      msg.clientId now
  simp only [identity, Prod.mk.injEq] at same
  obtain ⟨-, self, -, view⟩ := same
  simp only [handleGapCommit, self, view]
  rfl

/-- Every message but an acknowledgement. -/
theorem proceeds_receiveMessage {remote : Address} {msg : Message} {clock : Nat → Nat}
    (other : ∀ reply, msg ≠ .gapCommitReply reply) :
    Proceeds r (r.receiveMessage remote msg clock).1 := by
  cases msg with
  | sync msg => exact r.proceeds_handleSync remote msg (clock 0)
  | data msg => exact r.proceeds_handleData remote msg clock
  | gapRequest msg => exact r.proceeds_handleGapRequest remote msg
  | gapReply msg => exact r.proceeds_handleGapReply msg clock
  | gapCommit msg => exact r.proceeds_handleGapCommit remote msg (clock 0)
  | gapCommitReply msg => exact absurd rfl (other msg)
  | dataReply msg => exact .refl r

end Replica

/-! ## Who sends to whom -/

namespace Client

/-- Everything is addressed to a replica of the client's configuration. -/
def Aimed (c : Client) (sends : List Send) : Prop :=
  ∀ send ∈ sends, ∃ idx, idx < c.config.n ∧ send.dst = .replica idx

/-- A message to all replicas goes to those of the configuration. -/
theorem aimed_sendToReplicas (c : Client) (msg : Message) :
    c.Aimed (sendToReplicas c.config msg) := by
  intro send sent
  obtain ⟨idx, member, rfl⟩ := mem_sendToReplicas.mp sent
  exact ⟨idx, member, rfl⟩

/-- The send loop goes to the replicas alone. -/
theorem aimed_sendLoop {c c' : Client} {readings : List Nat} {sends : List Send}
    {lastNow : Nat} (looped : c.sendLoop readings = some (c', sends, lastNow)) :
    c.Aimed sends := by
  induction c, readings using sendLoop.induct generalizing c' sends lastNow with
  | case1 c => cases looped
  | case2 c now early =>
      simp only [sendLoop, early, if_true, Option.some.injEq, Prod.mk.injEq] at looped
      obtain ⟨-, rfl, -⟩ := looped
      intro send sent
      cases sent
  | case3 c now due => simp [sendLoop, due] at looped
  | case4 c now sendNow rest early => simp [sendLoop, early] at looped
  | case5 c now sendNow rest due stuck => simp [sendLoop, due, stuck] at looped
  | case6 c now sendNow rest due last later lastNow' completed inductionHypothesis =>
      simp only [sendLoop, due, if_false, completed, Option.some.injEq, Prod.mk.injEq] at looped
      obtain ⟨-, rfl, -⟩ := looped
      intro send sent
      rcases List.mem_append.mp sent with early | late
      · exact c.aimed_sendToReplicas _ send early
      · exact inductionHypothesis completed send late

/-- A send tick goes to the replicas alone. -/
theorem aimed_sendTick {c c' : Client} {readings : List Nat} {sends : List Send}
    (ticked : c.sendTick readings = some (c', sends)) : c.Aimed sends := by
  unfold sendTick at ticked
  split at ticked
  · cases ticked
  · rename_i looped
    obtain ⟨-, rfl⟩ := Prod.mk.inj (Option.some.inj ticked)
    exact aimed_sendLoop looped

/-- A request that is sent again goes to the replicas. -/
theorem aimed_onResendTimeout (c : Client) (seq now : Nat) :
    c.Aimed (c.onResendTimeout seq now).2 := by
  unfold onResendTimeout
  split
  · intro send sent
    cases sent
  · exact c.aimed_sendToReplicas _

/-- A client's timers only send to the replicas. -/
theorem aimed_fireTimer {c c' : Client} {id : Nat} {readings : List Nat} {sends : List Send}
    (fired : c.fireTimer id readings = some (c', sends)) : c.Aimed sends := by
  unfold fireTimer at fired
  split at fired
  · cases fired
  · dsimp only at fired
    split at fired
    · have aimed := aimed_sendTick fired
      exact aimed
    · have aimed := aimed_sendTick fired
      exact aimed
    · obtain ⟨-, rfl⟩ := Prod.mk.inj (Option.some.inj fired)
      exact aimed_onResendTimeout _ _ _
    · cases fired

end Client

namespace System

/-- A follower of the group that holds the slot as a NoOp. -/
def Endorses (d : Deployment) (s : System) (idx clientId seq : Nat) : Prop :=
  idx ≠ leaderIdx d ∧ idx < d.config.n ∧ ((s.replicas idx).entry clientId seq).state = .noop

/-- What every packet satisfies, by kind of message: the parties of the gap protocol are
replicas of the group, and an acknowledgement comes from a follower that holds the NoOp. -/
def Inside (d : Deployment) (s : System) (packet : Packet) : Prop :=
  match packet.msg with
  | .sync _ | .data _ | .gapReply _ | .gapCommit _ =>
    ∃ idx, idx < d.config.n ∧ packet.dst = .replica idx
  | .gapRequest _ => ∃ idx, idx < d.config.n ∧ packet.src = .replica idx
  | .gapCommitReply reply => s.Endorses d reply.replicaIdx reply.clientId reply.seqNum
  | .dataReply _ => True

/-- The invariant of the NoOp agreement. -/
structure Endorsed (d : Deployment) (s : System) : Prop where
  config : ∀ id, (s.clients id).config = d.config
  outside : ∀ idx, d.config.n ≤ idx → ∀ id : Nat, (s.replicas idx).timers.pending[id]? = none
  packets : ∀ packet ∈ s.network, s.Inside d packet
  opened : ∀ clientId seq, (s.replicas (leaderIdx d)).agreeing clientId seq = true →
    s.Decided d clientId seq
  acks : ∀ clientId seq idx, idx ∈ (s.replicas (leaderIdx d)).acks clientId seq →
    s.Endorses d idx clientId seq

/-- NoOps that are there stay there. -/
def NoopsStay (s s' : System) : Prop :=
  ∀ idx clientId seq, ((s.replicas idx).entry clientId seq).state = .noop →
    ((s'.replicas idx).entry clientId seq).state = .noop

section Steps

variable {d : Deployment} {s s' : System}

/-- An endorsement is kept: the NoOp stays. -/
theorem Endorses.mono (stay : s.NoopsStay s') {idx clientId seq : Nat}
    (endorses : s.Endorses d idx clientId seq) : s'.Endorses d idx clientId seq :=
  ⟨endorses.1, endorses.2.1, stay _ _ _ endorses.2.2⟩

/-- What a message stands for is kept: the NoOps stay. -/
theorem Inside.mono (stay : s.NoopsStay s') {packet : Packet} (inside : s.Inside d packet) :
    s'.Inside d packet := by
  unfold Inside at *
  cases found : packet.msg <;> rw [found] at inside
  case gapCommitReply reply => exact Endorses.mono stay inside
  all_goals exact inside

/-- Nothing has happened. -/
theorem endorsed_initial (d : Deployment) : Endorsed d (initial d) where
  config _ := rfl
  outside idx _ id := by simp [initial]
  packets packet sent := by cases sent
  opened clientId seq started := by
    simp [initial, Replica.agreeing, Replica.stream] at started
  acks clientId seq idx counted := by
    simp [initial, Replica.acks, Replica.stream] at counted

/-- A client's step touches no replica. -/
theorem endorsed_updateClient {id : Nat} {c : Client} {sends : List Send}
    (endorsed : Endorsed d s) (same : c.config = (s.clients id).config)
    (aimed : (s.clients id).Aimed sends)
    (kinds : ∀ send ∈ sends, (∃ sync, send.msg = .sync sync) ∨ ∃ data, send.msg = .data data) :
    Endorsed d (s.updateClient id c sends) := by
  constructor
  · intro other
    by_cases equal : other = id
    · subst equal
      simpa [updateClient, same] using endorsed.config other
    · simpa [updateClient, equal] using endorsed.config other
  · exact endorsed.outside
  · intro packet sent
    rcases List.mem_append.mp sent with old | new
    · exact (endorsed.packets packet old).mono fun _ _ _ noop => noop
    · obtain ⟨send, sending, rfl⟩ := mem_post.mp new
      obtain ⟨idx, member, dst⟩ := aimed send sending
      rw [endorsed.config id] at member
      rcases kinds send sending with ⟨sync, isSync⟩ | ⟨data, isData⟩
      · simp only [Inside, isSync]
        exact ⟨idx, member, dst⟩
      · simp only [Inside, isData]
        exact ⟨idx, member, dst⟩
  · exact endorsed.opened
  · exact endorsed.acks

/-- A replica's step: NoOps stay, what the leader opens is a NoOp, what it counts is endorsed,
and so is what is sent. -/
theorem endorsed_updateReplica {idx : Nat} {r : Replica} {sends : List Send}
    (endorsed : Endorsed d s) (stay : s.NoopsStay (s.updateReplica idx r sends))
    (outside : d.config.n ≤ idx → ∀ id : Nat, r.timers.pending[id]? = none)
    (inside : ∀ send ∈ sends, (s.updateReplica idx r sends).Inside d
      ⟨.replica idx, send.dst, send.msg⟩)
    (opened : idx = leaderIdx d → ∀ clientId seq, r.agreeing clientId seq = true →
      (s.replicas idx).agreeing clientId seq = true ∨ (r.entry clientId seq).state = .noop)
    (acks : idx = leaderIdx d → ∀ clientId seq other, other ∈ r.acks clientId seq →
      other ∈ (s.replicas idx).acks clientId seq ∨ s.Endorses d other clientId seq) :
    Endorsed d (s.updateReplica idx r sends) := by
  constructor
  · exact endorsed.config
  · intro other high
    by_cases equal : other = idx
    · subst equal
      simpa [updateReplica] using outside high
    · simpa [updateReplica, equal] using endorsed.outside other high
  · intro packet sent
    rcases List.mem_append.mp sent with old | new
    · exact (endorsed.packets packet old).mono stay
    · obtain ⟨send, sending, rfl⟩ := mem_post.mp new
      exact inside send sending
  · intro clientId seq started
    by_cases leader : idx = leaderIdx d
    · subst leader
      simp only [updateReplica, Function.update_self] at started
      rcases opened rfl clientId seq started with earlier | noop
      · exact stay _ _ _ (endorsed.opened clientId seq earlier)
      · simpa [Decided, leaderEntry_updateReplica] using noop
    · simp only [updateReplica, Function.update_of_ne (Ne.symm leader)] at started
      exact stay _ _ _ (endorsed.opened clientId seq started)
  · intro clientId seq other counted
    by_cases leader : idx = leaderIdx d
    · subst leader
      simp only [updateReplica, Function.update_self] at counted
      rcases acks rfl clientId seq other counted with earlier | endorses
      · exact (endorsed.acks clientId seq other earlier).mono stay
      · exact endorses.mono stay
    · simp only [updateReplica, Function.update_of_ne (Ne.symm leader)] at counted
      exact (endorsed.acks clientId seq other counted).mono stay

/-- Whatever a replica of the group sends when it receives a packet is addressed inside the
group, and an acknowledgement is for the NoOp it has just written. -/
theorem inside_receiveMessage {packet : Packet} {idx : Nat} {clock : Nat → Nat}
    (gapMode : d.options.gapEnabled = true) (aligned : Aligned d s) (endorsed : Endorsed d s)
    (inNetwork : packet ∈ s.network) (addressed : packet.dst = .replica idx) {send : Send}
    (sent : send ∈ ((s.replicas idx).receiveMessage packet.src packet.msg clock).2) :
    (s.updateReplica idx ((s.replicas idx).receiveMessage packet.src packet.msg clock).1
        ((s.replicas idx).receiveMessage packet.src packet.msg clock).2).Inside d
      ⟨.replica idx, send.dst, send.msg⟩ := by
  obtain ⟨_, self, options, _⟩ := aligned.fields idx
  have mode : (s.replicas idx).options.gapEnabled = true := by rw [options]; exact gapMode
  have inside := endorsed.packets packet inNetwork
  have backed := aligned.packets packet inNetwork
  cases found : packet.msg with
  | sync sync =>
      rw [found] at sent
      cases sent
  | data data =>
      rw [found] at sent
      obtain ⟨rfl, -⟩ := Replica.mem_handleData _ mode sent
      trivial
  | gapRequest request =>
      simp only [Inside, found] at inside
      rw [found] at sent
      obtain ⟨back, ⟨-, isReply⟩ | ⟨-, -, isCommit⟩⟩ := Replica.mem_handleGapRequest _ sent
      · simpa only [Inside, isReply, back] using inside
      · simpa only [Inside, isCommit, back] using inside
  | gapReply reply =>
      rw [found] at sent
      rcases Replica.handleGapReply_cases _ reply clock with ⟨-, silent⟩ | ⟨-, -, answers⟩
      · rw [Replica.receiveMessage, silent] at sent
        cases sent
      · obtain ⟨addr, -, rfl⟩ := answers send sent
        trivial
  | gapCommit commit =>
      simp only [Backed, found, addressed] at backed
      simp only [Inside, found, addressed] at inside
      obtain ⟨member, bounded, same⟩ := inside
      rw [found, Replica.receiveMessage, Replica.sends_handleGapCommit, self] at sent
      obtain rfl := List.mem_singleton.mp sent
      refine ⟨?_, ?_, ?_⟩
      · exact fun leader => backed.1 (congrArg Address.replica leader)
      · exact Address.replica.inj same ▸ bounded
      · simp [updateReplica, Replica.receiveMessage, Replica.entry_handleGapCommit]
  | gapCommitReply reply =>
      rw [found] at sent
      cases sent
  | dataReply reply =>
      rw [found] at sent
      cases sent

/-- A replica outside the group arms no timer when it receives a packet: only messages that
are never sent to it would. -/
theorem pending_receiveMessage {packet : Packet} {idx : Nat} {clock : Nat → Nat}
    (nonempty : 0 < d.config.n) (aligned : Aligned d s) (endorsed : Endorsed d s)
    (inNetwork : packet ∈ s.network) (addressed : packet.dst = .replica idx)
    (high : d.config.n ≤ idx) :
    ((s.replicas idx).receiveMessage packet.src packet.msg clock).1.timers =
      (s.replicas idx).timers := by
  have inside := endorsed.packets packet inNetwork
  have follows : (s.replicas idx).amLeader = false := by
    have bounded : leaderIdx d < d.config.n := Configuration.getLeaderIndex_lt nonempty 0
    rw [Bool.eq_false_iff, ne_eq, aligned.amLeader_iff]
    omega
  cases found : packet.msg with
  | sync | data | gapReply | gapCommit =>
      simp only [Inside, found, addressed] at inside
      obtain ⟨member, bounded, same⟩ := inside
      have equal : idx = member := Address.replica.inj same
      omega
  | gapRequest request => simp [Replica.receiveMessage, Replica.handleGapRequest, follows]
  | gapCommitReply reply => simp [Replica.receiveMessage, Replica.handleGapCommitReply, follows]
  | dataReply reply => rfl

/-- A replica's step on a packet keeps the agreement. -/
theorem endorsed_receive_replica {packet : Packet} {idx : Nat} {clock : Nat → Nat}
    (gapMode : d.options.gapEnabled = true) (nonempty : 0 < d.config.n) (aligned : Aligned d s)
    (endorsed : Endorsed d s) (inNetwork : packet ∈ s.network)
    (addressed : packet.dst = .replica idx)
    (stay : s.NoopsStay (s.updateReplica idx
      ((s.replicas idx).receiveMessage packet.src packet.msg clock).1
      ((s.replicas idx).receiveMessage packet.src packet.msg clock).2)) :
    Endorsed d (s.updateReplica idx
      ((s.replicas idx).receiveMessage packet.src packet.msg clock).1
      ((s.replicas idx).receiveMessage packet.src packet.msg clock).2) := by
  have inside := endorsed.packets packet inNetwork
  apply endorsed_updateReplica endorsed stay
  · intro high id
    rw [pending_receiveMessage nonempty aligned endorsed inNetwork addressed high]
    exact endorsed.outside idx high id
  · exact fun send sent =>
      inside_receiveMessage gapMode aligned endorsed inNetwork addressed sent
  · intro _ clientId seq started
    by_cases ack : ∃ reply, packet.msg = .gapCommitReply reply
    · obtain ⟨reply, isReply⟩ := ack
      rw [isReply] at started
      simp only [Replica.receiveMessage, Replica.agreeing_handleGapCommitReply,
        Bool.and_eq_true] at started
      exact .inl started.1
    · exact (Replica.proceeds_receiveMessage _ (not_exists.mp ack)).opened _ _ started
  · intro _ clientId seq other counted
    by_cases ack : ∃ reply, packet.msg = .gapCommitReply reply
    · obtain ⟨reply, isReply⟩ := ack
      rw [isReply] at counted
      rcases Replica.acks_handleGapCommitReply _ reply counted with earlier | ⟨rfl, rfl, rfl⟩
      · exact .inl earlier
      · simp only [Inside, isReply] at inside
        exact .inr inside
    · exact .inl ((Replica.proceeds_receiveMessage _ (not_exists.mp ack)).acks _ _ counted)

/-- The gap timer of a replica keeps the agreement. -/
theorem endorsed_fireReplicaTimer {idx id : Nat} {clock : Nat → Nat} (aligned : Aligned d s)
    (endorsed : Endorsed d s) (fired : s.fireReplicaTimer idx id clock = some s')
    (stay : s.NoopsStay s') : Endorsed d s' := by
  unfold fireReplicaTimer at fired
  dsimp only at fired
  split at fired
  · cases fired
  · rename_i timer pending
    obtain rfl := Option.some.inj fired
    have member : idx < d.config.n := by
      by_contra high
      rw [endorsed.outside idx (Nat.le_of_not_lt high) id] at pending
      cases pending
    obtain ⟨config, _, _, view⟩ := aligned.fields idx
    have forgotten : Replica.Proceeds (s.replicas idx)
        { s.replicas idx with timers := (s.replicas idx).timers.cancelTimer id } :=
      .of_clients rfl
    have proceeds := forgotten.trans (Replica.proceeds_onGapTimeout _ timer.callback clock)
    apply endorsed_updateReplica endorsed stay
    · intro high
      omega
    · intro send sent
      rcases Replica.mem_onGapTimeout _ _ sent with
        ⟨_, other, seq, inGroup, _, rfl⟩ | ⟨_, seq, rfl⟩
      · exact ⟨other, by simpa [config] using inGroup, rfl⟩
      · exact ⟨idx, member, rfl⟩
    · exact fun _ => proceeds.opened
    · exact fun _ clientId seq other counted => .inl (proceeds.acks clientId seq counted)

/-- One step of the system keeps the agreement. -/
theorem Endorsed.step {action : Action} (gapMode : d.options.gapEnabled = true)
    (nonempty : 0 < d.config.n) (aligned : Aligned d s) (endorsed : Endorsed d s)
    (transition : s.step d action = some s') : Endorsed d s' := by
  have stay : s.NoopsStay s' := fun idx clientId seq =>
    ((aligned.step gapMode transition).2 idx clientId seq).noop_of_noop
  cases action with
  | start clientId now =>
      simp only [System.step] at transition
      split at transition
      · cases transition
      · obtain rfl := Option.some.inj transition
        apply endorsed_updateClient endorsed
        · rfl
        · exact Client.aimed_sendToReplicas _ _
        · intro send sent
          obtain ⟨idx, -, rfl⟩ := mem_sendToReplicas.mp sent
          exact .inl ⟨_, rfl⟩
  | clientTimer clientId id readings =>
      simp only [System.step] at transition
      split at transition
      · cases transition
      · rename_i c sends fired
        obtain rfl := Option.some.inj transition
        have attempts := Client.attempts_fireTimer fired
        apply endorsed_updateClient endorsed (congrArg Prod.fst attempts.same)
          (Client.aimed_fireTimer fired)
        intro send sent
        obtain ⟨idx, seq, -, data, isData, -⟩ := attempts.posted send sent
        exact .inr ⟨data, isData⟩
  | replicaTimer idx id clock =>
      exact endorsed_fireReplicaTimer aligned endorsed transition stay
  | deliver position clock =>
      simp only [System.step] at transition
      split at transition
      · cases transition
      · rename_i packet found
        obtain rfl := Option.some.inj transition
        have inNetwork := List.mem_of_getElem? found
        unfold receive at stay ⊢
        split at stay
        · rename_i idx addressed
          exact endorsed_receive_replica gapMode nonempty aligned endorsed inNetwork addressed stay
        · rename_i id addressed
          have same : ((s.clients id).receiveMessage d.overshift packet.msg).1.config =
              (s.clients id).config :=
            congrArg Prod.fst (Client.identity_receiveMessage d.overshift (s.clients id) packet.msg)
          obtain ⟨config, outside, packets, opened, acks⟩ := endorsed
          refine ⟨fun other => ?_, outside, ?_, opened, acks⟩
          · by_cases equal : other = id
            · subst equal
              simpa [same] using config other
            · simpa [equal] using config other
          · exact fun packet sent => (packets packet sent).mono fun _ _ _ noop => noop

end Steps

/-! ## Every run in gap mode -/

/-- The invariants of the logs and of the agreement hold along every run. -/
theorem invariant_endorsed (d : Deployment) (gapMode : d.options.gapEnabled = true)
    (nonempty : 0 < d.config.n) :
    (system d).Invariant TransitionSystem.unguarded fun s => Aligned d s ∧ Endorsed d s where
  initial s start := by
    rw [show s = initial d from start]
    exact ⟨aligned_initial d, endorsed_initial d⟩
  preserved holds _ transition :=
    ⟨(holds.1.step gapMode transition).1, holds.2.step gapMode nonempty holds.1 transition⟩

/-- The step delivers an acknowledgement on which its receiver declares the slot durable. -/
def DeclaresDurable (s : System) (action : Action) (clientId seq : Nat) : Prop :=
  ∃ position clock packet idx reply, action = .deliver position clock ∧
    s.network[position]? = some packet ∧ packet.dst = .replica idx ∧
    packet.msg = .gapCommitReply reply ∧ (s.replicas idx).declaresDurable reply = true ∧
    reply.clientId = clientId ∧ reply.seqNum = seq

/-- In gap mode, whenever the leader declares a slot durable, `f + 1` replicas of the group,
the leader among them, hold the slot as a NoOp, and do so in every later state. -/
theorem durable_of_reachable (d : Deployment) (gapMode : d.options.gapEnabled = true)
    (balanced : d.config.Balanced) {s s' : System} {action : Action} {clientId seq : Nat}
    (reachable : (system d).Reachable TransitionSystem.unguarded s)
    (transition : (system d).step s action = some s')
    (declared : s.DeclaresDurable action clientId seq) :
    ∃ holders : Finset Nat, d.config.f + 1 ≤ holders.card ∧ leaderIdx d ∈ holders ∧
      (∀ idx ∈ holders, idx < d.config.n) ∧
      ∀ actions later, (system d).Steps TransitionSystem.unguarded s' actions later →
        ∀ idx ∈ holders, ((later.replicas idx).entry clientId seq).state = .noop := by
  obtain ⟨aligned, endorsed⟩ :=
    (invariant_endorsed d gapMode balanced.pos).of_reachable reachable
  obtain ⟨position, clock, packet, idx, reply, rfl, found, addressed, isReply, durable, rfl, rfl⟩ :=
    declared
  simp only [Replica.declaresDurable, Bool.and_eq_true, decide_eq_true_eq] at durable
  obtain ⟨⟨leads, started⟩, enough⟩ := durable
  obtain rfl : idx = leaderIdx d := (aligned.amLeader_iff idx).mp leads
  have decided := endorsed.opened _ _ started
  have inside := endorsed.packets packet (List.mem_of_getElem? found)
  simp only [Inside, isReply] at inside
  have endorse : ∀ other ∈ insert reply.replicaIdx
      ((s.replicas (leaderIdx d)).acks reply.clientId reply.seqNum),
      s.Endorses d other reply.clientId reply.seqNum := by
    intro other counted
    rcases Finset.mem_insert.mp counted with rfl | earlier
    · exact inside
    · exact endorsed.acks _ _ other earlier
  refine ⟨insert (leaderIdx d) (insert reply.replicaIdx
    ((s.replicas (leaderIdx d)).acks reply.clientId reply.seqNum)), ?_, ?_, ?_, ?_⟩
  · rw [Finset.card_insert_of_notMem fun counted => (endorse _ counted).1 rfl]
    rw [(aligned.fields _).1, Configuration.quorumSize] at enough
    omega
  · exact Finset.mem_insert_self _ _
  · intro other held
    rcases Finset.mem_insert.mp held with rfl | counted
    · exact Configuration.getLeaderIndex_lt balanced.pos 0
    · exact (endorse other counted).2.1
  · intro actions later steps other held
    have noop : ((s.replicas other).entry reply.clientId reply.seqNum).state = .noop := by
      rcases Finset.mem_insert.mp held with rfl | counted
      · exact decided
      · exact (endorse other counted).2.2
    have run := (TransitionSystem.Steps.step .refl trivial transition).trans steps
    exact noop_invariant d gapMode aligned run other _ _ noop

/-- Replica 2's acknowledgement of slot 1 in view 0. -/
def acknowledged : GapCommitReplyMessage where
  clientId := 7
  seqNum := 1
  viewId := 0
  replicaIdx := 2

/-- The packet that carries it to the leader. -/
def acknowledgement : Packet where
  src := .replica 2
  dst := .replica 0
  msg := .gapCommitReply acknowledged

set_option maxRecDepth 10000 in
/-- After `noopRun` that acknowledgement is in the network and makes slot 1 durable. -/
theorem durable_noopRun : ∃ s s' : System,
    (system trio).step s (.deliver 12 (clockAt 5024)) = some s' ∧
      ∃ holders : Finset Nat, 2 ≤ holders.card ∧ 0 ∈ holders ∧ (∀ idx ∈ holders, idx < 3) ∧
        ∀ actions later, (system trio).Steps TransitionSystem.unguarded s' actions later →
          ∀ idx ∈ holders, ((later.replicas idx).entry 7 1).state = .noop := by
  obtain ⟨s, reachable, ready⟩ :=
    (system trio).exists_reachable_of_run TransitionSystem.unguarded
      (fun s => decide (s.network[12]? = some acknowledgement ∧
        (s.replicas 0).declaresDurable acknowledged = true))
      noopRun rfl (by decide)
  obtain ⟨sent, durable⟩ := of_decide_eq_true ready
  have transition : (system trio).step s (.deliver 12 (clockAt 5024)) = some
      (s.receive trio acknowledgement (clockAt 5024)) := by
    simp [system, step, sent]
  exact ⟨s, _, transition, durable_of_reachable trio rfl (by decide) reachable transition
    ⟨12, clockAt 5024, acknowledgement, 0, acknowledged, rfl, sent, rfl, rfl, durable, rfl, rfl⟩⟩

end System

end PaxosBus.Bus

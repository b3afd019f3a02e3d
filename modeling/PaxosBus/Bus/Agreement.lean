import PaxosBus.Bus.Gaps
import PaxosBus.Bus.Numbering
import PaxosBus.Bus.Committed

/-!
# Agreement of the replicas' logs

A slot is resolved once: the leader decides it by filling it with data or by
turning it into a NoOp, and a NoOp reaches a follower only after the leader has
one. Data for a slot is always the one message that the client sent in it.
`Aligned` is the invariant; `SlotStep` is everything that one step may do to one
slot of one replica.
-/

set_option autoImplicit false

namespace PaxosBus.Bus

open Std PaxosBus.Common PaxosBus.Library

namespace System

/-- The slot of the leader's log is a NoOp. -/
def Decided (d : Deployment) (s : System) (clientId seq : Nat) : Prop :=
  (s.leaderEntry d clientId seq).state = .noop

/-- The data message has been sent. -/
def Posted (s : System) (data : DataMessage) : Prop :=
  ∃ packet ∈ s.network, packet.msg = .data data

/-- The slot's payload and send time are those of a data message sent in it. -/
def Carries (s : System) (clientId seq : Nat) (payload : String) (sendTimeNs : Nat) : Prop :=
  ∃ data, s.Posted data ∧ data.clientId = clientId ∧ data.seqNum = seq ∧
    data.payload = payload ∧ data.sendTimeNs = sendTimeNs

/-- In every slot of every client: a follower's NoOp is the leader's, and data at two replicas
is the same data. -/
structure SlotsAgree (d : Deployment) (s : System) : Prop where
  noop : ∀ idx clientId seq, idx ≠ leaderIdx d →
    ((s.replicas idx).entry clientId seq).state = .noop → s.Decided d clientId seq
  received : ∀ idx idx' clientId seq, ((s.replicas idx).entry clientId seq).state = .received →
    ((s.replicas idx').entry clientId seq).state = .received →
      ((s.replicas idx).entry clientId seq).payload =
          ((s.replicas idx').entry clientId seq).payload ∧
        ((s.replicas idx).entry clientId seq).sendTimeNs =
          ((s.replicas idx').entry clientId seq).sendTimeNs

/-- What is final between two states of a run: NoOps anywhere, and data at the leader. -/
structure SlotsFinal (d : Deployment) (s s' : System) : Prop where
  noop : ∀ idx clientId seq, ((s.replicas idx).entry clientId seq).state = .noop →
    ((s'.replicas idx).entry clientId seq).state ≠ .received
  received : ∀ clientId seq, (s.leaderEntry d clientId seq).state = .received →
    (s'.leaderEntry d clientId seq).state ≠ .noop

/-- Everything that one step may do to a slot: leave it, fill it with data that was sent in
it, decide a NoOp at the leader, or learn a decided NoOp at a follower. -/
inductive SlotStep (d : Deployment) (s : System) (idx clientId seq : Nat)
    (before after : LogEntry) : Prop where
  | kept (same : after = before)
  | recorded (unresolved : before.state ≠ .noop) (received : after.state = .received)
      (carried : s.Carries clientId seq after.payload after.sendTimeNs)
  | agreed (leader : idx = leaderIdx d) (missing : before.state = .empty)
      (noop : after.state = .noop)
  | learned (follower : idx ≠ leaderIdx d) (decided : s.Decided d clientId seq)
      (noop : after.state = .noop)

/-- What every packet satisfies, by kind of message. A request for a gap comes from a
follower, so its answer goes to one; data in an answer was sent by the client, and a NoOp
commit is for a decided slot. -/
def Backed (d : Deployment) (s : System) (packet : Packet) : Prop :=
  match packet.msg with
  | .data data => data.seqNum ≤ (s.clients data.clientId).seqNum
  | .gapRequest _ => packet.src ≠ .replica (leaderIdx d)
  | .gapReply reply => packet.dst ≠ .replica (leaderIdx d) ∧
      s.Carries reply.clientId reply.seqNum reply.payload reply.sendTimeNs
  | .gapCommit commit => packet.dst ≠ .replica (leaderIdx d) ∧
      s.Decided d commit.clientId commit.seqNum
  | .sync _ | .dataReply _ | .gapCommitReply _ => True

/-- The invariant of every run. -/
structure Aligned (d : Deployment) (s : System) : Prop where
  replicas : ∀ idx, (s.replicas idx).identity = (d.config, idx, d.options, 0)
  clients : ∀ id, (s.clients id).clientId = id
  packets : ∀ packet ∈ s.network, s.Backed d packet
  single : ∀ {data data'}, s.Posted data → s.Posted data' → data.clientId = data'.clientId →
    data.seqNum = data'.seqNum → data = data'
  noop : ∀ {idx clientId seq}, ((s.replicas idx).entry clientId seq).state = .noop →
    s.Decided d clientId seq
  received : ∀ {idx clientId seq}, ((s.replicas idx).entry clientId seq).state = .received →
    s.Carries clientId seq ((s.replicas idx).entry clientId seq).payload
      ((s.replicas idx).entry clientId seq).sendTimeNs

section SlotSteps

variable {d : Deployment} {s : System} {idx clientId seq : Nat} {before after : LogEntry}

/-- A NoOp stays one. -/
theorem SlotStep.noop_of_noop (step : SlotStep d s idx clientId seq before after)
    (noop : before.state = .noop) : after.state = .noop := by
  cases step with
  | kept same => rwa [same]
  | recorded unresolved _ _ => exact absurd noop unresolved
  | agreed _ _ noop' => exact noop'
  | learned _ _ noop' => exact noop'

/-- Data at the leader stays. -/
theorem SlotStep.received_of_received
    (step : SlotStep d s (leaderIdx d) clientId seq before after)
    (received : before.state = .received) : after.state = .received := by
  cases step with
  | kept same => rwa [same]
  | recorded _ received' _ => exact received'
  | agreed _ missing _ =>
      rw [received] at missing
      cases missing
  | learned follower _ _ => exact absurd rfl follower

theorem Posted.mono {s s' : System} {data : DataMessage}
    (grown : ∀ packet ∈ s.network, packet ∈ s'.network) (posted : s.Posted data) :
    s'.Posted data := by
  obtain ⟨packet, sent, isData⟩ := posted
  exact ⟨packet, grown packet sent, isData⟩

theorem Carries.mono {s s' : System} {payload : String} {sendTimeNs : Nat}
    (grown : ∀ packet ∈ s.network, packet ∈ s'.network)
    (carried : s.Carries clientId seq payload sendTimeNs) :
    s'.Carries clientId seq payload sendTimeNs := by
  obtain ⟨data, posted, matching⟩ := carried
  exact ⟨data, posted.mono grown, matching⟩

/-- A packet stays backed while the network and the clients' numbering grow and the leader's
NoOps stay. -/
theorem Backed.mono {s s' : System} {packet : Packet}
    (grown : ∀ packet ∈ s.network, packet ∈ s'.network)
    (numbers : ∀ id, (s.clients id).seqNum ≤ (s'.clients id).seqNum)
    (stays : ∀ {clientId seq}, s.Decided d clientId seq → s'.Decided d clientId seq)
    (backed : s.Backed d packet) : s'.Backed d packet := by
  unfold Backed at *
  cases found : packet.msg with
  | data data =>
      rw [found] at backed
      exact Nat.le_trans backed (numbers data.clientId)
  | gapReply reply =>
      rw [found] at backed
      exact ⟨backed.1, backed.2.mono grown⟩
  | gapCommit commit =>
      rw [found] at backed
      exact ⟨backed.1, stays backed.2⟩
  | gapRequest request =>
      rw [found] at backed
      exact backed
  | sync | dataReply | gapCommitReply => trivial

end SlotSteps

section Steps

variable {d : Deployment} {s : System}

/-- A replica of the group knows its configuration, index, options and view. -/
theorem Aligned.fields (aligned : Aligned d s) (idx : Nat) :
    (s.replicas idx).config = d.config ∧ (s.replicas idx).replicaIdx = idx ∧
      (s.replicas idx).options = d.options ∧ (s.replicas idx).viewId = 0 := by
  simpa [Replica.identity] using aligned.replicas idx

theorem Aligned.amLeader_iff (aligned : Aligned d s) (idx : Nat) :
    (s.replicas idx).amLeader = true ↔ idx = leaderIdx d := by
  obtain ⟨config, self, _, view⟩ := aligned.fields idx
  simp only [Replica.amLeader, config, self, view, beq_iff_eq]
  exact eq_comm

/-- The initial state has empty logs and no packet. -/
theorem aligned_initial (d : Deployment) : Aligned d (initial d) where
  replicas _ := rfl
  clients _ := rfl
  packets packet sent := by cases sent
  single posted := by
    obtain ⟨packet, sent, _⟩ := posted
    cases sent
  noop noop := by
    simp [initial, Replica.entry, Replica.stream, ClientStream.entry] at noop
  received received := by
    simp [initial, Replica.entry, Replica.stream, ClientStream.entry] at received

/-- A client's timer or its start sends data in fresh slots only, so a slot keeps its one
message. -/
theorem aligned_updateClient {id : Nat} {c : Client} {sends : List Send} (aligned : Aligned d s)
    (numbered : Client.Numbered (s.clients id) c sends) :
    Aligned d (s.updateClient id c sends) := by
  have grown : ∀ packet ∈ s.network, packet ∈ (s.updateClient id c sends).network :=
    fun packet sent => List.mem_append_left _ sent
  have self : (s.clients id).clientId = id := aligned.clients id
  have numbers : ∀ other, (s.clients other).seqNum ≤
      ((s.updateClient id c sends).clients other).seqNum := by
    intro other
    by_cases equal : other = id
    · subst equal
      simpa [updateClient] using numbered.grows
    · simp [updateClient, equal]
  have fresh : ∀ {data}, (∃ send ∈ sends, send.msg = .data data) →
      data.clientId = id ∧ (s.clients id).seqNum < data.seqNum ∧ data.seqNum ≤ c.seqNum := by
    rintro data ⟨send, sending, isData⟩
    rcases numbered.fresh send sending with ⟨sync, isSync⟩ | ⟨data', isData', mine, low, high⟩
    · rw [isSync] at isData
      cases isData
    · rw [isData'] at isData
      cases isData
      exact ⟨mine.trans self, low, high⟩
  have split : ∀ {data}, (s.updateClient id c sends).Posted data →
      s.Posted data ∨ ∃ send ∈ sends, send.msg = .data data := by
    rintro data ⟨packet, sent, isData⟩
    rcases List.mem_append.mp sent with old | new
    · exact .inl ⟨packet, old, isData⟩
    · obtain ⟨send, sending, rfl⟩ := mem_post.mp new
      exact .inr ⟨send, sending, isData⟩
  have used : ∀ {data}, s.Posted data → data.seqNum ≤ (s.clients data.clientId).seqNum := by
    rintro data ⟨packet, sent, isData⟩
    have backed := aligned.packets packet sent
    simpa only [Backed, isData] using backed
  constructor
  · exact aligned.replicas
  · intro other
    by_cases equal : other = id
    · subst equal
      simpa [updateClient] using numbered.same.trans self
    · simpa [updateClient, equal] using aligned.clients other
  · intro packet sent
    rcases List.mem_append.mp sent with old | new
    · exact (aligned.packets packet old).mono grown numbers fun decided => decided
    · obtain ⟨send, sending, rfl⟩ := mem_post.mp new
      rcases numbered.fresh send sending with ⟨sync, isSync⟩ | ⟨data, isData, mine, _, high⟩
      · simp [Backed, isSync]
      · simpa [Backed, isData, mine, self, updateClient] using high
  · -- an old message's slot is at most the client's count, a new one's is above it
    intro data data' posted posted' sameClient sameSlot
    rcases split posted with old | new
    · rcases split posted' with old' | new'
      · exact aligned.single old old' sameClient sameSlot
      · obtain ⟨mine, low, _⟩ := fresh new'
        have high := used old
        rw [sameClient, mine] at high
        omega
    · rcases split posted' with old' | new'
      · obtain ⟨mine, low, _⟩ := fresh new
        have high := used old'
        rw [← sameClient, mine] at high
        omega
      · obtain ⟨send, sending, isData⟩ := new
        obtain ⟨send', sending', isData'⟩ := new'
        exact numbered.single send sending send' sending' data data' isData isData' sameSlot
  · exact aligned.noop
  · exact fun received => (aligned.received received).mono grown

/-- A client that only hears a reply sends nothing and takes no slot. -/
theorem aligned_hearing {id : Nat} {c : Client} {committed : List (Nat × Nat)}
    (aligned : Aligned d s) (same : c.clientId = (s.clients id).clientId)
    (number : c.seqNum = (s.clients id).seqNum) :
    Aligned d { s with clients := Function.update s.clients id c, committed } := by
  constructor
  · exact aligned.replicas
  · intro other
    by_cases equal : other = id
    · subst equal
      simpa using same.trans (aligned.clients other)
    · simpa [equal] using aligned.clients other
  · intro packet sent
    refine Backed.mono (s := s) (fun _ old => old) (fun other => ?_) (fun decided => decided)
      (aligned.packets packet sent)
    by_cases equal : other = id
    · subst equal
      simp [number]
    · simp [equal]
  · exact aligned.single
  · exact aligned.noop
  · exact aligned.received

/-- A replica keeps the invariant when each of its slots takes an allowed step and it sends
backed packets. -/
theorem aligned_updateReplica {idx : Nat} {r : Replica} {sends : List Send}
    (aligned : Aligned d s) (same : r.identity = (s.replicas idx).identity)
    (slots : ∀ clientId seq, SlotStep d s idx clientId seq
      ((s.replicas idx).entry clientId seq) (r.entry clientId seq))
    (backed : ∀ send ∈ sends, (s.updateReplica idx r sends).Backed d
      ⟨.replica idx, send.dst, send.msg⟩)
    (silent : ∀ send ∈ sends, ∀ data, send.msg ≠ .data data) :
    Aligned d (s.updateReplica idx r sends) := by
  have grown : ∀ packet ∈ s.network, packet ∈ (s.updateReplica idx r sends).network :=
    fun packet sent => List.mem_append_left _ sent
  have older : ∀ {data}, (s.updateReplica idx r sends).Posted data → s.Posted data := by
    rintro data ⟨packet, sent, isData⟩
    rcases List.mem_append.mp sent with old | new
    · exact ⟨packet, old, isData⟩
    · obtain ⟨send, sending, rfl⟩ := mem_post.mp new
      exact absurd isData (silent send sending data)
  have stays : ∀ {clientId seq}, s.Decided d clientId seq →
      (s.updateReplica idx r sends).Decided d clientId seq := by
    intro clientId seq decided
    unfold Decided
    rw [leaderEntry_updateReplica]
    split
    · rename_i leader
      subst leader
      exact (slots clientId seq).noop_of_noop decided
    · exact decided
  constructor
  · intro other
    by_cases equal : other = idx
    · subst equal
      simpa [updateReplica, same] using aligned.replicas other
    · simpa [updateReplica, equal] using aligned.replicas other
  · exact aligned.clients
  · intro packet sent
    rcases List.mem_append.mp sent with old | new
    · exact (aligned.packets packet old).mono grown (fun _ => Nat.le_refl _) stays
    · obtain ⟨send, sending, rfl⟩ := mem_post.mp new
      exact backed send sending
  · exact fun posted posted' => aligned.single (older posted) (older posted')
  · intro other clientId seq noop
    by_cases equal : other = idx
    · subst equal
      simp only [updateReplica, Function.update_self] at noop
      cases slots clientId seq with
      | kept unchanged => exact stays (aligned.noop (unchanged ▸ noop))
      | recorded _ received _ =>
          rw [noop] at received
          cases received
      | agreed leader _ _ =>
          unfold Decided
          rw [leaderEntry_updateReplica, if_pos leader]
          exact noop
      | learned _ decided _ => exact stays decided
    · simp only [updateReplica, Function.update_of_ne equal] at noop
      exact stays (aligned.noop noop)
  · intro other clientId seq received
    by_cases equal : other = idx
    · subst equal
      simp only [updateReplica, Function.update_self] at received ⊢
      cases slots clientId seq with
      | kept unchanged =>
          rw [unchanged] at received ⊢
          exact (aligned.received received).mono grown
      | recorded _ _ carried => exact carried.mono grown
      | agreed _ _ noop =>
          rw [received] at noop
          cases noop
      | learned _ _ noop =>
          rw [received] at noop
          cases noop
    · simp only [updateReplica, Function.update_of_ne equal] at received ⊢
      exact (aligned.received received).mono grown

/-- What a delivery may do to a slot: data is recorded unless the slot holds a NoOp, recovered
data fills an empty slot, and a NoOp commit is backed by the leader's NoOp. -/
theorem slotStep_receiveMessage {packet : Packet} {idx : Nat} (clock : Nat → Nat)
    (gapMode : d.options.gapEnabled = true) (aligned : Aligned d s)
    (inNetwork : packet ∈ s.network) (addressed : packet.dst = .replica idx)
    (clientId seq : Nat) :
    SlotStep d s idx clientId seq ((s.replicas idx).entry clientId seq)
      (((s.replicas idx).receiveMessage packet.src packet.msg clock).1.entry clientId seq) := by
  obtain ⟨_, _, options, _⟩ := aligned.fields idx
  have mode : (s.replicas idx).options.gapEnabled = true := by rw [options]; exact gapMode
  have backed := aligned.packets packet inNetwork
  cases found : packet.msg with
  | sync sync => exact .kept (Replica.entry_handleSync _ _ _ _ _ _)
  | data data =>
      rcases Replica.entry_handleData _ clientId seq packet.src data clock mode with
        unchanged | ⟨mine, slot, unresolved, written⟩
      · exact .kept unchanged
      · refine .recorded unresolved ?_ ?_
        · simp only [Replica.receiveMessage, written]
        · simp only [Replica.receiveMessage, written]
          exact ⟨data, ⟨packet, inNetwork, found⟩, mine, slot, rfl, rfl⟩
  | gapRequest request => exact .kept (Replica.entry_handleGapRequest _ _ _ _ _)
  | gapReply reply =>
      simp only [Backed, found] at backed
      rcases Replica.handleGapReply_cases _ reply clock with ⟨same, _⟩ | ⟨empty, written, _⟩
      · exact .kept (same clientId seq)
      · simp only [Replica.receiveMessage, written]
        split
        · rename_i slot
          obtain ⟨rfl, rfl⟩ := slot
          exact .recorded (by simp [empty]) rfl backed.2
        · exact .kept rfl
  | gapCommit commit =>
      simp only [Backed, found, addressed] at backed
      simp only [Replica.receiveMessage, Replica.entry_handleGapCommit]
      split
      · rename_i slot
        obtain ⟨rfl, rfl⟩ := slot
        have follower : idx ≠ leaderIdx d := fun leader => backed.1 (congrArg Address.replica leader)
        exact .learned follower backed.2 rfl
      · exact .kept rfl
  | gapCommitReply reply => exact .kept (Replica.entry_handleGapCommitReply _ _ _ _)
  | dataReply reply => exact .kept rfl

/-- What the gap timer may do to a slot: only the leader's timer writes, and only empty slots. -/
theorem slotStep_onGapTimeout {idx c : Nat} (clock : Nat → Nat) {r : Replica}
    (aligned : Aligned d s) (same : r.identity = (s.replicas idx).identity)
    (unchanged : r.clients = (s.replicas idx).clients) (clientId seq : Nat) :
    SlotStep d s idx clientId seq ((s.replicas idx).entry clientId seq)
      ((r.onGapTimeout c clock).1.entry clientId seq) := by
  have entries := Replica.entry_congr unchanged clientId seq
  rcases r.entry_onGapTimeout_cases clientId seq c clock with kept | ⟨leads, missing, noop⟩
  · exact .kept (kept.trans entries)
  · rw [Replica.amLeader_congr same, aligned.amLeader_iff] at leads
    rw [entries] at missing
    exact .agreed leads missing noop

/-- Whatever a replica sends when it receives a packet is backed in the state it leaves. -/
theorem backed_receiveMessage {packet : Packet} {idx : Nat} {clock : Nat → Nat}
    (gapMode : d.options.gapEnabled = true) (aligned : Aligned d s)
    (inNetwork : packet ∈ s.network) {send : Send}
    (sent : send ∈ ((s.replicas idx).receiveMessage packet.src packet.msg clock).2) :
    (s.updateReplica idx ((s.replicas idx).receiveMessage packet.src packet.msg clock).1
        ((s.replicas idx).receiveMessage packet.src packet.msg clock).2).Backed d
      ⟨.replica idx, send.dst, send.msg⟩ ∧ ∀ data, send.msg ≠ .data data := by
  obtain ⟨_, _, options, _⟩ := aligned.fields idx
  have mode : (s.replicas idx).options.gapEnabled = true := by rw [options]; exact gapMode
  have backed := aligned.packets packet inNetwork
  rcases Replica.mem_receiveMessage _ mode sent with
    ⟨addr, client, seq, _, rfl, _⟩ | ⟨request, isRequest, leads, _, _⟩ | ⟨reply, rfl⟩
  · exact ⟨trivial, by simp⟩
  · -- the answer goes back to the follower that asked
    simp only [Backed, isRequest] at backed
    rw [isRequest] at sent ⊢
    obtain ⟨back, ⟨received, isReply⟩ | ⟨_, noop, isCommit⟩⟩ :=
      Replica.mem_handleGapRequest _ sent
    · refine ⟨?_, by simp [isReply]⟩
      simp only [Backed, isReply, back]
      exact ⟨backed, (aligned.received received).mono fun packet old =>
        List.mem_append_left _ old⟩
    · refine ⟨?_, by simp [isCommit]⟩
      simp only [Backed, isCommit, back]
      refine ⟨backed, ?_⟩
      have leader := (aligned.amLeader_iff idx).mp leads
      unfold Decided
      rw [leaderEntry_updateReplica, if_pos leader, Replica.receiveMessage,
        Replica.entry_handleGapRequest]
      exact noop
  · exact ⟨trivial, by simp⟩

/-- Whatever the gap timer sends is backed in the state it leaves: a commit is for a slot that
the leader has just made a NoOp, a request comes from a follower. -/
theorem backed_onGapTimeout {idx client : Nat} {clock : Nat → Nat} {r : Replica}
    (aligned : Aligned d s) (same : r.identity = (s.replicas idx).identity) {send : Send}
    (sent : send ∈ (r.onGapTimeout client clock).2) :
    (s.updateReplica idx (r.onGapTimeout client clock).1 (r.onGapTimeout client clock).2).Backed d
      ⟨.replica idx, send.dst, send.msg⟩ ∧ ∀ data, send.msg ≠ .data data := by
  have self : r.replicaIdx = idx := by
    have fields := same.trans (aligned.replicas idx)
    simp only [Replica.identity, Prod.mk.injEq] at fields
    exact fields.2.1
  have leads : r.amLeader = true ↔ idx = leaderIdx d := by
    rw [Replica.amLeader_congr same]
    exact aligned.amLeader_iff idx
  rcases r.mem_onGapTimeout client sent with
    ⟨leader, other, seq, _, different, rfl⟩ | ⟨follows, seq, rfl⟩
  · have noop := r.noop_of_mem_onGapTimeout client sent rfl
    have leader := leads.mp leader
    refine ⟨⟨?_, ?_⟩, by simp⟩
    · rw [← leader, ← self]
      simpa using different
    · unfold Decided
      rw [leaderEntry_updateReplica, if_pos leader]
      exact noop
  · refine ⟨?_, by simp⟩
    have follower : idx ≠ leaderIdx d := by
      intro leader
      rw [leads.mpr leader] at follows
      cases follows
    simpa [Backed] using follower

/-- One step of the system keeps the invariant and takes an allowed step in every slot. -/
theorem Aligned.step {s' : System} {action : Action} (gapMode : d.options.gapEnabled = true)
    (aligned : Aligned d s) (transition : s.step d action = some s') :
    Aligned d s' ∧ ∀ idx clientId seq, SlotStep d s idx clientId seq
      ((s.replicas idx).entry clientId seq) ((s'.replicas idx).entry clientId seq) := by
  -- an action of one replica leaves the slots of the others alone
  have slotsOf : ∀ {idx : Nat} {r : Replica} {sends : List Send},
      (∀ clientId seq, SlotStep d s idx clientId seq ((s.replicas idx).entry clientId seq)
        (r.entry clientId seq)) →
      ∀ other clientId seq, SlotStep d s other clientId seq
        ((s.replicas other).entry clientId seq)
        (((s.updateReplica idx r sends).replicas other).entry clientId seq) := by
    intro idx r sends slots other clientId seq
    by_cases equal : other = idx
    · subst equal
      simpa [updateReplica] using slots clientId seq
    · exact .kept (by simp [updateReplica, equal])
  cases action with
  | start clientId now =>
      simp only [System.step] at transition
      split at transition
      · cases transition
      · obtain rfl := Option.some.inj transition
        exact ⟨aligned_updateClient aligned (Client.numbered_start _ now),
          fun _ _ _ => .kept rfl⟩
  | clientTimer clientId id readings =>
      simp only [System.step] at transition
      split at transition
      · cases transition
      · rename_i c sends fired
        obtain rfl := Option.some.inj transition
        exact ⟨aligned_updateClient aligned (Client.numbered_fireTimer fired),
          fun _ _ _ => .kept rfl⟩
  | replicaTimer idx id clock =>
      simp only [System.step, fireReplicaTimer] at transition
      split at transition
      · cases transition
      · rename_i timer pending
        obtain rfl := Option.some.inj transition
        have slots := slotStep_onGapTimeout (c := timer.callback) clock
          (r := { s.replicas idx with timers := (s.replicas idx).timers.cancelTimer id })
          aligned rfl rfl
        refine ⟨aligned_updateReplica aligned ?_ slots ?_ ?_, slotsOf slots⟩
        · rw [Replica.identity_onGapTimeout]
          rfl
        · exact fun send sent => (backed_onGapTimeout aligned (by rfl) sent).1
        · exact fun send sent => (backed_onGapTimeout aligned (by rfl) sent).2
  | deliver position clock =>
      simp only [System.step] at transition
      split at transition
      · cases transition
      · rename_i packet found
        obtain rfl := Option.some.inj transition
        have inNetwork := List.mem_of_getElem? found
        unfold receive
        split
        · rename_i idx addressed
          have slots := slotStep_receiveMessage clock gapMode aligned inNetwork addressed
          refine ⟨aligned_updateReplica aligned ?_ slots ?_ ?_, slotsOf slots⟩
          · exact Replica.identity_receiveMessage _ _ _ _
          · exact fun send sent => (backed_receiveMessage gapMode aligned inNetwork sent).1
          · exact fun send sent => (backed_receiveMessage gapMode aligned inNetwork sent).2
        · rename_i id addressed
          have numbering := Client.numbering_receiveMessage d.overshift (s.clients id) packet.msg
          refine ⟨?_, fun _ _ _ => .kept rfl⟩
          exact aligned_hearing aligned numbering.1 numbering.2

end Steps

/-! ## Every run in gap mode -/

/-- The invariant holds along every run. -/
theorem aligned_invariant (d : Deployment) (gapMode : d.options.gapEnabled = true) :
    (system d).Invariant TransitionSystem.unguarded (Aligned d) where
  initial s start := by
    rw [show s = initial d from start]
    exact aligned_initial d
  preserved aligned _ transition := (aligned.step gapMode transition).1

/-- From an aligned state on, a NoOp stays a NoOp. -/
theorem noop_invariant (d : Deployment) (gapMode : d.options.gapEnabled = true)
    {s s' : System} {actions : List Action} (aligned : Aligned d s)
    (steps : (system d).Steps TransitionSystem.unguarded s actions s') (idx clientId seq : Nat)
    (noop : ((s.replicas idx).entry clientId seq).state = .noop) :
    ((s'.replicas idx).entry clientId seq).state = .noop := by
  induction steps with
  | refl => exact noop
  | step prior _ transition inductionHypothesis =>
      have before := (aligned_invariant d gapMode).of_steps aligned prior
      exact ((before.step gapMode transition).2 idx clientId seq).noop_of_noop inductionHypothesis

/-- From an aligned state on, the leader's data stays. -/
theorem received_invariant (d : Deployment) (gapMode : d.options.gapEnabled = true)
    {s s' : System} {actions : List Action} (aligned : Aligned d s)
    (steps : (system d).Steps TransitionSystem.unguarded s actions s') (clientId seq : Nat)
    (received : (s.leaderEntry d clientId seq).state = .received) :
    (s'.leaderEntry d clientId seq).state = .received := by
  induction steps with
  | refl => exact received
  | step prior _ transition inductionHypothesis =>
      have before := (aligned_invariant d gapMode).of_steps aligned prior
      exact ((before.step gapMode transition).2 (leaderIdx d) clientId seq).received_of_received
        inductionHypothesis

/-- Aligned replicas agree: data in one slot is the one message sent there. -/
theorem Aligned.slotsAgree {d : Deployment} {s : System} (aligned : Aligned d s) :
    s.SlotsAgree d where
  noop _ _ _ _ noop := aligned.noop noop
  received idx idx' clientId seq received received' := by
    obtain ⟨data, posted, mine, slot, payload, sendTimeNs⟩ := aligned.received received
    obtain ⟨data', posted', mine', slot', payload', sendTimeNs'⟩ := aligned.received received'
    obtain rfl := aligned.single posted posted' (mine.trans mine'.symm) (slot.trans slot'.symm)
    exact ⟨payload.symm.trans payload', sendTimeNs.symm.trans sendTimeNs'⟩

/-- In gap mode, in every reachable state every slot agrees across the replicas, and what the
state has decided stays decided in every state that any continuation of the run reaches. -/
theorem slotsAgree_of_reachable (d : Deployment) (gapMode : d.options.gapEnabled = true)
    (s : System) (reachable : (system d).Reachable TransitionSystem.unguarded s) :
    s.SlotsAgree d ∧ ∀ actions s',
      (system d).Steps TransitionSystem.unguarded s actions s' → s.SlotsFinal d s' := by
  have aligned := (aligned_invariant d gapMode).of_reachable reachable
  refine ⟨aligned.slotsAgree, fun actions s' steps => ⟨?_, ?_⟩⟩
  · intro idx clientId seq noop
    have final := noop_invariant d gapMode aligned steps idx clientId seq noop
    simp [final]
  · intro clientId seq received
    have final := received_invariant d gapMode aligned steps clientId seq received
    simp [final]

/-! ## A run in which a follower learns a NoOp -/

/-- The second request reaches the leader first; its gap timer then decides a NoOp in slot 1,
and replica 2 receives the commit. -/
def noopRun : List Action :=
  warmUp ++ [.deliver 6 (clockAt 5012), .replicaTimer 0 1 (clockAt 5022),
    .deliver 11 (clockAt 5023)]

set_option maxRecDepth 10000 in
/-- The run ends with slot 1 a NoOp at the leader and at replica 2, and slot 2 data at the
leader; all of it agrees and is final. -/
theorem slotsAgree_noopRun : ∃ s : System,
    ((s.replicas 2).entry 7 1).state = .noop ∧ (s.leaderEntry trio 7 2).state = .received ∧
      s.SlotsAgree trio ∧ ∀ actions s',
        (system trio).Steps TransitionSystem.unguarded s actions s' → s.SlotsFinal trio s' := by
  obtain ⟨s, reachable, resolved⟩ :=
    (system trio).exists_reachable_of_run TransitionSystem.unguarded
      (fun s => decide (((s.replicas 2).entry 7 1).state = .noop ∧
        (s.leaderEntry trio 7 2).state = .received))
      noopRun rfl (by decide)
  obtain ⟨noop, received⟩ := of_decide_eq_true resolved
  exact ⟨s, noop, received, slotsAgree_of_reachable trio rfl s reachable⟩

end System

end PaxosBus.Bus

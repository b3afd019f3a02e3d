import PaxosBus.Bus.Slots
import PaxosBus.Bus.Inflight
import PaxosBus.Bus.System

/-!
# Committed slots and the leader's log

A client counts a slot as committed on `f + 1` replies, the leader's among them.
The leader replies for a slot only when it is RECEIVED, with one exception:
`HandleData` replies even when `RecordReceived` has refused the data because the
slot already holds a NoOp. Along runs that never deliver data to the leader for
such a slot, every counted slot is RECEIVED at the leader with the client's
payload, and stays so; `Ledger` is the invariant that carries this.
-/

set_option autoImplicit false

namespace PaxosBus.Bus

open Std PaxosBus.Common PaxosBus.Library

namespace System

/-- The leader of the only view. -/
def leaderIdx (d : Deployment) : Nat := d.config.getLeaderIndex 0

/-- The leader's log holds the slot as RECEIVED with the payload that the client sent for it. -/
def LeaderHolds (d : Deployment) (s : System) (clientId seq : Nat) : Prop :=
  (s.leaderEntry d clientId seq).state = .received ∧
    (∃ packet ∈ s.network, ∃ data, packet.msg = .data data ∧ data.clientId = clientId ∧
      data.seqNum = seq) ∧
    ∀ packet ∈ s.network, ∀ data, packet.msg = .data data → data.clientId = clientId →
      data.seqNum = seq → (s.leaderEntry d clientId seq).payload = data.payload

/-- Every slot that a client has counted as committed is held by the leader. -/
def CommittedHeld (d : Deployment) (s : System) : Prop :=
  ∀ clientId seq, (clientId, seq) ∈ s.committed → s.LeaderHolds d clientId seq

/-- The packet is data that the leader does not drop, for a slot that it has turned into a NoOp. -/
def lateData (d : Deployment) (s : System) (packet : Packet) : Bool :=
  match packet.dst, packet.msg with
  | .replica idx, .data data =>
    idx == leaderIdx d && !(s.replicas idx).shouldDrop data.seqNum &&
      (s.leaderEntry d data.clientId data.seqNum).state == .noop
  | _, _ => false

/-- The packet is a reply whose replica index shifts `1u` out of its 32 bits. -/
def overshifts (packet : Packet) : Bool :=
  match packet.msg with
  | .dataReply reply => 32 ≤ reply.replicaIdx
  | _ => false

/-- The step delivers neither late data to the leader nor a reply with an undefined shift. -/
def Clear (d : Deployment) (s : System) : Action → Prop
  | .deliver position _ => ∀ packet, s.network[position]? = some packet →
      s.lateData d packet = false ∧ overshifts packet = false
  | _ => True

instance (d : Deployment) (s : System) (action : Action) : Decidable (s.Clear d action) :=
  match action with
  | .deliver position _ =>
    match found : s.network[position]? with
    | none => .isTrue (by simp [Clear, found])
    | some packet =>
      decidable_of_iff (s.lateData d packet = false ∧ overshifts packet = false)
        (by simp [Clear, found])
  | .start _ _ => inferInstanceAs (Decidable True)
  | .clientTimer _ _ _ => inferInstanceAs (Decidable True)
  | .replicaTimer _ _ _ => inferInstanceAs (Decidable True)

/-! ## The invariant -/

/-- The leader's slot is RECEIVED. -/
def Received (d : Deployment) (s : System) (clientId seq : Nat) : Prop :=
  (s.leaderEntry d clientId seq).state = .received

/-- A data message for the slot has been sent. -/
def Sent (s : System) (clientId seq : Nat) : Prop :=
  ∃ packet ∈ s.network, Client.DataFor clientId seq packet.msg

/-- What every packet in the network satisfies, by kind of message. Gap requests come from
followers only, so nothing that resolves a gap is ever addressed to the leader. -/
def Sound (d : Deployment) (s : System) (packet : Packet) : Prop :=
  match packet.msg with
  | .sync sync => packet.src = .client sync.clientId
  | .data data => packet.src = .client data.clientId ∧ data.payload = Client.payload
  | .dataReply reply => packet.dst = .client reply.clientId ∧ reply.viewId = 0 ∧
      (reply.replicaIdx = leaderIdx d → s.Received d reply.clientId reply.seqNum)
  | .gapRequest _ => packet.src ≠ .replica (leaderIdx d)
  | .gapReply _ => packet.dst ≠ .replica (leaderIdx d)
  | .gapCommit _ => packet.dst ≠ .replica (leaderIdx d)
  | .gapCommitReply _ => True

/-- The invariant of the runs that stay clear of late data. -/
structure Ledger (d : Deployment) (s : System) : Prop where
  replicas : ∀ idx, (s.replicas idx).identity = (d.config, idx, d.options, 0)
  clients : ∀ id, (s.clients id).identity = (d.config, id)
  addresses : ∀ {idx client} {addr : Address}, (s.replicas idx).clientAddr[client]? = some addr →
    addr = .client client
  packets : ∀ packet ∈ s.network, s.Sound d packet
  payloads : ∀ {client seq}, s.Received d client seq →
    (s.leaderEntry d client seq).payload = Client.payload
  marks : ∀ {client seq e}, (s.clients client).inflight[seq]? = some e →
    s.Sent client seq ∧ (e.replicaMask &&& bit d.overshift (leaderIdx d) ≠ 0 →
      s.Received d client seq)
  committed : ∀ {client seq}, (client, seq) ∈ s.committed →
    s.Sent client seq ∧ s.Received d client seq


/-- A reply stays true while the leader keeps what it has received. -/
theorem Sound.mono {d : Deployment} {s s' : System} {packet : Packet}
    (kept : ∀ {client seq}, s.Received d client seq → s'.Received d client seq)
    (sound : s.Sound d packet) : s'.Sound d packet := by
  unfold Sound at *
  cases found : packet.msg with
  | dataReply reply =>
      rw [found] at sound
      exact ⟨sound.1, sound.2.1, fun leader => kept (sound.2.2 leader)⟩
  | sync | data | gapRequest | gapReply | gapCommit | gapCommitReply =>
      rw [found] at sound
      exact sound

/-- What has been sent stays in the network. -/
theorem Sent.mono {s s' : System} {client seq : Nat}
    (grown : ∀ packet ∈ s.network, packet ∈ s'.network) (sent : s.Sent client seq) :
    s'.Sent client seq := by
  obtain ⟨packet, inNetwork, data⟩ := sent
  exact ⟨packet, grown packet inNetwork, data⟩

/-- What is posted is what is sent, from the sender. -/
theorem mem_post {src : Address} {sends : List Send} {packet : Packet} :
    packet ∈ post src sends ↔ ∃ send ∈ sends, packet = ⟨src, send.dst, send.msg⟩ := by
  simp [post, eq_comm]

/-- The initial state has an empty log, no packet and no attempt. -/
theorem ledger_initial (d : Deployment) : Ledger d (initial d) where
  replicas _ := rfl
  clients _ := rfl
  addresses known := by simp [initial] at known
  packets packet sent := by cases sent
  payloads received := by
    simp [Received, leaderEntry, initial, Replica.entry, Replica.stream, ClientStream.entry]
      at received
  marks found := by simp [initial] at found
  committed counted := by cases counted

/-! ## A client acts -/

section ClientStep

variable {d : Deployment} {s : System} {id : Nat} {c : Client} {sends : List Send}

/-- A client's step is none of the leader's. -/
@[simp] theorem leaderEntry_updateClient (client seq : Nat) :
    (s.updateClient id c sends).leaderEntry d client seq = s.leaderEntry d client seq := rfl

/-- A client that only syncs, sends data and adds unanswered attempts keeps the invariant. -/
theorem ledger_updateClient (nonempty : 0 < d.config.n) (ledger : Ledger d s)
    (same : c.identity = (s.clients id).identity)
    (posted : ∀ send ∈ sends, (∃ sync, send.msg = .sync sync ∧ sync.clientId = id) ∨
      ∃ seq, Client.DataFor id seq send.msg)
    (added : ∀ {seq e}, c.inflight[seq]? = some e → (s.clients id).inflight[seq]? = some e ∨
      e.replicaMask = 0 ∧ (0 < d.config.n → ∃ send ∈ sends, Client.DataFor id seq send.msg)) :
    Ledger d (s.updateClient id c sends) := by
  have grown : ∀ packet ∈ s.network, packet ∈ (s.updateClient id c sends).network :=
    fun packet sent => List.mem_append_left _ sent
  constructor
  · exact ledger.replicas
  · intro other
    by_cases equal : other = id
    · subst equal
      simpa [updateClient, same] using ledger.clients other
    · simpa [updateClient, equal] using ledger.clients other
  · exact ledger.addresses
  · intro packet sent
    rcases List.mem_append.mp sent with old | fresh
    · exact (ledger.packets packet old).mono fun received => received
    · obtain ⟨send, sending, rfl⟩ := mem_post.mp fresh
      rcases posted send sending with ⟨sync, found, rfl⟩ | ⟨seq, data, found, rfl, -, payload⟩
      · simp [Sound, found]
      · simp [Sound, found, payload]
  · exact ledger.payloads
  · intro client seq e found
    by_cases equal : client = id
    · subst equal
      simp only [updateClient, Function.update_self] at found
      rcases added found with old | ⟨unanswered, data⟩
      · exact ⟨(ledger.marks old).1.mono grown, (ledger.marks old).2⟩
      · obtain ⟨send, sending, data⟩ := data nonempty
        refine ⟨⟨⟨.client client, send.dst, send.msg⟩, ?_, data⟩, ?_⟩
        · exact List.mem_append_right _ (mem_post.mpr ⟨send, sending, rfl⟩)
        · intro marked
          simp [unanswered] at marked
    · simp only [updateClient, Function.update_of_ne equal] at found
      exact ⟨(ledger.marks found).1.mono grown, (ledger.marks found).2⟩
  · intro client seq counted
    exact ⟨(ledger.committed counted).1.mono grown, (ledger.committed counted).2⟩

end ClientStep

/-! ## A replica acts -/

section ReplicaStep

variable {d : Deployment} {s : System} {idx : Nat} {r : Replica} {sends : List Send}

/-- The leader's entry is the one of the replica that is updated, if that leads. -/
theorem leaderEntry_updateReplica (client seq : Nat) :
    (s.updateReplica idx r sends).leaderEntry d client seq =
      if idx = leaderIdx d then r.entry client seq else s.leaderEntry d client seq := by
  by_cases leader : idx = leaderIdx d
  · subst leader
    simp [leaderEntry, updateReplica, leaderIdx]
  · have other : d.config.getLeaderIndex 0 ≠ idx := Ne.symm leader
    simp [leaderEntry, updateReplica, leader, other]

/-- A replica keeps the invariant when it keeps its RECEIVED slots (if it leads), learns
addresses from the clients themselves, and sends sound packets. -/
theorem ledger_updateReplica (ledger : Ledger d s)
    (same : r.identity = (s.replicas idx).identity)
    (addresses : ∀ {client} {addr : Address}, r.clientAddr[client]? = some addr → addr = .client client)
    (kept : idx = leaderIdx d → ∀ client seq, r.entry client seq = s.leaderEntry d client seq ∨
      (r.entry client seq).state ≠ .received ∧ ¬ s.Received d client seq ∨
      (r.entry client seq).state = .received ∧ (r.entry client seq).payload = Client.payload)
    (sound : ∀ send ∈ sends, (s.updateReplica idx r sends).Sound d
      ⟨.replica idx, send.dst, send.msg⟩) :
    Ledger d (s.updateReplica idx r sends) := by
  have grown : ∀ packet ∈ s.network, packet ∈ (s.updateReplica idx r sends).network :=
    fun packet sent => List.mem_append_left _ sent
  have stays : ∀ {client seq}, s.Received d client seq →
      (s.updateReplica idx r sends).Received d client seq := by
    intro client seq received
    unfold Received
    rw [leaderEntry_updateReplica]
    split
    · rename_i leader
      rcases kept leader client seq with unchanged | ⟨_, missing⟩ | written
      · rw [unchanged]
        exact received
      · exact absurd received missing
      · exact written.1
    · exact received
  constructor
  · intro other
    by_cases equal : other = idx
    · subst equal
      simpa [updateReplica, same] using ledger.replicas other
    · simpa [updateReplica, equal] using ledger.replicas other
  · exact ledger.clients
  · intro other client addr known
    by_cases equal : other = idx
    · subst equal
      simp only [updateReplica, Function.update_self] at known
      exact addresses known
    · simp only [updateReplica, Function.update_of_ne equal] at known
      exact ledger.addresses known
  · intro packet sent
    rcases List.mem_append.mp sent with old | fresh
    · exact (ledger.packets packet old).mono stays
    · obtain ⟨send, sending, rfl⟩ := mem_post.mp fresh
      exact sound send sending
  · intro client seq received
    unfold Received at received
    rw [leaderEntry_updateReplica] at received ⊢
    split at received
    · rename_i leader
      rw [if_pos leader]
      rcases kept leader client seq with unchanged | ⟨missing, _⟩ | written
      · rw [unchanged] at received ⊢
        exact ledger.payloads received
      · exact absurd received missing
      · exact written.2
    · rename_i follower
      rw [if_neg follower]
      exact ledger.payloads received
  · intro client seq e found
    exact ⟨(ledger.marks found).1.mono grown, fun marked => stays ((ledger.marks found).2 marked)⟩
  · intro client seq counted
    exact ⟨(ledger.committed counted).1.mono grown, stays (ledger.committed counted).2⟩

/-- A replica of the group knows its configuration, index, options and view. -/
theorem Ledger.fields (ledger : Ledger d s) (idx : Nat) :
    (s.replicas idx).config = d.config ∧ (s.replicas idx).replicaIdx = idx ∧
      (s.replicas idx).options = d.options ∧ (s.replicas idx).viewId = 0 := by
  simpa [Replica.identity] using ledger.replicas idx

/-- The replica that leads is the one that the configuration says. -/
theorem Ledger.amLeader_iff (ledger : Ledger d s) (idx : Nat) :
    (s.replicas idx).amLeader = true ↔ idx = leaderIdx d := by
  obtain ⟨config, self, _, view⟩ := ledger.fields idx
  simp only [Replica.amLeader, config, self, view, beq_iff_eq]
  exact eq_comm

/-- The gap timer turns empty slots into NoOps at the leader, and sends gap commits from the
leader only, gap requests from the followers only. -/
theorem ledger_fireReplicaTimer {s' : System} {id : Nat} {clock : Nat → Nat}
    (ledger : Ledger d s) (fired : s.fireReplicaTimer idx id clock = some s') :
    Ledger d s' := by
  obtain ⟨config, self, _, view⟩ := ledger.fields idx
  unfold fireReplicaTimer at fired
  dsimp only at fired
  split at fired
  · cases fired
  · rename_i timer pending
    obtain rfl := Option.some.inj fired
    apply ledger_updateReplica ledger
    · rw [Replica.identity_onGapTimeout]
      rfl
    · intro client addr known
      rw [Replica.clientAddr_onGapTimeout] at known
      exact ledger.addresses known
    · intro leader client seq
      subst leader
      by_cases received : s.Received d client seq
      · refine .inl (Replica.entry_onGapTimeout _ client seq _ clock ?_)
        intro empty
        have state : (s.leaderEntry d client seq).state = .empty := empty
        rw [received] at state
        cases state
      · exact .inr (.inl ⟨Replica.not_received_onGapTimeout _ client seq _ clock received,
          received⟩)
    · intro send sent
      rcases Replica.mem_onGapTimeout _ _ sent with
        ⟨leads, other, seq, _, different, rfl⟩ | ⟨follows, seq, rfl⟩
      · have leader := (ledger.amLeader_iff idx).mp leads
        have different : other ≠ idx := by simpa [self] using different
        simpa [Sound, ← leader] using different
      · have follower : idx ≠ leaderIdx d := by
          intro leader
          have leads := (ledger.amLeader_iff idx).mpr leader
          exact absurd (leads.symm.trans follows) (by simp)
        simpa [Sound] using follower

/-- Delivering a packet to a replica keeps the invariant unless it is late data. -/
theorem ledger_receive_replica {packet : Packet} {clock : Nat → Nat}
    (gapMode : d.options.gapEnabled = true) (ledger : Ledger d s)
    (inNetwork : packet ∈ s.network) (timely : s.lateData d packet = false)
    (addressed : packet.dst = .replica idx) :
    Ledger d (s.updateReplica idx ((s.replicas idx).receiveMessage packet.src packet.msg clock).1
      ((s.replicas idx).receiveMessage packet.src packet.msg clock).2) := by
  obtain ⟨config, self, options, view⟩ := ledger.fields idx
  have mode : (s.replicas idx).options.gapEnabled = true := by rw [options]; exact gapMode
  have sound := ledger.packets packet inNetwork
  have addresses : ∀ {client} {addr : Address},
      ((s.replicas idx).receiveMessage packet.src packet.msg clock).1.clientAddr[client]? =
        some addr → addr = .client client := by
    intro client addr known
    rcases Replica.clientAddr_receiveMessage _ _ _ _ known with
      old | ⟨rfl, ⟨sync, isSync, rfl⟩ | ⟨data, isData, rfl⟩⟩
    · exact ledger.addresses old
    · simpa [Sound, isSync] using sound
    · simp only [Sound, isData] at sound
      exact sound.1
  apply ledger_updateReplica ledger
  · exact Replica.identity_receiveMessage _ _ _ _
  · exact addresses
  · intro leader client seq
    subst leader
    cases found : packet.msg with
    | sync sync => exact .inl (Replica.entry_handleSync _ _ _ _ _ _)
    | data data =>
        rcases Replica.entry_handleData _ client seq packet.src data clock mode with
          unchanged | ⟨_, _, _, written⟩
        · exact .inl unchanged
        · simp only [Sound, found] at sound
          refine .inr (.inr ?_)
          simp only [Replica.receiveMessage, written, true_and]
          exact sound.2
    | gapRequest msg => exact .inl (Replica.entry_handleGapRequest _ _ _ _ _)
    | gapReply msg => simp [Sound, found, addressed] at sound
    | gapCommit msg => simp [Sound, found, addressed] at sound
    | gapCommitReply msg => exact .inl (Replica.entry_handleGapCommitReply _ _ _ _)
    | dataReply msg => exact .inl rfl
  · intro send sent
    rcases Replica.mem_receiveMessage _ mode sent with
      ⟨addr, client, seq, known, rfl, outcome⟩ | ⟨req, isRequest, leads, back, kind⟩ | ⟨reply, rfl⟩
    · refine ⟨addresses known, view, fun answersLeader => ?_⟩
      have leader : idx = leaderIdx d := self.symm.trans answersLeader
      unfold Received
      rw [leaderEntry_updateReplica, if_pos leader]
      rcases outcome with received | ⟨final, kept, data, isData, rfl, rfl⟩
      · exact received
      · -- the leader would answer data for its own NoOp
        subst leader
        have noop : s.leaderEntry d data.clientId data.seqNum =
          (s.replicas (leaderIdx d)).entry data.clientId data.seqNum := rfl
        simp [lateData, addressed, isData, kept, noop, final] at timely
    · have asked : packet.src ≠ .replica (leaderIdx d) := by
        simpa [Sound, isRequest] using sound
      rcases kind with ⟨reply, isReply⟩ | ⟨commit, isCommit⟩
      · simpa [Sound, isReply, back] using asked
      · simpa [Sound, isCommit, back] using asked
    · trivial

end ReplicaStep

/-! ## A client hears a reply -/

section Replies

variable {d : Deployment} {s : System}

/-- Within the word, different replicas have different bits. -/
theorem eq_of_bit_and_bit {overshift : Nat → BitVec 32} {i j : Nat} (small : i < 32)
    (small' : j < 32) (common : bit overshift i &&& bit overshift j ≠ 0) : i = j := by
  by_contra different
  apply common
  apply BitVec.eq_of_getLsbD_eq
  intro k _
  simp only [bit, small, small', if_true]
  grind

/-- An attempt that carries the leader's mark once a sound reply is added is for a slot that
the leader has RECEIVED. -/
theorem Ledger.received_of_mark (ledger : Ledger d s) {id : Nat} {reply : DataReplyMessage}
    {old : InflightEntry} (tracked : (s.clients id).inflight[reply.seqNum]? = some old)
    (small : reply.replicaIdx < 32)
    (answered : reply.replicaIdx = leaderIdx d → s.Received d id reply.seqNum)
    (marked : (old.replicaMask ||| bit d.overshift reply.replicaIdx) &&&
      bit d.overshift (leaderIdx d) ≠ 0) :
    s.Received d id reply.seqNum := by
  by_cases before : old.replicaMask &&& bit d.overshift (leaderIdx d) = 0
  · have common : bit d.overshift reply.replicaIdx &&& bit d.overshift (leaderIdx d) ≠ 0 := by
      simpa [BitVec.and_or_distrib_right, before] using marked
    refine answered (eq_of_bit_and_bit small ?_ common)
    simp [leaderIdx, Configuration.getLeaderIndex]
  · exact (ledger.marks tracked).2 before

/-- Delivering a packet to a client keeps the invariant when its shift is defined. -/
theorem ledger_receive_client {packet : Packet} {id : Nat} (ledger : Ledger d s)
    (inNetwork : packet ∈ s.network) (defined : overshifts packet = false)
    (addressed : packet.dst = .client id) :
    Ledger d { s with
      clients := Function.update s.clients id
        ((s.clients id).receiveMessage d.overshift packet.msg).1
      committed := s.committed ++
        ((s.clients id).receiveMessage d.overshift packet.msg).2.toList.map fun seq => (id, seq) }
    := by
  have sound := ledger.packets packet inNetwork
  have heard : ∀ {reply : DataReplyMessage}, packet.msg = .dataReply reply →
      reply.replicaIdx < 32 ∧ reply.viewId = 0 ∧
        (reply.replicaIdx = leaderIdx d → s.Received d id reply.seqNum) := by
    intro reply isReply
    simp only [Sound, isReply] at sound
    obtain ⟨home, view, answered⟩ := sound
    rw [addressed] at home
    cases home
    refine ⟨?_, view, answered⟩
    simpa [overshifts, isReply] using defined
  constructor
  · exact ledger.replicas
  · intro other
    by_cases equal : other = id
    · subst equal
      simpa using ledger.clients other
    · simpa [equal] using ledger.clients other
  · exact ledger.addresses
  · exact fun packet sent => (ledger.packets packet sent).mono fun received => received
  · exact ledger.payloads
  · intro client seq e found
    by_cases equal : client = id
    · subst equal
      simp only [Function.update_self] at found
      obtain ⟨old, tracked, same | ⟨reply, isReply, rfl, mask⟩⟩ :=
        Client.inflight_receiveMessage found
      · exact ⟨(ledger.marks tracked).1, fun marked => (ledger.marks tracked).2 (same ▸ marked)⟩
      · obtain ⟨small, _, answered⟩ := heard isReply
        exact ⟨(ledger.marks tracked).1, fun marked =>
          ledger.received_of_mark tracked small answered (mask ▸ marked)⟩
    · simp only [Function.update_of_ne equal] at found
      exact ledger.marks found
  · intro client seq counted
    rcases List.mem_append.mp counted with before | now
    · exact ledger.committed before
    · obtain ⟨seq', done, same⟩ := List.mem_map.mp now
      cases same
      obtain ⟨reply, old, isReply, rfl, tracked, marked⟩ :=
        Client.committed_receiveMessage (Option.mem_toList.mp done)
      obtain ⟨small, view, answered⟩ := heard isReply
      have config : (s.clients id).config = d.config := congrArg Prod.fst (ledger.clients id)
      rw [config, view] at marked
      exact ⟨(ledger.marks tracked).1, ledger.received_of_mark tracked small answered marked⟩

end Replies

/-! ## Every run that stays clear -/

/-- The ledger is an invariant of the runs that deliver no late data to the leader. -/
theorem ledger_invariant (d : Deployment) (gapMode : d.options.gapEnabled = true)
    (nonempty : 0 < d.config.n) : (system d).Invariant (Clear d) (Ledger d) where
  initial s start := by
    rw [show s = initial d from start]
    exact ledger_initial d
  preserved {s action s'} ledger clear transition := by
    cases action with
    | start clientId now =>
        simp only [system, step] at transition
        split at transition
        · cases transition
        · obtain rfl := Option.some.inj transition
          refine ledger_updateClient nonempty ledger rfl ?_ .inl
          intro send sent
          obtain ⟨idx, _, rfl⟩ := mem_sendToReplicas.mp sent
          exact .inl ⟨_, rfl, congrArg Prod.snd (ledger.clients clientId)⟩
    | clientTimer clientId id readings =>
        simp only [system, step] at transition
        split at transition
        · cases transition
        · rename_i c sends fired
          obtain rfl := Option.some.inj transition
          have attempts := Client.attempts_fireTimer fired
          have self : (s.clients clientId).clientId = clientId :=
            congrArg Prod.snd (ledger.clients clientId)
          have config : (s.clients clientId).config = d.config :=
            congrArg Prod.fst (ledger.clients clientId)
          refine ledger_updateClient nonempty ledger attempts.same ?_ ?_
          · intro send sent
            obtain ⟨idx, seq, _, data⟩ := attempts.posted send sent
            exact .inr ⟨seq, self ▸ data⟩
          · intro seq e found
            rw [← config, ← self]
            simpa only [self] using attempts.added found
    | replicaTimer idx id clock => exact ledger_fireReplicaTimer ledger transition
    | deliver position clock =>
        simp only [system, step] at transition
        split at transition
        · cases transition
        · rename_i packet found
          obtain rfl := Option.some.inj transition
          obtain ⟨timely, defined⟩ := clear packet found
          have inNetwork := List.mem_of_getElem? found
          unfold receive
          split
          · rename_i idx addressed
            exact ledger_receive_replica gapMode ledger inNetwork timely addressed
          · rename_i id addressed
            exact ledger_receive_client ledger inNetwork defined addressed

/-- In gap mode, along every run in which no undropped data reaches the leader for a slot it
has turned into a NoOp, every slot a client has counted as committed is RECEIVED at the leader
with the payload the client sent. -/
theorem committedHeld_of_clear (d : Deployment) (gapMode : d.options.gapEnabled = true)
    (balanced : d.config.Balanced) (s : System) (reachable : (system d).Reachable (Clear d) s) :
    s.CommittedHeld d := by
  have ledger := (ledger_invariant d gapMode balanced.pos).of_reachable reachable
  intro client seq counted
  obtain ⟨⟨packet, inNetwork, data, isData, mine, slot, _⟩, received⟩ := ledger.committed counted
  refine ⟨received, ⟨packet, inNetwork, data, isData, mine, slot⟩, ?_⟩
  intro other sent data' isData' _ _
  have sound := ledger.packets other sent
  simp only [Sound, isData'] at sound
  rw [ledger.payloads received, sound.2]

/-! ## Two executions of a three-replica group -/

/-- Three replicas in gap mode; every client sends each 10 ms and never resends. -/
def trio : Deployment where
  config := { n := 3, f := 1 }
  options := { gapEnabled := true }
  intervalMs _ := 10
  resendMs _ := 0
  overshift _ := 0

/-- A clock stopped at a number of milliseconds. -/
def clockAt (ms : Nat) : Nat → Nat := fun _ => ms * nsPerMs

/-- Client 7 synchronises the group and sends its first two requests. -/
def warmUp : List Action :=
  [.start 7 0, .deliver 0 (clockAt 1), .deliver 2 (clockAt 1),
    .clientTimer 7 1 [5000000000, 5000000000, 5000000001, 5000000002],
    .clientTimer 7 2 [5010000000, 5010000001, 5010000001]]

/-- The first request reaches the leader and one follower in time. -/
def promptRun : List Action :=
  warmUp ++ [.deliver 3 (clockAt 5001), .deliver 5 (clockAt 5001), .deliver 9 (clockAt 0),
    .deliver 10 (clockAt 0)]

/-- The second request reaches the leader first; the first one arrives after the leader's gap
timer has turned its slot into a NoOp. -/
def lateRun : List Action :=
  warmUp ++ [.deliver 6 (clockAt 5012), .replicaTimer 0 1 (clockAt 5022),
    .deliver 3 (clockAt 5023), .deliver 5 (clockAt 5023), .deliver 12 (clockAt 0),
    .deliver 13 (clockAt 0)]

set_option maxRecDepth 10000 in
/-- The prompt run stays clear and counts slot 1, which the leader holds. -/
theorem committedHeld_promptRun : ∃ s : System, (7, 1) ∈ s.committed ∧ s.CommittedHeld trio := by
  obtain ⟨s, reachable, counted⟩ :=
    (system trio).exists_reachable_of_run (Clear trio) (fun s => decide ((7, 1) ∈ s.committed))
      promptRun rfl (by decide)
  exact ⟨s, of_decide_eq_true counted,
    committedHeld_of_clear trio rfl (by decide) s reachable⟩

set_option maxRecDepth 10000 in
/-- The late run counts slot 1 although the leader holds a NoOp there. -/
theorem not_committedHeld_lateRun :
    ¬ ∀ s, (system trio).Reachable TransitionSystem.unguarded s → s.CommittedHeld trio := by
  intro always
  obtain ⟨s, reachable, counted⟩ :=
    (system trio).exists_reachable_of_run TransitionSystem.unguarded
      (fun s => decide ((7, 1) ∈ s.committed ∧ (s.leaderEntry trio 7 1).state = .noop))
      lateRun rfl (by decide)
  obtain ⟨committed, noop⟩ := of_decide_eq_true counted
  have received := (always s reachable 7 1 committed).1
  rw [noop] at received
  cases received

end System

end PaxosBus.Bus

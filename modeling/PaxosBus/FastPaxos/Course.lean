import PaxosBus.FastPaxos.System

/-!
# What the replicas have to go by

The leader numbers requests in the order in which they reach it, and its log is
what everybody else's has to agree with in the end. A `Course` is the leader's
log together with what each replica has let the others know of its own state. A
message is valid when it says nothing that is not so; since the log and what is
known only grow, a valid message stays valid however long it is under way.
-/

set_option autoImplicit false

namespace PaxosBus.FastPaxos

open PaxosBus.Common PaxosBus.Library

/-- The requests of the leader's log, and what is known of the replicas: up to which number they
have the leader's requests, up to which number they have committed, and which requests they have
put where by themselves. -/
structure Course where
  log : List Request := []
  slow : Nat → Nat := fun _ => 0
  committed : Nat → Nat := fun _ => 0
  guessed : Nat → Nat → Request → Prop := fun _ _ _ => False

/-- The part of a replica's state that agreement is about. -/
structure Core where
  view : Nat
  lastCommitted : Nat
  lastFastPath : Nat
  lastSlowPath : Nat
  pendingPrepares : List (Address × PrepareMessage)
  pendingPrepareOKs : List (Address × PrepareOKMessage)
  lastPrepare : PrepareMessage
  log : Log Unit
  clientTable : Nat → Option ClientTableEntry
  slowPrepareOKQuorum : QuorumSet Viewstamp PrepareOKMessage
  fastPrepareOKQuorum : QuorumSet Viewstamp PrepareOKMessage
  executed : List Request

/-- The core of a replica's state. -/
def Replica.core (r : Replica) : Core where
  view := r.view
  lastCommitted := r.lastCommitted
  lastFastPath := r.lastFastPath
  lastSlowPath := r.lastSlowPath
  pendingPrepares := r.pendingPrepares
  pendingPrepareOKs := r.pendingPrepareOKs
  lastPrepare := r.lastPrepare
  log := r.log
  clientTable := r.clientTable
  slowPrepareOKQuorum := r.slowPrepareOKQuorum
  fastPrepareOKQuorum := r.fastPrepareOKQuorum
  executed := r.executed

/-- Up to which number a replica has the leader's requests. -/
def Core.known (r : Core) : Nat := max r.lastSlowPath r.lastCommitted

/-- A request as its client numbers it. -/
def Deployment.Numbers (d : Deployment) (req : Request) : Prop :=
  req = d.request req.clientid req.clientreqid

section Validity

variable (d : Deployment) (w : Course)

/-- The leader has the request at the number. -/
def Course.At (opnum : Nat) (req : Request) : Prop := 0 < opnum ∧ w.log[opnum - 1]? = some req

/-- The replica is known to have the leader's request at the number. -/
def Course.Holds (replicaIdx opnum : Nat) : Prop :=
  opnum ≤ w.slow replicaIdx ∨ ∃ req, w.At opnum req ∧ w.guessed replicaIdx opnum req

/-- Followers enough are known to have the leader's request at the number. -/
def Course.Covered (opnum : Nat) : Prop :=
  ∃ holders : Finset Nat, d.configuration.f ≤ holders.card ∧ ∀ idx ∈ holders,
    idx < d.configuration.n ∧ idx ≠ d.leader ∧ w.Holds idx opnum

/-- The leader has the request where the message says, unless the message is a blank. -/
def PrepareMessage.Valid (msg : PrepareMessage) : Prop :=
  msg.view = 0 ∧ (0 < msg.opnum → w.At msg.opnum msg.req)

/-- A follower has what it acknowledges: on the slow path the leader's requests up to the number,
on the fast path the request of the message. -/
structure PrepareOKMessage.Valid (msg : PrepareOKMessage) : Prop where
  view : msg.view = 0
  sender : msg.replicaIdx < d.configuration.n
  follower : msg.replicaIdx ≠ d.leader
  slow : msg.slowpath ≠ 0 → msg.opnum ≤ w.slow msg.replicaIdx
  fast : msg.slowpath = 0 → d.Numbers msg.req ∧ w.guessed msg.replicaIdx msg.opnum msg.req

/-- The leader has the request where the message says. -/
def CommitMessage.Valid (msg : CommitMessage) : Prop := msg.view = 0 ∧ w.At msg.opnum msg.req

/-- A follower has committed as much as it says. -/
def RequestStateTransferMessage.Valid (src : Nat) (msg : RequestStateTransferMessage) : Prop :=
  msg.view = 0 ∧ src ≠ d.leader ∧ msg.opnum ≤ w.committed src

/-- The entries are a piece of the leader's log that starts no later than after what the receiver,
a follower, has committed. -/
def StateTransferMessage.Valid (dst : Nat) (msg : StateTransferMessage) : Prop :=
  msg.view = 0 ∧ dst ≠ d.leader ∧ ∃ from_ ≤ w.committed dst, ∀ index entry,
    msg.entries[index]? = some entry →
      entry.viewstamp = ⟨0, from_ + 1 + index⟩ ∧ w.At (from_ + 1 + index) entry.request

/-- A packet says nothing that is not so. -/
def Packet.Valid (packet : Packet) : Prop :=
  match packet.msg with
  | .request msg => d.Numbers msg.req
  | .prepare msg => msg.Valid w
  | .prepareOK msg => msg.Valid d w
  | .commit msg => msg.Valid w
  | .requestStateTransfer msg => ∃ src, packet.src = .replica src ∧ msg.Valid d w src
  | .stateTransfer msg => ∀ dst, packet.dst = .replica dst → msg.Valid d w dst
  | .reply _ | .unloggedRequest _ | .unloggedReply _ => True

/-- What the leader's state is. Under `strict`, everything that it has committed is covered. -/
structure Core.Leads (strict : Prop) (r : Core) : Prop where
  log : w.log = r.log.requests
  paths : r.lastSlowPath = r.lastFastPath
  prepare : r.lastPrepare.Valid w
  numbers : ∀ req ∈ w.log, d.Numbers req
  table : ∀ req ∈ w.log, ∃ entry, r.clientTable req.clientid = some entry ∧
    req.clientreqid ≤ entry.lastReqId
  once : (w.log.map Request.reqid).Nodup
  pending : ∀ entry ∈ r.pendingPrepareOKs, entry.2.Valid d w
  slowRequired : d.configuration.f ≤ r.slowPrepareOKQuorum.numRequired
  fastRequired : d.configuration.f ≤ r.fastPrepareOKQuorum.numRequired
  slowAcks : r.slowPrepareOKQuorum.All fun vs replicaIdx _ =>
    replicaIdx < d.configuration.n ∧ replicaIdx ≠ d.leader ∧ vs.opnum ≤ w.slow replicaIdx
  fastAcks : r.fastPrepareOKQuorum.All fun vs replicaIdx _ =>
    replicaIdx < d.configuration.n ∧ replicaIdx ≠ d.leader ∧ w.Holds replicaIdx vs.opnum
  covered : strict → ∀ opnum, 0 < opnum → opnum ≤ r.lastCommitted → w.Covered d opnum

/-- What a replica's state has to do with the course of the leader: what it knows is the leader's,
and it has executed nothing else. -/
structure Core.Follows (strict : Prop) (idx : Nat) (r : Core) : Prop where
  view : r.view = 0
  start : r.log.start = 1
  views : ∀ operation ∈ r.log.operations, operation.view = 0
  length : r.log.requests.length = r.lastFastPath
  slow_le : r.lastSlowPath ≤ r.lastFastPath
  known_le : r.known ≤ w.log.length
  agreed : ∀ index < r.known, r.log.requests[index]? = w.log[index]?
  executed : r.executed <+: w.log
  executed_le : r.executed.length ≤ r.lastCommitted
  slow : w.slow idx ≤ r.known
  committed : w.committed idx ≤ r.lastCommitted
  guessed : ∀ opnum req, w.guessed idx opnum req → r.log.requests[opnum - 1]? = some req ∨
    ∃ mine, w.log[opnum - 1]? = some mine ∧ r.log.requests[opnum - 1]? = some mine
  prepares : ∀ entry ∈ r.pendingPrepares, entry.2.Valid w
  leads : idx = d.leader → r.Leads d w strict

/-- The replica has executed as many requests as it counts as committed. -/
def Core.Counted (r : Core) : Prop := r.executed.length = r.lastCommitted

/-- How a handler leaves the numbers of a replica. -/
structure Core.Settled (r : Core) : Prop where
  counted : r.Counted
  committed_le : r.lastCommitted ≤ r.lastSlowPath

end Validity

/-! ## What lasts -/

/-- A course that steps of replica `idx` lead to: only the leader adds to the log, and nothing
else becomes known of the others. -/
structure Course.Later (d : Deployment) (idx : Nat) (w w' : Course) : Prop where
  log : w.log <+: w'.log
  same : idx ≠ d.leader → w'.log = w.log
  slow : ∀ other, w.slow other ≤ w'.slow other
  committed : ∀ other, w.committed other ≤ w'.committed other
  guessed : ∀ other opnum req, w.guessed other opnum req → w'.guessed other opnum req
  frame : ∀ other, other ≠ idx → w'.slow other = w.slow other ∧
    w'.committed other = w.committed other ∧ w'.guessed other = w.guessed other

section Lasting

variable {d : Deployment} {idx : Nat} {w w' w'' : Course}

theorem Course.Later.refl (w : Course) : w.Later d idx w where
  log := List.prefix_rfl
  same _ := rfl
  slow _ := Nat.le_refl _
  committed _ := Nat.le_refl _
  guessed _ _ _ guessed := guessed
  frame _ _ := ⟨rfl, rfl, rfl⟩

/-- Later of later is later. -/
theorem Course.Later.trans (first : w.Later d idx w') (second : w'.Later d idx w'') :
    w.Later d idx w'' where
  log := first.log.trans second.log
  same follower := (second.same follower).trans (first.same follower)
  slow other := (first.slow other).trans (second.slow other)
  committed other := (first.committed other).trans (second.committed other)
  guessed other opnum req guessed :=
    second.guessed other opnum req (first.guessed other opnum req guessed)
  frame other different := by
    obtain ⟨slow, committed, guessed⟩ := first.frame other different
    obtain ⟨slow', committed', guessed'⟩ := second.frame other different
    exact ⟨slow'.trans slow, committed'.trans committed, guessed'.trans guessed⟩

/-- What is in a list stays where it is in a longer one. -/
theorem getElem?_of_extends {α : Type} {short long : List α} (extends_ : short <+: long)
    {index : Nat} {element : α} (here : short[index]? = some element) :
    long[index]? = some element := by
  obtain ⟨rest, rfl⟩ := extends_
  rw [List.getElem?_append_left (List.getElem?_eq_some_iff.mp here).1]
  exact here

/-- What is in the leader's log stays where it is. -/
theorem Course.At.later {opnum : Nat} {req : Request} (here : w.At opnum req)
    (log : w.log <+: w'.log) : w'.At opnum req :=
  ⟨here.1, getElem?_of_extends log here.2⟩

/-- A replica that has an operation of the leader keeps it. -/
theorem Course.Holds.later {replicaIdx opnum : Nat} (holds : w.Holds replicaIdx opnum)
    (later : w.Later d idx w') : w'.Holds replicaIdx opnum := by
  rcases holds with known | ⟨req, here, guessed⟩
  · exact .inl (known.trans (later.slow replicaIdx))
  · exact .inr ⟨req, here.later later.log, later.guessed _ _ _ guessed⟩

/-- What is covered stays covered. -/
theorem Course.Covered.later {opnum : Nat} (covered : w.Covered d opnum)
    (later : w.Later d idx w') : w'.Covered d opnum := by
  obtain ⟨holders, enough, all⟩ := covered
  refine ⟨holders, enough, fun other member => ?_⟩
  obtain ⟨inGroup, follower, holds⟩ := all other member
  exact ⟨inGroup, follower, holds.later later⟩

/-- A message of the leader stays true when the leader's log grows. -/
theorem PrepareMessage.Valid.later {msg : PrepareMessage} (valid : msg.Valid w)
    (log : w.log <+: w'.log) : msg.Valid w' :=
  ⟨valid.1, fun positive => (valid.2 positive).later log⟩

/-- An acknowledgement stays true. -/
theorem PrepareOKMessage.Valid.later {msg : PrepareOKMessage} (valid : msg.Valid d w)
    (later : w.Later d idx w') : msg.Valid d w' :=
  { valid with
    slow := fun slow => (valid.slow slow).trans (later.slow _)
    fast := fun fast => ⟨(valid.fast fast).1, later.guessed _ _ _ (valid.fast fast).2⟩ }

/-- A valid packet stays valid. -/
theorem Packet.Valid.later {packet : Packet} (valid : packet.Valid d w)
    (later : w.Later d idx w') : packet.Valid d w' := by
  unfold Packet.Valid at valid ⊢
  cases found : packet.msg with
  | request msg => simpa [found] using valid
  | prepare msg =>
      rw [found] at valid
      exact PrepareMessage.Valid.later valid later.log
  | prepareOK msg =>
      rw [found] at valid
      exact PrepareOKMessage.Valid.later valid later
  | commit msg =>
      rw [found] at valid
      exact ⟨valid.1, valid.2.later later.log⟩
  | requestStateTransfer msg =>
      rw [found] at valid
      obtain ⟨src, from_, view, follower, committed⟩ := valid
      exact ⟨src, from_, view, follower, committed.trans (later.committed src)⟩
  | stateTransfer msg =>
      rw [found] at valid
      intro dst to_
      obtain ⟨view, follower, from_, le, piece⟩ := valid dst to_
      refine ⟨view, follower, from_, le.trans (later.committed dst), fun index entry here => ?_⟩
      exact ⟨(piece index entry here).1, (piece index entry here).2.later later.log⟩
  | reply | unloggedRequest | unloggedReply => trivial

/-- The leader's state stays what it is while others act. -/
theorem Core.Leads.later {strict : Prop} {r : Core} (leads : r.Leads d w strict)
    (later : w.Later d idx w') (same : w'.log = w.log) : r.Leads d w' strict where
  log := same.trans leads.log
  paths := leads.paths
  prepare := leads.prepare.later later.log
  numbers := same ▸ leads.numbers
  table := same ▸ leads.table
  once := same ▸ leads.once
  pending entry inPending := (leads.pending entry inPending).later later
  slowRequired := leads.slowRequired
  fastRequired := leads.fastRequired
  slowAcks := leads.slowAcks.imp fun _ replicaIdx _ ack =>
    ⟨ack.1, ack.2.1, ack.2.2.trans (later.slow replicaIdx)⟩
  fastAcks := leads.fastAcks.imp fun _ _ _ ack => ⟨ack.1, ack.2.1, ack.2.2.later later⟩
  covered strict opnum positive le := (leads.covered strict opnum positive le).later later

/-- What a replica's state has to do with the course stays so while others act. -/
theorem Core.Follows.frame {strict : Prop} {other : Nat} {r : Core}
    (follows : r.Follows d w strict other) (later : w.Later d idx w') (different : other ≠ idx) :
    r.Follows d w' strict other := by
  obtain ⟨slow, committed, guessed⟩ := later.frame other different
  exact { follows with
    known_le := follows.known_le.trans later.log.length_le
    agreed := fun index inside => by
      rw [follows.agreed index inside]
      have here : index < w.log.length := inside.trans_le follows.known_le
      rw [List.getElem?_eq_getElem here]
      exact (getElem?_of_extends later.log (List.getElem?_eq_getElem here)).symm
    executed := follows.executed.trans later.log
    slow := slow ▸ follows.slow
    committed := committed ▸ follows.committed
    guessed := fun opnum req guess => by
      rw [guessed] at guess
      rcases follows.guessed opnum req guess with own | ⟨mine, here, has⟩
      · exact .inl own
      · exact .inr ⟨mine, getElem?_of_extends later.log here, has⟩
    prepares := fun entry inPending => (follows.prepares entry inPending).later later.log
    leads := fun leader =>
      (follows.leads leader).later later (later.same fun same => different (leader.trans same.symm)) }

/-- What handlers of replica `idx` are judged by. -/
def logic (d : Deployment) (strict : Prop) (idx : Nat) : Logic Course Replica Send where
  Later := Course.Later d idx
  refl := Course.Later.refl
  trans := Course.Later.trans
  Valid w send := ∀ packet ∈ post d.configuration idx send, packet.Valid d w
  mono later valid packet posted := (valid packet posted).later later
  Keeps w r := r.core.Follows d w strict idx

end Lasting

end PaxosBus.FastPaxos

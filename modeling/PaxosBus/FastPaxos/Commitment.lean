import PaxosBus.FastPaxos.Course

/-!
# Commitment

What the two kinds of replica have in common: how much of the leader's log a
replica has, what it can tell the others, and how it executes a piece of its log
that is the leader's.
-/

set_option autoImplicit false

namespace PaxosBus.FastPaxos

open PaxosBus.Common PaxosBus.Library
open Logic (Meets)

variable {d : Deployment} {strict : Prop} {idx : Nat} {w : Course} {r : Replica} {app : App}

/-! ## How much a replica has -/

/-- The first `count` requests of the replica are the leader's first `count`. -/
def Core.Agrees (w : Course) (count : Nat) (r : Core) : Prop :=
  count ≤ w.log.length ∧ ∀ index < count, r.log.requests[index]? = w.log[index]?

/-- What a replica knows is the start of the leader's log. -/
theorem Core.Follows.agrees_known {r : Core} (follows : r.Follows d w strict idx) :
    r.Agrees w r.known :=
  ⟨follows.known_le, follows.agreed⟩

/-- Where a replica agrees, it has requests. -/
theorem Core.Agrees.le_length {r : Core} {count : Nat} (agrees : r.Agrees w count) :
    count ≤ r.log.requests.length := by
  by_contra beyond
  have inside : r.log.requests.length < count := by omega
  have here := agrees.2 _ inside
  rw [List.getElem?_eq_none (Nat.le_refl _), eq_comm, List.getElem?_eq_none_iff] at here
  have := agrees.1
  omega

/-- A replica does not know more than it has. -/
theorem Core.Follows.known_le_fast {r : Core} (follows : r.Follows d w strict idx) :
    r.known ≤ r.lastFastPath :=
  follows.length ▸ follows.agrees_known.le_length

/-- The leader agrees with itself. -/
theorem Core.Leads.agrees {r : Core} (leads : r.Leads d w strict) {count : Nat}
    (le : count ≤ w.log.length) : r.Agrees w count :=
  ⟨le, fun index _ => by rw [leads.log]⟩

/-- An entry that a replica finds is the request with its number. -/
theorem Core.Follows.request_of_find {r : Core} (follows : r.Follows d w strict idx)
    {opnum : Nat} {entry : Entry} (found : r.log.find opnum = some entry) :
    0 < opnum ∧ r.log.requests[opnum - 1]? = some entry.request := by
  have positive := (Log.of_find found).1
  have here := Log.request_of_find found
  rw [follows.start] at positive here
  exact ⟨positive, here⟩

/-- The leader of the only view leads it, and nobody else does. -/
theorem amLeader_iff (view : r.view = 0) : (d.setup idx).AmLeader r.view ↔ idx = d.leader := by
  rw [view]
  exact eq_comm

/-! ## What a replica can tell -/

/-- The course after the replica has let everybody know its state. -/
def Course.tell (w : Course) (idx : Nat) (r : Core) : Course where
  log := w.log
  slow := Function.update w.slow idx r.known
  committed := Function.update w.committed idx r.lastCommitted
  guessed other opnum req := w.guessed other opnum req ∨
    other = idx ∧ r.log.requests[opnum - 1]? = some req

/-- What a replica tells about itself is true later on. -/
theorem Core.Follows.later_tell {r : Core} (follows : r.Follows d w strict idx) :
    w.Later d idx (w.tell idx r) where
  log := List.prefix_rfl
  same _ := rfl
  slow other := by
    by_cases who : other = idx
    · subst who
      simpa [Course.tell] using follows.slow
    · simp [Course.tell, who]
  committed other := by
    by_cases who : other = idx
    · subst who
      simpa [Course.tell] using follows.committed
    · simp [Course.tell, who]
  guessed _ _ _ guessed := .inl guessed
  frame other different := by
    refine ⟨by simp [Course.tell, different], by simp [Course.tell, different], ?_⟩
    funext opnum req
    simp [Course.tell, different]

/-- Telling the others changes nothing for the replica. -/
theorem Core.Follows.tell {r : Core} (follows : r.Follows d w strict idx) :
    r.Follows d (w.tell idx r) strict idx :=
  { follows with
    slow := by simp [Course.tell]
    committed := by simp [Course.tell]
    guessed := by
      rintro opnum req (before | ⟨-, here⟩)
      · exact follows.guessed opnum req before
      · exact .inl here
    leads := fun leader => (follows.leads leader).later follows.later_tell rfl }

/-- What is posted is addressed by the sender with the message. -/
theorem of_mem_post {configuration : Configuration} {src : Nat} {send : Send} {packet : Packet}
    (posted : packet ∈ post configuration src send) :
    packet.src = .replica src ∧ packet.msg = send.msg ∧
      ∀ addr, send.dst = .one addr → packet.dst = addr := by
  unfold post at posted
  split at posted
  next addr dst =>
      obtain rfl := List.mem_singleton.mp posted
      refine ⟨rfl, rfl, fun other same => ?_⟩
      rw [dst] at same
      cases same
      rfl
  next dst =>
      obtain ⟨other, -, rfl⟩ := List.mem_map.mp posted
      refine ⟨rfl, rfl, fun addr same => ?_⟩
      rw [dst] at same
      cases same

/-- A message is valid however it is addressed, if it is so in a packet from its sender. -/
theorem valid_post {send : Send}
    (valid : ∀ dst, Packet.Valid d w ⟨.replica idx, dst, send.msg⟩) :
    (logic d strict idx).Valid w send := by
  rintro ⟨src, dst, msg⟩ posted
  obtain ⟨rfl, rfl, -⟩ := of_mem_post posted
  exact valid dst

/-- A follower can ask for what comes after its committed operations. -/
theorem requestStateTransfer_meets (follower : idx ≠ d.leader)
    (follows : r.core.Follows d w strict idx) :
    (logic d strict idx).Meets requestStateTransfer w r fun _ w' r' =>
      w.Later d idx w' ∧ r'.core = r.core := by
  unfold requestStateTransfer
  refine .bind (.get follows fun _ => ?_)
  refine .branch (fun _ => .pure follows ⟨.refl w, rfl⟩) (fun _ => ?_)
  refine .bind (.change follows fun _ => ?_)
  refine .later follows.later_tell (.emit follows.tell (valid_post fun dst => ?_)
    ⟨follows.later_tell, rfl⟩)
  refine ⟨idx, rfl, follows.view, follower, ?_⟩
  simp [Course.tell, Replica.core]

/-! ## Execution -/

/-- A client table that knows at least as much of each client. -/
def TableGrows (before after : Nat → Option ClientTableEntry) : Prop :=
  ∀ clientid entry, before clientid = some entry → ∃ entry', after clientid = some entry' ∧
    entry.lastReqId ≤ entry'.lastReqId

/-- The leader may know more of its clients. -/
theorem Core.Leads.table_grows {r : Core} (leads : r.Leads d w strict)
    {table : Nat → Option ClientTableEntry} (grows : TableGrows r.clientTable table) :
    ({ r with clientTable := table } : Core).Leads d w strict :=
  { leads with
    table := fun req inLog => by
      obtain ⟨entry, known, le⟩ := leads.table req inLog
      obtain ⟨entry', known', le'⟩ := grows _ _ known
      exact ⟨entry', known', le.trans le'⟩ }

/-- So may any replica. -/
theorem Core.Follows.table_grows {r : Core} (follows : r.Follows d w strict idx)
    {table : Nat → Option ClientTableEntry} (grows : TableGrows r.clientTable table) :
    ({ r with clientTable := table } : Core).Follows d w strict idx :=
  { follows with leads := fun leader => (follows.leads leader).table_grows grows }

/-- A table grows by an entry that does not go back. -/
theorem tableGrows_setTableEntry {clientid : Nat} {entry : ClientTableEntry}
    (more : (r.tableEntry clientid).lastReqId ≤ entry.lastReqId) :
    TableGrows r.clientTable (r.setTableEntry clientid entry).clientTable := by
  intro other known found
  by_cases who : other = clientid
  · subst who
    refine ⟨entry, by simp [Replica.setTableEntry], ?_⟩
    simpa [Replica.tableEntry, found] using more
  · exact ⟨known, by simpa [Replica.setTableEntry, who] using found, Nat.le_refl _⟩

/-- The table takes the number of a request that is not before the last. -/
theorem tableGrows_updateClientTable (req : Request) :
    TableGrows r.clientTable (r.updateClientTable req).clientTable := by
  unfold Replica.updateClientTable
  dsimp only
  split
  · exact tableGrows_setTableEntry (Nat.le_refl _)
  · exact tableGrows_setTableEntry (by simp only; omega)

/-- A reply that is stored makes no request newer. -/
theorem tableGrows_storeReply (request : Request) (reply : ReplyMessage) :
    TableGrows r.clientTable (r.storeReply request reply).clientTable := by
  unfold Replica.storeReply
  split
  next le => exact tableGrows_setTableEntry le
  next => exact fun _ entry found => ⟨entry, found, Nat.le_refl _⟩

/-- A note changes the client table alone. -/
theorem core_updateClientTable (req : Request) :
    (r.updateClientTable req).core =
      { r.core with clientTable := (r.updateClientTable req).clientTable } := by
  unfold Replica.updateClientTable
  dsimp only
  split <;> rfl

/-- A reply changes the client table alone. -/
theorem core_storeReply (request : Request) (reply : ReplyMessage) :
    (r.storeReply request reply).core =
      { r.core with clientTable := (r.storeReply request reply).clientTable } := by
  unfold Replica.storeReply
  split <;> rfl

/-- Noting a request in the client table keeps the state in order. -/
theorem updateClientTable_keeps (follows : r.core.Follows d w strict idx) (req : Request) :
    (r.updateClientTable req).core.Follows d w strict idx := by
  rw [core_updateClientTable]
  exact follows.table_grows (tableGrows_updateClientTable req)

/-- Storing a reply keeps the state in order. -/
theorem storeReply_keeps (follows : r.core.Follows d w strict idx) {request : Request}
    {reply : ReplyMessage} : (r.storeReply request reply).core.Follows d w strict idx := by
  rw [core_storeReply]
  exact follows.table_grows (tableGrows_storeReply request reply)

/-- What a replica that commits or acknowledges leaves as it is. -/
structure Core.Undisturbed (r r' : Core) : Prop where
  view : r'.view = r.view
  requests : r'.log.requests = r.log.requests
  lastFastPath : r'.lastFastPath = r.lastFastPath
  fastPrepareOKQuorum : r'.fastPrepareOKQuorum = r.fastPrepareOKQuorum

namespace Core.Undisturbed

theorem refl (r : Core) : r.Undisturbed r := ⟨rfl, rfl, rfl, rfl⟩

/-- What is left undisturbed twice is undisturbed. -/
theorem trans {r r' r'' : Core} (first : r.Undisturbed r') (second : r'.Undisturbed r'') :
    r.Undisturbed r'' :=
  ⟨second.view.trans first.view, second.requests.trans first.requests,
    second.lastFastPath.trans first.lastFastPath,
    second.fastPrepareOKQuorum.trans first.fastPrepareOKQuorum⟩

end Core.Undisturbed

/-- What a replica is after it has committed up to a number. -/
structure Core.Commits (r : Core) (lastCommitted : Nat) (r' : Core) : Prop where
  counted : r'.Counted
  undisturbed : r.Undisturbed r'
  lastCommitted : r'.lastCommitted = lastCommitted
  lastSlowPath : r'.lastSlowPath = r.lastSlowPath

/-- Committing one operation more where the replica agrees with the leader. -/
theorem Core.Follows.commit {r : Core} (follows : r.Follows d w strict idx)
    (agrees : r.Agrees w (r.lastCommitted + 1))
    (covered : idx = d.leader → strict → w.Covered d (r.lastCommitted + 1)) :
    ({ r with lastCommitted := r.lastCommitted + 1 } : Core).Follows d w strict idx :=
  { follows with
    known_le := by
      have := follows.known_le
      have := agrees.1
      simp only [Core.known] at *
      omega
    agreed := fun index inside => by
      by_cases before : index < r.known
      · exact follows.agreed index before
      · apply agrees.2
        simp only [Core.known] at *
        omega
    executed_le := by
      have := follows.executed_le
      simp only
      omega
    slow := by
      have := follows.slow
      simp only [Core.known] at *
      omega
    committed := by
      have := follows.committed
      simp only
      omega
    leads := fun leader =>
      { follows.leads leader with
        covered := fun strict_ opnum positive le => by
          by_cases before : opnum ≤ r.lastCommitted
          · exact (follows.leads leader).covered strict_ opnum positive before
          · obtain rfl : opnum = r.lastCommitted + 1 := by
              simp only at le
              omega
            exact covered leader strict_ } }

/-- Executing the leader's next request. -/
theorem Core.Follows.execute {r : Core} (follows : r.Follows d w strict idx)
    (next : r.executed.length + 1 = r.lastCommitted) {req : Request}
    (here : w.log[r.executed.length]? = some req) :
    ({ r with executed := r.executed ++ [req] } : Core).Follows d w strict idx :=
  { follows with
    executed := by
      obtain ⟨rest, whole⟩ := follows.executed
      rw [← whole, List.getElem?_append_right (Nat.le_refl _), Nat.sub_self] at here
      cases rest with
      | nil => simp at here
      | cons first more =>
          obtain rfl : first = req := by simpa using here
          exact ⟨more, by rw [List.append_assoc]; exact whole⟩
    executed_le := by
      simp only [List.length_append, List.length_singleton]
      omega
    leads := fun leader => { follows.leads leader with } }

/-- Marking an entry changes nothing that agreement is about. -/
theorem Core.Follows.setStatus {r : Core} (follows : r.Follows d w strict idx) (opnum : Nat)
    (state : LogEntryState) :
    ({ r with log := (r.log.setStatus opnum state).1 } : Core).Follows d w strict idx :=
  { follows with
    start := by simpa using follows.start
    views := by simpa using follows.views
    length := by simpa using follows.length
    agreed := fun index inside => by
      rw [Log.requests_setStatus]
      exact follows.agreed index inside
    guessed := fun opnum req guessed => by
      rw [Log.requests_setStatus]
      exact follows.guessed opnum req guessed
    leads := fun leader =>
      { follows.leads leader with
        log := by simpa using (follows.leads leader).log } }

/-- One round of the loop of `CommitUpTo` executes the leader's next request. -/
theorem commitNext_meets (follows : r.core.Follows d w strict idx) (counted : r.core.Counted)
    (agrees : r.core.Agrees w (r.lastCommitted + 1))
    (covered : idx = d.leader → strict → w.Covered d (r.lastCommitted + 1)) :
    (logic d strict idx).Meets (commitNext app) w r fun _ w' r' =>
      w' = w ∧ r.core.Commits (r.lastCommitted + 1) r'.core := by
  unfold commitNext
  have raised := follows.commit agrees covered
  refine .bind (.change raised fun _ => .bind (.get raised fun _ => ?_))
  refine .bind (.demand raised fun entry found _ => ?_)
  have here : w.log[r.executed.length]? = some entry.request := by
    have found := (raised.request_of_find found).2
    have same := agrees.2 r.lastCommitted (Nat.lt_succ_self _)
    rw [show r.executed.length = r.lastCommitted from counted, ← same]
    exact found
  have executed := raised.execute (congrArg (· + 1) counted) here
  have marked := executed.setStatus (r.lastCommitted + 1) .committed
  refine .bind (.change executed fun _ => ?_)
  refine .bind (.change marked fun _ => ?_)
  -- the reply goes into the client table, and to the client if its address is known
  refine .bind (.change (storeReply_keeps marked) fun stored => ?_)
  have done : r.core.Commits (r.lastCommitted + 1)
      { r.core with
        lastCommitted := r.lastCommitted + 1
        executed := r.executed ++ [entry.request]
        log := (r.log.setStatus (r.lastCommitted + 1) .committed).1 } := by
    refine ⟨?_, ⟨rfl, Log.requests_setStatus _ _, rfl, rfl⟩, rfl, rfl⟩
    simpa [Core.Counted, Replica.core] using counted
  have stays : ∀ {before : Replica} {request : Request} {reply : ReplyMessage},
      r.core.Commits (r.lastCommitted + 1) before.core →
        r.core.Commits (r.lastCommitted + 1) (before.storeReply request reply).core := by
    intro before request reply commits
    rw [core_storeReply]
    exact { commits with undisturbed := { commits.undisturbed with } }
  split
  next => exact .emit stored (valid_post fun dst => trivial) ⟨rfl, stays done⟩
  next => exact .pure stored ⟨rfl, stays done⟩

/-- The end of `CommitUpTo` counts what is committed as known, which it is. -/
theorem Core.Follows.raiseSlowPath {r : Core} (follows : r.Follows d w strict idx) :
    ({ r with lastSlowPath := max r.lastSlowPath r.lastCommitted } : Core).Follows d w strict
      idx := by
  have same : ({ r with lastSlowPath := max r.lastSlowPath r.lastCommitted } : Core).known =
      r.known := by
    simp [Core.known]
  have known := follows.known_le_fast
  exact { follows with
    slow_le := known
    known_le := same ▸ follows.known_le
    agreed := same ▸ follows.agreed
    slow := same ▸ follows.slow
    leads := fun leader =>
      { follows.leads leader with
        paths := by
          have paths := (follows.leads leader).paths
          simp only [Core.known] at known ⊢
          omega } }

/-- `CommitUpTo` executes the leader's requests up to the number. -/
theorem commitUpTo_meets {upto : Nat} (follows : r.core.Follows d w strict idx)
    (counted : r.core.Counted) (agrees : r.core.Agrees w upto)
    (covered : idx = d.leader → strict → ∀ opnum, r.lastCommitted < opnum → opnum ≤ upto →
      w.Covered d opnum) :
    (logic d strict idx).Meets (commitUpTo app upto) w r fun _ w' r' =>
      w' = w ∧ r'.core.Settled ∧ r.core.Undisturbed r'.core ∧
        r'.lastCommitted = max r.lastCommitted upto ∧
          r'.lastSlowPath = max r.lastSlowPath r'.lastCommitted := by
  unfold commitUpTo
  refine .bind (.get follows fun _ => ?_)
  -- the numbers that are left count down to zero
  refine .bind (.imp (.repeated (fun rounds w' r' => w' = w ∧
    r.core.Commits (max r.lastCommitted upto - rounds) r'.core ∧
      rounds ≤ upto - r.lastCommitted) ?_ follows ⟨rfl, ?_, Nat.le_refl _⟩) ?_)
  · rintro rounds w' r' follows' ⟨rfl, commits, left⟩
    have number : r'.lastCommitted + 1 = max r.lastCommitted upto - rounds := by
      have := commits.lastCommitted
      simp only [Replica.core] at this
      omega
    have agrees' : r'.core.Agrees w' (r'.lastCommitted + 1) := by
      have same := commits.undisturbed.requests
      refine ⟨by have := agrees.1; omega, fun index inside => ?_⟩
      rw [same]
      exact agrees.2 index (by omega)
    refine (commitNext_meets follows' commits.counted agrees' ?_).imp ?_
    · exact fun leader strict_ => covered leader strict_ _ (by omega) (by omega)
    · rintro _ w'' r'' _ ⟨rfl, next⟩
      refine ⟨rfl, ⟨next.counted, commits.undisturbed.trans next.undisturbed, ?_, ?_⟩, by omega⟩
      · exact next.lastCommitted.trans number
      · exact next.lastSlowPath.trans commits.lastSlowPath
  · exact ⟨counted, .refl _, by simp only [Replica.core]; omega, rfl⟩
  · rintro _ w' r' follows' ⟨rfl, commits, -⟩ _
    have raised := follows'.raiseSlowPath
    refine .bind (.change raised fun _ => .bind (.get raised fun _ => ?_))
    refine .require raised fun _ =>
      ⟨rfl, ⟨commits.counted, Nat.le_max_right _ _⟩, { commits.undisturbed with }, ?_, ?_⟩
    · exact commits.lastCommitted
    · exact congrArg (max · r'.lastCommitted) commits.lastSlowPath

end PaxosBus.FastPaxos

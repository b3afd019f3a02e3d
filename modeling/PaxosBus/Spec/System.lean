import PaxosBus.Library.Transition
import PaxosBus.Spec.Client
import PaxosBus.Spec.Replica

/-!
# Replicas, clients and the network

The group of replicas, the clients and every packet ever handed to the
transport. Delivering a packet does not remove it: a packet that is never chosen
is lost, one chosen twice is duplicated, and the order of delivery is free. Any
running timeout may fire at any moment, and a client may send its pending request
again at any moment.
-/

set_option autoImplicit false

namespace PaxosBus.Spec

open PaxosBus.Common PaxosBus.Library

variable {Hash : Type}

/-- A message in transit. -/
structure Packet (Hash : Type) where
  src : Address
  dst : Address
  msg : Message Hash
deriving DecidableEq, Repr

/-- The fixed parameters of a run: the group, how logs are hashed, and what each numbered request
of each client asks for. -/
structure Deployment (Hash : Type) where
  configuration : Configuration
  hashing : Hashing Hash
  operation : Nat → Nat → String

namespace Deployment

variable (d : Deployment Hash)

/-- What a replica of the group is constructed with. -/
def setup (idx : Nat) : Setup Hash where
  configuration := d.configuration
  hashing := d.hashing
  replicaIdx := idx

/-- A numbered request of a client. -/
def request (clientid clientreqid : Nat) : Request where
  op := d.operation clientid clientreqid
  clientid := clientid
  clientreqid := clientreqid

end Deployment

/-- A view is entered: by whom, which one, and with which log. -/
structure Entrance (Hash : Type) where
  idx : Nat
  view : Nat
  log : List (LogEntry Hash)
deriving DecidableEq, Repr

/-- A `SyncMessage` is answered: by whom, in which view and status, and with which log. -/
structure Answer (Hash : Type) where
  idx : Nat
  status : Status
  view : Nat
  log : List (LogEntry Hash)
deriving DecidableEq, Repr

/-- A leader commits by a quorum: who, by which one, in which status and view, up to where, and with
which log. -/
structure Commit (Hash : Type) where
  idx : Nat
  route : Route
  status : Status
  view : Nat
  opnum : Nat
  log : List (LogEntry Hash)
deriving DecidableEq, Repr

/-- An access to the entry with an opnum of a vote for a view. -/
structure Read (Hash : Type) where
  idx : Nat
  msg : DoViewChangeMessage Hash
  opnum : Nat
deriving DecidableEq, Repr

/-- The completion of a request at its client, with the reply that completed it. -/
structure Completion (Hash : Type) where
  clientid : Nat
  reply : SpeculativeReplyMessage Hash
deriving DecidableEq, Repr

/-- The global state. The last five fields are the history of the run. -/
structure System (Hash : Type) where
  replicas : Nat → Replica Hash
  clients : Nat → Client Hash
  stopped : Nat → Bool := fun _ => false
  network : List (Packet Hash) := []
  entrances : List (Entrance Hash) := []
  answers : List (Answer Hash) := []
  commits : List (Commit Hash) := []
  reads : List (Read Hash) := []
  completions : List (Completion Hash) := []

/-- What the environment can choose next. A message comes to a replica with the application's
answers. -/
inductive Action where
  | invoke (clientid : Nat)
  | resend (clientid : Nat)
  | invokeUnlogged (clientid idx : Nat) (op : String)
  | unloggedTimeout (clientid : Nat)
  | deliver (position : Nat) (app : App)
  | timer (idx : Nat) (timer : Timer)

/-- The packets of one output of a replica. -/
def post (configuration : Configuration) (src : Nat) : Output Hash → List (Packet Hash)
  | .send (.one addr) msg => [{ src := .replica src, dst := addr, msg := msg }]
  | .answering replicaIdx msg _ _ _ =>
    [{ src := .replica src, dst := .replica replicaIdx, msg := .syncReply msg }]
  | .send .others msg =>
    ((List.range configuration.n).filter (· ≠ src)).map fun idx =>
      { src := .replica src, dst := .replica idx, msg := msg }
  | _ => []

/-- The packets of a message that a client sends to all replicas. -/
def postAll (configuration : Configuration) (clientid : Nat) (msg : Message Hash) :
    List (Packet Hash) :=
  (List.range configuration.n).map fun idx =>
    { src := .client clientid, dst := .replica idx, msg := msg }

/-- The entrance that an output marks. -/
def entrance (idx : Nat) : Output Hash → Option (Entrance Hash)
  | .entering view log => some { idx := idx, view := view, log := log }
  | _ => none

/-- The answer to a `SyncMessage` that an output is. -/
def answer (idx : Nat) : Output Hash → Option (Answer Hash)
  | .answering _ _ status view log =>
    some { idx := idx, status := status, view := view, log := log }
  | _ => none

/-- The commit that an output marks. -/
def commit (idx : Nat) : Output Hash → Option (Commit Hash)
  | .committing route status view opnum log =>
    some
      { idx := idx, route := route, status := status, view := view, opnum := opnum, log := log }
  | _ => none

/-- The access that an output marks. -/
def read (idx : Nat) : Output Hash → Option (Read Hash)
  | .read msg opnum => some { idx := idx, msg := msg, opnum := opnum }
  | _ => none

/-- The completion that a client's reaction is. -/
def completion (clientid : Nat) : Reaction Hash → Option (Completion Hash)
  | .completed reply => some { clientid := clientid, reply := reply }
  | _ => none

/-- The packets that a client's reaction sends. -/
def react (configuration : Configuration) (clientid : Nat) : Reaction Hash → List (Packet Hash)
  | .requested msg => postAll configuration clientid (.requestViewChange msg)
  | _ => []

namespace System

variable (d : Deployment Hash)

/-- The state before anything has happened. -/
def initial : System Hash where
  replicas idx := Replica.constructed (d.setup idx)
  clients _ := Client.constructed d.configuration

/-- Store what a handler of a replica has done. -/
def absorb (s : System Hash) (idx : Nat) (outcome : Outcome (Replica Hash) (Output Hash) Unit) :
    System Hash :=
  { s with
    replicas := Function.update s.replicas idx outcome.state
    stopped := Function.update s.stopped idx outcome.value.isNone
    network := s.network ++ outcome.outputs.flatMap (post d.configuration idx)
    entrances := s.entrances ++ outcome.outputs.filterMap (entrance idx)
    answers := s.answers ++ outcome.outputs.filterMap (answer idx)
    commits := s.commits ++ outcome.outputs.filterMap (commit idx)
    reads := s.reads ++ outcome.outputs.filterMap (read idx) }

/-- Run a handler at a replica that is there and has not stopped. -/
def runAt (s : System Hash) (idx : Nat) (handler : Run Hash Unit) : Option (System Hash) :=
  if idx < d.configuration.n ∧ s.stopped idx = false then
    some (s.absorb d idx (handler (s.replicas idx)))
  else
    none

/-- A client sends its pending request to all replicas. -/
def requested (s : System Hash) (clientid clientreqid : Nat) : System Hash :=
  { s with
    network := s.network ++ postAll d.configuration clientid
      (.request { req := d.request clientid clientreqid }) }

/-- A client invokes an operation, unless it panics. -/
def invoked (s : System Hash) (clientid : Nat) : System Hash :=
  let client := (s.clients clientid).invoke
  let after := { s with clients := Function.update s.clients clientid client }
  if client.stopped then after else after.requested d clientid client.lastReqId

/-- A client sends an unlogged request to a replica, unless it panics. -/
def askedUnlogged (s : System Hash) (clientid idx : Nat) (op : String) : System Hash :=
  { s with
    clients := Function.update s.clients clientid (s.clients clientid).invokeUnlogged
    network := if (s.clients clientid).pendingUnloggedRequest.isSome then s.network else
      s.network ++
        [{ src := .client clientid, dst := .replica idx, msg := .unloggedRequest { op := op } }] }

/-- The unlogged request of a client has its reply, or timed out. -/
def endedUnlogged (s : System Hash) (clientid : Nat) : System Hash :=
  { s with clients := Function.update s.clients clientid (s.clients clientid).endUnlogged }

/-- A client gets a reply. -/
def replied [DecidableEq Hash] (s : System Hash) (clientid : Nat)
    (msg : SpeculativeReplyMessage Hash) : System Hash :=
  let handled := (s.clients clientid).handleReply d.configuration msg
  { s with
    clients := Function.update s.clients clientid handled.1
    network := s.network ++ handled.2.toList.flatMap (react d.configuration clientid)
    completions := s.completions ++ handled.2.toList.filterMap (completion clientid) }

variable [LinearOrder Hash]

/-- One step of the system; an action that is not enabled is refused. -/
def step (s : System Hash) : Action → Option (System Hash)
  | .invoke clientid =>
    if (s.clients clientid).stopped then none else some (s.invoked d clientid)
  | .resend clientid =>
    if (s.clients clientid).stopped then
      none
    else
      (s.clients clientid).pendingRequest.map (s.requested d clientid)
  | .invokeUnlogged clientid idx op =>
    if (s.clients clientid).stopped then none else some (s.askedUnlogged clientid idx op)
  | .unloggedTimeout clientid =>
    if (s.clients clientid).stopped ∨ (s.clients clientid).pendingUnloggedRequest = none then
      none
    else
      some (s.endedUnlogged clientid)
  | .deliver position app =>
    match s.network[position]? with
    | some ⟨src, .replica idx, msg⟩ =>
      s.runAt d idx (receiveMessage (d.setup idx) app src msg)
    | some ⟨_, .client clientid, .reply msg⟩ =>
      if (s.clients clientid).stopped then none else some (s.replied d clientid msg)
    | some ⟨_, .client clientid, .unloggedReply _⟩ =>
      if (s.clients clientid).stopped then none else some (s.endedUnlogged clientid)
    | _ => none
  | .timer idx timer =>
    if (s.replicas idx).active timer then
      s.runAt d idx (fireTimer (d.setup idx) timer)
    else
      none

/-! ## What a step does -/

/-- What each action leads to, where it is enabled. -/
inductive Moves (s : System Hash) : Action → System Hash → Prop where
  | invoke {clientid} (running : (s.clients clientid).stopped = false) :
      Moves s (.invoke clientid) (s.invoked d clientid)
  | resend {clientid clientreqid} (running : (s.clients clientid).stopped = false)
      (pending : (s.clients clientid).pendingRequest = some clientreqid) :
      Moves s (.resend clientid) (s.requested d clientid clientreqid)
  | invokeUnlogged {clientid idx op} (running : (s.clients clientid).stopped = false) :
      Moves s (.invokeUnlogged clientid idx op) (s.askedUnlogged clientid idx op)
  | unloggedTimeout {clientid} (running : (s.clients clientid).stopped = false) :
      Moves s (.unloggedTimeout clientid) (s.endedUnlogged clientid)
  | receive {position app src idx msg}
      (found : s.network[position]? = some ⟨src, .replica idx, msg⟩)
      (inGroup : idx < d.configuration.n) (running : s.stopped idx = false) :
      Moves s (.deliver position app)
        (s.absorb d idx (receiveMessage (d.setup idx) app src msg (s.replicas idx)))
  | reply {position app src clientid msg}
      (found : s.network[position]? = some ⟨src, .client clientid, .reply msg⟩)
      (running : (s.clients clientid).stopped = false) :
      Moves s (.deliver position app) (s.replied d clientid msg)
  | unloggedReply {position app src clientid msg}
      (found : s.network[position]? = some ⟨src, .client clientid, .unloggedReply msg⟩)
      (running : (s.clients clientid).stopped = false) :
      Moves s (.deliver position app) (s.endedUnlogged clientid)
  | fire {idx timer} (active : (s.replicas idx).active timer)
      (inGroup : idx < d.configuration.n) (running : s.stopped idx = false) :
      Moves s (.timer idx timer)
        (s.absorb d idx (fireTimer (d.setup idx) timer (s.replicas idx)))

variable {d} {s next : System Hash}

omit [LinearOrder Hash] in
/-- A handler runs at a replica that is there and has not stopped. -/
theorem of_runAt {idx : Nat} {handler : Run Hash Unit} (ran : s.runAt d idx handler = some next) :
    idx < d.configuration.n ∧ s.stopped idx = false ∧
      next = s.absorb d idx (handler (s.replicas idx)) := by
  unfold runAt at ran
  split at ran
  next enabled => exact ⟨enabled.1, enabled.2, (Option.some.inj ran).symm⟩
  next => simp at ran

/-- Every step is one of these moves. -/
theorem moves_of_step {action : Action} (stepped : s.step d action = some next) :
    s.Moves d action next := by
  cases action with
  | invoke clientid =>
      simp only [step] at stepped
      split at stepped
      next => simp at stepped
      next running =>
          obtain rfl := Option.some.inj stepped
          exact .invoke (by simpa using running)
  | resend clientid =>
      simp only [step] at stepped
      split at stepped
      next => simp at stepped
      next running =>
          obtain ⟨clientreqid, pending, rfl⟩ := Option.map_eq_some_iff.mp stepped
          exact .resend (by simpa using running) pending
  | invokeUnlogged clientid idx op =>
      simp only [step] at stepped
      split at stepped
      next => simp at stepped
      next running =>
          obtain rfl := Option.some.inj stepped
          exact .invokeUnlogged (by simpa using running)
  | unloggedTimeout clientid =>
      simp only [step] at stepped
      split at stepped
      next => simp at stepped
      next enabled =>
          obtain rfl := Option.some.inj stepped
          exact .unloggedTimeout (by simpa using (not_or.mp enabled).1)
  | deliver position app =>
      simp only [step] at stepped
      split at stepped
      next src idx msg found =>
          obtain ⟨inGroup, running, rfl⟩ := of_runAt stepped
          exact .receive found inGroup running
      next src clientid msg found =>
          split at stepped
          next => simp at stepped
          next running =>
              obtain rfl := Option.some.inj stepped
              exact .reply found (by simpa using running)
      next src clientid msg found =>
          split at stepped
          next => simp at stepped
          next running =>
              obtain rfl := Option.some.inj stepped
              exact .unloggedReply found (by simpa using running)
      next => simp at stepped
  | timer idx timer =>
      simp only [step] at stepped
      split at stepped
      next active =>
          obtain ⟨inGroup, running, rfl⟩ := of_runAt stepped
          exact .fire active inGroup running
      next => simp at stepped

end System

/-- The group of replicas and its clients as a transition system. -/
def system [LinearOrder Hash] (d : Deployment Hash) : TransitionSystem (System Hash) Action where
  Initial s := s = System.initial d
  step := System.step d

end PaxosBus.Spec

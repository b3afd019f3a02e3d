import PaxosBus.Library.Transition
import PaxosBus.NoPaxos.Client
import PaxosBus.NoPaxos.Replica

/-!
# Replicas, clients and the network

The group of replicas, the clients and every packet ever handed to the
transport. Delivering a packet does not remove it: a packet that is never chosen
is lost, one chosen twice is duplicated, and the order of delivery is free. Any
running timeout may fire at any moment. The ordered multicast gives a number of
a session to at most one request of a client; a request may get several numbers,
and a copy of it need not reach every replica.
-/

set_option autoImplicit false

namespace PaxosBus.NoPaxos

open PaxosBus.Common PaxosBus.Library

/-- A message in transit. -/
structure Packet where
  src : Address
  dst : Address
  msg : Message
deriving DecidableEq, Repr

/-- The fixed parameters of a run: the group, what each numbered request of each client asks for,
and the client and the number of the request that the sequencer puts into a slot. -/
structure Deployment where
  configuration : Configuration
  operation : Nat → Nat → String
  stamped : Nat → Nat → Nat × Nat

namespace Deployment

variable (d : Deployment)

/-- What a replica of the group is constructed with. -/
def setup (idx : Nat) : Setup where
  configuration := d.configuration
  replicaIdx := idx

/-- The request of the client that the sequencer puts into a slot. -/
def request (sessnum msgnum : Nat) : Request where
  op := d.operation (d.stamped sessnum msgnum).1 (d.stamped sessnum msgnum).2
  clientid := (d.stamped sessnum msgnum).1
  clientreqid := (d.stamped sessnum msgnum).2

end Deployment

/-- A view is entered: by whom, of which session and view, and with which log. -/
structure Entrance where
  idx : Nat
  sessnum : Nat
  view : Nat
  log : List Entry
deriving DecidableEq, Repr

/-- A call of `EnterView`, before its assertions: the session and view that the replica comes from
and the one that it is to enter, whether it leads that view, its last sync point and its last
operation. -/
structure Entering where
  idx : Nat
  current : Nat × Nat
  next : Nat × Nat
  leads : Bool
  point : Nat
  lastOp : Nat
deriving DecidableEq, Repr

/-- An `Execute` upcall: for which operation and request, with which result, and whether the client
table has stored the result. -/
structure Execution where
  opnum : Nat
  request : Request
  result : String
  stored : Bool
deriving DecidableEq, Repr

/-- The end of a gap agreement: whose, of which session and view, and for which operation. -/
structure GapAgreed where
  idx : Nat
  sessnum : Nat
  view : Nat
  opnum : Nat
deriving DecidableEq, Repr

/-- The last session and view that a leader has found in a quorum for a view change. -/
structure Merge where
  idx : Nat
  own : Nat × Nat
  others : List (Nat × Nat)
  latest : Nat × Nat
deriving DecidableEq, Repr

/-- The completion of a request at its client, with the leader's reply. -/
structure Completion where
  clientid : Nat
  clientreqid : Nat
  reply : ReplyMessage
deriving DecidableEq, Repr

/-- A moment in the course of the state transfers of a replica. -/
inductive Moment where
  | started (end_ : Nat)
  | ended (end_ length : Nat)
deriving DecidableEq, Repr

/-- The global state. The last seven fields are the history of the run; `transfers` has the moments
and `executions` the `Execute` upcalls of each replica in their order. -/
structure System where
  replicas : Nat → Replica
  clients : Nat → Client
  stopped : Nat → Bool := fun _ => false
  network : List Packet := []
  entrances : List Entrance := []
  gapsAgreed : List GapAgreed := []
  merges : List Merge := []
  completions : List Completion := []
  transfers : Nat → List Moment := fun _ => []
  enterings : List Entering := []
  executions : Nat → List Execution := fun _ => []

/-- What the environment can choose next. A step that runs a replica comes with the application's
answers. -/
inductive Action where
  | invoke (clientid : Nat)
  | invokeUnlogged (clientid idx : Nat) (op : String)
  | unloggedTimeout (clientid : Nat)
  | multicast (sessnum msgnum idx : Nat)
  | deliver (position : Nat) (app : App)
  | timer (idx : Nat) (timer : Timer) (app : App)

/-- The packets of one output of a replica. -/
def post (configuration : Configuration) (src : Nat) : Output → List Packet
  | .send (.one addr) msg => [{ src := .replica src, dst := addr, msg := msg }]
  | .send .others msg =>
    ((List.range configuration.n).filter (· ≠ src)).map fun idx =>
      { src := .replica src, dst := .replica idx, msg := msg }
  | _ => []

/-- The entrance that an output marks. -/
def entrance (idx : Nat) : Output → Option Entrance
  | .entered sessnum view log => some { idx := idx, sessnum := sessnum, view := view, log := log }
  | _ => none

/-- The end of a gap agreement that an output marks. -/
def gapAgreed (idx : Nat) : Output → Option GapAgreed
  | .gapCommitted sessnum view opnum =>
    some { idx := idx, sessnum := sessnum, view := view, opnum := opnum }
  | _ => none

/-- The result of a merge that an output marks. -/
def merge (idx : Nat) : Output → Option Merge
  | .merged own others latest => some { idx := idx, own := own, others := others, latest := latest }
  | _ => none

/-- The moment in the course of a state transfer that an output marks. -/
def moment : Output → Option Moment
  | .transferStarted end_ => some (.started end_)
  | .transferEnded end_ length => some (.ended end_ length)
  | _ => none

/-- The call of `EnterView` that an output marks. -/
def entering (idx : Nat) : Output → Option Entering
  | .entering current next leads point lastOp =>
    some { idx := idx, current := current, next := next, leads := leads, point := point,
           lastOp := lastOp }
  | _ => none

/-- The upcall that an output marks. -/
def execution : Output → Option Execution
  | .executed opnum request result stored =>
    some { opnum := opnum, request := request, result := result, stored := stored }
  | _ => none

namespace System

variable (d : Deployment)

/-- The state before anything has happened. -/
def initial : System where
  replicas idx := Replica.constructed (d.setup idx)
  clients _ := Client.constructed d.configuration

/-- Store what a handler of a replica has done. -/
def absorb (s : System) (idx : Nat) (outcome : Outcome Replica Output Unit) : System :=
  { s with
    replicas := Function.update s.replicas idx outcome.state
    stopped := Function.update s.stopped idx outcome.value.isNone
    network := s.network ++ outcome.outputs.flatMap (post d.configuration idx)
    entrances := s.entrances ++ outcome.outputs.filterMap (entrance idx)
    gapsAgreed := s.gapsAgreed ++ outcome.outputs.filterMap (gapAgreed idx)
    merges := s.merges ++ outcome.outputs.filterMap (merge idx)
    transfers := Function.update s.transfers idx
      (s.transfers idx ++ outcome.outputs.filterMap moment)
    enterings := s.enterings ++ outcome.outputs.filterMap (entering idx)
    executions := Function.update s.executions idx
      (s.executions idx ++ outcome.outputs.filterMap execution) }

/-- Run a handler at a replica that is there and has not stopped. -/
def runAt (s : System) (idx : Nat) (handler : Run Unit) : Option System :=
  if idx < d.configuration.n ∧ s.stopped idx = false then
    some (s.absorb d idx (handler (s.replicas idx)))
  else
    none

/-- A client gets a reply. -/
def replied (s : System) (clientid : Nat) (msg : ReplyMessage) : System :=
  let (client, completed) := (s.clients clientid).handleReply d.configuration msg
  { s with
    clients := Function.update s.clients clientid client
    completions := s.completions ++
      completed.toList.map fun reply =>
        { clientid := clientid, clientreqid := msg.clientreqid, reply := reply } }

/-- A client sends an unlogged request to a replica, unless it panics. -/
def askedUnlogged (s : System) (clientid idx : Nat) (op : String) : System :=
  { s with
    clients := Function.update s.clients clientid (s.clients clientid).invokeUnlogged
    network := if (s.clients clientid).pendingUnloggedRequest.isSome then s.network else
      s.network ++
        [{ src := .client clientid, dst := .replica idx, msg := .unloggedRequest { op := op } }] }

/-- The unlogged request of a client has its reply, or timed out. -/
def endedUnlogged (s : System) (clientid : Nat) : System :=
  { s with clients := Function.update s.clients clientid (s.clients clientid).endUnlogged }

/-- One step of the system; an action that is not enabled is refused. -/
def step (s : System) : Action → Option System
  | .invoke clientid =>
    if (s.clients clientid).stopped then
      none
    else
      some { s with clients := Function.update s.clients clientid (s.clients clientid).invoke }
  | .invokeUnlogged clientid idx op =>
    if (s.clients clientid).stopped then
      none
    else
      some (s.askedUnlogged clientid idx op)
  | .unloggedTimeout clientid =>
    if (s.clients clientid).stopped ∨ (s.clients clientid).pendingUnloggedRequest = none then
      none
    else
      some (s.endedUnlogged clientid)
  | .multicast sessnum msgnum idx =>
    let req := d.request sessnum msgnum
    if 0 < req.clientreqid ∧ req.clientreqid ≤ (s.clients req.clientid).lastReqID ∧
        req.clientreqid ∉ (s.clients req.clientid).unlogged then
      some { s with
        network := s.network ++
          [{ src := .client req.clientid, dst := .replica idx,
             msg := .request { sessnum := sessnum, msgnum := msgnum, req := req } }] }
    else
      none
  | .deliver position app =>
    match s.network[position]? with
    | some ⟨src, .replica idx, msg⟩ =>
      s.runAt d idx (receiveMessage (d.setup idx) app src msg)
    | some ⟨_, .client clientid, .reply msg⟩ =>
      if (s.clients clientid).stopped then none else some (s.replied d clientid msg)
    | some ⟨_, .client clientid, .unloggedReply _⟩ =>
      if (s.clients clientid).stopped then none else some (s.endedUnlogged clientid)
    | _ => none
  | .timer idx timer app =>
    if (s.replicas idx).active timer then
      s.runAt d idx (fireTimer (d.setup idx) app timer)
    else
      none

/-! ## What a step does -/

/-- What each action leads to, where it is enabled. -/
inductive Moves (s : System) : Action → System → Prop where
  | invoke {clientid} (running : (s.clients clientid).stopped = false) :
      Moves s (.invoke clientid)
        { s with clients := Function.update s.clients clientid (s.clients clientid).invoke }
  | invokeUnlogged {clientid idx op} (running : (s.clients clientid).stopped = false) :
      Moves s (.invokeUnlogged clientid idx op) (s.askedUnlogged clientid idx op)
  | unloggedTimeout {clientid} (running : (s.clients clientid).stopped = false) :
      Moves s (.unloggedTimeout clientid) (s.endedUnlogged clientid)
  | multicast {sessnum msgnum idx} (positive : 0 < (d.request sessnum msgnum).clientreqid)
      (sent : (d.request sessnum msgnum).clientreqid ≤
        (s.clients (d.request sessnum msgnum).clientid).lastReqID)
      (logged : (d.request sessnum msgnum).clientreqid ∉
        (s.clients (d.request sessnum msgnum).clientid).unlogged) :
      Moves s (.multicast sessnum msgnum idx)
        { s with
          network := s.network ++
            [{ src := .client (d.request sessnum msgnum).clientid, dst := .replica idx,
               msg := .request { sessnum := sessnum, msgnum := msgnum,
                                 req := d.request sessnum msgnum } }] }
  | receive {position app src idx msg}
      (found : s.network[position]? = some ⟨src, .replica idx, msg⟩)
      (inGroup : idx < d.configuration.n) (running : s.stopped idx = false) :
      Moves s (.deliver position app)
        (s.absorb d idx (receiveMessage (d.setup idx) app src msg (s.replicas idx)))
  | reply {position app src clientid msg}
      (found : s.network[position]? = some ⟨src, .client clientid, .reply msg⟩)
      (running : (s.clients clientid).stopped = false) :
      Moves s (.deliver position app) (s.replied d clientid msg)
  | unloggedReply {position app src clientid msg}
      (found : s.network[position]? = some ⟨src, .client clientid, .unloggedReply msg⟩)
      (running : (s.clients clientid).stopped = false) :
      Moves s (.deliver position app) (s.endedUnlogged clientid)
  | fire {idx timer app} (active : (s.replicas idx).active timer)
      (inGroup : idx < d.configuration.n) (running : s.stopped idx = false) :
      Moves s (.timer idx timer app)
        (s.absorb d idx (fireTimer (d.setup idx) app timer (s.replicas idx)))

variable {d} {s next : System}

/-- A handler runs at a replica that is there and has not stopped. -/
theorem of_runAt {idx : Nat} {handler : Run Unit} (ran : s.runAt d idx handler = some next) :
    idx < d.configuration.n ∧ s.stopped idx = false ∧
      next = s.absorb d idx (handler (s.replicas idx)) := by
  unfold runAt at ran
  split at ran
  next enabled => exact ⟨enabled.1, enabled.2, (Option.some.inj ran).symm⟩
  next => simp at ran

/-- Every step is one of these moves. -/
theorem moves_of_step {action : Action} (stepped : s.step d action = some next) :
    s.Moves d action next := by
  cases action with
  | invoke clientid =>
      simp only [step] at stepped
      split at stepped
      next => simp at stepped
      next running =>
          obtain rfl := Option.some.inj stepped
          exact .invoke (by simpa using running)
  | invokeUnlogged clientid idx op =>
      simp only [step] at stepped
      split at stepped
      next => simp at stepped
      next running =>
          obtain rfl := Option.some.inj stepped
          exact .invokeUnlogged (by simpa using running)
  | unloggedTimeout clientid =>
      simp only [step] at stepped
      split at stepped
      next => simp at stepped
      next enabled =>
          obtain rfl := Option.some.inj stepped
          exact .unloggedTimeout (by simpa using (not_or.mp enabled).1)
  | multicast sessnum msgnum idx =>
      simp only [step] at stepped
      split at stepped
      next sent =>
          obtain rfl := Option.some.inj stepped
          exact .multicast sent.1 sent.2.1 sent.2.2
      next => simp at stepped
  | deliver position app =>
      simp only [step] at stepped
      split at stepped
      next src idx msg found =>
          obtain ⟨inGroup, running, rfl⟩ := of_runAt stepped
          exact .receive found inGroup running
      next src clientid msg found =>
          split at stepped
          next => simp at stepped
          next running =>
              obtain rfl := Option.some.inj stepped
              exact .reply found (by simpa using running)
      next src clientid msg found =>
          split at stepped
          next => simp at stepped
          next running =>
              obtain rfl := Option.some.inj stepped
              exact .unloggedReply found (by simpa using running)
      next => simp at stepped
  | timer idx timer app =>
      simp only [step] at stepped
      split at stepped
      next active =>
          obtain ⟨inGroup, running, rfl⟩ := of_runAt stepped
          exact .fire active inGroup running
      next => simp at stepped

end System

/-- The group of replicas and its clients as a transition system. -/
def system (d : Deployment) : TransitionSystem System Action where
  Initial s := s = System.initial d
  step := System.step d

end PaxosBus.NoPaxos

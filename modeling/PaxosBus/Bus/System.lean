import PaxosBus.Bus.Replica
import PaxosBus.Bus.Client
import PaxosBus.Library.Transition

/-!
# Clients, replicas and the network between them

One client process for every client id, `n` replicas, and every packet ever
handed to the transport. Delivering a packet does not remove it: a packet that
is never chosen is lost, one chosen twice is duplicated, and the order of
delivery is free. Any pending timer may fire at any moment.
-/

set_option autoImplicit false

namespace PaxosBus.Bus

open PaxosBus.Common PaxosBus.Library

/-- The fixed parameters of a run: the replicas' configuration and options, the interval and
resend period of each client, and what an undefined shift yields in the client program. -/
structure Deployment where
  config : Configuration
  options : Options
  intervalMs : Nat → Nat
  resendMs : Nat → Nat
  overshift : Nat → BitVec 32

/-- The global state. `committed` lists the `(client id, slot)` pairs that a client has
counted as committed so far. -/
structure System where
  replicas : Nat → Replica
  clients : Nat → Client
  network : List Packet := []
  committed : List (Nat × Nat) := []

/-- What the environment can choose next: the first and only `Start` of a client, a client's
or a replica's timer, or the delivery of the packet at a position of `network`. -/
inductive Action where
  | start (clientId : Nat) (now : Nat)
  | clientTimer (clientId id : Nat) (readings : List Nat)
  | replicaTimer (replicaIdx id : Nat) (clock : Nat → Nat)
  | deliver (position : Nat) (clock : Nat → Nat)

/-- Address what a process sends. -/
def post (src : Address) (sends : List Send) : List Packet :=
  sends.map fun send => { src, dst := send.dst, msg := send.msg }

namespace System

/-- The state before anything has happened. -/
def initial (d : Deployment) : System where
  replicas idx := { config := d.config, replicaIdx := idx, options := d.options }
  clients id :=
    { config := d.config, clientId := id, intervalMs := d.intervalMs id,
      resendMs := d.resendMs id }

/-- Store a client's new state and post what it sent. -/
def updateClient (s : System) (clientId : Nat) (c : Client) (sends : List Send) : System :=
  { s with
    clients := Function.update s.clients clientId c
    network := s.network ++ post (.client clientId) sends }

/-- Store a replica's new state and post what it sent. -/
def updateReplica (s : System) (idx : Nat) (r : Replica) (sends : List Send) : System :=
  { s with
    replicas := Function.update s.replicas idx r
    network := s.network ++ post (.replica idx) sends }

/-- A replica's pending timer fires: the transport forgets it and runs `OnGapTimeout`. -/
def fireReplicaTimer (s : System) (idx id : Nat) (clock : Nat → Nat) : Option System :=
  let r := s.replicas idx
  match r.timers.pending[id]? with
  | none => none
  | some timer =>
    let (r, sends) := { r with timers := r.timers.cancelTimer id }.onGapTimeout
      timer.callback clock
    some (s.updateReplica idx r sends)

/-- Hand a packet to the process it is addressed to. -/
def receive (d : Deployment) (s : System) (packet : Packet) (clock : Nat → Nat) : System :=
  match packet.dst with
  | .replica idx =>
    let (r, sends) := (s.replicas idx).receiveMessage packet.src packet.msg clock
    s.updateReplica idx r sends
  | .client id =>
    let (c, done) := (s.clients id).receiveMessage d.overshift packet.msg
    { s with
      clients := Function.update s.clients id c
      committed := s.committed ++ done.toList.map fun seq => (id, seq) }

/-- One step of the system; an action that is not enabled is refused. -/
def step (d : Deployment) (s : System) : Action → Option System
  | .start clientId now =>
    if (s.clients clientId).started then none
    else
      let (c, sends) := (s.clients clientId).start now
      some (s.updateClient clientId c sends)
  | .clientTimer clientId id readings =>
    match (s.clients clientId).fireTimer id readings with
    | none => none
    | some (c, sends) => some (s.updateClient clientId c sends)
  | .replicaTimer idx id clock => s.fireReplicaTimer idx id clock
  | .deliver position clock =>
    match s.network[position]? with
    | none => none
    | some packet => some (s.receive d packet clock)

/-- The leader's log entry for a slot. The view never changes, so the leader is that of view 0. -/
def leaderEntry (d : Deployment) (s : System) (clientId seq : Nat) : LogEntry :=
  (s.replicas (d.config.getLeaderIndex 0)).entry clientId seq

end System

/-- The PaxosBus deployment as a transition system. -/
def system (d : Deployment) : TransitionSystem System Action where
  Initial s := s = System.initial d
  step := System.step d

end PaxosBus.Bus

import PaxosBus.FastPaxos.Replica
import PaxosBus.Library.Transition

/-!
# Replicas and the network

The group of replicas and every packet ever handed to the transport. Delivering
a packet does not remove it: a packet that is never chosen is lost, one chosen
twice is duplicated, and the order of delivery is free. Any running timeout may
fire at any moment. Clients send any of their requests to any replica at any
time; a client numbers its requests, so that one number always stands for the
same operation.
-/

set_option autoImplicit false

namespace PaxosBus.FastPaxos

open PaxosBus.Common PaxosBus.Library

/-- A message in transit. -/
structure Packet where
  src : Address
  dst : Address
  msg : Message
deriving DecidableEq, Repr

/-- The fixed parameters of a run: the group, and what each numbered request of each client asks
for. -/
structure Deployment where
  configuration : Configuration
  operation : Nat → Nat → String

namespace Deployment

variable (d : Deployment)

/-- What a replica of the group is constructed with. -/
def setup (idx : Nat) : Setup where
  configuration := d.configuration
  replicaIdx := idx

/-- The request that a client has given a number. -/
def request (clientid clientreqid : Nat) : Request where
  op := d.operation clientid clientreqid
  clientid := clientid
  clientreqid := clientreqid

/-- The leader of the only view. -/
def leader : Nat := d.configuration.getLeaderIndex 0

end Deployment

/-- The global state. -/
structure System where
  replicas : Nat → Replica
  stopped : Nat → Bool := fun _ => false
  network : List Packet := []

/-- What the environment can choose next. A step that runs a handler comes with the
application's answers. -/
inductive Action where
  | request (client idx clientid clientreqid : Nat)
  | unloggedRequest (client idx : Nat) (msg : UnloggedRequestMessage)
  | deliver (position : Nat) (app : App)
  | timer (idx : Nat) (timer : Timer)

/-- The packets of one output of a replica. -/
def post (configuration : Configuration) (src : Nat) (send : Send) : List Packet :=
  match send.dst with
  | .one addr => [{ src := .replica src, dst := addr, msg := send.msg }]
  | .others =>
    ((List.range configuration.n).filter (· ≠ src)).map fun idx =>
      { src := .replica src, dst := .replica idx, msg := send.msg }

namespace System

variable (d : Deployment)

/-- The state before anything has happened. -/
def initial : System where
  replicas _ := Replica.constructed d.configuration

/-- Store what a handler of a replica has done. -/
def absorb (s : System) (idx : Nat) (outcome : Outcome Replica Send Unit) : System where
  replicas := Function.update s.replicas idx outcome.state
  stopped := Function.update s.stopped idx outcome.value.isNone
  network := s.network ++ outcome.outputs.flatMap (post d.configuration idx)

/-- Run a handler at a replica that is there and has not stopped. -/
def runAt (s : System) (idx : Nat) (handler : Run Unit) : Option System :=
  if idx < d.configuration.n ∧ s.stopped idx = false then
    some (s.absorb d idx (handler (s.replicas idx)))
  else
    none

/-- One step of the system; an action that is not enabled is refused. -/
def step (s : System) : Action → Option System
  | .request client idx clientid clientreqid =>
    some { s with
      network := s.network ++
        [{ src := .client client, dst := .replica idx,
           msg := .request { req := d.request clientid clientreqid } }] }
  | .unloggedRequest client idx msg =>
    some { s with
      network := s.network ++
        [{ src := .client client, dst := .replica idx, msg := .unloggedRequest msg }] }
  | .deliver position app =>
    match s.network[position]? with
    | some ⟨src, .replica idx, msg⟩ =>
      s.runAt d idx (receiveMessage (d.setup idx) app src msg)
    | _ => none
  | .timer idx timer =>
    if (s.replicas idx).active timer then s.runAt d idx (fireTimer (d.setup idx) timer) else none

end System

/-- The group of replicas as a transition system. -/
def system (d : Deployment) : TransitionSystem System Action where
  Initial s := s = System.initial d
  step := System.step d

end PaxosBus.FastPaxos

import PaxosBus.Library.Transition
import PaxosBus.Vr.Replica

/-!
# Replicas, the network, and the schedules that go wrong

The group of replicas and every packet ever handed to the transport. Delivering
a packet does not remove it: a packet that is never chosen is lost, one chosen
twice is duplicated, and the order of delivery is free. Any running timeout may
fire at any moment, clients may send anything, and a replica may crash and come
back with nothing but the order to recover, while fewer than `f` others are
recovering.

The second half names the branches of the handlers on which the behaviour of the
source is undefined, and those on which agreement is lost.
-/

set_option autoImplicit false

namespace PaxosBus.Vr

open PaxosBus.Common PaxosBus.Library

/-- A message in transit. -/
structure Packet where
  src : Address
  dst : Address
  msg : Message
deriving DecidableEq, Repr

/-- The fixed parameters of a run. -/
structure Deployment where
  configuration : Configuration
  batchSize : Nat

/-- What a replica of the group is constructed with. -/
def Deployment.setup (d : Deployment) (idx : Nat) : Setup where
  configuration := d.configuration
  replicaIdx := idx
  batchSize := d.batchSize

/-- The global state. The last three fields are the run's history: which replica executed which
request at which operation number, which leader had `PrepareOK`s from `f` other replicas for
which operation and with which log, and which log each view started with. -/
structure System where
  replicas : Nat → Replica
  stopped : Nat → Bool := fun _ => false
  network : List Packet := []
  executed : List (Nat × Nat × Request) := []
  prepared : List (Nat × Nat × List Entry) := []
  started : List (Nat × List Entry) := []

/-- What the environment can choose next. A step that runs a handler comes with the
application's answers and what happens where that is undefined. -/
inductive Action where
  | request (client idx : Nat) (msg : RequestMessage)
  | unloggedRequest (client idx : Nat) (msg : UnloggedRequestMessage)
  | deliver (position : Nat) (app : App) (undefined : Undefined)
  | timer (idx : Nat) (timer : Timer)
  | crash (idx nonce : Nat)

/-- The other replicas of the group. -/
def others (configuration : Configuration) (src : Nat) : List Nat :=
  (List.range configuration.n).filter (· ≠ src)

/-- The packets of one output of a replica. -/
def post (configuration : Configuration) (src : Nat) : Output → List Packet
  | .send (.one addr) msg => [{ src := .replica src, dst := addr, msg := msg }]
  | .send .others msg =>
    ((List.range configuration.n).filter (· ≠ src)).map fun idx =>
      { src := .replica src, dst := .replica idx, msg := msg }
  | .execute .. => []
  | .prepared .. => []
  | .started .. => []

/-- The execution of a request that an output is. -/
def Output.execution : Output → Option (Nat × Request)
  | .execute opnum request => some (opnum, request)
  | _ => none

/-- The mark of a prepared operation that an output is. -/
def Output.preparation : Output → Option (Nat × Nat × List Entry)
  | .prepared view opnum entries => some (view, opnum, entries)
  | _ => none

/-- The mark of a started view that an output is. -/
def Output.start : Output → Option (Nat × List Entry)
  | .started view entries => some (view, entries)
  | _ => none

/-- Whether a packet carries a nonce. -/
def Message.Carries (nonce : Nat) : Message → Prop
  | .recovery msg => msg.nonce = nonce
  | .recoveryResponse msg => msg.nonce = nonce
  | _ => False

instance (nonce : Nat) (msg : Message) : Decidable (msg.Carries nonce) := by
  cases msg <;> unfold Message.Carries <;> infer_instance

namespace System

variable (d : Deployment)

/-- The state before anything has happened. -/
def initial : System where
  replicas idx := Replica.initialized (d.setup idx)

/-- Store what a handler of a replica has done. -/
def absorb (s : System) (idx : Nat) (outcome : Outcome Replica Output Unit) : System where
  replicas := Function.update s.replicas idx outcome.state
  stopped := Function.update s.stopped idx outcome.value.isNone
  network := s.network ++ outcome.outputs.flatMap (post d.configuration idx)
  executed := s.executed ++ (outcome.outputs.filterMap Output.execution).map fun done => (idx, done)
  prepared := s.prepared ++ outcome.outputs.filterMap Output.preparation
  started := s.started ++ outcome.outputs.filterMap Output.start

/-- Run a handler at a replica that is there and has not stopped. -/
def runAt (s : System) (idx : Nat) (handler : Run Unit) : Option System :=
  if idx < d.configuration.n ∧ s.stopped idx = false then
    some (s.absorb d idx (handler (s.replicas idx)))
  else
    none

/-- The other replicas that are recovering. -/
def recoveringOthers (s : System) (idx : Nat) : List Nat :=
  (List.range d.configuration.n).filter fun other =>
    other ≠ idx ∧ (s.replicas other).status = .recovering

/-- A replica crashes and starts again without its state, with a nonce it has not used. -/
def crash (s : System) (idx nonce : Nat) : Option System :=
  if idx < d.configuration.n ∧ (s.recoveringOthers d idx).length < d.configuration.f ∧
      ∀ packet ∈ s.network, ¬ packet.msg.Carries nonce then
    let restarted := (s.replicas idx).restarted (d.setup idx) nonce
    some (s.absorb d idx (sendRecoveryMessages (d.setup idx) restarted))
  else
    none

/-- One step of the system; an action that is not enabled is refused. -/
def step (s : System) : Action → Option System
  | .request client idx msg =>
    some { s with
      network := s.network ++
        [{ src := .client client, dst := .replica idx, msg := .request msg }] }
  | .unloggedRequest client idx msg =>
    some { s with
      network := s.network ++
        [{ src := .client client, dst := .replica idx, msg := .unloggedRequest msg }] }
  | .deliver position app undefined =>
    match s.network[position]? with
    | some ⟨src, .replica idx, msg⟩ =>
      s.runAt d idx (receiveMessage (d.setup idx) app undefined src msg)
    | _ => none
  | .timer idx timer =>
    if (s.replicas idx).active timer then s.runAt d idx (fireTimer (d.setup idx) timer) else none
  | .crash idx nonce => s.crash d idx nonce

end System

/-- The group of replicas as a transition system. -/
def system (d : Deployment) : TransitionSystem System Action where
  Initial s := s = System.initial d
  step := System.step d

/-! ## Steps that are not defined -/

namespace Replica

variable (setup : Setup) (r : Replica)

/-- A message of the view change to a view is not ignored. -/
def Attends (view : Nat) : Prop := r.view < view ∨ view = r.view ∧ r.status = .viewChange

instance (view : Nat) : Decidable (r.Attends view) := inferInstanceAs (Decidable (_ ∨ _))

/-- The leader of a new view selects the log of a vote over its own, and reads it from a copy of
the vote that is gone. -/
def SelectsVote (msg : DoViewChangeMessage) : Prop :=
  let votes := (r.doViewChangeQuorum.add msg.view msg.replicaidx msg).messages msg.view
  r.Attends msg.view ∧ setup.AmLeader msg.view ∧ r.doViewChangeQuorum.numRequired ≤ votes.size ∧
    ∃ vote ∈ votes.values, Outranks vote r.log.lastViewstamp.view r.log.lastViewstamp.opnum

instance (msg : DoViewChangeMessage) : Decidable (r.SelectsVote setup msg) :=
  inferInstanceAs (Decidable (_ ∧ _))

/-- The message is the answer with which the quorum branch of `HandleRecoveryResponse` installs a
leader's log. -/
def Recovers : Message → Prop
  | .recoveryResponse msg =>
    let responses :=
      (r.recoveryResponseQuorum.add msg.nonce msg.replicaidx msg).messages msg.nonce
    let leader := setup.configuration.getLeaderIndex (highestView responses)
    msg.nonce = r.recoveryNonce ∧ r.recoveryResponseQuorum.numRequired ≤ responses.size ∧
      leader ≠ setup.replicaIdx ∧
      ∃ leaderResponse ∈ responses[leader]?, leaderResponse.view = highestView responses
  | _ => False

instance (msg : Message) : Decidable (r.Recovers setup msg) :=
  match msg with
  | .recoveryResponse msg => inferInstanceAs (Decidable (
      let responses :=
        (r.recoveryResponseQuorum.add msg.nonce msg.replicaidx msg).messages msg.nonce
      let leader := setup.configuration.getLeaderIndex (highestView responses)
      msg.nonce = r.recoveryNonce ∧ r.recoveryResponseQuorum.numRequired ≤ responses.size ∧
        leader ≠ setup.replicaIdx ∧
        ∃ leaderResponse ∈ responses[leader]?, leaderResponse.view = highestView responses))
  | .request _ | .reply _ | .unloggedRequest _ | .unloggedReply _ | .prepare _ | .prepareOK _ |
      .commit _ | .requestStateTransfer _ | .stateTransfer _ | .startViewChange _ |
      .doViewChange _ | .startView _ | .recovery _ => .isFalse id

/-- The handling of a message goes through a pointer to what is gone: to the selected vote, or to
the answer of the leader after `EnterView` has cleared the answers. -/
def Dangles : Message → Prop
  | .doViewChange msg => r.SelectsVote setup msg
  | .recoveryResponse msg => r.status = .recovering ∧ r.Recovers setup (.recoveryResponse msg)
  | _ => False

instance (msg : Message) : Decidable (r.Dangles setup msg) := by
  cases msg <;> unfold Dangles <;> infer_instance

end Replica

namespace System

/-- The delivery of a packet makes its replica go through a pointer to what is gone. -/
def Dangles (d : Deployment) (s : System) (packet : Packet) : Prop :=
  match packet with
  | ⟨_, .replica idx, msg⟩ => (s.replicas idx).Dangles (d.setup idx) msg
  | ⟨_, .client _, _⟩ => False

instance (d : Deployment) (s : System) : ∀ packet, Decidable (s.Dangles d packet)
  | ⟨_, .replica idx, msg⟩ =>
    inferInstanceAs (Decidable ((s.replicas idx).Dangles (d.setup idx) msg))
  | ⟨_, .client _, _⟩ => inferInstanceAs (Decidable False)

/-- What the step does is defined. -/
def Defined (d : Deployment) (s : System) : Action → Prop
  | .deliver position _ _ => ∀ packet ∈ s.network[position]?.toList, ¬ s.Dangles d packet
  | _ => True

instance (d : Deployment) (s : System) (action : Action) : Decidable (s.Defined d action) := by
  cases action <;> unfold Defined <;> infer_instance

end System

/-! ## Branches on which agreement is lost -/

/-- A vote for a view: the last log entry as the code ranks it, and the view the voter was last
active in. -/
structure Standing where
  lastnormalview : Nat
  lastop : Nat
  normalView : Nat
deriving DecidableEq, Repr

/-- The standing of a `DoViewChange` message. -/
def DoViewChangeMessage.standing (msg : DoViewChangeMessage) : Standing where
  lastnormalview := msg.lastnormalview
  lastop := msg.lastop
  normalView := msg.normalView

/-- The standing of the leader itself. -/
def Replica.standing (r : Replica) : Standing where
  lastnormalview := r.log.lastViewstamp.view
  lastop := r.log.lastViewstamp.opnum
  normalView := r.normalView

namespace Standing

/-- No later a log in the ranking of the code: by the view of the last entry. -/
def RankedBehind (a b : Standing) : Prop :=
  a.lastnormalview < b.lastnormalview ∨ a.lastnormalview = b.lastnormalview ∧ a.lastop ≤ b.lastop

/-- No more advanced a log: by the view the voter was last active in. -/
def AdvancedBehind (a b : Standing) : Prop :=
  a.normalView < b.normalView ∨ a.normalView = b.normalView ∧ a.lastop ≤ b.lastop

instance (a b : Standing) : Decidable (a.RankedBehind b) := inferInstanceAs (Decidable (_ ∨ _))

instance (a b : Standing) : Decidable (a.AdvancedBehind b) := inferInstanceAs (Decidable (_ ∨ _))

/-- Some vote comes first in both rankings. -/
def Agree (standings : List Standing) : Prop :=
  ∃ best ∈ standings, ∀ other ∈ standings, other.RankedBehind best ∧ other.AdvancedBehind best

instance (standings : List Standing) : Decidable (Agree standings) :=
  inferInstanceAs (Decidable (∃ best ∈ standings, _))

end Standing

namespace Replica

variable (setup : Setup) (r : Replica)

/-- The replica leads its view, and its client table does not know the request. -/
def Accepts (msg : RequestMessage) : Prop :=
  r.status = .normal ∧ setup.AmLeader r.view ∧
    ∀ entry ∈ r.clientTable msg.req.clientid, entry.lastReqId < msg.req.clientreqid

instance (msg : RequestMessage) : Decidable (r.Accepts setup msg) :=
  inferInstanceAs (Decidable (_ ∧ _))

/-- The leader of a new view selects a log by the view of its last entry, and none of the logs
that are first in that ranking was brought by a voter that is first by its last active view. -/
def Misranks (msg : DoViewChangeMessage) : Prop :=
  let votes := (r.doViewChangeQuorum.add msg.view msg.replicaidx msg).messages msg.view
  r.Attends msg.view ∧ r.doViewChangeQuorum.numRequired ≤ votes.size ∧
    ¬ Standing.Agree (r.standing :: votes.values.map DoViewChangeMessage.standing)

instance (msg : DoViewChangeMessage) : Decidable (r.Misranks msg) :=
  inferInstanceAs (Decidable (_ ∧ _))

/-- A state transfer brings the replica into a later view, and the uncommitted end of its log
stays: nothing that is transferred replaces a part of it, or reaches its end. -/
def KeepsSuffix (msg : StateTransferMessage) : Prop :=
  r.view < msg.view ∧ r.lastCommitted < r.lastOp ∧
    ∀ entry ∈ msg.entries, r.lastCommitted < entry.viewstamp.opnum →
      entry.viewstamp.opnum < r.lastOp ∧
        (r.log.find entry.viewstamp.opnum).map (·.viewstamp.view) = some entry.viewstamp.view

instance (msg : StateTransferMessage) : Decidable (r.KeepsSuffix msg) :=
  inferInstanceAs (Decidable (_ ∧ _))

/-- A state transfer for the view that the replica is still changing to. -/
def TransfersEarly (msg : StateTransferMessage) : Prop :=
  msg.view = r.view ∧ r.status = .viewChange

instance (msg : StateTransferMessage) : Decidable (r.TransfersEarly msg) :=
  inferInstanceAs (Decidable (_ ∧ _))

/-- A view starts with an empty log, and the replica enters it with the log it has. -/
def KeepsLog (msg : StartViewMessage) : Prop :=
  r.Attends msg.view ∧ msg.entries = [] ∧ r.log.entries ≠ []

instance (msg : StartViewMessage) : Decidable (r.KeepsLog msg) :=
  inferInstanceAs (Decidable (_ ∧ _))

/-- The leader counts an acknowledgement of its own. -/
def AcksItself (msg : PrepareOKMessage) : Prop :=
  r.status = .normal ∧ msg.view = r.view ∧ setup.AmLeader r.view ∧
    msg.replicaidx = setup.replicaIdx

instance (msg : PrepareOKMessage) : Decidable (r.AcksItself setup msg) :=
  inferInstanceAs (Decidable (_ ∧ _))

/-- A recovering replica takes part in a view change or a state transfer. -/
def Meddles : Message → Prop
  | .startViewChange msg => r.status = .recovering ∧ r.view < msg.view
  | .doViewChange msg => r.status = .recovering ∧ r.view < msg.view
  | .startView msg => r.status = .recovering ∧ r.view < msg.view
  | .stateTransfer msg => r.status = .recovering ∧ r.view ≤ msg.view
  | _ => False

/-- The handling of a message takes one of the branches on which agreement is lost. -/
def Errs : Message → Prop
  | .prepareOK msg => r.AcksItself setup msg
  | .stateTransfer msg =>
    r.Meddles (.stateTransfer msg) ∨ r.KeepsSuffix msg ∨ r.TransfersEarly msg
  | .startViewChange msg => r.Meddles (.startViewChange msg)
  | .doViewChange msg => r.Meddles (.doViewChange msg) ∨ r.Misranks msg
  | .startView msg => r.Meddles (.startView msg) ∨ r.KeepsLog msg
  | _ => False

instance (msg : Message) : Decidable (r.Meddles msg) := by
  cases msg <;> unfold Meddles <;> infer_instance

instance (msg : Message) : Decidable (r.Errs setup msg) := by
  cases msg <;> unfold Errs <;> infer_instance

end Replica

namespace System

/-- The delivery of a packet takes one of the branches on which agreement is lost. -/
def Errs (d : Deployment) (s : System) (packet : Packet) : Prop :=
  match packet with
  | ⟨_, .replica idx, msg⟩ => (s.replicas idx).Errs (d.setup idx) msg
  | ⟨_, .client _, _⟩ => False

instance (d : Deployment) (s : System) : ∀ packet, Decidable (s.Errs d packet)
  | ⟨_, .replica idx, msg⟩ => inferInstanceAs (Decidable ((s.replicas idx).Errs (d.setup idx) msg))
  | ⟨_, .client _, _⟩ => inferInstanceAs (Decidable False)

/-- The step is defined, and takes none of the branches on which agreement is lost. -/
def Clear (d : Deployment) (s : System) : Action → Prop
  | .deliver position _ _ =>
    ∀ packet ∈ s.network[position]?.toList, ¬ s.Dangles d packet ∧ ¬ s.Errs d packet
  | _ => True

/-- The step takes nobody's state away. -/
def Crashless : Action → Prop
  | .crash .. => False
  | _ => True

instance (d : Deployment) (s : System) (action : Action) : Decidable (s.Clear d action) := by
  cases action <;> unfold Clear <;> infer_instance

instance (action : Action) : Decidable (Crashless action) := by
  cases action <;> unfold Crashless <;> infer_instance

end System

end PaxosBus.Vr

import PaxosBus.Common.QuorumSet
import PaxosBus.Spec.Message

/-!
# The client of Speculative Paxos

How `SpecClient` numbers its requests, and when it takes one for done: when a
reply says that it is committed, or when enough replies have the same log hash.
-/

set_option autoImplicit false

namespace PaxosBus.Spec

open PaxosBus.Common

variable {Hash : Type}

/-- The state of a `SpecClient`. A failed `ASSERT` or a `Panic` stops the client. -/
structure Client (Hash : Type) where
  lastReqId : Nat := 0
  view : Nat := 0
  pendingRequest : Option Nat := none
  pendingUnloggedRequest : Option Nat := none
  speculativeReplyQuorum : QuorumSet Nat (SpeculativeReplyMessage Hash)
  stopped : Bool := false

/-- What a client does about a reply besides changing its state. -/
inductive Reaction (Hash : Type) where
  | completed (reply : SpeculativeReplyMessage Hash)
  | requested (msg : RequestViewChangeMessage)
deriving DecidableEq, Repr

/-- What `HandleReply` asserts of a stored reply with the hash of the reply that has come. -/
def SpeculativeReplyMessage.Agrees (msg other : SpeculativeReplyMessage Hash) : Prop :=
  other.clientreqid = msg.clientreqid ∧ other.view = msg.view ∧ other.opnum = msg.opnum ∧
    other.reply = msg.reply

instance (msg other : SpeculativeReplyMessage Hash) : Decidable (msg.Agrees other) :=
  inferInstanceAs (Decidable (other.clientreqid = msg.clientreqid ∧ other.view = msg.view ∧
    other.opnum = msg.opnum ∧ other.reply = msg.reply))

namespace Client

/-- A client as `SpecClient` constructs it. -/
def constructed (configuration : Configuration) : Client Hash where
  speculativeReplyQuorum := { numRequired := configuration.fastQuorumSize }

/-- `SpecClient::Invoke`, which panics if a request is pending. -/
def invoke (c : Client Hash) : Client Hash :=
  if c.pendingRequest.isSome then
    { c with stopped := true }
  else
    { c with lastReqId := c.lastReqId + 1, pendingRequest := some (c.lastReqId + 1) }

/-- `SpecClient::InvokeUnlogged`, which panics if an unlogged request is pending. -/
def invokeUnlogged (c : Client Hash) : Client Hash :=
  if c.pendingUnloggedRequest.isSome then
    { c with stopped := true }
  else
    { c with lastReqId := c.lastReqId + 1, pendingUnloggedRequest := some (c.lastReqId + 1) }

/-- `SpecClient::HandleUnloggedReply`, and what `UnloggedRequestTimeoutCallback` does. -/
def endUnlogged (c : Client Hash) : Client Hash := { c with pendingUnloggedRequest := none }

/-- `SpecClient::CompleteOperation`. -/
def completeOperation (c : Client Hash) (msg : SpeculativeReplyMessage Hash) :
    Client Hash × Option (Reaction Hash) :=
  ({ c with
     pendingRequest := none
     speculativeReplyQuorum := c.speculativeReplyQuorum.clear }, some (.completed msg))

/-- The part of `HandleReply` that sees a higher view. -/
def seeView (c : Client Hash) (view : Nat) : Client Hash :=
  if c.view < view then
    { c with speculativeReplyQuorum := c.speculativeReplyQuorum.clear, view := view }
  else
    c

/-- The part of `HandleReply` that stores a speculative reply. -/
def collect [DecidableEq Hash] (configuration : Configuration) (c : Client Hash)
    (msg : SpeculativeReplyMessage Hash) : Client Hash × Option (Reaction Hash) :=
  let added :=
    c.speculativeReplyQuorum.addAndCheckForQuorum msg.clientreqid msg.replicaidx msg
  let collected := { c with speculativeReplyQuorum := added.1 }
  match added.2 with
  | none => (collected, none)
  | some msgs =>
    let matching := msgs.values.filter (·.loghash = msg.loghash)
    if ∀ other ∈ matching, msg.Agrees other then
      if configuration.fastQuorumSize ≤ matching.length then
        collected.completeOperation msg
      else
        (collected, some (.requested { view := msg.view }))
    else
      ({ collected with stopped := true }, none)

/-- `SpecClient::HandleReply`. -/
def handleReply [DecidableEq Hash] (configuration : Configuration) (c : Client Hash)
    (msg : SpeculativeReplyMessage Hash) : Client Hash × Option (Reaction Hash) :=
  if c.pendingRequest = some msg.clientreqid then
    if msg.committed then
      (c.seeView msg.view).completeOperation msg
    else
      (c.seeView msg.view).collect configuration msg
  else
    (c, none)

end Client

end PaxosBus.Spec

import PaxosBus.Common.Configuration
import PaxosBus.Common.QuorumSet
import PaxosBus.NoPaxos.Message

/-!
# The client of NOPaxos

How `NOPaxosClient` numbers its requests, and when it takes one for done: when
the reply of the leader of the latest view is among enough replies for the same
operation number of the same session and view.
-/

set_option autoImplicit false

namespace PaxosBus.NoPaxos

open PaxosBus.Common
open Std (TreeMap)

/-- The state of a `NOPaxosClient`, and the numbers that its unlogged requests have had so far. A
failed `ASSERT` or a `Panic` stops the client. -/
structure Client where
  lastReqID : Nat := 0
  pendingRequest : Option Nat := none
  pendingUnloggedRequest : Option Nat := none
  unlogged : List Nat := []
  replyQuorum : QuorumSet Nat ReplyMessage
  stopped : Bool := false

namespace Client

/-- A client as `NOPaxosClient` constructs it. -/
def constructed (configuration : Configuration) : Client where
  replyQuorum := { numRequired := configuration.quorumSize }

/-- `NOPaxosClient::Invoke`, which panics if a request is pending. -/
def invoke (c : Client) : Client :=
  if c.pendingRequest.isSome then
    { c with stopped := true }
  else
    { c with lastReqID := c.lastReqID + 1, pendingRequest := some (c.lastReqID + 1) }

/-- `NOPaxosClient::InvokeUnlogged`, which panics if an unlogged request is pending. -/
def invokeUnlogged (c : Client) : Client :=
  if c.pendingUnloggedRequest.isSome then
    { c with stopped := true }
  else
    { c with
      lastReqID := c.lastReqID + 1
      pendingUnloggedRequest := some (c.lastReqID + 1)
      unlogged := c.unlogged ++ [c.lastReqID + 1] }

/-- `NOPaxosClient::HandleUnloggedReply`, and what `UnloggedRequestTimeoutCallback` does. -/
def endUnlogged (c : Client) : Client := { c with pendingUnloggedRequest := none }

/-- What the client has found after some of the replies: the latest session and view, and the
reply of the leader of the view. -/
structure Found where
  latestView : Nat := 0
  latestSessnum : Nat := 0
  leader : Option ReplyMessage := none

/-- One round of the first loop of `HandleReply`. -/
def Found.consider (configuration : Configuration) (found : Found) (replicaIdx : Nat)
    (reply : ReplyMessage) : Found :=
  let latestView := max found.latestView reply.view
  let latestSessnum := max found.latestSessnum reply.sessnum
  let leader := if found.latestView < reply.view then none else found.leader
  { latestView := latestView
    latestSessnum := latestSessnum
    leader :=
      if configuration.getLeaderIndex reply.view = replicaIdx ∧ reply.view = latestView ∧
          reply.sessnum = latestSessnum then
        some reply
      else
        leader }

/-- The first loop of `HandleReply`. -/
def find (configuration : Configuration) (msgs : TreeMap Nat ReplyMessage) : Found :=
  msgs.toList.foldl (fun found entry => found.consider configuration entry.1 entry.2) {}

/-- The replies that the second loop of `HandleReply` counts. -/
def matching (leaderMessage : ReplyMessage) (msgs : TreeMap Nat ReplyMessage) :
    List (Nat × ReplyMessage) :=
  msgs.toList.filter fun entry =>
    entry.2.view = leaderMessage.view ∧ entry.2.sessnum = leaderMessage.sessnum ∧
      entry.2.opnum = leaderMessage.opnum

/-- The reply with which `HandleReply` completes the operation, if enough have come. -/
def completes (configuration : Configuration) (msgs : TreeMap Nat ReplyMessage) :
    Option ReplyMessage :=
  (find configuration msgs).leader.filter fun leaderMessage =>
    configuration.quorumSize ≤ (matching leaderMessage msgs).length

/-- `NOPaxosClient::CompleteOperation`. -/
def completeOperation (c : Client) (leaderMessage : ReplyMessage) : Client × Option ReplyMessage :=
  if leaderMessage.reply.isSome then
    ({ c with pendingRequest := none, replyQuorum := c.replyQuorum.clear }, some leaderMessage)
  else
    ({ c with stopped := true }, none)

/-- `NOPaxosClient::HandleReply`, and the leader's reply if it completes the operation. -/
def handleReply (configuration : Configuration) (c : Client) (msg : ReplyMessage) :
    Client × Option ReplyMessage :=
  if c.pendingRequest = some msg.clientreqid then
    let (quorum, found) :=
      c.replyQuorum.addAndCheckForQuorum msg.clientreqid msg.replicaIdx msg
    let collected := { c with replyQuorum := quorum }
    match found.bind (completes configuration) with
    | some leaderMessage => collected.completeOperation leaderMessage
    | none => (collected, none)
  else
    (c, none)

end Client

end PaxosBus.NoPaxos

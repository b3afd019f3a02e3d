import PaxosBus.Bus.Message
import PaxosBus.Common.Transport
import Mathlib.Data.Finset.Card

/-!
# The PaxosBus replica

`PaxosBusReplica` handler by handler. Every handler returns the replica's next
state with the messages it hands to the transport, in order. `NowNs()` is an
argument: a handler that reads the clock more than once gets the successive
readings from `clock`.

Sequence numbers and times are natural numbers; deadlines, which the source
keeps in `int64_t`, are integers. The nanoseconds of `startDelayMs`, `intervalMs`
and `deltaMs`, the deadlines made of them and the clock readings are taken not to
overflow. The difference and the product that `SendGapRequest` compares wrap
around as they do in the source.
-/

set_option autoImplicit false

namespace PaxosBus.Bus

open Std PaxosBus.Common

/-- `PaxosBusReplica::LogState`. -/
inductive LogState where
  | empty
  | received
  | noop
deriving DecidableEq, Repr

/-- `PaxosBusReplica::LogEntry`; the default value is the one `operator[]` creates. -/
structure LogEntry where
  state : LogState := .empty
  payload : String := ""
  sendTimeNs : Nat := 0
  recvNs : Nat := 0
deriving DecidableEq, Repr

/-- `PaxosBusReplica::ClientStream`. -/
structure ClientStream where
  baseRecvNs : Int := 0
  intervalNs : Nat := 0
  anchored : Bool := false
  log : TreeMap Nat LogEntry := {}
  nextExpected : Nat := 1
  maxSeqSeen : Nat := 0
  gapTimerId : Nat := 0
  gapRequestNs : TreeMap Nat Nat := {}
  gapLastReqNs : TreeMap Nat Nat := {}
  gapCommitAcks : TreeMap Nat (Finset Nat) := {}
  noopStartNs : TreeMap Nat Nat := {}

/-- The constructor arguments that select the gap mode and its timing. -/
structure Options where
  gapEnabled : Bool := false
  dropMod : Nat := 2
  noopMod : Nat := 0
  deltaMs : Nat := 10
  gapRetryMs : Nat := 100
deriving DecidableEq, Repr

/-- The state of a `PaxosBusReplica`. A gap timer's callback names its client. -/
structure Replica where
  config : Configuration
  replicaIdx : Nat
  options : Options
  viewId : Nat := 0
  clients : TreeMap Nat ClientStream := {}
  clientAddr : TreeMap Nat Address := {}
  timers : Timers Nat := {}

/-- Nanoseconds in a millisecond. -/
def nsPerMs : Nat := 1000000

/-- `gapRetryMs` in nanoseconds, a `uint64_t` product. -/
def Options.gapRetryNs (options : Options) : Nat := options.gapRetryMs * nsPerMs % 2 ^ 64

namespace ClientStream

/-- `s.log[seq]`, which creates an `EMPTY` entry where there is none. -/
def entry (s : ClientStream) (seq : Nat) : LogEntry := (s.log[seq]?).getD {}

/-- Write the log entry of one slot. -/
def setEntry (s : ClientStream) (seq : Nat) (e : LogEntry) : ClientStream :=
  { s with log := s.log.insert seq e }

/-- The slot is in the log and is RECEIVED or NOOP. -/
def filled (s : ClientStream) (slot : Nat) : Bool := (s.entry slot).state != .empty

/-- When the slot should have arrived, plus the confidence interval Delta. -/
def deadlineNs (s : ClientStream) (options : Options) (slot : Nat) : Int :=
  s.baseRecvNs + ((slot : Int) - 1) * s.intervalNs + (options.deltaMs * nsPerMs : Nat)

/-- Note that a sequence number has been seen. -/
def noteSeq (s : ClientStream) (seq : Nat) : ClientStream :=
  { s with maxSeqSeen := max s.maxSeqSeen seq }

/-- Re-anchor the stream so that the slot was expected exactly when it arrived. -/
def reanchor (s : ClientStream) (seq actualNs : Nat) : ClientStream :=
  { s with
    baseRecvNs := (actualNs : Int) - ((seq : Int) - 1) * s.intervalNs
    anchored := true }

/-- Record that the leader started the NoOp agreement for a slot, with no acknowledgement. -/
def startAgreement (s : ClientStream) (seq now : Nat) : ClientStream :=
  { s with
    noopStartNs := s.noopStartNs.insert seq now
    gapCommitAcks := s.gapCommitAcks.insert seq ∅ }

/-- Record that the leader was asked for a slot; the first time is kept apart. -/
def noteRequest (s : ClientStream) (seq now : Nat) : ClientStream :=
  { s with
    gapLastReqNs := s.gapLastReqNs.insert seq now
    gapRequestNs := if s.gapRequestNs.contains seq then s.gapRequestNs
      else s.gapRequestNs.insert seq now }

/-- Forget the outstanding request for a slot. -/
def dropRequest (s : ClientStream) (seq : Nat) : ClientStream :=
  { s with
    gapRequestNs := s.gapRequestNs.erase seq
    gapLastReqNs := s.gapLastReqNs.erase seq }

/-- The leader was asked for the slot less than `gapRetryMs` ago. The elapsed time is a
`uint64_t` difference. -/
def recentlyRequested (s : ClientStream) (options : Options) (seq now : Nat) : Bool :=
  match s.gapLastReqNs[seq]? with
  | none => false
  | some last => (now + 2 ^ 64 - last) % 2 ^ 64 < options.gapRetryNs

/-- The `while` loop of `AdvanceContiguous`: each round passes one filled slot, so
as many rounds as the log has entries reach the frontier. -/
def frontierFrom (s : ClientStream) : Nat → Nat → Nat
  | 0, next => next
  | rounds + 1, next => if s.filled next then s.frontierFrom rounds (next + 1) else next

end ClientStream

namespace Replica

/-- `PaxosBusReplica::AmLeader`. -/
def amLeader (r : Replica) : Bool := r.config.getLeaderIndex r.viewId == r.replicaIdx

/-- `clients[client_id]`, which creates a fresh stream where there is none. -/
def stream (r : Replica) (clientId : Nat) : ClientStream := (r.clients[clientId]?).getD {}

/-- Store the stream of one client. -/
def setStream (r : Replica) (clientId : Nat) (s : ClientStream) : Replica :=
  { r with clients := r.clients.insert clientId s }

/-- The log entry the replica holds for a client's slot. -/
def entry (r : Replica) (clientId seq : Nat) : LogEntry := (r.stream clientId).entry seq

/-- `PaxosBusReplica::ShouldDrop`: the two drop knobs. -/
def shouldDrop (r : Replica) (seq : Nat) : Bool :=
  if r.options.noopMod > 0 && seq % r.options.noopMod == 0 then
    true
  else
    r.options.dropMod > 0 && !r.amLeader && (seq + r.replicaIdx) % r.options.dropMod == 0

/-- Learn the client's address from live traffic. -/
def learnAddress (r : Replica) (clientId : Nat) (remote : Address) : Replica :=
  { r with clientAddr := r.clientAddr.insert clientId remote }

/-- `PaxosBusReplica::HandleSync`. -/
def handleSync (r : Replica) (remote : Address) (msg : SyncMessage) (recvNs : Nat) : Replica :=
  let s := r.stream msg.clientId
  let r := r.setStream msg.clientId
    { s with
      baseRecvNs := recvNs + (msg.startDelayMs * nsPerMs : Nat)
      intervalNs := msg.intervalMs * nsPerMs
      anchored := false
      nextExpected := 1
      maxSeqSeen := 0 }
  r.learnAddress msg.clientId remote

/-- `PaxosBusReplica::ReplyToClient`. -/
def replyToClient (r : Replica) (clientId seq : Nat) : List Send :=
  match r.clientAddr[clientId]? with
  | none => []
  | some addr =>
    [{ dst := addr
       msg := .dataReply
        { clientId, seqNum := seq, viewId := r.viewId, logSlotNum := seq,
          replicaIdx := r.replicaIdx } }]

/-- `PaxosBusReplica::RecordReceived`: a committed NoOp is final. -/
def recordReceived (r : Replica) (clientId seq : Nat) (payload : String) (sendTimeNs now : Nat) :
    Replica :=
  let s := r.stream clientId
  let s := s.noteSeq seq
  let e := s.entry seq
  if e.state = .noop then
    r.setStream clientId s
  else
    r.setStream clientId
      (s.setEntry seq { state := .received, payload, sendTimeNs, recvNs := now })

/-- `PaxosBusReplica::ArmGapTimer`: one re-armable timer watches the frontier slot. -/
def armGapTimer (r : Replica) (clientId : Nat) (now : Nat) : Replica :=
  let s := r.stream clientId
  let timers := if s.gapTimerId ≠ 0 then r.timers.cancelTimer s.gapTimerId else r.timers
  let ms := (s.deadlineNs r.options s.nextExpected - now).tdiv nsPerMs
  let ms := if ms ≤ 0 then r.options.deltaMs else ms.toNat
  let (timers, gapTimerId) := timers.timer ms clientId
  { r.setStream clientId { s with gapTimerId } with timers }

/-- `PaxosBusReplica::AdvanceContiguous`. -/
def advanceContiguous (r : Replica) (clientId : Nat) (now : Nat) : Replica :=
  let s := r.stream clientId
  let r := r.setStream clientId
    { s with nextExpected := s.frontierFrom s.log.size s.nextExpected }
  if r.options.gapEnabled then r.armGapTimer clientId now else r

/-- `PaxosBusReplica::HandleData`. -/
def handleData (r : Replica) (remote : Address) (msg : DataMessage) (clock : Nat → Nat) :
    Replica × List Send :=
  match r.clients[msg.clientId]? with
  | none => (r, [])
  | some s =>
    let r := r.learnAddress msg.clientId remote
    let s := s.noteSeq msg.seqNum
    if r.options.gapEnabled && r.shouldDrop msg.seqNum then
      (r.setStream msg.clientId s, [])
    else
      let r := r.setStream msg.clientId (s.reanchor msg.seqNum (clock 0))
      if r.options.gapEnabled then
        let r := r.recordReceived msg.clientId msg.seqNum msg.payload msg.sendTimeNs (clock 1)
        let sends := r.replyToClient msg.clientId msg.seqNum
        (r.advanceContiguous msg.clientId (clock 2), sends)
      else
        (r, r.replyToClient msg.clientId msg.seqNum)

/-- `PaxosBusReplica::SendGapRequest`. -/
def sendGapRequest (r : Replica) (clientId seq : Nat) (now : Nat) : Replica × List Send :=
  let s := r.stream clientId
  if s.recentlyRequested r.options seq now then
    (r.setStream clientId s, [])
  else
    (r.setStream clientId (s.noteRequest seq now),
      [{ dst := .replica (r.config.getLeaderIndex r.viewId)
         msg := .gapRequest
          { clientId, seqNum := seq, viewId := r.viewId, replicaIdx := r.replicaIdx } }])

/-- `PaxosBusReplica::StartGapAgreement`; its `ASSERT(AmLeader())` is the caller's proof. -/
def startGapAgreement (r : Replica) (_leader : r.amLeader = true) (clientId seq : Nat)
    (now : Nat) : Replica × List Send :=
  let s := r.stream clientId
  let e := s.entry seq
  if e.state = .noop then
    (r.setStream clientId s, [])
  else
    (r.setStream clientId ((s.setEntry seq { e with state := .noop }).startAgreement seq now),
      sendToOthers r.config r.replicaIdx
        (.gapCommit { clientId, seqNum := seq, viewId := r.viewId }))

/-- The body of the scan in `OnGapTimeout` for an empty slot past its deadline. -/
def resolveGap (r : Replica) (clientId slot : Nat) (now : Nat) : Replica × List Send :=
  if leader : r.amLeader = true then
    r.startGapAgreement leader clientId slot now
  else
    r.sendGapRequest clientId slot now

/-- The scan in `OnGapTimeout` over the `slots` slots from `slot` up. It skips filled
slots and stops at the first empty slot whose deadline has not passed. -/
def scanGaps (r : Replica) (clientId : Nat) (nowNs : Nat) (clock : Nat → Nat) :
    Nat → Nat → Replica × List Send
  | _, 0 => (r, [])
  | slot, slots + 1 =>
    let s := r.stream clientId
    if s.filled slot then
      r.scanGaps clientId nowNs clock (slot + 1) slots
    else if (nowNs : Int) < s.deadlineNs r.options slot then
      (r, [])
    else
      let (r, sends) := r.resolveGap clientId slot (clock slot)
      let (r, later) := r.scanGaps clientId nowNs clock (slot + 1) slots
      (r, sends ++ later)

/-- `PaxosBusReplica::OnGapTimeout`. -/
def onGapTimeout (r : Replica) (clientId : Nat) (clock : Nat → Nat) : Replica × List Send :=
  let s := { r.stream clientId with gapTimerId := 0 }
  let r := r.setStream clientId s
  let hi := max s.maxSeqSeen s.nextExpected
  let (r, sends) := r.scanGaps clientId (clock 0) clock s.nextExpected (hi + 1 - s.nextExpected)
  (r.advanceContiguous clientId (clock (hi + 1)), sends)

/-- `PaxosBusReplica::HandleGapRequest`: a slot the leader lacks is not escalated here. -/
def handleGapRequest (r : Replica) (remote : Address) (msg : GapRequestMessage) :
    Replica × List Send :=
  if r.amLeader then
    let s := r.stream msg.clientId
    let e := s.entry msg.seqNum
    let r := r.setStream msg.clientId s
    match e.state with
    | .received =>
      (r, [{ dst := remote
             msg := .gapReply
              { clientId := msg.clientId, seqNum := msg.seqNum, viewId := r.viewId,
                replicaIdx := r.replicaIdx, found := true,
                sendTimeNs := e.sendTimeNs, payload := e.payload } }])
    | .noop =>
      (r, [{ dst := remote
             msg := .gapCommit
              { clientId := msg.clientId, seqNum := msg.seqNum, viewId := r.viewId } }])
    | .empty => (r, [])
  else
    (r, [])

/-- `PaxosBusReplica::HandleGapReply`. -/
def handleGapReply (r : Replica) (msg : GapReplyMessage) (clock : Nat → Nat) :
    Replica × List Send :=
  if msg.found then
    let s := r.stream msg.clientId
    let r := r.setStream msg.clientId s
    if s.filled msg.seqNum then
      (r, [])
    else
      let r := r.recordReceived msg.clientId msg.seqNum msg.payload msg.sendTimeNs (clock 0)
      let r := r.setStream msg.clientId ((r.stream msg.clientId).dropRequest msg.seqNum)
      let sends := r.replyToClient msg.clientId msg.seqNum
      (r.advanceContiguous msg.clientId (clock 1), sends)
  else
    (r, [])

/-- `PaxosBusReplica::HandleGapCommit`: data the replica may hold is overwritten. -/
def handleGapCommit (r : Replica) (remote : Address) (msg : GapCommitMessage)
    (now : Nat) : Replica × List Send :=
  let s := r.stream msg.clientId
  let s := s.setEntry msg.seqNum { s.entry msg.seqNum with state := .noop }
  let r := r.setStream msg.clientId (s.dropRequest msg.seqNum)
  let r := r.advanceContiguous msg.clientId now
  (r, [{ dst := remote
         msg := .gapCommitReply
          { clientId := msg.clientId, seqNum := msg.seqNum, viewId := r.viewId,
            replicaIdx := r.replicaIdx } }])

/-- `PaxosBusReplica::HandleGapCommitReply`: `f` follower acknowledgements and the leader
itself make the NoOp durable. -/
def handleGapCommitReply (r : Replica) (msg : GapCommitReplyMessage) : Replica :=
  if r.amLeader then
    let s := r.stream msg.clientId
    if s.noopStartNs.contains msg.seqNum then
      let acks := insert msg.replicaIdx ((s.gapCommitAcks[msg.seqNum]?).getD ∅)
      if acks.card ≥ r.config.quorumSize - 1 then
        r.setStream msg.clientId
          { s with
            noopStartNs := s.noopStartNs.erase msg.seqNum
            gapCommitAcks := s.gapCommitAcks.erase msg.seqNum }
      else
        r.setStream msg.clientId
          { s with gapCommitAcks := s.gapCommitAcks.insert msg.seqNum acks }
    else
      r.setStream msg.clientId s
  else
    r

/-- `PaxosBusReplica::ReceiveMessage`. -/
def receiveMessage (r : Replica) (remote : Address) (msg : Message) (clock : Nat → Nat) :
    Replica × List Send :=
  match msg with
  | .sync msg => (r.handleSync remote msg (clock 0), [])
  | .data msg => r.handleData remote msg clock
  | .gapRequest msg => r.handleGapRequest remote msg
  | .gapReply msg => r.handleGapReply msg clock
  | .gapCommit msg => r.handleGapCommit remote msg (clock 0)
  | .gapCommitReply msg => (r.handleGapCommitReply msg, [])
  | .dataReply _ => (r, [])

end Replica

end PaxosBus.Bus

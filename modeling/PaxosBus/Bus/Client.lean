import PaxosBus.Bus.Message
import PaxosBus.Common.Transport

/-!
# The PaxosBus client

`PaxosBusClient` handler by handler. The handlers that send take the successive
readings of `NowNs()` as a list, because the catch-up loop of `SendTick` reads
the clock once more than it sends; a list that ends before the loop does is not
an execution of the handler. Latency statistics are left out.
-/

set_option autoImplicit false

namespace PaxosBus.Bus

open Std PaxosBus.Common

/-- `PaxosBusClient::InflightEntry`. -/
structure InflightEntry where
  sendTimeNs : Nat
  firstSendTimeNs : Nat
  replicaMask : BitVec 32
  replyCount : BitVec 8
  appReqId : Nat
  attempts : Nat
  resendTimerId : Nat
deriving DecidableEq, Repr

/-- The callbacks a client leaves with its transport. -/
inductive ClientTimer where
  | syncWaitDone
  | sendTick
  | resendTimeout (seq : Nat)
deriving DecidableEq, Repr

/-- The state of a `PaxosBusClient`. `started` records that `Start` has been called. -/
structure Client where
  config : Configuration
  clientId : Nat
  intervalMs : Nat
  resendMs : Nat
  started : Bool := false
  seqNum : Nat := 0
  appReqId : Nat := 0
  inflight : TreeMap Nat InflightEntry := {}
  nextSendNs : Nat := 0
  committedCount : Nat := 0
  timers : Timers ClientTimer := {}

/-- `1u << i`. A shift by 32 or more is undefined in the source; `overshift` is whatever
the compiled program yields there. -/
def bit (overshift : Nat → BitVec 32) (i : Nat) : BitVec 32 :=
  if i < 32 then 1#32 <<< i else overshift i

namespace Client

/-- `PaxosBusClient::Start`: the one clock synchronisation, then a five second wait. -/
def start (c : Client) (now : Nat) : Client × List Send :=
  let (timers, _) := c.timers.timer 5000 .syncWaitDone
  ({ c with started := true, timers },
    sendToReplicas c.config
      (.sync { clientId := c.clientId, sendTimeNs := now, intervalMs := c.intervalMs,
               startDelayMs := 5000 }))

/-- The payload of every data message. -/
def payload : String := "hello"

/-- `PaxosBusClient::SendData`. -/
def sendData (c : Client) (seq appReqId firstSendNs attempts : Nat) (now : Nat) :
    Client × List Send :=
  let sends := sendToReplicas c.config
    (.data { clientId := c.clientId, seqNum := seq, sendTimeNs := now, payload, appReqId })
  let (timers, resendTimerId) :=
    if c.resendMs ≠ 0 then c.timers.timer c.resendMs (.resendTimeout seq) else (c.timers, 0)
  let e : InflightEntry :=
    { sendTimeNs := now
      firstSendTimeNs := if firstSendNs ≠ 0 then firstSendNs else now
      replicaMask := 0
      replyCount := 0
      appReqId
      attempts
      resendTimerId }
  ({ c with inflight := c.inflight.insert seq e, timers }, sends)

/-- Set the time of the next send. -/
def scheduleSend (c : Client) (nextSendNs : Nat) : Client := { c with nextSendNs }

/-- One round of the catch-up loop: a new logical request in the next slot. -/
def sendRound (c : Client) (sendNow : Nat) : Client × List Send :=
  let c := { c with seqNum := c.seqNum + 1, appReqId := c.appReqId + 1 }
  let sent := c.sendData c.seqNum c.appReqId 0 1 sendNow
  (sent.1.scheduleSend (sent.1.nextSendNs + c.intervalMs * 1000000), sent.2)

/-- The `while (now >= nextSendNs)` loop of `SendTick`. The first reading is the loop's
`now`; each round spends one reading in `SendData` and one on the next test. -/
def sendLoop (c : Client) : List Nat → Option (Client × List Send × Nat)
  | [] => none
  | [now] => if now < c.nextSendNs then some (c, [], now) else none
  | now :: sendNow :: rest =>
    if now < c.nextSendNs then
      none
    else
      match (c.sendRound sendNow).1.sendLoop rest with
      | none => none
      | some (last, later, lastNow) => some (last, (c.sendRound sendNow).2 ++ later, lastNow)

/-- `PaxosBusClient::SendTick`. -/
def sendTick (c : Client) (readings : List Nat) : Option (Client × List Send) :=
  match c.sendLoop readings with
  | none => none
  | some (c, sends, now) =>
    let delayMs := (c.nextSendNs - now) / 1000000
    let (timers, _) := c.timers.timer (if delayMs = 0 then 1 else delayMs) .sendTick
    some ({ c with timers }, sends)

/-- `PaxosBusClient::OnSyncWaitDone`. -/
def onSyncWaitDone (c : Client) (now : Nat) (readings : List Nat) :
    Option (Client × List Send) :=
  { c with nextSendNs := now }.sendTick readings

/-- `PaxosBusClient::OnResendTimeout`: the old slot is abandoned and the same logical
request goes out at a fresh one. -/
def onResendTimeout (c : Client) (seq : Nat) (now : Nat) : Client × List Send :=
  match c.inflight[seq]? with
  | none => (c, [])
  | some e =>
    let c := { c with inflight := c.inflight.erase seq, seqNum := c.seqNum + 1 }
    c.sendData c.seqNum e.appReqId e.firstSendTimeNs (e.attempts + 1) now

/-- The quorum test of `HandleDataReply`: `f + 1` replies, the leader's among them. -/
def hasQuorum (overshift : Nat → BitVec 32) (c : Client) (e : InflightEntry) (viewId : Nat) :
    Bool :=
  c.config.quorumSize ≤ e.replyCount.toNat &&
    e.replicaMask &&& bit overshift (c.config.getLeaderIndex viewId) != 0

/-- `PaxosBusClient::HandleDataReply`. The result names the slot counted as committed. -/
def handleDataReply (overshift : Nat → BitVec 32) (c : Client) (msg : DataReplyMessage) :
    Client × Option Nat :=
  match c.inflight[msg.seqNum]? with
  | none => (c, none)
  | some e =>
    if e.replicaMask &&& bit overshift msg.replicaIdx ≠ 0 then
      (c, none)
    else
      let e := { e with
        replicaMask := e.replicaMask ||| bit overshift msg.replicaIdx
        replyCount := e.replyCount + 1 }
      if c.hasQuorum overshift e msg.viewId then
        let timers := if e.resendTimerId ≠ 0 then c.timers.cancelTimer e.resendTimerId
          else c.timers
        ({ c with
            committedCount := c.committedCount + 1
            inflight := c.inflight.erase msg.seqNum
            timers },
          some msg.seqNum)
      else
        ({ c with inflight := c.inflight.insert msg.seqNum e }, none)

/-- `PaxosBusClient::ReceiveMessage`: anything but a data reply is ignored. -/
def receiveMessage (overshift : Nat → BitVec 32) (c : Client) (msg : Message) :
    Client × Option Nat :=
  match msg with
  | .dataReply msg => c.handleDataReply overshift msg
  | _ => (c, none)

/-- A timer of the client fires: the transport forgets it and runs its callback on the
successive clock readings. A timer that is not pending does not fire. -/
def fireTimer (c : Client) (id : Nat) (readings : List Nat) : Option (Client × List Send) :=
  match c.timers.pending[id]? with
  | none => none
  | some timer =>
    let c := { c with timers := c.timers.cancelTimer id }
    match timer.callback, readings with
    | .syncWaitDone, now :: readings => c.onSyncWaitDone now readings
    | .sendTick, readings => c.sendTick readings
    | .resendTimeout seq, now :: _ => some (c.onResendTimeout seq now)
    | _, _ => none

end Client

end PaxosBus.Bus

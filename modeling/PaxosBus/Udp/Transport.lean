import PaxosBus.Udp.Packet
import Std.Data.TreeMap.Lemmas

/-!
# The UDP transport

The sending and the receiving half of `UDPTransport`. `sendto` hands packets to
the network, so a send returns the packets in order; `ProcessPacket` is called
for one packet at a time and returns what it delivers to the receivers behind
the socket. The simulated drops and reorderings are the environment's choice.
-/

set_option autoImplicit false

namespace PaxosBus.Udp

open Std PaxosBus.Library

/-- `UDPTransportAddress`: the address and port of a `sockaddr_in`. -/
structure TransportAddress where
  host : Nat
  port : Nat
deriving DecidableEq, Repr

/-! ## Sending -/

/-- One fragment as `_SendMessageInternal` builds it. -/
def fragment (msgId : Nat) (bodyStart : Bytes) (fragStart : Nat) : Bytes :=
  let fragLen := min (bodyStart.length - fragStart) maxUdpMessageSize
  encodeLE 4 fragMagic ++ (encodeLE 8 msgId ++ (encodeLE 8 fragStart ++
    (encodeLE 8 bodyStart.length ++ (bodyStart.drop fragStart).take fragLen)))

/-- The loop over `fragStart`, which takes `numFrags` rounds. -/
def fragments (msgId : Nat) (bodyStart : Bytes) : List Bytes :=
  let numFrags := (bodyStart.length - 1) / maxUdpMessageSize + 1
  (List.range numFrags).map fun round => fragment msgId bodyStart (round * maxUdpMessageSize)

/-- `UDPTransport::_SendMessageInternal`: the new `lastFragMsgId` and the packets. -/
def sendMessageInternal (lastFragMsgId : Nat) (data type metaData : Bytes) :
    Except Fault (Nat × List Bytes) := do
  let buf ← serializeMessage data type metaData
  if buf.length ≤ maxUdpMessageSize then
    return (lastFragMsgId, [buf])
  else
    let msgId := (lastFragMsgId + 1) % 2 ^ 64
    return (msgId, fragments msgId (buf.drop 4))

/-- The meta data that `OrderedMulticast` allocates: the fields that the sequencer fills in
are zero. -/
def multicastMetaData (groups : List Nat) : Bytes :=
  encodeLE 2 0 ++ (encodeLE 8 0 ++ (encodeLE 4 groups.length ++
    groups.flatMap fun groupIdx => encodeLE 4 groupIdx ++ encodeLE 8 0))

/-- `UDPTransport::OrderedMulticast`. -/
def orderedMulticast (lastFragMsgId : Nat) (groups : List Nat) (data type : Bytes) :
    Except Fault (Nat × List Bytes) := do
  assert (groups.length > 0)
  sendMessageInternal lastFragMsgId data type (multicastMetaData groups)

/-! ## Receiving -/

/-- `UDPTransport::UDPTransportFragInfo`; an id of zero marks an empty slot. -/
structure FragInfo where
  msgId : Nat := 0
  data : Bytes := []
deriving DecidableEq, Repr

/-- `multistamp_t`. -/
structure Multistamp where
  sessnum : Nat
  seqnums : TreeMap Nat Nat

/-- The packet kept back in `reorderBuffer`. -/
structure Held where
  addr : TransportAddress
  message : Bytes
  msgType : Bytes
  fd : Nat
deriving DecidableEq, Repr

/-- What `ProcessPacket` remembers between packets. -/
structure Receiver where
  fragInfo : TransportAddress → FragInfo := fun _ => {}
  reorderBuffer : Option Held := none

/-- A call of `TransportReceiver::ReceiveMessage`. -/
structure Delivery where
  receiver : Nat
  sender : TransportAddress
  msgType : Bytes
  msg : Bytes
  stamp : Option Multistamp

/-- The sockets of the process: `receivers[fd]`, and for a socket that listens on a multicast
address the replicas behind it with their addresses. -/
structure Sockets where
  receivers : Nat → Nat
  multicast : Nat → Option (List (TransportAddress × Nat))

/-- The outcome of the rolls of `dropRate` and `reorderRate`. -/
inductive Fate where
  | deliver
  | drop
  | reorder
deriving DecidableEq, Repr

/-- Give the reassembly slot to a message: an empty slot is taken, an unfinished message is
given up for a later one. -/
def FragInfo.claim (info : FragInfo) (msgId : Nat) : Except Fault FragInfo := do
  let info := if info.msgId = 0 then { msgId, data := [] } else info
  if info.msgId ≠ msgId then
    assert (msgId > info.msgId)
    return { msgId, data := [] }
  else
    return info

/-- The fragment branch of `ProcessPacket`, on a packet without its magic number: the sender's
slot afterwards, and the message if this fragment completes it. -/
def receiveFragment (info : FragInfo) (packet : Bytes) : Except Fault (FragInfo × Option Decoded) := do
  assert (packet.length > 0)
  let (msgId, rest) ← inside (readLE 8 packet)
  assert (rest.length > 0)
  let (fragStart, rest) ← inside (readLE 8 rest)
  assert (rest.length > 0)
  let (msgLen, rest) ← inside (readLE 8 rest)
  assert (rest.length > 0)
  assert (rest.length = min ((msgLen + 2 ^ 64 - fragStart) % 2 ^ 64) maxUdpMessageSize)
  let info ← info.claim msgId
  if fragStart ≠ info.data.length then
    return (info, none)
  else
    let info := { info with data := info.data ++ rest }
    if info.data.length = msgLen then
      let decoded ← decodePacket info.data
      return ({ msgId := 0, data := [] }, some decoded)
    else
      return (info, none)

/-- The first half of `ProcessPacket`: what there is to dispatch. A packet with a bad magic
number is dispatched with an empty type and message. -/
def Receiver.assemble (r : Receiver) (sender : TransportAddress) (buf : Bytes) :
    Except Fault (Receiver × Option Decoded) := do
  -- the difference is unsigned, so it is zero for packets of exactly four bytes
  assert ((2 ^ 64 + 4 - buf.length) % 2 ^ 64 > 0)
  let (magic, rest) ← inside (readLE 4 buf)
  if magic = nonfragMagic then
    let decoded ← decodePacket rest
    return (r, some decoded)
  else if magic = fragMagic then
    let (info, decoded) ← receiveFragment (r.fragInfo sender) rest
    return ({ r with fragInfo := Function.update r.fragInfo sender info }, decoded)
  else
    return (r, some { msgType := [], msg := [], metaData := none })

/-- The group ids and sequence numbers; an id that is listed again is ignored. -/
def readSeqnums : Nat → Bytes → TreeMap Nat Nat → Except Fault (TreeMap Nat Nat)
  | 0, _, seqnums => .ok seqnums
  | ngroups + 1, ptr, seqnums => do
    let (groupIdx, ptr) ← inside (readLE 4 ptr)
    let (seqnum, ptr) ← inside (readLE 8 ptr)
    readSeqnums ngroups ptr (seqnums.insertIfNew groupIdx seqnum)

/-- The meta data part of `ProcessPacket`: the sender with its original port, and the stamp. -/
def readMetaData (sender : TransportAddress) (metaData : Option Bytes) :
    Except Fault (TransportAddress × Option Multistamp) :=
  match metaData with
  | none => .ok (sender, none)
  | some ptr => do
    let (udpSrc, ptr) ← inside (readLE 2 ptr)
    let sender := if udpSrc ≠ 0 then { sender with port := udpSrc } else sender
    let (sessnum, ptr) ← inside (readLE 8 ptr)
    let (ngroups, ptr) ← inside (readLE 4 ptr)
    let seqnums ← readSeqnums ngroups ptr {}
    return (sender, some { sessnum, seqnums })

/-- The code after the label `deliver`, up to the check of the reorder buffer. -/
def Sockets.deliver (sockets : Sockets) (fd : Nat) (senderAddr : TransportAddress)
    (msgType msg : Bytes) (stamp : Option Multistamp) : List Delivery :=
  match sockets.multicast fd with
  | some replicas =>
    (replicas.filter fun replica => replica.1 ≠ senderAddr).map fun replica =>
      { receiver := replica.2, sender := senderAddr, msgType, msg, stamp }
  | none => [{ receiver := sockets.receivers fd, sender := senderAddr, msgType, msg, stamp }]

/-- Deliver a message, and after it the one in the reorder buffer, which gets the stamp of
the message that releases it. -/
def Receiver.release (r : Receiver) (sockets : Sockets) (fd : Nat) (senderAddr : TransportAddress)
    (msgType msg : Bytes) (stamp : Option Multistamp) : Receiver × List Delivery :=
  let deliveries := sockets.deliver fd senderAddr msgType msg stamp
  match r.reorderBuffer with
  | none => (r, deliveries)
  | some held => ({ r with reorderBuffer := none },
      deliveries ++ sockets.deliver held.fd held.addr held.msgType held.message stamp)

/-- The second half of `ProcessPacket`. -/
def Receiver.dispatch (r : Receiver) (sockets : Sockets) (fd : Nat) (senderAddr : TransportAddress)
    (msgType msg : Bytes) (stamp : Option Multistamp) (fate : Fate) : Receiver × List Delivery :=
  match fate, r.reorderBuffer with
  | .drop, _ => (r, [])
  | .reorder, none =>
    ({ r with reorderBuffer := some { addr := senderAddr, message := msg, msgType, fd } }, [])
  | .reorder, some _ | .deliver, _ => r.release sockets fd senderAddr msgType msg stamp

/-- `UDPTransport::ProcessPacket`. -/
def Receiver.processPacket (r : Receiver) (sockets : Sockets) (fd : Nat)
    (sender : TransportAddress) (buf : Bytes) (fate : Fate) :
    Except Fault (Receiver × List Delivery) := do
  match ← r.assemble sender buf with
  | (r, none) => return (r, [])
  | (r, some decoded) =>
    let (senderAddr, stamp) ← readMetaData sender decoded.metaData
    return r.dispatch sockets fd senderAddr decoded.msgType decoded.msg stamp fate

/-! ## What is read back -/

/-- The group ids and sequence numbers of a header. -/
def stampEntries (entries : List (Nat × Nat)) : Bytes :=
  entries.flatMap fun entry => encodeLE 4 entry.1 ++ encodeLE 8 entry.2

@[simp] theorem stampEntries_nil : stampEntries [] = [] := rfl

theorem stampEntries_cons (entry : Nat × Nat) (entries : List (Nat × Nat)) :
    stampEntries (entry :: entries) =
      encodeLE 4 entry.1 ++ (encodeLE 8 entry.2 ++ stampEntries entries) := by
  simp [stampEntries]

@[simp] theorem length_stampEntries (entries : List (Nat × Nat)) :
    (stampEntries entries).length = 12 * entries.length := by
  induction entries with
  | nil => rfl
  | cons entry entries inductionHypothesis =>
      rw [stampEntries_cons, List.length_append, List.length_append, inductionHypothesis]
      simp only [length_encodeLE, List.length_cons]
      omega

/-- A header of the ordered multicast with given values in the fields of the sequencer. -/
def stampedMetaData (udpSrc sessnum : Nat) (entries : List (Nat × Nat)) : Bytes :=
  encodeLE 2 udpSrc ++ (encodeLE 8 sessnum ++ (encodeLE 4 entries.length ++
    stampEntries entries))

@[simp] theorem length_stampedMetaData (udpSrc sessnum : Nat) (entries : List (Nat × Nat)) :
    (stampedMetaData udpSrc sessnum entries).length = 14 + 12 * entries.length := by
  simp only [stampedMetaData, List.length_append, length_encodeLE, length_stampEntries]
  omega

/-- The header that a sender allocates is one with zeros. -/
theorem multicastMetaData_eq (groups : List Nat) :
    multicastMetaData groups = stampedMetaData 0 0 (groups.map fun groupIdx => (groupIdx, 0)) := by
  simp [multicastMetaData, stampedMetaData, stampEntries, List.flatMap_map]

/-- The map that reading some entries builds, each cut to the width of its fields. -/
def collect (entries : List (Nat × Nat)) (seqnums : TreeMap Nat Nat) : TreeMap Nat Nat :=
  entries.foldl (fun seqnums entry =>
    seqnums.insertIfNew (entry.1 % 2 ^ 32) (entry.2 % 2 ^ 64)) seqnums

/-- As many entries as were written are read, whatever follows them. -/
theorem readSeqnums_stampEntries (entries : List (Nat × Nat)) (rest : Bytes)
    (seqnums : TreeMap Nat Nat) :
    readSeqnums entries.length (stampEntries entries ++ rest) seqnums =
      .ok (collect entries seqnums) := by
  induction entries generalizing seqnums with
  | nil => rfl
  | cons entry entries inductionHypothesis =>
      rw [stampEntries_cons, List.append_assoc, List.append_assoc]
      simp only [List.length_cons, readSeqnums, readLE_append _ (length_encodeLE 4 _),
        readLE_append _ (length_encodeLE 8 _), inside, bind, Except.bind, decodeLE_encodeLE_mod]
      exact inductionHypothesis _

/-- A header is read back; a port of zero leaves the sender alone. -/
theorem readMetaData_stamped (sender : TransportAddress) (udpSrc sessnum : Nat)
    (entries : List (Nat × Nat)) (port : udpSrc < 2 ^ 16) (session : sessnum < 2 ^ 64)
    (count : entries.length < 2 ^ 32) (rest : Bytes) :
    readMetaData sender (some (stampedMetaData udpSrc sessnum entries ++ rest)) =
      .ok (if udpSrc ≠ 0 then { sender with port := udpSrc } else sender,
        some { sessnum, seqnums := collect entries {} }) := by
  have portField := readLE_encodeLE 2 udpSrc
    (encodeLE 8 sessnum ++ (encodeLE 4 entries.length ++ (stampEntries entries ++ rest)))
    (by simpa using port)
  have sessionField := readLE_encodeLE 8 sessnum
    (encodeLE 4 entries.length ++ (stampEntries entries ++ rest)) (by simpa using session)
  have countField := readLE_encodeLE 4 entries.length
    (stampEntries entries ++ rest) (by simpa using count)
  simp only [readMetaData, stampedMetaData, List.append_assoc, portField, sessionField, countField,
    inside, bind, Except.bind, readSeqnums_stampEntries]
  rfl

end PaxosBus.Udp

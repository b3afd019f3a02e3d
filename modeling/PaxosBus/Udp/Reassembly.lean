import PaxosBus.Udp.Transport
import PaxosBus.Library.Transition

/-!
# Reassembly of fragmented messages

The receiver keeps one slot for each sender, which holds the bytes of one
message from its start up to some point. `Slot` says so; a fragment extends it,
is ignored, or gives the slot to its own message. The only fragment that does
harm is one of a message older than the one in the slot: it fails an assertion.
-/

set_option autoImplicit false

namespace PaxosBus.Udp

open PaxosBus.Library

/-! ## One packet -/

/-- The fragment is of an older message than the one that its sender's slot holds. -/
def FragInfo.overtook (info : FragInfo) (msgId : Nat) : Bool :=
  info.msgId ≠ 0 && msgId < info.msgId

/-- The slot as the fragments of a message find it: with their part of it, or empty. -/
def FragInfo.claimed (info : FragInfo) (msgId : Nat) : FragInfo :=
  if info.msgId = msgId ∧ msgId ≠ 0 then info else { msgId, data := [] }

/-- Claiming the slot fails exactly for a message that has been overtaken. -/
theorem claim_eq (info : FragInfo) (msgId : Nat) :
    info.claim msgId =
      if info.overtook msgId then .error .assertion else .ok (info.claimed msgId) := by
  obtain ⟨held, data⟩ := info
  by_cases empty : held = 0
  · subst empty
    by_cases zero : msgId = 0
    · simp [FragInfo.claim, FragInfo.overtook, FragInfo.claimed, zero]
      rfl
    · have different : ¬ (0 = msgId) := fun equal => zero equal.symm
      simp [FragInfo.claim, FragInfo.overtook, FragInfo.claimed, different]
      rfl
  · by_cases same : held = msgId
    · subst same
      simp [FragInfo.claim, FragInfo.overtook, FragInfo.claimed, empty]
      rfl
    · by_cases older : msgId < held
      · have notLater : ¬ (msgId > held) := by omega
        simp [FragInfo.claim, FragInfo.overtook, empty, same, older, assert, notLater]
      · have later : msgId > held := by omega
        simp [FragInfo.claim, FragInfo.overtook, FragInfo.claimed, empty, same, older, assert, later]

/-- Append a chunk to the slot, and empty it when the message is complete. -/
def FragInfo.extend (info : FragInfo) (msgLen fragStart : Nat) (chunk : Bytes) :
    Except Fault (FragInfo × Option Decoded) :=
  if fragStart ≠ info.data.length then
    .ok (info, none)
  else if (info.data ++ chunk).length = msgLen then do
    let decoded ← decodePacket (info.data ++ chunk)
    return ({ msgId := 0, data := [] }, some decoded)
  else
    .ok ({ info with data := info.data ++ chunk }, none)

/-- The bytes of a message that one fragment carries. -/
def chunk (bodyStart : Bytes) (fragStart : Nat) : Bytes :=
  (bodyStart.drop fragStart).take (min (bodyStart.length - fragStart) maxUdpMessageSize)

/-- A fragment without its magic number. -/
def fragmentTail (msgId : Nat) (bodyStart : Bytes) (fragStart : Nat) : Bytes :=
  encodeLE 8 msgId ++ (encodeLE 8 fragStart ++ (encodeLE 8 bodyStart.length ++
    chunk bodyStart fragStart))

/-- A fragment starts with the mark of one. -/
theorem fragment_eq (msgId : Nat) (bodyStart : Bytes) (fragStart : Nat) :
    fragment msgId bodyStart fragStart =
      encodeLE 4 fragMagic ++ fragmentTail msgId bodyStart fragStart := rfl

/-- A fragment carries as much as is left, or as fits. -/
@[simp] theorem length_chunk (bodyStart : Bytes) (fragStart : Nat) :
    (chunk bodyStart fragStart).length =
      min (bodyStart.length - fragStart) maxUdpMessageSize := by
  simp [chunk]

/-- A fragment that was really sent passes the checks of its header and claims the slot. -/
theorem receiveFragment_fragmentTail (info : FragInfo) {msgId fragStart : Nat}
    {bodyStart : Bytes} (id : msgId < 2 ^ 64) (small : bodyStart.length < 2 ^ 64)
    (inBody : fragStart < bodyStart.length) :
    receiveFragment info (fragmentTail msgId bodyStart fragStart) =
      (info.claim msgId).bind fun info =>
        info.extend bodyStart.length fragStart (chunk bodyStart fragStart) := by
  have idField := readLE_encodeLE 8 msgId
    (encodeLE 8 fragStart ++ (encodeLE 8 bodyStart.length ++ chunk bodyStart fragStart))
    (by simpa using id)
  have startField := readLE_encodeLE 8 fragStart
    (encodeLE 8 bodyStart.length ++ chunk bodyStart fragStart)
    (by simpa using Nat.lt_trans inBody small)
  have lengthField := readLE_encodeLE 8 bodyStart.length
    (chunk bodyStart fragStart) (by simpa using small)
  have positive : 0 < (chunk bodyStart fragStart).length := by
    rw [length_chunk, maxUdpMessageSize]
    omega
  have remaining : (bodyStart.length + 2 ^ 64 - fragStart) % 2 ^ 64 =
      bodyStart.length - fragStart := by omega
  have measured : (chunk bodyStart fragStart).length =
      min ((bodyStart.length + 2 ^ 64 - fragStart) % 2 ^ 64) maxUdpMessageSize := by
    rw [remaining, length_chunk]
  unfold receiveFragment fragmentTail
  simp only [idField, startField, lengthField, inside, bind, Except.bind]
  rw [assert_true (by simp only [List.length_append, length_encodeLE]; omega)]
  simp only
  rw [assert_true (by simp only [List.length_append, length_encodeLE]; omega)]
  simp only
  rw [assert_true (by simp only [List.length_append, length_encodeLE]; omega)]
  simp only
  rw [assert_true positive]
  simp only
  rw [assert_true measured]
  cases info.claim msgId with
  | error fault => rfl
  | ok claimed => rfl

/-- A packet with a magic number and something after it passes the first check. -/
theorem assert_magic {magic : Nat} {rest : Bytes} (nonempty : 0 < rest.length)
    (small : rest.length < 2 ^ 64) :
    assert ((2 ^ 64 + 4 - (encodeLE 4 magic ++ rest).length) % 2 ^ 64 > 0) = .ok () := by
  apply assert_true
  rw [List.length_append, length_encodeLE]
  omega

/-- An unfragmented packet is decoded. -/
theorem assemble_nonfrag (r : Receiver) (sender : TransportAddress) (rest : Bytes)
    (nonempty : 0 < rest.length) (small : rest.length < 2 ^ 64) :
    r.assemble sender (encodeLE 4 nonfragMagic ++ rest) =
      (decodePacket rest).map fun decoded => (r, some decoded) := by
  have magicField := readLE_encodeLE 4 nonfragMagic rest (by decide)
  unfold Receiver.assemble
  rw [assert_magic nonempty small]
  simp only [magicField, inside, bind, Except.bind, if_true]
  rfl

/-- A fragment goes to its sender's slot. -/
theorem assemble_frag (r : Receiver) (sender : TransportAddress) {rest : Bytes}
    (nonempty : 0 < rest.length) (small : rest.length < 2 ^ 64) :
    r.assemble sender (encodeLE 4 fragMagic ++ rest) =
      (receiveFragment (r.fragInfo sender) rest).map fun result =>
        ({ r with fragInfo := Function.update r.fragInfo sender result.1 }, result.2) := by
  have magicField := readLE_encodeLE 4 fragMagic rest (by decide)
  unfold Receiver.assemble
  rw [assert_magic nonempty small]
  simp only [magicField, inside, bind, Except.bind]
  rw [if_neg (by decide), if_pos trivial]
  cases receiveFragment (r.fragInfo sender) rest with
  | error fault => rfl
  | ok result => rfl

/-! ## Senders, packets and one receiver -/

/-- A message given to a transport: for one address, or an ordered multicast to some groups. -/
structure Outgoing where
  data : Bytes
  type : Bytes
  groups : Option (List Nat) := none
deriving DecidableEq, Repr

namespace Outgoing

/-- The meta data of the message's packet. -/
def metaData (m : Outgoing) : Bytes := m.groups.elim [] multicastMetaData

/-- The message's packet after the magic number. -/
def body (m : Outgoing) : Bytes := Udp.body m.data m.type m.metaData

/-- `SendMessage` or `OrderedMulticast`. -/
def send (m : Outgoing) (lastFragMsgId : Nat) : Except Fault (Nat × List Bytes) :=
  match m.groups with
  | none => sendMessageInternal lastFragMsgId m.data m.type []
  | some groups => orderedMulticast lastFragMsgId groups m.data m.type

/-- The packet is cut into fragments. -/
def fragmented (m : Outgoing) : Bool := maxUdpMessageSize < 4 + m.body.length

/-- The packet fits into memory: its length is an `ssize_t`. -/
def Addressable (m : Outgoing) : Prop := 4 + m.body.length < 2 ^ 63

instance (m : Outgoing) : Decidable m.Addressable :=
  inferInstanceAs (Decidable (4 + m.body.length < 2 ^ 63))

end Outgoing

/-- A message that a socket has sent. The id is that of its fragments, and zero without. -/
structure Sent where
  src : TransportAddress
  message : Outgoing
  msgId : Nat
deriving DecidableEq, Repr

/-- A packet from one socket to the receiver. -/
structure Packet where
  src : TransportAddress
  bytes : Bytes
deriving DecidableEq, Repr

/-- The transport that each sending socket belongs to, and the receiver's sockets. -/
structure Deployment where
  transport : TransportAddress → Nat
  sockets : Sockets

/-- The senders' counters, the receiver, and what has been sent and delivered. Once
`ProcessPacket` goes wrong the receiver is gone. -/
structure System where
  lastFragMsgId : Nat → Nat := fun _ => 0
  receiver : Receiver := {}
  sent : List Sent := []
  network : List Packet := []
  delivered : List Delivery := []
  fault : Option Fault := none

/-- A socket sends a message, or the packet at a position of `network` reaches the receiver.
A packet stays in the network, to be delivered again or never. -/
inductive Action where
  | send (src : TransportAddress) (message : Outgoing)
  | deliver (position fd : Nat) (fate : Fate)

namespace System

/-- A message goes out, unless serializing it fails an assertion of its sender. -/
def send (d : Deployment) (s : System) (src : TransportAddress) (m : Outgoing) : System :=
  match m.send (s.lastFragMsgId (d.transport src)) with
  | .error _ => s
  | .ok (lastFragMsgId, packets) =>
    { s with
      lastFragMsgId := Function.update s.lastFragMsgId (d.transport src) lastFragMsgId
      sent := s.sent ++
        [{ src, message := m, msgId := if m.fragmented then lastFragMsgId else 0 }]
      network := s.network ++ packets.map fun bytes => { src, bytes } }

/-- `ProcessPacket` runs on a packet. -/
def receive (d : Deployment) (s : System) (packet : Packet) (fd : Nat) (fate : Fate) : System :=
  match s.receiver.processPacket d.sockets fd packet.src packet.bytes fate with
  | .error fault => { s with fault := some fault }
  | .ok (receiver, deliveries) =>
    { s with receiver, delivered := s.delivered ++ deliveries }

/-- One step; an action that is not enabled is refused. -/
def step (d : Deployment) (s : System) : Action → Option System
  | .send src m => if m.Addressable then some (s.send d src m) else none
  | .deliver position fd fate =>
    if s.fault.isSome then none
    else (s.network[position]?).map fun packet => s.receive d packet fd fate

/-- The packet is a fragment of a message that its sender's slot has given up. -/
def late (s : System) (packet : Packet) : Bool :=
  match readLE 4 packet.bytes with
  | none => false
  | some (magic, rest) =>
    magic == fragMagic &&
      match readLE 8 rest with
      | none => false
      | some (msgId, _) => (s.receiver.fragInfo packet.src).overtook msgId

/-- The step delivers no late fragment and sends no message that the header cannot describe:
the id or the length of the meta data would not fit its field. -/
def Timely (d : Deployment) (s : System) : Action → Prop
  | .send src m => s.lastFragMsgId (d.transport src) + 1 < 2 ^ 64 ∧ m.metaData.length < 2 ^ 32
  | .deliver position _ _ => ∀ packet, s.network[position]? = some packet → s.late packet = false

instance (d : Deployment) (s : System) (action : Action) : Decidable (s.Timely d action) :=
  match action with
  | .send src m => inferInstanceAs
      (Decidable (s.lastFragMsgId (d.transport src) + 1 < 2 ^ 64 ∧ m.metaData.length < 2 ^ 32))
  | .deliver position _ _ =>
    match found : s.network[position]? with
    | none => .isTrue fun packet equal => by
        rw [found] at equal
        cases equal
    | some packet =>
      if timely : s.late packet = false then
        .isTrue fun other equal => by
          rw [found] at equal
          obtain rfl := Option.some.inj equal
          exact timely
      else
        .isFalse fun all => timely (all packet found)

/-- Some socket has sent a message of this type with this data. -/
def WasSent (s : System) (src : TransportAddress) (type data : Bytes) : Prop :=
  ∃ m ∈ s.sent, m.src = src ∧ m.message.type = type ∧ m.message.data = data

/-- The receiver is up, and every delivered message is one that its sender sent. -/
structure Robust (s : System) : Prop where
  running : s.fault = none
  delivered : ∀ delivery ∈ s.delivered, s.WasSent delivery.sender delivery.msgType delivery.msg

end System

/-- The transport as a transition system. -/
def system (d : Deployment) : TransitionSystem System Action where
  Initial s := s = {}
  step := System.step d

/-! ## What is in the network and in the slots -/

namespace Outgoing

/-- What a message that got onto the network satisfies. -/
structure Sound (m : Outgoing) : Prop where
  nonempty : m.data ≠ []
  addressable : m.Addressable
  metaData : m.metaData.length < 2 ^ 32

/-- The lengths of a sound message fit its fields. -/
theorem Sound.fits {m : Outgoing} (sound : m.Sound) : Fits m.data m.type m.metaData := by
  have total := sound.addressable
  simp only [Addressable, body, length_body] at total
  exact ⟨by omega, by omega, sound.metaData⟩

/-- Sending a message fails, or returns its packet or its fragments under a new id. -/
theorem send_cases {m : Outgoing} {last last' : Nat} {packets : List Bytes}
    (sent : m.send last = .ok (last', packets)) :
    m.data ≠ [] ∧
      (m.fragmented = false ∧ last' = last ∧
          packets = [encodeLE 4 nonfragMagic ++ m.body] ∨
        m.fragmented = true ∧ last' = (last + 1) % 2 ^ 64 ∧ packets = fragments last' m.body) := by
  have internal : sendMessageInternal last m.data m.type m.metaData = .ok (last', packets) := by
    unfold send at sent
    unfold metaData
    cases groups : m.groups with
    | none =>
        rw [groups] at sent
        exact sent
    | some groups' =>
        rw [groups] at sent
        simp only [orderedMulticast] at sent
        by_cases some : groups'.length > 0
        · rw [assert_true some] at sent
          exact sent
        · rw [assert_false some] at sent
          cases sent
  simp only [sendMessageInternal, serializeMessage_eq] at internal
  by_cases empty : m.data = []
  · rw [if_pos empty] at internal
    cases internal
  · rw [if_neg empty] at internal
    simp only [bind, Except.bind, List.length_append, length_encodeLE] at internal
    refine ⟨empty, ?_⟩
    split at internal
    · rename_i whole
      obtain ⟨rfl, rfl⟩ := Prod.mk.inj (Except.ok.inj internal)
      have unfragmented : m.fragmented = false := by
        simpa [fragmented, body] using whole
      exact .inl ⟨unfragmented, rfl, rfl⟩
    · rename_i large
      obtain ⟨rfl, rfl⟩ := Prod.mk.inj (Except.ok.inj internal)
      have cut : m.fragmented = true := by
        simpa [fragmented, body] using large
      exact .inr ⟨cut, rfl, by simp [body]⟩

/-- The fragments of a message all start inside it. -/
theorem mem_fragments {msgId : Nat} {bodyStart packet : Bytes} (nonempty : 0 < bodyStart.length)
    (cut : packet ∈ fragments msgId bodyStart) :
    ∃ fragStart, fragStart < bodyStart.length ∧
      packet = fragment msgId bodyStart fragStart := by
  obtain ⟨round, bounded, rfl⟩ := List.mem_map.mp cut
  have below : round ≤ (bodyStart.length - 1) / maxUdpMessageSize :=
    Nat.le_of_lt_succ (List.mem_range.mp bounded)
  have reached := (Nat.le_div_iff_mul_le (by decide)).mp below
  exact ⟨round * maxUdpMessageSize, by omega, rfl⟩

/-- A sound message is decoded to its type and data, and its meta data names no other port. -/
theorem decodePacket_sound {m : Outgoing} (sound : m.Sound) (sender : TransportAddress) :
    ∃ metaData stamp,
      decodePacket m.body = .ok { msgType := m.type, msg := m.data, metaData } ∧
        readMetaData sender metaData = .ok (sender, stamp) := by
  have decoded := decodePacket_body sound.fits sound.nonempty
  cases groups : m.groups with
  | none =>
      have plain : metaPointer m.data m.type m.metaData = none := by
        simp [metaPointer, metaData, groups]
      rw [plain] at decoded
      exact ⟨none, none, decoded, rfl⟩
  | some groups' =>
      have header : m.metaData = stampedMetaData 0 0 (groups'.map fun groupIdx => (groupIdx, 0)) := by
        rw [metaData, groups, Option.elim_some, multicastMetaData_eq]
      have few : (groups'.map fun groupIdx => (groupIdx, 0)).length < 2 ^ 32 := by
        have bounded := sound.metaData
        rw [header, length_stampedMetaData] at bounded
        omega
      have occupied : m.metaData ≠ [] := by
        rw [header]
        simp [stampedMetaData, encodeLE]
      have read := readMetaData_stamped sender 0 0 _ (by decide) (by decide) few
        (encodeLE 8 m.type.length ++ (m.type ++ (encodeLE 8 m.data.length ++ m.data)))
      have pointer : metaPointer m.data m.type m.metaData =
          some (m.metaData ++ (encodeLE 8 m.type.length ++ (m.type ++
            (encodeLE 8 m.data.length ++ m.data)))) := if_neg occupied
      rw [← header, ← pointer] at read
      exact ⟨_, _, decoded, read⟩

end Outgoing

namespace System

/-- A packet that a socket has put on the network. -/
def Genuine (s : System) (packet : Packet) : Prop :=
  ∃ m ∈ s.sent, m.src = packet.src ∧
    (packet.bytes = encodeLE 4 nonfragMagic ++ m.message.body ∨
      m.msgId ≠ 0 ∧ ∃ fragStart, fragStart < m.message.body.length ∧
        packet.bytes = fragment m.msgId m.message.body fragStart)

/-- A reassembly slot is empty, or holds the first bytes of a message of its sender. -/
def Slot (s : System) (src : TransportAddress) (info : FragInfo) : Prop :=
  info.msgId = 0 ∨ ∃ m ∈ s.sent, m.src = src ∧ m.msgId = info.msgId ∧
    info.data <+: m.message.body

/-- The invariant of the senders and the receiver, whether or not it is still up. -/
structure Reassembling (d : Deployment) (s : System) : Prop where
  sound : ∀ m ∈ s.sent, m.message.Sound
  counters : ∀ t, s.lastFragMsgId t < 2 ^ 64
  numbered : ∀ m ∈ s.sent, m.msgId ≤ s.lastFragMsgId (d.transport m.src)
  unique : ∀ m ∈ s.sent, ∀ m' ∈ s.sent, d.transport m.src = d.transport m'.src → m.msgId ≠ 0 →
    m.msgId = m'.msgId → m = m'
  packets : ∀ packet ∈ s.network, s.Genuine packet
  slots : ∀ src, s.Slot src (s.receiver.fragInfo src)
  held : ∀ held, s.receiver.reorderBuffer = some held →
    s.WasSent held.addr held.msgType held.message
  delivered : ∀ delivery ∈ s.delivered,
    s.WasSent delivery.sender delivery.msgType delivery.msg

section Steps

variable {d : Deployment} {s s' : System}

/-- What has been sent stays so. -/
theorem WasSent.mono (grown : ∀ m ∈ s.sent, m ∈ s'.sent) {src : TransportAddress}
    {type data : Bytes} (sent : s.WasSent src type data) : s'.WasSent src type data := by
  obtain ⟨m, member, matching⟩ := sent
  exact ⟨m, grown m member, matching⟩

/-- A packet of a message that has been sent stays one. -/
theorem Genuine.mono (grown : ∀ m ∈ s.sent, m ∈ s'.sent) {packet : Packet}
    (genuine : s.Genuine packet) : s'.Genuine packet := by
  obtain ⟨m, member, matching⟩ := genuine
  exact ⟨m, grown m member, matching⟩

/-- A buffer that holds a part of a message still does when more has been sent. -/
theorem Slot.mono (grown : ∀ m ∈ s.sent, m ∈ s'.sent) {src : TransportAddress} {info : FragInfo}
    (slot : s.Slot src info) : s'.Slot src info := by
  rcases slot with empty | ⟨m, member, matching⟩
  · exact .inl empty
  · exact .inr ⟨m, grown m member, matching⟩

/-- Before anything has happened nothing is being put together. -/
theorem reassembling_initial (d : Deployment) : Reassembling d {} where
  sound m sent := by cases sent
  counters t := by simp
  numbered m sent := by cases sent
  unique m sent := by cases sent
  packets packet sent := by cases sent
  slots src := .inl rfl
  held held kept := by cases kept
  delivered delivery done := by cases done

/-- A send numbers a fragmented message afresh. -/
theorem reassembling_send {src : TransportAddress} {m : Outgoing}
    (reassembling : Reassembling d s) (addressable : m.Addressable)
    (wraps : s.lastFragMsgId (d.transport src) + 1 < 2 ^ 64)
    (small : m.metaData.length < 2 ^ 32) : Reassembling d (s.send d src m) := by
  unfold System.send
  cases outcome : m.send (s.lastFragMsgId (d.transport src)) with
  | error fault => exact reassembling
  | ok result =>
      obtain ⟨last, packets⟩ := result
      obtain ⟨nonempty, kinds⟩ := Outgoing.send_cases outcome
      have sound : m.Sound := ⟨nonempty, addressable, small⟩
      have later : s.lastFragMsgId (d.transport src) ≤ last := by
        rcases kinds with ⟨-, rfl, -⟩ | ⟨-, rfl, -⟩ <;> omega
      have bounded : last < 2 ^ 64 := by
        rcases kinds with ⟨-, rfl, -⟩ | ⟨-, rfl, -⟩ <;> omega
      have fresh : m.fragmented = true → s.lastFragMsgId (d.transport src) < last := by
        intro cut
        rcases kinds with ⟨whole, -, -⟩ | ⟨-, rfl, -⟩
        · rw [cut] at whole
          cases whole
        · omega
      have grown : ∀ other ∈ s.sent, other ∈ s.sent ++
          [{ src, message := m, msgId := if m.fragmented then last else 0 }] :=
        fun _ member => List.mem_append_left _ member
      have newest : ∀ other ∈ s.sent, d.transport other.src = d.transport src →
          other.msgId ≠ 0 → other.msgId ≠ if m.fragmented then last else 0 := by
        intro other member same positive equal
        have below := reassembling.numbered other member
        rw [same] at below
        by_cases cut : m.fragmented = true
        · have above := fresh cut
          rw [cut, if_pos rfl] at equal
          omega
        · rw [if_neg cut] at equal
          exact positive equal
      constructor
      · intro other member
        rcases List.mem_append.mp member with old | new
        · exact reassembling.sound other old
        · obtain rfl := List.mem_singleton.mp new
          exact sound
      · intro t
        by_cases mine : t = d.transport src
        · subst mine
          simpa using bounded
        · simpa [mine] using reassembling.counters t
      · intro other member
        rcases List.mem_append.mp member with old | new
        · have below := reassembling.numbered other old
          by_cases mine : d.transport other.src = d.transport src
          · rw [mine] at below ⊢
            simpa using Nat.le_trans below later
          · simpa [mine] using below
        · obtain rfl := List.mem_singleton.mp new
          by_cases cut : m.fragmented = true <;> simp [cut]
      · intro first member second member' same positive equal
        rcases List.mem_append.mp member with old | new
        · rcases List.mem_append.mp member' with old' | new'
          · exact reassembling.unique first old second old' same positive equal
          · obtain rfl := List.mem_singleton.mp new'
            exact absurd equal (newest first old same positive)
        · obtain rfl := List.mem_singleton.mp new
          rcases List.mem_append.mp member' with old' | new'
          · exact absurd equal.symm (newest second old' same.symm (equal ▸ positive))
          · obtain rfl := List.mem_singleton.mp new'
            rfl
      · intro packet member
        rcases List.mem_append.mp member with old | new
        · exact (reassembling.packets packet old).mono grown
        · obtain ⟨bytes, produced, rfl⟩ := List.mem_map.mp new
          refine ⟨_, List.mem_append_right _ (List.mem_singleton.mpr rfl), rfl, ?_⟩
          rcases kinds with ⟨-, -, rfl⟩ | ⟨cut, -, rfl⟩
          · exact .inl (List.mem_singleton.mp produced)
          · have occupied : 0 < m.body.length := by
              simp only [Outgoing.body, length_body]
              omega
            have positive : last ≠ 0 := by
              have above := fresh cut
              omega
            rw [cut, if_pos rfl]
            exact .inr ⟨positive, Outgoing.mem_fragments occupied produced⟩
      · exact fun other => (reassembling.slots other).mono grown
      · exact fun held kept => (reassembling.held held kept).mono grown
      · exact fun delivery done => (reassembling.delivered delivery done).mono grown

/-- The next bytes of a message extend its first ones. -/
theorem chunk_extends {bodyStart data : Bytes} (started : data <+: bodyStart) :
    data ++ chunk bodyStart data.length <+: bodyStart := by
  obtain ⟨rest, rfl⟩ := started
  rw [chunk, List.drop_left]
  exact (List.prefix_append_right_inj data).mpr (List.take_prefix _ _)

/-- The slot that a message claims belongs to it. -/
theorem slot_claimed {m : Sent} {info : FragInfo} (reassembling : Reassembling d s)
    (slot : s.Slot m.src info) (member : m ∈ s.sent) (positive : m.msgId ≠ 0) :
    (info.claimed m.msgId).msgId = m.msgId ∧
      (info.claimed m.msgId).data <+: m.message.body := by
  unfold FragInfo.claimed
  split
  · rename_i same
    refine ⟨same.1, ?_⟩
    rcases slot with empty | ⟨m', member', src, id, started⟩
    · exact absurd (same.1.symm.trans empty) positive
    · -- the ids of one transport are unique, so the slot holds this very message
      obtain rfl := reassembling.unique m member m' member' (by rw [src]) positive
        (same.1.symm.trans id.symm)
      exact started
  · exact ⟨rfl, List.nil_prefix⟩

/-- What a fragment does that has not been overtaken: the slot stays one of its sender, and
a message comes out only when all of it is there. -/
theorem receiveFragment_genuine {m : Sent} {info : FragInfo} {fragStart : Nat}
    (reassembling : Reassembling d s) (slot : s.Slot m.src info) (member : m ∈ s.sent)
    (positive : m.msgId ≠ 0) (inBody : fragStart < m.message.body.length)
    (timely : info.overtook m.msgId = false) :
    ∃ info' decoded, receiveFragment info (fragmentTail m.msgId m.message.body fragStart) =
        .ok (info', decoded) ∧ s.Slot m.src info' ∧
      ∀ result, decoded = some result → decodePacket m.message.body = .ok result := by
  have sound := reassembling.sound m member
  have id : m.msgId < 2 ^ 64 :=
    Nat.lt_of_le_of_lt (reassembling.numbered m member) (reassembling.counters _)
  have small : m.message.body.length < 2 ^ 64 := by
    have total := sound.addressable
    simp only [Outgoing.Addressable] at total
    omega
  obtain ⟨owner, started⟩ := slot_claimed reassembling slot member positive
  rw [receiveFragment_fragmentTail info id small inBody, claim_eq, timely]
  simp only [Bool.false_eq_true, if_false, Except.bind]
  generalize info.claimed m.msgId = claimed at owner started
  have kept : s.Slot m.src claimed := .inr ⟨m, member, rfl, owner.symm, started⟩
  unfold FragInfo.extend
  by_cases aligned : fragStart = claimed.data.length
  swap
  · rw [if_pos aligned]
    exact ⟨claimed, none, rfl, kept, by simp⟩
  subst aligned
  have extended := chunk_extends started
  rw [if_neg (by simp)]
  by_cases complete : (claimed.data ++ chunk m.message.body claimed.data.length).length =
      m.message.body.length
  · rw [if_pos complete, extended.eq_of_length complete]
    obtain ⟨metaData, -, decoded, -⟩ := Outgoing.decodePacket_sound sound m.src
    rw [decoded]
    refine ⟨_, _, rfl, .inl rfl, fun result found => ?_⟩
    rw [Option.some.inj found]
  · rw [if_neg complete]
    exact ⟨_, none, rfl, .inr ⟨m, member, rfl, owner.symm, extended⟩, by simp⟩

/-- A late fragment is one that its sender's slot has overtaken. -/
theorem late_fragment {m : Sent} {packet : Packet} {fragStart : Nat} (id : m.msgId < 2 ^ 64)
    (src : m.src = packet.src)
    (bytes : packet.bytes = fragment m.msgId m.message.body fragStart) :
    s.late packet = (s.receiver.fragInfo m.src).overtook m.msgId := by
  have magicField := readLE_encodeLE 4 fragMagic
    (fragmentTail m.msgId m.message.body fragStart) (by decide)
  have idField := readLE_encodeLE 8 m.msgId
    (encodeLE 8 fragStart ++ (encodeLE 8 m.message.body.length ++
      chunk m.message.body fragStart)) (by simpa using id)
  rw [late, bytes, fragment_eq, magicField]
  simp only [fragmentTail, idField, src]
  rfl

/-- `ProcessPacket` up to the dispatch, on a genuine packet that is not late. -/
theorem assemble_genuine {packet : Packet} (reassembling : Reassembling d s)
    (genuine : s.Genuine packet) (timely : s.late packet = false) :
    ∃ r decoded, s.receiver.assemble packet.src packet.bytes = .ok (r, decoded) ∧
      r.reorderBuffer = s.receiver.reorderBuffer ∧ (∀ src, s.Slot src (r.fragInfo src)) ∧
      ∀ result, decoded = some result → ∃ m ∈ s.sent, m.src = packet.src ∧
        decodePacket m.message.body = .ok result := by
  obtain ⟨m, member, src, whole | ⟨positive, fragStart, inBody, cut⟩⟩ := genuine
  all_goals
    have sound := reassembling.sound m member
    have total := sound.addressable
    simp only [Outgoing.Addressable] at total
    have occupied : 0 < m.message.body.length := by
      simp only [Outgoing.body, length_body]
      omega
  · obtain ⟨metaData, -, decoded, -⟩ := Outgoing.decodePacket_sound sound packet.src
    rw [whole, assemble_nonfrag _ _ _ occupied (by omega), decoded]
    refine ⟨_, _, rfl, rfl, reassembling.slots, fun result found => ?_⟩
    exact ⟨m, member, src, by rw [decoded, Option.some.inj found]⟩
  · have id : m.msgId < 2 ^ 64 :=
      Nat.lt_of_le_of_lt (reassembling.numbered m member) (reassembling.counters _)
    rw [late_fragment id src cut] at timely
    obtain ⟨info, decoded, received, slot, result⟩ := receiveFragment_genuine reassembling
      (reassembling.slots m.src) member positive inBody timely
    have length : (fragmentTail m.msgId m.message.body fragStart).length =
        24 + min (m.message.body.length - fragStart) maxUdpMessageSize := by
      simp only [fragmentTail, List.length_append, length_encodeLE, length_chunk]
      omega
    rw [cut, fragment_eq, assemble_frag _ _ (by omega) (by rw [length]; omega), ← src, received]
    refine ⟨_, _, rfl, rfl, fun other => ?_, fun found present => ?_⟩
    · by_cases mine : other = m.src
      · subst mine
        simpa using slot
      · simpa [mine] using reassembling.slots other
    · exact ⟨m, member, rfl, result found present⟩

/-- Everything that a dispatch delivers is the message itself or the one held back. -/
theorem mem_dispatch {r : Receiver} {fd : Nat} {sender : TransportAddress}
    {type data : Bytes} {stamp : Option Multistamp} {fate : Fate} {delivery : Delivery}
    (done : delivery ∈ (r.dispatch d.sockets fd sender type data stamp fate).2) :
    delivery.sender = sender ∧ delivery.msgType = type ∧ delivery.msg = data ∨
      ∃ held, r.reorderBuffer = some held ∧ delivery.sender = held.addr ∧
        delivery.msgType = held.msgType ∧ delivery.msg = held.message := by
  have plain : ∀ {fd : Nat} {sender : TransportAddress} {type data : Bytes}
      {stamp : Option Multistamp}, delivery ∈ d.sockets.deliver fd sender type data stamp →
      delivery.sender = sender ∧ delivery.msgType = type ∧ delivery.msg = data := by
    intro fd sender type data stamp delivered
    unfold Sockets.deliver at delivered
    split at delivered
    · obtain ⟨replica, -, rfl⟩ := List.mem_map.mp delivered
      exact ⟨rfl, rfl, rfl⟩
    · obtain rfl := List.mem_singleton.mp delivered
      exact ⟨rfl, rfl, rfl⟩
  have released : delivery ∈ (r.release d.sockets fd sender type data stamp).2 →
      delivery.sender = sender ∧ delivery.msgType = type ∧ delivery.msg = data ∨
        ∃ held, r.reorderBuffer = some held ∧ delivery.sender = held.addr ∧
          delivery.msgType = held.msgType ∧ delivery.msg = held.message := by
    intro delivered
    unfold Receiver.release at delivered
    dsimp only at delivered
    split at delivered
    · exact .inl (plain delivered)
    · rename_i held kept
      rcases List.mem_append.mp delivered with direct | late
      · exact .inl (plain direct)
      · exact .inr ⟨held, kept, plain late⟩
  unfold Receiver.dispatch at done
  split at done
  · cases done
  · cases done
  · exact released done
  · exact released done

/-- What a dispatch keeps back is the message itself or the one that was there. -/
theorem held_dispatch {r : Receiver} {fd : Nat} {sender : TransportAddress}
    {type data : Bytes} {stamp : Option Multistamp} {fate : Fate} {held : Held}
    (kept : (r.dispatch d.sockets fd sender type data stamp fate).1.reorderBuffer = some held) :
    held.addr = sender ∧ held.msgType = type ∧ held.message = data ∨
      r.reorderBuffer = some held := by
  have released : (r.release d.sockets fd sender type data stamp).1.reorderBuffer ≠ some held := by
    unfold Receiver.release
    dsimp only
    split
    · rename_i empty
      simp [empty]
    · simp
  unfold Receiver.dispatch at kept
  split at kept
  · exact .inr kept
  · obtain rfl := Option.some.inj kept
    exact .inl ⟨rfl, rfl, rfl⟩
  · exact absurd kept released
  · exact absurd kept released

/-- A dispatch leaves the reassembly slots alone. -/
theorem fragInfo_dispatch (r : Receiver) (fd : Nat) (sender : TransportAddress)
    (type data : Bytes) (stamp : Option Multistamp) (fate : Fate) :
    (r.dispatch d.sockets fd sender type data stamp fate).1.fragInfo = r.fragInfo := by
  unfold Receiver.dispatch Receiver.release
  split <;> dsimp only <;> split <;> rfl

/-- A genuine packet that is not late is processed, and the invariant is kept. -/
theorem reassembling_receive {packet : Packet} (fd : Nat) (fate : Fate)
    (reassembling : Reassembling d s) (genuine : s.Genuine packet)
    (timely : s.late packet = false) :
    Reassembling d (s.receive d packet fd fate) ∧
      (s.receive d packet fd fate).fault = s.fault := by
  obtain ⟨r, decoded, assembled, buffer, slots, complete⟩ :=
    assemble_genuine reassembling genuine timely
  cases decoded with
  | none =>
      have processed : s.receiver.processPacket d.sockets fd packet.src packet.bytes fate =
          .ok (r, []) := by
        simp only [Receiver.processPacket, assembled, bind, Except.bind]
        rfl
      simp only [receive, processed, List.append_nil]
      obtain ⟨sound, counters, numbered, unique, packets, -, held, delivered⟩ := reassembling
      exact ⟨⟨sound, counters, numbered, unique, packets, slots,
        fun other kept => held other (buffer ▸ kept), delivered⟩, trivial⟩
  | some decoded =>
      obtain ⟨m, member, src, result⟩ := complete decoded rfl
      obtain ⟨metaData, stamp, expected, read⟩ :=
        Outgoing.decodePacket_sound (reassembling.sound m member) packet.src
      obtain rfl := Except.ok.inj (expected.symm.trans result)
      have sent : s.WasSent packet.src m.message.type m.message.data :=
        ⟨m, member, src, rfl, rfl⟩
      have processed : s.receiver.processPacket d.sockets fd packet.src packet.bytes fate =
          .ok (r.dispatch d.sockets fd packet.src m.message.type m.message.data stamp fate) := by
        simp only [Receiver.processPacket, assembled, bind, Except.bind, read]
        rfl
      simp only [receive, processed]
      obtain ⟨sound, counters, numbered, unique, packets, -, held, delivered⟩ := reassembling
      refine ⟨⟨sound, counters, numbered, unique, packets, ?_, ?_, ?_⟩, trivial⟩
      · intro other
        rw [fragInfo_dispatch]
        exact slots other
      · intro kept found
        rcases held_dispatch found with ⟨addr, type, data⟩ | earlier
        · rw [addr, type, data]
          exact sent
        · exact held kept (buffer ▸ earlier)
      · intro delivery done
        rcases List.mem_append.mp done with old | new
        · exact delivered delivery old
        · rcases mem_dispatch new with ⟨sender, type, data⟩ | ⟨kept, found, sender, type, data⟩
          · rw [sender, type, data]
            exact sent
          · rw [sender, type, data]
            exact held kept (buffer ▸ found)

/-- A late fragment fails the assertion that message ids only grow. -/
theorem receive_late {packet : Packet} {fd : Nat} {fate : Fate}
    (reassembling : Reassembling d s) (genuine : s.Genuine packet)
    (late : s.late packet = true) :
    s.receive d packet fd fate = { s with fault := some .assertion } := by
  obtain ⟨m, member, src, whole | ⟨positive, fragStart, inBody, cut⟩⟩ := genuine
  · have magicField := readLE_encodeLE 4 nonfragMagic m.message.body
      (by decide)
    simp only [System.late, whole, magicField] at late
    simp [nonfragMagic, fragMagic] at late
  · have total := (reassembling.sound m member).addressable
    simp only [Outgoing.Addressable] at total
    have id : m.msgId < 2 ^ 64 :=
      Nat.lt_of_le_of_lt (reassembling.numbered m member) (reassembling.counters _)
    rw [late_fragment id src cut] at late
    have refused : receiveFragment (s.receiver.fragInfo packet.src)
        (fragmentTail m.msgId m.message.body fragStart) = .error .assertion := by
      rw [receiveFragment_fragmentTail _ id (by omega) inBody, claim_eq, ← src, late]
      rfl
    have length : (fragmentTail m.msgId m.message.body fragStart).length =
        24 + min (m.message.body.length - fragStart) maxUdpMessageSize := by
      simp only [fragmentTail, List.length_append, length_encodeLE, length_chunk]
      omega
    have failed : s.receiver.processPacket d.sockets fd packet.src packet.bytes fate =
        .error .assertion := by
      simp only [Receiver.processPacket, cut, fragment_eq]
      rw [assemble_frag _ _ (by omega) (by rw [length]; omega), refused]
      rfl
    simp only [receive, failed]

end Steps

/-- The receiver stays up and the invariant holds along every timely run. -/
theorem invariant_reassembling (d : Deployment) :
    (system d).Invariant (Timely d) fun s => Reassembling d s ∧ s.fault = none where
  initial s start := by
    subst start
    exact ⟨reassembling_initial d, rfl⟩
  preserved {s action next} holds timely transition := by
    obtain ⟨reassembling, running⟩ := holds
    cases action with
    | send src m =>
        simp only [system, step] at transition
        split at transition
        · rename_i addressable
          obtain rfl := Option.some.inj transition
          refine ⟨reassembling_send reassembling addressable timely.1 timely.2, ?_⟩
          unfold System.send
          split
          · exact running
          · exact running
        · cases transition
    | deliver position fd fate =>
        simp only [system, step, running, Option.isSome_none, Bool.false_eq_true, if_false]
          at transition
        obtain ⟨packet, found, rfl⟩ := Option.map_eq_some_iff.mp transition
        have genuine := reassembling.packets packet (List.mem_of_getElem? found)
        obtain ⟨kept, same⟩ := reassembling_receive fd fate reassembling genuine
          (timely packet found)
        exact ⟨kept, same.trans running⟩

/-- In every run that delivers no late fragment and keeps ids and meta data within their fields,
`ProcessPacket` never goes wrong and every delivered message is one that its sender sent. -/
theorem robust_of_timely (d : Deployment) (s : System)
    (reachable : (system d).Reachable (Timely d) s) : s.Robust := by
  obtain ⟨reassembling, running⟩ := (invariant_reassembling d).of_reachable reachable
  exact ⟨running, reassembling.delivered⟩

/-- At the end of a timely run, the next delivery fails exactly if its fragment is late. -/
theorem fault_receive_iff_late (d : Deployment) {s : System}
    (reachable : (system d).Reachable (Timely d) s) {packet : Packet} (fd : Nat) (fate : Fate)
    (inNetwork : packet ∈ s.network) :
    (s.receive d packet fd fate).fault ≠ none ↔ s.late packet = true := by
  obtain ⟨reassembling, running⟩ := (invariant_reassembling d).of_reachable reachable
  have genuine := reassembling.packets packet inNetwork
  cases late : s.late packet with
  | true =>
      rw [receive_late reassembling genuine late]
      simp
  | false =>
      rw [(reassembling_receive fd fate reassembling genuine late).2, running]
      simp

/-! ## Two large messages, in order and out of order -/

/-- One process on each side, one socket at the receiver. -/
def pair : Deployment where
  transport _ := 0
  sockets := { receivers := fun _ => 0, multicast := fun _ => none }

/-- A socket of the sending process. -/
def origin : TransportAddress where
  host := 1
  port := 4000

/-- A message of `byte`s that takes two fragments. -/
def large (byte : UInt8) : Outgoing where
  data := List.replicate 9000 byte
  type := [1]

/-- Two large messages are sent, as packets 0 to 3, and then some packets arrive. -/
def arrivals (positions : List Nat) : List Action :=
  [.send origin (large 1), .send origin (large 2)] ++
    positions.map fun position => .deliver position 0 .deliver

set_option maxRecDepth 100000 in
/-- In order, the fragments of the first message deliver it. -/
theorem robust_inOrder : ∃ s : System, s.delivered.length = 1 ∧ s.Robust := by
  obtain ⟨s, reachable, complete⟩ :=
    (system pair).exists_reachable_of_run (Timely pair)
      (fun s => decide (s.delivered.length = 1)) (arrivals [0, 1]) rfl (by decide +kernel)
  exact ⟨s, of_decide_eq_true complete, robust_of_timely pair s reachable⟩

set_option maxRecDepth 100000 in
/-- The second message's first fragment overtakes that of the first message: the receiver
aborts. -/
theorem not_robust_overtaken :
    ¬ ∀ s, (system pair).Reachable TransitionSystem.unguarded s → s.Robust := by
  intro always
  obtain ⟨s, reachable, aborted⟩ :=
    (system pair).exists_reachable_of_run TransitionSystem.unguarded
      (fun s => decide (s.fault = some .assertion)) (arrivals [2, 0]) rfl (by decide +kernel)
  have running := (always s reachable).running
  rw [of_decide_eq_true aborted] at running
  cases running

end System

end PaxosBus.Udp

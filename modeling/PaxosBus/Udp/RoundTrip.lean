import PaxosBus.Udp.Malformed

/-!
# Sending and receiving one message

The packets that `_SendMessageInternal` produces for one message, given to
`ProcessPacket` in order, bring the message back. Two fields are too narrow for
that: the id of a fragmented message wraps around to zero, which marks an empty
slot, and the length of the meta data is cut to 32 bits.
-/

set_option autoImplicit false

namespace PaxosBus.Udp

open PaxosBus.Library

/-- A message for `_SendMessageInternal`, without meta data or with that of an ordered
multicast. `SerializeMessage` asserts that there is data, and its length is an `ssize_t`. -/
structure Parcel where
  data : Bytes
  type : Bytes
  header : Option Header
  nonempty : data ≠ []
  addressable : 4 + (body data type (header.elim [] Header.bytes)).length < 2 ^ 63

namespace Parcel

/-- The meta data. -/
def metaData (m : Parcel) : Bytes := m.header.elim [] Header.bytes

/-- The packet after the magic number. -/
def body (m : Parcel) : Bytes := Udp.body m.data m.type m.metaData

/-- What stands behind the meta data. -/
def tail (m : Parcel) : Bytes :=
  encodeLE 8 m.type.length ++ (m.type ++ (encodeLE 8 m.data.length ++ m.data))

/-- The sender that the receivers see. -/
def sender (m : Parcel) (addr : TransportAddress) : TransportAddress :=
  m.header.elim addr fun header => header.sender addr

/-- The stamp that the receivers see. -/
def stamp (m : Parcel) : Option Multistamp := m.header.map Header.stamp

/-- What stands where the receiver looks for the type and the data, behind as much meta data as
its field can tell, is the type and the data. -/
def Legible (m : Parcel) : Prop :=
  (m.metaData.length % 2 ^ 32 = 0 → m.metaData = []) ∧
    m.tail <+: (m.metaData ++ m.tail).drop (m.metaData.length % 2 ^ 32)

end Parcel

/-- The packets of one sender are assembled one after the other. -/
def Receiver.assembleAll (r : Receiver) (sender : TransportAddress) :
    List Bytes → Except Fault (Receiver × List Decoded)
  | [] => .ok (r, [])
  | packet :: packets => do
    let (r, decoded) ← r.assemble sender packet
    let (r, later) ← r.assembleAll sender packets
    return (r, decoded.toList ++ later)

/-- `ProcessPacket` runs on the packets of one sender. -/
def Receiver.processAll (r : Receiver) (sockets : Sockets) (fd : Nat) (sender : TransportAddress)
    (fate : Fate) : List Bytes → Except Fault (Receiver × List Delivery)
  | [] => .ok (r, [])
  | packet :: packets => do
    let (r, deliveries) ← r.processPacket sockets fd sender packet fate
    let (r, later) ← r.processAll sockets fd sender fate packets
    return (r, deliveries ++ later)

/-- The message comes back from its packets: it is decoded once, with its type and its data, the
pointer to its meta data is null if there is none and leads to it otherwise, the slot is empty
again, and the message is what is dispatched. -/
structure Receiver.Restores (r r' : Receiver) (sender : TransportAddress) (packets : List Bytes)
    (m : Parcel) (metaData : Option Bytes) : Prop where
  decoded : r.assembleAll sender packets =
    .ok (r', [{ msgType := m.type, msg := m.data, metaData }])
  null : metaData = none ↔ m.metaData = []
  pointer : ∀ ptr, metaData = some ptr → m.metaData <+: ptr
  empty : (r'.fragInfo sender).msgId = 0
  dispatched : ∀ sockets fd fate, r.processAll sockets fd sender fate packets =
    .ok (r'.dispatch sockets fd (m.sender sender) m.type m.data m.stamp fate)

/-- A message is sent, and any receiver whose slot for the sender is empty gets it back. -/
def Parcel.RoundTrip (m : Parcel) (lastFragMsgId : Nat) : Prop :=
  ∃ last packets, sendMessageInternal lastFragMsgId m.data m.type m.metaData =
      .ok (last, packets) ∧
    ∀ (r : Receiver) (sender : TransportAddress), (r.fragInfo sender).msgId = 0 →
      ∃ r' metaData, r.Restores r' sender packets m metaData

/-! ## The bytes of a message -/

namespace Parcel

variable {m : Parcel}

/-- The body begins with the length of its metadata. -/
theorem body_eq (m : Parcel) :
    m.body = encodeLE 4 m.metaData.length ++ (m.metaData ++ m.tail) := rfl

@[simp] theorem length_body (m : Parcel) :
    m.body.length = m.metaData.length + m.type.length + m.data.length + 20 :=
  Udp.length_body ..

/-- A body that can be built is small enough for its length. -/
theorem length_lt (m : Parcel) : 4 + m.body.length < 2 ^ 63 := m.addressable

/-- The length field of the meta data tells its length up to 32 bits. -/
theorem body_eq_mod (m : Parcel) : m.body =
    encodeLE 4 (m.metaData.length % 2 ^ 32) ++ (m.metaData ++ m.tail) := by
  have cut : encodeLE 4 (m.metaData.length % 2 ^ 32) = encodeLE 4 m.metaData.length :=
    encodeLE_mod 4 m.metaData.length
  rw [body_eq, cut]

/-- Meta data whose length fits its field is read as it is. -/
theorem legible_of_small (small : m.metaData.length < 2 ^ 32) : m.Legible := by
  unfold Legible
  rw [Nat.mod_eq_of_lt small, List.drop_left]
  constructor
  · exact List.eq_nil_of_length_eq_zero
  · exact List.prefix_rfl

/-- The fields that the receiver finds in a legible message. -/
theorem exists_body (legible : m.Legible) : ∃ b : Body, m.body = b.bytes ∧ b.Occupied ∧
    b.type = m.type ∧ b.data = m.data ∧ b.metaData ++ b.tail = m.metaData ++ m.tail ∧
    (b.metaData = [] ↔ m.metaData = []) := by
  obtain ⟨null, trailing, found⟩ := legible
  have total := m.length_lt
  rw [length_body] at total
  have below := Nat.mod_le m.metaData.length (2 ^ 32)
  have bounded := Nat.mod_lt m.metaData.length (show 0 < 2 ^ 32 by decide)
  have length : (m.metaData.take (m.metaData.length % 2 ^ 32)).length =
      m.metaData.length % 2 ^ 32 := by
    rw [List.length_take]
    omega
  let b : Body := ⟨m.metaData.take (m.metaData.length % 2 ^ 32), m.type, m.data, trailing,
    by omega, by omega, by rw [length]; exact bounded⟩
  have rest : b.tail = (m.metaData ++ m.tail).drop (m.metaData.length % 2 ^ 32) := by
    rw [← found]
    simp only [Body.tail, tail, List.append_assoc, b]
  have whole : b.metaData ++ b.tail = m.metaData ++ m.tail := by
    have taken : b.metaData = (m.metaData ++ m.tail).take (m.metaData.length % 2 ^ 32) :=
      (List.take_append_of_le_length below).symm
    rw [rest, taken, List.take_append_drop]
  refine ⟨b, ?_, ?_, rfl, rfl, whole, ?_⟩
  · rw [body_eq_mod, ← whole, Body.bytes]
    simp only [b, length]
  · simp [Body.Occupied, b, m.nonempty]
  · constructor
    · intro none
      have zero := congrArg List.length none
      simp only [b, length, List.length_nil] at zero
      exact null zero
    · intro none
      simp [b, none]

/-- Only a legible message is decoded to its type and data, with the right pointer. -/
theorem legible_of_decodePacket {metaData : Option Bytes}
    (decodes : decodePacket m.body = .ok { msgType := m.type, msg := m.data, metaData })
    (null : metaData = none → m.metaData = []) : m.Legible := by
  obtain ⟨b, bytes, -, decoded⟩ := Body.exists_of_decodePacket decodes
  obtain ⟨type, data, pointer⟩ := Decoded.mk.inj decoded
  rw [body_eq_mod, Body.bytes] at bytes
  have bounded := Nat.mod_lt m.metaData.length (show 0 < 2 ^ 32 by decide)
  obtain ⟨length, rest⟩ := encodeLE_append_inj (by simpa using bounded)
    (by simpa using b.fits.metaData) bytes
  constructor
  · intro zero
    have none : b.metaData = [] := List.eq_nil_of_length_eq_zero (length.symm.trans zero)
    rw [if_pos none] at pointer
    exact null pointer
  · rw [rest, length, List.drop_left, Body.tail, ← type, ← data]
    refine ⟨b.trailing, ?_⟩
    simp only [tail, List.append_assoc]

end Parcel

/-! ## One packet after the other -/

section Sequences

variable {r r' r'' : Receiver} {sender : TransportAddress} {packets : List Bytes}

/-- A last packet is assembled after the others. -/
theorem Receiver.assembleAll_concat {early : List Decoded} {decoded : Option Decoded}
    (packet : Bytes) (before : r.assembleAll sender packets = .ok (r', early))
    (last : r'.assemble sender packet = .ok (r'', decoded)) :
    r.assembleAll sender (packets ++ [packet]) = .ok (r'', early ++ decoded.toList) := by
  induction packets generalizing r early with
  | nil =>
      obtain ⟨rfl, rfl⟩ := Prod.mk.inj (Except.ok.inj before)
      simp only [List.nil_append, assembleAll, last, bind, Except.bind, pure, Except.pure,
        List.append_nil]
  | cons first packets inductionHypothesis =>
      rw [assembleAll] at before
      obtain ⟨⟨middle, head⟩, assembled, before⟩ := bind_eq_ok_iff.mp before
      obtain ⟨⟨final, tail⟩, rest, before⟩ := bind_eq_ok_iff.mp before
      obtain ⟨rfl, rfl⟩ := Prod.mk.inj (Except.ok.inj before)
      simp only [List.cons_append, assembleAll, assembled, bind, Except.bind,
        inductionHypothesis rest, pure, Except.pure, List.append_assoc]

/-- A last packet that fails ends everything. -/
theorem Receiver.assembleAll_concat_error {early : List Decoded} {fault : Fault}
    (packet : Bytes) (before : r.assembleAll sender packets = .ok (r', early))
    (last : r'.assemble sender packet = .error fault) :
    r.assembleAll sender (packets ++ [packet]) = .error fault := by
  induction packets generalizing r early with
  | nil =>
      obtain ⟨rfl, rfl⟩ := Prod.mk.inj (Except.ok.inj before)
      simp only [List.nil_append, assembleAll, last, bind, Except.bind]
  | cons first packets inductionHypothesis =>
      rw [assembleAll] at before
      obtain ⟨⟨middle, head⟩, assembled, before⟩ := bind_eq_ok_iff.mp before
      obtain ⟨⟨final, tail⟩, rest, before⟩ := bind_eq_ok_iff.mp before
      obtain ⟨rfl, rfl⟩ := Prod.mk.inj (Except.ok.inj before)
      simp only [List.cons_append, assembleAll, assembled, bind, Except.bind,
        inductionHypothesis rest]

/-- Packets that bring no message are processed silently, and the last one is processed in the
state that they leave. -/
theorem Receiver.processAll_concat {sockets : Sockets} {fd : Nat} {fate : Fate}
    {result : Receiver × List Delivery} (packet : Bytes)
    (before : r.assembleAll sender packets = .ok (r', []))
    (last : r'.processPacket sockets fd sender packet fate = .ok result) :
    r.processAll sockets fd sender fate (packets ++ [packet]) = .ok result := by
  induction packets generalizing r with
  | nil =>
      obtain ⟨rfl, -⟩ := Prod.mk.inj (Except.ok.inj before)
      simp only [List.nil_append, processAll, last, bind, Except.bind, pure, Except.pure,
        List.append_nil]
  | cons first packets inductionHypothesis =>
      rw [assembleAll] at before
      obtain ⟨⟨middle, head⟩, assembled, before⟩ := bind_eq_ok_iff.mp before
      obtain ⟨⟨final, tail⟩, rest, before⟩ := bind_eq_ok_iff.mp before
      obtain ⟨rfl, silent⟩ := Prod.mk.inj (Except.ok.inj before)
      obtain ⟨none, rfl⟩ := List.append_eq_nil_iff.mp silent
      have nothing : head = Option.none := by
        cases head with
        | none => rfl
        | some decoded => cases none
      subst nothing
      simp only [List.cons_append, processAll, drops_of_assemble assembled sockets fd fate, bind,
        Except.bind, inductionHypothesis rest, pure, Except.pure, List.nil_append]

end Sequences

/-! ## The fragments of a message -/

section Fragments

variable {r : Receiver} {sender : TransportAddress} {msgId : Nat} {bodyStart : Bytes}

/-- The fragment that starts at a position within the message. -/
def pieceAt {msgId : Nat} {bodyStart : Bytes} {fragStart : Nat} (id : msgId < 2 ^ 64)
    (small : bodyStart.length < 2 ^ 64) (within : fragStart < bodyStart.length) : Piece where
  msgId := msgId
  fragStart := fragStart
  msgLen := bodyStart.length
  payload := chunk bodyStart fragStart
  id := id
  start := Nat.lt_trans within small
  len := small

/-- The fragment at a position is the packet of the piece there. -/
theorem packet_pieceAt {fragStart : Nat} (id : msgId < 2 ^ 64)
    (small : bodyStart.length < 2 ^ 64) (within : fragStart < bodyStart.length) :
    (pieceAt id small within).packet = fragment msgId bodyStart fragStart := rfl

/-- The piece at a position is well formed. -/
theorem wellFormed_pieceAt {fragStart : Nat} (id : msgId < 2 ^ 64)
    (small : bodyStart.length < 2 ^ 64) (within : fragStart < bodyStart.length) :
    (pieceAt id small within).WellFormed where
  within := within
  cut := length_chunk ..

/-- The slot holds so many whole fragments of the message, or is free for its first one. -/
structure Gathered (info : FragInfo) (msgId : Nat) (bodyStart : Bytes) (rounds : Nat) : Prop where
  timely : info.overtook msgId = false
  data : (info.claimed msgId).data = bodyStart.take (rounds * maxUdpMessageSize)

/-- An empty slot is free for the first fragment. -/
theorem gathered_zero {info : FragInfo} (empty : info.msgId = 0) :
    Gathered info msgId bodyStart 0 := by
  constructor
  · simp [FragInfo.overtook, empty]
  · rw [FragInfo.claimed, if_neg]
    · simp
    · rintro ⟨same, positive⟩
      exact positive (same.symm.trans empty)

/-- The next chunk continues the bytes that are there. -/
theorem take_append_chunk (bodyStart : Bytes) (rounds : Nat) :
    bodyStart.take (rounds * maxUdpMessageSize) ++ chunk bodyStart (rounds * maxUdpMessageSize) =
      bodyStart.take ((rounds + 1) * maxUdpMessageSize) := by
  have cut : min (bodyStart.length - rounds * maxUdpMessageSize) maxUdpMessageSize =
      min maxUdpMessageSize (bodyStart.drop (rounds * maxUdpMessageSize)).length := by
    rw [List.length_drop, Nat.min_comm]
  rw [chunk, cut, ← List.take_eq_take_min, Nat.succ_mul, List.take_add]

/-- The slot takes the next fragment; the last one completes the message. -/
theorem accept_gathered {info : FragInfo} {rounds : Nat} (id : msgId < 2 ^ 64)
    (small : bodyStart.length < 2 ^ 64)
    (within : rounds * maxUdpMessageSize < bodyStart.length)
    (gathered : Gathered info msgId bodyStart rounds) :
    info.accept (pieceAt id small within) =
      if bodyStart.length ≤ (rounds + 1) * maxUdpMessageSize then
        ({ msgId := 0, data := [] }, some bodyStart)
      else ({ msgId, data := bodyStart.take ((rounds + 1) * maxUdpMessageSize) }, none) := by
  obtain ⟨timely, data⟩ := gathered
  have held : (info.claimed msgId).data.length = rounds * maxUdpMessageSize := by
    rw [data, List.length_take_of_le (Nat.le_of_lt within)]
  have own : (info.claimed msgId).msgId = msgId := by
    unfold FragInfo.claimed
    split
    · rename_i same
      exact same.1
    · rfl
  have extended : (info.claimed msgId).data ++ chunk bodyStart (rounds * maxUdpMessageSize) =
      bodyStart.take ((rounds + 1) * maxUdpMessageSize) := by
    rw [data, take_append_chunk]
  simp only [FragInfo.accept, pieceAt, timely, Bool.false_eq_true, if_false, held, ne_eq,
    not_true_eq_false, extended, List.length_take, own]
  by_cases last : bodyStart.length ≤ (rounds + 1) * maxUdpMessageSize
  · rw [if_pos (Nat.min_eq_right last), if_pos last, List.take_of_length_le last]
  · rw [if_neg (by omega), if_neg last]

/-- A fragment goes to the slot. -/
theorem assemble_fragment {fragStart : Nat} (id : msgId < 2 ^ 64) (small : bodyStart.length < 2 ^ 64)
    (within : fragStart < bodyStart.length)
    (timely : (r.fragInfo sender).overtook msgId = false) :
    r.assemble sender (fragment msgId bodyStart fragStart) =
      match (r.fragInfo sender).accept (pieceAt id small within) with
      | (slot, none) => .ok (r.withSlot sender slot, none)
      | (slot, some complete) =>
        (decodePacket complete).map fun decoded => (r.withSlot sender slot, some decoded) := by
  have length : (pieceAt id small within).packet.length < 2 ^ 63 := by
    rw [packet_pieceAt, fragment_eq]
    simp only [fragmentTail, List.length_append, length_encodeLE, length_chunk, maxUdpMessageSize]
    omega
  rw [← packet_pieceAt id small within]
  exact assemble_measured length (wellFormed_pieceAt id small within).measured timely

/-- Once a fragment of a message with an id is in the slot, the message holds it. -/
theorem gathered_succ (rounds : Nat) (named : msgId ≠ 0) :
    Gathered { msgId, data := bodyStart.take (rounds * maxUdpMessageSize) } msgId bodyStart
      rounds := by
  constructor
  · simp [FragInfo.overtook]
  · rw [FragInfo.claimed, if_pos ⟨rfl, named⟩]

/-- The fragments of a message up to a round. -/
def fragmentsUpTo (msgId : Nat) (bodyStart : Bytes) (rounds : Nat) : List Bytes :=
  (List.range rounds).map fun round => fragment msgId bodyStart (round * maxUdpMessageSize)

/-- One round more sends one fragment more. -/
theorem fragmentsUpTo_succ (msgId : Nat) (bodyStart : Bytes) (rounds : Nat) :
    fragmentsUpTo msgId bodyStart (rounds + 1) = fragmentsUpTo msgId bodyStart rounds ++
      [fragment msgId bodyStart (rounds * maxUdpMessageSize)] := by
  rw [fragmentsUpTo, List.range_succ, List.map_append]
  rfl

/-- After any number of fragments but the last, the slot holds what they carried. -/
theorem assembleAll_fragmentsUpTo (id : msgId < 2 ^ 64) (small : bodyStart.length < 2 ^ 64)
    (empty : (r.fragInfo sender).msgId = 0) {rounds : Nat}
    (within : rounds * maxUdpMessageSize < bodyStart.length) (named : rounds = 0 ∨ msgId ≠ 0) :
    ∃ info, Gathered info msgId bodyStart rounds ∧
      r.assembleAll sender (fragmentsUpTo msgId bodyStart rounds) =
        .ok (r.withSlot sender info, []) := by
  induction rounds with
  | zero =>
      refine ⟨r.fragInfo sender, gathered_zero empty, ?_⟩
      rw [Receiver.withSlot_self]
      rfl
  | succ rounds inductionHypothesis =>
      have identified : msgId ≠ 0 := named.resolve_left (Nat.succ_ne_zero rounds)
      have earlier : rounds * maxUdpMessageSize < bodyStart.length := by
        rw [Nat.succ_mul] at within
        omega
      obtain ⟨info, gathered, assembled⟩ := inductionHypothesis earlier (.inr identified)
      refine ⟨_, gathered_succ (rounds + 1) identified, ?_⟩
      have next := @assemble_fragment (r.withSlot sender info) sender msgId bodyStart
        (rounds * maxUdpMessageSize) id small earlier (by simpa using gathered.timely)
      rw [Receiver.fragInfo_withSlot, accept_gathered id small earlier gathered,
        if_neg (by omega)] at next
      rw [fragmentsUpTo_succ]
      simpa using Receiver.assembleAll_concat _ assembled next

/-- Without an id, each fragment finds the slot empty, and the first one is not the whole
message. -/
theorem assembleAll_unnamed (small : bodyStart.length < 2 ^ 64)
    (large : maxUdpMessageSize < bodyStart.length) (empty : (r.fragInfo sender).msgId = 0)
    {rounds : Nat} (within : rounds * maxUdpMessageSize < bodyStart.length + maxUdpMessageSize) :
    ∃ info : FragInfo, info.msgId = 0 ∧
      r.assembleAll sender (fragmentsUpTo 0 bodyStart rounds) =
        .ok (r.withSlot sender info, []) := by
  have id : 0 < 2 ^ 64 := by decide
  induction rounds with
  | zero =>
      refine ⟨r.fragInfo sender, empty, ?_⟩
      rw [Receiver.withSlot_self]
      rfl
  | succ rounds inductionHypothesis =>
      rw [Nat.succ_mul] at within
      obtain ⟨info, unnamed, assembled⟩ := inductionHypothesis (by omega)
      have inBody : rounds * maxUdpMessageSize < bodyStart.length := by omega
      have timely : info.overtook 0 = false := by simp [FragInfo.overtook, unnamed]
      have fresh : info.claimed 0 = { msgId := 0, data := [] } := by simp [FragInfo.claimed]
      obtain ⟨slot, kept, accepted⟩ : ∃ slot : FragInfo, slot.msgId = 0 ∧
          info.accept (pieceAt id small inBody) = (slot, none) := by
        simp only [FragInfo.accept, pieceAt, timely, Bool.false_eq_true, if_false, fresh,
          List.length_nil, List.nil_append, length_chunk]
        by_cases first : rounds * maxUdpMessageSize = 0
        · rw [if_neg (not_not.mpr first), first, if_neg (by omega)]
          exact ⟨_, rfl, rfl⟩
        · rw [if_pos first]
          exact ⟨_, rfl, rfl⟩
      refine ⟨slot, kept, ?_⟩
      have next := @assemble_fragment (r.withSlot sender info) sender 0 bodyStart
        (rounds * maxUdpMessageSize) id small inBody (by simpa using timely)
      rw [Receiver.fragInfo_withSlot, accepted] at next
      rw [fragmentsUpTo_succ]
      simpa using Receiver.assembleAll_concat _ assembled next

end Fragments

/-! ## Exactly when a message comes back -/

namespace Parcel

variable {m : Parcel} {r r' r'' : Receiver} {sender : TransportAddress} {packets : List Bytes}
  {packet : Bytes}

/-- The meta data is read as what the sequencer or the sender put into it. -/
theorem readMetaData_pointer (m : Parcel) (addr : TransportAddress) :
    readMetaData addr (if m.metaData = [] then none else some (m.metaData ++ m.tail)) =
      .ok (m.sender addr, m.stamp) := by
  unfold metaData sender stamp
  cases m.header with
  | none => rfl
  | some header =>
      simp only [Option.elim_some]
      exact (congrArg (readMetaData addr) (if_neg header.bytes_ne_nil)).trans
        (header.readMetaData_bytes addr m.tail)

/-- A legible message comes back from its last packet. -/
theorem restores_of_legible (legible : m.Legible)
    (before : r.assembleAll sender packets = .ok (r', []))
    (last : r'.assemble sender packet =
      (decodePacket m.body).map fun decoded => (r'', some decoded))
    (empty : (r''.fragInfo sender).msgId = 0) :
    ∃ metaData, r.Restores r'' sender (packets ++ [packet]) m metaData := by
  obtain ⟨b, bytes, occupied, type, data, whole, null⟩ := exists_body legible
  have found : b.decoded =
      ⟨m.type, m.data, if m.metaData = [] then none else some (m.metaData ++ m.tail)⟩ := by
    simp only [Body.decoded, type, data, null, whole]
  rw [bytes, b.decodePacket_bytes, if_pos occupied, found] at last
  refine ⟨if m.metaData = [] then none else some (m.metaData ++ m.tail), ?_, ?_, ?_, empty, ?_⟩
  · simpa using Receiver.assembleAll_concat packet before last
  · simp
  · intro ptr pointer
    by_cases none : m.metaData = []
    · rw [none]
      exact List.nil_prefix
    · rw [if_neg none] at pointer
      rw [← Option.some.inj pointer]
      exact List.prefix_append ..
  · intro sockets fd fate
    apply Receiver.processAll_concat packet before
    rw [Receiver.processPacket_of_assemble last, m.readMetaData_pointer]
    rfl

/-- A message that comes back from its last packet is legible. -/
theorem legible_of_restores {final : Receiver} {metaData : Option Bytes}
    (before : r.assembleAll sender packets = .ok (r', []))
    (last : r'.assemble sender packet =
      (decodePacket m.body).map fun decoded => (r'', some decoded))
    (restores : r.Restores final sender (packets ++ [packet]) m metaData) : m.Legible := by
  have back := restores.decoded
  cases decoding : decodePacket m.body with
  | error fault =>
      rw [decoding] at last
      rw [Receiver.assembleAll_concat_error packet before last] at back
      cases back
  | ok decoded =>
      rw [decoding] at last
      rw [Receiver.assembleAll_concat packet before last] at back
      obtain ⟨-, same⟩ := Prod.mk.inj (Except.ok.inj back)
      obtain rfl := List.head_eq_of_cons_eq same
      exact legible_of_decodePacket decoding restores.null.mp

/-- What is sent: one packet, or fragments under the next id. -/
theorem sendMessageInternal_eq (m : Parcel) (lastFragMsgId : Nat) :
    sendMessageInternal lastFragMsgId m.data m.type m.metaData =
      if 4 + m.body.length ≤ maxUdpMessageSize then
        .ok (lastFragMsgId, [encodeLE 4 nonfragMagic ++ m.body])
      else
        .ok ((lastFragMsgId + 1) % 2 ^ 64, fragmentsUpTo ((lastFragMsgId + 1) % 2 ^ 64) m.body
          ((m.body.length - 1) / maxUdpMessageSize + 1)) := by
  simp only [sendMessageInternal, serializeMessage_eq, if_neg m.nonempty, bind, Except.bind,
    List.length_append, length_encodeLE]
  have dropped : (encodeLE 4 nonfragMagic ++ m.body).drop 4 = m.body :=
    List.drop_left' (length_encodeLE 4 _)
  change (if 4 + m.body.length ≤ maxUdpMessageSize then _ else _) = _
  split
  · rfl
  · change Except.ok (_, fragments _ ((encodeLE 4 nonfragMagic ++ m.body).drop 4)) = _
    rw [dropped]
    rfl

/-- The last fragment completes the message, if it has an id or is the only one. -/
theorem assemble_lastFragment {msgId : Nat} (id : msgId < 2 ^ 64)
    (named : m.body.length ≤ maxUdpMessageSize ∨ msgId ≠ 0)
    (empty : (r.fragInfo sender).msgId = 0) :
    ∃ r', r.assembleAll sender
          (fragmentsUpTo msgId m.body ((m.body.length - 1) / maxUdpMessageSize)) = .ok (r', []) ∧
      r'.assemble sender (fragment msgId m.body
          ((m.body.length - 1) / maxUdpMessageSize * maxUdpMessageSize)) =
        (decodePacket m.body).map fun decoded => (r.withSlot sender {}, some decoded) := by
  have total := m.length_lt
  have small : m.body.length < 2 ^ 64 := by omega
  have positive : 0 < m.body.length := by
    rw [length_body]
    omega
  generalize rounds : (m.body.length - 1) / maxUdpMessageSize = count
  have below : count * maxUdpMessageSize ≤ m.body.length - 1 := by
    rw [← rounds]
    exact Nat.div_mul_le_self ..
  have above : m.body.length - 1 < (count + 1) * maxUdpMessageSize := by
    rw [← rounds]
    exact Nat.lt_mul_of_div_lt (Nat.lt_succ_self _) (by decide)
  have within : count * maxUdpMessageSize < m.body.length := by omega
  have single : count = 0 ∨ msgId ≠ 0 := by
    rcases named with short | identified
    · left
      rw [← rounds]
      exact Nat.div_eq_of_lt (by omega)
    · exact .inr identified
  obtain ⟨info, gathered, assembled⟩ := assembleAll_fragmentsUpTo id small empty within single
  refine ⟨r.withSlot sender info, assembled, ?_⟩
  have last := @assemble_fragment (r.withSlot sender info) sender msgId m.body
    (count * maxUdpMessageSize) id small within (by simpa using gathered.timely)
  rw [Receiver.fragInfo_withSlot, accept_gathered id small within gathered,
    if_pos (by omega)] at last
  simpa using last

/-- Sent as one packet, the message is assembled at once. -/
theorem assemble_packet (m : Parcel) (r : Receiver) (sender : TransportAddress) :
    r.assemble sender (encodeLE 4 nonfragMagic ++ m.body) =
      (decodePacket m.body).map fun decoded => (r, some decoded) := by
  have total := m.length_lt
  apply assemble_nonfrag
  · rw [length_body]
    omega
  · omega

/-- A legible message comes back, unless it is fragmented without an id. -/
theorem roundTrip_of_legible {lastFragMsgId : Nat} (legible : m.Legible)
    (named : m.body.length ≤ maxUdpMessageSize ∨ (lastFragMsgId + 1) % 2 ^ 64 ≠ 0) :
    m.RoundTrip lastFragMsgId := by
  unfold RoundTrip
  rw [sendMessageInternal_eq]
  by_cases whole : 4 + m.body.length ≤ maxUdpMessageSize
  · rw [if_pos whole]
    refine ⟨_, _, rfl, fun r sender empty => ⟨r, ?_⟩⟩
    exact @restores_of_legible m r r r sender [] _ legible rfl (m.assemble_packet r sender) empty
  · rw [if_neg whole]
    refine ⟨_, _, rfl, fun r sender empty => ⟨r.withSlot sender {}, ?_⟩⟩
    obtain ⟨r', before, last⟩ :=
      assemble_lastFragment (Nat.mod_lt _ (by decide)) named empty
    rw [fragmentsUpTo_succ]
    exact restores_of_legible legible before last (by simp)

/-- A message that comes back is legible, and it was not fragmented without an id. -/
theorem legible_of_roundTrip {lastFragMsgId : Nat} (back : m.RoundTrip lastFragMsgId) :
    m.Legible ∧ (m.body.length ≤ maxUdpMessageSize ∨ (lastFragMsgId + 1) % 2 ^ 64 ≠ 0) := by
  obtain ⟨last, packets, sent, received⟩ := back
  obtain ⟨r', metaData, restores⟩ := received {} { host := 0, port := 0 } rfl
  rw [sendMessageInternal_eq] at sent
  by_cases whole : 4 + m.body.length ≤ maxUdpMessageSize
  · rw [if_pos whole] at sent
    obtain ⟨-, rfl⟩ := Prod.mk.inj (Except.ok.inj sent)
    constructor
    · exact @legible_of_restores m {} {} {} _ [] _ _ _ rfl (m.assemble_packet {} _) restores
    · left
      omega
  · rw [if_neg whole] at sent
    obtain ⟨-, rfl⟩ := Prod.mk.inj (Except.ok.inj sent)
    by_cases named : m.body.length ≤ maxUdpMessageSize ∨ (lastFragMsgId + 1) % 2 ^ 64 ≠ 0
    · obtain ⟨r'', before, completed⟩ := @assemble_lastFragment m {} { host := 0, port := 0 }
        ((lastFragMsgId + 1) % 2 ^ 64) (Nat.mod_lt _ (by decide)) named rfl
      rw [fragmentsUpTo_succ] at restores
      exact ⟨legible_of_restores before completed restores, named⟩
    · -- every fragment finds the slot empty, so no message comes of them
      exfalso
      obtain ⟨large, unnamed⟩ := not_or.mp named
      have total := m.length_lt
      have below := Nat.div_mul_le_self (m.body.length - 1) maxUdpMessageSize
      have bounded : ((m.body.length - 1) / maxUdpMessageSize + 1) * maxUdpMessageSize <
          m.body.length + maxUdpMessageSize := by
        rw [Nat.succ_mul]
        omega
      obtain ⟨info, -, assembled⟩ := @assembleAll_unnamed {} { host := 0, port := 0 } m.body
        (by omega) (by omega) rfl _ bounded
      have decoded := restores.decoded
      rw [not_not.mp unnamed, assembled] at decoded
      cases (Prod.mk.inj (Except.ok.inj decoded)).2

/-- A message of any size comes back from the packets that its sender produces exactly if it is
legible, as every message with less than 2^32 bytes of meta data is, and it is not cut into
several fragments under an id that has wrapped around to zero. -/
theorem roundTrip_iff (m : Parcel) (lastFragMsgId : Nat) :
    m.RoundTrip lastFragMsgId ↔
      m.Legible ∧ (m.body.length ≤ maxUdpMessageSize ∨ (lastFragMsgId + 1) % 2 ^ 64 ≠ 0) := by
  constructor
  · exact legible_of_roundTrip
  · rintro ⟨legible, named⟩
    exact roundTrip_of_legible legible named

/-! ## A message to very many groups -/

theorem zero_lt_port : 0 < 2 ^ 16 := by decide

theorem zero_lt_session : 0 < 2 ^ 64 := by decide

/-- A header for so many groups that its length takes 33 bits. -/
def crowdedHeader (entries : List (Nat × Nat)) (many : entries.length = 357913941) : Header where
  udpSrc := 0
  sessnum := 0
  entries := entries
  padding := []
  port := zero_lt_port
  session := zero_lt_session
  count := by
    rw [many]
    decide

/-- An ordered multicast to 357913941 groups. -/
def crowded (entries : List (Nat × Nat)) (many : entries.length = 357913941) : Parcel where
  data := [2]
  type := [1]
  header := some (crowdedHeader entries many)
  nonempty := by simp
  addressable := by
    simp only [Udp.length_body, Option.elim_some, Header.bytes, List.length_append,
      length_stampedMetaData, crowdedHeader, many, List.length_nil, List.length_singleton]
    omega

/-- Of a header for so many groups, the receiver skips ten bytes. -/
theorem drop_bytes_crowded {h : Header} (many : h.entries.length = 357913941)
    (unpadded : h.padding = []) (rest : Bytes) :
    ∃ rest', (h.bytes ++ rest).drop (h.bytes.length % 2 ^ 32) =
      encodeLE 4 357913941 ++ rest' := by
  have offset : h.bytes.length % 2 ^ 32 = 10 := by
    rw [Header.bytes, unpadded, List.append_nil, length_stampedMetaData, many]
    rfl
  have skipped : (encodeLE 2 h.udpSrc ++ encodeLE 8 h.sessnum).length = 10 := by simp
  rw [offset, Header.bytes, stampedMetaData, many]
  simp only [List.append_assoc]
  rw [← List.append_assoc, List.drop_left' skipped]
  exact ⟨_, rfl⟩

/-- The receiver takes ten bytes for the meta data and the number of groups for the type. -/
theorem not_roundTrip_crowded : ¬ ∀ (m : Parcel) (lastFragMsgId : Nat),
    m.RoundTrip lastFragMsgId := by
  intro always
  obtain ⟨entries, many⟩ : ∃ entries : List (Nat × Nat), entries.length = 357913941 :=
    ⟨List.replicate 357913941 (0, 0), List.length_replicate⟩
  obtain ⟨⟨-, found⟩, -⟩ := legible_of_roundTrip (always (crowded entries many) 0)
  obtain ⟨rest, skipped⟩ := @drop_bytes_crowded (crowdedHeader entries many) many rfl
    (crowded entries many).tail
  have moved : (crowded entries many).tail <+: encodeLE 4 357913941 ++ rest := skipped ▸ found
  obtain ⟨trailing, same⟩ := moved
  have first := congrArg List.head? same
  simp [tail, crowded, encodeLE] at first

end Parcel

end PaxosBus.Udp

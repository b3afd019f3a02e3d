import PaxosBus.Udp.Reassembly

/-!
# Well-formed packets

A packet is well formed when its magic number is right, all of its length fields
stay within it and the group count stays within the meta data. Structures hold
the fields together with these bounds. Reading succeeds on the bytes of such a
structure and on nothing else, apart from a message with nothing behind its last
length field, which fails an assertion, and from meta data that is too short for
the groups it announces, which is read past its end.
-/

set_option autoImplicit false

namespace PaxosBus.Udp

open Std PaxosBus.Library

/-! ## Inverting a read -/

/-- A sequence succeeds if both of its parts do. -/
theorem bind_eq_ok_iff {α β : Type} {first : Except Fault α} {next : α → Except Fault β}
    {result : β} :
    (first >>= next) = .ok result ↔ ∃ value, first = .ok value ∧ next value = .ok result := by
  cases first with
  | error fault => simp [bind, Except.bind]
  | ok value => simp [bind, Except.bind]

/-- A read inside the packet gives what is there. -/
theorem inside_eq_ok_iff {α : Type} {read : Option α} {value : α} :
    inside read = .ok value ↔ read = some value := by
  cases read <;> simp [inside]

/-! ## Messages -/

/-- A packet after its magic number, cut at its length fields. Something may stand behind the
data. -/
structure Body where
  metaData : Bytes
  type : Bytes
  data : Bytes
  trailing : Bytes
  fits : Fits data type metaData

namespace Body

/-- What stands behind the meta data. -/
def tail (b : Body) : Bytes :=
  encodeLE 8 b.type.length ++ (b.type ++ (encodeLE 8 b.data.length ++ (b.data ++ b.trailing)))

/-- The packet without its magic number. -/
def bytes (b : Body) : Bytes := encodeLE 4 b.metaData.length ++ (b.metaData ++ b.tail)

/-- Some byte stands behind the length field of the data. -/
def Occupied (b : Body) : Prop := b.data ++ b.trailing ≠ []

instance (b : Body) : Decidable b.Occupied := inferInstanceAs (Decidable (_ ≠ _))

/-- What `DecodePacket` finds. -/
def decoded (b : Body) : Decoded where
  msgType := b.type
  msg := b.data
  metaData := if b.metaData = [] then none else some (b.metaData ++ b.tail)

/-- How many bytes follow the metadata. -/
@[simp] theorem length_tail (b : Body) :
    b.tail.length = b.type.length + b.data.length + b.trailing.length + 16 := by
  simp only [tail, List.length_append, length_encodeLE]
  omega

/-- How many bytes a packet that is not a fragment has. -/
@[simp] theorem length_bytes (b : Body) : b.bytes.length =
    b.metaData.length + b.type.length + b.data.length + b.trailing.length + 20 := by
  simp only [bytes, List.length_append, length_encodeLE, length_tail]
  omega

/-- Decoding finds the fields, if there is something behind the last length field. -/
theorem decodePacket_bytes (b : Body) :
    decodePacket b.bytes = if b.Occupied then .ok b.decoded else .error .assertion := by
  have metaField := readLE_encodeLE 4 b.metaData.length (b.metaData ++ b.tail)
    (by simpa using b.fits.metaData)
  have skipped := @readBytes_append b.metaData.length b.metaData b.tail rfl
  have typeField := readLE_encodeLE 8 b.type.length
    (b.type ++ (encodeLE 8 b.data.length ++ (b.data ++ b.trailing))) (by simpa using b.fits.type)
  have dataField := readLE_encodeLE 8 b.data.length (b.data ++ b.trailing)
    (by simpa using b.fits.data)
  have pointer : (if b.metaData.length > 0 then some (b.metaData ++ b.tail) else none) =
      b.decoded.metaData := by
    cases empty : b.metaData <;> simp [decoded, empty]
  unfold decodePacket bytes
  simp only [metaField, inside, bind, Except.bind, skipped, pointer]
  simp only [tail, typeField]
  rw [assert_true (by simp only [List.length_append, length_encodeLE]; omega)]
  simp only
  rw [assert_true (by simp only [List.length_append, length_encodeLE]; omega)]
  simp only [readBytes_append _ rfl, dataField]
  by_cases occupied : b.Occupied
  · rw [assert_true (List.length_pos_iff.mpr occupied), if_pos occupied]
    simp only
    rw [assert_true (by simp)]
    rfl
  · have nothing : b.data ++ b.trailing = [] := not_not.mp occupied
    rw [assert_false (by simp [nothing]), if_neg occupied]

/-- Decoding succeeds only on the bytes of some fields. -/
theorem exists_of_decodePacket {buf : Bytes} {result : Decoded}
    (found : decodePacket buf = .ok result) :
    ∃ b : Body, buf = b.bytes ∧ b.Occupied ∧ result = b.decoded := by
  have read := found
  unfold decodePacket at read
  obtain ⟨⟨metaLen, afterLen⟩, metaField, read⟩ := bind_eq_ok_iff.mp read
  obtain ⟨⟨metaData, afterMeta⟩, skipped, read⟩ := bind_eq_ok_iff.mp read
  obtain ⟨⟨typeLen, afterTypeLen⟩, typeField, read⟩ := bind_eq_ok_iff.mp read
  obtain ⟨-, -, read⟩ := bind_eq_ok_iff.mp read
  obtain ⟨-, -, read⟩ := bind_eq_ok_iff.mp read
  obtain ⟨⟨type, afterType⟩, typed, read⟩ := bind_eq_ok_iff.mp read
  obtain ⟨⟨dataLen, afterDataLen⟩, dataField, read⟩ := bind_eq_ok_iff.mp read
  obtain ⟨-, -, read⟩ := bind_eq_ok_iff.mp read
  obtain ⟨-, -, read⟩ := bind_eq_ok_iff.mp read
  obtain ⟨⟨data, trailing⟩, taken, -⟩ := bind_eq_ok_iff.mp read
  obtain ⟨rfl, metaFits⟩ := readLE_eq_some_iff.mp (inside_eq_ok_iff.mp metaField)
  obtain ⟨rfl, rfl⟩ := readBytes_eq_some_iff.mp (inside_eq_ok_iff.mp skipped)
  obtain ⟨rfl, typeFits⟩ := readLE_eq_some_iff.mp (inside_eq_ok_iff.mp typeField)
  obtain ⟨rfl, rfl⟩ := readBytes_eq_some_iff.mp (inside_eq_ok_iff.mp typed)
  obtain ⟨rfl, dataFits⟩ := readLE_eq_some_iff.mp (inside_eq_ok_iff.mp dataField)
  obtain ⟨rfl, rfl⟩ := readBytes_eq_some_iff.mp (inside_eq_ok_iff.mp taken)
  let b : Body := ⟨metaData, type, data, trailing, by simpa using dataFits,
    by simpa using typeFits, by simpa using metaFits⟩
  have decodes : decodePacket b.bytes = .ok result := found
  rw [decodePacket_bytes] at decodes
  split at decodes
  · rename_i occupied
    exact ⟨b, rfl, occupied, (Except.ok.inj decodes).symm⟩
  · cases decodes

end Body

/-- The meta data of an ordered multicast: the header with as many groups as it announces, and
what else the meta data has room for. -/
structure Header where
  udpSrc : Nat
  sessnum : Nat
  entries : List (Nat × Nat)
  padding : Bytes
  port : udpSrc < 2 ^ 16
  session : sessnum < 2 ^ 64
  count : entries.length < 2 ^ 32

namespace Header

/-- The meta data. -/
def bytes (h : Header) : Bytes := stampedMetaData h.udpSrc h.sessnum h.entries ++ h.padding

/-- The sender, with the port that the sequencer put away. -/
def sender (h : Header) (addr : TransportAddress) : TransportAddress :=
  if h.udpSrc ≠ 0 then { addr with port := h.udpSrc } else addr

/-- The stamp. -/
def stamp (h : Header) : Multistamp where
  sessnum := h.sessnum
  seqnums := collect h.entries {}

theorem bytes_ne_nil (h : Header) : h.bytes ≠ [] := by
  apply List.length_pos_iff.mp
  rw [bytes, List.length_append, length_stampedMetaData]
  omega

/-- Reading a header stays within the meta data, whatever stands behind it. -/
theorem readMetaData_bytes (h : Header) (addr : TransportAddress) (rest : Bytes) :
    readMetaData addr (some (h.bytes ++ rest)) = .ok (h.sender addr, some h.stamp) := by
  rw [bytes, List.append_assoc]
  exact readMetaData_stamped addr h.udpSrc h.sessnum h.entries h.port h.session h.count _

end Header

/-- A well-formed message: its meta data is empty or that of an ordered multicast. -/
structure Letter extends Body where
  header : Option Header
  framed : metaData = header.elim [] Header.bytes

namespace Letter

/-- The packet. -/
def packet (l : Letter) : Bytes := encodeLE 4 nonfragMagic ++ l.bytes

/-- The sender of the message in a packet from an address. -/
def sender (l : Letter) (addr : TransportAddress) : TransportAddress :=
  l.header.elim addr fun header => header.sender addr

/-- The stamp of the message. -/
def stamp (l : Letter) : Option Multistamp := l.header.map Header.stamp

/-- The meta data of a well-formed message is read without leaving it. -/
theorem readMetaData_decoded (l : Letter) (addr : TransportAddress) :
    readMetaData addr l.decoded.metaData = .ok (l.sender addr, l.stamp) := by
  obtain ⟨b, header, framed⟩ := l
  cases header with
  | none =>
      have empty : b.metaData = [] := framed
      simp only [Body.decoded, empty, if_true]
      rfl
  | some header =>
      have stamped : b.metaData = header.bytes := framed
      simp only [Body.decoded, stamped, if_neg header.bytes_ne_nil]
      exact header.readMetaData_bytes addr b.tail

end Letter

/-! ## Fragments -/

/-- A packet with the header of a fragment, whatever its fields say, and the bytes behind it. -/
structure Piece where
  msgId : Nat
  fragStart : Nat
  msgLen : Nat
  payload : Bytes
  id : msgId < 2 ^ 64
  start : fragStart < 2 ^ 64
  len : msgLen < 2 ^ 64

namespace Piece

/-- The packet without its magic number. -/
def bytes (p : Piece) : Bytes :=
  encodeLE 8 p.msgId ++ (encodeLE 8 p.fragStart ++ (encodeLE 8 p.msgLen ++ p.payload))

/-- The packet. -/
def packet (p : Piece) : Bytes := encodeLE 4 fragMagic ++ p.bytes

/-- The piece starts within its message and carries what a sender puts into one fragment. -/
structure WellFormed (p : Piece) : Prop where
  within : p.fragStart < p.msgLen
  cut : p.payload.length = min (p.msgLen - p.fragStart) maxUdpMessageSize

/-- The piece passes the assertions on its header, whose difference is unsigned. -/
structure Measured (p : Piece) : Prop where
  nonempty : 0 < p.payload.length
  cut : p.payload.length = min ((p.msgLen + 2 ^ 64 - p.fragStart) % 2 ^ 64) maxUdpMessageSize

instance (p : Piece) : Decidable p.Measured :=
  decidable_of_iff (0 < p.payload.length ∧
      p.payload.length = min ((p.msgLen + 2 ^ 64 - p.fragStart) % 2 ^ 64) maxUdpMessageSize)
    ⟨fun ⟨nonempty, cut⟩ => ⟨nonempty, cut⟩, fun ⟨nonempty, cut⟩ => ⟨nonempty, cut⟩⟩

/-- A piece is well formed only if what it says of its size fits. -/
theorem WellFormed.measured {p : Piece} (wellFormed : p.WellFormed) : p.Measured := by
  obtain ⟨within, cut⟩ := wellFormed
  have len := p.len
  have remaining : (p.msgLen + 2 ^ 64 - p.fragStart) % 2 ^ 64 = p.msgLen - p.fragStart := by omega
  constructor
  · rw [cut, maxUdpMessageSize]
    omega
  · rw [remaining]
    exact cut

/-- A piece that starts within its message and passes the assertions is well formed. -/
theorem Measured.wellFormed {p : Piece} (measured : p.Measured) (within : p.fragStart < p.msgLen) :
    p.WellFormed := by
  have len := p.len
  have remaining : (p.msgLen + 2 ^ 64 - p.fragStart) % 2 ^ 64 = p.msgLen - p.fragStart := by omega
  constructor
  · exact within
  · rw [← remaining]
    exact measured.cut

/-- A measured piece claims and extends the slot; any other one fails an assertion. -/
theorem receiveFragment_bytes (info : FragInfo) (p : Piece) :
    receiveFragment info p.bytes =
      if p.Measured then
        (info.claim p.msgId).bind fun info => info.extend p.msgLen p.fragStart p.payload
      else .error .assertion := by
  have idField := readLE_encodeLE 8 p.msgId
    (encodeLE 8 p.fragStart ++ (encodeLE 8 p.msgLen ++ p.payload)) (by simpa using p.id)
  have startField := readLE_encodeLE 8 p.fragStart (encodeLE 8 p.msgLen ++ p.payload)
    (by simpa using p.start)
  have lengthField := readLE_encodeLE 8 p.msgLen p.payload (by simpa using p.len)
  unfold receiveFragment bytes
  simp only [idField, startField, lengthField, inside, bind, Except.bind]
  rw [assert_true (by simp only [List.length_append, length_encodeLE]; omega)]
  simp only
  rw [assert_true (by simp only [List.length_append, length_encodeLE]; omega)]
  simp only
  rw [assert_true (by simp only [List.length_append, length_encodeLE]; omega)]
  simp only
  by_cases nonempty : 0 < p.payload.length
  swap
  · rw [assert_false nonempty, if_neg fun measured => nonempty measured.nonempty]
  rw [assert_true nonempty]
  simp only
  by_cases cut : p.payload.length =
      min ((p.msgLen + 2 ^ 64 - p.fragStart) % 2 ^ 64) maxUdpMessageSize
  swap
  · rw [assert_false cut, if_neg fun measured => cut measured.cut]
  rw [assert_true cut, if_pos ⟨nonempty, cut⟩]
  cases info.claim p.msgId with
  | error fault => rfl
  | ok claimed => rfl

/-- Only packets with the whole header of a fragment get through. -/
theorem exists_of_receiveFragment {info : FragInfo} {rest : Bytes}
    {result : FragInfo × Option Decoded} (received : receiveFragment info rest = .ok result) :
    ∃ p : Piece, rest = p.bytes := by
  unfold receiveFragment at received
  obtain ⟨-, -, received⟩ := bind_eq_ok_iff.mp received
  obtain ⟨⟨msgId, afterId⟩, idField, received⟩ := bind_eq_ok_iff.mp received
  obtain ⟨-, -, received⟩ := bind_eq_ok_iff.mp received
  obtain ⟨⟨fragStart, afterStart⟩, startField, received⟩ := bind_eq_ok_iff.mp received
  obtain ⟨-, -, received⟩ := bind_eq_ok_iff.mp received
  obtain ⟨⟨msgLen, payload⟩, lengthField, -⟩ := bind_eq_ok_iff.mp received
  obtain ⟨rfl, idFits⟩ := readLE_eq_some_iff.mp (inside_eq_ok_iff.mp idField)
  obtain ⟨rfl, startFits⟩ := readLE_eq_some_iff.mp (inside_eq_ok_iff.mp startField)
  obtain ⟨rfl, lengthFits⟩ := readLE_eq_some_iff.mp (inside_eq_ok_iff.mp lengthField)
  exact ⟨⟨msgId, fragStart, msgLen, payload, by simpa using idFits, by simpa using startFits,
    by simpa using lengthFits⟩, rfl⟩

end Piece

/-- The packet is a well-formed encoding of a message or of a fragment. -/
def WellFormed (packet : Bytes) : Prop :=
  (∃ l : Letter, packet = l.packet) ∨ ∃ p : Piece, p.WellFormed ∧ packet = p.packet

/-! ## Reassembly -/

/-- What a well-formed fragment is for: the slot of its sender afterwards, and the body of the
message if the fragment completes it. A fragment of an older message than the one in the slot
is ignored, and one that does not continue what the slot holds is skipped. -/
def FragInfo.accept (info : FragInfo) (p : Piece) : FragInfo × Option Bytes :=
  if info.overtook p.msgId then (info, none)
  else
    let info := info.claimed p.msgId
    if p.fragStart ≠ info.data.length then (info, none)
    else if (info.data ++ p.payload).length = p.msgLen then
      ({ msgId := 0, data := [] }, some (info.data ++ p.payload))
    else ({ info with data := info.data ++ p.payload }, none)

/-- A measured piece that has not been overtaken is accepted, and what it completes is decoded. -/
theorem Piece.receiveFragment_accept {info : FragInfo} {p : Piece} (measured : p.Measured)
    (timely : info.overtook p.msgId = false) :
    receiveFragment info p.bytes =
      match info.accept p with
      | (slot, none) => .ok (slot, none)
      | (slot, some complete) =>
        (decodePacket complete).map fun decoded => (slot, some decoded) := by
  rw [receiveFragment_bytes, if_pos measured, claim_eq, timely]
  simp only [Bool.false_eq_true, if_false, Except.bind, FragInfo.accept, timely]
  unfold FragInfo.extend
  by_cases aligned : p.fragStart ≠ (info.claimed p.msgId).data.length
  · rw [if_pos aligned, if_pos aligned]
  rw [if_neg aligned, if_neg aligned]
  by_cases complete : ((info.claimed p.msgId).data ++ p.payload).length = p.msgLen
  · rw [if_pos complete, if_pos complete]
    cases decoding : decodePacket ((info.claimed p.msgId).data ++ p.payload) with
    | error fault =>
        simp only [decoding]
        rfl
    | ok decoded =>
        simp only [decoding]
        rfl
  · rw [if_neg complete, if_neg complete]

/-- Only a piece within its message completes it. -/
theorem FragInfo.within_of_accept {info slot : FragInfo} {p : Piece} {complete : Bytes}
    (measured : p.Measured) (accepted : info.accept p = (slot, some complete)) :
    p.fragStart < p.msgLen := by
  have nonempty := measured.nonempty
  unfold accept at accepted
  split at accepted
  · cases accepted
  dsimp only at accepted
  split at accepted
  · cases accepted
  rename_i aligned
  split at accepted
  · rename_i length
    rw [List.length_append] at length
    have start : p.fragStart = (info.claimed p.msgId).data.length := not_not.mp aligned
    omega
  · cases accepted

end PaxosBus.Udp

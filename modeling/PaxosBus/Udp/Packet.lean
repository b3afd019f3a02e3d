import PaxosBus.Library.Bytes
import Mathlib.Tactic.Common

/-!
# Packets of the UDP transport

`SerializeMessage` and `DecodePacket` of `udptransport.cc`. A string is the list
of its bytes, a `size_t` takes eight bytes, and every field is written in the
byte order of the host, which is the least significant byte first.
-/

set_option autoImplicit false

namespace PaxosBus.Udp

open PaxosBus.Library

/-- `NONFRAG_MAGIC`. -/
def nonfragMagic : Nat := 0x20050318

/-- `FRAG_MAGIC`. -/
def fragMagic : Nat := 0x20101010

/-- `MAX_UDP_MESSAGE_SIZE`. -/
def maxUdpMessageSize : Nat := 9000

/-- What can go wrong with a packet: an `ASSERT` fails, which aborts the process, or bytes past
the end of the packet are read. -/
inductive Fault where
  | assertion
  | overrun
deriving DecidableEq, Repr

/-- `ASSERT`. -/
def assert (condition : Prop) [Decidable condition] : Except Fault Unit :=
  if condition then .ok () else .error .assertion

/-- A read that must stay inside the packet. -/
def inside {α : Type} : Option α → Except Fault α
  | some value => .ok value
  | none => .error .overrun

/-- `SerializeMessage`. -/
def serializeMessage (data type metaData : Bytes) : Except Fault Bytes := do
  let totalLen := 4 + 4 + metaData.length + type.length + 8 + data.length + 8
  let buf := encodeLE 4 nonfragMagic ++ (encodeLE 4 metaData.length ++ metaData ++
    encodeLE 8 type.length)
  assert (buf.length < totalLen)
  assert (buf.length + type.length < totalLen)
  let buf := buf ++ type ++ encodeLE 8 data.length
  assert (buf.length < totalLen)
  assert (buf.length + data.length = totalLen)
  return buf ++ data

/-- What `DecodePacket` finds. The pointer to the meta data leads into the packet, so it is
the packet from there on. -/
structure Decoded where
  msgType : Bytes
  msg : Bytes
  metaData : Option Bytes
deriving DecidableEq, Repr

/-- `DecodePacket`, on a packet without its magic number. -/
def decodePacket (buf : Bytes) : Except Fault Decoded := do
  let (metaLen, rest) ← inside (readLE 4 buf)
  let metaData := if metaLen > 0 then some rest else none
  let (_, rest) ← inside (readBytes metaLen rest)
  let (typeLen, rest) ← inside (readLE 8 rest)
  assert (rest.length > 0)
  -- a length that overflows the pointer passes here, and the constructor of `string` throws
  assert (typeLen < rest.length)
  let (msgType, rest) ← inside (readBytes typeLen rest)
  let (msgLen, rest) ← inside (readLE 8 rest)
  assert (rest.length > 0)
  assert (msgLen ≤ rest.length)
  let (msg, _) ← inside (readBytes msgLen rest)
  return { msgType, msg, metaData }

/-- Everything after the magic number of a serialized message. -/
def body (data type metaData : Bytes) : Bytes :=
  encodeLE 4 metaData.length ++ (metaData ++ (encodeLE 8 type.length ++
    (type ++ (encodeLE 8 data.length ++ data))))

@[simp] theorem length_body (data type metaData : Bytes) :
    (body data type metaData).length = metaData.length + type.length + data.length + 20 := by
  simp only [body, List.length_append, length_encodeLE]
  omega

@[simp] theorem assert_true {condition : Prop} [Decidable condition] (holds : condition) :
    assert condition = .ok () := if_pos holds

@[simp] theorem assert_false {condition : Prop} [Decidable condition] (fails : ¬ condition) :
    assert condition = .error .assertion := if_neg fails

/-- A message without data fails an assertion of its sender; any other one is serialized. -/
theorem serializeMessage_eq (data type metaData : Bytes) :
    serializeMessage data type metaData =
      if data = [] then .error .assertion
      else .ok (encodeLE 4 nonfragMagic ++ body data type metaData) := by
  by_cases empty : data = []
  · subst empty
    simp only [serializeMessage, List.length_append, length_encodeLE]
    rw [assert_true (by omega), assert_true (by omega), assert_false (by simp; omega)]
    rfl
  · have positive : 0 < data.length := List.length_pos_iff.mpr empty
    simp only [serializeMessage, List.length_append, length_encodeLE]
    rw [assert_true (by omega), assert_true (by omega), assert_true (by omega),
      assert_true (by omega), if_neg empty]
    simp only [body, List.append_assoc]
    rfl

/-- The meta data as `DecodePacket` hands it on: nothing, or the packet from there on. -/
def metaPointer (data type metaData : Bytes) : Option Bytes :=
  if metaData = [] then none
  else some (metaData ++ (encodeLE 8 type.length ++ (type ++ (encodeLE 8 data.length ++ data))))

/-- The lengths of a message fit the fields that carry them. -/
structure Fits (data type metaData : Bytes) : Prop where
  data : data.length < 2 ^ 64
  type : type.length < 2 ^ 64
  metaData : metaData.length < 2 ^ 32

/-- Decoding a serialized message gives its type and data back. -/
theorem decodePacket_body {data type metaData : Bytes} (fits : Fits data type metaData)
    (nonempty : data ≠ []) :
    decodePacket (body data type metaData) =
      .ok { msgType := type, msg := data, metaData := metaPointer data type metaData } := by
  have positive : 0 < data.length := List.length_pos_iff.mpr nonempty
  have metaField := readLE_encodeLE 4 metaData.length
    (metaData ++ (encodeLE 8 type.length ++ (type ++ (encodeLE 8 data.length ++ data))))
    (by simpa using fits.metaData)
  have typeField := readLE_encodeLE 8 type.length
    (type ++ (encodeLE 8 data.length ++ data)) (by simpa using fits.type)
  have dataField := readLE_encodeLE 8 data.length data
    (by simpa using fits.data)
  have whole : readBytes data.length data = some (data, []) := by
    simpa using @readBytes_append data.length data [] rfl
  have pointer : (if metaData.length > 0 then
      some (metaData ++ (encodeLE 8 type.length ++ (type ++ (encodeLE 8 data.length ++ data))))
      else none) = metaPointer data type metaData := by
    cases metaData <;> simp [metaPointer]
  unfold decodePacket body
  simp only [metaField, inside, bind, Except.bind, readBytes_append _ rfl, typeField, dataField,
    whole, pointer, List.length_append, length_encodeLE]
  rw [assert_true (by omega)]
  simp only
  rw [assert_true (by omega)]
  simp only
  rw [assert_true (by omega)]
  simp only
  rw [assert_true (Nat.le_refl _)]
  rfl

end PaxosBus.Udp

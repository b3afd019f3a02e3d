import PaxosBus.Udp.Decoding

/-!
# Malformed packets

What `ProcessPacket` is to do with a packet: hand a well-formed message on, put a
well-formed fragment into its sender's slot, and drop anything else. The code
asserts where it should drop, decodes what it should have checked and dispatches
packets with a bad magic number, so it does so on some packets only.
-/

set_option autoImplicit false

namespace PaxosBus.Udp

open PaxosBus.Library

/-- The receiver with another slot for a sender. -/
def Receiver.withSlot (r : Receiver) (sender : TransportAddress) (slot : FragInfo) : Receiver :=
  { r with fragInfo := Function.update r.fragInfo sender slot }

@[simp] theorem Receiver.fragInfo_withSlot (r : Receiver) (sender : TransportAddress)
    (slot : FragInfo) : (r.withSlot sender slot).fragInfo sender = slot := by
  simp [withSlot]

@[simp] theorem Receiver.withSlot_withSlot (r : Receiver) (sender : TransportAddress)
    (slot slot' : FragInfo) :
    (r.withSlot sender slot).withSlot sender slot' = r.withSlot sender slot' := by
  simp [withSlot]

@[simp] theorem Receiver.withSlot_self (r : Receiver) (sender : TransportAddress) :
    r.withSlot sender (r.fragInfo sender) = r := by
  simp [withSlot]

/-- The message is dispatched: to the receivers behind the socket, unless the simulation drops
it or keeps it back. -/
def Receiver.Dispatches (r r' : Receiver) (sender : TransportAddress) (packet : Bytes)
    (l : Letter) : Prop :=
  ∀ sockets fd fate, r.processPacket sockets fd sender packet fate =
    .ok (r'.dispatch sockets fd (l.sender sender) l.type l.data l.stamp fate)

/-- Nothing goes wrong and nothing is delivered or kept back. -/
def Receiver.Drops (r r' : Receiver) (sender : TransportAddress) (packet : Bytes) : Prop :=
  ∀ sockets fd fate, r.processPacket sockets fd sender packet fate = .ok (r', [])

/-- What is to become of a packet in a state of the receiver. -/
structure Receiver.Handles (r : Receiver) (sender : TransportAddress) (packet : Bytes) : Prop where
  message : ∀ l : Letter, packet = l.packet → r.Dispatches r sender packet l
  skipped : ∀ p : Piece, p.WellFormed → packet = p.packet →
    ∀ slot, (r.fragInfo sender).accept p = (slot, none) →
      r.Drops (r.withSlot sender slot) sender packet
  completed : ∀ p : Piece, p.WellFormed → packet = p.packet →
    ∀ slot complete, (r.fragInfo sender).accept p = (slot, some complete) →
      (∀ l : Letter, complete = l.bytes →
        r.Dispatches (r.withSlot sender slot) sender packet l) ∧
      ((∀ l : Letter, complete ≠ l.bytes) → r.Drops (r.withSlot sender slot) sender packet)
  malformed : ¬ WellFormed packet → ∃ slot, r.Drops (r.withSlot sender slot) sender packet

/-- The piece is the last one of what the slot holds. -/
def Piece.Completes (p : Piece) (info : FragInfo) : Prop :=
  p.fragStart = (info.claimed p.msgId).data.length ∧ p.fragStart + p.payload.length = p.msgLen

/-- The packets that are handled: a well-formed message with something behind its last length
field, and a fragment that passes the assertions on its header and is not of an older message
than the slot holds, provided that what it completes is such a message. -/
def Receiver.Acceptable (r : Receiver) (sender : TransportAddress) (packet : Bytes) : Prop :=
  (∃ l : Letter, l.Occupied ∧ packet = l.packet) ∨
    ∃ p : Piece, p.Measured ∧ packet = p.packet ∧
      (r.fragInfo sender).overtook p.msgId = false ∧
      (p.Completes (r.fragInfo sender) → ∃ l : Letter, l.Occupied ∧
        ((r.fragInfo sender).claimed p.msgId).data ++ p.payload = l.bytes)

/-! ## Telling packets apart -/

/-- A letter is no piece: they begin with different marks. -/
theorem Letter.packet_ne (l : Letter) (p : Piece) : l.packet ≠ p.packet := by
  intro same
  have magic := (encodeLE_append_inj (by decide) (by decide) same).1
  exact absurd magic (by decide)

/-- A packet belongs to the bytes of one letter. -/
theorem Letter.bytes_inj {l l' : Letter} (same : l.packet = l'.packet) : l.bytes = l'.bytes :=
  (encodeLE_append_inj (by decide) (by decide) same).2

/-- A packet belongs to one piece. -/
theorem Piece.packet_inj {p p' : Piece} (same : p.packet = p'.packet) : p = p' := by
  obtain ⟨msgId, fragStart, msgLen, payload, id, start, len⟩ := p
  obtain ⟨msgId', fragStart', msgLen', payload', id', start', len'⟩ := p'
  obtain ⟨-, same⟩ := encodeLE_append_inj (by decide) (by decide) same
  obtain ⟨rfl, same⟩ := encodeLE_append_inj (by simpa using id) (by simpa using id') same
  obtain ⟨rfl, same⟩ := encodeLE_append_inj (by simpa using start) (by simpa using start') same
  obtain ⟨rfl, rfl⟩ := encodeLE_append_inj (by simpa using len) (by simpa using len') same
  rfl

/-- Whether something stands behind the last length field is seen in the bytes. -/
theorem Body.occupied_of_bytes {b b' : Body} (occupied : b.Occupied) (same : b.bytes = b'.bytes) :
    b'.Occupied := by
  have decodes := decodePacket_bytes b'
  rw [← same, decodePacket_bytes, if_pos occupied] at decodes
  by_contra empty
  rw [if_neg empty] at decodes
  cases decodes

/-! ## What the receiver does -/

section Receiving

variable {r r' : Receiver} {sender : TransportAddress} {packet : Bytes}

/-- What comes of a packet is what comes of its message. -/
theorem Receiver.processPacket_of_assemble {sockets : Sockets} {fd : Nat} {fate : Fate}
    {decoded : Decoded} (assembled : r.assemble sender packet = .ok (r', some decoded)) :
    r.processPacket sockets fd sender packet fate =
      (readMetaData sender decoded.metaData).map fun (senderAddr, stamp) =>
        r'.dispatch sockets fd senderAddr decoded.msgType decoded.msg stamp fate := by
  simp only [Receiver.processPacket, assembled, bind, Except.bind]
  cases readMetaData sender decoded.metaData with
  | error fault => rfl
  | ok read => rfl

/-- A packet that brings no message is dropped. -/
theorem Receiver.drops_of_assemble (assembled : r.assemble sender packet = .ok (r', none)) :
    r.Drops r' sender packet := by
  intro sockets fd fate
  simp only [Receiver.processPacket, assembled, bind, Except.bind]
  rfl

/-- A packet that cannot be assembled is not processed. -/
theorem Receiver.processPacket_error {sockets : Sockets} {fd : Nat} {fate : Fate} {fault : Fault}
    (failed : r.assemble sender packet = .error fault) :
    r.processPacket sockets fd sender packet fate = .error fault := by
  simp only [Receiver.processPacket, failed, bind, Except.bind]

/-- The message of a well-formed body is dispatched. -/
theorem Receiver.dispatches_of_assemble {l : Letter}
    (assembled : r.assemble sender packet = .ok (r', some l.decoded)) :
    r.Dispatches r' sender packet l := by
  intro sockets fd fate
  rw [processPacket_of_assemble assembled, l.readMetaData_decoded]
  rfl

/-- A single socket with nothing special about it. -/
def plainSockets : Sockets where
  receivers _ := 0
  multicast _ := none

/-- A message that is neither dropped nor kept back reaches the receiver behind the socket. -/
theorem Receiver.dispatch_plain (r : Receiver) (sender : TransportAddress) (type data : Bytes)
    (stamp : Option Multistamp) :
    (r.dispatch plainSockets 0 sender type data stamp .deliver).2 ≠ [] := by
  simp only [dispatch, release, Sockets.deliver, plainSockets]
  split
  · simp
  · simp

/-- A message that has been assembled is not dropped. -/
theorem Receiver.not_drops {dropped : Receiver} {decoded : Decoded}
    (assembled : r.assemble sender packet = .ok (r', some decoded)) :
    ¬ r.Drops dropped sender packet := by
  intro drops
  have nothing := drops plainSockets 0 .deliver
  rw [processPacket_of_assemble assembled] at nothing
  cases read : readMetaData sender decoded.metaData with
  | error fault =>
      rw [read] at nothing
      cases nothing
  | ok result =>
      rw [read] at nothing
      exact r'.dispatch_plain _ _ _ _ (congrArg Prod.snd (Except.ok.inj nothing))

/-- A packet that cannot be assembled is not dropped either. -/
theorem Receiver.not_drops_error {dropped : Receiver} {fault : Fault}
    (failed : r.assemble sender packet = .error fault) : ¬ r.Drops dropped sender packet := by
  intro drops
  have nothing := drops plainSockets 0 .deliver
  rw [processPacket_error failed] at nothing
  cases nothing

/-- A packet that cannot be assembled is not dispatched either. -/
theorem Receiver.not_dispatches_error {dispatched : Receiver} {l : Letter} {fault : Fault}
    (failed : r.assemble sender packet = .error fault) :
    ¬ r.Dispatches dispatched sender packet l := by
  intro dispatches
  have nothing := dispatches plainSockets 0 .deliver
  rw [processPacket_error failed] at nothing
  cases nothing

/-- A packet that starts like a message is decoded. -/
theorem assemble_body (b : Body) (small : (encodeLE 4 nonfragMagic ++ b.bytes).length < 2 ^ 63) :
    r.assemble sender (encodeLE 4 nonfragMagic ++ b.bytes) =
      if b.Occupied then .ok (r, some b.decoded) else .error .assertion := by
  rw [List.length_append, length_encodeLE] at small
  rw [assemble_nonfrag r sender b.bytes (by simp) (by omega), b.decodePacket_bytes]
  split <;> rfl

/-- A packet that starts like a fragment goes to its sender's slot. -/
theorem assemble_piece (p : Piece) (small : p.packet.length < 2 ^ 63) :
    r.assemble sender p.packet = (receiveFragment (r.fragInfo sender) p.bytes).map fun result =>
      (r.withSlot sender result.1, result.2) := by
  have length : p.packet.length = p.payload.length + 28 := by
    simp only [Piece.packet, Piece.bytes, List.length_append, length_encodeLE]
    omega
  have rest : p.bytes.length = p.payload.length + 24 := by
    simp only [Piece.bytes, List.length_append, length_encodeLE]
    omega
  exact assemble_frag r sender (by omega) (by omega)

/-- Which packets get as far as the dispatch or a slot. -/
theorem assemble_cases {result : Receiver × Option Decoded} (small : packet.length < 2 ^ 63)
    (assembled : r.assemble sender packet = .ok result) :
    (∃ b : Body, packet = encodeLE 4 nonfragMagic ++ b.bytes ∧ result = (r, some b.decoded)) ∨
      (∃ p : Piece, packet = p.packet) ∨
      ∃ magic rest, magic ≠ nonfragMagic ∧ magic ≠ fragMagic ∧ magic < 2 ^ 32 ∧
        packet = encodeLE 4 magic ++ rest ∧
        result = (r, some { msgType := [], msg := [], metaData := none }) := by
  unfold Receiver.assemble at assembled
  obtain ⟨-, -, checked⟩ := bind_eq_ok_iff.mp assembled
  obtain ⟨⟨magic, rest⟩, magicField, branched⟩ := bind_eq_ok_iff.mp checked
  clear assembled checked
  obtain ⟨rfl, magicFits⟩ := readLE_eq_some_iff.mp (inside_eq_ok_iff.mp magicField)
  dsimp only at branched
  split at branched
  · rename_i message
    obtain ⟨decoded, decodes, returned⟩ := bind_eq_ok_iff.mp branched
    obtain ⟨b, rfl, -, rfl⟩ := Body.exists_of_decodePacket decodes
    exact .inl ⟨b, by rw [message], (Except.ok.inj returned).symm⟩
  split at branched
  · rename_i fragment
    obtain ⟨⟨slot, decoded⟩, received, -⟩ := bind_eq_ok_iff.mp branched
    obtain ⟨p, rfl⟩ := Piece.exists_of_receiveFragment received
    exact .inr (.inl ⟨p, by rw [fragment, Piece.packet]⟩)
  · rename_i notMessage notFragment
    exact .inr (.inr ⟨magic, rest, notMessage, notFragment, by simpa using magicFits, rfl,
      (Except.ok.inj branched).symm⟩)

/-- What comes of a measured piece that has not been overtaken. -/
theorem assemble_measured {p : Piece} (small : p.packet.length < 2 ^ 63) (measured : p.Measured)
    (timely : (r.fragInfo sender).overtook p.msgId = false) :
    r.assemble sender p.packet =
      match (r.fragInfo sender).accept p with
      | (slot, none) => .ok (r.withSlot sender slot, none)
      | (slot, some complete) =>
        (decodePacket complete).map fun decoded => (r.withSlot sender slot, some decoded) := by
  rw [assemble_piece p small, p.receiveFragment_accept measured timely]
  obtain ⟨slot, complete⟩ := (r.fragInfo sender).accept p
  cases complete with
  | none => rfl
  | some complete =>
      simp only
      cases decodePacket complete with
      | error fault => rfl
      | ok decoded => rfl

/-- Only a measured piece that has not been overtaken gets to the slot. -/
theorem measured_of_assemble {p : Piece} {result : Receiver × Option Decoded}
    (small : p.packet.length < 2 ^ 63) (assembled : r.assemble sender p.packet = .ok result) :
    p.Measured ∧ (r.fragInfo sender).overtook p.msgId = false := by
  rw [assemble_piece p small, p.receiveFragment_bytes] at assembled
  split at assembled
  · rename_i measured
    constructor
    · exact measured
    · by_contra overtook
      rw [claim_eq, if_pos (by simpa using overtook)] at assembled
      cases assembled
  · cases assembled

end Receiving

/-- A slot hands a message on exactly for the piece that completes it. -/
theorem FragInfo.accept_completes {info : FragInfo} {p : Piece}
    (timely : info.overtook p.msgId = false) (completes : p.Completes info) :
    info.accept p =
      ({ msgId := 0, data := [] }, some ((info.claimed p.msgId).data ++ p.payload)) := by
  obtain ⟨start, length⟩ := completes
  have complete : ((info.claimed p.msgId).data ++ p.payload).length = p.msgLen := by
    rw [List.length_append, ← start, length]
  simp only [accept, timely, Bool.false_eq_true, if_false, start, ne_eq, not_true_eq_false,
    if_pos complete]

/-- What is complete is what has been claimed so far, and the piece that completes it. -/
theorem FragInfo.completes_of_accept {info slot : FragInfo} {p : Piece} {complete : Bytes}
    (accepted : info.accept p = (slot, some complete)) :
    p.Completes info ∧ complete = (info.claimed p.msgId).data ++ p.payload := by
  unfold accept at accepted
  split at accepted
  · cases accepted
  dsimp only at accepted
  split at accepted
  · cases accepted
  rename_i aligned
  split at accepted
  · rename_i length
    obtain ⟨-, found⟩ := Prod.mk.inj accepted
    have start : p.fragStart = (info.claimed p.msgId).data.length := not_not.mp aligned
    rw [List.length_append, ← start] at length
    exact ⟨⟨start, length⟩, (Option.some.inj found).symm⟩
  · cases accepted

/-! ## Exactly which packets are handled -/

namespace Receiver

variable {r : Receiver} {sender : TransportAddress} {packet : Bytes}

/-- The message of an accepted packet is dispatched. -/
theorem dispatches_letter {l : Letter} (occupied : l.Occupied) (small : l.packet.length < 2 ^ 63) :
    r.Dispatches r sender l.packet l := by
  apply dispatches_of_assemble
  rw [Letter.packet, assemble_body l.toBody small, if_pos occupied]

/-- A message with nothing behind its last length field is not dispatched. -/
theorem occupied_of_dispatches {l : Letter} (small : l.packet.length < 2 ^ 63)
    (dispatches : r.Dispatches r sender l.packet l) : l.Occupied := by
  by_contra empty
  have failed : r.assemble sender l.packet = .error .assertion := by
    rw [Letter.packet, assemble_body l.toBody small, if_neg empty]
  exact not_dispatches_error failed dispatches

section Piece

variable {p : Piece} (small : p.packet.length < 2 ^ 63) (measured : p.Measured)
  (timely : (r.fragInfo sender).overtook p.msgId = false)

include small measured timely

/-- A piece that does not complete a message is dropped, but for the slot of its sender. -/
theorem drops_skipped {slot : FragInfo}
    (accepted : (r.fragInfo sender).accept p = (slot, none)) :
    r.Drops (r.withSlot sender slot) sender p.packet := by
  apply drops_of_assemble
  rw [assemble_measured small measured timely, accepted]

/-- A completed message that is well formed is dispatched. -/
theorem dispatches_completed {slot : FragInfo} {complete : Bytes} {l : Letter}
    (accepted : (r.fragInfo sender).accept p = (slot, some complete)) (same : complete = l.bytes)
    (occupied : l.Occupied) : r.Dispatches (r.withSlot sender slot) sender p.packet l := by
  apply dispatches_of_assemble
  rw [assemble_measured small measured timely, accepted]
  simp only
  rw [same, l.decodePacket_bytes, if_pos occupied]
  rfl

/-- What a piece completes is decoded, well formed or not: unless it is well formed, and
something stands behind its last length field, the piece is not handled. -/
theorem letter_of_completed (handles : r.Handles sender p.packet)
    (completes : p.Completes (r.fragInfo sender)) :
    ∃ l : Letter, l.Occupied ∧
      ((r.fragInfo sender).claimed p.msgId).data ++ p.payload = l.bytes := by
  have accepted := FragInfo.accept_completes timely completes
  have wellFormed := measured.wellFormed (FragInfo.within_of_accept measured accepted)
  obtain ⟨dispatched, dropped⟩ := handles.completed p wellFormed rfl _ _ accepted
  have assembled := assemble_measured small measured timely
  rw [accepted] at assembled
  simp only at assembled
  by_cases letter : ∃ l : Letter,
      ((r.fragInfo sender).claimed p.msgId).data ++ p.payload = l.bytes
  · obtain ⟨l, same⟩ := letter
    refine ⟨l, ?_, same⟩
    by_contra empty
    rw [same, l.decodePacket_bytes, if_neg empty] at assembled
    exact not_dispatches_error assembled (dispatched l same)
  · have drops := dropped fun l same => letter ⟨l, same⟩
    exfalso
    cases decoding : decodePacket (((r.fragInfo sender).claimed p.msgId).data ++ p.payload) with
    | error fault =>
        rw [decoding] at assembled
        exact not_drops_error assembled drops
    | ok decoded =>
        rw [decoding] at assembled
        exact not_drops assembled drops

end Piece

/-- Every packet that is handled is one of the acceptable ones. -/
theorem acceptable_of_handles (small : packet.length < 2 ^ 63)
    (handles : r.Handles sender packet) : r.Acceptable sender packet := by
  by_cases message : ∃ l : Letter, packet = l.packet
  · obtain ⟨l, rfl⟩ := message
    exact .inl ⟨l, occupied_of_dispatches small (handles.message l rfl), rfl⟩
  cases assembled : r.assemble sender packet with
  | error fault =>
      exfalso
      by_cases fragment : ∃ p : Piece, p.WellFormed ∧ packet = p.packet
      · obtain ⟨p, wellFormed, same⟩ := fragment
        rcases accepted : (r.fragInfo sender).accept p with ⟨slot, _ | complete⟩
        · exact not_drops_error assembled (handles.skipped p wellFormed same slot accepted)
        · obtain ⟨dispatched, dropped⟩ :=
            handles.completed p wellFormed same slot complete accepted
          by_cases letter : ∃ l : Letter, complete = l.bytes
          · obtain ⟨l, equal⟩ := letter
            exact not_dispatches_error assembled (dispatched l equal)
          · exact not_drops_error assembled (dropped fun l equal => letter ⟨l, equal⟩)
      · obtain ⟨slot, drops⟩ := handles.malformed fun wellFormed =>
          wellFormed.elim message fragment
        exact not_drops_error assembled drops
  | ok result =>
      by_cases piece : ∃ p : Piece, packet = p.packet
      · obtain ⟨p, rfl⟩ := piece
        obtain ⟨measured, timely⟩ := measured_of_assemble small assembled
        exact .inr ⟨p, measured, rfl, timely,
          letter_of_completed small measured timely handles⟩
      · -- neither a message nor a fragment, so the packet should be dropped
        have malformed : ¬ WellFormed packet := by
          rintro (letter | ⟨p, -, same⟩)
          · exact message letter
          · exact piece ⟨p, same⟩
        obtain ⟨slot, drops⟩ := handles.malformed malformed
        exfalso
        rcases assemble_cases small assembled with
          ⟨b, -, rfl⟩ | found | ⟨magic, rest, -, -, -, -, rfl⟩
        · exact not_drops assembled drops
        · exact piece found
        · exact not_drops assembled drops

/-- Every acceptable packet is handled. -/
theorem handles_of_acceptable (small : packet.length < 2 ^ 63)
    (acceptable : r.Acceptable sender packet) : r.Handles sender packet := by
  rcases acceptable with ⟨l, occupied, rfl⟩ | ⟨p, measured, rfl, timely, completed⟩
  · constructor
    · intro l' same
      rw [same] at small ⊢
      exact dispatches_letter (Body.occupied_of_bytes occupied (Letter.bytes_inj same)) small
    · intro p _ same
      exact absurd same (l.packet_ne p)
    · intro p _ same
      exact absurd same (l.packet_ne p)
    · intro malformed
      exact absurd (.inl ⟨l, rfl⟩) malformed
  · constructor
    · intro l same
      exact absurd same.symm (l.packet_ne p)
    · intro p' _ same slot accepted
      obtain rfl := Piece.packet_inj same
      exact drops_skipped small measured timely accepted
    · intro p' _ same slot complete accepted
      obtain rfl := Piece.packet_inj same
      obtain ⟨completes, rfl⟩ := FragInfo.completes_of_accept accepted
      obtain ⟨l, occupied, found⟩ := completed completes
      constructor
      · intro l' equal
        apply dispatches_completed small measured timely accepted equal
        exact Body.occupied_of_bytes occupied (found.symm.trans equal)
      · intro none
        exact absurd found (none l)
    · intro malformed
      rcases accepted : (r.fragInfo sender).accept p with ⟨slot, _ | complete⟩
      · exact ⟨slot, drops_skipped small measured timely accepted⟩
      · have within := FragInfo.within_of_accept measured accepted
        exact absurd (.inr ⟨p, measured.wellFormed within, rfl⟩) malformed

/-- A packet is handed on, put into its sender's slot or dropped, as it should be, exactly if it
is acceptable: every well-formed message with something behind its last length field is, and
every fragment that passes the assertions on its header, is not of an older message than the
slot holds and completes nothing but such messages. -/
theorem handles_iff_acceptable (r : Receiver) (sender : TransportAddress) (packet : Bytes)
    (small : packet.length < 2 ^ 63) :
    r.Handles sender packet ↔ r.Acceptable sender packet := by
  constructor
  · exact acceptable_of_handles small
  · exact handles_of_acceptable small

/-- A message without meta data. -/
def greeting : Letter where
  metaData := []
  type := [1]
  data := [2, 3]
  trailing := []
  fits := ⟨by decide, by decide, by decide⟩
  header := none
  framed := rfl

/-- A well-formed message is handled. -/
theorem handles_greeting : ({} : Receiver).Handles System.origin greeting.packet :=
  (handles_iff_acceptable {} System.origin greeting.packet (by decide)).mpr
    (.inl ⟨greeting, by decide, rfl⟩)

/-- A packet with a bad magic number reaches the receiver behind the socket. -/
theorem not_handles_badMagic : ¬ ∀ (r : Receiver) (sender : TransportAddress) (packet : Bytes),
    packet.length < 2 ^ 63 → r.Handles sender packet := by
  intro always
  have malformed : ¬ WellFormed [1, 2, 3, 4, 5] := by
    rintro (⟨l, same⟩ | ⟨p, -, same⟩)
    · have length := congrArg List.length same
      simp [Letter.packet] at length
      omega
    · have length := congrArg List.length same
      simp [Piece.packet, Piece.bytes] at length
      omega
  obtain ⟨slot, drops⟩ := (always {} System.origin [1, 2, 3, 4, 5] (by decide)).malformed malformed
  have assembled : ({} : Receiver).assemble System.origin [1, 2, 3, 4, 5] =
      .ok ({}, some { msgType := [], msg := [], metaData := none }) := rfl
  exact not_drops assembled drops

end Receiver

end PaxosBus.Udp

import PaxosBus.Udp.Sequencer
import PaxosBus.Udp.Reassembly
import Mathlib.Data.List.Induction

/-!
# Ordered multicast from end to end

A multicast is serialized with a header of zeros, stamped by the sequencer and
decoded by the receivers. The three programs agree on the layout, so a receiver
gets the message, its sender and the numbers, provided that the number of groups
survives the sequencer's `uint8_t`.
-/

set_option autoImplicit false

namespace PaxosBus.Udp

open Std PaxosBus.Library

/-- A call of `OrderedMulticast` that hands one packet to the network: it lists distinct
groups, its packet is not fragmented, and its data is not empty, which would fail an assertion
of `SerializeMessage`. The socket has a port. -/
structure Multicast where
  src : TransportAddress
  groups : List Nat
  data : Bytes
  type : Bytes
  port_pos : 0 < src.port
  port_lt : src.port < 2 ^ 16
  listed : groups ≠ []
  distinct : groups.Nodup
  ids : ∀ groupIdx ∈ groups, groupIdx < 2 ^ 32
  nonempty : data ≠ []
  whole : 4 + (body data type (multicastMetaData groups)).length ≤ maxUdpMessageSize

/-- The path to the sequencer: the broadcast frame of a packet, to the multicast address. -/
def Multicast.frame (m : Multicast) (daddr packet : Bytes) : Frame where
  etherDhost := broadcast
  etherShost := []
  daddr := daddr
  source := m.src.port
  check := 0
  datagram := packet

/-- A datagram with the sender that the receivers' sockets see. -/
structure Arrival where
  sender : TransportAddress
  datagram : Bytes

/-- A multicast on its way: built by the sender, stamped by the sequencer. Its id counter
matters for fragments only. -/
def SequencerTransport.relay (t : SequencerTransport) (daddr : Bytes) (sequencer : Sequencer)
    (m : Multicast) : Option (Sequencer × Arrival) :=
  match orderedMulticast 0 m.groups m.data m.type with
  | .ok (_, [packet]) =>
    match t.processPacket sequencer (m.frame daddr packet) with
    | .ok (sequencer, some frame) =>
      some (sequencer, { sender := { m.src with port := frame.source }, datagram := frame.datagram })
    | _ => none
  | _ => none

/-- The multicasts that one sequencer handles, one after the other. -/
def SequencerTransport.relayAll (t : SequencerTransport) (daddr : Bytes) :
    Sequencer → List Multicast → Option (List Arrival)
  | _, [] => some []
  | sequencer, m :: ms =>
    match t.relay daddr sequencer m with
    | none => none
    | some (sequencer, arrival) => (t.relayAll daddr sequencer ms).map (arrival :: ·)

/-- Every receiver dispatches this message, with this stamp, for the datagram. -/
def Arrival.Hands (arrival : Arrival) (src : TransportAddress) (type data : Bytes)
    (stamp : Multistamp) : Prop :=
  ∀ (r : Receiver) (sockets : Sockets) (fd : Nat) (fate : Fate),
    r.processPacket sockets fd arrival.sender arrival.datagram fate =
      .ok (r.dispatch sockets fd src type data (some stamp) fate)

/-- How many of some multicasts list a group. -/
def listings (groupIdx : Nat) (ms : List Multicast) : Nat :=
  ms.countP fun m => groupIdx ∈ m.groups

/-- All of the multicasts arrive, each as its sender sent it, with the id of the sequencer and
in every group with the number of multicasts to that group so far. -/
def OrderedDelivery (t : SequencerTransport) (daddr : Bytes) (sequencerId : UInt64)
    (ms : List Multicast) : Prop :=
  ∃ arrivals, t.relayAll daddr { sequencerId } ms = some arrivals ∧
    arrivals.length = ms.length ∧
    ∀ i m arrival, ms[i]? = some m → arrivals[i]? = some arrival →
      ∃ stamp, arrival.Hands m.src m.type m.data stamp ∧
        stamp.sessnum = sequencerId.toNat ∧
        ∀ groupIdx ∈ m.groups,
          stamp.seqnums[groupIdx]? = some (listings groupIdx (ms.take (i + 1)))

/-! ## What arrives -/

/-- The packet of a multicast. -/
theorem orderedMulticast_eq (m : Multicast) :
    orderedMulticast 0 m.groups m.data m.type =
      .ok (0, [encodeLE 4 nonfragMagic ++ body m.data m.type (multicastMetaData m.groups)]) := by
  have some : m.groups.length > 0 := List.length_pos_iff.mpr m.listed
  have whole := m.whole
  simp only [orderedMulticast, assert_true some, bind, Except.bind, sendMessageInternal,
    serializeMessage_eq, if_neg m.nonempty, List.length_append, length_encodeLE]
  rw [if_pos whole]
  rfl

/-- The datagram with its header stamped for the first groups of the multicast. -/
def Multicast.stamped (m : Multicast) (sequencer : Sequencer) : Bytes :=
  body m.data m.type (stampedMetaData m.src.port sequencer.sequencerId.toNat
    (sequencer.stampFirst (m.groups.length % 2 ^ 8) m.groups))

/-- The multicast behind the sequencer, with the group bitmap in place of the port. -/
def Multicast.arrival (m : Multicast) (sequencer : Sequencer) (port : Nat) : Arrival where
  sender := { m.src with port }
  datagram := encodeLE 4 nonfragMagic ++ m.stamped sequencer

/-- A small packet lists fewer groups than its 32 bit field can count. -/
theorem Multicast.few (m : Multicast) : m.groups.length < 2 ^ 32 := by
  have whole := m.whole
  rw [length_body, multicastMetaData_eq, length_stampedMetaData, List.length_map,
    maxUdpMessageSize] at whole
  omega

/-- The sequencer stamps the packet of a multicast in place. -/
theorem relay_eq (t : SequencerTransport) {daddr : Bytes} (matching : inetNtop daddr = t.groupAddr)
    (sequencer : Sequencer) (m : Multicast) :
    ∃ port, t.relay daddr sequencer m =
      some ((sequencer.stamp (m.groups.take (m.groups.length % 2 ^ 8))).1,
        m.arrival sequencer port) := by
  have magicField := readLE_encodeLE 4 nonfragMagic
    (body m.data m.type (multicastMetaData m.groups)) (by decide)
  have countField := readLE_encodeLE 4 m.groups.length
    (stampEntries (m.groups.map fun groupIdx => (groupIdx, 0)) ++
      (encodeLE 8 m.type.length ++ (m.type ++ (encodeLE 8 m.data.length ++ m.data))))
    (by simpa using m.few)
  obtain ⟨groupBitmap, looped⟩ := stampGroups_stampEntries t m.ids
    (encodeLE 8 m.type.length ++ (m.type ++ (encodeLE 8 m.data.length ++ m.data)))
    (Nat.mod_le m.groups.length (2 ^ 8)) sequencer 0
  have header := @readBytes_append (4 + 4)
    (encodeLE 4 nonfragMagic ++ encodeLE 4 (multicastMetaData m.groups).length)
    (multicastMetaData m.groups ++
      (encodeLE 8 m.type.length ++ (m.type ++ (encodeLE 8 m.data.length ++ m.data)))) (by simp)
  refine ⟨htons groupBitmap, ?_⟩
  simp only [SequencerTransport.relay, orderedMulticast_eq, SequencerTransport.processPacket,
    Multicast.frame, ne_eq, not_true_eq_false, if_false, matching, magicField, inside, bind,
    Except.bind]
  rw [List.append_assoc] at header
  simp only [body, header]
  rw [multicastMetaData_eq, stampedMetaData]
  simp only [List.append_assoc, readBytes_append _ (length_encodeLE 2 0),
    readBytes_append _ (length_encodeLE 8 0), countField, List.length_map, looped]
  simp [Multicast.arrival, Multicast.stamped, body, stampedMetaData, pure, Except.pure]

/-- The stamp that the receivers find in a multicast. -/
def Multicast.stamp (m : Multicast) (sequencer : Sequencer) : Multistamp where
  sessnum := sequencer.sequencerId.toNat
  seqnums := collect (sequencer.stampFirst (m.groups.length % 2 ^ 8) m.groups) {}

/-- A stamped multicast is decoded to the message, with the sender's own port. -/
theorem hands_stamped (sequencer : Sequencer) (m : Multicast) (port : Nat) :
    (m.arrival sequencer port).Hands m.src m.type m.data (m.stamp sequencer) := by
  intro r sockets fd fate
  have length : (m.stamped sequencer).length =
      (body m.data m.type (multicastMetaData m.groups)).length := by
    simp [Multicast.stamped, multicastMetaData_eq]
  have whole := m.whole
  have size := length_body m.data m.type (multicastMetaData m.groups)
  have header : (multicastMetaData m.groups).length = 14 + 12 * m.groups.length := by
    rw [multicastMetaData_eq, length_stampedMetaData, List.length_map]
  have few := m.few
  simp only [maxUdpMessageSize] at whole
  have fits : Fits m.data m.type (stampedMetaData m.src.port sequencer.sequencerId.toNat
      (sequencer.stampFirst (m.groups.length % 2 ^ 8) m.groups)) := by
    refine ⟨by omega, by omega, ?_⟩
    rw [length_stampedMetaData, length_stampFirst]
    omega
  have occupied : stampedMetaData m.src.port sequencer.sequencerId.toNat
      (sequencer.stampFirst (m.groups.length % 2 ^ 8) m.groups) ≠ [] := by
    simp [stampedMetaData, encodeLE]
  have decoded := decodePacket_body fits m.nonempty
  rw [metaPointer, if_neg occupied] at decoded
  have read := readMetaData_stamped { m.src with port } m.src.port sequencer.sequencerId.toNat
    (sequencer.stampFirst (m.groups.length % 2 ^ 8) m.groups) m.port_lt
    sequencer.sequencerId.toNat_lt (by simpa using few)
    (encodeLE 8 m.type.length ++ (m.type ++ (encodeLE 8 m.data.length ++ m.data)))
  have named : m.src.port ≠ 0 := Nat.pos_iff_ne_zero.mp m.port_pos
  rw [if_pos named] at read
  have assembled := assemble_nonfrag r { m.src with port } (m.stamped sequencer)
    (by omega) (by omega)
  rw [Multicast.stamped, decoded] at assembled
  simp only [Receiver.processPacket, Multicast.arrival, Multicast.stamped, assembled, Except.map, bind, Except.bind,
    read]
  rfl

/-- A datagram is handed over with one stamp. -/
theorem Arrival.Hands.stamp_unique {arrival : Arrival} {src : TransportAddress}
    {type data : Bytes} {stamp stamp' : Multistamp} (first : arrival.Hands src type data stamp)
    (second : arrival.Hands src type data stamp') : stamp = stamp' := by
  have same := (first {} { receivers := fun _ => 0, multicast := fun _ => none } 0 .deliver).symm.trans
    (second {} { receivers := fun _ => 0, multicast := fun _ => none } 0 .deliver)
  have delivered := congrArg Prod.snd (Except.ok.inj same)
  simpa [Receiver.dispatch, Receiver.release, Sockets.deliver] using delivered

/-! ## The numbers of a group -/

/-- How many times a group has been counted. -/
def Sequencer.count (s : Sequencer) (groupIdx : Nat) : Nat := (s.counters[groupIdx]?).getD 0

/-- The counter of the group goes up by one, and wraps. -/
theorem count_increment (s : Sequencer) (groupIdx other : Nat) :
    (s.increment groupIdx).1.count other =
      if groupIdx = other then (s.count other + 1) % 2 ^ 64 else s.count other := by
  unfold Sequencer.increment Sequencer.count
  rw [TreeMap.getElem?_insert]
  by_cases same : groupIdx = other
  · subst same
    simp
  · simp [same]

/-- Stamping distinct groups counts each of them once. -/
theorem count_stamp (s : Sequencer) {groups : List Nat} (distinct : groups.Nodup) (other : Nat) :
    (s.stamp groups).1.count other =
      if other ∈ groups then (s.count other + 1) % 2 ^ 64 else s.count other := by
  induction groups generalizing s with
  | nil => rfl
  | cons groupIdx groups inductionHypothesis =>
      obtain ⟨absent, rest⟩ := List.nodup_cons.mp distinct
      have later := inductionHypothesis (s.increment groupIdx).1 rest
      simp only [Sequencer.stamp, later, count_increment, List.mem_cons]
      by_cases same : groupIdx = other
      · subst same
        simp [absent]
      · simp [same, Ne.symm same]

/-- The groups are stamped in their order. -/
@[simp] theorem keys_stamp (s : Sequencer) (groups : List Nat) :
    (s.stamp groups).2.map Prod.fst = groups := by
  induction groups generalizing s with
  | nil => rfl
  | cons groupIdx groups inductionHypothesis => simp [Sequencer.stamp, inductionHypothesis]

/-- The first stamp lists the groups in their order. -/
@[simp] theorem keys_stampFirst (s : Sequencer) (ngroups : Nat) (groups : List Nat) :
    (s.stampFirst ngroups groups).map Prod.fst = groups := by
  have rest : (groups.drop ngroups).map (Prod.fst ∘ fun groupIdx => (groupIdx, 0)) =
      groups.drop ngroups := List.map_id _
  rw [Sequencer.stampFirst, List.map_append, keys_stamp, List.map_map, rest,
    List.take_append_drop]

/-- Each group is stamped with its next number. -/
theorem mem_stamp (s : Sequencer) {groups : List Nat} (distinct : groups.Nodup) {groupIdx : Nat}
    (member : groupIdx ∈ groups) :
    (groupIdx, (s.count groupIdx + 1) % 2 ^ 64) ∈ (s.stamp groups).2 := by
  induction groups generalizing s with
  | nil => cases member
  | cons head groups inductionHypothesis =>
      obtain ⟨absent, rest⟩ := List.nodup_cons.mp distinct
      rcases List.mem_cons.mp member with rfl | later
      · exact List.mem_cons_self ..
      · have different : head ≠ groupIdx := by
          rintro rfl
          exact absent later
        have numbered := inductionHypothesis (s.increment head).1 rest later
        rw [count_increment, if_neg different] at numbered
        exact List.mem_cons_of_mem _ numbered

/-- Reading keeps what the map has. -/
theorem collect_of_mem {entries : List (Nat × Nat)} {seqnums : TreeMap Nat Nat} {groupIdx : Nat}
    (present : groupIdx ∈ seqnums) : (collect entries seqnums)[groupIdx]? = seqnums[groupIdx]? := by
  induction entries generalizing seqnums with
  | nil => rfl
  | cons entry entries inductionHypothesis =>
      have kept : groupIdx ∈ seqnums.insertIfNew (entry.1 % 2 ^ 32) (entry.2 % 2 ^ 64) := by
        simp [present]
      have later := inductionHypothesis kept
      rw [TreeMap.getElem?_insertIfNew] at later
      refine later.trans (if_neg ?_)
      rintro ⟨same, absent⟩
      have equal : entry.1 % 2 ^ 32 = groupIdx := by simpa using same
      exact absent (equal ▸ present)

/-- An entry with its own id is read into the map. -/
theorem collect_of_entry {entries : List (Nat × Nat)} {seqnums : TreeMap Nat Nat}
    (distinct : (entries.map Prod.fst).Nodup) (ids : ∀ entry ∈ entries, entry.1 < 2 ^ 32)
    (fresh : ∀ entry ∈ entries, entry.1 ∉ seqnums) {groupIdx seqnum : Nat}
    (entered : (groupIdx, seqnum) ∈ entries) :
    (collect entries seqnums)[groupIdx]? = some (seqnum % 2 ^ 64) := by
  induction entries generalizing seqnums with
  | nil => cases entered
  | cons entry entries inductionHypothesis =>
      obtain ⟨absent, rest⟩ := List.nodup_cons.mp
        (show (entry.1 :: entries.map Prod.fst).Nodup from distinct)
      have small : entry.1 % 2 ^ 32 = entry.1 :=
        Nat.mod_eq_of_lt (ids entry (List.mem_cons_self ..))
      have new : entry.1 ∉ seqnums := fresh entry (List.mem_cons_self ..)
      change (collect entries (seqnums.insertIfNew (entry.1 % 2 ^ 32) (entry.2 % 2 ^ 64)))[groupIdx]? = _
      rw [small]
      rcases List.mem_cons.mp entered with rfl | later
      · rw [collect_of_mem (by simp), TreeMap.getElem?_insertIfNew]
        simp [new]
      · apply inductionHypothesis rest
        · exact fun other member => ids other (List.mem_cons_of_mem _ member)
        · intro other member
          have different : entry.1 ≠ other.1 := fun equal =>
            absent (List.mem_map.mpr ⟨other, member, equal.symm⟩)
          have old := fresh other (List.mem_cons_of_mem _ member)
          simp [different, old]
        · exact later

/-- What a receiver finds for an entry of the header. -/
theorem seqnums_stamp (m : Multicast) (sequencer : Sequencer) {groupIdx seqnum : Nat}
    (entered : (groupIdx, seqnum) ∈
      sequencer.stampFirst (m.groups.length % 2 ^ 8) m.groups) :
    (m.stamp sequencer).seqnums[groupIdx]? = some (seqnum % 2 ^ 64) := by
  apply collect_of_entry
  · rw [keys_stampFirst]
    exact m.distinct
  · intro entry member
    have listed : entry.1 ∈ m.groups := by
      rw [← keys_stampFirst sequencer (m.groups.length % 2 ^ 8) m.groups]
      exact List.mem_map_of_mem member
    exact m.ids _ listed
  · intro entry member
    simp
  · exact entered

/-- With at most 255 groups, each gets its next number. -/
theorem seqnums_of_fits (m : Multicast) (sequencer : Sequencer) (fits : m.groups.length < 2 ^ 8)
    {groupIdx : Nat} (listed : groupIdx ∈ m.groups) :
    (m.stamp sequencer).seqnums[groupIdx]? =
      some ((sequencer.count groupIdx + 1) % 2 ^ 64) := by
  have entered := mem_stamp sequencer m.distinct listed
  have all : sequencer.stampFirst (m.groups.length % 2 ^ 8) m.groups =
      (sequencer.stamp m.groups).2 := by
    rw [Nat.mod_eq_of_lt fits]
    simp [Sequencer.stampFirst]
  have found := seqnums_stamp m sequencer (all ▸ entered)
  rwa [Nat.mod_mod] at found

/-- With more groups, the first one past the remainder is left with the zero of the sender. -/
theorem exists_unstamped (m : Multicast) (sequencer : Sequencer)
    (many : 2 ^ 8 ≤ m.groups.length) :
    ∃ groupIdx ∈ m.groups, (m.stamp sequencer).seqnums[groupIdx]? = some 0 := by
  obtain ⟨groupIdx, rest, dropped⟩ : ∃ groupIdx rest,
      m.groups.drop (m.groups.length % 2 ^ 8) = groupIdx :: rest := by
    apply List.exists_cons_of_ne_nil
    rw [ne_eq, List.drop_eq_nil_iff]
    omega
  have last : groupIdx ∈ m.groups.drop (m.groups.length % 2 ^ 8) := by
    rw [dropped]
    exact List.mem_cons_self ..
  have entered : (groupIdx, 0) ∈ sequencer.stampFirst (m.groups.length % 2 ^ 8) m.groups :=
    List.mem_append_right _ (List.mem_map.mpr ⟨groupIdx, last, rfl⟩)
  exact ⟨groupIdx, List.mem_of_mem_drop last, seqnums_stamp m sequencer entered⟩

/-! ## A sequence of multicasts -/

/-- The sequencer after some multicasts. -/
def Sequencer.after (sequencer : Sequencer) (ms : List Multicast) : Sequencer :=
  ms.foldl (fun sequencer m =>
    (sequencer.stamp (m.groups.take (m.groups.length % 2 ^ 8))).1) sequencer

/-- A sequencer keeps its id. -/
@[simp] theorem sequencerId_after (sequencer : Sequencer) (ms : List Multicast) :
    (sequencer.after ms).sequencerId = sequencer.sequencerId := by
  induction ms generalizing sequencer with
  | nil => rfl
  | cons m ms inductionHypothesis =>
      exact (inductionHypothesis _).trans (sequencerId_stamp sequencer _)

/-- Every multicast arrives, with the stamp of the sequencer that its predecessors leave. -/
theorem relayAll_eq (t : SequencerTransport) {daddr : Bytes}
    (matching : inetNtop daddr = t.groupAddr) (sequencer : Sequencer) (ms : List Multicast) :
    ∃ arrivals, t.relayAll daddr sequencer ms = some arrivals ∧ arrivals.length = ms.length ∧
      ∀ (i : Nat) (m : Multicast) (arrival : Arrival), ms[i]? = some m →
        arrivals[i]? = some arrival →
        arrival.Hands m.src m.type m.data (m.stamp (sequencer.after (ms.take i))) := by
  induction ms generalizing sequencer with
  | nil => exact ⟨[], rfl, rfl, by simp⟩
  | cons m ms inductionHypothesis =>
      obtain ⟨port, relayed⟩ := relay_eq t matching sequencer m
      obtain ⟨arrivals, rest, length, handed⟩ := inductionHypothesis
        (sequencer.stamp (m.groups.take (m.groups.length % 2 ^ 8))).1
      refine ⟨m.arrival sequencer port :: arrivals, ?_, congrArg Nat.succ length, ?_⟩
      · simp only [SequencerTransport.relayAll, relayed, rest, Option.map_some]
      · intro i other arrival found arrived
        cases i with
        | zero =>
            obtain rfl := Option.some.inj found
            obtain rfl := Option.some.inj arrived
            exact hands_stamped sequencer m port
        | succ i => exact handed i other arrival found arrived

/-- As long as no header is cut short, a group is counted for each multicast that lists it. -/
theorem count_after {ms : List Multicast} (fits : ∀ m ∈ ms, m.groups.length < 2 ^ 8)
    (sequencer : Sequencer) {groupIdx : Nat} (small : sequencer.count groupIdx < 2 ^ 64) :
    (sequencer.after ms).count groupIdx =
      (sequencer.count groupIdx + listings groupIdx ms) % 2 ^ 64 := by
  induction ms generalizing sequencer with
  | nil => exact (Nat.mod_eq_of_lt small).symm
  | cons m ms inductionHypothesis =>
      have short := fits m (List.mem_cons_self ..)
      have all : m.groups.take (m.groups.length % 2 ^ 8) = m.groups := by
        rw [Nat.mod_eq_of_lt short, List.take_length]
      have once := count_stamp sequencer m.distinct groupIdx
      have bounded : (sequencer.stamp m.groups).1.count groupIdx < 2 ^ 64 := by
        rw [once]
        split
        · exact Nat.mod_lt _ (by decide)
        · exact small
      have later := inductionHypothesis (fun other member => fits other (List.mem_cons_of_mem _ member))
        (sequencer.stamp m.groups).1 bounded
      rw [Sequencer.after, List.foldl_cons, all]
      refine later.trans ?_
      rw [once]
      by_cases listed : groupIdx ∈ m.groups
      · simp only [listings, List.countP_cons, listed, decide_true, if_true, Nat.mod_add_mod]
        congr 1
        omega
      · simp [listings, listed]

/-- Up to the last multicast that lists a group, all of its multicasts are listed. -/
theorem exists_last_listing {ms : List Multicast} {groupIdx : Nat}
    (some : 0 < listings groupIdx ms) :
    ∃ (i : Nat) (m : Multicast), ms[i]? = .some m ∧ groupIdx ∈ m.groups ∧
      listings groupIdx (ms.take (i + 1)) = listings groupIdx ms := by
  induction ms using List.reverseRecOn with
  | nil => simp [listings] at some
  | append_singleton ms m inductionHypothesis =>
      by_cases listed : groupIdx ∈ m.groups
      · refine ⟨ms.length, m, by simp, listed, ?_⟩
        rw [List.take_of_length_le (by simp)]
      · have same : listings groupIdx (ms ++ [m]) = listings groupIdx ms := by
          simp [listings, listed]
        rw [same] at some ⊢
        obtain ⟨i, other, found, member, all⟩ := inductionHypothesis some
        have inside : i < ms.length := by
          by_contra outside
          rw [List.getElem?_eq_none (by omega)] at found
          cases found
        refine ⟨i, other, by simp [List.getElem?_append_left inside, found], member, ?_⟩
        rw [List.take_append_of_le_length (by omega), all]

/-- Every multicast that lists a group adds one to its listings. -/
theorem listings_take_succ {ms : List Multicast} {i groupIdx : Nat} {m : Multicast}
    (found : ms[i]? = some m) (listed : groupIdx ∈ m.groups) :
    listings groupIdx (ms.take (i + 1)) = listings groupIdx (ms.take i) + 1 := by
  rw [List.take_add_one, found, listings, List.countP_append]
  simp [listings, listed]

section Sequence

variable {t : SequencerTransport} {daddr : Bytes} {sequencerId : UInt64} {ms : List Multicast}

/-- The number that a multicast carries for a group while no header is cut short. -/
theorem number_of_fits (fits : ∀ m ∈ ms, m.groups.length ≤ 255) {i : Nat} {m : Multicast}
    (found : ms[i]? = some m) {groupIdx : Nat} (listed : groupIdx ∈ m.groups) :
    (m.stamp (Sequencer.after { sequencerId } (ms.take i))).seqnums[groupIdx]? =
      some (listings groupIdx (ms.take (i + 1)) % 2 ^ 64) := by
  have short := fits m (List.mem_of_getElem? found)
  have initial : ({ sequencerId } : Sequencer).count groupIdx = 0 := by simp [Sequencer.count]
  have counted := count_after
    (fun other (member : other ∈ ms.take i) => Nat.lt_succ_of_le (fits other (List.mem_of_mem_take member)))
    { sequencerId } (show ({ sequencerId } : Sequencer).count groupIdx < 2 ^ 64 by simp [initial])
  rw [seqnums_of_fits m _ (Nat.lt_succ_of_le short) listed, counted, initial, Nat.zero_add,
    Nat.mod_add_mod, listings_take_succ found listed]

/-- In an ordered delivery the number of each listed group is its count so far. -/
theorem OrderedDelivery.number (ordered : OrderedDelivery t daddr sequencerId ms)
    (matching : inetNtop daddr = t.groupAddr) {i : Nat} {m : Multicast} (found : ms[i]? = some m)
    {groupIdx : Nat} (listed : groupIdx ∈ m.groups) :
    (m.stamp (Sequencer.after { sequencerId } (ms.take i))).seqnums[groupIdx]? =
      some (listings groupIdx (ms.take (i + 1))) := by
  obtain ⟨arrivals, relayed, length, numbers⟩ := ordered
  obtain ⟨arrivals', relayed', -, handed⟩ := relayAll_eq t matching { sequencerId } ms
  obtain rfl := Option.some.inj (relayed.symm.trans relayed')
  have inside : i < arrivals.length := by
    rw [length]
    exact (List.getElem?_eq_some_iff.mp found).1
  have arrived := List.getElem?_eq_getElem inside
  obtain ⟨stamp, hands, -, numbered⟩ := numbers i m _ found arrived
  obtain rfl := hands.stamp_unique (handed i m _ found arrived)
  exact numbered groupIdx listed

/-- A multicast to more than 255 groups is never delivered in order. -/
theorem OrderedDelivery.few (ordered : OrderedDelivery t daddr sequencerId ms)
    (matching : inetNtop daddr = t.groupAddr) {m : Multicast} (member : m ∈ ms) :
    m.groups.length ≤ 255 := by
  by_contra many
  obtain ⟨i, found⟩ := List.getElem?_of_mem member
  obtain ⟨groupIdx, listed, unstamped⟩ :=
    exists_unstamped m (Sequencer.after { sequencerId } (ms.take i)) (by omega)
  have zero := Option.some.inj ((ordered.number matching found listed).symm.trans unstamped)
  have positive := listings_take_succ found listed
  omega

/-- A group that is listed 2^64 times outruns its counter. -/
theorem OrderedDelivery.small (ordered : OrderedDelivery t daddr sequencerId ms)
    (matching : inetNtop daddr = t.groupAddr) (groupIdx : Nat) :
    listings groupIdx ms < 2 ^ 64 := by
  by_contra wraps
  have fits : ∀ m ∈ ms, m.groups.length ≤ 255 := fun m member => ordered.few matching member
  obtain ⟨i, m, found, listed, all⟩ := exists_last_listing
    (show 0 < listings groupIdx ms by omega)
  have number := Option.some.inj
    ((ordered.number matching found listed).symm.trans (number_of_fits fits found listed))
  have cut := Nat.mod_lt (listings groupIdx (ms.take (i + 1))) (show 0 < 2 ^ 64 by decide)
  omega

/-- Headers that are not cut short and counters that do not wrap deliver in order. -/
theorem orderedDelivery_of_fits (matching : inetNtop daddr = t.groupAddr)
    (fits : ∀ m ∈ ms, m.groups.length ≤ 255)
    (small : ∀ groupIdx, listings groupIdx ms < 2 ^ 64) :
    OrderedDelivery t daddr sequencerId ms := by
  obtain ⟨arrivals, relayed, length, handed⟩ := relayAll_eq t matching { sequencerId } ms
  refine ⟨arrivals, relayed, length, fun i m arrival found arrived => ?_⟩
  refine ⟨_, handed i m arrival found arrived, ?_, ?_⟩
  · simp [Multicast.stamp]
  · intro groupIdx listed
    have bounded : listings groupIdx (ms.take (i + 1)) < 2 ^ 64 :=
      Nat.lt_of_le_of_lt ((List.take_sublist _ _).countP_le) (small groupIdx)
    rw [number_of_fits fits found listed, Nat.mod_eq_of_lt bounded]

end Sequence

/-- Any sequence of ordered multicasts through one sequencer is delivered with the messages,
the senders, the sequencer's id and in every group the numbers from one on, exactly if each
lists at most 255 groups and no group is listed 2^64 times. -/
theorem orderedDelivery_iff (t : SequencerTransport) (daddr : Bytes)
    (matching : inetNtop daddr = t.groupAddr) (sequencerId : UInt64) (ms : List Multicast) :
    OrderedDelivery t daddr sequencerId ms ↔
      (∀ m ∈ ms, m.groups.length ≤ 255) ∧ ∀ groupIdx, listings groupIdx ms < 2 ^ 64 := by
  constructor
  · intro ordered
    exact ⟨fun m member => ordered.few matching member, ordered.small matching⟩
  · rintro ⟨fits, small⟩
    exact orderedDelivery_of_fits matching fits small

/-! ## Two sequences of multicasts -/

/-- The sequencer of the multicast address 10.0.0.255. -/
def gateway : SequencerTransport where
  groupAddr := "10.0.0.255"
  myMacAddr := [2, 0, 0, 0, 0, 1]
  overshift _ := 0

theorem zero_lt_announcer : 0 < 4000 := by decide

theorem announcer_lt : 4000 < 2 ^ 16 := by decide

theorem range_ne_nil {count : Nat} (listed : 0 < count) : List.range count ≠ [] := by
  intro empty
  rw [List.range_eq_nil.mp empty] at listed
  exact Nat.lt_irrefl 0 listed

theorem range_small {count : Nat} (small : count ≤ 700) :
    ∀ groupIdx ∈ List.range count, groupIdx < 2 ^ 32 := by
  intro groupIdx member
  have below := List.mem_range.mp member
  omega

/-- The message fits into one packet. -/
theorem announce_whole {count : Nat} (small : count ≤ 700) :
    4 + (body [1, 2, 3] [4] (multicastMetaData (List.range count))).length ≤ maxUdpMessageSize := by
  rw [length_body, multicastMetaData_eq, length_stampedMetaData, List.length_map,
    List.length_range, maxUdpMessageSize]
  simp only [List.length_cons, List.length_nil]
  omega

theorem announcement_ne_nil : ([1, 2, 3] : Bytes) ≠ [] := by simp

/-- A message of three bytes to the first `count` groups. -/
def announce (count : Nat) (listed : 0 < count) (small : count ≤ 700) : Multicast where
  src := { host := 1, port := 4000 }
  groups := List.range count
  data := [1, 2, 3]
  type := [4]
  port_pos := zero_lt_announcer
  port_lt := announcer_lt
  listed := range_ne_nil listed
  distinct := List.nodup_range
  ids := range_small small
  nonempty := announcement_ne_nil
  whole := announce_whole small

/-- Two announcements to two and three groups arrive in order. -/
theorem orderedDelivery_announcements : OrderedDelivery gateway [10, 0, 0, 255] 0
    [announce 2 (by decide) (by decide), announce 3 (by decide) (by decide)] := by
  apply (orderedDelivery_iff gateway [10, 0, 0, 255] (by decide +kernel) 0 _).mpr
  refine ⟨by simp [announce], fun groupIdx => ?_⟩
  have bounded := List.countP_le_length (p := fun m : Multicast => decide (groupIdx ∈ m.groups))
    (l := [announce 2 (by decide) (by decide), announce 3 (by decide) (by decide)])
  exact Nat.lt_of_le_of_lt bounded (by decide)

/-- An announcement to 256 groups leaves the sequencer with no number in it. -/
theorem not_orderedDelivery_crowded : ¬ ∀ ms : List Multicast,
    OrderedDelivery gateway [10, 0, 0, 255] 0 ms := by
  intro always
  have ordered := always [announce 256 (by decide) (by decide)]
  have few := ordered.few (by decide +kernel) (List.mem_singleton.mpr rfl)
  simp [announce] at few

end PaxosBus.Udp

import PaxosBus.Udp.Transport

/-!
# The sequencer

`sequencer.cc`: the process on the path of every ordered multicast, which fills
in the sender's port, its own id and a sequence number for each group. The
headers of a frame are records; the datagram behind them is bytes, in which the
sequencer finds its fields by offset.
-/

set_option autoImplicit false

namespace PaxosBus.Udp

open Std PaxosBus.Library

/-- `sequencer::Sequencer`. -/
structure Sequencer where
  sequencerId : UInt64
  counters : TreeMap Nat Nat := {}

/-- `Sequencer::Increment`: a counter is a `uint64_t` that starts from zero. -/
def Sequencer.increment (s : Sequencer) (groupIdx : Nat) : Sequencer × Nat :=
  let count := ((s.counters[groupIdx]?).getD 0 + 1) % 2 ^ 64
  ({ s with counters := s.counters.insert groupIdx count }, count)

/-- A frame with the headers that `Transport::ProcessPacket` reads or writes: the Ethernet
addresses, the IP destination in network order, and the source port and checksum of UDP. A
packet too short for its headers is not a frame. -/
structure Frame where
  etherDhost : Bytes
  etherShost : Bytes
  daddr : Bytes
  source : Nat
  check : Nat
  datagram : Bytes

/-- `sequencer::Transport`. A shift of an `int` by its width or more is undefined;
`overshift` is whatever the compiled program yields there. -/
structure SequencerTransport where
  groupAddr : String
  myMacAddr : Bytes
  overshift : Nat → BitVec 16

/-- `inet_ntop` for an IPv4 address. -/
def inetNtop (daddr : Bytes) : String :=
  String.intercalate "." (daddr.map fun byte => toString byte.toNat)

/-- `htons` on the sequencer's host. -/
def htons (value : BitVec 16) : Nat := value.toNat % 256 * 256 + value.toNat / 256

/-- The Ethernet broadcast address. -/
def broadcast : Bytes := List.replicate 6 0xFF

namespace SequencerTransport

/-- `1 << groupid` as far as it enters the bitmap. -/
def groupBit (t : SequencerTransport) (groupid : Nat) : BitVec 16 :=
  if groupid < 31 then 1#16 <<< groupid else t.overshift groupid

/-- The loop over the groups of a packet: each group's number is written behind its id. -/
def stampGroups (t : SequencerTransport) : Nat → Sequencer → Bytes → BitVec 16 →
    Except Fault (Sequencer × Bytes × BitVec 16)
  | 0, sequencer, datagram, groupBitmap => .ok (sequencer, datagram, groupBitmap)
  | ngroups + 1, sequencer, datagram, groupBitmap => do
    let (groupid, rest) ← inside (readLE 4 datagram)
    let (_, rest) ← inside (readBytes 8 rest)
    let (sequencer, count) := sequencer.increment groupid
    let (sequencer, stamped, groupBitmap) ←
      t.stampGroups ngroups sequencer rest (groupBitmap ||| t.groupBit groupid)
    return (sequencer, datagram.take 4 ++ (encodeLE 8 count ++ stamped), groupBitmap)

/-- `Transport::ProcessPacket`: the frame to send on, if there is one. The number of groups
is read into a `uint8_t`. -/
def processPacket (t : SequencerTransport) (sequencer : Sequencer) (frame : Frame) :
    Except Fault (Sequencer × Option Frame) := do
  if frame.etherDhost ≠ broadcast then
    return (sequencer, none)
  else if inetNtop frame.daddr ≠ t.groupAddr then
    return (sequencer, none)
  else
    let (magic, _) ← inside (readLE 4 frame.datagram)
    if magic ≠ nonfragMagic then
      return (sequencer, none)
    else
      let (header, datagram) ← inside (readBytes (4 + 4) frame.datagram)
      let (_, datagram) ← inside (readBytes 2 datagram)
      let (_, datagram) ← inside (readBytes 8 datagram)
      let (ngroups, datagram') ← inside (readLE 4 datagram)
      let (sequencer, stamped, groupBitmap) ←
        t.stampGroups (ngroups % 2 ^ 8) sequencer datagram' 0
      return (sequencer, some { frame with
        etherShost := t.myMacAddr
        source := htons groupBitmap
        check := 0
        datagram := header ++ (encodeLE 2 frame.source ++
          (encodeLE 8 sequencer.sequencerId.toNat ++ (datagram.take 4 ++ stamped))) })

end SequencerTransport

/-! ## One packet -/

/-- The numbers that a sequencer gives to some groups, one after the other. -/
def Sequencer.stamp : Sequencer → List Nat → Sequencer × List (Nat × Nat)
  | s, [] => (s, [])
  | s, groupIdx :: groups =>
    let (s, count) := s.increment groupIdx
    let (s, entries) := s.stamp groups
    (s, (groupIdx, count) :: entries)

/-- The entries of a header whose first `ngroups` groups have been stamped. -/
def Sequencer.stampFirst (s : Sequencer) (ngroups : Nat) (groups : List Nat) :
    List (Nat × Nat) :=
  (s.stamp (groups.take ngroups)).2 ++ (groups.drop ngroups).map fun groupIdx => (groupIdx, 0)

@[simp] theorem length_stamp (s : Sequencer) (groups : List Nat) :
    (s.stamp groups).2.length = groups.length := by
  induction groups generalizing s with
  | nil => rfl
  | cons groupIdx groups inductionHypothesis => simp [Sequencer.stamp, inductionHypothesis]

@[simp] theorem length_stampFirst (s : Sequencer) (ngroups : Nat) (groups : List Nat) :
    (s.stampFirst ngroups groups).length = groups.length := by
  simp only [Sequencer.stampFirst, List.length_append, length_stamp, List.length_map,
    List.length_take, List.length_drop]
  omega

@[simp] theorem sequencerId_stamp (s : Sequencer) (groups : List Nat) :
    (s.stamp groups).1.sequencerId = s.sequencerId := by
  induction groups generalizing s with
  | nil => rfl
  | cons groupIdx groups inductionHypothesis =>
      exact inductionHypothesis (s.increment groupIdx).1

/-- The loop stamps the first groups of a header and leaves what follows alone. -/
theorem stampGroups_stampEntries (t : SequencerTransport) {groups : List Nat}
    (ids : ∀ groupIdx ∈ groups, groupIdx < 2 ^ 32) (rest : Bytes) {ngroups : Nat}
    (bounded : ngroups ≤ groups.length) (s : Sequencer) (groupBitmap : BitVec 16) :
    ∃ groupBitmap', t.stampGroups ngroups s
        (stampEntries (groups.map fun groupIdx => (groupIdx, 0)) ++ rest) groupBitmap =
      .ok ((s.stamp (groups.take ngroups)).1,
        stampEntries (s.stampFirst ngroups groups) ++ rest, groupBitmap') := by
  induction groups generalizing ngroups s groupBitmap with
  | nil =>
      obtain rfl : ngroups = 0 := by simpa using bounded
      exact ⟨groupBitmap, rfl⟩
  | cons groupIdx groups inductionHypothesis =>
      cases ngroups with
      | zero => exact ⟨groupBitmap, rfl⟩
      | succ ngroups =>
          obtain ⟨groupBitmap', looped⟩ := inductionHypothesis
            (fun other member => ids other (List.mem_cons_of_mem _ member))
            (by simpa using bounded) (s.increment groupIdx).1
            (groupBitmap ||| t.groupBit groupIdx)
          have small : groupIdx < 256 ^ 4 := by
            simpa using ids groupIdx (List.mem_cons_self ..)
          refine ⟨groupBitmap', ?_⟩
          rw [List.map_cons, stampEntries_cons, List.append_assoc, List.append_assoc]
          simp only [SequencerTransport.stampGroups, readLE_encodeLE _ _ _ small,
            readBytes_append _ (length_encodeLE 8 0), inside, bind, Except.bind, looped]
          simp [Sequencer.stamp, Sequencer.stampFirst, stampEntries_cons, pure, Except.pure]

end PaxosBus.Udp

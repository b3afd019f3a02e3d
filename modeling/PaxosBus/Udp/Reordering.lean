import PaxosBus.Udp.Malformed
import PaxosBus.Library.Harmless

/-!
# Simulated reordering

Without drops every message is to be delivered once, as itself, apart from one
that the reorder buffer still holds. The buffer keeps the sender, the type, the
data and the socket of a packet but not its stamp, so the message that releases
it lends it its own.
-/

set_option autoImplicit false

namespace PaxosBus.Udp

open PaxosBus.Library

/-! ## Messages and deliveries -/

/-- A message that has come in at a socket. -/
structure Incoming where
  fd : Nat
  sender : TransportAddress
  msgType : Bytes
  msg : Bytes
  stamp : Option Multistamp

/-- The session and the numbers of a stamp. -/
def Multistamp.says (stamp : Multistamp) : Nat × (Nat → Option Nat) :=
  (stamp.sessnum, fun groupIdx => stamp.seqnums[groupIdx]?)

/-- What a receiver is told by a delivery. -/
structure Told where
  receiver : Nat
  sender : TransportAddress
  msgType : Bytes
  msg : Bytes
  stamp : Option (Nat × (Nat → Option Nat))

def Delivery.told (delivery : Delivery) : Told where
  receiver := delivery.receiver
  sender := delivery.sender
  msgType := delivery.msgType
  msg := delivery.msg
  stamp := delivery.stamp.map Multistamp.says

/-- What the receivers behind the message's socket are told by its delivery. -/
def Sockets.tells (sockets : Sockets) (m : Incoming) : List Told :=
  (sockets.deliver m.fd m.sender m.msgType m.msg m.stamp).map Delivery.told

/-- What `reorderBuffer` keeps of a message. -/
def Incoming.toHeld (m : Incoming) : Held where
  addr := m.sender
  message := m.msg
  msgType := m.msgType
  fd := m.fd

/-- The message in a packet without its magic number, or in a reassembled one. -/
def readMessage (fd : Nat) (sender : TransportAddress) (body : Bytes) : Option Incoming :=
  match decodePacket body with
  | .error _ => none
  | .ok decoded =>
    match readMetaData sender decoded.metaData with
    | .error _ => none
    | .ok (senderAddr, stamp) =>
      some { fd, sender := senderAddr, msgType := decoded.msgType, msg := decoded.msg, stamp }

/-! ## Well-formed packets -/

/-- The content of a well-formed packet. -/
inductive Content where
  | message (l : Letter)
  | fragment (p : Piece) (wellFormed : p.WellFormed)

namespace Content

/-- The packet. -/
def packet : Content → Bytes
  | message l => l.packet
  | fragment p _ => p.packet

/-- A fragment of an older message than the slot holds. -/
def overtaken (info : FragInfo) : Content → Bool
  | message _ => false
  | fragment p _ => info.overtook p.msgId

/-- The sender's slot afterwards. -/
def slot (info : FragInfo) : Content → FragInfo
  | message _ => info
  | fragment p _ => (info.accept p).1

/-- The body of a message that is there now: the packet's own, or a reassembled one. -/
def body (info : FragInfo) : Content → Option Bytes
  | message l => some l.bytes
  | fragment p _ => (info.accept p).2

end Content

/-- A well-formed packet reaches a socket; the roll of `reorderRate` may keep its message back. -/
structure Reception where
  fd : Nat
  sender : TransportAddress
  content : Content
  small : content.packet.length < 2 ^ 63
  reordered : Bool

namespace Reception

/-- The outcome of the rolls, with a drop rate of zero. -/
def fate (a : Reception) : Fate := if a.reordered then .reorder else .deliver

/-- The message that comes of the packet. -/
def message (a : Reception) (r : Receiver) : Option Incoming :=
  (a.content.body (r.fragInfo a.sender)).bind (readMessage a.fd a.sender)

/-- The receiver survives the packet: it is not a late fragment, and the body that is there now
can be read. -/
def Survives (a : Reception) (r : Receiver) : Prop :=
  a.content.overtaken (r.fragInfo a.sender) = false ∧
    ∀ body, a.content.body (r.fragInfo a.sender) = some body →
      (readMessage a.fd a.sender body).isSome

end Reception

section Processing

variable {r r' : Receiver} {sender : TransportAddress} {packet body : Bytes} {sockets : Sockets}
  {fd : Nat} {fate : Fate}

/-- A body that cannot be read is not processed. -/
theorem Receiver.processPacket_unreadable (assembled : r.assemble sender packet =
      (decodePacket body).map fun decoded => (r', some decoded))
    (unreadable : readMessage fd sender body = none) :
    ∃ fault, r.processPacket sockets fd sender packet fate = .error fault := by
  unfold readMessage at unreadable
  cases decoding : decodePacket body with
  | error fault =>
      rw [decoding] at assembled
      exact ⟨fault, processPacket_error assembled⟩
  | ok decoded =>
      rw [decoding] at assembled unreadable
      cases read : readMetaData sender decoded.metaData with
      | error fault =>
          rw [processPacket_of_assemble assembled, read]
          exact ⟨fault, rfl⟩
      | ok result =>
          simp only [read] at unreadable
          cases unreadable

/-- The message in a body that can be read is dispatched. -/
theorem Receiver.processPacket_readable {m : Incoming} (assembled : r.assemble sender packet =
      (decodePacket body).map fun decoded => (r', some decoded))
    (readable : readMessage fd sender body = some m) :
    r.processPacket sockets fd sender packet fate =
      .ok (r'.dispatch sockets m.fd m.sender m.msgType m.msg m.stamp fate) := by
  unfold readMessage at readable
  cases decoding : decodePacket body with
  | error fault =>
      rw [decoding] at readable
      cases readable
  | ok decoded =>
      rw [decoding] at assembled readable
      cases read : readMetaData sender decoded.metaData with
      | error fault =>
          simp only [read] at readable
          cases readable
      | ok result =>
          simp only [read] at readable
          obtain rfl := Option.some.inj readable
          rw [processPacket_of_assemble assembled, read]
          rfl

end Processing

namespace Reception

/-- The receiver with the slot that the packet leaves. -/
def slotted (a : Reception) (r : Receiver) : Receiver :=
  r.withSlot a.sender (a.content.slot (r.fragInfo a.sender))

/-- What `ProcessPacket` makes of a well-formed packet. -/
def Outcome (a : Reception) (r : Receiver) (sockets : Sockets) : Prop :=
  (¬ a.Survives r ∧
      ∃ fault, r.processPacket sockets a.fd a.sender a.content.packet a.fate = .error fault) ∨
    a.Survives r ∧
      r.processPacket sockets a.fd a.sender a.content.packet a.fate = .ok (
        match a.message r with
        | none => (a.slotted r, [])
        | some m => (a.slotted r).dispatch sockets m.fd m.sender m.msgType m.msg m.stamp a.fate)

section Outcomes

variable {a : Reception} {r : Receiver} {sockets : Sockets}

/-- A fragment of an older message ends the process. -/
theorem outcome_overtaken {fault : Fault}
    (overtaken : a.content.overtaken (r.fragInfo a.sender) = true)
    (failed : r.assemble a.sender a.content.packet = .error fault) : a.Outcome r sockets := by
  left
  constructor
  · rintro ⟨timely, -⟩
    exact Bool.false_ne_true (timely.symm.trans overtaken)
  · exact ⟨fault, Receiver.processPacket_error failed⟩

/-- A fragment that completes nothing is put into the slot. -/
theorem outcome_skipped (timely : a.content.overtaken (r.fragInfo a.sender) = false)
    (skipped : a.content.body (r.fragInfo a.sender) = none)
    (assembled : r.assemble a.sender a.content.packet = .ok (a.slotted r, none)) :
    a.Outcome r sockets := by
  right
  constructor
  · constructor
    · exact timely
    · intro body found
      rw [skipped] at found
      cases found
  · rw [message, skipped]
    exact Receiver.drops_of_assemble assembled sockets a.fd a.fate

/-- A body is read and dispatched, or the process ends. -/
theorem outcome_body {body : Bytes}
    (timely : a.content.overtaken (r.fragInfo a.sender) = false)
    (found : a.content.body (r.fragInfo a.sender) = some body)
    (assembled : r.assemble a.sender a.content.packet =
      (decodePacket body).map fun decoded => (a.slotted r, some decoded)) :
    a.Outcome r sockets := by
  cases read : readMessage a.fd a.sender body with
  | none =>
      left
      constructor
      · rintro ⟨-, readable⟩
        have some := readable body found
        rw [read] at some
        cases some
      · exact Receiver.processPacket_unreadable assembled read
  | some m =>
      right
      constructor
      · constructor
        · exact timely
        · intro other same
          obtain rfl := Option.some.inj (found.symm.trans same)
          rw [read]
          rfl
      · rw [message, found, Option.bind_some, read]
        exact Receiver.processPacket_readable assembled read

end Outcomes

/-- Every well-formed packet has one of these outcomes. -/
theorem outcome (a : Reception) (r : Receiver) (sockets : Sockets) : a.Outcome r sockets := by
  have small := a.small
  cases content : a.content with
  | message l =>
      rw [content] at small
      have same : a.slotted r = r := by simp [slotted, content, Content.slot]
      apply @outcome_body a r sockets l.bytes
      · rw [content]
        rfl
      · rw [content]
        rfl
      · rw [same, content, Content.packet, Letter.packet, assemble_body l.toBody small,
          l.decodePacket_bytes]
        split <;> rfl
  | fragment p wellFormed =>
      rw [content] at small
      have measured := wellFormed.measured
      cases timely : (r.fragInfo a.sender).overtook p.msgId with
      | true =>
          apply @outcome_overtaken a r sockets .assertion
          · rw [content]
            exact timely
          · rw [content, Content.packet, assemble_piece p small, p.receiveFragment_bytes,
              if_pos measured, claim_eq, timely]
            rfl
      | false =>
          have assembled := assemble_measured small measured timely
          rcases accepted : (r.fragInfo a.sender).accept p with ⟨slot, _ | complete⟩
          · have slotted : a.slotted r = r.withSlot a.sender slot := by
              simp only [slotted, content, Content.slot, accepted]
            rw [accepted] at assembled
            apply outcome_skipped
            · rw [content]
              exact timely
            · simp only [content, Content.body, accepted]
            · rw [slotted, content]
              exact assembled
          · have slotted : a.slotted r = r.withSlot a.sender slot := by
              simp only [slotted, content, Content.slot, accepted]
            rw [accepted] at assembled
            apply @outcome_body a r sockets complete
            · rw [content]
              exact timely
            · simp only [content, Content.body, accepted]
            · rw [slotted, content]
              exact assembled

end Reception

/-! ## A sequence of packets -/

/-- The receiver with what has come in, what has been delivered and what is held back. It is
down once `ProcessPacket` has gone wrong. -/
structure Watched where
  receiver : Receiver := {}
  messages : List Incoming := []
  delivered : List Delivery := []
  held : Option Incoming := none
  down : Bool := false

namespace Watched

/-- `ProcessPacket` runs on a packet. A message is held back if the roll says so and the buffer
is empty; otherwise the buffer is empty afterwards. -/
def receive (sockets : Sockets) (w : Watched) (a : Reception) : Watched :=
  if w.down then w
  else
    match w.receiver.processPacket sockets a.fd a.sender a.content.packet a.fate with
    | .error _ => { w with down := true }
    | .ok (receiver, deliveries) =>
      { w with
        receiver
        messages := w.messages ++ (a.message w.receiver).toList
        delivered := w.delivered ++ deliveries
        held := (a.message w.receiver).elim w.held fun m =>
          if a.reordered ∧ w.held = none then some m else none }

/-- The receiver is up, the buffer holds the message that is held back, and in some order each
of the others has been delivered as itself. -/
structure Permutes (sockets : Sockets) (w : Watched) : Prop where
  running : w.down = false
  buffer : w.receiver.reorderBuffer = w.held.map Incoming.toHeld
  delivered : ∃ order, (order ++ w.held.toList).Perm w.messages ∧
    w.delivered.map Delivery.told = order.flatMap sockets.tells

/-- The receiver survives the packet, and a message that it releases from the buffer has the
same stamp, or nobody to be delivered to. -/
structure Harmless (sockets : Sockets) (w : Watched) (a : Reception) : Prop where
  survives : a.Survives w.receiver
  stamped : ∀ held, w.held = some held → ∀ m, a.message w.receiver = some m →
    sockets.tells held = [] ∨ held.stamp.map Multistamp.says = m.stamp.map Multistamp.says

section Steps

variable {sockets : Sockets} {w : Watched} {a : Reception}

/-- The deliveries of a message with another stamp. -/
theorem map_told_deliver (m : Incoming) (stamp : Option Multistamp) :
    (sockets.deliver m.fd m.sender m.msgType m.msg stamp).map Delivery.told =
      (sockets.tells m).map fun told => { told with stamp := stamp.map Multistamp.says } := by
  unfold Sockets.tells Sockets.deliver
  cases sockets.multicast m.fd with
  | none => rfl
  | some replicas =>
      simp only [List.map_map]
      rfl

/-- Whoever is told of a message is told its stamp. -/
theorem stamp_of_mem_tells {m : Incoming} {told : Told} (member : told ∈ sockets.tells m) :
    told.stamp = m.stamp.map Multistamp.says := by
  have itself := @map_told_deliver sockets m m.stamp
  change sockets.tells m = _ at itself
  rw [itself] at member
  obtain ⟨other, -, rfl⟩ := List.mem_map.mp member
  rfl

/-- A message that is delivered as itself has its own stamp, or nobody is told. -/
theorem stamped_of_perm {m : Incoming} {stamp : Option Multistamp}
    (permuted : ((sockets.deliver m.fd m.sender m.msgType m.msg stamp).map Delivery.told).Perm
      (sockets.tells m)) :
    sockets.tells m = [] ∨ m.stamp.map Multistamp.says = stamp.map Multistamp.says := by
  rw [map_told_deliver] at permuted
  cases tells : sockets.tells m with
  | nil => exact .inl rfl
  | cons told rest =>
      right
      rw [tells] at permuted
      have restamped := permuted.mem_iff.mp (List.mem_map_of_mem (List.mem_cons_self ..))
      exact (stamp_of_mem_tells (tells ▸ restamped)).symm

/-- A message with its own stamp is delivered as itself. -/
theorem map_told_of_stamped {m : Incoming} {stamp : Option Multistamp}
    (stamped : sockets.tells m = [] ∨
      m.stamp.map Multistamp.says = stamp.map Multistamp.says) :
    (sockets.deliver m.fd m.sender m.msgType m.msg stamp).map Delivery.told = sockets.tells m := by
  rcases stamped with none | equal
  · rw [map_told_deliver, none]
    rfl
  · rw [map_told_deliver, ← equal]
    exact (map_told_deliver m m.stamp).symm

/-- A packet that ends the process. -/
theorem receive_error {fault : Fault} (running : w.down = false)
    (failed : w.receiver.processPacket sockets a.fd a.sender a.content.packet a.fate =
      .error fault) : (w.receive sockets a).down = true := by
  simp only [receive, running, Bool.false_eq_true, if_false, failed]

/-- A packet that is processed. -/
theorem receive_ok {result : Receiver × List Delivery} (running : w.down = false)
    (processed : w.receiver.processPacket sockets a.fd a.sender a.content.packet a.fate =
      .ok result) : w.receive sockets a =
      { w with
        receiver := result.1
        messages := w.messages ++ (a.message w.receiver).toList
        delivered := w.delivered ++ result.2
        held := (a.message w.receiver).elim w.held fun m =>
          if a.reordered ∧ w.held = none then some m else none } := by
  simp only [receive, running, Bool.false_eq_true, if_false, processed]

/-- A packet without a message keeps everything in its place. -/
theorem permutes_skipped (permutes : w.Permutes sockets) (nothing : a.message w.receiver = none)
    (processed : w.receiver.processPacket sockets a.fd a.sender a.content.packet a.fate =
      .ok (a.slotted w.receiver, [])) : (w.receive sockets a).Permutes sockets := by
  rw [receive_ok permutes.running processed, nothing]
  obtain ⟨running, buffer, delivered⟩ := permutes
  constructor
  · exact running
  · exact buffer
  · simpa using delivered

/-- A message that is kept back is the only one that has not been delivered. -/
theorem permutes_kept {m : Incoming} (permutes : w.Permutes sockets) (empty : w.held = none)
    (found : a.message w.receiver = some m) (reordered : a.reordered = true)
    (processed : w.receiver.processPacket sockets a.fd a.sender a.content.packet a.fate =
      .ok ((a.slotted w.receiver).dispatch sockets m.fd m.sender m.msgType m.msg m.stamp a.fate)) :
    (w.receive sockets a).Permutes sockets := by
  rw [receive_ok permutes.running processed, found]
  obtain ⟨running, buffer, order, permuted, delivered⟩ := permutes
  rw [empty] at buffer permuted
  have none : (a.slotted w.receiver).reorderBuffer = none := buffer
  constructor
  · exact running
  · simp only [Option.elim_some, reordered, empty, and_self, if_true, Reception.fate,
      Receiver.dispatch, none, Option.map_some]
    rfl
  · refine ⟨order, ?_, ?_⟩
    · simp only [Option.toList_none, List.append_nil] at permuted
      simpa [reordered, empty] using permuted.append_right [m]
    · simpa [Receiver.dispatch, Reception.fate, reordered, none] using delivered

/-- A message that is delivered while the buffer is empty is delivered as itself. -/
theorem permutes_delivered {m : Incoming} (permutes : w.Permutes sockets) (empty : w.held = none)
    (found : a.message w.receiver = some m) (prompt : a.reordered = false)
    (processed : w.receiver.processPacket sockets a.fd a.sender a.content.packet a.fate =
      .ok ((a.slotted w.receiver).dispatch sockets m.fd m.sender m.msgType m.msg m.stamp a.fate)) :
    (w.receive sockets a).Permutes sockets := by
  rw [receive_ok permutes.running processed, found]
  obtain ⟨running, buffer, order, permuted, delivered⟩ := permutes
  rw [empty] at buffer permuted
  have none : (a.slotted w.receiver).reorderBuffer = none := buffer
  constructor
  · exact running
  · simp [Receiver.dispatch, Receiver.release, Reception.fate, prompt, none]
  · refine ⟨order ++ [m], ?_, ?_⟩
    · simp only [Option.toList_none, List.append_nil] at permuted
      simpa [prompt] using permuted.append_right [m]
    · simp only [Receiver.dispatch, Receiver.release, Reception.fate, prompt, none,
        Bool.false_eq_true, if_false, List.map_append, delivered, List.flatMap_append,
        List.flatMap_singleton]
      rfl

/-- A message that finds another one in the buffer releases it, with its own stamp. The
deliveries are in order exactly if nobody can tell. -/
theorem permutes_released_iff {m held : Incoming} (permutes : w.Permutes sockets)
    (kept : w.held = some held) (found : a.message w.receiver = some m)
    (processed : w.receiver.processPacket sockets a.fd a.sender a.content.packet a.fate =
      .ok ((a.slotted w.receiver).dispatch sockets m.fd m.sender m.msgType m.msg m.stamp a.fate)) :
    (w.receive sockets a).Permutes sockets ↔
      sockets.tells held = [] ∨
        held.stamp.map Multistamp.says = m.stamp.map Multistamp.says := by
  rw [receive_ok permutes.running processed, found]
  obtain ⟨running, buffer, order, permuted, delivered⟩ := permutes
  rw [kept] at buffer permuted
  have full : (a.slotted w.receiver).reorderBuffer = some held.toHeld := buffer
  have released : (a.slotted w.receiver).dispatch sockets m.fd m.sender m.msgType m.msg m.stamp
      a.fate = ({ a.slotted w.receiver with reorderBuffer := none },
        sockets.deliver m.fd m.sender m.msgType m.msg m.stamp ++
          sockets.deliver held.fd held.sender held.msgType held.msg m.stamp) := by
    unfold Receiver.dispatch Receiver.release Reception.fate
    rw [full]
    cases a.reordered <;> rfl
  have told : (w.delivered ++ (sockets.deliver m.fd m.sender m.msgType m.msg m.stamp ++
      sockets.deliver held.fd held.sender held.msgType held.msg m.stamp)).map Delivery.told =
        order.flatMap sockets.tells ++ (sockets.tells m ++
          (sockets.deliver held.fd held.sender held.msgType held.msg m.stamp).map
            Delivery.told) := by
    rw [List.map_append, List.map_append, delivered]
    rfl
  rw [released]
  constructor
  · rintro ⟨-, -, order', permuted', delivered'⟩
    simp only [kept, reduceCtorEq, and_false, if_false, Option.elim_some, Option.toList_none,
      Option.toList_some, List.append_nil] at permuted'
    have same := (permuted'.trans (permuted.symm.append_right [m])).flatMap_right sockets.tells
    rw [← delivered', told] at same
    simp only [Option.toList_some, List.flatMap_append, List.flatMap_singleton,
      List.append_assoc] at same
    have rest := (List.perm_append_left_iff _).mp same
    exact stamped_of_perm ((List.perm_append_left_iff _).mp (rest.trans List.perm_append_comm))
  · intro stamped
    constructor
    · exact running
    · simp [kept]
    · refine ⟨order ++ [m, held], ?_, ?_⟩
      · have swapped : (order ++ [m, held]).Perm (order ++ [held, m]) :=
          (List.Perm.swap held m []).append_left order
        have all := permuted.append_right [m]
        simp only [Option.toList_some, List.append_assoc] at all
        simpa [kept] using swapped.trans all
      · rw [told, map_told_of_stamped stamped]
        simp [List.flatMap_append]

/-- After a packet the receiver is as it should be exactly if the packet was harmless. -/
theorem permutes_receive_iff (permutes : w.Permutes sockets) :
    (w.receive sockets a).Permutes sockets ↔ w.Harmless sockets a := by
  rcases a.outcome w.receiver sockets with ⟨ended, fault, failed⟩ | ⟨survives, processed⟩
  · constructor
    · intro next
      have down := receive_error permutes.running failed
      rw [next.running] at down
      cases down
    · intro harmless
      exact absurd harmless.survives ended
  · cases found : a.message w.receiver with
    | none =>
        rw [found] at processed
        constructor
        · intro _
          constructor
          · exact survives
          · intro held _ m same
            rw [found] at same
            cases same
        · intro _
          exact permutes_skipped permutes found processed
    | some m =>
        rw [found] at processed
        cases kept : w.held with
        | none =>
            constructor
            · intro _
              constructor
              · exact survives
              · intro held same
                rw [kept] at same
                cases same
            · intro _
              cases reordered : a.reordered with
              | true => exact permutes_kept permutes kept found reordered processed
              | false => exact permutes_delivered permutes kept found reordered processed
        | some held =>
            rw [permutes_released_iff permutes kept found processed]
            constructor
            · intro stamped
              constructor
              · exact survives
              · intro held' same m' same'
                obtain rfl := Option.some.inj (kept.symm.trans same)
                obtain rfl := Option.some.inj (found.symm.trans same')
                exact stamped
            · intro harmless
              exact harmless.stamped held kept m found

end Steps

/-- Packets arrive one after the other. -/
def step (sockets : Sockets) (w : Watched) (a : Reception) : Option Watched :=
  some (w.receive sockets a)

theorem runAll_step (sockets : Sockets) (w : Watched) (packets : List Reception) :
    ∃ final, runAll (step sockets) w packets = some final := by
  induction packets generalizing w with
  | nil => exact ⟨w, rfl⟩
  | cons a packets inductionHypothesis =>
      rw [runAll_cons]
      exact inductionHypothesis (w.receive sockets a)

theorem permutes_initial (sockets : Sockets) : ({} : Watched).Permutes sockets where
  running := rfl
  buffer := rfl
  delivered := ⟨[], List.Perm.refl _, rfl⟩

/-- Along any sequence of well-formed packets, on any sockets and with any rolls of
`reorderRate`, each message but the one that is held back has been delivered exactly once, as
itself, exactly if no packet ends the process and every message that is released from the
buffer has the stamp of the one that releases it or nobody to be delivered to. -/
theorem permutes_iff_harmless (sockets : Sockets) (packets : List Reception) :
    Always (step sockets) (Permutes sockets) {} packets ↔
      Harmlessly (step sockets) (Harmless sockets) {} packets := by
  obtain ⟨final, ran⟩ := runAll_step sockets {} packets
  apply @always_iff_harmlessly _ _ (step sockets) {} final packets (fun _ => True)
    (Permutes sockets) (Harmless sockets) _ _ trivial (permutes_initial sockets) ran
  · intro w a next _ _
    trivial
  · intro w a next _ permutes received
    obtain rfl := Option.some.inj received
    exact permutes_receive_iff permutes

/-! ## Two stamped messages -/

/-- A message to group zero, the first one of its session. -/
def numbered (sessnum : Nat) (session : sessnum < 2 ^ 64) : Letter where
  metaData := stampedMetaData 0 sessnum [(0, 1)]
  type := [1]
  data := [2]
  trailing := []
  fits := ⟨by decide, by decide, by rw [length_stampedMetaData]; decide⟩
  header := some ⟨0, sessnum, [(0, 1)], [], by decide, session, by decide⟩
  framed := (List.append_nil _).symm

/-- The message arrives. -/
def numberedReception (sessnum : Nat) (session : sessnum < 2 ^ 64) (reordered : Bool) :
    Reception where
  fd := 0
  sender := System.origin
  content := .message (numbered sessnum session)
  small := by
    simp [Content.packet, Letter.packet, Body.length_bytes, numbered]
  reordered := reordered

/-- The first message is held back, and the second one releases it with its own stamp. -/
theorem not_permutes_released : ¬ ∀ (sockets : Sockets) (packets : List Reception),
    Always (step sockets) (Permutes sockets) {} packets := by
  intro always
  let first := numberedReception 7 (by decide) true
  let second := numberedReception 8 (by decide) false
  have before := always plainSockets [first, second] [first] [second] rfl _ rfl
  have after := always plainSockets [first, second] [first, second] [] rfl _ rfl
  have harmless := (permutes_receive_iff before).mp after
  have kept : ((({} : Watched).receive plainSockets first).held.map fun m =>
      m.stamp.map Multistamp.sessnum) = some (some 7) := by decide +kernel
  have found : ((second.message (({} : Watched).receive plainSockets first).receiver).map fun m =>
      m.stamp.map Multistamp.sessnum) = some (some 8) := by decide +kernel
  obtain ⟨held, kept, own⟩ := Option.map_eq_some_iff.mp kept
  obtain ⟨m, found, lent⟩ := Option.map_eq_some_iff.mp found
  rcases harmless.stamped held kept m found with nobody | same
  · simp [Sockets.tells, Sockets.deliver, plainSockets] at nobody
  · have sessions := congrArg (Option.map Prod.fst) same
    rw [Option.map_map, Option.map_map] at sessions
    have differ : (some 7 : Option Nat) = some 8 := own.symm.trans (sessions.trans lent)
    cases differ

end Watched

end PaxosBus.Udp

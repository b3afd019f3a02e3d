import PaxosBus.Common.Service
import PaxosBus.Unreplicated.Client
import PaxosBus.Unreplicated.Replica

/-!
# The unreplicated service

One `UnreplicatedReplica` with `UnreplicatedClient`s in front of it. Packets are
never taken out of the network: one that is delivered twice is a duplicate, one
that is not delivered is lost. A request takes its place when the replica
executes it, and a duplicate is answered with the reply that was sent then.
-/

set_option autoImplicit false

namespace PaxosBus.Unreplicated

open PaxosBus.Common PaxosBus.Library

/-- A message in transit. -/
structure Packet where
  src : Address
  dst : Address
  msg : Message
deriving DecidableEq, Repr

/-- The replica, and every packet ever handed to the transport. -/
structure System where
  replica : Replica := {}
  stopped : Bool := false
  network : List Packet := []

/-- What the environment can choose next. -/
inductive Action where
  | deliver (position : Nat) (app : App)

/-- The packet of one output of the replica. -/
def Send.packet (send : Send) : Packet where
  src := .replica 0
  dst := send.dst
  msg := send.msg

/-- The message for a client that a packet is. -/
def Packet.delivery : Packet → Option (Nat × ClientCall)
  | ⟨_, .replica _, _⟩ => none
  | ⟨_, .client clientid, msg⟩ =>
    match msg with
    | .reply msg => some (clientid, .reply msg.req.clientreqid msg.reply)
    | .unloggedReply msg => some (clientid, .unloggedReply msg.reply)
    | _ => some (clientid, .unexpected)

namespace System

/-- Run a handler on the replica, and send what it puts out. -/
def absorb (s : System) (outcome : Outcome Replica Send Unit) : System where
  replica := outcome.state
  stopped := outcome.value.isNone
  network := s.network ++ outcome.outputs.map Send.packet

/-- One step of the replica. -/
def stepGroup (s : System) : Action → Option System
  | .deliver position app =>
    match s.network[position]? with
    | some ⟨src, .replica 0, msg⟩ =>
      if s.stopped = false then
        some (s.absorb (receiveMessage app src msg s.replica))
      else
        none
    | _ => none

/-- A client sends a packet. -/
def post (s : System) (clientid : Nat) (dst : Nat) (msg : Message) : System :=
  { s with network := s.network ++ [{ src := .client clientid, dst := .replica dst, msg := msg }] }

/-- The request that is at a position of the network. -/
def requestAt (s : System) (position : Nat) : Option Request :=
  s.network[position]?.bind fun packet =>
    match packet.msg with
    | .request msg => some msg.req
    | _ => none

/-- What the application answers is given by the requests that it has executed before. -/
def Copies (answer : List Request → Request → String) (s : System) : Action → Prop
  | .deliver position app =>
    ∀ req ∈ s.requestAt position, app.execute req = answer s.replica.executed req

instance (answer : List Request → Request → String) (s : System) :
    ∀ action, Decidable (s.Copies answer action)
  | .deliver position app =>
    inferInstanceAs (Decidable (∀ req ∈ s.requestAt position,
      app.execute req = answer s.replica.executed req))

end System

/-- The replica as its clients see it. They send to replica 0 only. -/
def group : Group System Action where
  initial := {}
  request s clientid dst req := s.post clientid (dst.getD 0) (.request { req := req })
  unloggedRequest s clientid replicaIdx req :=
    s.post clientid replicaIdx (.unloggedRequest { req := req })
  step := System.stepGroup
  delivery s position := s.network[position]?.bind Packet.delivery

/-- The replica with its clients. -/
def service (operation : Nat → Nat → String) :
    TransitionSystem (Service System UnreplicatedClient) (ServiceAction Action) :=
  Service.system group UnreplicatedClient.program operation

variable {answer : List Request → Request → String} {operation : Nat → Nat → String} {s : System}
  {asked asked' : Request → Prop} {log log' : List Request} {packet : Packet}

/-! ## What stands behind the replica -/

/-- A packet asks for what has been asked for, and tells a client what is right. -/
structure Packet.Sincere (answer : List Request → Request → String) (asked : Request → Prop)
    (log : List Request) (packet : Packet) : Prop where
  request : ∀ msg, packet.msg = .request msg →
    asked msg.req ∧ 0 < msg.req.clientreqid ∧ packet.src = .client msg.req.clientid
  told : ∀ clientid msg, packet.dst = .client clientid → packet.msg = .reply msg →
    Correct answer log clientid msg.req.clientreqid msg.reply
  sender : ∀ idx, packet.dst = .replica idx → ∃ clientid, packet.src = .client clientid
  expected : ∀ idx, packet.dst = .replica idx →
    (∃ msg, packet.msg = .request msg) ∨ ∃ msg, packet.msg = .unloggedRequest msg

/-- The requests that the replica has executed stand behind it. -/
structure System.Stands (answer : List Request → Request → String) (s : System)
    (log : List Request) (asked : Request → Prop) : Prop where
  sound : s.replica.Sound
  running : s.stopped = false
  executed : s.replica.executed = log
  made : ∀ req ∈ log, asked req
  positive : ∀ req ∈ log, 0 < req.clientreqid
  once : (log.map Request.reqid).Nodup
  /-- The replies that the client table keeps are those to the requests that it names. -/
  number : ∀ clientid entry, s.replica.clientTable clientid = some entry →
    entry.reply.req.clientreqid = entry.lastReqId
  told : ∀ clientid entry, s.replica.clientTable clientid = some entry →
    Correct answer log clientid entry.lastReqId entry.reply.reply
  sincere : ∀ packet ∈ s.network, packet.Sincere answer asked log

/-- More may have been asked for, and more requests may have been executed. -/
theorem Packet.Sincere.renew (sincere : packet.Sincere answer asked log)
    (requests : ∀ req, asked req → asked' req) (added : List Request) :
    packet.Sincere answer asked' (log ++ added) where
  request msg found := by
    obtain ⟨made, positive, src⟩ := sincere.request msg found
    exact ⟨requests _ made, positive, src⟩
  told clientid msg dst found := (sincere.told clientid msg dst found).append
  sender := sincere.sender
  expected := sincere.expected

namespace System

/-- What is sent without a change of the replica leaves what stands behind it. -/
theorem Stands.send (stands : s.Stands answer log asked) {packets : List Packet}
    (sincere : ∀ packet ∈ packets, packet.Sincere answer asked log) :
    ({ s with network := s.network ++ packets } : System).Stands answer log asked :=
  { stands with
    sincere := by
      intro packet inNetwork
      rcases List.mem_append.mp inNetwork with old | new
      · exact stands.sincere packet old
      · exact sincere packet new }

/-- A packet to a client that tells it what is right is sincere. -/
theorem sincere_reply {clientid : Nat} {msg : ReplyMessage}
    (right : Correct answer log clientid msg.req.clientreqid msg.reply) :
    (Send.packet ⟨.client clientid, .reply msg⟩).Sincere answer asked log where
  request := by
    rintro other ⟨⟩
  told := by
    rintro other msg ⟨⟩ ⟨⟩
    exact right
  sender := by
    rintro idx ⟨⟩
  expected := by
    rintro idx ⟨⟩

/-- A request that the client table does not know has not been executed. -/
theorem Stands.not_executed (stands : s.Stands answer log asked) {req : Request}
    (fresh : s.replica.Fresh req) : req.reqid ∉ log.map Request.reqid := by
  intro member
  obtain ⟨other, inLog, same⟩ := List.mem_map.mp member
  obtain ⟨client, number⟩ := Prod.mk.inj same
  obtain ⟨entry, known, le⟩ := stands.sound.table other (stands.executed ▸ inLog)
    (stands.positive other inLog)
  have lt := fresh entry (client ▸ known)
  exact Nat.lt_irrefl _ (Nat.lt_of_lt_of_le (number ▸ lt) le)

/-- Executing a fresh request puts it behind the replica. -/
theorem Stands.execute {app : App} {req : Request} {appended : Log Unit}
    (stands : s.Stands answer log asked) (fresh : s.replica.Fresh req) (made : asked req)
    (positive : 0 < req.clientreqid) (copies : app.execute req = answer log req)
    (append : s.replica.log.append { view := 0, opnum := s.replica.lastOp + 1 } req .received =
      some appended) :
    (s.absorb ⟨s.replica.execute app req appended,
      [⟨.client req.clientid, .reply (reply app req)⟩], some ()⟩).Stands answer (log ++ [req])
        asked := by
  have right : Correct answer (log ++ [req]) req.clientid req.clientreqid (app.execute req) := by
    refine ⟨log.length, req, List.getElem?_concat_length, rfl, rfl, ?_⟩
    rw [List.take_left]
    exact copies
  have entries : ∀ clientid entry,
      (s.replica.execute app req appended).clientTable clientid = some entry →
        (clientid = req.clientid ∧ entry = ⟨req.clientreqid, reply app req⟩) ∨
          s.replica.clientTable clientid = some entry := by
    intro clientid entry known
    by_cases who : clientid = req.clientid
    · subst who
      simp only [Replica.execute, Function.update_self] at known
      exact .inl ⟨rfl, (Option.some.inj known).symm⟩
    · simp only [Replica.execute, Function.update_of_ne who] at known
      exact .inr known
  constructor
  · exact stands.sound.execute fresh append
  · rfl
  · show s.replica.executed ++ [req] = log ++ [req]
    rw [stands.executed]
  · intro other member
    rcases List.mem_append.mp member with before | now
    · exact stands.made other before
    · obtain rfl := List.mem_singleton.mp now
      exact made
  · intro other member
    rcases List.mem_append.mp member with before | now
    · exact stands.positive other before
    · obtain rfl := List.mem_singleton.mp now
      exact positive
  · rw [List.map_append]
    apply List.nodup_append.mpr
    refine ⟨stands.once, List.nodup_singleton _, ?_⟩
    rintro reqid inLog _ single rfl
    obtain rfl := List.mem_singleton.mp single
    exact stands.not_executed fresh inLog
  · intro clientid entry known
    rcases entries clientid entry known with ⟨-, rfl⟩ | before
    · rfl
    · exact stands.number clientid entry before
  · intro clientid entry known
    rcases entries clientid entry known with ⟨rfl, rfl⟩ | before
    · exact right
    · exact (stands.told clientid entry before).append
  · intro packet inNetwork
    rcases List.mem_append.mp inNetwork with old | new
    · exact (stands.sincere packet old).renew (fun _ made => made) [req]
    · obtain rfl := List.mem_singleton.mp new
      exact sincere_reply right

/-- A request leaves what stands behind the replica, or puts itself behind it. -/
theorem Stands.handleRequest {app : App} {msg : RequestMessage}
    (stands : s.Stands answer log asked) (made : asked msg.req) (positive : 0 < msg.req.clientreqid)
    (copies : app.execute msg.req = answer log msg.req) :
    ∃ added, (s.absorb (Unreplicated.handleRequest app (.client msg.req.clientid) msg
      s.replica)).Stands answer (log ++ added) asked := by
  rcases @handleRequest_cases app s.replica (.client msg.req.clientid) msg stands.sound positive
    with ⟨entry, -, -, same⟩ | ⟨entry, known, number, same⟩ | ⟨appended, fresh, append, same⟩
  · refine ⟨[], ?_⟩
    rw [same, List.append_nil]
    show ({ s with stopped := false, network := s.network ++ [] } : System).Stands answer log asked
    rw [← stands.running]
    apply stands.send
    intro packet none_
    cases none_
  · refine ⟨[], ?_⟩
    rw [same, List.append_nil]
    show ({ s with stopped := false, network := s.network ++ [_] } : System).Stands answer log asked
    rw [← stands.running]
    apply stands.send
    intro packet single
    obtain rfl := List.mem_singleton.mp single
    apply sincere_reply
    rw [stands.number _ entry known]
    exact stands.told _ entry known
  · refine ⟨[msg.req], ?_⟩
    rw [same]
    exact stands.execute fresh made positive copies append

/-- The reply to an unlogged request leaves what stands behind the replica. -/
theorem Stands.handleUnloggedRequest {app : App} {clientid : Nat} {msg : UnloggedRequestMessage}
    (stands : s.Stands answer log asked) :
    (s.absorb (Unreplicated.handleUnloggedRequest app (.client clientid) msg s.replica)).Stands
      answer log asked := by
  show ({ s with stopped := false, network := s.network ++ [_] } : System).Stands answer log asked
  rw [← stands.running]
  apply stands.send
  intro packet single
  obtain rfl := List.mem_singleton.mp single
  constructor
  · rintro other ⟨⟩
  · rintro clientid other - ⟨⟩
  · rintro idx ⟨⟩
  · rintro idx ⟨⟩

/-- A step leaves what stands behind the replica, or puts one request more behind it. -/
theorem Stands.step {action : Action} {next : System} (stands : s.Stands answer log asked)
    (copies : s.Copies answer action) (stepped : s.stepGroup action = some next) :
    ∃ added, next.Stands answer (log ++ added) asked := by
  obtain ⟨position, app⟩ := action
  simp only [stepGroup] at stepped
  split at stepped
  next src msg found =>
      rw [if_pos stands.running] at stepped
      obtain rfl := Option.some.inj stepped
      have sincere := stands.sincere _ (List.mem_of_getElem? found)
      obtain ⟨clientid, rfl⟩ := sincere.sender 0 rfl
      rcases sincere.expected 0 rfl with ⟨request, rfl⟩ | ⟨unlogged, rfl⟩
      · obtain ⟨made, positive, src⟩ := sincere.request request rfl
        cases src
        apply stands.handleRequest made positive
        rw [← stands.executed]
        apply copies
        unfold requestAt
        rw [found]
        rfl
      · refine ⟨[], ?_⟩
        rw [List.append_nil]
        exact stands.handleUnloggedRequest
  next => cases stepped

/-- A packet of a client that asks for what has been asked for leaves what stands behind the
replica. -/
theorem Stands.post (stands : s.Stands answer log asked) {clientid dst : Nat} {msg : Message}
    (request : ∀ request, msg = .request request →
      asked request.req ∧ 0 < request.req.clientreqid ∧ request.req.clientid = clientid)
    (expected : (∃ request, msg = .request request) ∨ ∃ request, msg = .unloggedRequest request) :
    (s.post clientid dst msg).Stands answer log asked := by
  apply stands.send
  intro packet single
  obtain rfl := List.mem_singleton.mp single
  constructor
  · intro found same
    obtain ⟨made, positive, mine⟩ := request found same
    exact ⟨made, positive, congrArg Address.client mine.symm⟩
  · rintro other reply ⟨⟩
  · exact fun _ _ => ⟨clientid, rfl⟩
  · exact fun _ _ => expected

/-- More may have been asked for. -/
theorem Stands.more (stands : s.Stands answer log asked)
    (requests : ∀ req, asked req → asked' req) : s.Stands answer log asked' :=
  { stands with
    made := fun req member => requests req (stands.made req member)
    sincere := by
      intro packet inNetwork
      have renewed := (stands.sincere packet inNetwork).renew requests []
      rw [List.append_nil] at renewed
      exact renewed }

/-- At first, nothing stands behind the replica. -/
theorem stands_initial (answer : List Request → Request → String) (asked : Request → Prop) :
    ({} : System).Stands answer [] asked where
  sound := {
    start := rfl
    log := rfl
    lastOp := rfl
    table := fun _ none_ => by cases none_ }
  running := rfl
  executed := rfl
  made _ none_ := by cases none_
  positive _ none_ := by cases none_
  once := List.nodup_nil
  number _ _ none_ := by cases none_
  told _ _ none_ := by cases none_
  sincere _ none_ := by cases none_

end System

/-- What a packet for a client says. -/
theorem of_delivery {position clientid : Nat} {call : ClientCall}
    (delivered : group.delivery s position = some (clientid, call)) :
    ∃ packet ∈ s.network, packet.dst = .client clientid ∧
      ((∃ msg, packet.msg = .reply msg ∧ call = .reply msg.req.clientreqid msg.reply) ∨
        (∃ reply, call = .unloggedReply reply) ∨ call = .unexpected) := by
  obtain ⟨⟨src, dst, msg⟩, found, delivery⟩ := Option.bind_eq_some_iff.mp delivered
  refine ⟨_, List.mem_of_getElem? found, ?_⟩
  cases dst with
  | replica idx => cases delivery
  | client other =>
      cases msg with
      | reply msg =>
          cases delivery
          exact ⟨rfl, .inl ⟨msg, rfl, rfl⟩⟩
      | unloggedReply msg =>
          cases delivery
          exact ⟨rfl, .inr (.inl ⟨msg.reply, rfl⟩)⟩
      | request | unloggedRequest =>
          cases delivery
          exact ⟨rfl, .inr (.inr rfl)⟩

/-- The group serves: the requests that the replica has executed stand behind it. -/
theorem serves (answer : List Request → Request → String) (operation : Nat → Nat → String) :
    group.Serves (System.Copies answer) operation answer (System.Stands answer) where
  initial := System.stands_initial answer
  more stands requests := stands.more requests
  request {g log asked req dst} stands made positive _ := by
    apply stands.post
    · rintro request ⟨⟩
      exact ⟨made, positive, rfl⟩
    · exact .inl ⟨_, rfl⟩
  unlogged stands := by
    apply stands.post
    · rintro request ⟨⟩
    · exact .inr ⟨_, rfl⟩
  step stands copies stepped := stands.step copies stepped
  asked stands := stands.made
  once stands := stands.once.of_map
  reply stands delivered := by
    obtain ⟨packet, inNetwork, dst, ⟨msg, found, same⟩ | ⟨reply, same⟩ | same⟩ :=
      of_delivery delivered
    · cases same
      exact (stands.sincere packet inNetwork).told _ msg dst found
    · cases same
    · cases same
  calls delivered := by
    obtain ⟨packet, -, -, ⟨msg, -, same⟩ | ⟨reply, same⟩ | same⟩ := of_delivery delivered
    · cases same
    · cases same
    · cases same

/-- In every reachable state the replica has not stopped, and its log is a linearization of what the
clients have seen: it holds no request twice and none that was not made, a request has returned what
the application answers at its place in the log, and a request that returned before another one was
made is before it in the log. -/
theorem oneCopy_of_reachable {s : Service System UnreplicatedClient}
    (reachable : (service operation).Reachable (Service.Guarded (System.Copies answer)) s) :
    s.group.stopped = false ∧ Object.Lawful (Service.kind answer)
      { applied := s.group.replica.log.requests, history := s.history } := by
  obtain ⟨o, reached, history, stands⟩ :=
    Service.seen_of_reachable (serves answer operation) UnreplicatedClient.orderly reachable
  have lawful := (Object.invariant_lawful (Service.kind answer)).of_reachable reached
  have applied : s.group.replica.log.requests = o.applied := stands.sound.log.trans stands.executed
  rw [applied, ← history]
  exact ⟨stands.running, lawful⟩

/-- An application that tells the first request from the later ones. -/
def firstOrLater (before : List Request) (_ : Request) : String :=
  if before.length = 0 then "first" else "later"

/-- Two clients make a request, and the second one is executed first. A duplicate of it is answered
from the client table, and the second answer is the one that its client gets. -/
def duplicateRun : List (ServiceAction Action) :=
  [.invoke 7, .invoke 8, .group (.deliver 1 { execute := fun _ => "first" }),
    .group (.deliver 0 { execute := fun _ => "later" }),
    .group (.deliver 1 { execute := fun _ => "later" }), .deliver 4]

instance (s : Service System UnreplicatedClient) :
    ∀ action, Decidable (Service.Guarded (System.Copies firstOrLater) s action)
  | .group action => inferInstanceAs (Decidable (System.Copies firstOrLater s.group action))
  | .invoke _ => .isTrue trivial
  | .invokeUnlogged .. => .isTrue trivial
  | .deliver _ => .isTrue trivial
  | .timer .. => .isTrue trivial

theorem oneCopy_duplicateRun : ∃ s : Service System UnreplicatedClient,
    s.history.length = 3 ∧ s.group.stopped = false ∧ Object.Lawful (Service.kind firstOrLater)
      { applied := s.group.replica.log.requests, history := s.history } := by
  obtain ⟨s, reachable, happened⟩ := (service fun _ _ => "op").exists_reachable_of_run
    (Service.Guarded (System.Copies firstOrLater))
    (fun s => decide (s.history.length = 3 ∧ s.group.replica.log.requests.length = 2))
    duplicateRun rfl (by decide +kernel)
  exact ⟨s, (of_decide_eq_true happened).1, oneCopy_of_reachable reachable⟩

end PaxosBus.Unreplicated

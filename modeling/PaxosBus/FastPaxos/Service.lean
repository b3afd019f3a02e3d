import PaxosBus.Common.FirstReplyClient
import PaxosBus.Common.Service
import PaxosBus.FastPaxos.Agreement
import PaxosBus.FastPaxos.Answers

/-!
# Fast Paxos as a service

The group of replicas with `FastPaxosClient`s in front of it. If the
applications of the replicas are copies of one that answers a request the same
way whenever the same requests came before it, then the clients see one copy of
it: a request takes its place when the leader puts it into its log.
-/

set_option autoImplicit false

namespace PaxosBus.FastPaxos

open PaxosBus.Common PaxosBus.Library
open Logic (Meets)

/-- `FastPaxosClient`. -/
abbrev FastPaxosClient := FirstReplyClient

section Group

variable (d : Deployment)

/-- The replicas that a client's request goes to. -/
def Deployment.targets : Option Nat → List Nat
  | none => List.range d.configuration.n
  | some idx => [idx]

/-- The packets of a client's request. -/
def Deployment.requestPackets (clientid : Nat) (dst : Option Nat) (req : Request) : List Packet :=
  (d.targets dst).map fun idx =>
    { src := .client clientid, dst := .replica idx, msg := .request { req := req } }

/-- The message for a client that a packet is. -/
def Packet.delivery : Packet → Option (Nat × ClientCall)
  | ⟨_, .replica _, _⟩ => none
  | ⟨_, .client clientid, msg⟩ =>
    match msg with
    | .reply msg => some (clientid, .reply msg.clientreqid msg.reply)
    | .unloggedReply msg => some (clientid, .unloggedReply msg.reply)
    | _ => some (clientid, .unexpected)

/-- The steps of the group itself. -/
def System.stepGroup (s : System) : Action → Option System
  | .request .. => none
  | .unloggedRequest .. => none
  | .deliver position app => s.step d (.deliver position app)
  | .timer idx timer => s.step d (.timer idx timer)

/-- The group of replicas as its clients see it. -/
def group : Group System Action where
  initial := System.initial d
  request s clientid dst req := { s with network := s.network ++ d.requestPackets clientid dst req }
  unloggedRequest s clientid replicaIdx req :=
    { s with
      network := s.network ++
        [{ src := .client clientid, dst := .replica replicaIdx,
           msg := .unloggedRequest { op := req.op } }] }
  step := System.stepGroup d
  delivery s position := s.network[position]?.bind Packet.delivery

/-- The group with its clients. -/
def service : TransitionSystem (Service System FastPaxosClient) (ServiceAction Action) :=
  Service.system (group d) FirstReplyClient.program d.operation

end Group

/-! ## Copies of one application -/

section Copies

variable (d : Deployment) (answer : List Request → Request → String)

/-- What the application has answered to the requests executed since there were `before` of them is
what it answers after those executed earlier. -/
def Answers (app : App) (before : Nat) (executed : List Request) : Prop :=
  ∀ index < executed.length, before ≤ index → ∀ req ∈ executed[index]?,
    app.execute (index + 1) req = answer (executed.take index) req

instance (app : App) (before : Nat) (executed : List Request) :
    Decidable (Answers answer app before executed) :=
  inferInstanceAs (Decidable (∀ index < executed.length, before ≤ index → ∀ req ∈ executed[index]?,
    app.execute (index + 1) req = answer (executed.take index) req))

/-- The replica that a packet is for has the application answer so when it handles the packet. -/
def System.AnswersTo (s : System) (app : App) : Option Packet → Prop
  | some ⟨src, .replica idx, msg⟩ =>
    Answers answer app (s.replicas idx).executed.length
      (receiveMessage (d.setup idx) app src msg (s.replicas idx)).state.executed
  | some ⟨_, .client _, _⟩ => True
  | none => True

instance (s : System) (app : App) : ∀ packet, Decidable (s.AnswersTo d answer app packet)
  | some ⟨src, .replica idx, msg⟩ =>
    inferInstanceAs (Decidable (Answers answer app (s.replicas idx).executed.length
      (receiveMessage (d.setup idx) app src msg (s.replicas idx)).state.executed))
  | some ⟨_, .client _, _⟩ => .isTrue trivial
  | none => .isTrue trivial

/-- The applications of the replicas are copies of one. -/
def System.Copies (s : System) : Action → Prop
  | .deliver position app => s.AnswersTo d answer app s.network[position]?
  | .request .. => True
  | .unloggedRequest .. => True
  | .timer .. => True

instance (s : System) : ∀ action, Decidable (s.Copies d answer action)
  | .deliver position app =>
    inferInstanceAs (Decidable (s.AnswersTo d answer app s.network[position]?))
  | .request .. => .isTrue trivial
  | .unloggedRequest .. => .isTrue trivial
  | .timer .. => .isTrue trivial

end Copies

variable {d : Deployment} {answer : List Request → Request → String} {s : System} {w : Course}
  {asked : Request → Prop} {idx : Nat}

/-! ## What stands behind the group -/

/-- A course stands behind the state that a handler leads to, in which the leader's log has only
grown. -/
theorem System.Stands.run {strict : Prop} (stands : s.Stands d strict w) {handler : Run Unit}
    (meets : (logic d strict idx).Meets handler w (s.replicas idx) fun _ w' r' =>
      r'.core.Leaves d idx w w') :
    ∃ w', w.log <+: w'.log ∧ (s.absorb d idx (handler (s.replicas idx))).Stands d strict w' := by
  obtain ⟨w', later, valid, follows, post⟩ := meets
  refine ⟨w', later.log, stands.absorb later valid follows fun ended => ?_⟩
  cases value : (handler (s.replicas idx)).value with
  | none => simp [value] at ended
  | some result => exact (post result value).2

/-- Clients' packets change nothing. -/
theorem System.Stands.post_clients {strict : Prop} (stands : s.Stands d strict w)
    {packets : List Packet} (fromClients : ∀ packet ∈ packets, packet.Valid d w) :
    ({ s with network := s.network ++ packets } : System).Stands d strict w where
  follows := stands.follows
  settled := stands.settled
  valid packet inNetwork := by
    rcases List.mem_append.mp inNetwork with old | new
    · exact stands.valid packet old
    · exact fromClients packet new

/-- The terms between two steps: a client has been told what is right by the leader's log. -/
def settledTerms (answer : List Request → Request → String) (asked : Request → Prop)
    (log : List Request) (before : Nat) (app : App) : Terms where
  asked := asked
  said clientid reply := Correct answer log clientid reply.clientreqid reply.reply
  before := before
  app := app

/-- A packet asks for what has been asked for, and tells a client what is right. -/
structure Packet.Sincere (answer : List Request → Request → String) (asked : Request → Prop)
    (log : List Request) (packet : Packet) : Prop where
  admissible : packet.msg.Admissible (settledTerms answer asked log 0 {}) packet.src
  told : ∀ clientid msg, packet.dst = .client clientid → packet.msg = .reply msg →
    Correct answer log clientid msg.clientreqid msg.reply

/-- All replicas are honest, and all packets are sincere. -/
structure System.Sincere (answer : List Request → Request → String) (asked : Request → Prop)
    (log : List Request) (s : System) : Prop where
  honest : ∀ idx app, (settledTerms answer asked log (s.replicas idx).executed.length app).Honest
    (s.replicas idx).executed (s.replicas idx)
  sincere : ∀ packet ∈ s.network, packet.Sincere answer asked log

/-- The requests of the leader's log stand behind the group. -/
def Behind (d : Deployment) (answer : List Request → Request → String) (s : System)
    (log : List Request) (asked : Request → Prop) : Prop :=
  ∃ w, s.Stands d False w ∧ w.log = log ∧ s.Sincere answer asked log

/-! ## A step of the group -/

/-- An honest replica is honest by other terms that allow as much. -/
theorem Terms.Honest.renew {t t' : Terms} {executed : List Request} {r : Replica}
    (honest : t.Honest executed r) (requests : ∀ req, t.asked req → t'.asked req)
    (replies : ∀ clientid reply, t.Told executed clientid reply → t'.Told executed clientid reply)
    (before : t'.before ≤ executed.length) : t'.Honest executed r where
  history := honest.history
  before := before
  table clientid entry found replied :=
    replies clientid entry.reply (honest.table clientid entry found replied)
  addresses := honest.addresses
  log req member := requests req (honest.log req member)
  prepares entry member positive := requests _ (honest.prepares entry member positive)
  lastPrepare positive := requests _ (honest.lastPrepare positive)

/-- What a client may be told is right, if the application is a copy and what has been executed is
the beginning of the leader's log. -/
theorem correct_of_told {log log' executed : List Request} {app : App} {before clientid : Nat}
    {reply : ReplyMessage}
    (told : (settledTerms answer asked log before app).Told executed clientid reply)
    (answers : Answers answer app before executed) (more : log <+: log')
    (beginning : executed <+: log') :
    Correct answer log' clientid reply.clientreqid reply.reply := by
  rcases told with said | ⟨index, req, after, here, client, number, text⟩
  · exact said.of_longer more
  · have inside := (List.getElem?_eq_some_iff.mp here).1
    have right : Correct answer executed clientid reply.clientreqid reply.reply :=
      ⟨index, req, here, client, number, text.trans (answers index inside after req here)⟩
    exact right.of_longer beginning

/-- What is admissible stays so when more is right. -/
theorem Message.Admissible.renew {t t' : Terms} {src : Address} {msg : Message}
    (admissible : msg.Admissible t src) (requests : ∀ req, t.asked req → t'.asked req) :
    msg.Admissible t' src := by
  cases msg with
  | request msg => exact ⟨requests _ admissible.1, admissible.2⟩
  | prepare msg => exact fun positive => requests _ (admissible positive)
  | commit msg => exact requests _ admissible
  | stateTransfer msg => exact fun entry member => requests _ (admissible entry member)
  | reply | unloggedRequest | unloggedReply | prepareOK | requestStateTransfer => trivial

theorem Packet.Sincere.renew {asked' : Request → Prop} {log log' : List Request} {packet : Packet}
    (sincere : packet.Sincere answer asked log) (requests : ∀ req, asked req → asked' req)
    (more : log <+: log') : packet.Sincere answer asked' log' where
  admissible := sincere.admissible.renew requests
  told clientid msg dst found := (sincere.told clientid msg dst found).of_longer more

/-- What is sent is sincere, if what clients may be told is right. -/
theorem Packet.sincere_of_honest {t : Terms} {log : List Request} {executed : List Request}
    {send : Send} (honest : send.Honest t executed) (requests : ∀ req, t.asked req → asked req)
    (right : ∀ clientid reply, t.Told executed clientid reply →
      Correct answer log clientid reply.clientreqid reply.reply) :
    ∀ packet ∈ post d.configuration idx send, packet.Sincere answer asked log := by
  rintro ⟨src, dst, msg⟩ posted
  obtain ⟨-, rfl, addressed⟩ := of_mem_post posted
  unfold Send.Honest at honest
  constructor
  · simp only
    cases found : send.msg with
    | request msg => simp only [found] at honest
    | prepare msg =>
        simp only [found] at honest
        exact fun positive => requests _ (honest positive)
    | commit msg =>
        simp only [found] at honest
        exact requests _ honest
    | stateTransfer msg =>
        simp only [found] at honest
        exact fun entry member => requests _ (honest entry member)
    | reply | unloggedRequest | unloggedReply | prepareOK | requestStateTransfer => trivial
  · rintro clientid msg to_ found
    simp only at to_ found
    simp only [found] at honest
    obtain ⟨other, one, told⟩ := honest
    have same := addressed _ one
    simp only at same
    cases to_.symm.trans same
    exact right clientid msg told

namespace System

/-- What a replica does is sincere. -/
theorem Sincere.absorb {log log' : List Request} {app : App} {handler : Run Unit}
    (sincere : s.Sincere answer asked log) (counted : (s.replicas idx).core.Counted)
    (sound : (settledTerms answer asked log (s.replicas idx).executed.length app).Sound handler)
    (answers : Answers answer app (s.replicas idx).executed.length
      (handler (s.replicas idx)).state.executed)
    (more : log <+: log') (beginning : (handler (s.replicas idx)).state.executed <+: log') :
    (s.absorb d idx (handler (s.replicas idx))).Sincere answer asked log' := by
  obtain ⟨executed, -, valid, honest, -⟩ :=
    sound _ (s.replicas idx) (sincere.honest idx app) counted
  have history := honest.history
  rw [history] at answers beginning
  have right : ∀ clientid reply, (settledTerms answer asked log
      (s.replicas idx).executed.length app).Told executed clientid reply →
        Correct answer log' clientid reply.clientreqid reply.reply :=
    fun _ _ told => correct_of_told told answers more beginning
  constructor
  · intro other app'
    by_cases who : other = idx
    · subst who
      simp only [System.absorb, Function.update_self, history]
      exact honest.renew (fun _ asked => asked) (fun clientid reply told =>
        .inl (right clientid reply told)) (Nat.le_refl _)
    · simp only [System.absorb, Function.update_of_ne who]
      refine (sincere.honest other app').renew (fun _ asked => asked) ?_ (Nat.le_refl _)
      rintro clientid reply (said | ⟨index, req, after, here, -⟩)
      · exact .inl (said.of_longer more)
      · have inside := (List.getElem?_eq_some_iff.mp here).1
        exact absurd inside (Nat.not_lt.mpr after)
  · intro packet inNetwork
    rcases List.mem_append.mp inNetwork with old | new
    · exact (sincere.sincere packet old).renew (fun _ asked => asked) more
    · obtain ⟨output, inOutputs, posted⟩ := List.mem_flatMap.mp new
      exact Packet.sincere_of_honest (valid output inOutputs) (fun _ asked => asked) right
        packet posted

/-- More requests may have been asked for. -/
theorem Sincere.more {asked' : Request → Prop} {log : List Request}
    (sincere : s.Sincere answer asked log) (requests : ∀ req, asked req → asked' req) :
    s.Sincere answer asked' log where
  honest idx app := (sincere.honest idx app).renew requests (fun _ _ told => told) (Nat.le_refl _)
  sincere packet inNetwork := (sincere.sincere packet inNetwork).renew requests List.prefix_rfl

/-- Clients' packets that are sincere change nothing. -/
theorem Sincere.post_clients {log : List Request} (sincere : s.Sincere answer asked log)
    {packets : List Packet} (fromClients : ∀ packet ∈ packets, packet.Sincere answer asked log) :
    ({ s with network := s.network ++ packets } : System).Sincere answer asked log where
  honest := sincere.honest
  sincere packet inNetwork := by
    rcases List.mem_append.mp inNetwork with old | new
    · exact sincere.sincere packet old
    · exact fromClients packet new

/-- At first, nobody has been told anything. -/
theorem sincere_initial (d : Deployment) (answer : List Request → Request → String)
    (asked : Request → Prop) : (initial d).Sincere answer asked [] where
  honest idx app := {
    history := rfl
    before := Nat.le_refl 0
    table := fun _ _ none_ => by cases none_
    addresses := fun _ _ none_ => by cases none_
    log := fun _ none_ => by cases none_
    prepares := fun _ none_ => by cases none_
    lastPrepare := fun positive => absurd positive (Nat.lt_irrefl 0) }
  sincere _ none_ := by cases none_

end System

/-- A step of the group leaves a longer log of the leader behind it. -/
theorem Behind.step {log : List Request} {action : Action} {next : System}
    (behind : Behind d answer s log asked) (copies : s.Copies d answer action)
    (stepped : s.stepGroup d action = some next) :
    ∃ added, Behind d answer next (log ++ added) asked := by
  obtain ⟨w, stands, rfl, sincere⟩ := behind
  cases action with
  | request => cases stepped
  | unloggedRequest => cases stepped
  | deliver position app =>
      simp only [System.stepGroup, System.step] at stepped
      split at stepped
      next src idx msg found =>
          unfold System.runAt at stepped
          split at stepped
          next enabled =>
              obtain rfl := Option.some.inj stepped
              have member := List.mem_of_getElem? found
              have settled := stands.settled idx enabled.2
              obtain ⟨w', ⟨added, grown⟩, stands'⟩ := stands.run (receiveMessage_meets enabled.1
                (stands.follows idx) settled (stands.valid _ member) fun _ none_ => none_.elim)
              simp only [System.Copies, found] at copies
              have beginning := (stands'.follows idx).executed
              simp only [System.absorb, Function.update_self] at beginning
              refine ⟨added, w', stands', grown.symm, ?_⟩
              rw [grown]
              exact sincere.absorb settled.counted (receiveMessage_sound
                ((sincere.sincere _ member).admissible.renew fun _ asked => asked)) copies
                ⟨added, grown⟩ beginning
          next => cases stepped
      next => cases stepped
  | timer idx timer =>
      simp only [System.stepGroup, System.step] at stepped
      split at stepped
      next =>
          unfold System.runAt at stepped
          split at stepped
          next enabled =>
              obtain rfl := Option.some.inj stepped
              have settled := stands.settled idx enabled.2
              obtain ⟨w', ⟨added, grown⟩, stands'⟩ :=
                stands.run (fireTimer_meets (stands.follows idx) settled)
              have beginning := (stands'.follows idx).executed
              simp only [System.absorb, Function.update_self] at beginning
              -- a timer executes nothing, so any answers will do
              have answers : Answers answer
                  { execute := fun opnum req => answer
                      ((fireTimer (d.setup idx) timer (s.replicas idx)).state.executed.take
                        (opnum - 1)) req }
                  (s.replicas idx).executed.length
                  (fireTimer (d.setup idx) timer (s.replicas idx)).state.executed := by
                intro index _ _ req _
                rfl
              refine ⟨added, w', stands', grown.symm, ?_⟩
              rw [grown]
              exact sincere.absorb settled.counted fireTimer_sound answers ⟨added, grown⟩ beginning
          next => cases stepped
      next => cases stepped

/-- The group serves: the leader's log stands behind it. -/
theorem serves (d : Deployment) (answer : List Request → Request → String) :
    (group d).Serves (System.Copies d answer) d.operation answer (Behind d answer) where
  initial asked :=
    ⟨{}, System.stands_initial d False, rfl, System.sincere_initial d answer asked⟩
  more behind requests := by
    obtain ⟨w, stands, log, sincere⟩ := behind
    exact ⟨w, stands, log, sincere.more requests⟩
  request {g log asked req dst} behind made _ op := by
    obtain ⟨w, stands, log, sincere⟩ := behind
    refine ⟨w, stands.post_clients ?_, log, sincere.post_clients ?_⟩
    · intro packet member
      obtain ⟨idx, -, rfl⟩ := List.mem_map.mp member
      obtain ⟨text, clientid, clientreqid⟩ := req
      show (⟨text, clientid, clientreqid⟩ : Request) = d.request clientid clientreqid
      rw [show text = d.operation clientid clientreqid from op]
      rfl
    · intro packet member
      obtain ⟨idx, -, rfl⟩ := List.mem_map.mp member
      constructor
      · exact ⟨made, rfl⟩
      · intro clientid msg dst
        cases dst
  unlogged {g log asked clientid replicaIdx req} behind := by
    obtain ⟨w, stands, log, sincere⟩ := behind
    refine ⟨w, stands.post_clients ?_, log, sincere.post_clients ?_⟩
    · intro packet member
      obtain rfl := List.mem_singleton.mp member
      trivial
    · intro packet member
      obtain rfl := List.mem_singleton.mp member
      constructor
      · trivial
      · intro clientid msg dst
        cases dst
  step behind copies stepped := behind.step copies stepped
  asked {g log asked} behind req member := by
    obtain ⟨w, stands, rfl, sincere⟩ := behind
    rw [((stands.follows d.leader).leads rfl).log] at member
    exact (sincere.honest d.leader {}).log req member
  once {g log asked} behind := by
    obtain ⟨w, stands, rfl, -⟩ := behind
    exact ((stands.follows d.leader).leads rfl).once.of_map
  reply {g log asked position clientid clientreqid reply} behind delivered := by
    obtain ⟨w, stands, -, sincere⟩ := behind
    obtain ⟨packet, found, delivery⟩ := Option.bind_eq_some_iff.mp delivered
    obtain ⟨src, dst, msg⟩ := packet
    have told := (sincere.sincere _ (List.mem_of_getElem? found)).told
    cases dst with
    | replica idx => cases delivery
    | client other =>
        cases msg with
        | reply msg =>
            cases delivery
            exact told clientid msg rfl rfl
        | request | unloggedRequest | unloggedReply | prepare | prepareOK | commit
        | requestStateTransfer | stateTransfer => cases delivery
  calls {g position clientid request} delivered := by
    obtain ⟨packet, found, delivery⟩ := Option.bind_eq_some_iff.mp delivered
    obtain ⟨src, dst, msg⟩ := packet
    cases dst with
    | replica idx => cases delivery
    | client other => cases msg <;> cases delivery

/-- In every reachable state the clients of Fast Paxos have seen what one copy of the application
shows them, which has applied the requests of the leader's log. -/
theorem linearizable_of_reachable {s : Service System FastPaxosClient}
    (reachable : (service d).Reachable (Service.Guarded (System.Copies d answer)) s) :
    ∃ o, (Object.system (Service.kind answer)).Reachable TransitionSystem.unguarded o ∧
      o.history = s.history ∧ o.applied = (s.group.replicas d.leader).log.requests := by
  obtain ⟨o, reached, history, w, stands, log, -⟩ :=
    Service.seen_of_reachable (serves d answer) FirstReplyClient.orderly reachable
  exact ⟨o, reached, history, log.symm.trans ((stands.follows d.leader).leads rfl).log⟩

/-- In every reachable state, the leader's log is a linearization of what the clients have seen: it
holds no request twice and none that was not made, a request has returned what the application
answers at its place in the log, and a request that returned before another one was made is before
it in the log. -/
theorem linearized_of_reachable {s : Service System FastPaxosClient}
    (reachable : (service d).Reachable (Service.Guarded (System.Copies d answer)) s) :
    Object.Lawful (Service.kind answer)
      { applied := (s.group.replicas d.leader).log.requests, history := s.history } := by
  obtain ⟨o, reached, history, w, stands, log, -⟩ :=
    Service.seen_of_reachable (serves d answer) FirstReplyClient.orderly reachable
  have lawful := (Object.invariant_lawful (Service.kind answer)).of_reachable reached
  have applied : (s.group.replicas d.leader).log.requests = o.applied := by
    rw [← log]
    exact ((stands.follows d.leader).leads rfl).log.symm
  rw [applied, ← history]
  exact lawful

/-- All replies to a request agree, whichever replica sent them and whenever. -/
structure RepliesAgree (s : System) : Prop where
  same : ∀ first ∈ s.network, ∀ second ∈ s.network, ∀ clientid msg msg',
    first.dst = .client clientid → second.dst = .client clientid →
    first.msg = .reply msg → second.msg = .reply msg' → msg.clientreqid = msg'.clientreqid →
      msg.reply = msg'.reply

/-- In every reachable state, all replies to a request agree. -/
theorem repliesAgree_of_reachable {s : Service System FastPaxosClient}
    (reachable : (service d).Reachable (Service.Guarded (System.Copies d answer)) s) :
    RepliesAgree s.group := by
  obtain ⟨o, -, -, w, stands, log, sincere⟩ :=
    Service.seen_of_reachable (serves d answer) FirstReplyClient.orderly reachable
  rw [← log] at sincere
  constructor
  intro first inNetwork second inNetwork' clientid msg msg' dst dst' found found' number
  have correct := (sincere.sincere first inNetwork).told clientid msg dst found
  have correct' := (sincere.sincere second inNetwork').told clientid msg' dst' found'
  rw [number] at correct
  exact correct.unique ((stands.follows d.leader).leads rfl).once correct'

/-! ## A run of the service -/

/-- An application that tells the first request from the later ones. -/
def firstOrLater (before : List Request) (_ : Request) : String :=
  if before.length = 0 then "first" else "later"

/-- What it answers by the number of the request. -/
def firstOrLaterApp : App where
  execute opnum _ := if opnum = 1 then "first" else "later"

/-- Two clients make a request. The leader and both followers get the first of them first, the
leader commits it on the fast path, and its client gets the reply. -/
def fastRun : List (ServiceAction Action) :=
  [.invoke 7, .invoke 8] ++
    ([0, 3, 1, 2, 6, 7].map fun position => .group (.deliver position firstOrLaterApp)) ++
    [.deliver 8]

instance (s : Service System FastPaxosClient) :
    ∀ action, Decidable (Service.Guarded (System.Copies System.trio firstOrLater) s action)
  | .group action =>
    inferInstanceAs (Decidable (System.Copies System.trio firstOrLater s.group action))
  | .invoke _ => .isTrue trivial
  | .invokeUnlogged .. => .isTrue trivial
  | .deliver _ => .isTrue trivial
  | .timer .. => .isTrue trivial

/-- A state in which two requests have been made and one has returned can be reached. -/
theorem exists_reachable_fastRun : ∃ s : Service System FastPaxosClient,
    (service System.trio).Reachable (Service.Guarded (System.Copies System.trio firstOrLater)) s ∧
      s.history.length = 3 ∧ (s.group.replicas 0).log.requests.length = 2 := by
  obtain ⟨s, reachable, happened⟩ := (service System.trio).exists_reachable_of_run
    (Service.Guarded (System.Copies System.trio firstOrLater))
    (fun s => decide (s.history.length = 3 ∧ (s.group.replicas 0).log.requests.length = 2))
    fastRun rfl (by decide +kernel)
  exact ⟨s, reachable, of_decide_eq_true happened⟩

theorem linearizable_fastRun : ∃ s : Service System FastPaxosClient, s.history.length = 3 ∧
    ∃ o, (Object.system (Service.kind firstOrLater)).Reachable TransitionSystem.unguarded o ∧
      o.history = s.history ∧ o.applied = (s.group.replicas System.trio.leader).log.requests := by
  obtain ⟨s, reachable, seen, -⟩ := exists_reachable_fastRun
  exact ⟨s, seen, linearizable_of_reachable reachable⟩

theorem linearized_fastRun : ∃ s : Service System FastPaxosClient,
    s.history.length = 3 ∧ (s.group.replicas 0).log.requests.length = 2 ∧
      Object.Lawful (Service.kind firstOrLater)
        { applied := (s.group.replicas System.trio.leader).log.requests,
          history := s.history } := by
  obtain ⟨s, reachable, seen, logged⟩ := exists_reachable_fastRun
  exact ⟨s, seen, logged, linearized_of_reachable reachable⟩

theorem repliesAgree_fastRun : ∃ s : Service System FastPaxosClient,
    s.history.length = 3 ∧ RepliesAgree s.group := by
  obtain ⟨s, reachable, seen, -⟩ := exists_reachable_fastRun
  exact ⟨s, seen, repliesAgree_of_reachable reachable⟩

end PaxosBus.FastPaxos

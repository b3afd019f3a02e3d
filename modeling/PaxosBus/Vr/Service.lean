import PaxosBus.Common.FirstReplyClient
import PaxosBus.Common.Service
import PaxosBus.Vr.Answers

/-!
# Viewstamped Replication as a service

The group of replicas with `VRClient`s in front of it, through view changes,
state transfers and crashes. An application executes what its replica commits,
and is as new as the replica: after a crash it starts again. If the applications
are copies of one that answers a request the same way whenever the same requests
came before it, then the clients see one copy of it, in every run of defined
steps that takes none of the branches on which agreement is lost and in which no
leader accepts a request that its log has already. A request takes its place
when the first replica executes it.
-/

set_option autoImplicit false

namespace PaxosBus.Vr

open PaxosBus.Common PaxosBus.Library

/-- `VRClient`. -/
abbrev VRClient := FirstReplyClient

/-- The replicas, and what the application of each has executed since it was constructed. -/
structure Serving where
  system : System
  apps : Nat → List Request := fun _ => []

/-- What a replica has executed from one state to a later one. -/
def System.executedSince (s next : System) (idx : Nat) : List Request :=
  ((next.executed.drop s.executed.length).filter (·.1 = idx)).map fun done => done.2.2

section Group

variable (d : Deployment)

/-- The replicas that a client's request goes to. -/
def Deployment.targets : Option Nat → List Nat
  | none => List.range d.configuration.n
  | some idx => [idx]

/-- Packets that clients send. -/
def System.enqueue (s : System) (packets : List Packet) : System :=
  { s with network := s.network ++ packets }

/-- The packets of a client's request. -/
def Deployment.requestPackets (clientid : Nat) (dst : Option Nat) (req : Request) : List Packet :=
  (d.targets dst).map fun idx =>
    { src := .client clientid, dst := .replica idx, msg := .request { req := req } }

/-- The message for a client that a packet is. -/
def Packet.delivery : Packet → Option (Nat × ClientCall)
  | ⟨_, .replica _, _⟩ => none
  | ⟨_, .client clientid, msg⟩ =>
    match msg with
    | .reply msg => some (clientid, .reply msg.clientreqid msg.reply)
    | .unloggedReply msg => some (clientid, .unloggedReply msg.reply)
    | _ => some (clientid, .unexpected)

namespace Serving

/-- The applications execute what their replicas do. A replica that starts again has a new one. -/
def follow (s : Serving) (action : Action) (next : System) : Serving where
  system := next
  apps idx := (if System.Crashes idx action then [] else s.apps idx) ++
    s.system.executedSince next idx

/-- The steps of the group itself. -/
def step (s : Serving) : Action → Option Serving
  | .request .. => none
  | .unloggedRequest .. => none
  | .deliver position app undefined =>
    (s.system.step d (.deliver position app undefined)).map
      (s.follow (.deliver position app undefined))
  | .timer idx timer => (s.system.step d (.timer idx timer)).map (s.follow (.timer idx timer))
  | .crash idx nonce => (s.system.step d (.crash idx nonce)).map (s.follow (.crash idx nonce))

end Serving

/-- The group of replicas as its clients see it. -/
def replicaGroup : Common.Group Serving Action where
  initial := { system := System.initial d }
  request s clientid dst req :=
    { s with system := s.system.enqueue (d.requestPackets clientid dst req) }
  unloggedRequest s clientid replicaIdx req :=
    { s with
      system := s.system.enqueue
        [{ src := .client clientid, dst := .replica replicaIdx,
           msg := .unloggedRequest { op := req.op } }] }
  step := Serving.step d
  delivery s position := s.system.network[position]?.bind Packet.delivery

/-- The group with its clients. -/
def service (operation : Nat → Nat → String) :
    TransitionSystem (Service Serving VRClient) (ServiceAction Action) :=
  Service.system (replicaGroup d) FirstReplyClient.program operation

end Group

/-! ## Copies of one application -/

section Copies

variable (d : Deployment) (answer : List Request → Request → String)

/-- What the application answers to some executions, one after the other, is what it answers after
those before them. -/
def App.Answers (app : App) (before : List Request) (done : List (Nat × Request)) : Prop :=
  ∀ index < done.length, ∀ execution ∈ done[index]?,
    app.execute execution.1 execution.2 =
      answer (before ++ (done.take index).map Prod.snd) execution.2

instance (app : App) (before : List Request) (done : List (Nat × Request)) :
    Decidable (app.Answers answer before done) :=
  inferInstanceAs (Decidable (∀ index < done.length, ∀ execution ∈ done[index]?,
    app.execute execution.1 execution.2 =
      answer (before ++ (done.take index).map Prod.snd) execution.2))

instance (app : App) (opnum : Nat) : ∀ msg : Message, Decidable (msg.Passes app opnum)
  | .request msg =>
    inferInstanceAs (Decidable (app.leaderUpcall opnum msg.req.op = (true, msg.req.op)))
  | .reply _ | .unloggedRequest _ | .unloggedReply _ | .prepare _ | .prepareOK _ | .commit _ |
      .requestStateTransfer _ | .stateTransfer _ | .startViewChange _ | .doViewChange _ |
      .startView _ | .recovery _ | .recoveryResponse _ => .isTrue trivial

namespace Serving

/-- The replica that a packet is for has the application answer so when it handles the packet, and
take a request as it is. -/
def AnswersTo (s : Serving) (app : App) (undefined : Undefined) : Option Packet → Prop
  | some ⟨src, .replica idx, msg⟩ =>
    msg.Passes app (s.system.replicas idx).lastCommitted ∧
      app.Answers answer (s.apps idx) (executions
        (receiveMessage (d.setup idx) app undefined src msg (s.system.replicas idx)).outputs)
  | some ⟨_, .client _, _⟩ => True
  | none => True

instance (s : Serving) (app : App) (undefined : Undefined) :
    ∀ packet, Decidable (s.AnswersTo d answer app undefined packet)
  | some ⟨src, .replica idx, msg⟩ =>
    inferInstanceAs (Decidable (msg.Passes app (s.system.replicas idx).lastCommitted ∧
      app.Answers answer (s.apps idx) (executions
        (receiveMessage (d.setup idx) app undefined src msg (s.system.replicas idx)).outputs)))
  | some ⟨_, .client _, _⟩ => .isTrue trivial
  | none => .isTrue trivial

/-- The applications of the replicas are copies of one. -/
def Copies (s : Serving) : Action → Prop
  | .deliver position app undefined =>
    s.AnswersTo d answer app undefined s.system.network[position]?
  | _ => True

instance (s : Serving) : ∀ action, Decidable (s.Copies d answer action)
  | .deliver position app undefined =>
    inferInstanceAs (Decidable (s.AnswersTo d answer app undefined s.system.network[position]?))
  | .request .. | .unloggedRequest .. | .timer .. | .crash .. => .isTrue trivial

/-- They are, and the step is defined, takes none of the branches on which agreement is lost, and
makes no leader accept a request that its log has already. -/
def Admits (s : Serving) (action : Action) : Prop :=
  s.system.Clear d action ∧ ¬ s.system.Readmits d action ∧ s.Copies d answer action

instance (s : Serving) (action : Action) : Decidable (s.Admits d answer action) :=
  inferInstanceAs (Decidable (_ ∧ _))

end Serving

end Copies

variable {d : Deployment} {answer : List Request → Request → String} {s : Serving}
  {asked : Request → Prop} {log log' : List Request} {idx : Nat}

/-! ## What stands behind the group -/

/-- The terms between two steps: a client has been told what is right by the log. -/
def settledTerms (answer : List Request → Request → String) (asked : Request → Prop)
    (log : List Request) (before : Nat) (app : App) : Terms where
  asked := asked
  said clientid reply := Correct answer log clientid reply.clientreqid reply.reply
  before := before
  app := app

/-- A packet asks for what has been asked for, and tells a client what is right. -/
structure Packet.Sincere (answer : List Request → Request → String) (asked : Request → Prop)
    (log : List Request) (packet : Packet) : Prop where
  admissible : packet.msg.Admissible (settledTerms answer asked log 0 {}) packet.src
  told : ∀ clientid msg, packet.dst = .client clientid → packet.msg = .reply msg →
    Correct answer log clientid msg.clientreqid msg.reply

/-- The replicas execute the requests of a log, each of which has been made, and tell nobody
anything else. -/
structure Serving.Sincere (answer : List Request → Request → String) (asked : Request → Prop)
    (log : List Request) (s : Serving) : Prop where
  honest : ∀ idx, s.system.stopped idx = false →
    ∀ app, (settledTerms answer asked log (s.apps idx).length app).Honest [] (s.system.replicas idx)
  committed : ∀ idx, s.system.stopped idx = false →
    (s.system.replicas idx).lastCommitted = (s.apps idx).length
  beginning : ∀ idx, s.apps idx <+: log
  executed : ∀ index req, log[index]? = some req →
    ∃ idx, (idx, index + 1, req) ∈ s.system.executed
  recorded : ∀ idx opnum req, (idx, opnum, req) ∈ s.system.executed →
    log[opnum - 1]? = some req
  made : ∀ req ∈ log, asked req
  sincere : ∀ packet ∈ s.system.network, packet.Sincere answer asked log

/-- A list of requests stands behind the group. -/
def Behind (d : Deployment) (answer : List Request → Request → String) (s : Serving)
    (log : List Request) (asked : Request → Prop) : Prop :=
  (∃ w : World d.configuration unheard, s.system.Stands w) ∧ s.Sincere answer asked log

/-! ## A step of the group -/

/-- An honest replica is honest by other terms that allow as much. -/
theorem Terms.Honest.renew {t t' : Terms} {done done' : List (Nat × Request)} {r : Replica}
    (honest : t.Honest done r) (requests : ∀ req, t.asked req → t'.asked req)
    (replies : ∀ clientid reply, t.Told done clientid reply → t'.Told done' clientid reply) :
    t'.Honest done' r where
  table clientid entry found replied :=
    replies clientid entry.reply (honest.table clientid entry found replied)
  addresses := honest.addresses
  log req member := requests req (honest.log req member)
  prepares pending member req inBatch := requests req (honest.prepares pending member req inBatch)
  lastPrepare req inBatch := requests req (honest.lastPrepare req inBatch)

/-- The execution at a place among those of a step has the number of its place. -/
theorem Terms.Fair.number {t : Terms} {past : List Output} (fair : t.Fair past) {index : Nat}
    {execution : Nat × Request} (here : (executions past)[index]? = some execution) :
    execution.1 = t.before + 1 + index := by
  have inside := (List.getElem?_eq_some_iff.mp here).1
  have at_ : ((executions past).map Prod.fst)[index]? = some execution.1 := by
    rw [List.getElem?_map, here]
    rfl
  rw [fair.numbers, List.getElem?_range' inside, Nat.one_mul] at at_
  exact (Option.some.inj at_).symm

/-- What a client may be told is right, if the application is a copy and what has been executed is
the beginning of the log. -/
theorem correct_of_told {before : List Request} {app : App} {outputs : List Output}
    {clientid : Nat} {reply : ReplyMessage}
    (told : (settledTerms answer asked log before.length app).Told (executions outputs) clientid
      reply)
    (answers : app.Answers answer before (executions outputs)) (more : log <+: log')
    (beginning : before ++ (executions outputs).map Prod.snd <+: log') :
    Correct answer log' clientid reply.clientreqid reply.reply := by
  rcases told with said | ⟨opnum, req, member, client, number, text⟩
  · exact said.of_longer more
  · obtain ⟨index, here⟩ := List.getElem?_of_mem member
    have inside := (List.getElem?_eq_some_iff.mp here).1
    have right : Correct answer (before ++ (executions outputs).map Prod.snd) clientid
        reply.clientreqid reply.reply := by
      refine ⟨before.length + index, req, ?_, client, number, ?_⟩
      · rw [List.getElem?_append_right (Nat.le_add_right _ _), Nat.add_sub_cancel_left,
          List.getElem?_map, here]
        rfl
      · rw [text, List.take_length_add_append, ← List.map_take]
        exact answers index inside _ here
    exact right.of_longer beginning

/-- What is admissible stays so when more is right. -/
theorem Message.Admissible.renew {t t' : Terms} {src : Address} {msg : Message}
    (admissible : msg.Admissible t src) (requests : ∀ req, t.asked req → t'.asked req) :
    msg.Admissible t' src where
  asked req member := requests req (admissible.asked req member)
  sender := admissible.sender

theorem Packet.Sincere.renew {asked' : Request → Prop} {packet : Packet}
    (sincere : packet.Sincere answer asked log) (requests : ∀ req, asked req → asked' req)
    (more : log <+: log') : packet.Sincere answer asked' log' where
  admissible := sincere.admissible.renew requests
  told clientid msg dst found := (sincere.told clientid msg dst found).of_longer more

/-- What is sent is sincere, if what clients may be told is right. -/
theorem Packet.sincere_of_emits {t : Terms} {done : List (Nat × Request)} {output : Output}
    (emits : t.Emits done output) (requests : ∀ req, t.asked req → asked req)
    (right : ∀ clientid reply, t.Told done clientid reply →
      Correct answer log clientid reply.clientreqid reply.reply) :
    ∀ packet ∈ post d.configuration idx output, packet.Sincere answer asked log := by
  intro packet posted
  cases output with
  | execute => cases posted
  | prepared => cases posted
  | started => cases posted
  | send dst msg =>
      have content : packet.msg = msg ∧ ∀ addr, dst = .one addr → packet.dst = addr := by
        cases dst with
        | one addr =>
            obtain rfl := List.mem_singleton.mp posted
            exact ⟨rfl, fun other same => by cases same; rfl⟩
        | others =>
            obtain ⟨_, -, rfl⟩ := List.mem_map.mp posted
            exact ⟨rfl, fun other same => by cases same⟩
      obtain ⟨rfl, addressed⟩ := content
      constructor
      · constructor
        · intro req member
          cases found : packet.msg with
          | reply msg =>
              rw [found] at member
              cases member
          | request msg =>
              rw [found] at emits
              exact emits.elim
          | _ =>
              rw [found] at emits member
              exact requests req (emits req member)
        · intro request found
          rw [found] at emits
          exact emits.elim
      · intro clientid msg to_ found
        rw [found] at emits
        obtain ⟨other, one, told⟩ := emits
        cases to_.symm.trans (addressed _ one)
        exact right clientid msg told

/-- Of two lists that agree where both have something, one is the beginning of the other. -/
theorem exists_longer {α : Type} {first second : List α}
    (agree : ∀ (index : Nat) (left right : α), first[index]? = some left →
      second[index]? = some right → left = right) :
    ∃ longer, first <+: longer ∧ second <+: longer ∧ (longer = first ∨ longer = second) := by
  have prefix_ : ∀ {short long : List α}, short.length ≤ long.length →
      (∀ (index : Nat) (left right : α), short[index]? = some left → long[index]? = some right →
        left = right) → short <+: long := by
    intro short long le same
    rw [List.prefix_iff_getElem?]
    intro index inside
    have insideToo : index < long.length := Nat.lt_of_lt_of_le inside le
    rw [List.getElem?_eq_getElem insideToo]
    exact congrArg some (same index _ _ (List.getElem?_eq_getElem inside)
      (List.getElem?_eq_getElem insideToo)).symm
  rcases Nat.le_total first.length second.length with le | le
  · exact ⟨second, prefix_ le agree, List.prefix_rfl, .inr rfl⟩
  · refine ⟨first, List.prefix_rfl, prefix_ le ?_, .inl rfl⟩
    exact fun index left right here there => (agree index right left there here).symm

namespace System

/-- What a handler executes is what its replica has executed since, and no other has. -/
theorem executedSince_absorb (s : System) (idx actor : Nat)
    (outcome : Outcome Replica Output Unit) :
    s.executedSince (s.absorb d actor outcome) idx =
      if actor = idx then (executions outcome.outputs).map Prod.snd else [] := by
  unfold executedSince System.absorb executions
  rw [List.drop_left]
  split
  next who => simp [who, List.filter_map, Function.comp_def]
  next who => simp [who, List.filter_map, Function.comp_def]

/-- A replica that runs on has come to the end of its handler. -/
theorem exists_value_of_absorb {s : System} {outcome : Outcome Replica Output Unit} {idx : Nat}
    (running : (s.absorb d idx outcome).stopped idx = false) :
    ∃ value, outcome.value = some value := by
  simp only [System.absorb, Function.update_self] at running
  exact Option.isSome_iff_exists.mp (by simpa using running)

/-- What was executed has been, and so has what the handler executes. -/
theorem mem_executed_absorb {s : System} {actor : Nat} {outcome : Outcome Replica Output Unit}
    {idx opnum : Nat} {req : Request} :
    (idx, opnum, req) ∈ (s.absorb d actor outcome).executed ↔
      (idx, opnum, req) ∈ s.executed ∨ idx = actor ∧ (opnum, req) ∈ executions outcome.outputs := by
  unfold System.absorb executions
  rw [List.mem_append, List.mem_map]
  constructor
  · rintro (old | ⟨done, member, same⟩)
    · exact .inl old
    · cases same
      exact .inr ⟨rfl, member⟩
  · rintro (old | ⟨rfl, member⟩)
    · exact .inl old
    · exact .inr ⟨_, member, rfl⟩

end System

/-- The log that stands behind the group when a replica has run a handler. -/
theorem Serving.Sincere.exists_log (balanced : d.configuration.Balanced)
    (sincere : s.Sincere answer asked log) {outcome : Outcome Replica Output Unit} {t : Terms}
    (before : t.before = (s.apps idx).length) (fair : t.Fair outcome.outputs)
    {w : World d.configuration unheard} (stands : (s.system.absorb d idx outcome).Stands w) :
    ∃ log', log <+: log' ∧ s.apps idx ++ (executions outcome.outputs).map Prod.snd <+: log' ∧
      ∀ index req, log'[index]? = some req →
        ∃ other, (other, index + 1, req) ∈ (s.system.absorb d idx outcome).executed := by
  have old : ∀ index req, log[index]? = some req →
      ∃ other, (other, index + 1, req) ∈ (s.system.absorb d idx outcome).executed := by
    intro index req here
    obtain ⟨other, member⟩ := sincere.executed index req here
    exact ⟨other, System.mem_executed_absorb.mpr (.inl member)⟩
  have new : ∀ index req,
      (s.apps idx ++ (executions outcome.outputs).map Prod.snd)[index]? = some req →
        ∃ other, (other, index + 1, req) ∈ (s.system.absorb d idx outcome).executed := by
    intro index req here
    rcases Nat.lt_or_ge index (s.apps idx).length with earlier | later
    · obtain ⟨more, whole⟩ := sincere.beginning idx
      rw [List.getElem?_append_left earlier] at here
      apply old index req
      rw [← whole, List.getElem?_append_left earlier]
      exact here
    · rw [List.getElem?_append_right later, List.getElem?_map] at here
      obtain ⟨execution, found, rfl⟩ := Option.map_eq_some_iff.mp here
      have number := fair.number found
      refine ⟨idx, System.mem_executed_absorb.mpr (.inr ⟨rfl, ?_⟩)⟩
      rw [show index + 1 = execution.1 by omega]
      exact List.mem_of_getElem? found
  have agree : ∀ (index : Nat) (left right : Request), log[index]? = some left →
      (s.apps idx ++ (executions outcome.outputs).map Prod.snd)[index]? = some right →
        left = right := by
    intro index left right here there
    obtain ⟨first, member⟩ := old index left here
    obtain ⟨second, memberToo⟩ := new index right there
    exact System.request_eq_of_executable balanced (stands.executed first _ left member)
      (stands.executed second _ right memberToo)
  obtain ⟨log', longer, beginning, which⟩ := exists_longer agree
  refine ⟨log', longer, beginning, ?_⟩
  rcases which with rfl | rfl
  · exact old
  · exact new

/-- An output is what an execution is of. -/
theorem mem_of_mem_executions {outputs : List Output} {opnum : Nat} {req : Request}
    (member : (opnum, req) ∈ executions outputs) : Output.execute opnum req ∈ outputs := by
  obtain ⟨output, here, execution⟩ := List.mem_filterMap.mp member
  cases output with
  | execute => cases execution; exact here
  | send | prepared | started => cases execution

namespace Serving

/-- A replica that runs is good by the terms of the moment. -/
theorem Sincere.good (sincere : s.Sincere answer asked log)
    (running : s.system.stopped idx = false) (app : App) :
    (settledTerms answer asked log (s.apps idx).length app).Good [] (s.system.replicas idx) where
  fair := {
    numbers := rfl
    emits := fun _ none_ => by cases none_ }
  committed := sincere.committed idx running
  honest := sincere.honest idx running app

/-- What has been executed when a replica has run a handler is in the log that stands behind the
group then. -/
theorem Sincere.recorded_absorb (sincere : s.Sincere answer asked log)
    {outcome : Outcome Replica Output Unit} {t : Terms} (before : t.before = (s.apps idx).length)
    (fair : t.Fair outcome.outputs) (longer : log <+: log')
    (beginning : s.apps idx ++ (executions outcome.outputs).map Prod.snd <+: log')
    {other opnum : Nat} {req : Request}
    (member : (other, opnum, req) ∈ (s.system.absorb d idx outcome).executed) :
    log'[opnum - 1]? = some req := by
  rcases System.mem_executed_absorb.mp member with old | ⟨-, new⟩
  · obtain ⟨more, whole⟩ := longer
    have here := sincere.recorded other opnum req old
    rw [← whole, List.getElem?_append_left (List.getElem?_eq_some_iff.mp here).1]
    exact here
  · obtain ⟨index, found⟩ := List.getElem?_of_mem new
    have number : opnum = t.before + 1 + index := fair.number found
    obtain ⟨more, whole⟩ := beginning
    have here : (s.apps idx ++ (executions outcome.outputs).map Prod.snd)[opnum - 1]? =
        some req := by
      rw [show opnum - 1 = (s.apps idx).length + index by omega,
        List.getElem?_append_right (Nat.le_add_right _ _), Nat.add_sub_cancel_left,
        List.getElem?_map, found]
      rfl
    rw [← whole, List.getElem?_append_left (List.getElem?_eq_some_iff.mp here).1]
    exact here

/-- What a replica does is sincere. -/
theorem Sincere.absorb {app : App} {handler : Run Unit}
    (sincere : s.Sincere answer asked log)
    (holds : (settledTerms answer asked log (s.apps idx).length app).account.Holds handler []
      (s.system.replicas idx))
    (answers : app.Answers answer (s.apps idx)
      (executions (handler (s.system.replicas idx)).outputs))
    (longer : log <+: log')
    (beginning : s.apps idx ++
      (executions (handler (s.system.replicas idx)).outputs).map Prod.snd <+: log')
    (executed : ∀ index req, log'[index]? = some req → ∃ other, (other, index + 1, req) ∈
      (s.system.absorb d idx (handler (s.system.replicas idx))).executed)
    {next : Serving}
    (system : next.system = s.system.absorb d idx (handler (s.system.replicas idx)))
    (apps : ∀ other, next.apps other = s.apps other ++ s.system.executedSince next.system other) :
    next.Sincere answer asked log' := by
  generalize result : handler (s.system.replicas idx) = outcome at *
  obtain ⟨fair, good⟩ := holds
  rw [List.nil_append, result] at fair good
  have right : ∀ clientid reply, (settledTerms answer asked log (s.apps idx).length app).Told
      (executions outcome.outputs) clientid reply →
        Correct answer log' clientid reply.clientreqid reply.reply :=
    fun _ _ told => correct_of_told told answers longer beginning
  have mine : next.apps idx = s.apps idx ++ (executions outcome.outputs).map Prod.snd := by
    rw [apps, system, System.executedSince_absorb, if_pos rfl]
  have others : ∀ other, other ≠ idx → next.apps other = s.apps other := by
    intro other who
    rw [apps, system, System.executedSince_absorb, if_neg (Ne.symm who), List.append_nil]
  constructor
  · intro other running app'
    by_cases who : other = idx
    · subst who
      rw [system] at running ⊢
      obtain ⟨value, ended⟩ := System.exists_value_of_absorb running
      have honest := (good value ended).honest
      simp only [System.absorb, Function.update_self]
      exact honest.renew (fun _ asked => asked) fun clientid reply told =>
        .inl (right clientid reply told)
    · rw [system] at running ⊢
      simp only [System.absorb, Function.update_of_ne who] at running ⊢
      refine (sincere.honest other running app').renew (fun _ asked => asked) ?_
      rintro clientid reply (said | ⟨_, _, none_, -⟩)
      · exact .inl (said.of_longer longer)
      · cases none_
  · intro other running
    by_cases who : other = idx
    · subst who
      rw [system] at running
      obtain ⟨value, ended⟩ := System.exists_value_of_absorb running
      rw [mine, system, List.length_append, List.length_map]
      simp only [System.absorb, Function.update_self]
      exact (good value ended).committed
    · rw [others other who, system] at *
      simp only [System.absorb, Function.update_of_ne who] at running ⊢
      exact sincere.committed other running
  · intro other
    by_cases who : other = idx
    · subst who
      rw [mine]
      exact beginning
    · rw [others other who]
      exact (sincere.beginning other).trans longer
  · rw [system]
    exact executed
  · rw [system]
    exact fun other opnum req member =>
      sincere.recorded_absorb rfl fair longer beginning member
  · intro req member
    obtain ⟨index, here⟩ := List.getElem?_of_mem member
    obtain ⟨other, done⟩ := executed index req here
    rcases System.mem_executed_absorb.mp done with old | ⟨-, new⟩
    · exact sincere.made req (List.mem_of_getElem? (sincere.recorded other _ req old))
    · exact fair.emits _ (mem_of_mem_executions new)
  · intro packet inNetwork
    rw [system] at inNetwork
    rcases List.mem_append.mp inNetwork with old | new
    · exact (sincere.sincere packet old).renew (fun _ asked => asked) longer
    · obtain ⟨output, inOutputs, posted⟩ := List.mem_flatMap.mp new
      exact Packet.sincere_of_emits (fair.emits output inOutputs) (fun _ asked => asked) right
        packet posted

/-- So the log behind the group has only grown when a replica has run a handler. -/
theorem Sincere.handle (balanced : d.configuration.Balanced) {app : App} {handler : Run Unit}
    (sincere : s.Sincere answer asked log)
    (holds : (settledTerms answer asked log (s.apps idx).length app).account.Holds handler []
      (s.system.replicas idx))
    (answers : app.Answers answer (s.apps idx)
      (executions (handler (s.system.replicas idx)).outputs))
    {w : World d.configuration unheard}
    (stands : (s.system.absorb d idx (handler (s.system.replicas idx))).Stands w) {next : Serving}
    (system : next.system = s.system.absorb d idx (handler (s.system.replicas idx)))
    (apps : ∀ other, next.apps other = s.apps other ++ s.system.executedSince next.system other) :
    ∃ added, next.Sincere answer asked (log ++ added) := by
  obtain ⟨log', longer, beginning, executed⟩ := sincere.exists_log balanced rfl holds.1 stands
  have sincere' := sincere.absorb holds answers longer beginning executed system apps
  obtain ⟨added, rfl⟩ := longer
  exact ⟨added, sincere'⟩

/-- More requests may have been asked for. -/
theorem Sincere.more {asked' : Request → Prop} (sincere : s.Sincere answer asked log)
    (requests : ∀ req, asked req → asked' req) : s.Sincere answer asked' log :=
  { sincere with
    honest := fun idx running app =>
      (sincere.honest idx running app).renew requests fun _ _ told => told
    made := fun req member => requests req (sincere.made req member)
    sincere := fun packet inNetwork =>
      (sincere.sincere packet inNetwork).renew requests List.prefix_rfl }

/-- Clients' packets that are sincere change nothing. -/
theorem Sincere.enqueue (sincere : s.Sincere answer asked log) {packets : List Packet}
    (fromClients : ∀ packet ∈ packets, packet.Sincere answer asked log) :
    ({ s with system := s.system.enqueue packets } : Serving).Sincere answer asked log :=
  { sincere with
    sincere := by
      intro packet inNetwork
      rcases List.mem_append.mp inNetwork with old | new
      · exact sincere.sincere packet old
      · exact fromClients packet new }

/-- A replica that has just been constructed has nothing on its hands. -/
theorem honest_blank {t : Terms} {c : Configuration} : t.Honest [] (Replica.blank c) where
  table _ _ none_ := by cases none_
  addresses _ _ none_ := by cases none_
  log _ none_ := by cases none_
  prepares _ none_ := by cases none_
  lastPrepare _ none_ := by cases none_

/-- At first, nobody has been told anything. -/
theorem sincere_initial (d : Deployment) (answer : List Request → Request → String)
    (asked : Request → Prop) :
    ({ system := System.initial d } : Serving).Sincere answer asked [] where
  honest idx _ app := (honest_blank (c := d.configuration)).of_facing rfl
  committed _ _ := rfl
  beginning _ := List.prefix_rfl
  executed _ _ none_ := by simp at none_
  recorded _ _ _ none_ := by cases none_
  made _ none_ := by cases none_
  sincere _ none_ := by cases none_

/-- A replica that crashes has forgotten everything, and its application too. -/
theorem Sincere.crash (sincere : s.Sincere answer asked log) {nonce : Nat} {next : System}
    (crashed : s.system.crash d idx nonce = some next) :
    (s.follow (.crash idx nonce) next).Sincere answer asked log := by
  unfold System.crash at crashed
  split at crashed
  next =>
      obtain rfl := Option.some.inj crashed
      generalize restarted : (s.system.replicas idx).restarted (d.setup idx) nonce = blank
      have quiet : executions (sendRecoveryMessages (d.setup idx) blank).outputs = [] := rfl
      have same : (s.system.absorb d idx
          (sendRecoveryMessages (d.setup idx) blank)).executed = s.system.executed :=
        List.append_nil _
      have apps : ∀ other, (s.follow (.crash idx nonce) (s.system.absorb d idx
          (sendRecoveryMessages (d.setup idx) blank))).apps other =
            if idx = other then [] else s.apps other := by
        intro other
        have none_ : s.system.executedSince (s.system.absorb d idx
            (sendRecoveryMessages (d.setup idx) blank)) other = [] := by
          rw [System.executedSince_absorb, quiet]
          exact ite_self []
        show (if idx = other then [] else s.apps other) ++ s.system.executedSince _ other = _
        rw [none_, List.append_nil]
      constructor
      · intro other running app
        by_cases who : other = idx
        · subst who
          simp only [follow, System.absorb, Function.update_self]
          subst restarted
          exact (honest_blank (c := d.configuration)).of_facing rfl
        · rw [apps, if_neg (Ne.symm who)]
          simp only [follow, System.absorb, Function.update_of_ne who] at running ⊢
          exact sincere.honest other running app
      · intro other running
        rw [apps]
        by_cases who : other = idx
        · subst who
          rw [if_pos rfl]
          simp only [follow, System.absorb, Function.update_self]
          subst restarted
          rfl
        · rw [if_neg (Ne.symm who)]
          simp only [follow, System.absorb, Function.update_of_ne who] at running ⊢
          exact sincere.committed other running
      · intro other
        rw [apps]
        split
        next => exact List.nil_prefix
        next => exact sincere.beginning other
      · intro index req here
        obtain ⟨other, member⟩ := sincere.executed index req here
        exact ⟨other, same ▸ member⟩
      · intro other opnum req member
        exact sincere.recorded other opnum req (same ▸ member)
      · exact sincere.made
      · intro packet inNetwork
        rcases List.mem_append.mp inNetwork with old | new
        · exact sincere.sincere packet old
        · obtain ⟨output, inOutputs, posted⟩ := List.mem_flatMap.mp new
          obtain rfl := List.mem_singleton.mp inOutputs
          have emits : (settledTerms answer asked log 0 {}).Emits [] (.send .others (.recovery
              { replicaidx := (d.setup idx).replicaIdx, nonce := blank.recoveryNonce })) :=
            fun _ none_ => by cases none_
          refine Packet.sincere_of_emits emits (fun _ asked => asked) ?_ packet posted
          rintro clientid reply (said | ⟨_, _, none_, -⟩)
          · exact said
          · cases none_
  next => cases crashed

end Serving

/-- Clients' packets leave standing what stands. -/
theorem System.Stands.enqueue {system : System} {w : World d.configuration unheard}
    (stands : system.Stands w) {packets : List Packet}
    (fromClients : ∀ packet ∈ packets, ∃ client idx, packet.src = .client client ∧
      packet.dst = .replica idx ∧ packet.msg.FromClient) : (system.enqueue packets).Stands w := by
  induction packets generalizing system with
  | nil =>
      unfold System.enqueue
      rw [List.append_nil]
      exact stands
  | cons packet rest inductionHypothesis =>
      obtain ⟨client, idx, src, dst, fromClient⟩ := fromClients packet List.mem_cons_self
      obtain ⟨_, _, msg⟩ := packet
      simp only at src dst
      subst src dst
      have one : (system.enqueue [⟨.client client, .replica idx, msg⟩]).Stands w :=
        stands.post_client fromClient
      have others := inductionHypothesis one fun other inRest =>
        fromClients other (List.mem_cons_of_mem _ inRest)
      unfold System.enqueue at others ⊢
      rw [List.append_assoc] at others
      exact others

/-- A step of the group leaves a log behind it that has only grown. -/
theorem Behind.step (balanced : d.configuration.Balanced) {action : Action} {next : Serving}
    (behind : Behind d answer s log asked) (admits : s.Admits d answer action)
    (stepped : s.step d action = some next) :
    ∃ added, Behind d answer next (log ++ added) asked := by
  obtain ⟨⟨w, stands⟩, sincere⟩ := behind
  obtain ⟨clear, fresh, copies⟩ := admits
  have stands' : ∀ {system : System}, s.system.step d action = some system →
      ∃ w' : World d.configuration unheard, system.Stands w' := fun moved =>
    stands.step balanced clear (System.admits_of_not_readmits fresh) moved
  cases action with
  | request => cases stepped
  | unloggedRequest => cases stepped
  | crash idx nonce =>
      obtain ⟨system, moved, rfl⟩ := Option.map_eq_some_iff.mp stepped
      refine ⟨[], stands' moved, ?_⟩
      rw [List.append_nil]
      exact sincere.crash moved
  | deliver position app undefined =>
      obtain ⟨system, moved, rfl⟩ := Option.map_eq_some_iff.mp stepped
      obtain ⟨w', stands'⟩ := stands' moved
      simp only [System.step] at moved
      split at moved
      next src idx msg found =>
          unfold System.runAt at moved
          split at moved
          next enabled =>
              obtain rfl := Option.some.inj moved
              simp only [Serving.Copies, found, Serving.AnswersTo] at copies
              have admissible : msg.Admissible
                  (settledTerms answer asked log (s.apps idx).length app) src :=
                (sincere.sincere _ (List.mem_of_getElem? found)).admissible.renew
                  fun _ asked => asked
              have defined := (clear _ (Option.mem_toList.mpr found)).1
              have holds : (settledTerms answer asked log (s.apps idx).length app).account.Holds
                  (receiveMessage (d.setup idx) app undefined src msg) []
                  (s.system.replicas idx) :=
                .of_eq (receiveMessage_of_defined defined)
                  (receiveMessage_holds admissible copies.1 (sincere.good enabled.2 app))
              obtain ⟨added, sincere'⟩ : ∃ added, (s.follow (.deliver position app undefined)
                  _).Sincere answer asked (log ++ added) :=
                sincere.handle balanced holds copies.2 stands' rfl fun _ => rfl
              exact ⟨added, ⟨w', stands'⟩, sincere'⟩
          next => cases moved
      next => cases moved
  | timer idx timer =>
      obtain ⟨system, moved, rfl⟩ := Option.map_eq_some_iff.mp stepped
      obtain ⟨w', stands'⟩ := stands' moved
      simp only [System.step] at moved
      split at moved
      next =>
          unfold System.runAt at moved
          split at moved
          next enabled =>
              obtain rfl := Option.some.inj moved
              -- a timer asks the application nothing, so any answers will do
              let whole := s.apps idx ++ (executions
                (fireTimer (d.setup idx) timer (s.system.replicas idx)).outputs).map Prod.snd
              let app : App := { execute := fun opnum req => answer (whole.take (opnum - 1)) req }
              have holds : (settledTerms answer asked log (s.apps idx).length app).account.Holds
                  (fireTimer (d.setup idx) timer) [] (s.system.replicas idx) :=
                fireTimer_sound _ _ (sincere.good enabled.2 app)
              have answers : app.Answers answer (s.apps idx) (executions
                  (fireTimer (d.setup idx) timer (s.system.replicas idx)).outputs) := by
                intro index _ execution here
                have number : execution.1 = (s.apps idx).length + 1 + index :=
                  holds.1.number here
                show answer (whole.take (execution.1 - 1)) execution.2 = _
                rw [show execution.1 - 1 = (s.apps idx).length + index by omega,
                  List.take_length_add_append, List.map_take]
              obtain ⟨added, sincere'⟩ : ∃ added, (s.follow (.timer idx timer)
                  _).Sincere answer asked (log ++ added) :=
                sincere.handle balanced holds answers stands' rfl fun _ => rfl
              exact ⟨added, ⟨w', stands'⟩, sincere'⟩
          next => cases moved
      next => cases moved

/-- No request is in the log twice. -/
theorem Behind.once (balanced : d.configuration.Balanced) (behind : Behind d answer s log asked) :
    log.Pairwise fun mine theirs => ¬ Request.Same mine theirs := by
  obtain ⟨⟨w, stands⟩, sincere⟩ := behind
  rw [List.pairwise_iff_getElem]
  intro earlier later inside insideToo before
  obtain ⟨first, member⟩ := sincere.executed earlier _ (List.getElem?_eq_getElem inside)
  obtain ⟨second, memberToo⟩ := sincere.executed later _ (List.getElem?_eq_getElem insideToo)
  exact System.not_same_of_executable balanced (Nat.succ_lt_succ before)
    (stands.executed first _ _ member) (stands.executed second _ _ memberToo)

/-- The group serves: what is executed stands behind it. -/
theorem serves (balanced : d.configuration.Balanced) (answer : List Request → Request → String)
    (operation : Nat → Nat → String) :
    (replicaGroup d).Serves (Serving.Admits d answer) operation answer (Behind d answer) where
  initial asked := ⟨⟨_, System.stands_initial balanced⟩, Serving.sincere_initial d answer asked⟩
  more behind requests := ⟨behind.1, behind.2.more requests⟩
  request {g log asked req dst} behind made _ _ := by
    obtain ⟨⟨w, stands⟩, sincere⟩ := behind
    refine ⟨⟨w, stands.enqueue ?_⟩, sincere.enqueue ?_⟩
    · intro packet member
      obtain ⟨idx, -, rfl⟩ := List.mem_map.mp member
      exact ⟨req.clientid, idx, rfl, rfl, trivial⟩
    · intro packet member
      obtain ⟨idx, -, rfl⟩ := List.mem_map.mp member
      constructor
      · constructor
        · intro other here
          obtain rfl := List.mem_singleton.mp here
          exact made
        · intro request same
          cases same
          rfl
      · intro clientid msg dst
        cases dst
  unlogged {g log asked clientid replicaIdx req} behind := by
    obtain ⟨⟨w, stands⟩, sincere⟩ := behind
    refine ⟨⟨w, stands.enqueue ?_⟩, sincere.enqueue ?_⟩
    · intro packet member
      obtain rfl := List.mem_singleton.mp member
      exact ⟨clientid, replicaIdx, rfl, rfl, trivial⟩
    · intro packet member
      obtain rfl := List.mem_singleton.mp member
      constructor
      · constructor
        · intro other none_
          cases none_
        · intro request same
          cases same
      · intro clientid msg dst
        cases dst
  step behind admits stepped := behind.step balanced admits stepped
  asked behind := behind.2.made
  once behind := by
    refine (behind.once balanced).imp ?_
    rintro mine theirs different rfl
    exact different ⟨rfl, rfl⟩
  reply {g log asked position clientid clientreqid reply} behind delivered := by
    obtain ⟨packet, found, delivery⟩ := Option.bind_eq_some_iff.mp delivered
    obtain ⟨src, dst, msg⟩ := packet
    have told := (behind.2.sincere _ (List.mem_of_getElem? found)).told
    cases dst with
    | replica idx => cases delivery
    | client other =>
        cases msg with
        | reply msg =>
            cases delivery
            exact told clientid msg rfl rfl
        | _ => cases delivery
  calls {g position clientid request} delivered := by
    obtain ⟨packet, found, delivery⟩ := Option.bind_eq_some_iff.mp delivered
    obtain ⟨src, dst, msg⟩ := packet
    cases dst with
    | replica idx => cases delivery
    | client other => cases msg <;> cases delivery

/-- What the replicas execute is one log, and that log is a linearization of what the clients have
seen: it holds no request twice and none that was not made, a request has returned what the
application answers at its place in the log, and a request that returned before another one was made
is before it in the log. -/
structure Linearized (answer : List Request → Request → String) (s : Service Serving VRClient)
    (log : List Request) : Prop where
  lawful : Object.Lawful (Service.kind answer) { applied := log, history := s.history }
  /-- What a replica executes under a number is the request at that place. -/
  executed : ∀ idx opnum req, (idx, opnum, req) ∈ s.group.system.executed →
    log[opnum - 1]? = some req
  /-- What the application of a replica has executed is the beginning of the log. -/
  apps : ∀ idx, s.group.apps idx <+: log

/-- In every run of defined steps that takes none of the branches on which agreement is lost and in
which no leader accepts a request that its log has already, the clients see one copy of the
application. -/
theorem linearized_of_clear (balanced : d.configuration.Balanced) {operation : Nat → Nat → String}
    {s : Service Serving VRClient}
    (reachable : (service d operation).Reachable (Service.Guarded (Serving.Admits d answer)) s) :
    ∃ log, Linearized answer s log := by
  obtain ⟨o, reached, history, behind⟩ :=
    Service.seen_of_reachable (serves balanced answer operation) FirstReplyClient.orderly reachable
  refine ⟨o.applied, ?_, behind.2.recorded, behind.2.beginning⟩
  rw [← history]
  exact (Object.invariant_lawful (Service.kind answer)).of_reachable reached

/-- All replies to a request agree, whichever leader sent them and in whichever view. -/
structure RepliesAgree (s : System) : Prop where
  same : ∀ first ∈ s.network, ∀ second ∈ s.network, ∀ clientid msg msg',
    first.dst = .client clientid → second.dst = .client clientid →
    first.msg = .reply msg → second.msg = .reply msg' → msg.clientreqid = msg'.clientreqid →
      msg.reply = msg'.reply

/-- All replies to a request agree, in every such run. -/
theorem repliesAgree_of_clear (balanced : d.configuration.Balanced)
    {operation : Nat → Nat → String} {s : Service Serving VRClient}
    (reachable : (service d operation).Reachable (Service.Guarded (Serving.Admits d answer)) s) :
    RepliesAgree s.group.system := by
  obtain ⟨o, -, -, behind⟩ :=
    Service.seen_of_reachable (serves balanced answer operation) FirstReplyClient.orderly reachable
  have once : (o.applied.map Request.reqid).Nodup := by
    rw [List.Nodup, List.pairwise_map]
    apply (behind.once balanced).imp
    intro mine theirs different same
    exact different (Prod.mk.inj same)
  constructor
  intro first inNetwork second inNetwork' clientid msg msg' dst dst' found found' number
  have correct := (behind.2.sincere first inNetwork).told clientid msg dst found
  have correct' := (behind.2.sincere second inNetwork').told clientid msg' dst' found'
  rw [number] at correct
  exact correct.unique once correct'

/-! ## A run of the service -/

/-- An application that tells the first request from the later ones. -/
def firstOrLater (before : List Request) (_ : Request) : String :=
  if before.length = 0 then "first" else "later"

/-- What it answers by the number of the request. -/
def firstOrLaterApp : App where
  execute opnum _ := if opnum = 1 then "first" else "later"

/-- The replicas get packets in this order. -/
def handle (positions : List Nat) : List (ServiceAction Action) :=
  positions.map fun position => .group (.deliver position firstOrLaterApp {})

/-- The leader commits a request, and its client gets the reply. After a change of views the next
leader commits another one, and the first leader gets it by a state transfer. The third replica
crashes, and one of the others answers it. -/
def servedRun : List (ServiceAction Action) :=
  [.invoke 7] ++ handle [0, 3, 5] ++ [.deliver 6, .group (.timer 2 .viewChange)] ++
    handle [10, 12, 13, 15] ++ [.invoke 8] ++ handle [18, 21, 22] ++ [.deliver 23] ++
    handle [24, 26, 28] ++ [.group (.crash 2 5)] ++ handle [29, 31]

instance (s : Service Serving VRClient) :
    ∀ action, Decidable (Service.Guarded (Serving.Admits System.trio firstOrLater) s action)
  | .group action =>
    inferInstanceAs (Decidable (Serving.Admits System.trio firstOrLater s.group action))
  | .invoke _ => .isTrue trivial
  | .invokeUnlogged .. => .isTrue trivial
  | .deliver _ => .isTrue trivial
  | .timer .. => .isTrue trivial

/-- A state in which both requests have returned and both leaders have executed them can be
reached. -/
theorem exists_reachable_servedRun : ∃ s : Service Serving VRClient,
    (service System.trio fun _ _ => "put").Reachable
      (Service.Guarded (Serving.Admits System.trio firstOrLater)) s ∧
      s.history.length = 4 ∧ (s.group.apps 0).length = 2 ∧ (s.group.apps 1).length = 2 := by
  obtain ⟨s, reachable, happened⟩ := (service System.trio fun _ _ => "put").exists_reachable_of_run
    (Service.Guarded (Serving.Admits System.trio firstOrLater))
    (fun s => decide (s.history.length = 4 ∧ (s.group.apps 0).length = 2 ∧
      (s.group.apps 1).length = 2)) servedRun rfl (by decide +kernel)
  exact ⟨s, reachable, of_decide_eq_true happened⟩

theorem linearized_servedRun : ∃ s : Service Serving VRClient, s.history.length = 4 ∧
    (s.group.apps 0).length = 2 ∧ (s.group.apps 1).length = 2 ∧
      ∃ log, Linearized firstOrLater s log := by
  obtain ⟨s, reachable, seen, first, second⟩ := exists_reachable_servedRun
  exact ⟨s, seen, first, second, linearized_of_clear System.balanced_trio reachable⟩

theorem repliesAgree_servedRun : ∃ s : Service Serving VRClient,
    s.history.length = 4 ∧ RepliesAgree s.group.system := by
  obtain ⟨s, reachable, seen, -⟩ := exists_reachable_servedRun
  exact ⟨s, seen, repliesAgree_of_clear System.balanced_trio reachable⟩

end PaxosBus.Vr

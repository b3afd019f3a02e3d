import Mathlib.Logic.Function.Basic
import PaxosBus.Common.Client
import PaxosBus.Library.AtomicObject

/-!
# A service and its clients

A group of replicas, and clients in front of it that run at the same time. Each
client has an id of its own. The group is seen as its clients see it: they hand
it requests, it takes steps of its own, and it has messages for them.

A group serves if a list of requests stands behind it, each of which a client
has made and none of which is there twice, and if every reply is what the
request at its place returns after those before it. Clients of a group that
serves see one copy of an object.
-/

set_option autoImplicit false

namespace PaxosBus.Common

open PaxosBus.Library

/-- A group of replicas as its clients see it: where it starts, how a client's request is sent to
one replica or to all, which steps it takes, and which message for which client there is at a
position of the network. -/
structure Group (G A : Type) where
  initial : G
  request : G → Nat → Option Nat → Request → G
  unloggedRequest : G → Nat → Nat → Request → G
  step : G → A → Option G
  delivery : G → Nat → Option (Nat × ClientCall)

/-- A group with its clients, and the history of the calls that the applications have made. -/
structure Service (G C : Type) where
  group : G
  clients : Nat → C
  stopped : Nat → Bool := fun _ => false
  history : List (Event Request String) := []

/-- What can happen next. -/
inductive ServiceAction (A : Type) where
  | invoke (clientid : Nat)
  | invokeUnlogged (clientid replicaIdx : Nat) (request : String) (timeoutContinuation : Bool)
  | group (action : A)
  | deliver (position : Nat)
  | timer (clientid : Nat) (timer : ClientTimer)

/-- The event that an output of a client is. -/
def ClientOutput.event : ClientOutput → Option (Event Request String)
  | .invoked req => some (.invoked req)
  | .continuation req reply => some (.returned req reply)
  | _ => none

/-- Send what a client puts out. -/
def Group.post {G A : Type} (group : Group G A) (clientid : Nat) (g : G) : ClientOutput → G
  | .sendToAll req => group.request g clientid none req
  | .sendToReplica replicaIdx req => group.request g clientid (some replicaIdx) req
  | .sendUnlogged replicaIdx req => group.unloggedRequest g clientid replicaIdx req
  | _ => g

namespace Service

variable {G A C : Type} (group : Group G A) (program : ClientProgram C)
  (operation : Nat → Nat → String)

/-- The state before anything has happened. -/
def initial : Service G C where
  group := group.initial
  clients _ := program.constructed

/-- Let something happen to a client that has not stopped. -/
def runClient (s : Service G C) (clientid : Nat) (call : ClientCall) : Option (Service G C) :=
  if s.stopped clientid = false then
    let outcome := program.handle clientid call (s.clients clientid)
    some
      { group := outcome.outputs.foldl (group.post clientid) s.group
        clients := Function.update s.clients clientid outcome.state
        stopped := Function.update s.stopped clientid outcome.value.isNone
        history := s.history ++ outcome.outputs.filterMap ClientOutput.event }
  else
    none

/-- One step of the service. What the application of a client asks for under a number is fixed for
the run. -/
def step (s : Service G C) : ServiceAction A → Option (Service G C)
  | .invoke clientid =>
    s.runClient group program clientid
      (.invoke (operation clientid (program.lastReqId (s.clients clientid) + 1)))
  | .invokeUnlogged clientid replicaIdx request timeoutContinuation =>
    s.runClient group program clientid (.invokeUnlogged replicaIdx request timeoutContinuation)
  | .group action => (group.step s.group action).map fun g => { s with group := g }
  | .deliver position =>
    match group.delivery s.group position with
    | some (clientid, call) => s.runClient group program clientid call
    | none => none
  | .timer clientid timer =>
    if program.active (s.clients clientid) timer then
      s.runClient group program clientid (.timer timer)
    else
      none

/-- The service as a transition system. -/
def system : TransitionSystem (Service G C) (ServiceAction A) where
  Initial s := s = initial group program
  step := step group program operation

/-- The steps in which the group keeps to what it has to keep to. -/
def Guarded (guard : G → A → Prop) (s : Service G C) : ServiceAction A → Prop
  | .group action => guard s.group action
  | _ => True

/-- The object that the application of the replicas is, with the requests as its calls. -/
def kind (answer : List Request → Request → String) : ObjectKind Nat Request String where
  caller := Request.clientid
  answer := answer

end Service

/-- A result is right: it is what the client's request with the number returns at its place in a
list of requests. -/
def Correct (answer : List Request → Request → String) (log : List Request)
    (clientid clientreqid : Nat) (reply : String) : Prop :=
  ∃ (index : Nat) (req : Request), log[index]? = some req ∧ req.clientid = clientid ∧
    req.clientreqid = clientreqid ∧ reply = answer (log.take index) req

/-- A right result stays right when more requests come after. -/
theorem Correct.append {answer : List Request → Request → String} {log more : List Request}
    {clientid clientreqid : Nat} {reply : String}
    (correct : Correct answer log clientid clientreqid reply) :
    Correct answer (log ++ more) clientid clientreqid reply := by
  obtain ⟨index, req, here, client, number, answered⟩ := correct
  have inside := (List.getElem?_eq_some_iff.mp here).1
  refine ⟨index, req, ?_, client, number, ?_⟩
  · rw [List.getElem?_append_left inside]
    exact here
  · rw [List.take_append_of_le_length (Nat.le_of_lt inside)]
    exact answered

/-- It stays right in any list that begins so. -/
theorem Correct.of_longer {answer : List Request → Request → String} {log log' : List Request}
    {clientid clientreqid : Nat} {reply : String}
    (correct : Correct answer log clientid clientreqid reply) (more : log <+: log') :
    Correct answer log' clientid clientreqid reply := by
  obtain ⟨added, rfl⟩ := more
  exact correct.append

/-- A list that holds no request twice makes one result right. -/
theorem Correct.unique {answer : List Request → Request → String} {log : List Request}
    (once : (log.map Request.reqid).Nodup) {clientid clientreqid : Nat} {reply reply' : String}
    (correct : Correct answer log clientid clientreqid reply)
    (correct' : Correct answer log clientid clientreqid reply') : reply = reply' := by
  obtain ⟨index, req, here, client, number, rfl⟩ := correct
  obtain ⟨index', req', here', client', number', rfl⟩ := correct'
  have at_ : (log.map Request.reqid)[index]? = some (clientid, clientreqid) := by
    rw [List.getElem?_map, here, ← client, ← number]
    rfl
  have at' : (log.map Request.reqid)[index']? = some (clientid, clientreqid) := by
    rw [List.getElem?_map, here', ← client', ← number']
    rfl
  obtain ⟨inside, -⟩ := List.getElem?_eq_some_iff.mp at_
  obtain rfl : index = index' :=
    (List.getElem?_inj inside once).mp (at_.trans at'.symm)
  obtain rfl : req = req' := Option.some.inj (here.symm.trans here')
  rfl

/-- A group serves: `Behind` says which requests stand behind it, given which have been made. -/
structure Group.Serves {G A : Type} (group : Group G A) (guard : G → A → Prop)
    (operation : Nat → Nat → String) (answer : List Request → Request → String)
    (Behind : G → List Request → (Request → Prop) → Prop) : Prop where
  initial : ∀ asked, Behind group.initial [] asked
  more : ∀ {g log} {asked asked' : Request → Prop}, Behind g log asked →
    (∀ req, asked req → asked' req) → Behind g log asked'
  request : ∀ {g log} {asked : Request → Prop} {req dst}, Behind g log asked → asked req →
    0 < req.clientreqid → req.op = operation req.clientid req.clientreqid →
      Behind (group.request g req.clientid dst req) log asked
  unlogged : ∀ {g log asked clientid replicaIdx req}, Behind g log asked →
    Behind (group.unloggedRequest g clientid replicaIdx req) log asked
  step : ∀ {g log asked action g'}, Behind g log asked → guard g action →
    group.step g action = some g' → ∃ added, Behind g' (log ++ added) asked
  asked : ∀ {g log asked}, Behind g log asked → ∀ req ∈ log, asked req
  once : ∀ {g log asked}, Behind g log asked → log.Nodup
  reply : ∀ {g log asked position clientid clientreqid reply}, Behind g log asked →
    group.delivery g position = some (clientid, .reply clientreqid reply) →
      Correct answer log clientid clientreqid reply
  calls : ∀ {g position clientid request}, group.delivery g position ≠
    some (clientid, .invoke request)

namespace Service

variable {G A C : Type} {group : Group G A} {program : ClientProgram C} {Sane : C → Prop}
  {guard : G → A → Prop} {operation : Nat → Nat → String}
  {answer : List Request → Request → String}
  {Behind : G → List Request → (Request → Prop) → Prop}

/-- The client has made the request. -/
def Asked (history : List (Event Request String)) (req : Request) : Prop :=
  Event.invoked req ∈ history

/-- What the history says of the requests of a client. -/
structure Accounts (history : List (Event Request String)) (clientid : Nat) (view : ClientView) :
    Prop where
  numbers : ∀ req, Asked history req → req.clientid = clientid → req.clientreqid ≤ view.lastReqId
  outstanding : ∀ req, req.clientid = clientid →
    (Event.Outstanding history req ↔ view.pending = some req)

/-- What the history says of all clients. -/
structure Recorded (program : ClientProgram C) (Sane : C → Prop)
    (operation : Nat → Nat → String) (s : Service G C) : Prop where
  sane : ∀ clientid, Sane (s.clients clientid)
  accounts : ∀ clientid,
    Accounts s.history clientid (program.view clientid (s.clients clientid))
  operations : ∀ req, Asked s.history req → req.op = operation req.clientid req.clientreqid
  positive : ∀ req, Asked s.history req → 0 < req.clientreqid
  returned : ∀ req, Event.Returned s.history req → Asked s.history req

/-- An object stands behind the service. -/
structure Related (program : ClientProgram C) (Sane : C → Prop) (operation : Nat → Nat → String)
    (Behind : G → List Request → (Request → Prop) → Prop) (s : Service G C)
    (o : Object Request String) : Prop where
  recorded : s.Recorded program Sane operation
  behind : Behind s.group o.applied (Asked s.history)
  history : o.history = s.history

theorem asked_append {history : List (Event Request String)} {event : Event Request String}
    {req : Request} (asked : Asked history req) : Asked (history ++ [event]) req :=
  List.mem_append_left _ asked

/-- What the history says of a client stays so when something happens to another one. -/
theorem Accounts.other {history : List (Event Request String)} {clientid : Nat} {view : ClientView}
    (accounts : Accounts history clientid view) {event : Event Request String}
    (different : event.call.clientid ≠ clientid) :
    Accounts (history ++ [event]) clientid view where
  numbers := by
    intro req asked mine
    rcases List.mem_append.mp asked with before | now
    · exact accounts.numbers req before mine
    · obtain rfl := List.mem_singleton.mp now
      exact absurd mine different
  outstanding := by
    intro req mine
    rw [Event.outstanding_append_of_ne fun same => different (by rw [same]; exact mine)]
    exact accounts.outstanding req mine

/-- What the history says of a client that makes a request. -/
theorem Accounts.invoke {history : List (Event Request String)} {clientid lastReqId : Nat}
    (accounts : Accounts history clientid ⟨lastReqId, none⟩) {req : Request}
    (number : req.clientreqid = lastReqId + 1)
    (unanswered : ¬ Event.Returned history req) :
    Accounts (history ++ [Event.invoked req]) clientid ⟨lastReqId + 1, some req⟩ where
  numbers := by
    intro other asked its
    rcases List.mem_append.mp asked with before | now
    · exact Nat.le_succ_of_le (accounts.numbers other before its)
    · cases List.mem_singleton.mp now
      exact Nat.le_of_eq number
  outstanding := by
    intro other its
    by_cases same : req = other
    · subst same
      exact iff_of_true (Event.outstanding_invoked unanswered) rfl
    · have different : (Event.invoked req : Event Request String).call ≠ other := same
      rw [Event.outstanding_append_of_ne different, accounts.outstanding other its]
      constructor
      · intro none_
        cases none_
      · intro this
        exact absurd (Option.some.inj this) same

/-- What the history says of a client whose request returns. -/
theorem Accounts.complete {history : List (Event Request String)} {clientid lastReqId : Nat}
    {req : Request} (accounts : Accounts history clientid ⟨lastReqId, some req⟩)
    {reply : String} :
    Accounts (history ++ [Event.returned req reply]) clientid ⟨lastReqId, none⟩ where
  numbers := by
    intro other asked its
    rcases List.mem_append.mp asked with before | now
    · exact accounts.numbers other before its
    · cases List.mem_singleton.mp now
  outstanding := by
    intro other its
    by_cases same : req = other
    · subst same
      apply iff_of_false Event.not_outstanding_returned
      intro wrong
      cases wrong
    · have different : (Event.returned req reply).call ≠ other := same
      rw [Event.outstanding_append_of_ne different, accounts.outstanding other its]
      constructor
      · intro this
        exact absurd (Option.some.inj this) same
      · intro none_
        cases none_

/-- What happens at one client leaves what is recorded of the others. -/
theorem Recorded.update {s next : Service G C} (recorded : s.Recorded program Sane operation)
    {clientid : Nat} {c : C} {events : List (Event Request String)}
    (clients : next.clients = Function.update s.clients clientid c)
    (history : next.history = s.history ++ events) (sane : Sane c)
    (mine : Accounts next.history clientid (program.view clientid c))
    (others : ∀ other ≠ clientid, Accounts next.history other
      (program.view other (s.clients other)))
    (operations : ∀ req, Event.invoked req ∈ events →
      0 < req.clientreqid ∧ req.op = operation req.clientid req.clientreqid)
    (returned : ∀ req reply, Event.returned req reply ∈ events → Asked s.history req) :
    next.Recorded program Sane operation where
  sane other := by
    rw [clients]
    by_cases who : other = clientid
    · subst who
      rw [Function.update_self]
      exact sane
    · rw [Function.update_of_ne who]
      exact recorded.sane other
  accounts other := by
    rw [clients]
    by_cases who : other = clientid
    · subst who
      rw [Function.update_self]
      exact mine
    · rw [Function.update_of_ne who]
      exact others other who
  operations req asked := by
    unfold Asked at asked
    rw [history] at asked
    rcases List.mem_append.mp asked with before | now
    · exact recorded.operations req before
    · exact (operations req now).2
  positive req asked := by
    unfold Asked at asked
    rw [history] at asked
    rcases List.mem_append.mp asked with before | now
    · exact recorded.positive req before
    · exact (operations req now).1
  returned req answered := by
    obtain ⟨reply, member⟩ := answered
    unfold Asked
    rw [history] at member ⊢
    rcases List.mem_append.mp member with before | now
    · exact List.mem_append_left _ (recorded.returned req ⟨reply, before⟩)
    · exact List.mem_append_left _ (returned req reply now)

/-- Outputs that ask for nothing but what the client has asked for leave what stands behind the
group. -/
theorem behind_post (serves : group.Serves guard operation answer Behind) {clientid : Nat} {g : G}
    {log : List Request} {asked : Request → Prop} {outputs : List ClientOutput}
    (behind : Behind g log asked)
    (asks : ∀ output ∈ outputs, ∀ req, output = .sendToAll req ∨
      (∃ replicaIdx, output = .sendToReplica replicaIdx req) →
        asked req ∧ req.clientid = clientid ∧ 0 < req.clientreqid ∧
          req.op = operation req.clientid req.clientreqid) :
    Behind (outputs.foldl (group.post clientid) g) log asked := by
  induction outputs generalizing g with
  | nil => exact behind
  | cons output rest inductionHypothesis =>
      rw [List.foldl_cons]
      apply inductionHypothesis
      · cases output with
        | sendToAll req =>
            obtain ⟨made, rfl, positive, op⟩ := asks _ List.mem_cons_self req (.inl rfl)
            exact serves.request behind made positive op
        | sendToReplica replicaIdx req =>
            obtain ⟨made, rfl, positive, op⟩ :=
              asks _ List.mem_cons_self req (.inr ⟨replicaIdx, rfl⟩)
            exact serves.request behind made positive op
        | sendUnlogged replicaIdx req => exact serves.unlogged behind
        | invoked | continuation | unloggedContinuation | timeoutContinuation => exact behind
      · exact fun other inRest => asks other (List.mem_cons_of_mem _ inRest)

/-- Quiet outputs are no events. -/
theorem events_of_quiet {pending : Option Request} {outputs : List ClientOutput}
    (quiet : ∀ output ∈ outputs, output.Quiet pending) :
    outputs.filterMap ClientOutput.event = [] := by
  rw [List.filterMap_eq_nil_iff]
  intro output member
  have still := quiet output member
  cases output with
  | invoked | continuation => exact still.elim
  | sendToAll | sendToReplica | sendUnlogged | unloggedContinuation | timeoutContinuation => rfl

/-- Outputs that ask for a request are no events. -/
theorem events_of_asks {req : Request} {outputs : List ClientOutput}
    (asks : ∀ output ∈ outputs, output.Asks req) :
    outputs.filterMap ClientOutput.event = [] := by
  rw [List.filterMap_eq_nil_iff]
  intro output member
  have still := asks output member
  cases output with
  | invoked | continuation => exact still.elim
  | sendToAll | sendToReplica | sendUnlogged | unloggedContinuation | timeoutContinuation => rfl

/-! ## The object behind a service -/

section Simulation

variable {s next : Service G C} {o : Object Request String} {clientid : Nat} {call : ClientCall}

/-- A request that is pending has been made, as the client that it is of makes it. -/
theorem Recorded.asked_of_pending (recorded : s.Recorded program Sane operation) {req : Request}
    (mine : req.clientid = clientid)
    (pending : (program.view clientid (s.clients clientid)).pending = some req) :
    Asked s.history req ∧ 0 < req.clientreqid ∧
      req.op = operation req.clientid req.clientreqid := by
  have outstanding := ((recorded.accounts clientid).outstanding req mine).mpr pending
  exact ⟨outstanding.1, recorded.positive req outstanding.1, recorded.operations req outstanding.1⟩

/-- Two requests with the same number are the same. -/
theorem Recorded.same (recorded : s.Recorded program Sane operation) {first second : Request}
    (asked : Asked s.history first) (asked' : Asked s.history second)
    (client : first.clientid = second.clientid) (number : first.clientreqid = second.clientreqid) :
    first = second := by
  have op := recorded.operations first asked
  have op' := recorded.operations second asked'
  rw [client, number, ← op'] at op
  obtain ⟨_, _, _⟩ := first
  obtain ⟨_, _, _⟩ := second
  simp only at client number op
  rw [client, number, op]

/-- A client makes a request. -/
theorem Related.invoke (serves : group.Serves guard operation answer Behind)
    (related : s.Related program Sane operation Behind o) {c : C} {lastReqId : Nat}
    {outputs : List ClientOutput}
    (before : program.view clientid (s.clients clientid) = ⟨lastReqId, none⟩)
    (sane : Sane c)
    (after : program.view clientid c = ⟨lastReqId + 1,
      some ⟨operation clientid (lastReqId + 1), clientid, lastReqId + 1⟩⟩)
    (asks : ∀ output ∈ outputs, output.Asks
      ⟨operation clientid (lastReqId + 1), clientid, lastReqId + 1⟩)
    (ran : next.group = outputs.foldl (group.post clientid) s.group)
    (clients : next.clients = Function.update s.clients clientid c)
    (history : next.history = s.history ++
      [Event.invoked ⟨operation clientid (lastReqId + 1), clientid, lastReqId + 1⟩]) :
    ∃ moves o', (Object.system (kind answer)).Steps TransitionSystem.unguarded o moves o' ∧
      next.Related program Sane operation Behind o' := by
  obtain ⟨recorded, behind, same⟩ := related
  have accounts := before ▸ recorded.accounts clientid
  generalize req_is : (⟨operation clientid (lastReqId + 1), clientid, lastReqId + 1⟩ : Request) =
    req at asks history after
  have mine : req.clientid = clientid := by rw [← req_is]
  have number : req.clientreqid = lastReqId + 1 := by rw [← req_is]
  have op : req.op = operation req.clientid req.clientreqid := by rw [← req_is]
  have new : ¬ Asked s.history req := by
    intro asked
    have := accounts.numbers req asked mine
    rw [number] at this
    exact Nat.not_succ_le_self _ this
  have unanswered : ¬ Event.Returned s.history req := fun returned =>
    new (recorded.returned req returned)
  have alone : ∀ other, (kind answer).caller other = (kind answer).caller req →
      ¬ Event.Outstanding s.history other := by
    intro other its outstanding
    have pending := (accounts.outstanding other (its.trans mine)).mp outstanding
    cases pending
  have invoked := TransitionSystem.Steps.single
    (Object.step_invoke (kind answer) (same ▸ new) (same ▸ alone))
  refine ⟨_, _, invoked, ?_, ?_, ?_⟩
  · apply recorded.update clients history sane
    · rw [history, after]
      exact accounts.invoke number unanswered
    · intro other different
      rw [history]
      exact (recorded.accounts other).other fun its => different (its.symm.trans mine)
    · intro made member
      cases List.mem_singleton.mp member
      exact ⟨number ▸ Nat.succ_pos _, op⟩
    · intro made reply member
      cases List.mem_singleton.mp member
  · rw [ran, history]
    apply behind_post serves (serves.more behind fun _ => asked_append)
    intro output member other form
    have this := asks output member
    have is : req = other := by
      rcases form with rfl | ⟨replicaIdx, rfl⟩
      · exact this.symm
      · exact this.symm
    subst is
    exact ⟨List.mem_append_right _ (List.mem_singleton_self _), mine, number ▸ Nat.succ_pos _, op⟩
  · rw [history, ← same]

/-- A client's request returns with a result that is right. -/
theorem Related.complete (serves : group.Serves guard operation answer Behind)
    (related : s.Related program Sane operation Behind o) {c : C} {lastReqId : Nat} {req : Request}
    {reply : String} (mine : req.clientid = clientid)
    (before : program.view clientid (s.clients clientid) = ⟨lastReqId, some req⟩) (sane : Sane c)
    (after : program.view clientid c = ⟨lastReqId, none⟩)
    (correct : Correct answer o.applied clientid req.clientreqid reply)
    (ran : next.group = s.group) (clients : next.clients = Function.update s.clients clientid c)
    (history : next.history = s.history ++ [Event.returned req reply]) :
    ∃ moves o', (Object.system (kind answer)).Steps TransitionSystem.unguarded o moves o' ∧
      next.Related program Sane operation Behind o' := by
  obtain ⟨recorded, behind, same⟩ := related
  have accounts := before ▸ recorded.accounts clientid
  have outstanding := (accounts.outstanding req mine).mpr rfl
  obtain ⟨index, applied, here, client, number, rfl⟩ := correct
  obtain rfl : applied = req := by
    apply recorded.same _ outstanding.1 (client.trans mine.symm) number
    exact serves.asked behind applied (List.mem_of_getElem? here)
  have completed := TransitionSystem.Steps.single
    (Object.step_complete (kind answer) here (same ▸ outstanding.2))
  refine ⟨_, _, completed, ?_, ?_, ?_⟩
  · apply recorded.update clients history sane
    · rw [history, after]
      exact accounts.complete
    · intro other different
      rw [history]
      exact (recorded.accounts other).other fun its => different (its.symm.trans client)
    · intro made member
      cases List.mem_singleton.mp member
    · intro made result member
      cases List.mem_singleton.mp member
      exact outstanding.1
  · rw [ran, history]
    exact serves.more behind fun _ => asked_append
  · rw [history, ← same]
    rfl

/-- A client does something else. -/
theorem Related.quiet (serves : group.Serves guard operation answer Behind)
    (related : s.Related program Sane operation Behind o) {c : C} {lastReqId : Nat}
    {outputs : List ClientOutput} (sane : Sane c)
    (mine : ∀ req, (program.view clientid (s.clients clientid)).pending = some req →
      req.clientid = clientid)
    (number : (program.view clientid (s.clients clientid)).lastReqId ≤ lastReqId)
    (after : program.view clientid c =
      ⟨lastReqId, (program.view clientid (s.clients clientid)).pending⟩)
    (still : ∀ output ∈ outputs,
      output.Quiet (program.view clientid (s.clients clientid)).pending)
    (ran : next.group = outputs.foldl (group.post clientid) s.group)
    (clients : next.clients = Function.update s.clients clientid c)
    (history : next.history = s.history) : next.Related program Sane operation Behind o := by
  obtain ⟨recorded, behind, same⟩ := related
  constructor
  · have nothing : next.history = s.history ++ [] := by rw [history, List.append_nil]
    apply recorded.update clients nothing sane
    · rw [history, after]
      have accounts := recorded.accounts clientid
      exact {
        numbers := fun req asked its => Nat.le_trans (accounts.numbers req asked its) number
        outstanding := accounts.outstanding }
    · intro other _
      rw [history]
      exact recorded.accounts other
    · intro made member
      cases member
    · intro made result member
      cases member
  · rw [ran, history]
    apply behind_post serves behind
    intro output member req form
    have this := still output member
    have pending : (program.view clientid (s.clients clientid)).pending = some req := by
      rcases form with rfl | ⟨replicaIdx, rfl⟩
      · exact this
      · exact this
    have its := mine req pending
    obtain ⟨asked, positive, op⟩ := recorded.asked_of_pending its pending
    exact ⟨asked, its, positive, op⟩
  · rw [history]
    exact same

/-- Whatever happens to a client, an object still stands behind the service. -/
theorem Related.runClient (serves : group.Serves guard operation answer Behind)
    (orderly : program.Orderly Sane) (related : s.Related program Sane operation Behind o)
    (invoked : ∀ request, call = .invoke request →
      request = operation clientid (program.lastReqId (s.clients clientid) + 1))
    (replied : ∀ clientreqid reply, call = .reply clientreqid reply →
      Correct answer o.applied clientid clientreqid reply)
    (ran : s.runClient group program clientid call = some next) :
    ∃ moves o', (Object.system (kind answer)).Steps TransitionSystem.unguarded o moves o' ∧
      next.Related program Sane operation Behind o' := by
  unfold Service.runClient at ran
  split at ran
  next running =>
      have sane := related.recorded.sane clientid
      have conduct := orderly.conduct clientid call _ sane
      have kept := orderly.keeps clientid call _ sane
      generalize outcome_is : program.handle clientid call (s.clients clientid) = outcome
        at conduct kept ran
      obtain ⟨c, outputs, value⟩ := outcome
      cases ran
      generalize before : program.view clientid (s.clients clientid) = view at conduct
      generalize after : program.view clientid c = view' at conduct
      have number : program.lastReqId (s.clients clientid) = view.lastReqId := by rw [← before]; rfl
      have owned := orderly.mine clientid (s.clients clientid)
      cases conduct with
      | @invoke lastReqId request outputs asks =>
          obtain rfl := invoked request rfl
          rw [number] at asks after
          apply related.invoke serves before kept after asks rfl rfl
          simp only [List.filterMap_cons, ClientOutput.event, events_of_asks asks, number]
      | @complete lastReqId req reply =>
          have mine : req.clientid = clientid := owned req (congrArg ClientView.pending before)
          exact related.complete serves mine before kept after (replied _ _ rfl) rfl rfl rfl
      | @quiet _ _ outputs lastReqId more still =>
          rw [← before] at still more after
          refine ⟨[], o, .refl, related.quiet serves kept owned more after still rfl rfl ?_⟩
          simp only [events_of_quiet still, List.append_nil]
  next => cases ran

/-- What happens in the service is matched by what can happen to one copy of the object. -/
theorem simulation (serves : group.Serves guard operation answer Behind)
    (orderly : program.Orderly Sane) :
    (system group program operation).Simulation (Guarded guard) (Object.system (kind answer))
      (Related program Sane operation Behind) where
  initial s initial := by
    obtain rfl : s = Service.initial group program := initial
    refine ⟨{}, rfl, ?_, serves.initial _, rfl⟩
    have nothing : ∀ req, ¬ Asked ([] : List (Event Request String)) req := by
      intro req asked
      cases asked
    constructor
    · exact fun _ => orderly.sane
    · intro clientid
      show Accounts [] clientid (program.view clientid program.constructed)
      rw [orderly.fresh]
      constructor
      · exact fun req asked => absurd asked (nothing req)
      · intro req _
        apply iff_of_false fun outstanding => nothing req outstanding.1
        intro none_
        cases none_
    · exact fun req asked => absurd asked (nothing req)
    · exact fun req asked => absurd asked (nothing req)
    · rintro req ⟨reply, member⟩
      cases member
  matched {s o action next} related guarded stepped := by
    cases action with
    | invoke clientid =>
        apply related.runClient serves orderly _ _ stepped
        · rintro request ⟨⟩
          rfl
        · rintro clientreqid reply ⟨⟩
    | invokeUnlogged clientid replicaIdx request timeoutContinuation =>
        apply related.runClient serves orderly _ _ stepped
        · rintro request ⟨⟩
        · rintro clientreqid reply ⟨⟩
    | group action =>
        obtain ⟨g, ran, rfl⟩ := Option.map_eq_some_iff.mp stepped
        obtain ⟨added, behind⟩ := serves.step related.behind guarded ran
        refine ⟨_, { o with applied := o.applied ++ added }, Object.steps_apply ?_ ?_,
          { related.recorded with }, behind, related.history⟩
        · intro req member
          rw [related.history]
          exact serves.asked behind req (List.mem_append_right _ member)
        · exact serves.once behind
    | deliver position =>
        simp only [system, step] at stepped
        split at stepped
        next clientid call found =>
            apply related.runClient serves orderly _ _ stepped
            · rintro request rfl
              exact absurd found serves.calls
            · rintro clientreqid reply rfl
              exact serves.reply related.behind found
        next => cases stepped
    | timer clientid timer =>
        simp only [system, step] at stepped
        split at stepped
        next =>
            apply related.runClient serves orderly _ _ stepped
            · rintro request ⟨⟩
            · rintro clientreqid reply ⟨⟩
        next => cases stepped

/-- In every reachable state, the clients of a group that serves have seen what one copy of the
object shows them, and the requests that stand behind the group are those that it has applied. -/
theorem seen_of_reachable (serves : group.Serves guard operation answer Behind)
    (orderly : program.Orderly Sane)
    (reachable : (system group program operation).Reachable (Guarded guard) s) :
    ∃ o, (Object.system (kind answer)).Reachable TransitionSystem.unguarded o ∧
      o.history = s.history ∧ Behind s.group o.applied (Asked s.history) := by
  obtain ⟨o, reached, related⟩ := (simulation serves orderly).of_reachable reachable
  exact ⟨o, reached, related.history, related.behind⟩

end Simulation

end Service

end PaxosBus.Common

import PaxosBus.Library.Recounting
import PaxosBus.Vr.Execution

/-!
# What clients are told

Every request that a replica has, passes on or executes has been made by a
client; it executes operation numbers one after the other; and a reply to a
client says what the application answered when the replica executed a request of
that client with that number. A handler keeps it so, whatever reaches the
replica.
-/

set_option autoImplicit false

namespace PaxosBus.Vr

open PaxosBus.Common PaxosBus.Library
open Account (Holds Keeps)

/-- What some outputs execute. -/
def executions (outputs : List Output) : List (Nat × Request) :=
  outputs.filterMap Output.execution

/-- What is executed in two lists of outputs is executed in one after the other. -/
@[simp] theorem executions_append (first second : List Output) :
    executions (first ++ second) = executions first ++ executions second :=
  List.filterMap_append

/-- The requests that a message brings to a replica. -/
def Message.requests : Message → List Request
  | .request msg => [msg.req]
  | .prepare msg => msg.request
  | .stateTransfer msg => msg.entries.map LogEntry.request
  | .doViewChange msg => msg.entries.map LogEntry.request
  | .startView msg => msg.entries.map LogEntry.request
  | .recoveryResponse msg => msg.entries.map LogEntry.request
  | _ => []

/-- What a step of a replica goes by: the requests that clients have made, what clients have been
told before, how many requests the replica had committed, and what the application answers now. -/
structure Terms where
  asked : Request → Prop
  said : Nat → ReplyMessage → Prop
  before : Nat
  app : App

namespace Terms

/-- A client may be told so: it is what it has been told before, or what the application has
answered for a request of its that is among those executed now. -/
def Told (t : Terms) (done : List (Nat × Request)) (clientid : Nat) (reply : ReplyMessage) : Prop :=
  t.said clientid reply ∨ ∃ (opnum : Nat) (req : Request), (opnum, req) ∈ done ∧
    req.clientid = clientid ∧ req.clientreqid = reply.clientreqid ∧
    reply.reply = t.app.execute opnum req

/-- What a replica has on its hands: requests that have been made, replies that can be told, and
the addresses of clients. -/
structure Honest (t : Terms) (done : List (Nat × Request)) (r : Replica) : Prop where
  table : ∀ clientid entry, r.clientTable clientid = some entry → entry.replied = true →
    t.Told done clientid entry.reply
  addresses : ∀ clientid addr, r.clientAddresses clientid = some addr → addr = .client clientid
  log : ∀ req ∈ r.log.requests, t.asked req
  prepares : ∀ pending ∈ r.pendingPrepares, ∀ req ∈ pending.2.request, t.asked req
  lastPrepare : ∀ req ∈ r.lastPrepare.request, t.asked req

/-- A message to others says nothing else. -/
def Sends (t : Terms) (done : List (Nat × Request)) (dst : Destination) : Message → Prop
  | .reply msg => ∃ clientid, dst = .one (.client clientid) ∧ t.Told done clientid msg
  | .request _ => False
  | msg => ∀ req ∈ msg.requests, t.asked req

/-- Nor does anything else that is put out. -/
def Emits (t : Terms) (done : List (Nat × Request)) : Output → Prop
  | .send dst msg => t.Sends done dst msg
  | .execute _ req => t.asked req
  | _ => True

/-- What a handler has put out is right: it has executed the next operation numbers. -/
structure Fair (t : Terms) (past : List Output) : Prop where
  numbers : (executions past).map Prod.fst = List.range' (t.before + 1) (executions past).length
  emits : ∀ output ∈ past, t.Emits (executions past) output

/-- So is what the replica has on its hands, and it counts what it executes. -/
structure Good (t : Terms) (past : List Output) (r : Replica) : Prop where
  fair : t.Fair past
  committed : r.lastCommitted = t.before + (executions past).length
  honest : t.Honest (executions past) r

/-- What handlers of a replica account for. -/
def account (t : Terms) : Account Replica Output where
  Good := t.Good
  Fair past _ := t.Fair past
  fair := Good.fair

/-- A handler that accounts for what it does, wherever it is run. -/
abbrev Sound {α : Type} (t : Terms) (handler : Run α) : Prop := t.account.Keeps handler

end Terms

/-- The part of a replica's state that clients depend on. -/
def Replica.facing (r : Replica) :=
  (r.lastCommitted, r.clientTable, r.clientAddresses, r.log, r.pendingPrepares, r.lastPrepare)

variable {t : Terms} {setup : Setup} {done : List (Nat × Request)} {r : Replica}
  {past : List Output}

/-! ## Logs -/

/-- The requests of an entry found in a log are among those of the log. -/
theorem mem_requests_of_find {log : Log Unit} {opnum : Nat} {entry : Entry}
    (found : log.find opnum = some entry) : entry.request ∈ log.requests :=
  List.mem_of_getElem? (Log.request_of_find found)

/-- A log that is cut has no other requests, -/
theorem mem_requests_of_removeAfter {log cut : Log Unit} {opnum : Nat} {req : Request}
    (removed : log.removeAfter opnum = some cut) (member : req ∈ cut.requests) :
    req ∈ log.requests := by
  rw [Log.requests_eq_map, (Log.of_removeAfter removed).2, List.map_take] at member
  rw [Log.requests_eq_map]
  exact List.mem_of_mem_take member

/-- a log with an entry more has that of the entry, -/
theorem mem_requests_of_append {log longer : Log Unit} {vs : Viewstamp} {req other : Request}
    {state : LogEntryState} (appended : log.append vs req state = some longer)
    (member : other ∈ longer.requests) : other ∈ log.requests ∨ other = req := by
  rw [Log.requests_of_append appended] at member
  rcases List.mem_append.mp member with before | new
  · exact .inl before
  · exact .inr (List.mem_singleton.mp new)

/-- and what is installed has its own. -/
theorem mem_requests_of_install {log final : Log Unit} {entries : List Entry} {req : Request}
    (installed : log.install entries = some final) (member : req ∈ final.requests) :
    req ∈ log.requests ∨ ∃ entry ∈ entries, entry.request = req := by
  obtain ⟨⟨cut, rest⟩, searched, appended⟩ := Option.bind_eq_some_iff.mp installed
  have pieces : (∀ other ∈ cut.requests, other ∈ log.requests) ∧ ∀ entry ∈ rest,
      entry ∈ entries := by
    clear installed member appended
    induction entries with
    | nil =>
        obtain ⟨rfl, rfl⟩ := Prod.mk.inj (Option.some.inj searched)
        exact ⟨fun _ here => here, fun _ here => here⟩
    | cons entry more inductionHypothesis =>
        simp only [Log.findDivergence] at searched
        split at searched
        next =>
            obtain ⟨rfl, rfl⟩ := Prod.mk.inj (Option.some.inj searched)
            exact ⟨fun _ here => here, fun _ here => here⟩
        next =>
            split at searched
            next =>
                obtain ⟨removed, cutOff, same⟩ := Option.map_eq_some_iff.mp searched
                obtain ⟨rfl, rfl⟩ := Prod.mk.inj same
                exact ⟨fun _ => mem_requests_of_removeAfter cutOff, fun _ here => here⟩
            next =>
                obtain ⟨kept, left⟩ := inductionHypothesis searched
                exact ⟨kept, fun other here => List.mem_cons_of_mem _ (left other here)⟩
  have whole := (Log.of_appendAll appended).2
  rw [Log.requests_eq_map, whole, List.map_append, ← Log.requests_eq_map] at member
  rcases List.mem_append.mp member with before | new
  · exact .inl (pieces.1 req before)
  · rw [List.map_map] at new
    obtain ⟨entry, here, rfl⟩ := List.mem_map.mp new
    exact .inr ⟨entry, pieces.2 entry here, rfl⟩

/-- A batch is made of requests in the log. -/
theorem mem_requests_of_batchRequests {log : Log Unit} {view i count : Nat}
    {requests : List Request} (batched : batchRequests log view i count = some requests) :
    ∀ req ∈ requests, req ∈ log.requests := by
  induction count generalizing i requests with
  | zero =>
      obtain rfl := Option.some.inj batched
      exact fun _ none_ => by cases none_
  | succ count inductionHypothesis =>
      obtain ⟨entry, found, rest⟩ := Option.bind_eq_some_iff.mp batched
      split at rest
      · obtain ⟨more, later, rfl⟩ := Option.map_eq_some_iff.mp rest
        intro req member
        rcases List.mem_cons.mp member with rfl | after
        · exact mem_requests_of_find found
        · exact inductionHypothesis later req after
      · cases rest

/-! ## Changes that keep a replica honest -/

/-- What can be told can be told when more has been executed. -/
theorem Terms.Told.mono {done' : List (Nat × Request)} {clientid : Nat} {reply : ReplyMessage}
    (told : t.Told done clientid reply) (more : done ⊆ done') : t.Told done' clientid reply := by
  rcases told with said | ⟨opnum, req, here, rest⟩
  · exact .inl said
  · exact .inr ⟨opnum, req, more here, rest⟩

/-- What may be put out may be put out when more has been executed. -/
theorem Terms.Emits.mono {done' : List (Nat × Request)} {output : Output}
    (emits : t.Emits done output) (more : done ⊆ done') : t.Emits done' output := by
  cases output with
  | send dst msg =>
      cases msg with
      | reply msg =>
          obtain ⟨clientid, one, told⟩ := emits
          exact ⟨clientid, one, told.mono more⟩
      | _ => exact emits
  | execute => exact emits
  | prepared => trivial
  | started => trivial

namespace Terms.Honest

/-- A replica that is honest stays so when more has been executed. -/
theorem mono {done' : List (Nat × Request)} (honest : t.Honest done r) (more : done ⊆ done') :
    t.Honest done' r :=
  { honest with
    table := fun clientid entry found replied =>
      (honest.table clientid entry found replied).mono more }

/-- Noting something in the client table. -/
theorem setTableEntry (honest : t.Honest done r) {clientid : Nat} {entry : ClientTableEntry}
    (told : entry.replied = true → t.Told done clientid entry.reply) :
    t.Honest done (r.setTableEntry clientid entry) :=
  { honest with
    table := by
      intro other known found replied
      by_cases who : other = clientid
      · subst who
        simp only [Replica.setTableEntry, Function.update_self, Option.some.injEq] at found
        subst found
        exact told replied
      · simp only [Replica.setTableEntry, Function.update_of_ne who] at found
        exact honest.table other known found replied }

/-- The entry of a client, which may have to be created. -/
theorem tableEntry (honest : t.Honest done r) {clientid : Nat}
    (replied : (r.tableEntry clientid).replied = true) :
    t.Told done clientid (r.tableEntry clientid).reply := by
  unfold Replica.tableEntry at replied ⊢
  cases found : r.clientTable clientid with
  | none => simp [found] at replied
  | some entry =>
      rw [found] at replied
      exact honest.table clientid entry found replied

/-- A reply that may be told may be stored. -/
theorem storeReply (honest : t.Honest done r) {request : Request} {reply : ReplyMessage}
    (told : t.Told done request.clientid reply) : t.Honest done (r.storeReply request reply) := by
  unfold Replica.storeReply
  split
  next => exact honest.setTableEntry fun _ => told
  next => exact honest

/-- What clients do not depend on is free. -/
theorem of_facing {r' : Replica} (honest : t.Honest done r) (same : r'.facing = r.facing) :
    t.Honest done r' := by
  simp only [Replica.facing, Prod.mk.injEq] at same
  obtain ⟨-, table, addresses, log, prepares, lastPrepare⟩ := same
  exact {
    table := table ▸ honest.table
    addresses := addresses ▸ honest.addresses
    log := log ▸ honest.log
    prepares := prepares ▸ honest.prepares
    lastPrepare := lastPrepare ▸ honest.lastPrepare }

/-- Another log. -/
theorem setLog (honest : t.Honest done r) {log : Log Unit}
    (asked : ∀ req ∈ log.requests, t.asked req) : t.Honest done { r with log := log } :=
  { honest with log := asked }

/-- What a log brings along after some number. -/
theorem asked_of_dump (honest : t.Honest done r) {from_ : Nat} :
    ∀ req ∈ (r.log.dump from_).map LogEntry.request, t.asked req := by
  intro req member
  obtain ⟨entry, here, rfl⟩ := List.mem_map.mp member
  exact honest.log _ (List.mem_map_of_mem (List.mem_of_mem_drop here))

end Terms.Honest

/-- An entry more, of a request that has been made. -/
theorem asked_of_append {log longer : Log Unit} {vs : Viewstamp} {req : Request}
    {state : LogEntryState} (before : ∀ other ∈ log.requests, t.asked other)
    (asked : t.asked req) (appended : log.append vs req state = some longer) :
    ∀ other ∈ longer.requests, t.asked other := by
  intro other member
  rcases mem_requests_of_append appended member with old | rfl
  · exact before other old
  · exact asked

/-- Entries installed, of requests that have been made. -/
theorem asked_of_install {log final : Log Unit} {entries : List Entry}
    (before : ∀ req ∈ log.requests, t.asked req) (asked : ∀ entry ∈ entries, t.asked entry.request)
    (installed : log.install entries = some final) : ∀ req ∈ final.requests, t.asked req := by
  intro req member
  rcases mem_requests_of_install installed member with old | ⟨entry, here, rfl⟩
  · exact before req old
  · exact asked entry here

namespace Terms.Good

/-- A change that keeps the replica honest and commits nothing. -/
theorem change (good : t.Good past r) {r' : Replica} (same : r'.lastCommitted = r.lastCommitted)
    (honest : t.Honest (executions past) r') : t.Good past r' where
  fair := good.fair
  committed := same.trans good.committed
  honest := honest

/-- An output that executes nothing. -/
theorem emit (good : t.Good past r) {output : Output} (silent : output.execution = none)
    (emits : t.Emits (executions past) output) : t.Good (past ++ [output]) r := by
  have same : executions (past ++ [output]) = executions past := by
    simp [executions, silent]
  constructor
  · constructor
    · rw [same]
      exact good.fair.numbers
    · rw [same]
      intro other member
      rcases List.mem_append.mp member with before | new
      · exact good.fair.emits other before
      · obtain rfl := List.mem_singleton.mp new
        exact emits
  · rw [same]
    exact good.committed
  · rw [same]
    exact good.honest

/-- The execution of the next operation number. -/
theorem execute (good : t.Good past r) {req : Request} (asked : t.asked req) :
    t.Good (past ++ [.execute (r.lastCommitted + 1) req])
      { r with lastCommitted := r.lastCommitted + 1 } := by
  have grown : executions (past ++ [.execute (r.lastCommitted + 1) req]) =
      executions past ++ [(r.lastCommitted + 1, req)] := by
    rw [executions_append]
    rfl
  have more : executions past ⊆ executions past ++ [(r.lastCommitted + 1, req)] :=
    List.subset_append_left _ _
  constructor
  · constructor
    · have next : r.lastCommitted + 1 = t.before + 1 + 1 * (executions past).length := by
        rw [good.committed]
        omega
      rw [grown, List.map_append, good.fair.numbers, List.length_append, List.length_singleton,
        List.range'_concat, ← next]
      rfl
    · rw [grown]
      intro other member
      rcases List.mem_append.mp member with before | new
      · exact (good.fair.emits other before).mono more
      · obtain rfl := List.mem_singleton.mp new
        exact asked
  · rw [grown, List.length_append, List.length_singleton, ← Nat.add_assoc, ← good.committed]
  · rw [grown]
    exact { good.honest.mono more with }

end Terms.Good

/-! ## Pieces of handlers -/

namespace Terms.Sound

variable {α : Type}

/-- A change of what clients do not depend on. -/
theorem adjust {change : Replica → Replica} {next : Unit → Run α}
    (same : ∀ r, (change r).facing = r.facing) (rest : t.Sound (next ())) :
    t.Sound (Handler.modify change >>= next) := by
  apply Keeps.modify_bind _ rest
  intro past r good
  exact good.change (congrArg Prod.fst (same r)) (good.honest.of_facing (same r))

/-- Such a change at the end of a handler. -/
theorem adjusted {change : Replica → Replica} (same : ∀ r, (change r).facing = r.facing) :
    t.Sound (Handler.modify change) :=
  @adjust t Unit change pure same Keeps.pure

/-- Sending what says nothing that clients could hold against it. -/
theorem send {dst : Destination} {msg : Message} (sends : ∀ done, t.Sends done dst msg) :
    t.Sound (Handler.emit (.send dst msg)) := by
  apply Keeps.emit
  intro past r good
  exact good.emit rfl (sends _)

/-- A mark for the history. -/
theorem mark {output : Output} (silent : output.execution = none)
    (emits : ∀ done, t.Emits done output) : t.Sound (Handler.emit output) := by
  apply Keeps.emit
  intro past r good
  exact good.emit silent (emits _)

end Terms.Sound

/-! ## Execution -/

/-- Noting a request puts nothing out and commits nothing. -/
theorem updateClientTable_quiet (req : Request) (good : t.Good past r) :
    (updateClientTable req r).outputs = [] ∧ t.Good past (updateClientTable req r).state ∧
      (updateClientTable req r).state.lastCommitted = r.lastCommitted := by
  unfold updateClientTable
  rw [Handler.get_bind, Handler.require_bind]
  split
  next =>
      split
      next =>
          exact ⟨rfl, good.change rfl (good.honest.setTableEntry good.honest.tableEntry), rfl⟩
      next =>
          refine ⟨rfl, good.change rfl ?_, rfl⟩
          exact good.honest.setTableEntry fun replied => by cases replied
  next => exact ⟨rfl, good, rfl⟩

/-- A note in the client table tells nobody anything. -/
theorem updateClientTable_sound {req : Request} : t.Sound (updateClientTable req) := by
  intro past r good
  obtain ⟨quiet, kept, -⟩ := updateClientTable_quiet req good
  have same : past ++ (updateClientTable req r).outputs = past := by
    rw [quiet, List.append_nil]
  constructor
  · rw [same]
    exact kept.fair
  · intro _ _
    rw [same]
    exact kept

/-- One round of the loop of `CommitUpTo` tells the client what the application has answered. -/
theorem commitNext_sound : t.Sound (commitNext t.app) := by
  intro past r good
  unfold commitNext
  apply Holds.modify_bind
  apply Holds.get_bind
  apply Holds.demand_bind good.fair
  intro entry found
  apply Holds.emit_bind
  have executed := good.execute (good.honest.log _ (mem_requests_of_find found))
  have marked : t.Good (past ++ [.execute (r.lastCommitted + 1) entry.request])
      { r with
        lastCommitted := r.lastCommitted + 1
        log := (r.log.setStatus (r.lastCommitted + 1) .committed).1 } := by
    refine executed.change rfl (executed.honest.setLog ?_)
    rw [Log.requests_setStatus]
    exact executed.honest.log
  -- the execution is the last of those so far
  have told : ∀ reply : ReplyMessage, reply.clientreqid = entry.request.clientreqid →
      reply.reply = t.app.execute (r.lastCommitted + 1) entry.request →
        t.Told (executions (past ++ [.execute (r.lastCommitted + 1) entry.request]))
          entry.request.clientid reply := by
    intro reply number answered
    refine .inr ⟨r.lastCommitted + 1, entry.request, ?_, rfl, number.symm, answered⟩
    rw [executions_append]
    exact List.mem_append_right _ List.mem_cons_self
  apply Holds.modify_bind
  apply Holds.modify_bind
  have stored := fun (reply : ReplyMessage) number answered =>
    marked.change (Counts.lastCommitted_storeReply _ entry.request reply)
      (marked.honest.storeReply (told reply number answered))
  split
  next addr known =>
      obtain rfl := good.honest.addresses _ _ known
      exact Holds.emit ((stored _ rfl rfl).emit rfl ⟨_, rfl, told _ rfl rfl⟩)
  next => exact Holds.pure (stored _ rfl rfl)

/-- So does all of `CommitUpTo`. -/
theorem commitUpTo_sound {upto : Nat} : t.Sound (commitUpTo t.app upto) := by
  unfold commitUpTo
  apply Keeps.get_bind
  intro _ _ _
  exact Keeps.repeated commitNext_sound

/-! ## What a replica tells the others -/

/-- A message without requests that is not for a client. -/
theorem send_sound {dst : Destination} {msg : Message} (none_ : msg.requests = [])
    (forReplicas : ∀ done, t.Sends done dst msg = ∀ req ∈ msg.requests, t.asked req) :
    t.Sound (Handler.emit (.send dst msg)) := by
  apply Terms.Sound.send
  intro done
  rw [forReplicas, none_]
  exact fun _ member => by cases member

/-- Acknowledgements go to the leader, and tell clients nothing. -/
theorem sendPrepareOKs_sound {oldLastOp : Nat} : t.Sound (sendPrepareOKs setup oldLastOp) := by
  unfold sendPrepareOKs
  apply Keeps.get_bind
  intro _ _ _
  apply Keeps.forEach
  intro i _
  unfold sendPrepareOK
  apply Keeps.get_bind
  intro _ r _
  apply Keeps.branch (fun _ => Keeps.pure)
  intro _
  apply Keeps.demand_bind
  intro entry _
  apply Keeps.require_bind
  intro _
  apply Keeps.bind updateClientTable_sound
  intro _
  exact send_sound rfl fun _ => rfl

/-- A recovering replica asks the others, with a nonce that is its own. -/
theorem sendRecoveryMessages_sound : t.Sound (sendRecoveryMessages setup) := by
  unfold sendRecoveryMessages
  apply Keeps.get_bind
  intro _ r _
  exact send_sound rfl fun _ => rfl

/-- Asking for a state transfer tells nobody what is executed. -/
theorem requestStateTransfer_sound : t.Sound requestStateTransfer := by
  unfold requestStateTransfer
  apply Keeps.get_bind
  intro _ r _
  apply Keeps.branch (fun _ => Keeps.pure)
  intro _
  refine Terms.Sound.adjust (fun _ => rfl) ?_
  exact send_sound rfl fun _ => rfl

/-- A view change is told to replicas alone. -/
theorem startViewChange_sound {newview : Nat} : t.Sound (startViewChange setup newview) := by
  unfold startViewChange
  refine Terms.Sound.adjust (fun _ => rfl) ?_
  apply Keeps.get_bind
  intro _ r _
  exact send_sound rfl fun _ => rfl

/-- A `Commit` says how far the leader is, which is what it has executed. -/
theorem sendNullCommit_sound : t.Sound (sendNullCommit setup) := by
  unfold sendNullCommit
  apply Keeps.get_bind
  intro _ r _
  apply Keeps.require_bind
  intro _
  exact send_sound rfl fun _ => rfl

/-- The batch that is sent again is of requests that have been made. -/
theorem resendPrepare_sound : t.Sound (resendPrepare setup) := by
  unfold resendPrepare
  apply Keeps.get_bind
  intro _ r good
  apply Keeps.require_bind
  intro _
  apply Keeps.branch (fun _ => Keeps.pure)
  intro _
  apply Terms.Sound.send
  exact fun _ => good.honest.lastPrepare

/-- A batch is made of requests in the log, which have been made. -/
theorem closeBatch_sound : t.Sound (closeBatch setup) := by
  unfold closeBatch
  apply Keeps.get_bind
  intro _ r good
  apply Keeps.require_bind
  intro _
  apply Keeps.require_bind
  intro _
  apply Keeps.demand_bind
  intro requests batched
  have asked : ∀ req ∈ requests, t.asked req := fun req member =>
    good.honest.log req (mem_requests_of_batchRequests batched req member)
  apply Keeps.modify_bind
  · intro _ _ good'
    exact good'.change rfl { good'.honest with lastPrepare := asked }
  apply Keeps.bind
  · apply Terms.Sound.send
    exact fun _ => asked
  intro _
  exact Terms.Sound.adjusted fun _ => rfl

/-! ## Requests -/

/-- A request that is not a duplicate is put into the log as it is, where the upcall lets it. -/
theorem acceptRequest_holds {remote : Address} {msg : RequestMessage} (asked : t.asked msg.req)
    (passes : t.app.leaderUpcall r.lastCommitted msg.req.op = (true, msg.req.op))
    (good : t.Good past r) : t.account.Holds (acceptRequest setup t.app remote msg) past r := by
  unfold acceptRequest
  obtain ⟨-, -, number⟩ := updateClientTable_quiet msg.req good
  apply (updateClientTable_sound past r good).bind
  intro _ noted
  apply Holds.get_bind
  rw [number, passes]
  apply Holds.branch (fun refused => absurd rfl refused)
  intro _
  apply Holds.demand_bind noted.fair
  intro log appended
  apply Holds.modify_bind
  have logged : t.Good (past ++ (updateClientTable msg.req r).outputs)
      { (updateClientTable msg.req r).state with
        lastOp := (updateClientTable msg.req r).state.lastOp + 1
        log := log } := by
    refine Terms.Good.change noted rfl { noted.honest with log := ?_ }
    exact asked_of_append noted.honest.log asked appended
  apply Holds.get_bind
  apply Holds.branch
  · intro _
    refine Keeps.bind closeBatch_sound (fun _ => ?_) _ _ logged
    exact Terms.Sound.adjusted fun _ => rfl
  · intro _
    refine Keeps.bind ?_ (fun _ => ?_) _ _ logged
    · exact Terms.Sound.adjusted fun _ => rfl
    · exact Terms.Sound.adjusted fun _ => rfl

/-- A duplicate is answered with what the client has been told. -/
theorem handleRequest_holds {msg : RequestMessage} (asked : t.asked msg.req)
    (passes : t.app.leaderUpcall r.lastCommitted msg.req.op = (true, msg.req.op))
    (good : t.Good past r) :
    t.account.Holds (handleRequest setup t.app (.client msg.req.clientid) msg) past r := by
  unfold handleRequest
  apply Holds.get_bind
  apply Holds.branch (fun _ => Holds.pure good)
  intro _
  apply Holds.branch (fun _ => Holds.pure good)
  intro _
  apply Holds.modify_bind
  have noted : t.Good past { r with
      clientAddresses := Function.update r.clientAddresses msg.req.clientid
        (some (.client msg.req.clientid)) } := by
    refine good.change rfl { good.honest with addresses := ?_ }
    intro clientid addr known
    by_cases who : clientid = msg.req.clientid
    · subst who
      simp only [Function.update_self, Option.some.injEq] at known
      exact known.symm
    · simp only [Function.update_of_ne who] at known
      exact good.honest.addresses clientid addr known
  cases found : r.clientTable msg.req.clientid with
  | none => exact acceptRequest_holds asked passes noted
  | some entry =>
      apply Holds.branch (fun _ => Holds.pure noted)
      intro _
      apply Holds.branch
      · intro _
        apply Holds.branch
        · intro replied
          exact Holds.emit (noted.emit rfl ⟨_, rfl, good.honest.table _ _ found replied⟩)
        · exact fun _ => Holds.pure noted
      · exact fun _ => acceptRequest_holds asked passes noted

/-- An unlogged request is answered with what the application says. -/
theorem handleUnloggedRequest_sound {remote : Address} {msg : UnloggedRequestMessage} :
    t.Sound (handleUnloggedRequest t.app remote msg) := by
  unfold handleUnloggedRequest
  apply Keeps.get_bind
  intro _ r _
  apply Keeps.branch (fun _ => Keeps.pure)
  intro _
  exact send_sound rfl fun _ => rfl

/-! ## Prepares and commits -/

/-- Requests that have been made are appended. -/
theorem appendRequests_sound {view op : Nat} {requests : List Request}
    (asked : ∀ req ∈ requests, t.asked req) : t.Sound (appendRequests view op requests) := by
  induction requests generalizing op with
  | nil => exact Keeps.pure
  | cons req rest inductionHypothesis =>
      have others : ∀ {op : Nat}, t.Sound (appendRequests view op rest) :=
        inductionHypothesis fun other member => asked other (List.mem_cons_of_mem _ member)
      unfold appendRequests
      apply Keeps.get_bind
      intro _ r good
      apply Keeps.branch (fun _ => others)
      intro _
      apply Keeps.demand_bind
      intro log appended
      apply Keeps.modify_bind
      · intro _ r' good'
        refine good'.change rfl { good'.honest with log := ?_ }
        exact asked_of_append good.honest.log (asked req List.mem_cons_self) appended
      exact Keeps.bind updateClientTable_sound fun _ => others

/-- A batch of requests that have been made is appended or dropped. -/
theorem handlePrepare_sound {remote : Address} {msg : PrepareMessage}
    (asked : ∀ req ∈ msg.request, t.asked req) : t.Sound (handlePrepare setup remote msg) := by
  have deferred : t.Sound (do
      requestStateTransfer
      Handler.modify fun r =>
        { r with pendingPrepares := r.pendingPrepares ++ [(remote, msg)] }) := by
    apply Keeps.bind requestStateTransfer_sound
    intro _
    apply Keeps.modify
    intro _ r good
    refine good.change rfl { good.honest with prepares := ?_ }
    intro pending member
    rcases List.mem_append.mp member with before | new
    · exact good.honest.prepares pending before
    · obtain rfl := List.mem_singleton.mp new
      exact asked
  unfold handlePrepare
  apply Keeps.get_bind
  intro _ r _
  apply Keeps.branch (fun _ => Keeps.pure)
  intro _
  apply Keeps.branch (fun _ => Keeps.pure)
  intro _
  apply Keeps.branch (fun _ => deferred)
  intro _
  apply Keeps.require_bind
  intro _
  apply Keeps.require_bind
  intro _
  apply Keeps.require_bind
  intro _
  refine Terms.Sound.adjust (fun _ => rfl) ?_
  apply Keeps.branch (fun _ => send_sound rfl fun _ => rfl)
  intro _
  apply Keeps.branch (fun _ => deferred)
  intro _
  apply Keeps.bind (appendRequests_sound asked)
  intro next
  apply Keeps.require_bind
  intro _
  exact send_sound rfl fun _ => rfl

/-- The leader executes its own log, whose requests have been made. -/
theorem handlePrepareOK_sound {msg : PrepareOKMessage} :
    t.Sound (handlePrepareOK setup t.app msg) := by
  unfold handlePrepareOK
  apply Keeps.get_bind
  intro _ r _
  apply Keeps.branch (fun _ => Keeps.pure)
  intro _
  apply Keeps.branch (fun _ => Keeps.pure)
  intro _
  apply Keeps.branch (fun _ => requestStateTransfer_sound)
  intro _
  apply Keeps.branch (fun _ => Keeps.pure)
  intro _
  refine Terms.Sound.adjust (fun _ => rfl) ?_
  split
  next => exact Keeps.pure
  next msgs _ =>
      unfold commitPrepared markPrepared
      apply Keeps.bind
      · apply Keeps.get_bind
        intro _ r _
        apply Keeps.branch _ (fun _ => Keeps.pure)
        intro _
        exact Terms.Sound.mark rfl fun _ => trivial
      intro _
      apply Keeps.bind commitUpTo_sound
      intro _
      apply Keeps.branch (fun _ => Keeps.pure)
      intro _
      apply Keeps.get_bind
      intro _ r _
      apply Keeps.bind
      · exact send_sound rfl fun _ => rfl
      intro _
      refine Terms.Sound.adjust (fun _ => rfl) ?_
      apply Keeps.branch _ (fun _ => Keeps.pure)
      intro _
      refine Terms.Sound.adjust (fun _ => rfl) ?_
      exact Keeps.branch (fun _ => closeBatch_sound) (fun _ => Keeps.pure)

/-- A follower executes its own log, as far as the leader has committed. -/
theorem handleCommit_sound {msg : CommitMessage} : t.Sound (handleCommit setup t.app msg) := by
  unfold handleCommit
  apply Keeps.get_bind
  intro _ r _
  apply Keeps.branch (fun _ => Keeps.pure)
  intro _
  apply Keeps.branch (fun _ => Keeps.pure)
  intro _
  apply Keeps.branch (fun _ => requestStateTransfer_sound)
  intro _
  apply Keeps.require_bind
  intro _
  refine Terms.Sound.adjust (fun _ => rfl) ?_
  apply Keeps.branch (fun _ => Keeps.pure)
  intro _
  exact Keeps.branch (fun _ => requestStateTransfer_sound) (fun _ => commitUpTo_sound)

/-! ## State transfer -/

/-- Entries of the log are of requests that have been made. -/
theorem handleRequestStateTransfer_sound {remote : Address} {msg : RequestStateTransferMessage} :
    t.Sound (handleRequestStateTransfer remote msg) := by
  unfold handleRequestStateTransfer
  apply Keeps.get_bind
  intro _ r good
  apply Keeps.branch (fun _ => Keeps.pure)
  intro _
  apply Keeps.branch (fun _ => requestStateTransfer_sound)
  intro _
  apply Terms.Sound.send
  exact fun _ => good.honest.asked_of_dump

/-- An entry that is transferred may take a place in the log. -/
theorem transferEntry_sound {oldLastOp : Nat} {entry : Entry} (asked : t.asked entry.request) :
    t.Sound (transferEntry oldLastOp entry) := by
  unfold transferEntry
  apply Keeps.get_bind
  intro _ r good
  apply Keeps.branch (fun _ => Keeps.pure)
  intro _
  apply Keeps.branch
  · intro _
    apply Keeps.demand_bind
    intro mine _
    apply Keeps.require_bind
    intro _
    apply Keeps.require_bind
    intro _
    apply Keeps.branch
    · intro _
      exact Keeps.require_bind fun _ => Keeps.pure
    · intro _
      apply Keeps.require_bind
      intro _
      apply Keeps.demand_bind
      intro cut removed
      apply Keeps.demand_bind
      intro log appended
      apply Keeps.bind (Keeps.modify _) fun _ => Keeps.pure
      intro _ r' good'
      refine good'.change rfl { good'.honest with log := asked_of_append ?_ asked appended }
      exact fun req member => good.honest.log req (mem_requests_of_removeAfter removed member)
  · intro _
    apply Keeps.require_bind
    intro _
    apply Keeps.demand_bind
    intro log appended
    apply Keeps.bind (Keeps.modify _) fun _ => Keeps.pure
    intro _ r' good'
    refine good'.change rfl { good'.honest with log := ?_ }
    exact asked_of_append good.honest.log asked appended

/-- Entries of requests that have been made are put into the log. -/
theorem transferEntries_sound {oldLastOp : Nat} {entries : List Entry}
    (asked : ∀ entry ∈ entries, t.asked entry.request) :
    t.Sound (transferEntries oldLastOp entries) := by
  induction entries generalizing oldLastOp with
  | nil => exact Keeps.pure
  | cons entry rest inductionHypothesis =>
      apply Keeps.bind (transferEntry_sound (asked entry List.mem_cons_self))
      intro _
      exact inductionHypothesis fun other inRest => asked other (List.mem_cons_of_mem _ inRest)

/-- With the entries in its log a follower acknowledges and executes them. -/
theorem completeTransfer_sound {msg : StateTransferMessage} {oldLastOp : Nat} :
    t.Sound (completeTransfer setup t.app msg oldLastOp) := by
  unfold completeTransfer
  apply Keeps.get_bind
  intro _ r _
  apply Keeps.require_bind
  intro _
  apply Keeps.bind commitUpTo_sound
  intro _
  apply Keeps.bind sendPrepareOKs_sound
  intro _
  apply Keeps.get_bind
  intro _ r good
  apply Keeps.modify_bind
  · intro _ r' good'
    refine good'.change rfl { good'.honest with prepares := ?_ }
    intro pending none_
    cases none_
  exact Keeps.forEach fun pending member =>
    handlePrepare_sound (good.honest.prepares pending member)

/-- Entering a view after something. -/
theorem enterView_sound {newview : Nat} {next : Unit → Run Unit} (rest : t.Sound (next ())) :
    t.Sound (Handler.modify (·.enterView setup newview) >>= next) :=
  Terms.Sound.adjust (fun _ => rfl) rest

/-- Entries of another replica's log are of requests that have been made. -/
theorem handleStateTransfer_sound {msg : StateTransferMessage}
    (asked : ∀ entry ∈ msg.entries, t.asked entry.request) :
    t.Sound (handleStateTransfer setup t.app msg) := by
  unfold handleStateTransfer
  apply Keeps.get_bind
  intro _ r _
  apply Keeps.branch (fun _ => Keeps.pure)
  intro _
  apply Keeps.bind (transferEntries_sound asked)
  intro oldLastOp
  exact Keeps.branch (fun _ => enterView_sound completeTransfer_sound)
    (fun _ => completeTransfer_sound)

/-! ## View changes -/

/-- The vote that is sent brings along the log, whose requests have been made. -/
theorem handleStartViewChange_sound {undefined : Undefined} {msg : StartViewChangeMessage} :
    t.Sound (handleStartViewChange setup undefined msg) := by
  have counted : t.Sound (countStartViewChange setup undefined msg) := by
    unfold countStartViewChange
    apply Keeps.get_bind
    intro _ r good
    apply Keeps.require_bind
    intro _
    refine Terms.Sound.adjust (fun _ => rfl) ?_
    split
    next => exact Keeps.pure
    next =>
        apply Keeps.branch _ (fun _ => Keeps.pure)
        intro _
        refine Terms.Sound.adjust (fun _ => rfl) ?_
        apply Terms.Sound.send
        exact fun _ => good.honest.asked_of_dump
  unfold handleStartViewChange
  apply Keeps.get_bind
  intro _ r _
  apply Keeps.branch (fun _ => Keeps.pure)
  intro _
  apply Keeps.branch (fun _ => Keeps.pure)
  intro _
  exact Keeps.branch (fun _ => Keeps.bind startViewChange_sound fun _ => counted)
    (fun _ => counted)

/-- Putting the entries of a message into the log. -/
theorem install_sound {removed : Option (Log Unit)} {entries : List Entry}
    (cut : ∀ log, removed = some log → ∀ req ∈ log.requests, t.asked req)
    (asked : ∀ entry ∈ entries, t.asked entry.request) : t.Sound (do
      let log ← Handler.demand removed
      let log ← Handler.demand (log.install entries)
      Handler.modify fun r => { r with log := log }) := by
  apply Keeps.demand_bind
  intro log found
  apply Keeps.demand_bind
  intro final installed
  apply Keeps.modify
  intro _ r good
  refine good.change rfl (good.honest.setLog ?_)
  exact asked_of_install (cut log found) asked installed

/-- The new leader sends its own log, whose requests have been made. -/
theorem handleDoViewChange_sound {undefined : Undefined} {msg : DoViewChangeMessage} :
    t.Sound (handleDoViewChange setup undefined.stopping msg) := by
  have led : ∀ msgs, t.Sound (becomeLeader setup undefined.stopping msg msgs) := by
    intro msgs
    unfold becomeLeader
    apply Keeps.get_bind
    intro _ r _
    split
    next => exact Keeps.stop
    next =>
        apply enterView_sound
        apply Keeps.get_bind
        intro _ r _
        apply Keeps.require_bind
        intro _
        refine Terms.Sound.adjust (fun _ => rfl) ?_
        apply Keeps.bind
        · exact Terms.Sound.mark rfl fun _ => trivial
        intro _
        apply Keeps.get_bind
        intro _ r good
        apply Terms.Sound.send
        exact fun _ => good.honest.asked_of_dump
  have counted : t.Sound (countDoViewChange setup undefined.stopping msg) := by
    unfold countDoViewChange
    apply Keeps.require_bind
    intro _
    apply Keeps.get_bind
    intro _ r good
    refine Terms.Sound.adjust (fun _ => rfl) ?_
    split
    next => exact Keeps.pure
    next msgs _ => exact led msgs
  unfold handleDoViewChange
  apply Keeps.get_bind
  intro _ r _
  apply Keeps.branch (fun _ => Keeps.pure)
  intro _
  apply Keeps.branch (fun _ => Keeps.pure)
  intro _
  exact Keeps.branch (fun _ => Keeps.bind startViewChange_sound fun _ => counted)
    (fun _ => counted)

/-- The log of the new view is of requests that have been made. -/
theorem handleStartView_sound {msg : StartViewMessage}
    (asked : ∀ entry ∈ msg.entries, t.asked entry.request) :
    t.Sound (handleStartView setup t.app msg) := by
  unfold handleStartView
  apply Keeps.get_bind
  intro _ r _
  apply Keeps.branch (fun _ => Keeps.pure)
  intro _
  apply Keeps.branch (fun _ => Keeps.pure)
  intro _
  apply Keeps.require_bind
  intro _
  apply Keeps.bind
  · unfold installStartView
    apply Keeps.get_bind
    intro _ r good
    split
    next =>
        apply Keeps.require_bind
        intro _
        exact Keeps.require
    next =>
        apply Keeps.require_bind
        intro _
        apply install_sound _ asked
        exact fun cut removed req member =>
          good.honest.log req (mem_requests_of_removeAfter removed member)
  intro _
  apply enterView_sound
  refine Terms.Sound.adjust (fun _ => rfl) ?_
  apply Keeps.get_bind
  intro _ r _
  apply Keeps.require_bind
  intro _
  exact Keeps.bind commitUpTo_sound fun _ => sendPrepareOKs_sound

/-! ## Recovery -/

/-- A recovering replica is told the log, whose requests have been made. -/
theorem handleRecovery_sound {remote : Address} {msg : RecoveryMessage} :
    t.Sound (handleRecovery setup remote msg) := by
  unfold handleRecovery
  apply Keeps.get_bind
  intro _ r good
  apply Keeps.branch (fun _ => Keeps.pure)
  intro _
  apply Keeps.branch
  · intro _
    apply Terms.Sound.send
    exact fun _ => good.honest.asked_of_dump
  · intro _
    exact send_sound rfl fun _ => rfl

/-- Answers are counted, and with a quorum the log of the leader is installed. -/
theorem handleRecoveryResponse_sound {undefined : Undefined} {msg : RecoveryResponseMessage} :
    t.Sound (handleRecoveryResponse setup undefined.stopping msg) := by
  have completed : ∀ leaderResponse,
      t.Sound (completeRecovery setup undefined.stopping leaderResponse) := by
    intro leaderResponse past r good
    unfold completeRecovery
    apply Holds.get_bind
    apply Holds.demand_bind good.fair
    intro log _
    apply Holds.modify_bind
    apply Holds.modify_bind
    exact Holds.stop good.fair
  unfold handleRecoveryResponse
  apply Keeps.get_bind
  intro _ r _
  apply Keeps.branch (fun _ => Keeps.pure)
  intro _
  apply Keeps.branch (fun _ => Keeps.pure)
  intro _
  refine Terms.Sound.adjust (fun _ => rfl) ?_
  split
  next => exact Keeps.pure
  next =>
      apply Keeps.require_bind
      intro _
      split
      next => exact Keeps.pure
      next response _ => exact Keeps.branch (fun _ => Keeps.pure) fun _ => completed response

/-! ## Any message and any timer -/

/-- A message that may reach a replica: it asks for what has been asked for, and a request comes
from the client that it is of. -/
structure Message.Admissible (t : Terms) (src : Address) (msg : Message) : Prop where
  asked : ∀ req ∈ msg.requests, t.asked req
  sender : ∀ request, msg = .request request → src = .client request.req.clientid

/-- Where a request is, the upcall lets it through as it is. -/
def Message.Passes (app : App) (opnum : Nat) : Message → Prop
  | .request msg => app.leaderUpcall opnum msg.req.op = (true, msg.req.op)
  | _ => True

/-- The entries of a message are of the requests that it brings. -/
theorem asked_of_entries {entries : List Entry}
    (asked : ∀ req ∈ entries.map LogEntry.request, t.asked req) :
    ∀ entry ∈ entries, t.asked entry.request :=
  fun _ member => asked _ (List.mem_map_of_mem member)

/-- Whatever message arrives, the replica accounts for what it does, if it stops where that is not
defined. -/
theorem receiveMessage_holds {undefined : Undefined} {src : Address} {msg : Message}
    (admissible : msg.Admissible t src) (passes : msg.Passes t.app r.lastCommitted)
    (good : t.Good past r) :
    t.account.Holds (receiveMessage setup t.app undefined.stopping src msg) past r := by
  have asked := admissible.asked
  cases msg with
  | request msg =>
      obtain rfl := admissible.sender msg rfl
      exact handleRequest_holds (asked msg.req List.mem_cons_self) passes good
  | unloggedRequest msg => exact handleUnloggedRequest_sound past r good
  | prepare msg => exact handlePrepare_sound asked past r good
  | prepareOK msg => exact handlePrepareOK_sound past r good
  | commit msg => exact handleCommit_sound past r good
  | requestStateTransfer msg => exact handleRequestStateTransfer_sound past r good
  | stateTransfer msg => exact handleStateTransfer_sound (asked_of_entries asked) past r good
  | startViewChange msg => exact handleStartViewChange_sound past r good
  | doViewChange msg => exact handleDoViewChange_sound past r good
  | startView msg => exact handleStartView_sound (asked_of_entries asked) past r good
  | recovery msg => exact handleRecovery_sound past r good
  | recoveryResponse msg => exact handleRecoveryResponse_sound past r good
  | reply msg => exact Holds.stop good.fair
  | unloggedReply msg => exact Holds.stop good.fair

/-- Whatever timeout fires, the replica accounts for what it does. -/
theorem fireTimer_sound {timer : Timer} : t.Sound (fireTimer setup timer) := by
  cases timer with
  | viewChange =>
      apply Keeps.get_bind
      intro _ r _
      exact startViewChange_sound
  | nullCommit => exact sendNullCommit_sound
  | stateTransfer => exact Terms.Sound.adjusted fun _ => rfl
  | resendPrepare => exact resendPrepare_sound
  | closeBatch => exact closeBatch_sound
  | recovery => exact sendRecoveryMessages_sound

end PaxosBus.Vr

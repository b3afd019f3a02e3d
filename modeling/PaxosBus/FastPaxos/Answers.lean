import PaxosBus.FastPaxos.Indices
import PaxosBus.Library.Maintaining

/-!
# What clients are told

Every request that a replica has, or passes on, has been made by a client, and a
reply to a client says what the application answered when the replica executed a
request of that client with that number. A handler keeps it so, whatever reaches
the replica; it has to be known that the replica counts what it has executed.
-/

set_option autoImplicit false

namespace PaxosBus.FastPaxos

open PaxosBus.Common PaxosBus.Library
open Logic (Maintains)

/-- What a step of a replica goes by: the requests that clients have made, what clients have been
told before, how many requests the replica had executed, and what the application answers now. -/
structure Terms where
  asked : Request → Prop
  said : Nat → ReplyMessage → Prop
  before : Nat
  app : App

/-- A client may be told so: it is what it has been told before, or what the application has
answered for a request of its that is among those executed now. -/
def Terms.Told (t : Terms) (executed : List Request) (clientid : Nat) (reply : ReplyMessage) :
    Prop :=
  t.said clientid reply ∨ ∃ (index : Nat) (req : Request), t.before ≤ index ∧
    executed[index]? = some req ∧ req.clientid = clientid ∧
    req.clientreqid = reply.clientreqid ∧ reply.reply = t.app.execute (index + 1) req

/-- What can be told can be told when more has been executed. -/
theorem Terms.Told.mono {t : Terms} {executed executed' : List Request} {clientid : Nat}
    {reply : ReplyMessage} (told : t.Told executed clientid reply)
    (more : executed <+: executed') : t.Told executed' clientid reply := by
  rcases told with said | ⟨index, req, after, here, rest⟩
  · exact .inl said
  · exact .inr ⟨index, req, after, getElem?_of_extends more here, rest⟩

/-- What a replica has on its hands: requests that have been made, replies that can be told, and
the addresses of clients. -/
structure Terms.Honest (t : Terms) (executed : List Request) (r : Replica) : Prop where
  history : r.executed = executed
  before : t.before ≤ executed.length
  table : ∀ clientid entry, r.clientTable clientid = some entry → entry.replied = true →
    t.Told executed clientid entry.reply
  addresses : ∀ clientid addr, r.clientAddresses clientid = some addr → addr = .client clientid
  log : ∀ req ∈ r.log.requests, t.asked req
  prepares : ∀ entry ∈ r.pendingPrepares, 0 < entry.2.opnum → t.asked entry.2.req
  lastPrepare : 0 < r.lastPrepare.opnum → t.asked r.lastPrepare.req

/-- A message says nothing else. -/
def Send.Honest (t : Terms) (executed : List Request) (send : Send) : Prop :=
  match send.msg with
  | .reply msg => ∃ clientid, send.dst = .one (.client clientid) ∧ t.Told executed clientid msg
  | .prepare msg => 0 < msg.opnum → t.asked msg.req
  | .commit msg => t.asked msg.req
  | .stateTransfer msg => ∀ entry ∈ msg.entries, t.asked entry.request
  | .request _ => False
  | _ => True

/-- What handlers of a replica are judged by. -/
def Terms.logic (t : Terms) : Logic (List Request) Replica Send where
  Later executed executed' := executed <+: executed'
  refl _ := List.prefix_rfl
  trans := List.IsPrefix.trans
  Valid executed send := send.Honest t executed
  mono {executed executed' send} more honest := by
    unfold Send.Honest at honest ⊢
    cases found : send.msg with
    | reply msg =>
        simp only [found] at honest
        obtain ⟨clientid, dst, told⟩ := honest
        exact ⟨clientid, dst, told.mono more⟩
    | request msg => simp only [found] at honest
    | prepare msg => simpa only [found] using honest
    | commit msg => simpa only [found] using honest
    | stateTransfer msg => simpa only [found] using honest
    | prepareOK | requestStateTransfer | unloggedRequest | unloggedReply => trivial
  Keeps := t.Honest

/-- The part of a replica's state that clients depend on. -/
def Replica.facing (r : Replica) :=
  (r.executed, r.lastCommitted, r.clientTable, r.clientAddresses, r.log, r.pendingPrepares,
    r.lastPrepare)

variable {t : Terms} {setup : Setup}

/-- A handler that keeps a replica honest, wherever it is run, if the replica counts what it has
executed. -/
abbrev Terms.Sound {α : Type} (t : Terms) (handler : Run α) : Prop :=
  t.logic.Maintains (fun r => r.core.Counted) handler

/-! ## Changes that keep a replica honest -/

namespace Terms.Honest

variable {executed : List Request} {r : Replica}

/-- Noting a request in the client table. -/
theorem setTableEntry (honest : t.Honest executed r) {clientid : Nat} {entry : ClientTableEntry}
    (told : entry.replied = true → t.Told executed clientid entry.reply) :
    t.Honest executed (r.setTableEntry clientid entry) :=
  { honest with
    table := by
      intro other known found replied
      by_cases who : other = clientid
      · subst who
        simp only [Replica.setTableEntry, Function.update_self, Option.some.injEq] at found
        subst found
        exact told replied
      · simp only [Replica.setTableEntry, Function.update_of_ne who] at found
        exact honest.table other known found replied }

/-- The entry of a client, which may have to be created. -/
theorem tableEntry (honest : t.Honest executed r) {clientid : Nat}
    (replied : (r.tableEntry clientid).replied = true) :
    t.Told executed clientid (r.tableEntry clientid).reply := by
  unfold Replica.tableEntry at replied ⊢
  cases found : r.clientTable clientid with
  | none => simp [found] at replied
  | some entry =>
      rw [found] at replied
      exact honest.table clientid entry found replied

/-- A note in the client table tells nobody anything. -/
theorem updateClientTable (honest : t.Honest executed r) (req : Request) :
    t.Honest executed (r.updateClientTable req) := by
  unfold Replica.updateClientTable
  dsimp only
  split
  next => exact honest.setTableEntry honest.tableEntry
  next => exact honest.setTableEntry fun replied => by cases replied

/-- A reply that may be told may be stored. -/
theorem storeReply (honest : t.Honest executed r) {request : Request} {reply : ReplyMessage}
    (told : t.Told executed request.clientid reply) :
    t.Honest executed (r.storeReply request reply) := by
  unfold Replica.storeReply
  split
  next => exact honest.setTableEntry fun _ => told
  next => exact honest

/-- Another log. -/
theorem setLog (honest : t.Honest executed r) {log : Log Unit}
    (asked : ∀ req ∈ log.requests, t.asked req) : t.Honest executed { r with log := log } :=
  { honest with log := asked }

/-- What is found in the log has been asked for. -/
theorem asked_of_find (honest : t.Honest executed r) {opnum : Nat} {entry : Entry}
    (found : r.log.find opnum = some entry) : t.asked entry.request :=
  honest.log _ (List.mem_of_getElem? (Log.request_of_find found))

/-- So has what is in a longer log, -/
theorem asked_of_append (honest : t.Honest executed r) {vs : Viewstamp} {req : Request}
    {state : LogEntryState} {log : Log Unit} (asked : t.asked req)
    (appended : r.log.append vs req state = some log) : ∀ other ∈ log.requests, t.asked other := by
  intro other member
  rw [Log.requests_of_append appended] at member
  rcases List.mem_append.mp member with before | new
  · exact honest.log other before
  · obtain rfl := List.mem_singleton.mp new
    exact asked

/-- in a log with another request in it, -/
theorem asked_of_setRequest (honest : t.Honest executed r) {opnum : Nat} {entry : Entry}
    {req : Request} {replaced : Log Unit × Bool} (asked : t.asked req)
    (found : r.log.find opnum = some entry)
    (set_ : r.log.setRequest opnum req = some replaced) :
    ∀ other ∈ replaced.1.requests, t.asked other := by
  intro other member
  rw [(Log.of_setRequest (Log.of_find found).1 set_).2.1] at member
  rcases List.mem_or_eq_of_mem_set member with before | rfl
  · exact honest.log other before
  · exact asked

/-- and in what is left of a log. -/
theorem asked_of_removeAfter (honest : t.Honest executed r) {opnum : Nat} {cut : Log Unit}
    (removed : r.log.removeAfter opnum = some cut) : ∀ other ∈ cut.requests, t.asked other := by
  intro other member
  rw [Log.requests_eq_map, (Log.of_removeAfter removed).2, List.map_take] at member
  rw [← Log.requests_eq_map] at member
  exact honest.log other (List.mem_of_mem_take member)

end Terms.Honest

/-! ## Pieces of handlers -/

namespace Terms.Sound

variable {α : Type}

/-- A change of what clients do not depend on. -/
theorem adjust {change : Replica → Replica} {next : Unit → Run α}
    (same : ∀ r, (change r).facing = r.facing) (rest : t.Sound (next ())) :
    t.Sound (Handler.modify change >>= next) := by
  apply Maintains.modify_bind _ rest
  intro executed r honest counted
  have equal := same r
  simp only [Replica.facing, Prod.mk.injEq] at equal
  obtain ⟨history, number, table, addresses, log, prepares, lastPrepare⟩ := equal
  have counts : (change r).executed.length = (change r).lastCommitted := by
    rw [history, number]
    exact counted
  refine ⟨?_, counts⟩
  exact {
    history := history.trans honest.history
    before := honest.before
    table := table ▸ honest.table
    addresses := addresses ▸ honest.addresses
    log := log ▸ honest.log
    prepares := prepares ▸ honest.prepares
    lastPrepare := lastPrepare ▸ honest.lastPrepare }

/-- Such a change at the end of a handler. -/
theorem adjusted {change : Replica → Replica} (same : ∀ r, (change r).facing = r.facing) :
    t.Sound (Handler.modify change) :=
  @adjust t Unit change pure same Maintains.pure

/-- Sending what says nothing that clients could hold against it. -/
theorem send {dst : Destination} {msg : Message}
    (honest : ∀ executed, Send.Honest t executed ⟨dst, msg⟩) :
    t.Sound (Handler.emit ⟨dst, msg⟩) := by
  apply Maintains.emit
  intro executed _ _ _
  exact honest executed

/-- Noting a request. -/
theorem updateClientTable (req : Request) :
    t.Sound (Handler.modify (·.updateClientTable req)) := by
  apply Maintains.modify
  intro executed r honest counted
  constructor
  · exact honest.updateClientTable req
  · rw [core_updateClientTable]
    exact counted

end Terms.Sound

/-! ## Execution -/

/-- One round of the loop of `CommitUpTo` tells the client what the application has answered. -/
theorem commitNext_sound : t.Sound (commitNext t.app) := by
  intro executed r honest counted
  unfold commitNext
  have number : r.lastCommitted = executed.length := by
    rw [← honest.history]
    exact counted.symm
  have raised : t.Honest executed { r with lastCommitted := r.lastCommitted + 1 } := { honest with }
  refine .bind (.change raised fun _ => .bind (.get raised fun _ => ?_))
  refine .bind (.demand raised fun entry found _ => ?_)
  -- what is executed now is the last of the requests executed
  have longer : executed <+: executed ++ [entry.request] := List.prefix_append _ _
  have grown : t.Honest (executed ++ [entry.request])
      { r with
        lastCommitted := r.lastCommitted + 1
        executed := r.executed ++ [entry.request] } :=
    { honest with
      history := congrArg (· ++ [entry.request]) honest.history
      before := honest.before.trans longer.length_le
      table := fun clientid known here replied =>
        (honest.table clientid known here replied).mono longer }
  have marked : t.Honest (executed ++ [entry.request])
      { r with
        lastCommitted := r.lastCommitted + 1
        executed := r.executed ++ [entry.request]
        log := (r.log.setStatus (r.lastCommitted + 1) .committed).1 } := by
    apply grown.setLog
    rw [Log.requests_setStatus]
    exact honest.log
  have told : ∀ reply : ReplyMessage, reply.clientreqid = entry.request.clientreqid →
      reply.reply = t.app.execute (r.lastCommitted + 1) entry.request →
        t.Told (executed ++ [entry.request]) entry.request.clientid reply := by
    intro reply number' answered
    refine .inr ⟨executed.length, entry.request, honest.before, ?_, rfl, number'.symm, ?_⟩
    · exact List.getElem?_concat_length
    · rw [answered, number]
  refine .bind (.modify longer grown fun _ => .bind (.change marked fun _ => ?_))
  refine .bind (.change (marked.storeReply (told _ rfl rfl)) fun stored => ?_)
  have counts : ∀ {request : Request} {reply : ReplyMessage}, ({ r with
        lastCommitted := r.lastCommitted + 1
        executed := r.executed ++ [entry.request]
        log := (r.log.setStatus (r.lastCommitted + 1) .committed).1 }.storeReply
          request reply).core.Counted := by
    intro request reply
    rw [core_storeReply]
    show (r.executed ++ [entry.request]).length = r.lastCommitted + 1
    rw [List.length_append, number, honest.history]
    rfl
  split
  next addr known =>
      obtain rfl := honest.addresses _ _ known
      exact .emit stored ⟨_, rfl, told _ rfl rfl⟩ counts
  next => exact .pure stored counts

/-- So does all of `CommitUpTo`. -/
theorem commitUpTo_sound {upto : Nat} : t.Sound (commitUpTo t.app upto) := by
  unfold commitUpTo
  apply Maintains.get_bind
  intro _ _ _ _
  apply Maintains.bind (Maintains.repeated commitNext_sound)
  intro _
  refine Terms.Sound.adjust (fun _ => rfl) ?_
  apply Maintains.get_bind
  intro _ _ _ _
  exact Maintains.require

/-! ## The other handlers -/

/-- Asking for a state transfer tells nobody what is executed. -/
theorem requestStateTransfer_sound : t.Sound requestStateTransfer := by
  unfold requestStateTransfer
  apply Maintains.get_bind
  intro _ r _ _
  apply Maintains.branch (fun _ => Maintains.pure)
  intro _
  refine Terms.Sound.adjust (fun _ => rfl) ?_
  exact Terms.Sound.send fun _ => trivial

/-- Acknowledgements go to the leader, and tell clients nothing. -/
theorem sendPrepareOK_sound {i : Nat} : t.Sound (sendPrepareOK setup i) := by
  unfold sendPrepareOK
  apply Maintains.get_bind
  intro _ r _ _
  apply Maintains.branch (fun _ => Maintains.pure)
  intro _
  apply Maintains.demand_bind
  intro entry _
  apply Maintains.require_bind
  intro _
  apply Maintains.bind (Terms.Sound.updateClientTable entry.request)
  intro _
  exact Terms.Sound.send fun _ => trivial

/-- What is sent again has been asked for. -/
theorem resendPrepare_sound : t.Sound (resendPrepare setup) := by
  unfold resendPrepare
  apply Maintains.get_bind
  intro _ r honest _
  apply Maintains.require_bind
  intro _
  apply Maintains.branch (fun _ => Maintains.pure)
  intro _
  refine Terms.Sound.adjust (fun _ => rfl) ?_
  exact Terms.Sound.send fun _ => honest.lastPrepare

/-- The leader executes what it commits, and it commits requests that have been made. -/
theorem commitPrepared_sound {msg : PrepareOKMessage} {request : Request} {numRequired : Nat}
    {msgs : Std.TreeMap Nat PrepareOKMessage} (asked : t.asked request) :
    t.Sound (commitPrepared t.app msg request numRequired msgs) := by
  unfold commitPrepared
  apply Maintains.bind commitUpTo_sound
  intro _
  apply Maintains.branch (fun _ => Maintains.pure)
  intro _
  apply Maintains.get_bind
  intro _ r _ _
  exact Terms.Sound.send fun _ => asked

/-- An acknowledgement is counted, and with enough of them the leader commits. -/
theorem countPrepareOK_sound {msg : PrepareOKMessage} {request : Request}
    (asked : t.asked request) : t.Sound (countPrepareOK t.app msg request) := by
  unfold countPrepareOK
  apply Maintains.get_bind
  intro _ r _ _
  apply Maintains.branch
  · intro _
    rcases r.slowPrepareOKQuorum.addAndCheckForQuorum ⟨msg.view, msg.opnum⟩ msg.replicaIdx msg
      with ⟨quorum, found⟩
    refine Terms.Sound.adjust (fun _ => rfl) ?_
    cases found with
    | none => exact Maintains.pure
    | some msgs => exact commitPrepared_sound asked
  · intro _
    rcases r.fastPrepareOKQuorum.addAndCheckForQuorum ⟨msg.view, msg.opnum⟩ msg.replicaIdx msg
      with ⟨quorum, found⟩
    refine Terms.Sound.adjust (fun _ => rfl) ?_
    cases found with
    | none => exact Maintains.pure
    | some msgs => exact commitPrepared_sound asked

/-- An acknowledgement is counted for the request that the leader has under the number. -/
theorem handlePrepareOK_sound {remote : Address} {msg : PrepareOKMessage} :
    t.Sound (handlePrepareOK setup t.app remote msg) := by
  unfold handlePrepareOK
  apply Maintains.get_bind
  intro _ r honest _
  apply Maintains.branch (fun _ => Maintains.pure)
  intro _
  apply Maintains.branch (fun _ => Maintains.pure)
  intro _
  apply Maintains.branch (fun _ => requestStateTransfer_sound)
  intro _
  apply Maintains.branch (fun _ => Maintains.pure)
  intro _
  apply Maintains.branch (fun _ => Maintains.pure)
  intro _
  apply Maintains.branch
  · intro _
    exact Terms.Sound.adjusted fun _ => rfl
  · intro _
    apply Maintains.demand_bind
    intro entry found
    apply Maintains.require_bind
    intro _
    apply Maintains.branch (fun _ => resendPrepare_sound)
    intro _
    exact countPrepareOK_sound (honest.asked_of_find found)

/-- The leader appends the request, and counts the acknowledgements that have waited for it. -/
theorem acceptRequest_sound {msg : RequestMessage} (asked : t.asked msg.req) :
    t.Sound (acceptRequest setup t.app msg) := by
  unfold acceptRequest
  apply Maintains.get_bind
  intro _ r honest _
  apply Maintains.require_bind
  intro _
  apply Maintains.demand_bind
  intro log appended
  apply Maintains.modify_bind
  · intro executed r' honest' counted
    exact ⟨{ honest' with
      log := honest.asked_of_append asked appended
      lastPrepare := fun _ => asked }, counted⟩
  apply Maintains.get_bind
  intro _ r' _ _
  refine Terms.Sound.adjust (fun _ => rfl) ?_
  exact Maintains.forEach fun _ _ => handlePrepareOK_sound

/-- Another replica appends the request under the number that it guesses. -/
theorem guessRequest_sound {msg : RequestMessage} (asked : t.asked msg.req) :
    t.Sound (guessRequest setup msg) := by
  unfold guessRequest
  apply Maintains.get_bind
  intro _ r honest _
  apply Maintains.demand_bind
  intro log appended
  apply Maintains.modify_bind
  · intro executed r' honest' counted
    exact ⟨{ honest' with log := honest.asked_of_append asked appended }, counted⟩
  exact Terms.Sound.send fun _ => trivial

/-- A request that is not a duplicate is appended by everybody that gets it. -/
theorem newRequest_sound {msg : RequestMessage} (asked : t.asked msg.req) :
    t.Sound (newRequest setup t.app msg) := by
  unfold newRequest
  apply Maintains.bind (Terms.Sound.updateClientTable msg.req)
  intro _
  apply Maintains.get_bind
  intro _ r _ _
  exact Maintains.branch (fun _ => acceptRequest_sound asked) fun _ => guessRequest_sound asked

/-- A duplicate is answered with what the client has been told. -/
theorem handleRequest_sound {msg : RequestMessage} (asked : t.asked msg.req) :
    t.Sound (handleRequest setup t.app (.client msg.req.clientid) msg) := by
  intro executed r honest counted
  unfold handleRequest
  refine .bind (.get honest fun _ => .branch (fun _ => .pure honest counted) fun _ => ?_)
  have noted : t.Honest executed { r with
      clientAddresses := Function.update r.clientAddresses msg.req.clientid
        (some (.client msg.req.clientid)) } := by
    refine { honest with addresses := ?_ }
    intro clientid addr known
    by_cases who : clientid = msg.req.clientid
    · subst who
      simp only [Function.update_self, Option.some.injEq] at known
      exact known.symm
    · simp only [Function.update_of_ne who] at known
      exact honest.addresses clientid addr known
  refine .bind (.change noted fun _ => ?_)
  cases found : r.clientTable msg.req.clientid with
  | none => exact newRequest_sound asked _ _ noted counted
  | some entry =>
      refine .branch (fun _ => .pure noted counted) fun _ => .branch (fun _ => ?_) fun _ =>
        newRequest_sound asked _ _ noted counted
      refine .branch (fun replied => ?_) fun _ => .pure noted counted
      exact .emit noted ⟨_, rfl, honest.table _ _ found replied⟩ counted

/-- An unlogged request is answered with what the application says. -/
theorem handleUnloggedRequest_sound {remote : Address} {msg : UnloggedRequestMessage} :
    t.Sound (handleUnloggedRequest t.app remote msg) := by
  unfold handleUnloggedRequest
  apply Maintains.get_bind
  intro _ r _ _
  apply Maintains.branch (fun _ => Maintains.pure)
  intro _
  exact Terms.Sound.send fun _ => trivial

/-- The leader's request replaces the one that was guessed. -/
theorem installPrepare_sound {msg : PrepareMessage} (asked : 0 < msg.opnum → t.asked msg.req) :
    t.Sound (installPrepare msg) := by
  unfold installPrepare
  apply Maintains.get_bind
  intro _ r honest _
  apply Maintains.branch
  · intro _
    apply Maintains.require_bind
    intro next
    apply Maintains.demand_bind
    intro log appended
    apply Maintains.modify
    intro executed r' honest' counted
    exact ⟨{ honest' with log := honest.asked_of_append (asked (by omega)) appended }, counted⟩
  · intro _
    apply Maintains.require_bind
    intro next
    apply Maintains.demand_bind
    intro entry found
    apply Maintains.require_bind
    intro _
    apply Maintains.demand_bind
    intro replaced set_
    apply Maintains.modify
    intro executed r' honest' counted
    exact ⟨{ honest' with
      log := honest.asked_of_setRequest (asked (by omega)) found set_ }, counted⟩

/-- A `Prepare` may have to wait. -/
theorem defer_sound {remote : Address} {msg : PrepareMessage}
    (asked : 0 < msg.opnum → t.asked msg.req) :
    t.Sound (Handler.modify fun r =>
      { r with pendingPrepares := r.pendingPrepares ++ [(remote, msg)] }) := by
  apply Maintains.modify
  intro executed r honest counted
  refine ⟨{ honest with prepares := ?_ }, counted⟩
  intro entry member positive
  rcases List.mem_append.mp member with before | new
  · exact honest.prepares entry before positive
  · obtain rfl := List.mem_singleton.mp new
    exact asked positive

/-- The leader's request is put where the leader has it, or asked for. -/
theorem handlePrepare_sound {remote : Address} {msg : PrepareMessage}
    (asked : 0 < msg.opnum → t.asked msg.req) : t.Sound (handlePrepare setup remote msg) := by
  unfold handlePrepare
  apply Maintains.get_bind
  intro _ r _ _
  apply Maintains.branch (fun _ => Maintains.pure)
  intro _
  apply Maintains.branch (fun _ => Maintains.pure)
  intro _
  apply Maintains.branch
  · intro _
    exact Maintains.bind requestStateTransfer_sound fun _ => defer_sound asked
  · intro _
    apply Maintains.require_bind
    intro _
    refine Maintains.branch (fun _ => Terms.Sound.send fun _ => trivial) fun _ => ?_
    apply Maintains.branch
    · intro _
      exact Maintains.bind requestStateTransfer_sound fun _ => defer_sound asked
    · intro _
      apply Maintains.bind (installPrepare_sound asked)
      intro _
      apply Maintains.bind (Terms.Sound.updateClientTable msg.req)
      intro _
      exact Terms.Sound.send fun _ => trivial

/-- A replica executes what the leader has committed. -/
theorem handleCommit_sound {msg : CommitMessage} (asked : t.asked msg.req) :
    t.Sound (handleCommit setup t.app msg) := by
  unfold handleCommit
  apply Maintains.get_bind
  intro _ r honest _
  apply Maintains.branch (fun _ => Maintains.pure)
  intro _
  apply Maintains.branch (fun _ => Maintains.pure)
  intro _
  apply Maintains.branch (fun _ => requestStateTransfer_sound)
  intro _
  apply Maintains.require_bind
  intro _
  apply Maintains.branch (fun _ => Maintains.pure)
  intro _
  apply Maintains.branch (fun _ => requestStateTransfer_sound)
  intro _
  apply Maintains.branch
  · intro _
    apply Maintains.branch (fun _ => Maintains.pure)
    intro _
    apply Maintains.demand_bind
    intro entry found
    apply Maintains.require_bind
    intro _
    apply Maintains.demand_bind
    intro replaced set_
    apply Maintains.modify_bind _ commitUpTo_sound
    intro executed r' honest' counted
    exact ⟨{ honest' with log := honest.asked_of_setRequest asked found set_ }, counted⟩
  · exact fun _ => commitUpTo_sound

/-- Entries of the log are of requests that have been made. -/
theorem handleRequestStateTransfer_sound {remote : Address} {msg : RequestStateTransferMessage} :
    t.Sound (handleRequestStateTransfer setup remote msg) := by
  unfold handleRequestStateTransfer
  apply Maintains.get_bind
  intro _ r honest _
  apply Maintains.branch (fun _ => Maintains.pure)
  intro _
  apply Maintains.branch (fun _ => requestStateTransfer_sound)
  intro _
  apply Maintains.branch (fun _ => Maintains.pure)
  intro _
  apply Maintains.require_bind
  intro _
  apply Terms.Sound.send
  intro executed entry member
  exact honest.log _ (List.mem_map_of_mem (List.mem_of_mem_drop member))

/-- An entry that is transferred may take a place in the log. -/
theorem transferEntry_sound {old : Nat} {entry : Entry} (asked : t.asked entry.request) :
    t.Sound (transferEntry old entry) := by
  unfold transferEntry
  apply Maintains.get_bind
  intro _ r honest _
  apply Maintains.branch (fun _ => Maintains.pure)
  intro _
  apply Maintains.branch
  · intro _
    apply Maintains.demand_bind
    intro found _
    apply Maintains.require_bind
    intro _
    apply Maintains.require_bind
    intro _
    apply Maintains.branch
    · intro _
      exact Maintains.require_bind fun _ => Maintains.pure
    · intro _
      apply Maintains.require_bind
      intro _
      apply Maintains.demand_bind
      intro cut removed
      apply Maintains.demand_bind
      intro log appended
      apply Maintains.bind (Maintains.modify _) fun _ => Maintains.pure
      intro executed r' honest' counted
      have left := honest.setLog (honest.asked_of_removeAfter removed)
      exact ⟨{ honest' with log := left.asked_of_append asked appended }, counted⟩
  · intro _
    apply Maintains.branch
    · intro _
      apply Maintains.demand_bind
      intro mine found
      apply Maintains.require_bind
      intro _
      apply Maintains.demand_bind
      intro replaced set_
      apply Maintains.bind (Maintains.modify _) fun _ => Maintains.pure
      intro executed r' honest' counted
      exact ⟨{ honest' with log := honest.asked_of_setRequest asked found set_ }, counted⟩
    · intro _
      apply Maintains.require_bind
      intro _
      apply Maintains.demand_bind
      intro log appended
      apply Maintains.bind (Maintains.modify _) fun _ => Maintains.pure
      intro executed r' honest' counted
      exact ⟨{ honest' with log := honest.asked_of_append asked appended }, counted⟩

/-- Entries of requests that have been made are put into the log. -/
theorem transferEntries_sound {old : Nat} {entries : List Entry}
    (asked : ∀ entry ∈ entries, t.asked entry.request) : t.Sound (transferEntries old entries) := by
  induction entries generalizing old with
  | nil => exact Maintains.pure
  | cons entry rest inductionHypothesis =>
      apply Maintains.bind (transferEntry_sound (asked entry List.mem_cons_self))
      intro _
      exact inductionHypothesis fun other inRest => asked other (List.mem_cons_of_mem _ inRest)

/-- With the entries in its log a replica acknowledges and executes them. -/
theorem completeTransfer_sound {msg : StateTransferMessage} {old : Nat} :
    t.Sound (completeTransfer setup t.app msg old) := by
  unfold completeTransfer
  apply Maintains.get_bind
  intro _ r _ _
  apply Maintains.require_bind
  intro _
  apply Maintains.require_bind
  intro _
  apply Maintains.bind commitUpTo_sound
  intro _
  apply Maintains.bind
  · unfold sendPrepareOKs
    apply Maintains.get_bind
    intro _ r _ _
    exact Maintains.forEach fun _ _ => sendPrepareOK_sound
  intro _
  apply Maintains.get_bind
  intro _ r honest _
  apply Maintains.modify_bind
  · intro executed r' honest' counted
    refine ⟨{ honest' with prepares := ?_ }, counted⟩
    intro entry none_
    cases none_
  exact Maintains.forEach fun entry member => handlePrepare_sound (honest.prepares entry member)

/-- Entries of another replica's log are of requests that have been made. -/
theorem handleStateTransfer_sound {msg : StateTransferMessage}
    (asked : ∀ entry ∈ msg.entries, t.asked entry.request) :
    t.Sound (handleStateTransfer setup t.app msg) := by
  unfold handleStateTransfer
  apply Maintains.get_bind
  intro _ r _ _
  apply Maintains.branch (fun _ => Maintains.pure)
  intro _
  apply Maintains.bind (transferEntries_sound asked)
  intro old
  apply Maintains.branch
  · intro _
    exact Terms.Sound.adjust (fun _ => rfl) completeTransfer_sound
  · exact fun _ => completeTransfer_sound

/-! ## Any message and any timer -/

/-- A message that may reach a replica: it asks for what has been asked for, and a request comes
from the client that it is of. -/
def Message.Admissible (t : Terms) (src : Address) : Message → Prop
  | .request msg => t.asked msg.req ∧ src = .client msg.req.clientid
  | .prepare msg => 0 < msg.opnum → t.asked msg.req
  | .commit msg => t.asked msg.req
  | .stateTransfer msg => ∀ entry ∈ msg.entries, t.asked entry.request
  | _ => True

/-- Any message, if it is what others may have sent. -/
theorem receiveMessage_sound {src : Address} {msg : Message} (admissible : msg.Admissible t src) :
    t.Sound (receiveMessage setup t.app src msg) := by
  cases msg with
  | request msg =>
      obtain ⟨asked, rfl⟩ := admissible
      exact handleRequest_sound asked
  | unloggedRequest msg => exact handleUnloggedRequest_sound
  | prepare msg => exact handlePrepare_sound admissible
  | prepareOK msg => exact handlePrepareOK_sound
  | commit msg => exact handleCommit_sound admissible
  | requestStateTransfer msg => exact handleRequestStateTransfer_sound
  | stateTransfer msg => exact handleStateTransfer_sound admissible
  | reply msg => exact Maintains.stop
  | unloggedReply msg => exact Maintains.stop

/-- Timeouts send again what has been sent. -/
theorem fireTimer_sound {timer : Timer} : t.Sound (fireTimer setup timer) := by
  cases timer with
  | stateTransfer => exact Terms.Sound.adjusted fun _ => rfl
  | resendPrepare => exact resendPrepare_sound

end PaxosBus.FastPaxos

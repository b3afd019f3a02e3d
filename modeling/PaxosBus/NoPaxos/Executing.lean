import Mathlib.Algebra.Order.Monoid.Unbundled.WithTop
import Mathlib.Order.WithBot
import PaxosBus.Library.Ascent
import PaxosBus.NoPaxos.Framing

/-!
# Execution in order and at most once

`ExecuteUptoOp` goes on where it stopped, however the log has been rewound and
refilled underneath, and the client table lets a request pass only if it is
later than all that were executed for its client. So the operations that a
replica executes ascend, and the requests of each client do as well.
-/

set_option autoImplicit false

namespace PaxosBus.NoPaxos

open PaxosBus.Common PaxosBus.Library
open Trace (Covers)

variable {setup : Setup} {app : App} {r : Replica}

/-! ## One request -/

/-- The table entry of the client after `UpdateClientTable`, for a request that is not earlier than
the last one. -/
def Replica.noted (setup : Setup) (r : Replica) (req : Request) (reply : String) :
    ClientTableEntry where
  lastReqId := req.clientreqid
  reply := if r.stores setup req then reply else (r.tableEntry req.clientid).reply

/-- The replies with which a replica tells a client the result. -/
def Replica.replies (setup : Setup) (r : Replica) (op : Nat) (entry : Entry) (reply : String) :
    List Output :=
  if setup.AmLeader entry.viewstamp.view then
    (r.clientAddresses entry.request.clientid).toList.map fun addr => .send (.one addr) (.reply
      { view := entry.viewstamp.view, sessnum := entry.viewstamp.sessnum, opnum := op,
        clientreqid := entry.request.clientreqid, replicaIdx := setup.replicaIdx,
        reply := some reply })
  else []

section

variable {req : Request} {op : Nat} {entry : Entry} {reply : String}

/-- `UpdateClientTable` keeps the request, and its result if the replica leads. -/
theorem updateClientTable_run
    (newer : (r.tableEntry req.clientid).lastReqId ≤ req.clientreqid) :
    updateClientTable setup req reply r =
      ⟨r.setTableEntry req.clientid (r.noted setup req reply), [], some ()⟩ := by
  by_cases same : (r.tableEntry req.clientid).lastReqId = req.clientreqid
  · have entry : r.tableEntry req.clientid = r.noted setup req reply := by
      simp [Replica.noted, Replica.stores, ← same]
    simp [updateClientTable, Handler.get, Handler.require, Handler.modify, bind, pure, same,
      ← entry]
  · by_cases leads : setup.AmLeader r.view
    · simp [updateClientTable, Handler.get, Handler.require, Handler.modify, bind, pure, same,
        newer, leads, Replica.noted, Replica.stores]
    · simp [updateClientTable, Handler.get, Handler.require, Handler.modify, bind, pure, same,
        newer, leads, Replica.noted, Replica.stores]

/-- The reply goes to the client if the replica leads the view of the entry and knows the address.
-/
theorem replyExecuted_run :
    replyExecuted setup op entry reply r = ⟨r, r.replies setup op entry reply, some ()⟩ := by
  by_cases leads : setup.AmLeader entry.viewstamp.view
  · cases known : r.clientAddresses entry.request.clientid with
    | none => simp [replyExecuted, Handler.get, bind, pure, leads, known, Replica.replies]
    | some addr =>
        simp [replyExecuted, Handler.get, bind, leads, known, sendMessage, Handler.emit,
          Replica.replies]
  · simp [replyExecuted, Handler.get, bind, pure, leads, Replica.replies]

/-- A request that is not earlier than the last one of its client is executed. -/
theorem executeNew_run
    (newer : (r.tableEntry entry.request.clientid).lastReqId ≤ entry.request.clientreqid) :
    executeNew setup app op entry r =
      ⟨r.setTableEntry entry.request.clientid
          (r.noted setup entry.request (app.execute op entry.request)),
        .executed op entry.request (app.execute op entry.request)
            (r.stores setup entry.request) ::
          r.replies setup op entry (app.execute op entry.request), some ()⟩ := by
  have ran : executeNew setup app op entry r =
      let rest := (updateClientTable setup entry.request (app.execute op entry.request) >>= fun _ =>
        replyExecuted setup op entry (app.execute op entry.request)) r
      ⟨rest.state, .executed op entry.request (app.execute op entry.request)
        (r.stores setup entry.request) :: rest.outputs, rest.value⟩ := rfl
  rw [ran, Handler.bind_of_ended (updateClientTable_run newer), replyExecuted_run]
  rfl

/-- The last request of a client is answered again. -/
theorem answerAgain_run : answerAgain setup op entry reply r =
    ⟨r, .repeated entry.request (decide (setup.AmLeader entry.viewstamp.view)) ::
      r.replies setup op entry reply, some ()⟩ := by
  have ran : answerAgain setup op entry reply r =
      ⟨(replyExecuted setup op entry reply r).state,
        .repeated entry.request (decide (setup.AmLeader entry.viewstamp.view)) ::
          (replyExecuted setup op entry reply r).outputs,
        (replyExecuted setup op entry reply r).value⟩ := rfl
  rw [ran, replyExecuted_run]

end

/-! ## Any handler -/

/-- The number of the last request that was executed for a client, if there is one. -/
def Replica.lastRequest (r : Replica) (clientid : Nat) : WithBot Nat :=
  match r.clientTable clientid with
  | none => ⊥
  | some entry => entry.lastReqId

/-- The upcalls for the requests of a client. -/
def executionsFor (clientid : Nat) (executions : List Execution) : List Execution :=
  executions.filter fun execution => execution.request.clientid = clientid

/-- From one state to another a replica has executed later operations only, and later requests of
each client. -/
structure Advances (r : Replica) (executions : List Execution) (r' : Replica) : Prop where
  opnums : Ascends Execution.opnum r.lastExecutedOp executions r'.lastExecutedOp
  requests : ∀ clientid, Ascends (fun execution => (execution.request.clientreqid : WithBot Nat))
    (r.lastRequest clientid) (executionsFor clientid executions) (r'.lastRequest clientid)

namespace Advances

variable {r' r'' : Replica} {executions more : List Execution}

/-- Nothing is executed. -/
theorem of_same (lastExecutedOp : r.lastExecutedOp ≤ r'.lastExecutedOp)
    (clientTable : r'.clientTable = r.clientTable) : Advances r [] r' where
  opnums := .nil lastExecutedOp
  requests clientid := by
    unfold Replica.lastRequest
    rw [clientTable]
    exact .nil le_rfl

/-- What is executed first comes first. -/
theorem trans (before : Advances r executions r') (after : Advances r' more r'') :
    Advances r (executions ++ more) r'' where
  opnums := before.opnums.trans after.opnums
  requests clientid := by
    unfold executionsFor
    rw [List.filter_append]
    exact (before.requests clientid).trans (after.requests clientid)

/-- One request is executed, which is later than all of its client before. -/
theorem single {op : Nat} {req : Request} {result : String} {stored : Bool} {table : ClientTableEntry}
    (later : r.lastExecutedOp < op) (fresh : r.lastRequest req.clientid < req.clientreqid)
    (noted : table.lastReqId = req.clientreqid) (lastExecutedOp : r'.lastExecutedOp = op)
    (clientTable : r'.clientTable = Function.update r.clientTable req.clientid (some table)) :
    Advances r [{ opnum := op, request := req, result := result, stored := stored }] r' where
  opnums := .single later lastExecutedOp.ge
  requests clientid := by
    unfold executionsFor Replica.lastRequest
    rw [clientTable]
    rcases eq_or_ne req.clientid clientid with rfl | different
    · rw [List.filter_cons_of_pos (by simp), List.filter_nil, Function.update_self]
      exact .single fresh (by simp [noted])
    · rw [List.filter_cons_of_neg (by simpa using different), List.filter_nil,
        Function.update_of_ne different.symm]
      exact .nil le_rfl

end Advances

/-- What a replica executes from one state to another. -/
def advancing : Trace Replica Output where
  Rel r outputs r' := Advances r (outputs.filterMap execution) r'
  refl _ := .of_same le_rfl rfl
  trans before after := by
    rw [List.filterMap_append]
    exact before.trans after

/-- A reply marks no upcall. -/
@[simp] theorem executions_replies (op : Nat) (entry : Entry) (reply : String) :
    (r.replies setup op entry reply).filterMap execution = [] := by
  unfold Replica.replies
  split
  · simp [execution]
  · rfl

/-- A request that is later than all of its client before is executed. -/
theorem executeNew_advances {r' : Replica} {op : Nat} {entry : Entry}
    (later : r.lastExecutedOp < op)
    (fresh : r.lastRequest entry.request.clientid < entry.request.clientreqid)
    (lastExecutedOp : r'.lastExecutedOp = op) (clientTable : r'.clientTable = r.clientTable) :
    advancing.From r [] (executeNew setup app op entry) r' := by
  have newer : (r'.tableEntry entry.request.clientid).lastReqId ≤ entry.request.clientreqid := by
    unfold Replica.tableEntry
    unfold Replica.lastRequest at fresh
    rw [clientTable]
    cases known : r.clientTable entry.request.clientid with
    | none => exact Nat.zero_le _
    | some last =>
        rw [known] at fresh
        exact (WithBot.coe_lt_coe.mp fresh).le
  unfold Trace.From
  rw [executeNew_run newer]
  change Advances r (_ :: List.filterMap execution (r'.replies setup op entry _))
    (r'.setTableEntry entry.request.clientid _)
  rw [executions_replies]
  have noted : (r'.setTableEntry entry.request.clientid
      (r'.noted setup entry.request (app.execute op entry.request))).clientTable =
      Function.update r.clientTable entry.request.clientid
        (some (r'.noted setup entry.request (app.execute op entry.request))) := by
    rw [← clientTable]
    rfl
  exact .single later fresh rfl lastExecutedOp noted

/-- One round executes the next operation, once and in its turn. -/
theorem executeNext_advances : advancing.Covers (executeNext setup app) := by
  intro r
  have next : Advances r [] { r with lastExecutedOp := r.lastExecutedOp + 1 } :=
    .of_same (Nat.le_succ _) rfl
  have ends : advancing.From r [] (pure ()) { r with lastExecutedOp := r.lastExecutedOp + 1 } :=
    next
  apply Trace.From.get
  apply Trace.From.require (advancing.refl r)
  intro _
  apply Trace.From.demand (advancing.refl r)
  intro entry
  apply Trace.From.modify
  apply Trace.From.branch _ fun _ => ends
  intro _
  have later : r.lastExecutedOp < r.lastExecutedOp + 1 := Nat.lt_succ_self _
  cases known : r.clientTable entry.request.clientid with
  | none =>
      have fresh : r.lastRequest entry.request.clientid < entry.request.clientreqid := by
        simp only [Replica.lastRequest, known]
        exact WithBot.bot_lt_coe _
      exact executeNew_advances later fresh rfl rfl
  | some last =>
      apply Trace.From.branch fun _ => ends
      intro notOlder
      apply Trace.From.branch
      · intro _
        unfold Trace.From
        rw [answerAgain_run]
        change Advances r (List.filterMap execution (Replica.replies setup _ _ entry last.reply)) _
        rw [executions_replies]
        exact next
      · intro notLast
        have fresh : r.lastRequest entry.request.clientid < entry.request.clientreqid := by
          have less : last.lastReqId < entry.request.clientreqid := by omega
          simp only [Replica.lastRequest, known]
          exact WithBot.coe_lt_coe.mpr less
        exact executeNew_advances later fresh rfl rfl

/-- All operations up to the number are executed in their order. -/
theorem executeUptoOp_advances (opnum : Nat) : advancing.Covers (executeUptoOp setup app opnum) := by
  apply Covers.bind .get
  intro r
  apply Covers.branch (.pure ())
  apply (Covers.require _).bind
  intro _
  exact .repeated executeNext_advances

/-- Nothing but execution executes. -/
theorem asking_advancing : Asking setup app advancing where
  change same := .of_same same.lastExecutedOp.ge same.clientTable
  emit r output quiet := by
    have none_ : execution output = none := by
      cases output with
      | executed => exact absurd quiet id
      | _ => rfl
    change Advances r (List.filterMap execution [output]) r
    rw [List.filterMap_cons_none none_]
    exact .of_same le_rfl rfl
  execute := executeUptoOp_advances
  ask _ _ _ := .of_same le_rfl rfl

/-- No other part of a handler executes anything. -/
theorem admits_advancing (remote : Address) (msg : Message) :
    Admits setup app advancing remote msg where
  toAsking := asking_advancing
  pend _ _ := .of_same le_rfl rfl
  locate _ _ _ := .of_same le_rfl rfl

/-! ## Runs -/

/-- Every replica executes operations in the order of their numbers and the requests of each client
in theirs, and no request twice. -/
structure System.ExecutesInOrder (s : System) : Prop where
  opnums : ∀ idx, (s.executions idx).Pairwise fun execution later => execution.opnum < later.opnum
  requests : ∀ idx clientid, (executionsFor clientid (s.executions idx)).Pairwise
    fun execution later => execution.request.clientreqid < later.request.clientreqid
  once : ∀ idx, ((s.executions idx).map fun execution =>
    (execution.request.clientid, execution.request.clientreqid)).Nodup

namespace System

variable {d : Deployment} {s next : System}

/-- What every replica has executed since it was constructed. -/
def Advanced (d : Deployment) (s : System) : Prop :=
  ∀ idx, Advances (Replica.constructed (d.setup idx)) (s.executions idx) (s.replicas idx)

/-- A replica advances while it runs a handler. -/
theorem Advanced.absorb {idx : Nat} {handler : Run Unit} (advanced : s.Advanced d)
    (covers : advancing.Covers handler) :
    (s.absorb d idx (handler (s.replicas idx))).Advanced d := by
  intro other
  rcases eq_or_ne other idx with rfl | different
  · simp only [System.absorb, Function.update_self]
    exact (advanced other).trans (covers (s.replicas other))
  · simp only [System.absorb, Function.update_of_ne different]
    exact advanced other

/-- In every run each replica has executed its operations in their order. -/
theorem invariant_advanced (d : Deployment) :
    (system d).Invariant TransitionSystem.unguarded (Advanced d) where
  initial state isInitial := by
    obtain rfl := isInitial
    exact fun idx => .of_same le_rfl rfl
  preserved {state action next} advanced _ stepped := by
    cases moves_of_step stepped with
    | receive => exact advanced.absorb (admits_advancing _ _).receiveMessage
    | fire => exact advanced.absorb (asking_advancing.fireTimer _)
    | _ => exact advanced

/-- In every reachable state the replicas have executed in order, each request at most once. -/
theorem executesInOrder_of_reachable
    (reachable : (system d).Reachable TransitionSystem.unguarded s) : s.ExecutesInOrder := by
  have advanced := (invariant_advanced d).of_reachable reachable
  have requests : ∀ idx clientid, (executionsFor clientid (s.executions idx)).Pairwise
      fun execution later => execution.request.clientreqid < later.request.clientreqid :=
    fun idx clientid => ((advanced idx).requests clientid).increasing.imp WithBot.coe_lt_coe.mp
  constructor
  · exact fun idx => (advanced idx).opnums.increasing
  · exact requests
  · intro idx
    apply List.pairwise_map.mpr
    rw [List.pairwise_iff_forall_sublist]
    intro execution later inOrder same
    obtain ⟨client, request⟩ := Prod.mk.injEq _ _ _ _ ▸ same
    have both : [execution, later].Sublist
        (executionsFor execution.request.clientid (s.executions idx)) := by
      have kept := inOrder.filter fun other =>
        decide (other.request.clientid = execution.request.clientid)
      simpa [executionsFor, client] using kept
    have less := List.pairwise_iff_forall_sublist.mp (requests idx _) both
    exact absurd request less.ne

/-! ## A retried request -/

/-- Three replicas, and the sequencer puts the first request of client 0 into every slot. -/
def retrying : Deployment where
  configuration := { n := 3, f := 1 }
  operation _ _ := "op"
  stamped _ _ := (0, 1)

/-- The leader gets a request and then its retry. -/
def retriedRun : List Action :=
  [.invoke 0, .multicast 0 1 0, .multicast 0 2 0, .deliver 0 {}, .deliver 1 {}]

/-- The leader has executed both operations, and the request once. -/
theorem executesInOrder_retriedRun : ∃ s : System, (s.replicas 0).lastExecutedOp = 2 ∧
    (s.executions 0).length = 1 ∧ s.ExecutesInOrder := by
  obtain ⟨s, reachable, executed⟩ := (system retrying).exists_reachable_of_run
    TransitionSystem.unguarded
    (fun s => decide ((s.replicas 0).lastExecutedOp = 2 ∧ (s.executions 0).length = 1))
    retriedRun rfl (by decide +kernel)
  obtain ⟨both, once⟩ := of_decide_eq_true executed
  exact ⟨s, both, once, executesInOrder_of_reachable reachable⟩

end System

end PaxosBus.NoPaxos

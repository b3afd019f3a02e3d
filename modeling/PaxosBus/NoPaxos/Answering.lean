import PaxosBus.NoPaxos.Completing
import PaxosBus.NoPaxos.Executing
import PaxosBus.NoPaxos.Shifts

/-!
# What clients are told

A replica that executes a request tells the client the result, and answers a
retry with the result in its client table. But it has stored only the results of
what it executed as the leader of its view. A replica that executed a request as
a follower, and leads a later view when the retry arrives, answers with an older
result or with none at all. Where this does not happen, every reply carries what
the request returned at some replica.
-/

set_option autoImplicit false

namespace PaxosBus.NoPaxos

open PaxosBus.Common PaxosBus.Library
open Std (TreeMap)
open Trace (Covers)

variable {setup : Setup} {app : App} {r : Replica}

/-! ## One replica -/

/-- If a request is answered again, the result of the last execution for its client has been
stored. -/
def Output.Remembered (executed : List Execution) : Output → Prop
  | .repeated req true => ∀ last ∈ (executionsFor req.clientid executed).getLast?,
    last.stored = true
  | _ => True

instance (executed : List Execution) (output : Output) : Decidable (output.Remembered executed) :=
  match output with
  | .repeated _ true => inferInstanceAs (Decidable (∀ last ∈ _, _))
  | .repeated _ false | .send .. | .entering .. | .entered .. | .gapCommitted .. | .merged ..
  | .transferStarted _ | .processing .. | .transferEnded .. | .executed .. => .isTrue trivial

/-- The same of every output, after the executions before it. -/
def Remembering : List Execution → List Output → Prop
  | _, [] => True
  | executed, output :: rest =>
    output.Remembered executed ∧ Remembering (executed ++ (execution output).toList) rest

instance decidableRemembering (executed : List Execution) :
    ∀ outputs, Decidable (Remembering executed outputs)
  | [] => .isTrue trivial
  | output :: rest =>
    have := decidableRemembering (executed ++ (execution output).toList) rest
    inferInstanceAs (Decidable (_ ∧ _))

/-- Outputs that are looked at one after the other. -/
theorem remembering_append {executed : List Execution} {outputs more : List Output} :
    Remembering executed (outputs ++ more) ↔
      Remembering executed outputs ∧ Remembering (executed ++ outputs.filterMap execution) more := by
  induction outputs generalizing executed with
  | nil => simp [Remembering]
  | cons output rest inductionHypothesis =>
      have marks : (output :: rest).filterMap execution =
          (execution output).toList ++ rest.filterMap execution := by
        cases mark : execution output <;> simp [mark]
      rw [List.cons_append, Remembering, Remembering, inductionHypothesis, marks,
        List.append_assoc, and_assoc]

/-- What a replica has in its client table goes back to the last execution for each client, and the
addresses that it has are those of the clients. -/
structure Knows (executed : List Execution) (r : Replica) : Prop where
  table : ∀ clientid entry, r.clientTable clientid = some entry →
    ∃ last, (executionsFor clientid executed).getLast? = some last ∧
      last.request.clientreqid = entry.lastReqId ∧ (last.stored = true → entry.reply = last.result)
  located : ∀ clientid addr, r.clientAddresses clientid = some addr → addr = .client clientid

/-- A result that goes out is the one of an execution of the client's request. -/
def Output.Justified (executed : List Execution) : Output → Prop
  | .send dst (.reply msg) => ∀ result, msg.reply = some result → ∃ clientid,
    dst = .one (.client clientid) ∧ ∃ execution ∈ executed,
      execution.request.clientid = clientid ∧
        execution.request.clientreqid = msg.clientreqid ∧ execution.result = result
  | .send _ (.request _) => False
  | _ => True

/-- What is justified stays justified. -/
theorem Output.Justified.mono {executed more : List Execution} {output : Output}
    (justified : output.Justified executed) : output.Justified (executed ++ more) := by
  cases output with
  | send dst msg =>
      cases msg with
      | reply msg =>
          intro result same
          obtain ⟨clientid, toClient, other, member, rest⟩ := justified result same
          exact ⟨clientid, toClient, other, List.mem_append_left _ member, rest⟩
      | _ => exact justified
  | _ => trivial

/-- How a replica that remembers what it has executed answers its clients. -/
def telling : Trace Replica Output where
  Rel r outputs r' := ∀ executed, Knows executed r → Remembering executed outputs →
    Knows (executed ++ outputs.filterMap execution) r' ∧
      ∀ output ∈ outputs, output.Justified (executed ++ outputs.filterMap execution)
  refl r executed knows _ := by simpa using knows
  trans {r r' r'' outputs more} before after executed knows remembers := by
    obtain ⟨first, rest⟩ := remembering_append.mp remembers
    obtain ⟨knows', justified⟩ := before executed knows first
    obtain ⟨knows'', justified'⟩ := after _ knows' rest
    rw [List.filterMap_append, ← List.append_assoc]
    refine ⟨knows'', fun output member => ?_⟩
    rcases List.mem_append.mp member with inOutputs | inMore
    · exact (justified output inOutputs).mono
    · exact justified' output inMore

/-- The table and the addresses are all that matters. -/
theorem Knows.frame {executed : List Execution} {r' : Replica} (knows : Knows executed r)
    (clientTable : r'.clientTable = r.clientTable)
    (clientAddresses : r'.clientAddresses = r.clientAddresses) : Knows executed r' where
  table := clientTable ▸ knows.table
  located := clientAddresses ▸ knows.located

/-- Nothing is executed and nobody is told anything. -/
theorem answering_of_same {r' : Replica} (clientTable : r'.clientTable = r.clientTable)
    (clientAddresses : r'.clientAddresses = r.clientAddresses) : telling.Rel r [] r' := by
  intro executed knows _
  rw [List.filterMap_nil, List.append_nil]
  exact ⟨knows.frame clientTable clientAddresses, fun _ none_ => nomatch none_⟩

/-- The replies of a replica go to the client. -/
theorem Knows.mem_replies {executed : List Execution} (knows : Knows executed r) {op : Nat}
    {entry : Entry} {reply : String} {output : Output}
    (member : output ∈ r.replies setup op entry reply) : setup.AmLeader entry.viewstamp.view ∧
      ∃ msg : ReplyMessage, output = .send (.one (.client entry.request.clientid)) (.reply msg) ∧
        msg.clientreqid = entry.request.clientreqid ∧ msg.reply = some reply := by
  unfold Replica.replies at member
  split at member
  next leads =>
      obtain ⟨addr, known, rfl⟩ := List.mem_map.mp member
      obtain rfl := knows.located _ addr (by simpa using known)
      exact ⟨leads, _, rfl, rfl, rfl⟩
  next => nomatch member

/-- A request is executed. -/
theorem executeNew_answers {r' : Replica} {op : Nat} {entry : Entry}
    (newer : (r.tableEntry entry.request.clientid).lastReqId ≤ entry.request.clientreqid)
    (clientTable : r'.clientTable = r.clientTable)
    (clientAddresses : r'.clientAddresses = r.clientAddresses) :
    telling.From r [] (executeNew setup app op entry) r' := by
  have same : r'.tableEntry entry.request.clientid = r.tableEntry entry.request.clientid := by
    unfold Replica.tableEntry
    rw [clientTable]
  unfold Trace.From
  rw [executeNew_run (same ▸ newer)]
  intro executed knows _
  have knows' : Knows executed r' := knows.frame clientTable clientAddresses
  let mark : Execution :=
    { opnum := op, request := entry.request, result := app.execute op entry.request,
      stored := r'.stores setup entry.request }
  have marks : List.filterMap execution (.executed op entry.request (app.execute op entry.request)
      (r'.stores setup entry.request) ::
        r'.replies setup op entry (app.execute op entry.request)) = [mark] := by
    have mark_ : execution (.executed op entry.request (app.execute op entry.request)
        (r'.stores setup entry.request)) = some mark := rfl
    rw [List.filterMap_cons_some mark_, executions_replies]
  change Knows (executed ++ List.filterMap execution (_ :: _)) _ ∧ _
  rw [List.nil_append, marks]
  refine ⟨⟨fun clientid table found => ?_, knows'.located⟩, fun output member => ?_⟩
  · change Function.update r'.clientTable _ _ clientid = some table at found
    unfold executionsFor
    rcases eq_or_ne clientid entry.request.clientid with rfl | different
    · rw [Function.update_self] at found
      obtain rfl := Option.some.inj found
      refine ⟨mark, ?_, rfl, fun stored => if_pos stored⟩
      rw [List.filter_append, List.filter_cons_of_pos (by simp [mark]), List.filter_nil,
        List.getLast?_concat]
    · rw [Function.update_of_ne different] at found
      rw [List.filter_append, List.filter_cons_of_neg (by simpa [mark] using different.symm),
        List.filter_nil, List.append_nil]
      exact knows'.table clientid table found
  · rcases List.mem_cons.mp member with rfl | inReplies
    · trivial
    · obtain ⟨-, msg, rfl, reqid, carried⟩ := knows'.mem_replies inReplies
      intro result same
      obtain rfl := Option.some.inj (carried.symm.trans same)
      exact ⟨_, rfl, mark, by simp, rfl, reqid.symm, rfl⟩

/-- The last request of a client is answered again. -/
theorem answerAgain_answers {r' : Replica} {op : Nat} {entry : Entry} {last : ClientTableEntry}
    (known : r.clientTable entry.request.clientid = some last)
    (reqid : entry.request.clientreqid = last.lastReqId)
    (clientTable : r'.clientTable = r.clientTable)
    (clientAddresses : r'.clientAddresses = r.clientAddresses) :
    telling.From r [] (answerAgain setup op entry last.reply) r' := by
  unfold Trace.From
  rw [answerAgain_run]
  intro executed knows remembers
  have knows' : Knows executed r' := knows.frame clientTable clientAddresses
  have marks : List.filterMap execution (.repeated entry.request
      (decide (setup.AmLeader entry.viewstamp.view)) ::
        r'.replies setup op entry last.reply) = [] := by
    rw [List.filterMap_cons_none rfl, executions_replies]
  rw [List.nil_append, marks, List.append_nil]
  refine ⟨knows', fun output member => ?_⟩
  rcases List.mem_cons.mp member with rfl | inReplies
  · trivial
  · obtain ⟨leads, msg, rfl, reqid', carried⟩ := knows'.mem_replies inReplies
    intro result same
    obtain rfl := Option.some.inj (carried.symm.trans same)
    obtain ⟨before, atEnd, number, stored⟩ := knows.table _ last known
    have remembered := remembers.1
    rw [decide_eq_true leads] at remembered
    have member := List.mem_filter.mp (List.mem_of_getLast? atEnd)
    refine ⟨_, rfl, before, member.1, of_decide_eq_true member.2, ?_, ?_⟩
    · rw [number, reqid', reqid]
    · exact (stored (remembered before atEnd)).symm

theorem executeNext_answers : telling.Covers (executeNext setup app) := by
  intro r
  have ends : telling.From r [] (pure ()) { r with lastExecutedOp := r.lastExecutedOp + 1 } :=
    answering_of_same rfl rfl
  apply Trace.From.get
  apply Trace.From.require (telling.refl r)
  intro _
  apply Trace.From.demand (telling.refl r)
  intro entry
  apply Trace.From.modify
  apply Trace.From.branch _ fun _ => ends
  intro _
  cases known : r.clientTable entry.request.clientid with
  | none =>
      have newer : (r.tableEntry entry.request.clientid).lastReqId ≤ entry.request.clientreqid := by
        simp [Replica.tableEntry, known]
      exact executeNew_answers newer rfl rfl
  | some last =>
      apply Trace.From.branch fun _ => ends
      intro notOlder
      apply Trace.From.branch
      · exact fun same => answerAgain_answers known same rfl rfl
      · intro _
        have newer : (r.tableEntry entry.request.clientid).lastReqId ≤
            entry.request.clientreqid := by
          simp only [Replica.tableEntry, known, Option.getD_some]
          exact Nat.not_lt.mp notOlder
        exact executeNew_answers newer rfl rfl

theorem executeUptoOp_answers (opnum : Nat) : telling.Covers (executeUptoOp setup app opnum) := by
  apply Covers.bind .get
  intro r
  apply Covers.branch (.pure ())
  apply (Covers.require _).bind
  intro _
  exact .repeated executeNext_answers

/-- A replica that executes nothing knows what it knew. -/
theorem telling_of_nothing {output : Output} (nothing : execution output = none)
    (justified : ∀ executed, output.Justified executed) : telling.Rel r [output] r := by
  intro executed knows _
  rw [List.filterMap_cons_none nothing, List.filterMap_nil, List.append_nil]
  refine ⟨knows, fun other single => ?_⟩
  obtain rfl := List.mem_singleton.mp single
  exact justified executed

/-- Beyond execution, no handler answers a client. -/
theorem asking_telling : Asking setup app telling where
  change same := answering_of_same same.clientTable same.clientAddresses
  emit r output quiet := by
    cases output with
    | executed => exact absurd quiet id
    | send dst msg =>
        apply telling_of_nothing rfl
        intro executed
        cases msg with
        | request => exact absurd quiet id
        | reply msg =>
            intro result carried
            have none_ : msg.reply = none := quiet
            rw [none_] at carried
            nomatch carried
        | _ => trivial
    | _ => exact telling_of_nothing rfl fun _ => trivial
  execute := executeUptoOp_answers
  ask _ _ _ := telling_of_nothing rfl fun _ => trivial

/-- A request comes from its client. -/
theorem admits_telling {remote : Address} {msg : Message}
    (client : ∀ request, msg = .request request → remote = .client request.req.clientid) :
    Admits setup app telling remote msg where
  toAsking := asking_telling
  pend _ _ := answering_of_same rfl rfl
  locate r request same executed knows _ := by
    obtain rfl := client request same
    refine ⟨⟨fun clientid entry found => by simpa using knows.table clientid entry found, ?_⟩,
      fun _ none_ => nomatch none_⟩
    intro clientid addr found
    rcases eq_or_ne clientid request.req.clientid with rfl | different
    · simp only [Function.update_self, Option.some.injEq] at found
      cases known : r.clientAddresses request.req.clientid with
      | none =>
          rw [known] at found
          exact found.symm
      | some before =>
          rw [known] at found
          exact found ▸ knows.located _ before known
    · simp only [Function.update_of_ne different] at found
      exact knows.located clientid addr found

/-! ## One client -/

namespace Client

/-- The replies that a client has stored under each number. -/
def Holds (P : Nat → ReplyMessage → Prop) (c : Client) : Prop :=
  ∀ (reqid idx : Nat) (reply : ReplyMessage),
    (c.replyQuorum.messages reqid)[idx]? = some reply → P reqid reply

variable {configuration : Configuration} {P : Nat → ReplyMessage → Prop} {c : Client}
  {msg leader : ReplyMessage}

/-- One reply more is stored. -/
theorem Holds.add (holds : c.Holds P) (arrived : P msg.clientreqid msg) :
    Client.Holds P
      { c with replyQuorum := c.replyQuorum.add msg.clientreqid msg.replicaIdx msg } := by
  intro reqid idx reply found
  rcases eq_or_ne reqid msg.clientreqid with rfl | different
  · simp only [QuorumSet.add, Function.update_self, TreeMap.getElem?_insert] at found
    split at found
    next => exact Option.some.inj found ▸ arrived
    next => exact holds _ idx reply found
  · simp only [QuorumSet.add, Function.update_of_ne different] at found
    exact holds reqid idx reply found

/-- The reply that completes an operation is one of those that the client has. -/
theorem Holds.completing (holds : c.Holds P) (arrived : P msg.clientreqid msg)
    (completed : c.completing configuration msg = some leader) : P msg.clientreqid leader := by
  unfold Client.completing QuorumSet.addAndCheckForQuorum QuorumSet.checkForQuorum at completed
  split at completed
  next =>
      dsimp only at completed
      split at completed
      next =>
          have leading := (completes_eq_some.mp completed).own
          exact holds.add arrived _ _ leader leading
      next => nomatch completed
  next => nomatch completed

/-- What a client holds after a reply. -/
theorem Holds.handleReply (holds : c.Holds P) (arrived : P msg.clientreqid msg) :
    (c.handleReply configuration msg).1.Holds P := by
  by_cases pending : c.pendingRequest = some msg.clientreqid
  · rw [handleReply_pending pending]
    cases c.completing configuration msg with
    | none => exact holds.add arrived
    | some leader =>
        change Client.Holds P (Client.completeOperation _ leader).1
        unfold Client.completeOperation
        split
        next => exact fun reqid idx reply found => by simp [QuorumSet.clear] at found
        next => exact holds.add arrived
  · rw [handleReply_ignores pending]
    exact holds

/-- What a client hands the application. -/
theorem Holds.returned (holds : c.Holds P) (arrived : P msg.clientreqid msg)
    (returned : (c.handleReply configuration msg).2 = some leader) :
    P msg.clientreqid leader ∧ leader.reply.isSome := by
  rw [handleReply_returns, Option.filter_eq_some_iff] at returned
  exact ⟨holds.completing arrived returned.1, returned.2⟩

end Client

/-! ## Runs -/

namespace System

variable {d : Deployment} {s next : System}

/-- Some replica has executed the request of the client, with this result. -/
def Executed (s : System) (clientid reqid : Nat) (result : String) : Prop :=
  ∃ idx, ∃ execution ∈ s.executions idx, execution.request.clientid = clientid ∧
    execution.request.clientreqid = reqid ∧ execution.result = result

/-- Every reply with a result goes to a client whose request has returned this result at some
replica, and the application has not got anything else. -/
structure RepliesSound (s : System) : Prop where
  replies : ∀ packet ∈ s.network, ∀ msg result, packet.msg = .reply msg → msg.reply = some result →
    ∃ clientid, packet.dst = .client clientid ∧ s.Executed clientid msg.clientreqid result
  completions : ∀ completion ∈ s.completions, ∃ result, completion.reply.reply = some result ∧
    s.Executed completion.clientid completion.clientreqid result

/-- The replica that an action runs. -/
def runner (s : System) : Action → Option Nat
  | .deliver position _ =>
    match s.network[position]? with
    | some ⟨_, .replica idx, _⟩ => some idx
    | _ => none
  | .timer idx _ _ => some idx
  | _ => none

/-- In this step no leader answers a request again that it has last executed without storing the
result. -/
def Remembers (d : Deployment) (s : System) (action : Action) : Prop :=
  ∀ idx ∈ s.runner action, Remembering (s.executions idx) (s.outputs d action)

instance (d : Deployment) (s : System) (action : Action) : Decidable (s.Remembers d action) :=
  inferInstanceAs (Decidable (∀ idx ∈ s.runner action, _))

/-- What is known of the replicas, the packets and the clients. -/
structure Answers (s : System) : Prop where
  knows : ∀ idx, Knows (s.executions idx) (s.replicas idx)
  requests : ∀ packet ∈ s.network, ∀ msg, packet.msg = .request msg →
    packet.src = .client msg.req.clientid
  sound : s.RepliesSound
  held : ∀ clientid, (s.clients clientid).Holds fun reqid reply =>
    ∀ result, reply.reply = some result → s.Executed clientid reqid result

/-- What was executed stays executed. -/
theorem Executed.mono {clientid reqid : Nat} {result : String}
    (executed : s.Executed clientid reqid result)
    (more : ∀ idx, s.executions idx ⊆ next.executions idx) :
    next.Executed clientid reqid result := by
  obtain ⟨idx, execution, member, rest⟩ := executed
  exact ⟨idx, execution, more idx member, rest⟩

/-- The packets of a replica are what it sends. -/
theorem send_of_mem_post {output : Output} {src : Nat} {packet : Packet}
    (member : packet ∈ post d.configuration src output) :
    ∃ dst, output = .send dst packet.msg ∧ ∀ addr, dst = .one addr → packet.dst = addr := by
  cases output with
  | send dst msg =>
      rcases dst with ⟨addr⟩ | _
      · obtain rfl := List.mem_singleton.mp member
        exact ⟨_, rfl, fun _ same => Destination.one.inj same⟩
      · obtain ⟨other, -, rfl⟩ := List.mem_map.mp member
        exact ⟨_, rfl, fun _ same => nomatch same⟩
  | _ => nomatch member

/-- The packets of a replica that answers soundly. -/
theorem sound_of_justified {outputs : List Output} {executed : List Execution} {src : Nat}
    {packet : Packet} (justified : ∀ output ∈ outputs, output.Justified executed)
    (member : packet ∈ outputs.flatMap (post d.configuration src)) :
    (∀ msg, packet.msg ≠ .request msg) ∧ ∀ msg result, packet.msg = .reply msg →
      msg.reply = some result → ∃ clientid, packet.dst = .client clientid ∧
        ∃ execution ∈ executed, execution.request.clientid = clientid ∧
          execution.request.clientreqid = msg.clientreqid ∧ execution.result = result := by
  obtain ⟨output, inOutputs, posted⟩ := List.mem_flatMap.mp member
  obtain ⟨dst, rfl, sentTo⟩ := send_of_mem_post posted
  have just := justified _ inOutputs
  constructor
  · intro msg same
    rw [same] at just
    exact just
  · intro msg result same carried
    rw [same] at just
    obtain ⟨clientid, toClient, found⟩ := just result carried
    exact ⟨clientid, sentTo _ toClient, found⟩

/-- A replica answers soundly while it runs a handler. -/
theorem Answers.absorb {idx : Nat} {handler : Run Unit} (answers : s.Answers)
    (covers : telling.Covers handler)
    (remembers : Remembering (s.executions idx) (handler (s.replicas idx)).outputs) :
    (s.absorb d idx (handler (s.replicas idx))).Answers := by
  obtain ⟨knows, justified⟩ := covers (s.replicas idx) _ (answers.knows idx) remembers
  have own : (s.absorb d idx (handler (s.replicas idx))).executions idx = s.executions idx ++
      (handler (s.replicas idx)).outputs.filterMap execution := Function.update_self ..
  have more : ∀ other, s.executions other ⊆
      (s.absorb d idx (handler (s.replicas idx))).executions other := by
    intro other
    rcases eq_or_ne other idx with rfl | different
    · rw [own]
      exact List.subset_append_left _ _
    · simp only [System.absorb, Function.update_of_ne different]
      exact List.Subset.refl _
  constructor
  · intro other
    rcases eq_or_ne other idx with rfl | different
    · simpa only [System.absorb, Function.update_self] using knows
    · simpa only [System.absorb, Function.update_of_ne different] using answers.knows other
  · intro packet member msg same
    rcases List.mem_append.mp member with earlier | sent
    · exact answers.requests packet earlier msg same
    · exact absurd same ((sound_of_justified justified sent).1 msg)
  · constructor
    · intro packet member msg result same carried
      rcases List.mem_append.mp member with earlier | sent
      · obtain ⟨clientid, toClient, executed⟩ :=
          answers.sound.replies packet earlier msg result same carried
        exact ⟨clientid, toClient, executed.mono more⟩
      · obtain ⟨clientid, toClient, found⟩ :=
          (sound_of_justified justified sent).2 msg result same carried
        refine ⟨clientid, toClient, idx, ?_⟩
        rw [own]
        exact found
    · intro completion member
      obtain ⟨result, carried, executed⟩ := answers.sound.completions completion member
      exact ⟨result, carried, executed.mono more⟩
  · intro clientid reqid other reply found result carried
    exact (answers.held clientid reqid other reply found result carried).mono more

/-- A client takes a reply. -/
theorem Answers.replied {packet : Packet} {clientid : Nat} {msg : ReplyMessage}
    (answers : s.Answers) (onItsWay : packet ∈ s.network) (toClient : packet.dst = .client clientid)
    (carries : packet.msg = .reply msg) : (s.replied d clientid msg).Answers := by
  let P (reqid : Nat) (reply : ReplyMessage) : Prop :=
    ∀ result, reply.reply = some result → s.Executed clientid reqid result
  have arrived : P msg.clientreqid msg := by
    intro result carried
    obtain ⟨other, toOther, executed⟩ :=
      answers.sound.replies packet onItsWay msg result carries carried
    obtain rfl := Address.client.inj (toClient.symm.trans toOther)
    exact executed
  have holds : (s.clients clientid).Holds P := answers.held clientid
  refine ⟨answers.knows, answers.requests, ⟨answers.sound.replies, ?_⟩, ?_⟩
  · intro completion member
    rcases List.mem_append.mp member with earlier | completed
    · exact answers.sound.completions completion earlier
    · obtain ⟨leader, returned, rfl⟩ := List.mem_map.mp completed
      obtain ⟨sound, isSome⟩ := holds.returned arrived (Option.mem_toList.mp returned)
      obtain ⟨result, carried⟩ := Option.isSome_iff_exists.mp isSome
      exact ⟨result, carried, sound result carried⟩
  · intro other
    rcases eq_or_ne other clientid with rfl | different
    · have same : (s.replied d other msg).clients other =
          ((s.clients other).handleReply d.configuration msg).1 := Function.update_self ..
      rw [same]
      exact holds.handleReply arrived
    · have same : (s.replied d clientid msg).clients other = s.clients other :=
        Function.update_of_ne different ..
      rw [same]
      exact answers.held other

/-- A client does something else. -/
theorem Answers.asked {more : List Packet} (answers : s.Answers)
    (replicas : next.replicas = s.replicas) (executions : next.executions = s.executions)
    (completions : next.completions = s.completions)
    (quorums : ∀ clientid, (next.clients clientid).replyQuorum = (s.clients clientid).replyQuorum)
    (network : next.network = s.network ++ more)
    (requests : ∀ packet ∈ more, ∀ msg, packet.msg = .request msg →
      packet.src = .client msg.req.clientid)
    (noReply : ∀ packet ∈ more, ∀ msg, packet.msg ≠ .reply msg) : next.Answers := by
  have same : ∀ clientid reqid result, s.Executed clientid reqid result →
      next.Executed clientid reqid result := fun _ _ _ executed =>
    executed.mono fun idx => executions ▸ List.Subset.refl _
  constructor
  · rw [replicas, executions]
    exact answers.knows
  · rw [network]
    intro packet member
    rcases List.mem_append.mp member with earlier | new
    · exact answers.requests packet earlier
    · exact requests packet new
  · constructor
    · rw [network]
      intro packet member msg result carries carried
      rcases List.mem_append.mp member with earlier | new
      · obtain ⟨clientid, toClient, executed⟩ :=
          answers.sound.replies packet earlier msg result carries carried
        exact ⟨clientid, toClient, same _ _ _ executed⟩
      · exact absurd carries (noReply packet new msg)
    · rw [completions]
      intro completion member
      obtain ⟨result, carried, executed⟩ := answers.sound.completions completion member
      exact ⟨result, carried, same _ _ _ executed⟩
  · intro clientid reqid idx reply found result carried
    rw [quorums] at found
    exact same _ _ _ (answers.held clientid reqid idx reply found result carried)

theorem invariant_answers (d : Deployment) : (system d).Invariant (Remembers d) Answers where
  initial state isInitial := by
    obtain rfl := isInitial
    constructor
    · exact fun idx => ⟨fun _ _ none_ => (nomatch none_), fun _ _ none_ => nomatch none_⟩
    · exact fun _ none_ => nomatch none_
    · exact ⟨fun _ none_ => (nomatch none_), fun _ none_ => nomatch none_⟩
    · intro clientid reqid idx reply found
      simp [System.initial, Client.constructed] at found
  preserved {s action next} answers remembers stepped := by
    have quorums : ∀ clientid client,
        client.replyQuorum = (s.clients clientid).replyQuorum → ∀ other,
          (Function.update s.clients clientid client other).replyQuorum =
            (s.clients other).replyQuorum := by
      intro clientid client same other
      rcases eq_or_ne other clientid with rfl | different
      · rw [Function.update_self, same]
      · rw [Function.update_of_ne different]
    have nothing : s.network = s.network ++ [] := (List.append_nil _).symm
    cases moves_of_step stepped with
    | @invoke clientid =>
        have same : (s.clients clientid).invoke.replyQuorum = (s.clients clientid).replyQuorum := by
          unfold Client.invoke
          split <;> rfl
        exact answers.asked rfl rfl rfl (quorums _ _ same) nothing (by simp) (by simp)
    | @invokeUnlogged clientid =>
        have same : (s.clients clientid).invokeUnlogged.replyQuorum =
            (s.clients clientid).replyQuorum := by
          unfold Client.invokeUnlogged
          split <;> rfl
        unfold askedUnlogged
        split
        · exact answers.asked rfl rfl rfl (quorums _ _ same) nothing (by simp) (by simp)
        · exact answers.asked rfl rfl rfl (quorums _ _ same) rfl (by simp) (by simp)
    | unloggedTimeout =>
        exact answers.asked rfl rfl rfl (quorums _ _ rfl) nothing (by simp) (by simp)
    | multicast => exact answers.asked rfl rfl rfl (fun _ => rfl) rfl (by simp) (by simp)
    | @receive position app src idx msg found =>
        have client : ∀ request, msg = .request request → src = .client request.req.clientid :=
          fun request same => answers.requests _ (List.mem_of_getElem? found) request same
        apply answers.absorb (admits_telling client).receiveMessage
        simpa [runner, System.outputs, found] using remembers idx
    | @fire idx timer app =>
        exact answers.absorb (asking_telling.fireTimer timer) (remembers idx rfl)
    | reply found => exact answers.replied (List.mem_of_getElem? found) rfl rfl
    | unloggedReply =>
        exact answers.asked rfl rfl rfl (quorums _ _ rfl) nothing (by simp) (by simp)

/-- In every run in which no leader answers a request again that it has last executed without
storing the result, every reply carries what the request returned at some replica. -/
theorem repliesSound_of_remembers (reachable : (system d).Reachable (Remembers d) s) :
    s.RepliesSound :=
  ((invariant_answers d).of_reachable reachable).sound

/-- Replicas outside the group execute nothing. -/
theorem invariant_idle (d : Deployment) : (system d).Invariant TransitionSystem.unguarded
    fun s => ∀ idx, d.configuration.n ≤ idx → s.executions idx = [] where
  initial state isInitial := by
    obtain rfl := isInitial
    exact fun _ _ => rfl
  preserved {s action next} idle _ stepped := by
    have absorbs : ∀ idx outcome, idx < d.configuration.n → ∀ other, d.configuration.n ≤ other →
        (s.absorb d idx outcome).executions other = [] := by
      intro idx outcome inGroup other outside
      simp only [System.absorb, Function.update_of_ne (by omega : other ≠ idx)]
      exact idle other outside
    cases moves_of_step stepped with
    | receive _ inGroup => exact absorbs _ _ inGroup
    | fire _ inGroup => exact absorbs _ _ inGroup
    | _ => exact idle

/-! ## Retries -/

/-- Every request returns the same. -/
def done : App where
  execute _ _ := "done"

/-- The packets at some positions are delivered in this order. -/
def arrivals (positions : List Nat) : List Action :=
  positions.map fun position => .deliver position done

/-- Two replicas get a request and its retry, and the client their replies to both. -/
def repeatedRun : List Action :=
  [.invoke 0, .multicast 0 1 0, .multicast 0 2 0, .multicast 0 1 1, .multicast 0 2 1] ++
    arrivals [0, 1, 2, 3, 4, 5, 6, 7]

/-- The leader, which has executed the request itself, answers the retry with what it returned. -/
theorem repliesSound_repeatedRun : ∃ s : System,
    s.completions.map (fun completion => completion.reply.reply) = [some "done"] ∧
      s.RepliesSound := by
  obtain ⟨s, reachable, completed⟩ := (system retrying).exists_reachable_of_run (Remembers retrying)
    (fun s => decide
      (s.completions.map (fun completion => completion.reply.reply) = [some "done"]))
    repeatedRun rfl (by decide +kernel)
  exact ⟨s, of_decide_eq_true completed, repliesSound_of_remembers reachable⟩

/-- Replicas 0 and 1 get a request, which is committed. Replica 1 becomes the leader of view 1 with
replica 0, both get the retry, and the client their replies. -/
def forgottenRun : List Action :=
  [.invoke 0, .multicast 0 1 0, .multicast 0 1 1] ++ arrivals [0, 1] ++ [.timer 0 .sync done] ++
    arrivals [4, 6, 7] ++ [.timer 1 .leaderSyncHeard done] ++ arrivals [9, 13, 14] ++
    [.multicast 0 2 1, .multicast 0 2 0] ++ arrivals [17, 18, 19, 20]

/-- The new leader, which has executed the request as a follower, answers with an empty reply, and
the application gets it. -/
theorem not_repliesSound_forgottenRun : ¬ ∀ (d : Deployment) (s : System),
    (system d).Reachable TransitionSystem.unguarded s → s.RepliesSound := by
  intro always
  obtain ⟨s, reachable, outcome⟩ := (system retrying).exists_reachable_of_run
    TransitionSystem.unguarded
    (fun s => decide (s.completions.map (fun completion => completion.reply.reply) = [some ""] ∧
      ∀ idx ∈ List.range 3, ∀ returned ∈ s.executions idx, returned.result = "done"))
    forgottenRun rfl (by decide +kernel)
  obtain ⟨completed, results⟩ := of_decide_eq_true outcome
  obtain ⟨completion, single, empty⟩ := List.map_eq_singleton_iff.mp completed
  obtain ⟨result, carried, idx, execution, member, -, -, same⟩ :=
    (always retrying s reachable).completions completion (by simp [single])
  obtain rfl := Option.some.inj (empty.symm.trans carried)
  rcases Nat.lt_or_ge idx 3 with inside | outside
  · have returned := results idx (List.mem_range.mpr inside) execution member
    rw [same] at returned
    exact absurd returned (by decide)
  · rw [(invariant_idle retrying).of_reachable reachable idx outside] at member
    nomatch member

end System

end PaxosBus.NoPaxos

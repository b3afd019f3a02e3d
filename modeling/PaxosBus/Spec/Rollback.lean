import PaxosBus.Library.Returning
import PaxosBus.Spec.Replica

/-!
# Rolling back speculative requests

A replica that only handles requests keeps a client table that its log leads to:
the entry of a client is the client's last request in the log, and the back
pointer of each log entry is what the table said before it. Walking back through
the log therefore rebuilds the table as it was, entry by entry.
-/

set_option autoImplicit false

namespace PaxosBus.Spec

open PaxosBus.Common PaxosBus.Library
open Handler (Returns)

variable {Hash : Type}

/-! ## The client table that a log leads to -/

/-- The table entry of a client after the requests of a log: the client's last one. -/
def tableOf (entries : List (LogEntry Hash)) (client : Nat) : ClientTableEntry :=
  entries.foldl (fun last entry =>
    if entry.request.clientid = client then
      { lastReqId := entry.request.clientreqid, lastReqOpnum := entry.viewstamp.opnum }
    else last) {}

/-- One more request replaces the entry of its client. -/
theorem tableOf_concat (entries : List (LogEntry Hash)) (entry : LogEntry Hash) (client : Nat) :
    tableOf (entries ++ [entry]) client =
      if entry.request.clientid = client then
        { lastReqId := entry.request.clientreqid, lastReqOpnum := entry.viewstamp.opnum }
      else tableOf entries client := by
  simp only [tableOf, List.foldl_append, List.foldl_cons, List.foldl_nil]

/-- The table entry of a client is empty, or that of a request in the log. -/
theorem tableOf_cases (entries : List (LogEntry Hash)) (client : Nat) :
    tableOf entries client = {} ∨ ∃ (index : Nat) (entry : LogEntry Hash),
      entries[index]? = some entry ∧
        tableOf entries client =
          { lastReqId := entry.request.clientreqid, lastReqOpnum := entry.viewstamp.opnum } := by
  induction entries using List.reverseRecOn with
  | nil => exact .inl rfl
  | append_singleton entries last inductionHypothesis =>
      rw [tableOf_concat]
      split
      · exact .inr ⟨entries.length, last, by simp, rfl⟩
      · rcases inductionHypothesis with empty | ⟨index, entry, found, here⟩
        · exact .inl empty
        · have inside : index < entries.length := (List.getElem?_eq_some_iff.mp found).1
          exact .inr ⟨index, entry, by rwa [List.getElem?_append_left inside], here⟩

/-! ## Replicas that only handle requests -/

/-- The replica has handled requests and nothing else: the log is whole and speculative, and leads
to the client table and to the back pointers. -/
structure Replica.Chained (r : Replica Hash) : Prop where
  normal : r.status = .normal
  uncommitted : r.lastCommitted = 0
  unasked : r.pendingSync = 0
  fromOne : r.log.start = 1
  whole : r.log.entries.length = r.lastSpeculative
  table : ∀ client, r.tableEntry client = tableOf r.log.entries client
  named : ∀ (index : Nat) entry, r.log.entries[index]? = some entry →
    1 ≤ entry.request.clientreqid
  speculative : ∀ (index : Nat) entry, r.log.entries[index]? = some entry →
    entry.state = .speculative
  pointers : ∀ (index : Nat) entry, r.log.entries[index]? = some entry →
    (r.entryData (index + 1)).prevClientReqOpnum =
      (tableOf (r.log.entries.take index) entry.request.clientid).lastReqOpnum
  replies : ∀ (index : Nat) entry, r.log.entries[index]? = some entry →
    (r.entryData (index + 1)).replyMessage.isSome = true

/-- The log has grown, and the entries from before are as they were, with their protocol data. -/
structure Replica.Extends (r r' : Replica Hash) : Prop where
  entries : r.log.entries <+: r'.log.entries
  data : ∀ opnum, 1 ≤ opnum → opnum ≤ r.log.entries.length → r'.entryData opnum = r.entryData opnum

namespace Replica

variable {r r' r'' : Replica Hash}

theorem Extends.refl (r : Replica Hash) : r.Extends r :=
  ⟨List.prefix_refl _, fun _ _ _ => rfl⟩

theorem Extends.trans (first : r.Extends r') (second : r'.Extends r'') : r.Extends r'' where
  entries := first.entries.trans second.entries
  data opnum positive bounded := by
    have longer := first.entries.length_le
    rw [second.data opnum positive (by omega), first.data opnum positive bounded]

namespace Chained

/-- A constructed replica has handled nothing. -/
theorem constructed (setup : Setup Hash) : (Replica.constructed setup).Chained where
  normal := rfl
  uncommitted := rfl
  unasked := rfl
  fromOne := rfl
  whole := rfl
  table _ := rfl
  named index entry found := by cases found
  speculative index entry found := by cases found
  pointers index entry found := by cases found
  replies index entry found := by cases found

/-- What the invariant speaks of has not changed. -/
theorem of_same (chained : r.Chained) (status : r'.status = r.status)
    (lastCommitted : r'.lastCommitted = r.lastCommitted)
    (pendingSync : r'.pendingSync = r.pendingSync) (log : r'.log = r.log)
    (lastSpeculative : r'.lastSpeculative = r.lastSpeculative)
    (clientTable : r'.clientTable = r.clientTable) (entryData : r'.entryData = r.entryData) :
    r'.Chained where
  normal := status.trans chained.normal
  uncommitted := lastCommitted.trans chained.uncommitted
  unasked := pendingSync.trans chained.unasked
  fromOne := by rw [log]; exact chained.fromOne
  whole := by rw [log, lastSpeculative]; exact chained.whole
  table client := by
    unfold Replica.tableEntry
    rw [log, clientTable]
    exact chained.table client
  named := by rw [log]; exact chained.named
  speculative := by rw [log]; exact chained.speculative
  pointers := by rw [log, entryData]; exact chained.pointers
  replies := by rw [log, entryData]; exact chained.replies

/-- The entry at an opnum. -/
theorem find (chained : r.Chained) {index : Nat} {entry : LogEntry Hash}
    (here : r.log.entries[index]? = some entry) : r.log.find (index + 1) = some entry := by
  unfold Log.find
  rw [chained.fromOne, if_neg (by omega), Nat.add_sub_cancel]
  exact here

/-- Entries are numbered from one. -/
theorem opnum (chained : r.Chained) {index : Nat} {entry : LogEntry Hash}
    (here : r.log.entries[index]? = some entry) : entry.viewstamp.opnum = index + 1 := by
  have numbered := r.log.numbered index entry here
  rw [chained.fromOne] at numbered
  omega

/-- Another request at the end of the log, with the table entry and the back pointer that it
leads to. -/
theorem push (chained : r.Chained) {entry : LogEntry Hash}
    (log : r'.log.entries = r.log.entries ++ [entry]) (fromOne : r'.log.start = 1)
    (opnum : entry.viewstamp.opnum = r.log.entries.length + 1)
    (speculative : entry.state = .speculative) (named : 1 ≤ entry.request.clientreqid)
    (normal : r'.status = .normal) (uncommitted : r'.lastCommitted = 0)
    (unasked : r'.pendingSync = 0) (lastSpeculative : r'.lastSpeculative = r.lastSpeculative + 1)
    (own : r'.tableEntry entry.request.clientid =
      { lastReqId := entry.request.clientreqid, lastReqOpnum := entry.viewstamp.opnum })
    (others : ∀ client, client ≠ entry.request.clientid → r'.tableEntry client = r.tableEntry client)
    (data : ∀ opnum, opnum ≤ r.log.entries.length → r'.entryData opnum = r.entryData opnum)
    (pointer : (r'.entryData (r.log.entries.length + 1)).prevClientReqOpnum =
      (r.tableEntry entry.request.clientid).lastReqOpnum)
    (reply : (r'.entryData (r.log.entries.length + 1)).replyMessage.isSome = true) :
    r'.Chained := by
  have cases : ∀ (index : Nat) other, r'.log.entries[index]? = some other →
      r.log.entries[index]? = some other ∧ index < r.log.entries.length ∨
        index = r.log.entries.length ∧ other = entry := by
    intro index other found
    rw [log] at found
    rcases Nat.lt_trichotomy index r.log.entries.length with inside | last | outside
    · rw [List.getElem?_append_left inside] at found
      exact .inl ⟨found, inside⟩
    · subst last
      exact .inr ⟨rfl, by simpa using found.symm⟩
    · rw [List.getElem?_eq_none (by simp; omega)] at found
      cases found
  constructor
  · exact normal
  · exact uncommitted
  · exact unasked
  · exact fromOne
  · rw [log, lastSpeculative, ← chained.whole]
    simp
  · intro client
    rw [log, tableOf_concat]
    split
    · rename_i same
      rw [← same, own]
    · rename_i different
      rw [others client (Ne.symm different), chained.table]
  · intro index other found
    rcases cases index other found with ⟨before, _⟩ | ⟨_, rfl⟩
    · exact chained.named index other before
    · exact named
  · intro index other found
    rcases cases index other found with ⟨before, _⟩ | ⟨_, rfl⟩
    · exact chained.speculative index other before
    · exact speculative
  · intro index other found
    rcases cases index other found with ⟨before, inside⟩ | ⟨rfl, rfl⟩
    · rw [data (index + 1) (by omega), log, List.take_append_of_le_length (by omega)]
      exact chained.pointers index other before
    · rw [pointer, log, List.take_left, chained.table]
  · intro index other found
    rcases cases index other found with ⟨before, inside⟩ | ⟨rfl, rfl⟩
    · rw [data (index + 1) (by omega)]
      exact chained.replies index other before
    · exact reply

end Chained

end Replica

/-- An entry with the next number is appended. -/
theorem exists_append (log : Log Hash) (vs : Viewstamp)
    (next : vs.opnum = log.start + log.entries.length) (request : Request)
    (state : LogEntryState) :
    ∃ longer, log.append vs request state = some longer ∧ longer.start = log.start ∧
      longer.entries = log.entries ++ [log.newEntry vs request state] := by
  unfold Log.append
  rw [dif_pos ((log.appendable_iff vs).mpr next)]
  exact ⟨_, rfl, rfl, rfl⟩

/-! ## Handling requests -/

section

variable {setup : Setup Hash} {app : App} {r : Replica Hash}

/-- A replica that has handled only requests can start a synchronization. -/
theorem sendSync_returns (chained : r.Chained) (leads : setup.AmLeader r.view) :
    (sendSync setup).Returns r fun _ r' => r' = { r with lastSync := r.lastSpeculative } := by
  apply Returns.get_bind
  apply Returns.require_bind leads
  apply Returns.require_bind chained.normal
  apply Returns.modify_bind
  rw [if_pos chained.uncommitted]
  exact Handler.returns_emit.mpr rfl

/-- The last request of a client is answered again, and nothing changes. -/
theorem resendReply_returns (chained : r.Chained) (remote : Address) {index : Nat}
    {entry : LogEntry Hash} (here : r.log.entries[index]? = some entry) :
    (resendReply remote (index + 1)).Returns r fun _ r' => r'.Chained ∧ r.Extends r' := by
  obtain ⟨stored, found⟩ := Option.isSome_iff_exists.mp (chained.replies index entry here)
  have speculative := chained.speculative index entry here
  apply Returns.get_bind
  apply Returns.demand_bind (chained.find here)
  apply Returns.demand_bind found
  rw [speculative, if_neg nofun]
  apply Returns.modify_bind
  apply Handler.returns_emit.mpr
  have same : (r.setEntryData (index + 1)
      { prevClientReqOpnum := (r.entryData (index + 1)).prevClientReqOpnum
        replyMessage := some stored }).entryData = r.entryData := by
    unfold Replica.setEntryData
    apply Function.update_eq_iff.mpr
    constructor
    · rw [← found]
    · exact fun _ _ => rfl
  constructor
  · exact chained.of_same rfl rfl rfl rfl rfl rfl same
  · exact ⟨List.prefix_refl _, fun _ _ _ => congrFun same _⟩

/-- A newer request becomes the client's last one, and its back pointer the one before. -/
theorem updateClientTable_returns {req : Request} {opnum : Nat}
    {reply : SpeculativeReplyMessage Hash}
    (newer : (r.tableEntry req.clientid).lastReqId < req.clientreqid) :
    (updateClientTable req opnum reply).Returns r fun _ r' => r' =
      (r.setEntryData opnum
        { prevClientReqOpnum := (r.tableEntry req.clientid).lastReqOpnum
          replyMessage := some reply }).setTableEntry req.clientid
            { lastReqId := req.clientreqid, lastReqOpnum := opnum } := by
  apply Returns.get_bind
  apply Returns.require_bind (Nat.le_of_lt newer)
  apply Returns.modify_bind
  rw [if_neg (Nat.ne_of_lt newer)]
  exact Handler.returns_modify.mpr rfl

/-- The synchronizations that may follow a request change nothing that the invariant speaks of. -/
theorem syncing_returns (chained : r.Chained) (grown : 1 ≤ r.lastSpeculative) :
    (do
      answerPendingSync setup
      syncWhenDue setup).Returns r fun _ r' => r'.Chained ∧ r.Extends r' := by
  have silent : (answerPendingSync setup).Returns r fun _ r' => r' = r := by
    apply Returns.get_bind
    rw [chained.unasked, if_neg (by omega)]
    exact Returns.pure rfl
  apply Returns.bind silent
  rintro _ _ rfl
  apply Returns.get_bind
  apply Returns.branch
  · rintro ⟨leads, _⟩
    apply (sendSync_returns chained leads).imp
    rintro _ _ rfl
    exact ⟨chained.of_same rfl rfl rfl rfl rfl rfl rfl, List.prefix_refl _, fun _ _ _ => rfl⟩
  · exact fun _ => Returns.pure ⟨chained, .refl _⟩

/-- A request that is newer than the client's last one is executed. -/
theorem executeRequest_returns (chained : r.Chained) (remote : Address) {req : Request}
    (positive : 1 ≤ req.clientreqid)
    (newer : (r.tableEntry req.clientid).lastReqId < req.clientreqid) :
    (executeRequest setup app remote req).Returns r fun _ r' => r'.Chained ∧ r.Extends r' := by
  have whole := chained.whole
  obtain ⟨longer, appended, start, entries⟩ := exists_append r.log
    { view := r.view, opnum := r.lastSpeculative + 1 }
    (by rw [chained.fromOne, whole]; exact Nat.add_comm _ _) req .speculative
  have appending : (append { view := r.view, opnum := r.lastSpeculative + 1 } req).Returns
      { r with lastSpeculative := r.lastSpeculative + 1 } fun _ r' => r' =
        { r with
          lastSpeculative := r.lastSpeculative + 1
          log := longer
          entryData := Function.update r.entryData (r.lastSpeculative + 1) {} } := by
    apply Returns.get_bind
    apply Returns.demand_bind appended
    exact Handler.returns_modify.mpr rfl
  apply Returns.modify_bind
  apply Returns.get_bind
  apply Returns.bind appending
  rintro _ _ rfl
  have executing : ∀ r : Replica Hash, (execute app req).Returns r fun _ r' => r' =
      { r with application := r.application ++ [req] } := by
    intro r
    apply Returns.get_bind
    apply Returns.modify_bind
    exact Returns.pure rfl
  apply Returns.bind (executing _)
  rintro result _ rfl
  apply Returns.get_bind
  apply Returns.emit_bind
  refine Returns.bind (updateClientTable_returns ?_) ?_
  · exact newer
  rintro _ r1 same
  have log : r1.log = longer := by rw [same]; rfl
  have grown : r1.Chained ∧ r.Extends r1 := by
    have newData : ∀ opnum, opnum ≤ r.log.entries.length → r1.entryData opnum = r.entryData opnum := by
      intro opnum bounded
      have different : opnum ≠ r.lastSpeculative + 1 := by omega
      rw [same]
      simp [Replica.setTableEntry, Replica.setEntryData, Function.update_of_ne different]
    constructor
    · apply chained.push
      · rw [log, entries]
      · rw [log, start]
        exact chained.fromOne
      · exact congrArg (· + 1) whole.symm
      · rfl
      · exact positive
      · rw [same]
        exact chained.normal
      · rw [same]
        exact chained.uncommitted
      · rw [same]
        exact chained.unasked
      · rw [same]
        rfl
      · rw [same]
        simp [Replica.tableEntry, Replica.setTableEntry, Log.newEntry]
      · intro client different
        have other : client ≠ req.clientid := different
        rw [same]
        simp [Replica.tableEntry, Replica.setTableEntry, Replica.setEntryData,
          Function.update_of_ne other]
      · exact newData
      · rw [same, whole]
        simp [Replica.tableEntry, Replica.setTableEntry, Replica.setEntryData, Log.newEntry]
      · rw [same, whole]
        simp [Replica.setTableEntry, Replica.setEntryData]
    · constructor
      · rw [log, entries]
        exact List.prefix_append _ _
      · exact fun opnum _ bounded => newData opnum bounded
  have last : r1.lastSpeculative = r.lastSpeculative + 1 := by rw [same]; rfl
  apply (syncing_returns grown.1 (by omega)).imp
  rintro _ r2 ⟨chained2, extends2⟩
  exact ⟨chained2, grown.2.trans extends2⟩

/-- A request with an id of at least one is handled without failing. -/
theorem handleRequest_returns (chained : r.Chained) (remote : Address) (msg : RequestMessage)
    (positive : 1 ≤ msg.req.clientreqid) :
    (handleRequest setup app remote msg).Returns r fun _ r' => r'.Chained ∧ r.Extends r' := by
  have accepts : ∀ r1 : Replica Hash, r1.Chained → r.Extends r1 →
      (r1.tableEntry msg.req.clientid).lastReqId < msg.req.clientreqid →
      (acceptRequest setup app remote msg).Returns r1 fun _ r' =>
        r'.Chained ∧ r.Extends r' := by
    intro r1 chained1 extends1 newer
    apply Returns.get_bind
    rw [if_neg (not_not.mpr chained1.normal)]
    apply (executeRequest_returns chained1 remote positive newer).imp
    rintro _ r2 ⟨chained2, extends2⟩
    exact ⟨chained2, extends1.trans extends2⟩
  apply Returns.modify_bind
  have learned : ({ r with
      clientAddresses := Function.update r.clientAddresses msg.req.clientid (some remote) } :
        Replica Hash).Chained := chained.of_same rfl rfl rfl rfl rfl rfl rfl
  have same : r.Extends { r with
      clientAddresses := Function.update r.clientAddresses msg.req.clientid (some remote) } :=
    ⟨List.prefix_refl _, fun _ _ _ => rfl⟩
  have table := chained.table msg.req.clientid
  apply Returns.get_bind
  split
  · rename_i absent
    have noEntry : r.clientTable msg.req.clientid = none := absent
    apply accepts _ learned same
    change (r.tableEntry msg.req.clientid).lastReqId < _
    unfold Replica.tableEntry
    rw [noEntry]
    exact positive
  · rename_i entry present
    have own : r.tableEntry msg.req.clientid = entry := by
      unfold Replica.tableEntry
      rw [show r.clientTable msg.req.clientid = some entry from present]
      rfl
    apply Returns.branch
    · exact fun _ => Returns.pure ⟨learned, same⟩
    · intro notStale
      apply Returns.branch
      · intro duplicate
        -- the last request of the client is in the log, since its id is not zero
        rcases tableOf_cases r.log.entries msg.req.clientid with empty | ⟨index, le, here, last⟩
        · rw [← own, table, empty] at duplicate
          exact absurd duplicate (Nat.ne_of_gt positive)
        · have opnum := chained.opnum here
          rw [← own, table, last, opnum]
          apply (resendReply_returns learned remote here).imp
          rintro _ r1 ⟨chained1, extends1⟩
          exact ⟨chained1, same.trans extends1⟩
      · intro newer
        apply accepts _ learned same
        change (r.tableEntry msg.req.clientid).lastReqId < _
        rw [own]
        omega

/-- Requests with ids of at least one are handled without failing. -/
theorem handleRequests_returns (chained : r.Chained)
    {requests : List (App × Address × RequestMessage)}
    (positive : ∀ request ∈ requests, 1 ≤ request.2.2.req.clientreqid) :
    (Handler.forEach requests fun request =>
      handleRequest setup request.1 request.2.1 request.2.2).Returns r fun _ r' =>
        r'.Chained ∧ r.Extends r' := by
  let Inv (rest : List (App × Address × RequestMessage)) (r' : Replica Hash) : Prop :=
    (∀ request ∈ rest, 1 ≤ request.2.2.req.clientreqid) ∧ r'.Chained ∧ r.Extends r'
  have start : Inv requests r := ⟨positive, chained, .refl r⟩
  refine (Returns.forEach Inv ?_ start).imp fun _ _ holds => holds.2
  rintro request rest r1 ⟨ids, chained1, extends1⟩
  apply (handleRequest_returns chained1 request.2.1 request.2.2
    (ids request List.mem_cons_self)).imp
  rintro _ r2 ⟨chained2, extends2⟩
  exact ⟨fun later member => ids later (List.mem_cons_of_mem _ member), chained2,
    extends1.trans extends2⟩

/-! ## Rolling back -/

/-- The client table is the one that the first entries of the log lead to; the log and what
belongs to it have not changed. -/
structure Replica.BackAt (r : Replica Hash) (upto : Nat) (r' : Replica Hash) : Prop where
  log : r'.log = r.log
  entryData : r'.entryData = r.entryData
  lastSpeculative : r'.lastSpeculative = r.lastSpeculative
  table : ∀ client, r'.tableEntry client = tableOf (r.log.entries.take upto) client

/-- Walking back over one entry undoes it in the table. -/
theorem rollbackEntry_returns (chained : r.Chained) {r' : Replica Hash} {index : Nat}
    (inside : index < r.log.entries.length) (back : r.BackAt (index + 1) r') :
    (rollbackEntry (index + 1)).Returns r' fun _ => r.BackAt index := by
  have here := List.getElem?_eq_getElem inside
  have found : r'.log.find (index + 1) = some r.log.entries[index] := by
    rw [back.log]
    exact chained.find here
  have opnum := chained.opnum here
  have taken : r.log.entries.take (index + 1) = r.log.entries.take index ++ [r.log.entries[index]] :=
    List.take_succ_eq_append_getElem inside
  have pointer := chained.pointers index _ here
  have own := back.table r.log.entries[index].request.clientid
  rw [taken, tableOf_concat, if_pos rfl] at own
  -- the entries of the other clients stay; that of this one goes to the request before
  have undone : ∀ entry : ClientTableEntry,
      entry = tableOf (r.log.entries.take index) r.log.entries[index].request.clientid →
      r.BackAt index (r'.setTableEntry r.log.entries[index].request.clientid entry) := by
    intro entry same
    refine ⟨back.log, back.entryData, back.lastSpeculative, ?_⟩
    intro client
    by_cases other : client = r.log.entries[index].request.clientid
    · subst other
      simp [Replica.tableEntry, Replica.setTableEntry, same]
    · have before := back.table client
      rw [taken, tableOf_concat, if_neg (Ne.symm other)] at before
      rw [← before]
      simp [Replica.tableEntry, Replica.setTableEntry, Function.update_of_ne other]
  apply Returns.get_bind
  apply Returns.demand_bind found
  apply Returns.require_bind (by rw [own])
  rw [back.entryData, pointer]
  rcases tableOf_cases (r.log.entries.take index) r.log.entries[index].request.clientid with
    empty | ⟨position, old, there, last⟩
  · rw [empty, if_neg (by simp)]
    exact Handler.returns_modify.mpr (undone _ empty.symm)
  · have before : r.log.entries[position]? = some old := by
      rw [List.getElem?_take] at there
      split at there
      · exact there
      · cases there
    have oldOpnum := chained.opnum before
    rw [last, oldOpnum]
    rw [if_pos (Nat.succ_pos position)]
    apply Returns.demand_bind (by rw [back.log]; exact chained.find before)
    apply Handler.returns_modify.mpr
    exact undone _ (by rw [last, oldOpnum])

/-- Walking back over the entries above an opnum rebuilds the table that the entries up to it lead
to. -/
theorem rollbackEntries_returns (chained : r.Chained) {backto count : Nat}
    (inside : backto + count = r.log.entries.length) :
    (Handler.forEach (List.range' (backto + 1) count).reverse rollbackEntry).Returns r
      fun _ => r.BackAt backto := by
  let Inv (rest : List Nat) (r' : Replica Hash) : Prop :=
    ∃ left, rest = (List.range' (backto + 1) left).reverse ∧
      backto + left ≤ r.log.entries.length ∧ r.BackAt (backto + left) r'
  have start : Inv (List.range' (backto + 1) count).reverse r := by
    refine ⟨count, rfl, Nat.le_of_eq inside, rfl, rfl, rfl, ?_⟩
    intro client
    rw [List.take_of_length_le (Nat.le_of_eq inside.symm)]
    exact chained.table client
  refine (Returns.forEach Inv ?_ start).imp ?_
  · rintro item rest r1 ⟨left, order, bounded, back⟩
    cases left with
    | zero => cases order
    | succ left =>
        rw [List.range'_concat, List.reverse_append] at order
        obtain ⟨rfl, rfl⟩ : item = backto + left + 1 ∧
            rest = (List.range' (backto + 1) left).reverse := by
          simp only [List.reverse_singleton, List.singleton_append, List.cons.injEq] at order
          exact ⟨by omega, order.2⟩
        have below : backto + left < r.log.entries.length := Nat.lt_of_succ_le bounded
        apply (rollbackEntry_returns chained below back).imp
        intro _ r2 back2
        exact ⟨left, rfl, by omega, back2⟩
  · rintro _ r1 ⟨left, order, _, back⟩
    cases left with
    | zero => exact back
    | succ left =>
        rw [List.range'_concat, List.reverse_append] at order
        cases order

/-- The log is cut behind an opnum, and the client table is the one that the rest leads to. -/
theorem rollbackTo_returns (chained : r.Chained) {backto : Nat}
    (inside : backto ≤ r.lastSpeculative) :
    (rollbackTo backto).Returns r fun _ r' =>
      r'.log.entries = r.log.entries.take backto ∧ r'.lastSpeculative = backto ∧
        r'.entryData = r.entryData ∧
          ∀ client, r'.tableEntry client = tableOf (r.log.entries.take backto) client := by
  have whole := chained.whole
  apply Returns.get_bind
  apply Returns.branch
  · intro nothing
    have last : r.lastSpeculative = backto := Nat.le_antisymm nothing inside
    have all : r.log.entries.take backto = r.log.entries := List.take_of_length_le (by omega)
    rw [all]
    exact Returns.pure ⟨rfl, last, rfl, chained.table⟩
  · intro above
    have cut : ∃ log, r.log.removeAfter (backto + 1) = some log ∧
        log.entries = r.log.entries.take backto := by
      have lastOpnum := r.log.lastOpnum_add_one (by
        apply List.ne_nil_of_length_pos
        omega)
      rw [chained.fromOne] at lastOpnum
      unfold Log.removeAfter
      rw [if_neg (by omega), if_pos (by rw [chained.fromOne]; omega)]
      refine ⟨_, rfl, ?_⟩
      have count : backto + 1 - r.log.start = backto := by rw [chained.fromOne, Nat.add_sub_cancel]
      exact congrArg r.log.entries.take count
    obtain ⟨log, removed, entries⟩ := cut
    apply Returns.require_bind (by rw [chained.uncommitted]; exact Nat.zero_le _)
    apply Returns.bind (rollbackEntries_returns chained (by omega))
    intro _ r1 back
    apply Returns.modify_bind
    apply Returns.get_bind
    apply Returns.demand_bind (by
      change r1.log.removeAfter (backto + 1) = some log
      rw [back.log]
      exact removed)
    apply Handler.returns_modify.mpr
    exact ⟨entries, rfl, back.entryData, back.table⟩

/-- From any state that a replica reaches by handling requests with ids of at least one, and for
any more such requests: none of them fails, and rolling back to the opnum from before them does not
fail and restores the log with its protocol data, the last opnum and the client table. -/
theorem rollbackTo_restores (setup : Setup Hash)
    (before after : List (App × Address × RequestMessage))
    (positive : ∀ request ∈ before ++ after, 1 ≤ request.2.2.req.clientreqid) :
    (Handler.forEach before fun request =>
      handleRequest setup request.1 request.2.1 request.2.2).Returns (Replica.constructed setup)
        fun _ r => (Handler.forEach after fun request =>
          handleRequest setup request.1 request.2.1 request.2.2).Returns r
            fun _ r' => r'.status = .normal ∧ (rollbackTo r.lastSpeculative).Returns r'
              fun _ r'' => r''.log.entries = r.log.entries ∧
                r''.lastSpeculative = r.lastSpeculative ∧
                (∀ opnum, 1 ≤ opnum → opnum ≤ r.lastSpeculative →
                  r''.entryData opnum = r.entryData opnum) ∧
                ∀ client, r''.tableEntry client = r.tableEntry client := by
  apply (handleRequests_returns (.constructed setup)
    fun request member => positive request (List.mem_append_left _ member)).imp
  rintro _ r ⟨chained, _⟩
  apply (handleRequests_returns chained
    fun request member => positive request (List.mem_append_right _ member)).imp
  rintro _ r' ⟨chained', extends'⟩
  have kept : r'.log.entries.take r.lastSpeculative = r.log.entries := by
    rw [← chained.whole]
    exact (List.prefix_iff_eq_take.mp extends'.entries).symm
  have inside : r.lastSpeculative ≤ r'.lastSpeculative := by
    rw [← chained.whole, ← chained'.whole]
    exact extends'.entries.length_le
  refine ⟨chained'.normal, (rollbackTo_returns chained' inside).imp ?_⟩
  rintro _ r'' ⟨entries, last, data, table⟩
  refine ⟨entries.trans kept, last, ?_, ?_⟩
  · intro opnum low high
    rw [data]
    exact extends'.data opnum low (by rw [chained.whole]; exact high)
  · intro client
    rw [table, kept, chained.table]

end

/-- Replica 1 of four. -/
def secondOfFour : Setup Nat where
  configuration := { n := 4, f := 1 }
  hashing := { digest := fun lastHash clientid clientreqid => lastHash + clientid + clientreqid,
               emptyHash := 0 }
  replicaIdx := 1

/-- A request of a client. -/
def requestOf (clientid clientreqid : Nat) : App × Address × RequestMessage :=
  ({}, .client clientid, { req := { op := "", clientid, clientreqid } })

/-- Two clients have sent a request each. Then the first one sends its second request twice and its
first one again, and the other its second, and the replica rolls back. -/
theorem rollbackTo_restores_mixed :
    (Handler.forEach [requestOf 1 1, requestOf 2 1] fun request =>
      handleRequest secondOfFour request.1 request.2.1 request.2.2).Returns
        (Replica.constructed secondOfFour) fun _ r => (Handler.forEach
          [requestOf 1 2, requestOf 1 2, requestOf 1 1, requestOf 2 2] fun request =>
            handleRequest secondOfFour request.1 request.2.1 request.2.2).Returns r
              fun _ r' => r'.status = .normal ∧ (rollbackTo r.lastSpeculative).Returns r'
                fun _ r'' => r''.log.entries = r.log.entries ∧
                  r''.lastSpeculative = r.lastSpeculative ∧
                  (∀ opnum, 1 ≤ opnum → opnum ≤ r.lastSpeculative →
                    r''.entryData opnum = r.entryData opnum) ∧
                  ∀ client, r''.tableEntry client = r.tableEntry client :=
  rollbackTo_restores secondOfFour _ _ (by decide)

end PaxosBus.Spec

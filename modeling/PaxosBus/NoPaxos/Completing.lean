import PaxosBus.NoPaxos.Client

/-!
# When a client completes a request

`HandleReply` looks for the leader of the latest view in one pass over the
replies, in the order of the replicas. A later view takes the leader it has
found back, but a later session does not. So a request is completed exactly as
intended unless a reply of a later session comes from a replica that the pass
meets after the leader.
-/

set_option autoImplicit false

namespace PaxosBus.NoPaxos

open PaxosBus.Common
open Std (TreeMap)

variable {configuration : Configuration}

/-! ## The pass over the replies -/

section Pass

variable {entries : List (Nat × ReplyMessage)} {found : Client.Found} {idx : Nat}
  {reply leader : ReplyMessage}

/-- The reply that the pass ends with: the one of the leader of the latest view, if no replica
before it is in a later session. -/
def Settles (configuration : Configuration) (entries : List (Nat × ReplyMessage))
    (leader : ReplyMessage) : Prop :=
  ∃ idx, (idx, leader) ∈ entries ∧ configuration.getLeaderIndex leader.view = idx ∧
    (∀ entry ∈ entries, entry.2.view ≤ leader.view) ∧
    ∀ entry ∈ entries, entry.1 ≤ idx → entry.2.sessnum ≤ leader.sessnum

/-- What the pass knows after some of the replies. -/
structure Passed (configuration : Configuration) (entries : List (Nat × ReplyMessage))
    (found : Client.Found) : Prop where
  view : ∀ bound, found.latestView ≤ bound ↔ ∀ entry ∈ entries, entry.2.view ≤ bound
  sessnum : ∀ bound, found.latestSessnum ≤ bound ↔ ∀ entry ∈ entries, entry.2.sessnum ≤ bound
  leader : ∀ leader, found.leader = some leader ↔ Settles configuration entries leader

/-- The next reply is the one to end with. -/
theorem Passed.settles (passed : Passed configuration entries found)
    (order : ∀ entry ∈ entries, entry.1 < idx)
    (leads : configuration.getLeaderIndex reply.view = idx)
    (view : found.latestView ≤ reply.view) (sessnum : found.latestSessnum ≤ reply.sessnum) :
    reply = leader ↔ Settles configuration (entries ++ [(idx, reply)]) leader := by
  have views := (passed.view reply.view).mp view
  constructor
  · rintro rfl
    refine ⟨idx, by simp, leads, ?_, ?_⟩
    · intro entry member
      rcases List.mem_append.mp member with earlier | last
      · exact views entry earlier
      · exact List.mem_singleton.mp last ▸ le_rfl
    · intro entry member _
      rcases List.mem_append.mp member with earlier | last
      · exact (passed.sessnum reply.sessnum).mp sessnum entry earlier
      · exact List.mem_singleton.mp last ▸ le_rfl
  · rintro ⟨other, member, leads', views', -⟩
    rcases List.mem_append.mp member with earlier | last
    · -- Two leaders of one view are the same replica.
      have le : leader.view ≤ reply.view := views _ earlier
      have ge : reply.view ≤ leader.view := views' (idx, reply) (by simp)
      have same : other = idx := by rw [← leads', ← leads, le_antisymm le ge]
      exact absurd same (order _ earlier).ne
    · exact (congrArg Prod.snd (List.mem_singleton.mp last)).symm

/-- The next reply is not the one to end with, but it does not take back the leader that was
found. -/
theorem Passed.keeps (passed : Passed configuration entries found)
    (order : ∀ entry ∈ entries, entry.1 < idx) (view : reply.view ≤ found.latestView)
    (no : ¬ (configuration.getLeaderIndex reply.view = idx ∧ found.latestView ≤ reply.view ∧
      found.latestSessnum ≤ reply.sessnum)) :
    found.leader = some leader ↔ Settles configuration (entries ++ [(idx, reply)]) leader := by
  rw [passed.leader]
  constructor
  · rintro ⟨other, member, leads, views, sessnums⟩
    refine ⟨other, List.mem_append_left _ member, leads, ?_, ?_⟩
    · intro entry member
      rcases List.mem_append.mp member with earlier | last
      · exact views entry earlier
      · have latest := (passed.view leader.view).mpr views
        exact List.mem_singleton.mp last ▸ view.trans latest
    · intro entry member' inOrder
      rcases List.mem_append.mp member' with earlier | last
      · exact sessnums entry earlier inOrder
      · obtain rfl := List.mem_singleton.mp last
        exact absurd inOrder (Nat.not_le.mpr (order _ member))
  · rintro ⟨other, member, leads, views, sessnums⟩
    rcases List.mem_append.mp member with earlier | last
    · refine ⟨other, earlier, leads, ?_, ?_⟩
      · exact fun entry inEntries => views entry (List.mem_append_left _ inEntries)
      · exact fun entry inEntries => sessnums entry (List.mem_append_left _ inEntries)
    · obtain ⟨rfl, rfl⟩ := Prod.mk.injEq .. ▸ List.mem_singleton.mp last
      refine absurd ⟨leads, ?_, ?_⟩ no
      · exact (passed.view _).mpr fun entry inEntries =>
          views entry (List.mem_append_left _ inEntries)
      · exact (passed.sessnum _).mpr fun entry inEntries =>
          sessnums entry (List.mem_append_left _ inEntries) (order entry inEntries).le

/-- The next reply takes back the leader that was found, and is not the one to end with either. -/
theorem Passed.drops (passed : Passed configuration entries found)
    (order : ∀ entry ∈ entries, entry.1 < idx) (view : found.latestView < reply.view)
    (no : ¬ (configuration.getLeaderIndex reply.view = idx ∧ found.latestView ≤ reply.view ∧
      found.latestSessnum ≤ reply.sessnum)) :
    ¬ Settles configuration (entries ++ [(idx, reply)]) leader := by
  rintro ⟨other, member, leads, views, sessnums⟩
  rcases List.mem_append.mp member with earlier | last
  · have le : leader.view ≤ found.latestView := (passed.view _).mp le_rfl _ earlier
    have ge : reply.view ≤ leader.view := views (idx, reply) (by simp)
    omega
  · obtain ⟨rfl, rfl⟩ := Prod.mk.injEq .. ▸ List.mem_singleton.mp last
    refine no ⟨leads, view.le, ?_⟩
    exact (passed.sessnum _).mpr fun entry inEntries =>
      sessnums entry (List.mem_append_left _ inEntries) (order entry inEntries).le

/-- One round of the pass. -/
theorem Passed.consider (passed : Passed configuration entries found)
    (order : ∀ entry ∈ entries, entry.1 < idx) :
    Passed configuration (entries ++ [(idx, reply)])
      (found.consider configuration idx reply) where
  view bound := by
    simp [Client.Found.consider, passed.view bound, or_imp, forall_and]
  sessnum bound := by
    simp [Client.Found.consider, passed.sessnum bound, or_imp, forall_and]
  leader leader := by
    have views : reply.view = max found.latestView reply.view ↔ found.latestView ≤ reply.view := by
      omega
    have sessnums : reply.sessnum = max found.latestSessnum reply.sessnum ↔
        found.latestSessnum ≤ reply.sessnum := by omega
    simp only [Client.Found.consider, views, sessnums]
    split
    next yes =>
        rw [Option.some.injEq]
        exact passed.settles order yes.1 yes.2.1 yes.2.2
    next no =>
        split
        next later => simpa using passed.drops order later no
        next notLater => exact passed.keeps order (Nat.not_lt.mp notLater) no

/-- The whole pass, over replies in the order of the replicas. -/
theorem passed_foldl (order : entries.Pairwise fun entry later => entry.1 < later.1) :
    Passed configuration entries
      (entries.foldl (fun found entry => found.consider configuration entry.1 entry.2) {}) := by
  induction entries using List.reverseRecOn with
  | nil =>
      constructor
      · simp
      · simp
      · simp [Settles]
  | append_singleton entries last inductionHypothesis =>
      obtain ⟨before, -, follows⟩ := List.pairwise_append.mp order
      rw [List.foldl_append, List.foldl_cons, List.foldl_nil]
      apply (inductionHypothesis before).consider
      exact fun entry member => follows entry member last (List.mem_singleton_self last)

end Pass

/-! ## The decision -/

/-- The last reply of each replica. -/
def lastReplies (replies : List ReplyMessage) (idx : Nat) : Option ReplyMessage :=
  (replies.filter fun reply => reply.replicaIdx = idx).getLast?

/-- Two replies are for the same operation of the same session and view. -/
def ReplyMessage.Matches (reply leader : ReplyMessage) : Prop :=
  reply.view = leader.view ∧ reply.sessnum = leader.sessnum ∧ reply.opnum = leader.opnum

section Deciding

variable (configuration) (last : Nat → Option ReplyMessage) (leader : ReplyMessage)

/-- Enough replicas have sent a reply that matches the one of the leader. -/
def Supported : Prop :=
  ∃ matching : Finset Nat, configuration.f + 1 ≤ matching.card ∧
    ∀ idx ∈ matching, ∃ reply, last idx = some reply ∧ reply.Matches leader

/-- The reply is the one of the leader of the highest view, which is supported, and no replica up to
the leader has replied in a later session. -/
structure Leading : Prop where
  own : last (configuration.getLeaderIndex leader.view) = some leader
  view : ∀ idx reply, last idx = some reply → reply.view ≤ leader.view
  sessnum : ∀ idx reply, last idx = some reply → idx ≤ configuration.getLeaderIndex leader.view →
    reply.sessnum ≤ leader.sessnum
  supported : Supported configuration last leader

/-- The reply is the one of the leader of the highest view, in the highest view and session of all
replies, and it is supported. -/
structure Decides : Prop where
  own : last (configuration.getLeaderIndex leader.view) = some leader
  view : ∀ idx reply, last idx = some reply → reply.view ≤ leader.view
  sessnum : ∀ idx reply, last idx = some reply → reply.sessnum ≤ leader.sessnum
  supported : Supported configuration last leader

end Deciding

namespace Client

variable {msgs : TreeMap Nat ReplyMessage} {leader : ReplyMessage}

/-- What the pass finds. -/
theorem find_eq_some : (find configuration msgs).leader = some leader ↔
    Settles configuration msgs.toList leader := by
  have order : msgs.toList.Pairwise fun entry later => entry.1 < later.1 :=
    msgs.ordered_keys_toList.imp Nat.compare_eq_lt.mp
  exact (passed_foldl order).leader leader

/-- The replies that match are of different replicas. -/
theorem supported_iff : Supported configuration (fun idx => msgs[idx]?) leader ↔
    configuration.quorumSize ≤ (matching leader msgs).length := by
  have nodup : ((matching leader msgs).map Prod.fst).Nodup := by
    apply List.Pairwise.sublist (List.filter_sublist.map Prod.fst)
    apply List.pairwise_map.mpr
    exact msgs.ordered_keys_toList.imp fun less => (Nat.compare_eq_lt.mp less).ne
  have member : ∀ idx, idx ∈ (matching leader msgs).map Prod.fst ↔
      ∃ reply, msgs[idx]? = some reply ∧ reply.Matches leader := by
    intro idx
    simp [matching, ReplyMessage.Matches, TreeMap.mem_toList_iff_getElem?_eq_some]
  constructor
  · rintro ⟨voters, enough, matches_⟩
    have inside : voters ⊆ ((matching leader msgs).map Prod.fst).toFinset := by
      intro idx inVoters
      exact List.mem_toFinset.mpr ((member idx).mpr (matches_ idx inVoters))
    have le := Finset.card_le_card inside
    rw [List.toFinset_card_of_nodup nodup, List.length_map] at le
    exact enough.trans le
  · intro enough
    refine ⟨((matching leader msgs).map Prod.fst).toFinset, ?_, ?_⟩
    · rw [List.toFinset_card_of_nodup nodup, List.length_map]
      exact enough
    · exact fun idx inMatching => (member idx).mp (List.mem_toFinset.mp inMatching)

/-- The reply with which the client takes the request for done. -/
theorem completes_eq_some : completes configuration msgs = some leader ↔
    Leading configuration (fun idx => msgs[idx]?) leader := by
  unfold completes
  rw [Option.filter_eq_some_iff, find_eq_some, decide_eq_true_iff, ← supported_iff]
  constructor
  · rintro ⟨⟨idx, member, rfl, views, sessnums⟩, supported⟩
    constructor
    · exact TreeMap.mem_toList_iff_getElem?_eq_some.mp member
    · exact fun idx reply found =>
        views (idx, reply) (TreeMap.mem_toList_iff_getElem?_eq_some.mpr found)
    · exact fun idx reply found =>
        sessnums (idx, reply) (TreeMap.mem_toList_iff_getElem?_eq_some.mpr found)
    · exact supported
  · rintro ⟨found, views, sessnums, supported⟩
    refine ⟨⟨_, TreeMap.mem_toList_iff_getElem?_eq_some.mpr found, rfl, ?_, ?_⟩, supported⟩
    · exact fun entry member =>
        views entry.1 entry.2 (TreeMap.mem_toList_iff_getElem?_eq_some.mp member)
    · exact fun entry member =>
        sessnums entry.1 entry.2 (TreeMap.mem_toList_iff_getElem?_eq_some.mp member)

/-- The reply with which `HandleReply` calls `CompleteOperation`. -/
def completing (configuration : Configuration) (c : Client) (msg : ReplyMessage) :
    Option ReplyMessage :=
  if c.pendingRequest = some msg.clientreqid then
    (c.replyQuorum.addAndCheckForQuorum msg.clientreqid msg.replicaIdx msg).2.bind
      (completes configuration)
  else
    none

section

variable {c : Client} {msg : ReplyMessage}

/-- What `HandleReply` does with a reply to the pending request. -/
theorem handleReply_pending (pending : c.pendingRequest = some msg.clientreqid) :
    c.handleReply configuration msg =
      let collected :=
        { c with replyQuorum := c.replyQuorum.add msg.clientreqid msg.replicaIdx msg }
      match c.completing configuration msg with
      | some leader => collected.completeOperation leader
      | none => (collected, none) := by
  unfold handleReply completing
  rw [if_pos pending, if_pos pending]
  rfl

/-- A reply to another request changes nothing. -/
theorem handleReply_ignores (other : c.pendingRequest ≠ some msg.clientreqid) :
    c.handleReply configuration msg = (c, none) := by
  unfold handleReply
  rw [if_neg other]

/-- What `HandleReply` returns. -/
theorem handleReply_returns : (c.handleReply configuration msg).2 =
    (c.completing configuration msg).filter fun leader => leader.reply.isSome := by
  by_cases pending : c.pendingRequest = some msg.clientreqid
  · rw [handleReply_pending pending]
    cases c.completing configuration msg with
    | none => rfl
    | some leader =>
        cases result : leader.reply <;> simp [completeOperation, Option.filter, result]
  · rw [handleReply_ignores pending, completing, if_neg pending]
    rfl

end

/-! ## The course of a request -/

/-- What becomes of a client. -/
inductive Reachable (configuration : Configuration) : Client → Prop where
  | constructed : Reachable configuration (constructed configuration)
  | invoke {c} (prior : Reachable configuration c) : Reachable configuration c.invoke
  | invokeUnlogged {c} (prior : Reachable configuration c) :
      Reachable configuration c.invokeUnlogged
  | endUnlogged {c} (prior : Reachable configuration c) : Reachable configuration c.endUnlogged
  | reply {c} (prior : Reachable configuration c) (msg : ReplyMessage) :
      Reachable configuration (c.handleReply configuration msg).1

/-- A client has invoked a request, has got these replies to it since, and still waits. -/
inductive Awaits (configuration : Configuration) (reqid : Nat) :
    List ReplyMessage → Client → Prop where
  | invoked {c} (reachable : Reachable configuration c) (idle : c.pendingRequest = none)
      (next : reqid = c.lastReqID + 1) : Awaits configuration reqid [] c.invoke
  | replied {replies c} {msg : ReplyMessage} (prior : Awaits configuration reqid replies c)
      (same : msg.clientreqid = reqid) (incomplete : c.completing configuration msg = none) :
      Awaits configuration reqid (replies ++ [msg]) (c.handleReply configuration msg).1
  | ignored {replies c} {msg : ReplyMessage} (prior : Awaits configuration reqid replies c)
      (other : msg.clientreqid ≠ reqid) :
      Awaits configuration reqid replies (c.handleReply configuration msg).1
  | invokedUnlogged {replies c} (prior : Awaits configuration reqid replies c) :
      Awaits configuration reqid replies c.invokeUnlogged
  | endedUnlogged {replies c} (prior : Awaits configuration reqid replies c) :
      Awaits configuration reqid replies c.endUnlogged

/-- After a reply, the client completes its request exactly if the replies that it has decide so,
and hands the application the leader's result. -/
structure CompletesRightly (configuration : Configuration) (replies : List ReplyMessage)
    (c : Client) (msg : ReplyMessage) : Prop where
  calls : ∀ leader, c.completing configuration msg = some leader ↔
    Decides configuration (lastReplies (replies ++ [msg])) leader
  returns : ∀ leader, (c.handleReply configuration msg).2 = some leader ↔
    Decides configuration (lastReplies (replies ++ [msg])) leader ∧ leader.reply.isSome

section

variable {c : Client} {msg : ReplyMessage} {replies : List ReplyMessage} {reqid : Nat}

/-- The replies under the numbers of later requests than the last one. -/
structure Prepared (configuration : Configuration) (c : Client) : Prop where
  required : c.replyQuorum.numRequired = configuration.quorumSize
  pending : ∀ reqid, c.pendingRequest = some reqid → reqid ≤ c.lastReqID
  later : ∀ reqid idx : Nat, c.lastReqID < reqid → (c.replyQuorum.messages reqid)[idx]? = none

/-- Nothing is stored under any number when a request is completed. -/
theorem Prepared.completeOperation {leader : ReplyMessage} (prepared : c.Prepared configuration) :
    (c.completeOperation leader).1.Prepared configuration := by
  unfold Client.completeOperation
  split
  next => exact ⟨prepared.required, fun _ none_ => (nomatch none_), by simp [QuorumSet.clear]⟩
  next => exact ⟨prepared.required, prepared.pending, prepared.later⟩

/-- A client is always prepared for its next request. -/
theorem Reachable.prepared (reachable : Reachable configuration c) : c.Prepared configuration := by
  induction reachable with
  | constructed => exact ⟨rfl, fun _ none_ => (nomatch none_), by simp [Client.constructed]⟩
  | invoke prior inductionHypothesis =>
      obtain ⟨required, pending, later⟩ := inductionHypothesis
      unfold Client.invoke
      split
      next => exact ⟨required, pending, later⟩
      next =>
          refine ⟨required, ?_, fun reqid idx above => later reqid idx (by dsimp at above; omega)⟩
          intro reqid same
          exact (Option.some.inj same).ge
  | invokeUnlogged prior inductionHypothesis =>
      obtain ⟨required, pending, later⟩ := inductionHypothesis
      unfold Client.invokeUnlogged
      split
      next => exact ⟨required, pending, later⟩
      next =>
          refine ⟨required, ?_, fun reqid idx above => later reqid idx (by dsimp at above; omega)⟩
          exact fun reqid same => (pending reqid same).trans (Nat.le_succ _)
  | endUnlogged prior inductionHypothesis =>
      obtain ⟨required, pending, later⟩ := inductionHypothesis
      exact ⟨required, pending, later⟩
  | @reply c prior msg inductionHypothesis =>
      obtain ⟨required, pending, later⟩ := inductionHypothesis
      by_cases own : c.pendingRequest = some msg.clientreqid
      · have collected : Prepared configuration
            { c with replyQuorum := c.replyQuorum.add msg.clientreqid msg.replicaIdx msg } := by
          refine ⟨required, pending, fun reqid idx above => ?_⟩
          have different : reqid ≠ msg.clientreqid := by
            have := pending _ own
            dsimp at above
            omega
          simpa [QuorumSet.add, Function.update_of_ne different] using later reqid idx above
        rw [handleReply_pending own]
        cases c.completing configuration msg with
        | none => exact collected
        | some leader => exact collected.completeOperation
      · rw [handleReply_ignores own]
        exact ⟨required, pending, later⟩

/-- What a client that waits has stored: the last reply of each replica. -/
structure Stores (configuration : Configuration) (reqid : Nat) (replies : List ReplyMessage)
    (c : Client) : Prop where
  pending : c.pendingRequest = some reqid
  required : c.replyQuorum.numRequired = configuration.quorumSize
  stored : ∀ idx : Nat, (c.replyQuorum.messages reqid)[idx]? = lastReplies replies idx

/-- One reply more. -/
theorem Stores.add (stores : c.Stores configuration reqid replies)
    (same : msg.clientreqid = reqid) : Client.Stores configuration reqid (replies ++ [msg])
      { c with replyQuorum := c.replyQuorum.add msg.clientreqid msg.replicaIdx msg } where
  pending := stores.pending
  required := stores.required
  stored idx := by
    subst same
    simp only [QuorumSet.add, Function.update_self, TreeMap.getElem?_insert, stores.stored,
      lastReplies, List.filter_append]
    by_cases own : msg.replicaIdx = idx
    · simp [own]
    · simp [own]

/-- A client that waits has stored the last reply of each replica. -/
theorem Awaits.stores (awaits : Awaits configuration reqid replies c) :
    c.Stores configuration reqid replies := by
  induction awaits with
  | @invoked c reachable idle next =>
      obtain ⟨required, -, later⟩ := reachable.prepared
      unfold Client.invoke
      rw [if_neg (by simp [idle])]
      refine ⟨congrArg some next.symm, required, fun idx => ?_⟩
      exact later reqid idx (by omega)
  | replied prior same incomplete inductionHypothesis =>
      rw [handleReply_pending (same ▸ inductionHypothesis.pending), incomplete]
      exact inductionHypothesis.add same
  | ignored prior other inductionHypothesis =>
      rw [handleReply_ignores]
      · exact inductionHypothesis
      · rw [inductionHypothesis.pending]
        exact fun same => other (Option.some.inj same).symm
  | invokedUnlogged prior inductionHypothesis =>
      obtain ⟨pending, required, stored⟩ := inductionHypothesis
      unfold Client.invokeUnlogged
      split <;> exact ⟨pending, required, stored⟩
  | endedUnlogged prior inductionHypothesis =>
      obtain ⟨pending, required, stored⟩ := inductionHypothesis
      exact ⟨pending, required, stored⟩

/-- The reply with which the client takes its request for done. -/
theorem Stores.completing_eq_some (stores : c.Stores configuration reqid replies)
    (same : msg.clientreqid = reqid) {leader : ReplyMessage} :
    c.completing configuration msg = some leader ↔
      Leading configuration (lastReplies (replies ++ [msg])) leader := by
  have pending : c.pendingRequest = some msg.clientreqid := same ▸ stores.pending
  have stored := (stores.add same).stored
  have last : lastReplies (replies ++ [msg]) = fun idx =>
      ((c.replyQuorum.add msg.clientreqid msg.replicaIdx msg).messages reqid)[idx]? := by
    funext idx
    exact (stored idx).symm
  rw [last, ← completes_eq_some, completing, if_pos pending]
  unfold QuorumSet.addAndCheckForQuorum QuorumSet.checkForQuorum
  rw [same]
  dsimp only
  split
  next => rfl
  next few =>
      -- A supported reply comes with a quorum.
      constructor
      · exact fun none_ => nomatch none_
      · intro completes
        obtain ⟨voters, enough, replied⟩ := (completes_eq_some.mp completes).supported
        have inside : voters ⊆ senders
            ((c.replyQuorum.add reqid msg.replicaIdx msg).messages reqid) := by
          intro idx inVoters
          obtain ⟨reply, found, -⟩ := replied idx inVoters
          exact mem_senders.mpr ⟨reply, found⟩
        have le := Finset.card_le_card inside
        rw [card_senders] at le
        have required := stores.required
        unfold Configuration.quorumSize at required
        exact absurd (enough.trans le) (by rw [← required]; exact few)

/-- A client completes its request exactly as intended if and only if no replica after the leader
has replied in a later session. -/
theorem completesRightly_iff (awaits : Awaits configuration reqid replies c)
    (same : msg.clientreqid = reqid) : CompletesRightly configuration replies c msg ↔
      ∀ leader, Leading configuration (lastReplies (replies ++ [msg])) leader →
        ∀ idx reply, configuration.getLeaderIndex leader.view < idx →
          lastReplies (replies ++ [msg]) idx = some reply → reply.sessnum ≤ leader.sessnum := by
  have calls : ∀ leader, c.completing configuration msg = some leader ↔
      Leading configuration (lastReplies (replies ++ [msg])) leader :=
    fun _ => awaits.stores.completing_eq_some same
  constructor
  · intro right leader leading idx reply _ found
    exact ((right.calls leader).mp ((calls leader).mpr leading)).sessnum idx reply found
  · intro noneLater
    have decides : ∀ leader, c.completing configuration msg = some leader ↔
        Decides configuration (lastReplies (replies ++ [msg])) leader := by
      intro leader
      rw [calls]
      constructor
      · intro leading
        refine ⟨leading.own, leading.view, fun idx reply found => ?_, leading.supported⟩
        rcases Nat.lt_or_ge (configuration.getLeaderIndex leader.view) idx with after | upTo
        · exact noneLater leader leading idx reply after found
        · exact leading.sessnum idx reply found upTo
      · intro decides
        exact ⟨decides.own, decides.view, fun idx reply found _ => decides.sessnum idx reply found,
          decides.supported⟩
    refine ⟨decides, fun leader => ?_⟩
    rw [handleReply_returns, Option.filter_eq_some_iff, decides]

end

/-! ## A reply of a later session -/

/-- Three replicas. -/
def three : Configuration where
  n := 3
  f := 1

/-- A reply to the first request at its operation 1 in view 0. -/
def first (sessnum replicaIdx : Nat) (reply : Option String) : ReplyMessage where
  view := 0
  sessnum := sessnum
  opnum := 1
  clientreqid := 1
  replicaIdx := replicaIdx
  reply := reply

/-- A client that has had these replies to its first request. -/
def after (replies : List ReplyMessage) : Client :=
  replies.foldl (fun c msg => (c.handleReply three msg).1) (constructed three).invoke

/-- A follower and then the leader reply. -/
theorem completesRightly_same :
    ((after [first 0 1 none]).handleReply three (first 0 0 (some "result"))).2 =
      some (first 0 0 (some "result")) ∧
    CompletesRightly three [first 0 1 none] (after [first 0 1 none])
      (first 0 0 (some "result")) := by
  refine ⟨by decide +kernel, ?_⟩
  have awaits : Awaits three 1 [first 0 1 none] (after [first 0 1 none]) :=
    .replied (.invoked .constructed rfl rfl) rfl (by decide +kernel)
  apply (completesRightly_iff awaits rfl).mpr
  intro leader _ idx reply _ found
  have member := (List.mem_filter.mp (List.mem_of_getLast? found)).1
  have zero : reply.sessnum = 0 := by
    rcases List.mem_cons.mp member with rfl | rest
    · rfl
    · exact List.mem_singleton.mp rest ▸ rfl
  exact zero.trans_le (Nat.zero_le _)

/-- A follower replies, another one in a later session, and then the leader. The client completes
the request in the earlier session. -/
theorem not_completesRightly_later :
    ¬ ∀ (configuration : Configuration) (reqid : Nat) (replies : List ReplyMessage) (c : Client)
      (msg : ReplyMessage), Awaits configuration reqid replies c → msg.clientreqid = reqid →
        CompletesRightly configuration replies c msg := by
  intro always
  have awaits : Awaits three 1 [first 0 1 none, first 1 2 none]
      (after [first 0 1 none, first 1 2 none]) :=
    .replied (.replied (.invoked .constructed rfl rfl) rfl (by decide +kernel)) rfl
      (by decide +kernel)
  have right := always three 1 _ _ (first 0 0 (some "result")) awaits rfl
  have completed : (after [first 0 1 none, first 1 2 none]).completing three
      (first 0 0 (some "result")) = some (first 0 0 (some "result")) := by decide +kernel
  have le := ((right.calls _).mp completed).sessnum 2 (first 1 2 none) (by decide)
  exact absurd le (by decide)

end Client

end PaxosBus.NoPaxos

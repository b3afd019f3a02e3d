import PaxosBus.Spec.Replies

/-!
# What the handlers reply

Every handler of a replica keeps what the replica has executed in step with its log,
and sends no reply that does not speak of a log.
-/

set_option autoImplicit false

namespace PaxosBus.Spec

open PaxosBus.Common PaxosBus.Library
open Logic (Meets)
open Std (TreeMap)

variable {Hash : Type} {hashing : Hashing Hash} {asked : Request → Prop} {setup : Setup Hash}
  {app : App} {r : Replica Hash}

/-! ## Requests -/

/-- A synchronization starts without a reply. -/
theorem sendSync_replies (executed : r.Executed hashing app.execute asked) :
    Replies hashing app.execute asked (sendSync setup) r := by
  apply Meets.bind
  apply Meets.get trivial
  intro _
  apply Meets.bind
  apply Meets.require trivial
  intro _ _
  apply Meets.bind
  apply Meets.require trivial
  intro _ _
  apply Meets.bind
  apply Meets.change trivial
  intro _
  apply Meets.branch
  · exact fun _ => Meets.emit trivial (replying_valid nofun) { executed with }
  · intro _
    apply Meets.bind
    apply Meets.demand trivial
    exact fun _ _ _ => Meets.emit trivial (replying_valid nofun) { executed with }

/-- An answer to a `SyncMessage` is not a reply. -/
theorem sendSyncReply_replies (executed : r.Executed hashing app.execute asked) (opnum : Nat) :
    Replies hashing app.execute asked (sendSyncReply setup opnum) r := by
  have answers : ∀ hash, Replies hashing app.execute asked (replyToSync setup opnum hash) r := by
    intro hash
    apply Meets.bind
    apply Meets.get trivial
    intro _
    exact Meets.emit trivial (fun _ _ same => nomatch same) executed
  apply Meets.bind
  apply Meets.get trivial
  intro _
  apply Meets.branch
  · exact fun _ => answers none
  · intro _
    apply Meets.bind
    apply Meets.demand trivial
    exact fun _ _ _ => answers _

/-- The reply that is sent again speaks of the log from when it was made. -/
theorem resendReply_replies (executed : r.Executed hashing app.execute asked) (remote : Address)
    (opnum : Nat) : Replies hashing app.execute asked (resendReply remote opnum) r := by
  apply Meets.bind
  apply Meets.get trivial
  intro _
  apply Meets.bind
  apply Meets.demand trivial
  intro le _ _
  apply Meets.bind
  apply Meets.demand trivial
  intro stored found _
  have backed : SpeculativeReplyMessage.Backed hashing app.execute asked
      (if le.state = .committed then { stored with committed := true } else stored) := by
    obtain ⟨requests, made, describes⟩ := executed.replies opnum stored found
    split
    · exact ⟨requests, made, { describes with }⟩
    · exact ⟨requests, made, describes⟩
  apply Meets.bind
  apply Meets.change trivial
  intro _
  apply Meets.emit trivial
  · intro _ reply same
    cases same
    exact backed
  · apply executed.setEntryData
    intro reply same
    cases same
    exact backed

/-- A request that is executed is replied to with the log up to it. -/
theorem executeRequest_replies (executed : r.Executed hashing app.execute asked)
    (remote : Address) {req : Request} (made : asked req) :
    Replies hashing app.execute asked (executeRequest setup app remote req) r := by
  apply Meets.bind
  apply Meets.change trivial
  intro _
  apply Meets.bind
  apply Meets.get trivial
  intro _
  apply Meets.bind
  apply (append_owes executed _ made).imp
  intro _ _ appended _ owes _
  apply Meets.bind
  apply (execute_owes owes).imp
  rintro result _ after _ ⟨executedAfter, _, answer⟩ _
  apply Meets.bind
  apply Meets.get trivial
  intro _
  have backed : SpeculativeReplyMessage.Backed hashing app.execute asked
      { clientreqid := req.clientreqid, replicaidx := setup.replicaIdx, view := after.view,
        opnum := after.lastSpeculative, loghash := after.log.lastHash, reply := result,
        committed := false } :=
    ⟨after.log.requests, executedAfter.made, executedAfter.lastSpeculative,
      executedAfter.hashed.lastHash, answer⟩
  apply Meets.bind
  apply Meets.emit trivial
  · intro _ reply same
    cases same
    exact backed
  intro _
  apply Meets.bind
  apply (updateClientTable_replies executedAfter _ _ backed).imp
  rintro _ _ updated _ ⟨executedUpdated, _⟩ _
  have pendingSync : Replies hashing app.execute asked (answerPendingSync setup) updated := by
    apply Meets.bind
    apply Meets.get trivial
    intro _
    apply Meets.branch
    · exact fun _ => sendSyncReply_replies executedUpdated _
    · exact fun _ => Meets.pure trivial executedUpdated
  apply Meets.bind
  apply pendingSync.imp
  intro _ _ synced _ executedSynced _
  apply Meets.bind
  apply Meets.get trivial
  intro _
  apply Meets.branch
  · exact fun _ => sendSync_replies executedSynced
  · exact fun _ => Meets.pure trivial executedSynced

/-- `HandleRequest` replies with a log, or defers the request. -/
theorem handleRequest_replies (executed : r.Executed hashing app.execute asked)
    (remote : Address) {msg : RequestMessage} (made : asked msg.req) :
    Replies hashing app.execute asked (handleRequest setup app remote msg) r := by
  have accepts : ∀ r : Replica Hash, r.Executed hashing app.execute asked →
      Replies hashing app.execute asked (acceptRequest setup app remote msg) r := by
    intro r executed
    apply Meets.bind
    apply Meets.get trivial
    intro _
    apply Meets.branch
    · intro _
      apply Meets.change trivial
      exact { executed with
        pending := by
          intro pair member
          rcases List.mem_append.mp member with old | new
          · exact executed.pending pair old
          · rwa [List.mem_singleton.mp new] }
    · exact fun _ => executeRequest_replies executed remote made
  apply Meets.bind
  apply Meets.change trivial
  intro _
  apply Meets.bind
  apply Meets.get trivial
  intro _
  have known : ({ r with
      clientAddresses := Function.update r.clientAddresses msg.req.clientid (some remote) } :
        Replica Hash).Executed hashing app.execute asked := { executed with }
  split
  · exact accepts _ known
  · apply Meets.branch
    · exact fun _ => Meets.pure trivial known
    · intro _
      apply Meets.branch
      · exact fun _ => resendReply_replies known remote _
      · exact fun _ => accepts _ known

/-- The answer to an unlogged request is not a reply. -/
theorem handleUnloggedRequest_replies (executed : r.Executed hashing app.execute asked)
    (remote : Address) (msg : UnloggedRequestMessage) :
    Replies hashing app.execute asked (handleUnloggedRequest app remote msg) r := by
  apply Meets.bind
  apply Meets.get trivial
  intro _
  apply Meets.branch
  · exact fun _ => Meets.pure trivial executed
  · exact fun _ => Meets.emit trivial (replying_valid nofun) executed

/-! ## Leaving and entering views -/

/-- A view is entered with what has been executed, and the deferred requests are executed. -/
theorem enterView_replies (executed : r.Executed hashing app.execute asked) (newview : Nat) :
    Replies hashing app.execute asked (enterView setup app newview) r := by
  have timed : ∀ r : Replica Hash, r.Executed hashing app.execute asked →
      (r.startTimeouts setup).startAnew.Executed hashing app.execute asked := by
    intro r executed
    unfold Replica.startTimeouts
    split
    · exact { executed with pending := (fun _ none_ => nomatch none_), votes := QuorumSet.all_clear }
    · exact { executed with pending := (fun _ none_ => nomatch none_), votes := QuorumSet.all_clear }
  apply Meets.bind
  apply Meets.change trivial
  intro _
  apply Meets.bind
  apply Meets.get trivial
  intro _
  apply Meets.bind
  apply Meets.emit trivial (fun _ _ same => nomatch same)
  intro _
  apply Meets.bind
  apply Meets.change trivial
  intro _
  apply Meets.bind
  apply Meets.change trivial
  intro _
  let Inv (_ : Unit) (r' : Replica Hash) : Prop := r'.Executed hashing app.execute asked
  refine Meets.forEach Inv ?_ trivial (timed _ { executed with })
  exact fun pair inPending _ _ _ executedNow =>
    handleRequest_replies executedNow pair.1 (executed.pending pair inPending)

/-- A view is left without a reply. -/
theorem startViewChange_replies (executed : r.Executed hashing app.execute asked) (newview : Nat) :
    Replies hashing app.execute asked (startViewChange setup newview) r := by
  apply Meets.bind
  apply Meets.change trivial
  intro _
  apply Meets.bind
  apply Meets.get trivial
  intro _
  exact Meets.emit trivial (replying_valid nofun) { executed with }

/-- Joining a view change replies to nobody. -/
theorem joinViewChange_replies (executed : r.Executed hashing app.execute asked) (view : Nat) :
    Replies hashing app.execute asked (joinViewChange setup view) r := by
  apply Meets.bind
  apply Meets.get trivial
  intro _
  apply Meets.branch
  · exact fun _ => startViewChange_replies executed view
  · exact fun _ => Meets.pure trivial executed

/-! ## Synchronization -/

/-- `HandleSync` commits, or leaves the view. -/
theorem handleSync_replies [DecidableEq Hash] (executed : r.Executed hashing app.execute asked)
    (msg : SyncMessage Hash) : Replies hashing app.execute asked (handleSync setup msg) r := by
  have answers : ∀ r : Replica Hash, r.Executed hashing app.execute asked →
      Replies hashing app.execute asked (handleSync.answerSync setup msg) r := by
    intro r executed
    apply Meets.bind
    apply Meets.get trivial
    intro _
    apply Meets.branch
    · exact fun _ => Meets.change trivial { executed with }
    · exact fun _ => sendSyncReply_replies executed _
  apply Meets.bind
  apply Meets.get trivial
  intro _
  apply Meets.branch
  · exact fun _ => Meets.pure trivial executed
  intro _
  apply Meets.branch
  · exact fun _ => Meets.pure trivial executed
  intro _
  apply Meets.branch
  · exact fun _ => startViewChange_replies executed _
  intro _
  apply Meets.bind
  apply Meets.require trivial
  intro _ _
  apply Meets.bind
  apply Meets.change trivial
  intro _
  have heard : ({ r with viewChangeTimeout := true } : Replica Hash).Executed hashing app.execute
      asked := { executed with }
  apply Meets.branch
  · exact fun _ => startViewChange_replies heard _
  intro _
  apply Meets.branch
  · intro _
    apply Meets.bind
    apply Meets.demand trivial
    intro entry _ _
    apply Meets.branch
    · intro _
      apply Meets.bind
      apply (commitUpTo_replies heard _).imp
      exact fun _ _ _ _ executedAfter _ => answers _ executedAfter
    · exact fun _ => startViewChange_replies heard _
  · exact fun _ => answers _ heard

/-- A quorum of replies to a `SyncMessage` commits, or the view is left. -/
theorem completeSync_replies [DecidableEq Hash] (executed : r.Executed hashing app.execute asked)
    (msg : SyncReplyMessage Hash) (msgs : TreeMap Nat (SyncReplyMessage Hash)) :
    Replies hashing app.execute asked (completeSync setup msg msgs) r := by
  have commits : ∀ r : Replica Hash, r.Executed hashing app.execute asked →
      Replies hashing app.execute asked (commitSync msg) r := by
    intro r executed
    apply Meets.bind
    apply Meets.get trivial
    intro _
    apply Meets.bind
    apply Meets.emit trivial (fun _ _ same => nomatch same)
    exact fun _ => commitUpTo_replies executed _
  have heard : ({ r with failedSyncTimeout := true } : Replica Hash).Executed hashing app.execute
      asked := { executed with }
  apply Meets.bind
  apply Meets.change trivial
  intro _
  apply Meets.bind
  apply Meets.get trivial
  intro _
  apply Meets.branch
  · exact fun _ => Meets.pure trivial heard
  intro _
  apply Meets.bind
  apply Meets.demand trivial
  intro entry _ _
  split
  · exact startViewChange_replies heard _
  · apply Meets.branch
    · intro _
      apply Meets.bind
      apply (startViewChange_replies heard _).imp
      exact fun _ _ _ _ executedAfter _ => commits _ executedAfter
    · exact fun _ => commits _ heard
  · exact Meets.stop trivial

/-- A reply to a synchronization commits or not, and replies to nobody. -/
theorem handleSyncReply_replies [DecidableEq Hash]
    (executed : r.Executed hashing app.execute asked) (msg : SyncReplyMessage Hash) :
    Replies hashing app.execute asked (handleSyncReply setup msg) r := by
  apply Meets.bind
  apply Meets.get trivial
  intro _
  apply Meets.branch
  · exact fun _ => Meets.pure trivial executed
  intro _
  apply Meets.branch
  · exact fun _ => Meets.pure trivial executed
  intro _
  apply Meets.bind
  apply Meets.require trivial
  intro _ _
  apply Meets.bind
  apply Meets.require trivial
  intro _ _
  apply Meets.bind
  apply Meets.require trivial
  intro _ _
  apply Meets.bind
  apply Meets.change trivial
  intro _
  have added : ({ r with
      syncReplyQuorum := (r.syncReplyQuorum.addAndCheckForQuorum msg.lastspeculative
        msg.replicaidx msg).1 } : Replica Hash).Executed hashing app.execute asked :=
    { executed with }
  split
  · exact Meets.pure trivial added
  · exact completeSync_replies added msg _

/-! ## Votes -/

/-- A vote is not a reply; the leader stores its own. -/
theorem sendDoViewChange_replies (executed : r.Executed hashing app.execute asked) (view : Nat) :
    Replies hashing app.execute asked (sendDoViewChange setup view) r := by
  apply Meets.bind
  apply Meets.change trivial
  intro _
  apply Meets.bind
  apply Meets.get trivial
  intro _
  apply Meets.bind
  apply Meets.require trivial
  intro _ _
  have voted : ({ r with sentDoViewChange := view } : Replica Hash).Executed hashing app.execute
      asked := { executed with }
  apply Meets.branch
  · exact fun _ => Meets.change trivial (voted.add_vote (executed.asked_of_mem_dump _))
  · exact fun _ => Meets.emit trivial (replying_valid nofun) voted

/-- A `StartViewChange` makes the replica join and vote. -/
theorem handleStartViewChange_replies (executed : r.Executed hashing app.execute asked)
    (msg : StartViewChangeMessage) :
    Replies hashing app.execute asked (handleStartViewChange setup msg) r := by
  apply Meets.bind
  apply Meets.get trivial
  intro _
  apply Meets.branch
  · exact fun _ => Meets.pure trivial executed
  intro _
  apply Meets.branch
  · exact fun _ => Meets.pure trivial executed
  intro _
  apply Meets.bind
  apply (joinViewChange_replies executed _).imp
  intro _ _ joined _ executedJoined _
  apply Meets.bind
  apply Meets.get trivial
  intro _
  apply Meets.bind
  apply Meets.require trivial
  intro _ _
  apply Meets.bind
  apply Meets.change trivial
  intro _
  have added : ({ joined with
      startViewChangeQuorum := (joined.startViewChangeQuorum.addAndCheckForQuorum msg.view
        msg.replicaidx msg).1 } : Replica Hash).Executed hashing app.execute asked :=
    { executedJoined with }
  split
  · exact Meets.pure trivial added
  · apply Meets.branch
    · exact fun _ => Meets.pure trivial added
    intro _
    apply Meets.branch
    · exact fun _ => Meets.pure trivial added
    · exact fun _ => sendDoViewChange_replies added _

/-- Asking for longer votes keeps the leader's own. -/
theorem needFillDVCGap_replies (executed : r.Executed hashing app.execute asked) (view : Nat) :
    Replies hashing app.execute asked (needFillDVCGap setup view) r := by
  have own : ∀ entry ∈ ((r.doViewChangeQuorum.getMessages view)[setup.replicaIdx]?.getD
      .unset).entries, asked entry.request := by
    unfold QuorumSet.getMessages
    cases found : (r.doViewChangeQuorum.messages view)[setup.replicaIdx]? with
    | none => exact fun entry member => nomatch member
    | some vote => exact executed.votes view setup.replicaIdx vote found
  apply Meets.bind
  apply Meets.get trivial
  intro _
  apply Meets.bind
  apply Meets.require trivial
  intro _ _
  apply Meets.bind
  apply (Meets.forEach (fun _ r' => r' = r) ?_ trivial rfl).imp
  · rintro _ _ _ _ rfl _
    exact Meets.change trivial { executed with votes := QuorumSet.all_clear.add own }
  · rintro idx _ _ _ _ rfl
    apply Meets.bind
    apply Meets.require trivial
    intro _ _
    apply Meets.bind
    apply Meets.get trivial
    intro _
    exact Meets.emit trivial (replying_valid nofun) rfl

/-- Comparing votes changes nothing. -/
theorem compareStarts_replies [DecidableEq Hash] {answers : List Request → String}
    (maxStart : Nat) (myEntry : LogEntry Hash) (dvcs : List (DoViewChangeMessage Hash)) :
    (replying hashing answers asked).Meets (compareStarts maxStart myEntry dvcs) () r
      fun _ _ r' => r' = r := by
  induction dvcs with
  | nil => exact Meets.pure trivial rfl
  | cons msg rest inductionHypothesis =>
      apply Meets.branch
      · exact fun _ => inductionHypothesis
      intro _
      apply Meets.branch
      · exact fun _ => Meets.pure trivial rfl
      intro _
      apply Meets.bind
      apply Meets.require trivial
      intro _ _
      apply Meets.bind
      apply Meets.emit trivial (fun _ _ same => nomatch same)
      intro _
      apply Meets.bind
      apply Meets.demand trivial
      intro entry _ _
      apply Meets.branch
      · exact fun _ => Meets.pure trivial rfl
      · exact fun _ => inductionHypothesis

section Merge

variable [LinearOrder Hash]

/-- The merge of a quorum of votes is installed, and the view starts from it. -/
theorem mergeQuorum_replies (executed : r.Executed hashing app.execute asked)
    (view maxStart : Nat) :
    Replies hashing app.execute asked (mergeQuorum setup app view maxStart) r := by
  apply Meets.bind
  apply Meets.get trivial
  intro _
  split
  · exact Meets.pure trivial executed
  next msgs enough =>
      apply Meets.bind
      apply (Meets.forEach (fun _ r' => r' = r) ?_ trivial rfl).imp
      · rintro _ _ _ _ rfl _
        apply Meets.bind
        apply Meets.demand trivial
        intro newLog merged _
        have voted : ∀ vote ∈ messages msgs, ∀ entry ∈ vote.entries, asked entry.request := by
          intro vote member
          obtain ⟨⟨idx, _⟩, inList, rfl⟩ := List.mem_map.mp member
          have stored := TreeMap.mem_toList_iff_getElem?_eq_some.mp inList
          unfold QuorumSet.checkForQuorum at enough
          split at enough
          · exact executed.votes view idx _ (Option.some.inj enough ▸ stored)
          · nomatch enough
        apply Meets.bind
        apply (installLog_replies executed (asked_of_mergeLogs voted merged)).imp
        intro _ _ installed _ executedInstalled _
        apply Meets.bind
        apply Meets.get trivial
        intro _
        apply Meets.bind
        apply (enterView_replies executedInstalled view).imp
        intro _ _ entered _ executedEntered _
        apply Meets.bind
        apply Meets.get trivial
        intro _
        apply Meets.bind
        apply Meets.require trivial
        intro _ _
        exact Meets.emit trivial (replying_valid nofun) executedEntered
      · rintro read _ _ _ _ rfl
        exact Meets.emit trivial (fun _ _ same => nomatch same) rfl

/-- The logs are merged from where the last of them begins, or asked for again. -/
theorem mergeTruncated_replies (executed : r.Executed hashing app.execute asked)
    {msg : DoViewChangeMessage Hash} (made : ∀ entry ∈ msg.entries, asked entry.request) :
    Replies hashing app.execute asked (mergeTruncated setup app msg) r := by
  have added : (r.addDoViewChange msg).Executed hashing app.execute asked :=
    executed.add_vote made
  apply Meets.bind
  apply Meets.change trivial
  intro _
  apply Meets.bind
  apply Meets.get trivial
  intro _
  apply Meets.branch
  · exact fun _ => needFillDVCGap_replies added _
  intro _
  apply Meets.branch
  · intro _
    apply Meets.bind
    apply Meets.demand trivial
    intro myEntry _ _
    apply Meets.bind
    apply (compareStarts_replies _ _ _).imp
    rintro same _ _ _ rfl _
    apply Meets.branch
    · exact fun _ => mergeQuorum_replies added _ _
    · exact fun _ => needFillDVCGap_replies added _
  · exact fun _ => mergeQuorum_replies added _ _

/-- The logs that have been asked for again are merged from their beginning. -/
theorem mergeFilled_replies (executed : r.Executed hashing app.execute asked)
    {msg : DoViewChangeMessage Hash} (made : ∀ entry ∈ msg.entries, asked entry.request) :
    Replies hashing app.execute asked (mergeFilled setup app msg) r := by
  apply Meets.bind
  apply Meets.get trivial
  intro _
  apply Meets.branch
  · intro _
    apply Meets.bind
    apply Meets.require trivial
    intro _ _
    apply Meets.bind
    apply Meets.get trivial
    intro _
    exact Meets.emit trivial (replying_valid nofun) executed
  · intro _
    apply Meets.bind
    apply Meets.change trivial
    exact fun _ => mergeQuorum_replies (executed.add_vote made) _ _

/-- A vote is counted, and a quorum of them merged. -/
theorem handleDoViewChange_replies (executed : r.Executed hashing app.execute asked)
    {msg : DoViewChangeMessage Hash} (made : ∀ entry ∈ msg.entries, asked entry.request) :
    Replies hashing app.execute asked (handleDoViewChange setup app msg) r := by
  apply Meets.bind
  apply Meets.get trivial
  intro _
  apply Meets.branch
  · exact fun _ => Meets.pure trivial executed
  intro _
  apply Meets.branch
  · exact fun _ => Meets.pure trivial executed
  intro _
  apply Meets.bind
  apply (joinViewChange_replies executed _).imp
  intro _ _ joined _ executedJoined _
  apply Meets.bind
  apply Meets.require trivial
  intro _ _
  apply Meets.bind
  apply Meets.get trivial
  intro _
  apply Meets.branch
  · exact fun _ => mergeFilled_replies executedJoined made
  · exact fun _ => mergeTruncated_replies executedJoined made

end Merge

/-! ## Entering a view that another replica leads -/

/-- The log of the view is installed and executed, and the view entered. -/
theorem adoptView_replies [DecidableEq Hash] (executed : r.Executed hashing app.execute asked)
    {msg : StartViewMessage Hash} (made : ∀ entry ∈ msg.entries, asked entry.request) :
    Replies hashing app.execute asked (adoptView setup app msg) r := by
  apply Meets.bind
  apply Meets.require trivial
  intro _ _
  apply Meets.bind
  apply (installLog_replies executed made).imp
  intro _ _ installed _ executedInstalled _
  apply Meets.bind
  apply (commitUpTo_replies executedInstalled _).imp
  intro _ _ committed _ executedCommitted _
  apply Meets.bind
  apply Meets.emit trivial
  · exact replying_valid nofun
  intro _
  apply Meets.bind
  apply Meets.get trivial
  intro _
  apply Meets.bind
  apply Meets.require trivial
  intro _ _
  apply Meets.bind
  apply Meets.require trivial
  intro _ _
  apply Meets.bind
  apply (enterView_replies executedCommitted _).imp
  intro _ _ entered _ executedEntered _
  apply Meets.bind
  apply Meets.get trivial
  intro _
  exact Meets.require trivial fun _ => executedEntered

/-- The start of a view makes the replica adopt its log. -/
theorem handleStartView_replies [DecidableEq Hash]
    (executed : r.Executed hashing app.execute asked) (remote : Address)
    {msg : StartViewMessage Hash} (made : ∀ entry ∈ msg.entries, asked entry.request) :
    Replies hashing app.execute asked (handleStartView setup app remote msg) r := by
  have asks : Replies hashing app.execute asked (sendMessage remote
      (.fillLogGap { view := msg.view, lastcommitted := r.lastCommitted })) r :=
    Meets.emit trivial (replying_valid nofun) executed
  apply Meets.bind
  apply Meets.get trivial
  intro _
  apply Meets.branch
  · exact fun _ => Meets.pure trivial executed
  intro _
  apply Meets.branch
  · exact fun _ => Meets.pure trivial executed
  intro _
  apply Meets.bind
  apply Meets.require trivial
  intro _ _
  split
  · exact adoptView_replies executed made
  · apply Meets.branch
    · intro _
      apply Meets.branch
      · exact fun _ => asks
      intro _
      apply Meets.bind
      apply Meets.demand trivial
      intro mine _ _
      apply Meets.branch
      · exact fun _ => asks
      · exact fun _ => adoptView_replies executed made
    · exact fun _ => adoptView_replies executed made

/-- A message of a replica in the view is counted. -/
theorem handleInView_replies (executed : r.Executed hashing app.execute asked)
    (msg : InViewMessage) : Replies hashing app.execute asked (handleInView setup msg) r := by
  apply Meets.bind
  apply Meets.get trivial
  intro _
  apply Meets.branch
  · exact fun _ => Meets.pure trivial executed
  intro _
  apply Meets.bind
  apply Meets.require trivial
  intro _ _
  apply Meets.bind
  apply Meets.require trivial
  intro _ _
  apply Meets.bind
  apply Meets.change trivial
  intro _
  have added : ({ r with
      inViewQuorum := (r.inViewQuorum.addAndCheckForQuorum msg.view msg.replicaidx msg).1 } :
        Replica Hash).Executed hashing app.execute asked := { executed with }
  apply Meets.branch
  · intro _
    apply Meets.bind
    apply Meets.require trivial
    intro _ _
    apply Meets.branch
    · exact fun _ => Meets.pure trivial added
    intro _
    apply Meets.bind
    apply Meets.emit trivial (fun _ _ same => nomatch same)
    intro _
    apply Meets.bind
    apply (commitUpTo_replies added _).imp
    exact fun _ _ _ _ executedAfter _ => sendSync_replies executedAfter
  · exact fun _ => Meets.pure trivial added

/-! ## What drives a replica -/

/-- The requests that a message brings have been made. -/
def Brings (asked : Request → Prop) : Message Hash → Prop
  | .request msg => asked msg.req
  | .doViewChange msg => ∀ entry ∈ msg.entries, asked entry.request
  | .startView msg => ∀ entry ∈ msg.entries, asked entry.request
  | _ => True

/-- A replica that receives a message replies with logs. -/
theorem receiveMessage_replies [LinearOrder Hash] (executed : r.Executed hashing app.execute asked)
    (remote : Address) {msg : Message Hash} (brings : Brings asked msg) :
    Replies hashing app.execute asked (receiveMessage setup app remote msg) r := by
  cases msg with
  | request msg => exact handleRequest_replies executed remote brings
  | reply msg => exact Meets.stop trivial
  | unloggedRequest msg => exact handleUnloggedRequest_replies executed remote msg
  | unloggedReply msg => exact Meets.stop trivial
  | sync msg => exact handleSync_replies executed msg
  | syncReply msg => exact handleSyncReply_replies executed msg
  | requestViewChange msg =>
      apply Meets.bind
      apply Meets.get trivial
      intro _
      apply Meets.branch
      · exact fun _ => Meets.pure trivial executed
      · exact fun _ => startViewChange_replies executed _
  | startViewChange msg => exact handleStartViewChange_replies executed msg
  | doViewChange msg => exact handleDoViewChange_replies executed brings
  | startView msg => exact handleStartView_replies executed remote brings
  | inView msg => exact handleInView_replies executed msg
  | fillLogGap msg =>
      apply Meets.bind
      apply Meets.get trivial
      intro _
      apply Meets.branch
      · exact fun _ => Meets.pure trivial executed
      intro _
      apply Meets.bind
      apply Meets.require trivial
      intro _ _
      exact Meets.emit trivial (replying_valid nofun) executed
  | fillDVCGap msg =>
      apply Meets.bind
      apply Meets.get trivial
      intro _
      apply Meets.branch
      · exact fun _ => Meets.pure trivial executed
      intro _
      apply Meets.bind
      apply Meets.require trivial
      intro _ _
      exact Meets.emit trivial (replying_valid nofun) executed

/-- A replica whose timeout fires sends no reply. -/
theorem fireTimer_replies (executed : r.Executed hashing app.execute asked) (timer : Timer) :
    Replies hashing app.execute asked (fireTimer setup timer) r := by
  have leaves : Replies hashing app.execute asked (do
      let r ← Handler.get
      startViewChange setup (r.view + 1)) r := by
    apply Meets.bind
    apply Meets.get trivial
    exact fun _ => startViewChange_replies executed _
  cases timer with
  | sync => exact sendSync_replies executed
  | failedSync => exact leaves
  | viewChange => exact leaves

end PaxosBus.Spec

import PaxosBus.Vr.Leading

/-!
# What a view change does not take back

While no state is lost, a replica's view and its commit point only grow, it does
not attend to a view again that it has passed, and a `StartViewChange` that it
has counted for the view that it attends to stays counted. So what suffices for
a replica when it is sent suffices when it arrives. The handlers are followed
here with a condition on the votes and the starts of views that they send.
-/

set_option autoImplicit false

namespace PaxosBus.Vr

open PaxosBus.Common PaxosBus.Library
open Logic (Meets)

/-- An output in which the votes and the starts of views meet conditions. Votes go to another
replica, the leader of the view. -/
def Output.Sanctioned (setup : Setup) (votes : DoViewChangeMessage → Prop)
    (starts : StartViewMessage → Prop) : Output → Prop
  | .send dst (.doViewChange msg) =>
    dst = .one (.replica (setup.configuration.getLeaderIndex msg.view)) ∧
      setup.configuration.getLeaderIndex msg.view ≠ setup.replicaIdx ∧ votes msg
  | .send dst (.startView msg) => dst = .others ∧ starts msg
  | _ => True

/-- The logic of what handlers send in a view change. -/
def voteLogic (setup : Setup) (votes : DoViewChangeMessage → Prop)
    (starts : StartViewMessage → Prop) : Logic Unit Replica Output where
  Later _ _ := True
  refl _ := trivial
  trans _ _ := trivial
  Valid _ output := output.Sanctioned setup votes starts
  mono _ valid := valid
  Keeps _ _ := True

/-- The part of a replica's state that view changes depend on, except for the entries of the log. -/
structure Voting where
  status : Status
  view : Nat
  lastCommitted : Nat
  start : Nat
  startViewChangeQuorum : QuorumSet Nat StartViewChangeMessage
  doViewChangeQuorum : QuorumSet Nat DoViewChangeMessage

/-- What view changes depend on in a replica. -/
def Replica.voting (r : Replica) : Voting where
  status := r.status
  view := r.view
  lastCommitted := r.lastCommitted
  start := r.log.start
  startViewChangeQuorum := r.startViewChangeQuorum
  doViewChangeQuorum := r.doViewChangeQuorum

namespace Replica

/-- The replica has counted a `StartViewChange` for a view. -/
def Heard (r : Replica) (view : Nat) : Prop := 0 < (r.startViewChangeQuorum.messages view).size

instance (r : Replica) (view : Nat) : Decidable (r.Heard view) :=
  inferInstanceAs (Decidable (_ < _))

/-- The replica has joined the view changes that it has heard of. -/
def Joined (r : Replica) : Prop := ∀ view, r.Heard view → view ≤ r.view

/-- What a replica does not take back while it keeps its state. A vote that it holds afterwards is
one that it held before, or one it has received. -/
structure Onward (received : DoViewChangeMessage → Prop) (r r' : Replica) : Prop where
  start : r'.log.start = r.log.start
  awake : r.status ≠ .recovering → r'.status ≠ .recovering
  committed : r.lastCommitted ≤ r'.lastCommitted
  attends : ∀ view, r'.Attends view → r.Attends view
  joined : r.Joined → r'.Joined
  heard : r.Joined → ∀ view, r'.Attends view → r.Heard view → r'.Heard view
  votes : ∀ (view replicaIdx : Nat) (msg : DoViewChangeMessage),
    (r'.doViewChangeQuorum.messages view)[replicaIdx]? = some msg →
      (r.doViewChangeQuorum.messages view)[replicaIdx]? = some msg ∨
        received msg ∧ msg.view = view

variable {received : DoViewChangeMessage → Prop} {r r' r'' : Replica}

/-- What view changes do not depend on may change. -/
theorem Onward.of_same (same : r'.voting = r.voting) : r.Onward received r' := by
  have status : r'.status = r.status := congrArg Voting.status same
  have view : r'.view = r.view := congrArg Voting.view same
  have counted : r'.startViewChangeQuorum = r.startViewChangeQuorum :=
    congrArg Voting.startViewChangeQuorum same
  have collected : r'.doViewChangeQuorum = r.doViewChangeQuorum :=
    congrArg Voting.doViewChangeQuorum same
  have committed : r'.lastCommitted = r.lastCommitted := congrArg Voting.lastCommitted same
  refine ⟨congrArg Voting.start same, ?_, committed.ge, ?_, ?_, ?_, ?_⟩
  · rw [status]
    exact id
  · intro other attends
    unfold Attends at attends ⊢
    rwa [status, view] at attends
  · unfold Joined Heard
    rw [counted, view]
    exact id
  · intro _ other _ heard
    unfold Heard at heard ⊢
    rwa [counted]
  · intro other replicaIdx msg found
    rw [collected] at found
    exact .inl found

theorem Onward.refl (r : Replica) : r.Onward received r := .of_same rfl

/-- Going onward twice is going onward. -/
theorem Onward.trans (first : r.Onward received r') (second : r'.Onward received r'') :
    r.Onward received r'' where
  start := second.start.trans first.start
  awake := second.awake ∘ first.awake
  committed := first.committed.trans second.committed
  attends view attends := first.attends view (second.attends view attends)
  joined := second.joined ∘ first.joined
  heard joined view attends heard :=
    second.heard (first.joined joined) view attends
      (first.heard joined view (second.attends view attends) heard)
  votes view replicaIdx msg found := by
    rcases second.votes view replicaIdx msg found with before | new
    · exact first.votes view replicaIdx msg before
    · exact .inr new

/-- Entering a view that is not before one's own. -/
theorem Onward.enterView {setup : Setup} {newview : Nat} (later : r.view ≤ newview) :
    r.Onward received (r.enterView setup newview) where
  start := rfl
  awake _ := nofun
  committed := Nat.le_refl _
  attends view attends := by
    rcases attends with before | ⟨-, changing⟩
    · exact .inl (Nat.lt_of_le_of_lt later before)
    · cases changing
  joined _ view heard := by
    unfold Heard at heard
    simp [Replica.enterView, QuorumSet.clear] at heard
  heard joined view attends heard := by
    rcases attends with before | ⟨-, changing⟩
    · have inView := joined view heard
      have after : newview < view := before
      omega
    · cases changing
  votes view replicaIdx msg found := by
    simp [Replica.enterView, QuorumSet.clear] at found

end Replica

variable {setup : Setup} {votes : DoViewChangeMessage → Prop} {starts : StartViewMessage → Prop}
  {received : DoViewChangeMessage → Prop} {r : Replica} {app : App} {undefined : Undefined}

/-- What a handler sends is sanctioned, and where it returns the replica has gone onward. -/
abbrev Proceeds {α : Type} (setup : Setup) (votes : DoViewChangeMessage → Prop)
    (starts : StartViewMessage → Prop) (received : DoViewChangeMessage → Prop) (handler : Run α)
    (r : Replica) : Prop :=
  (voteLogic setup votes starts).Meets handler () r fun _ _ r' => r.Onward received r'

/-- A handler that sends nothing of a view change leaves what view changes depend on alone. -/
abbrev Rests {α : Type} (setup : Setup) (votes : DoViewChangeMessage → Prop)
    (starts : StartViewMessage → Prop) (handler : Run α) (r : Replica) : Prop :=
  (voteLogic setup votes starts).Meets handler () r fun _ _ r' => r'.voting = r.voting

section Rules

/-- What rests goes onward. -/
theorem Rests.proceeds {α : Type} {handler : Run α} (rests : Rests setup votes starts handler r) :
    Proceeds setup votes starts received handler r :=
  rests.imp fun _ _ _ _ same => .of_same same

theorem rests_return {α : Type} {value : α} : Rests setup votes starts (pure value) r :=
  .pure trivial rfl

/-- What view changes do not depend on may change. -/
theorem rests_modify {change : Replica → Replica} (same : (change r).voting = r.voting) :
    Rests setup votes starts (Handler.modify change) r :=
  .change trivial same

/-- An output that is sanctioned. -/
theorem rests_emit {output : Output} (sanctioned : output.Sanctioned setup votes starts) :
    Rests setup votes starts (Handler.emit output) r :=
  .emit trivial sanctioned rfl

/-- What leaves everything alone, followed by what does. -/
theorem rests_seq {α β : Type} {first : Run β} {next : β → Run α}
    (before : Rests setup votes starts first r)
    (after : ∀ value r', r'.voting = r.voting → Rests setup votes starts (next value) r') :
    Rests setup votes starts (first >>= next) r := by
  apply Meets.bind
  apply before.imp
  intro value _ r' _ same _
  apply (after value r' same).imp
  intro _ _ _ _ same'
  exact same'.trans same

/-- Two parts that go onward, one after the other, where the second may rely on what the first has
left. -/
theorem proceeds_seq {α β : Type} {first : Run β} {next : β → Run α}
    (before : Proceeds setup votes starts received first r)
    (after : ∀ value r', r.Onward received r' →
      Proceeds setup votes starts received (next value) r') :
    Proceeds setup votes starts received (first >>= next) r := by
  apply Meets.bind
  apply before.imp
  intro value _ r' _ onward _
  apply (after value r' onward).imp
  intro _ _ _ _ onward'
  exact onward.trans onward'

/-- What proceeds from where the replica has gone onward to. -/
theorem Replica.Onward.proceed {α : Type} {handler : Run α} {r' : Replica}
    (onward : r.Onward received r') (rest : Proceeds setup votes starts received handler r') :
    (voteLogic setup votes starts).Meets handler () r' fun _ _ r'' => r.Onward received r'' :=
  rest.imp fun _ _ _ _ onward' => onward.trans onward'

/-- A change that goes onward, and the rest. -/
theorem modify_proceeds {α : Type} {change : Replica → Replica} {next : Unit → Run α}
    (onward : r.Onward received (change r))
    (rest : Proceeds setup votes starts received (next ()) (change r)) :
    Proceeds setup votes starts received (Handler.modify change >>= next) r :=
  Meets.bind (.change trivial fun _ => onward.proceed rest)

/-- Reading the state and asserting something do nothing. -/
theorem get_rests {α : Type} {next : Replica → Run α} (rest : Rests setup votes starts (next r) r) :
    Rests setup votes starts (Handler.get >>= next) r :=
  Meets.bind (.get trivial fun _ => rest)

theorem get_proceeds {α : Type} {next : Replica → Run α}
    (rest : Proceeds setup votes starts received (next r) r) :
    Proceeds setup votes starts received (Handler.get >>= next) r :=
  Meets.bind (.get trivial fun _ => rest)

theorem require_rests {α : Type} {condition : Prop} [Decidable condition] {next : Unit → Run α}
    (rest : condition → Rests setup votes starts (next ()) r) :
    Rests setup votes starts (Handler.require condition >>= next) r :=
  Meets.bind (.require trivial fun holds _ => rest holds)

/-- A failed assertion ends the handler, and nothing has been taken back. -/
theorem require_proceeds {α : Type} {condition : Prop} [Decidable condition] {next : Unit → Run α}
    (rest : condition → Proceeds setup votes starts received (next ()) r) :
    Proceeds setup votes starts received (Handler.require condition >>= next) r :=
  Meets.bind (.require trivial fun holds _ => rest holds)

theorem demand_rests {α β : Type} {found : Option β} {next : β → Run α}
    (rest : ∀ value, found = some value → Rests setup votes starts (next value) r) :
    Rests setup votes starts (Handler.demand found >>= next) r :=
  Meets.bind (.demand trivial fun value there _ => rest value there)

/-- A loop of parts that rest. -/
theorem rests_forEach {α : Type} {items : List α} {body : α → Run Unit}
    (step : ∀ item r', Rests setup votes starts (body item) r') :
    Rests setup votes starts (Handler.forEach items body) r := by
  refine Meets.forEach (fun _ (r' : Replica) => r'.voting = r.voting) ?_ trivial rfl
  intro item _ _ r' _ same
  apply (step item r').imp
  intro _ _ _ _ same'
  exact same'.trans same

/-- A loop of parts that go onward. -/
theorem proceeds_forEach {α : Type} {items : List α} {body : α → Run Unit}
    (step : ∀ item r', Proceeds setup votes starts received (body item) r') :
    Proceeds setup votes starts received (Handler.forEach items body) r := by
  refine Meets.forEach (fun _ r' => r.Onward received r') ?_ trivial (.refl r)
  intro item _ _ r' _ onward
  apply (step item r').imp
  intro _ _ _ _ onward'
  exact onward.trans onward'

/-- What puts nothing out sends nothing of a view change. -/
theorem of_silent {α : Type} {handler : Run α} {Local : α → Replica → Prop}
    (silent : (Logic.silent Replica Output).Meets handler () r fun value _ => Local value) :
    (voteLogic setup votes starts).Meets handler () r fun value _ => Local value := by
  obtain ⟨final, -, none_, -, post⟩ := silent
  exact ⟨(), trivial, fun output member => (none_ output member).elim, trivial, post⟩

end Rules

/-! ## Handlers that leave view changes alone -/

section Resting

/-- The client table is no part of a vote. -/
theorem updateClientTable_rests {req : Request} :
    Rests setup votes starts (updateClientTable req) r := by
  apply get_rests
  apply require_rests
  intro _
  exact Meets.branch (fun _ => rests_modify rfl) fun _ => rests_modify rfl

/-- A state transfer is asked for at most once for each gap, and votes are not affected. -/
theorem requestStateTransfer_rests : Rests setup votes starts requestStateTransfer r := by
  apply get_rests
  apply Meets.branch (fun _ => rests_return)
  intro _
  exact rests_seq (rests_modify rfl) fun _ _ _ => rests_emit trivial

/-- The operations that have been appended are acknowledged to the leader. -/
theorem sendPrepareOKs_rests {oldLastOp : Nat} :
    Rests setup votes starts (sendPrepareOKs setup oldLastOp) r := by
  apply get_rests
  apply rests_forEach
  intro i r'
  apply get_rests
  apply Meets.branch (fun _ => rests_return)
  intro _
  apply demand_rests
  intro entry _
  apply require_rests
  intro _
  exact rests_seq updateClientTable_rests fun _ _ _ => rests_emit trivial

/-- A batch is sent out, and no view changes. -/
theorem closeBatch_rests : Rests setup votes starts (closeBatch setup) r := by
  apply get_rests
  apply require_rests
  intro _
  apply require_rests
  intro _
  apply demand_rests
  intro _ _
  apply rests_seq (rests_modify rfl)
  intro _ _ _
  apply rests_seq (rests_emit (by trivial))
  exact fun _ _ _ => rests_modify rfl

/-- A leader that accepts a request appends it to its log. -/
theorem acceptRequest_rests {remote : Address} {msg : RequestMessage} :
    Rests setup votes starts (acceptRequest setup app remote msg) r := by
  apply rests_seq updateClientTable_rests
  intro _ r1 _
  apply get_rests
  dsimp only
  apply Meets.branch
  · exact fun _ => rests_seq (rests_modify rfl) fun _ _ _ => rests_emit trivial
  · intro _
    apply demand_rests
    intro log appended
    have start := (Log.of_append appended).2.1
    apply rests_seq
    · apply rests_modify
      unfold Replica.voting
      rw [start]
    intro _ _ _
    apply get_rests
    apply Meets.branch
    · exact fun _ => rests_seq closeBatch_rests fun _ _ _ => rests_modify rfl
    · exact fun _ => rests_seq (rests_modify rfl) fun _ _ _ => rests_modify rfl

/-- A request is dropped, answered again, or accepted. -/
theorem handleRequest_rests {remote : Address} {msg : RequestMessage} :
    Rests setup votes starts (handleRequest setup app remote msg) r := by
  apply get_rests
  apply Meets.branch (fun _ => rests_return)
  intro _
  apply Meets.branch (fun _ => rests_return)
  intro _
  apply rests_seq (rests_modify rfl)
  intro _ _ _
  split
  · exact acceptRequest_rests
  · apply Meets.branch (fun _ => rests_return)
    intro _
    apply Meets.branch
    · exact fun _ => .branch (fun _ => rests_emit trivial) fun _ => rests_return
    · exact fun _ => acceptRequest_rests

/-- An unlogged request is executed and answered. -/
theorem handleUnloggedRequest_rests {remote : Address} {msg : UnloggedRequestMessage} :
    Rests setup votes starts (handleUnloggedRequest app remote msg) r := by
  apply get_rests
  exact Meets.branch (fun _ => rests_return) fun _ => rests_emit trivial

/-- What is appended comes after what the log starts with. -/
theorem appendRequests_rests {view op : Nat} {requests : List Request} :
    Rests setup votes starts (appendRequests view op requests) r := by
  induction requests generalizing r op with
  | nil => exact rests_return
  | cons req rest inductionHypothesis =>
      apply get_rests
      apply Meets.branch (fun _ => inductionHypothesis)
      intro _
      apply demand_rests
      intro log appended
      have start := (Log.of_append appended).2.1
      apply rests_seq
      · apply rests_modify
        unfold Replica.voting
        rw [start]
      intro _ _ _
      exact rests_seq updateClientTable_rests fun _ _ _ => inductionHypothesis

/-- A follower appends the batch, or asks for a state transfer if something is missing. -/
theorem handlePrepare_rests {remote : Address} {msg : PrepareMessage} :
    Rests setup votes starts (handlePrepare setup remote msg) r := by
  have postpone : ∀ {r : Replica}, Rests setup votes starts (do
      requestStateTransfer
      Handler.modify fun r => { r with pendingPrepares := r.pendingPrepares ++ [(remote, msg)] })
      r := rests_seq requestStateTransfer_rests fun _ _ _ => rests_modify rfl
  apply get_rests
  apply Meets.branch (fun _ => rests_return)
  intro _
  apply Meets.branch (fun _ => rests_return)
  intro _
  apply Meets.branch (fun _ => postpone)
  intro _
  apply require_rests
  intro _
  apply require_rests
  intro _
  apply require_rests
  intro _
  apply rests_seq (rests_modify rfl)
  intro _ _ _
  apply Meets.branch (fun _ => rests_emit (by trivial))
  intro _
  apply Meets.branch (fun _ => postpone)
  intro _
  apply rests_seq appendRequests_rests
  intro _ _ _
  apply require_rests
  exact fun _ => rests_emit trivial

/-- What is prepared is marked for the history, which is no message. -/
theorem markPrepared_rests {msg : PrepareOKMessage} {msgs : Std.TreeMap Nat PrepareOKMessage} :
    Rests setup votes starts (markPrepared setup msg msgs) r := by
  apply get_rests
  exact Meets.branch (fun _ => rests_emit trivial) fun _ => rests_return

/-- The entries that are asked for are sent. -/
theorem handleRequestStateTransfer_rests {remote : Address} {msg : RequestStateTransferMessage} :
    Rests setup votes starts (handleRequestStateTransfer remote msg) r := by
  apply get_rests
  apply Meets.branch (fun _ => rests_return)
  intro _
  exact Meets.branch (fun _ => requestStateTransfer_rests) fun _ => rests_emit trivial

/-- A replica in its normal status tells a recovering one of its log. -/
theorem handleRecovery_rests {remote : Address} {msg : RecoveryMessage} :
    Rests setup votes starts (handleRecovery setup remote msg) r := by
  apply get_rests
  apply Meets.branch (fun _ => rests_return)
  intro _
  exact Meets.branch (fun _ => rests_emit trivial) fun _ => rests_emit trivial

end Resting

/-! ## Handlers that commit -/

section Committing

/-- Storing a reply changes the client table alone. -/
theorem voting_storeReply (r : Replica) (request : Request) (reply : ReplyMessage) :
    (r.storeReply request reply).voting = r.voting := by
  unfold Replica.storeReply
  split <;> rfl

/-- Of what view changes depend on, only the commit point may have moved up. -/
def Replica.Commits (r r' : Replica) : Prop :=
  r.lastCommitted ≤ r'.lastCommitted ∧
    r'.voting = { r.voting with lastCommitted := r'.lastCommitted }

/-- What leaves voting alone commits nothing. -/
theorem Replica.Commits.of_same {r' : Replica} (same : r'.voting = r.voting) : r.Commits r' := by
  have committed : r'.lastCommitted = r.lastCommitted := congrArg Voting.lastCommitted same
  refine ⟨committed.ge, ?_⟩
  rw [same, committed]
  rfl

/-- Committing twice is committing. -/
theorem Replica.Commits.trans {r' r'' : Replica} (first : r.Commits r') (second : r'.Commits r'') :
    r.Commits r'' := by
  refine ⟨first.1.trans second.1, ?_⟩
  rw [second.2, first.2]

/-- Committing takes nothing back. -/
theorem Replica.Commits.onward {r' : Replica} (commits : r.Commits r') : r.Onward received r' := by
  obtain ⟨committed, same⟩ := commits
  have raised : r.Onward received { r with lastCommitted := r'.lastCommitted } :=
    { Replica.Onward.refl r with committed := committed }
  exact raised.trans (.of_same same)

/-- Committing moves the commit point up. -/
theorem commitNext_commits :
    (voteLogic setup votes starts).Meets (commitNext app) () r fun _ _ r' => r.Commits r' := by
  apply Meets.bind
  refine .change trivial fun _ => ?_
  have raised : r.Commits { r with lastCommitted := r.lastCommitted + 1 } := ⟨Nat.le_succ _, rfl⟩
  refine Meets.imp (?rests : Rests setup votes starts _ _) ?_
  · apply get_rests
    apply demand_rests
    intro entry _
    apply rests_seq (rests_emit (by trivial))
    intro _ _ _
    apply rests_seq
    · apply rests_modify
      unfold Replica.voting
      rw [Log.start_setStatus]
    intro _ _ _
    apply rests_seq
    · exact rests_modify (voting_storeReply _ _ _)
    intro _ _ _
    split
    · exact rests_emit (by trivial)
    · exact rests_return
  · intro _ _ _ _ same
    exact raised.trans (.of_same same)

/-- Only the number of the last committed operation rises. -/
theorem commitUpTo_commits {upto : Nat} :
    (voteLogic setup votes starts).Meets (commitUpTo app upto) () r fun _ _ r' => r.Commits r' := by
  apply Meets.bind
  refine .get trivial fun _ => ?_
  refine Meets.repeated (fun _ _ r' => r.Commits r') ?_ trivial (.of_same rfl)
  intro _ _ r' _ commits
  apply commitNext_commits.imp
  intro _ _ _ _ commits'
  exact commits.trans commits'

/-- Committing goes onward. -/
theorem commitUpTo_proceeds {upto : Nat} :
    Proceeds setup votes starts received (commitUpTo app upto) r :=
  commitUpTo_commits.imp fun _ _ _ _ commits => commits.onward

/-- The leader commits what is prepared, tells the others, and closes the next batch. -/
theorem commitPrepared_proceeds {msg : PrepareOKMessage}
    {msgs : Std.TreeMap Nat PrepareOKMessage} :
    Proceeds setup votes starts received (commitPrepared setup app msg msgs) r := by
  apply proceeds_seq markPrepared_rests.proceeds
  intro _ _ _
  apply proceeds_seq commitUpTo_proceeds
  intro _ _ _
  apply Meets.branch (fun _ => rests_return.proceeds)
  intro _
  apply get_proceeds
  apply proceeds_seq (rests_emit (by trivial)).proceeds
  intro _ _ _
  apply proceeds_seq (rests_modify rfl).proceeds
  intro _ _ _
  apply Meets.branch
  · intro _
    apply proceeds_seq (rests_modify rfl).proceeds
    intro _ _ _
    exact Meets.branch (fun _ => closeBatch_rests.proceeds) fun _ => rests_return.proceeds
  · exact fun _ => rests_return.proceeds

/-- The leader counts the `PrepareOK`, and commits with a quorum. -/
theorem handlePrepareOK_proceeds {msg : PrepareOKMessage} :
    Proceeds setup votes starts received (handlePrepareOK setup app msg) r := by
  apply get_proceeds
  apply Meets.branch (fun _ => rests_return.proceeds)
  intro _
  apply Meets.branch (fun _ => rests_return.proceeds)
  intro _
  apply Meets.branch (fun _ => requestStateTransfer_rests.proceeds)
  intro _
  apply Meets.branch (fun _ => rests_return.proceeds)
  intro _
  apply proceeds_seq (rests_modify rfl).proceeds
  intro _ _ _
  split
  · exact rests_return.proceeds
  · exact commitPrepared_proceeds

/-- A follower commits what the leader has, as far as its log goes. -/
theorem handleCommit_proceeds {msg : CommitMessage} :
    Proceeds setup votes starts received (handleCommit setup app msg) r := by
  apply get_proceeds
  apply Meets.branch (fun _ => rests_return.proceeds)
  intro _
  apply Meets.branch (fun _ => rests_return.proceeds)
  intro _
  apply Meets.branch (fun _ => requestStateTransfer_rests.proceeds)
  intro _
  apply require_proceeds
  intro _
  apply proceeds_seq (rests_modify rfl).proceeds
  intro _ _ _
  apply Meets.branch (fun _ => rests_return.proceeds)
  intro _
  exact Meets.branch (fun _ => requestStateTransfer_rests.proceeds) fun _ => commitUpTo_proceeds

/-- With the entries in its log a follower acknowledges and commits them. -/
theorem completeTransfer_proceeds {msg : StateTransferMessage} {oldLastOp : Nat} :
    Proceeds setup votes starts received (completeTransfer setup app msg oldLastOp) r := by
  apply get_proceeds
  apply require_proceeds
  intro _
  apply proceeds_seq commitUpTo_proceeds
  intro _ _ _
  apply proceeds_seq sendPrepareOKs_rests.proceeds
  intro _ _ _
  apply get_proceeds
  apply proceeds_seq (rests_modify rfl).proceeds
  intro _ _ _
  exact proceeds_forEach fun _ _ => handlePrepare_rests.proceeds

/-- Another log with the same start is no other vote. -/
theorem Replica.Relogs.voting {r' : Replica} (relogs : r.Relogs r') : r'.voting = r.voting := by
  obtain ⟨log, lastOp, start, rfl⟩ := relogs
  unfold Replica.voting
  rw [start]

/-- A transfer of a later view makes the replica enter it first. -/
theorem handleStateTransfer_proceeds {msg : StateTransferMessage} :
    Proceeds setup votes starts received (handleStateTransfer setup app msg) r := by
  apply get_proceeds
  apply Meets.branch (fun _ => rests_return.proceeds)
  intro _
  apply Meets.bind
  apply (of_silent transferEntries_silent).imp
  intro oldLastOp _ r1 _ relogs _
  have same := relogs.voting
  have completes : Proceeds setup votes starts received (if r.view < msg.view then do
      Handler.modify (·.enterView setup msg.view)
      completeTransfer setup app msg oldLastOp
    else completeTransfer setup app msg oldLastOp) r1 := by
    apply Meets.branch
    · intro later
      have view : r1.view = r.view := congrArg Voting.view same
      apply Meets.bind
      refine .change trivial fun _ => ?_
      apply completeTransfer_proceeds.imp
      intro _ _ r2 _ onward
      exact (Replica.Onward.enterView (view.symm ▸ later.le)).trans onward
    · exact fun _ => completeTransfer_proceeds
  apply completes.imp
  intro _ _ _ _ onward
  exact (Replica.Onward.of_same same).trans onward

end Committing

end PaxosBus.Vr

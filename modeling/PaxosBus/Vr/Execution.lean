import PaxosBus.Library.Trace
import PaxosBus.Vr.Safety

/-!
# Which requests a replica executes

A replica executes operation numbers in increasing order, each once. That it
executes no request twice takes more: no log may hold a request at two numbers,
which is up to the leaders, who keep a request out only if their client table
knows it.
-/

set_option autoImplicit false

namespace PaxosBus.Vr

open PaxosBus.Common PaxosBus.Library World

/-! ## Each operation number once -/

/-- The operation numbers that some outputs execute. -/
def opnums (outputs : List Output) : List Nat := (outputs.filterMap Output.execution).map Prod.fst

/-- Operation numbers are executed in increasing order, after the last committed one and up to the
new last committed one. -/
def counting : Trace Replica Output where
  Rel r outputs r' := r.lastCommitted ≤ r'.lastCommitted ∧ (opnums outputs).Pairwise (· < ·) ∧
    ∀ opnum ∈ opnums outputs, r.lastCommitted < opnum ∧ opnum ≤ r'.lastCommitted
  refl r := ⟨Nat.le_refl _, .nil, fun _ none_ => nomatch none_⟩
  trans := by
    rintro first middle last outputs more ⟨le, ordered, bounds⟩ ⟨le', ordered', bounds'⟩
    have joined : opnums (outputs ++ more) = opnums outputs ++ opnums more := by
      simp [opnums]
    rw [joined]
    refine ⟨le.trans le', List.pairwise_append.mpr ⟨ordered, ordered', ?_⟩, ?_⟩
    · intro opnum before opnum' after
      exact (bounds opnum before).2.trans_lt (bounds' opnum' after).1
    · intro opnum inJoined
      rcases List.mem_append.mp inJoined with before | after
      · obtain ⟨above, below⟩ := bounds opnum before
        exact ⟨above, below.trans le'⟩
      · obtain ⟨above, below⟩ := bounds' opnum after
        exact ⟨le.trans_lt above, below⟩

/-- A change that commits nothing. -/
theorem counting_of_same {r r' : Replica} (same : r'.lastCommitted = r.lastCommitted) :
    counting.Rel r [] r' :=
  ⟨same.ge, .nil, fun _ none_ => nomatch none_⟩

/-- An output that executes nothing. -/
theorem counting_of_silent {output : Output} (silent : output.execution = none) (r : Replica) :
    counting.Rel r [output] r := by
  have none_ : opnums [output] = [] := by
    simp [opnums, silent]
  refine ⟨Nat.le_refl _, ?_, ?_⟩
  · rw [none_]
    exact .nil
  · rw [none_]
    exact fun _ none_ => nomatch none_

/-- A handler that executes operation numbers in order. -/
abbrev Counts {α : Type} (handler : Run α) : Prop := counting.Covers handler

namespace Counts

open Trace.Covers

variable {setup : Setup} {app : App} {undefined : Undefined}

/-- A change that commits nothing executes nothing. -/
theorem modify {change : Replica → Replica}
    (same : ∀ r, (change r).lastCommitted = r.lastCommitted) : Counts (Handler.modify change) :=
  Trace.Covers.modify fun r => counting_of_same (same r)

/-- A message is no execution. -/
theorem send (dst : Destination) (msg : Message) : Counts (Handler.emit (.send dst msg)) :=
  Trace.Covers.emit fun r => counting_of_silent rfl r

/-- A note in the client table is no execution. -/
theorem updateClientTable (req : Request) : Counts (updateClientTable req) := by
  unfold Vr.updateClientTable
  refine .bind .get fun r => .bind (.require _) fun _ => ?_
  exact .branch (modify fun _ => rfl) (modify fun _ => rfl)

/-- Asking for a state transfer executes nothing. -/
theorem requestStateTransfer : Counts requestStateTransfer := by
  unfold Vr.requestStateTransfer
  refine .bind .get fun r => .branch (.pure _) ?_
  exact .bind (modify fun _ => rfl) fun _ => send _ _

/-- Storing the reply of an execution commits nothing more. -/
@[simp] theorem lastCommitted_storeReply (r : Replica) (request : Request) (reply : ReplyMessage) :
    (r.storeReply request reply).lastCommitted = r.lastCommitted := by
  unfold Replica.storeReply
  split <;> rfl

/-- The next operation number is executed, unless its entry is missing. -/
theorem commitNext : Counts (commitNext app) := by
  intro r
  -- The number is raised first, so that the two are related only together.
  have raised : ∀ request, counting.Rel r ([] ++ [.execute (r.lastCommitted + 1) request])
      { r with lastCommitted := r.lastCommitted + 1 } := by
    intro request
    refine ⟨Nat.le_succ _, List.pairwise_singleton _ _, fun opnum single => ?_⟩
    obtain rfl : opnum = r.lastCommitted + 1 := List.mem_singleton.mp single
    exact ⟨Nat.lt_succ_self _, Nat.le_refl _⟩
  change counting.From r [] (Vr.commitNext app) r
  unfold Vr.commitNext
  refine .modify (.get (.demand ⟨Nat.le_succ _, .nil, fun _ none_ => nomatch none_⟩ fun entry =>
    .emit (.covers ?_ (raised entry.request))))
  refine .bind (modify fun _ => rfl) fun _ => .bind (modify fun _ => ?_) fun _ => ?_
  · exact lastCommitted_storeReply _ _ _
  · split
    next => exact send _ _
    next => exact .pure _

/-- The rounds count on from the last committed operation. -/
theorem commitUpTo (upto : Nat) : Counts (commitUpTo app upto) := by
  unfold Vr.commitUpTo
  exact .bind .get fun r => .repeated commitNext

/-- Acknowledging executes nothing. -/
theorem sendPrepareOKs (oldLastOp : Nat) : Counts (sendPrepareOKs setup oldLastOp) := by
  unfold Vr.sendPrepareOKs
  refine .bind .get fun r => .forEach fun i => ?_
  unfold sendPrepareOK
  refine .bind .get fun r => .branch (.pure _) ?_
  refine .bind (.demand _) fun entry => .bind (.require _) fun _ => ?_
  exact .bind (updateClientTable _) fun _ => send _ _

/-- A view change commits nothing. -/
theorem startViewChange (newview : Nat) : Counts (startViewChange setup newview) := by
  unfold Vr.startViewChange
  exact .bind (modify fun _ => rfl) fun _ => .bind .get fun r => send _ _

/-- Closing a batch executes nothing, committed or not. -/
theorem closeBatch : Counts (closeBatch setup) := by
  unfold Vr.closeBatch
  refine .bind .get fun r => .bind (.require _) fun _ => .bind (.require _) fun _ => ?_
  refine .bind (.demand _) fun requests => .bind (modify fun _ => rfl) fun _ => ?_
  exact .bind (send _ _) fun _ => modify fun _ => rfl

/-- A request that is accepted waits to be committed. -/
theorem acceptRequest (remote : Address) (msg : RequestMessage) :
    Counts (acceptRequest setup app remote msg) := by
  unfold Vr.acceptRequest
  refine .bind (updateClientTable _) fun _ => .bind .get fun r => .branch ?_ ?_
  · exact .bind (modify fun _ => rfl) fun _ => send _ _
  · refine .bind (.demand _) fun log => .bind (modify fun _ => rfl) fun _ => ?_
    refine .bind .get fun r => .branch (.bind closeBatch fun _ => modify fun _ => rfl) ?_
    exact .bind (modify fun _ => rfl) fun _ => modify fun _ => rfl

/-- A request that has been executed is answered from the client table. -/
theorem handleRequest (remote : Address) (msg : RequestMessage) :
    Counts (handleRequest setup app remote msg) := by
  unfold Vr.handleRequest
  refine .bind .get fun r => .branch (.pure _) (.branch (.pure _) ?_)
  refine .bind (modify fun _ => rfl) fun _ => ?_
  split
  next => exact acceptRequest _ _
  next => exact .branch (.pure _) (.branch (.branch (send _ _) (.pure _)) (acceptRequest _ _))

/-- Appending is not committing. -/
theorem appendRequests (view op : Nat) (requests : List Request) :
    Counts (appendRequests view op requests) := by
  induction requests generalizing op with
  | nil => exact .pure _
  | cons req rest inductionHypothesis =>
      unfold Vr.appendRequests
      refine .bind .get fun r => .branch (inductionHypothesis _) (.bind (.demand _) fun log => ?_)
      refine .bind (modify fun _ => rfl) fun _ => .bind (updateClientTable _) fun _ => ?_
      exact inductionHypothesis _

/-- A follower appends what is prepared, and leaves it to the next `Commit`. -/
theorem handlePrepare (remote : Address) (msg : PrepareMessage) :
    Counts (handlePrepare setup remote msg) := by
  have postponed : Counts (do
      Vr.requestStateTransfer
      Handler.modify fun r =>
        { r with pendingPrepares := r.pendingPrepares ++ [(remote, msg)] }) :=
    .bind requestStateTransfer fun _ => modify fun _ => rfl
  unfold Vr.handlePrepare
  refine .bind .get fun r => .branch (.pure _) (.branch (.pure _) (.branch postponed ?_))
  refine .bind (.require _) fun _ => .bind (.require _) fun _ => .bind (.require _) fun _ => ?_
  refine .bind (modify fun _ => rfl) fun _ => .branch (send _ _) (.branch postponed ?_)
  exact .bind (appendRequests _ _ _) fun next => .bind (.require _) fun _ => send _ _

/-- With a quorum of `PrepareOK`s the leader executes what it commits. -/
theorem handlePrepareOK (msg : PrepareOKMessage) : Counts (handlePrepareOK setup app msg) := by
  unfold Vr.handlePrepareOK
  refine .bind .get fun r => .branch (.pure _) (.branch (.pure _) (.branch ?_ (.branch ?_ ?_)))
  · exact requestStateTransfer
  · exact .pure _
  refine .bind (modify fun _ => rfl) fun _ => ?_
  split
  next => exact .pure _
  next msgs _ =>
      unfold commitPrepared markPrepared
      refine .bind (.bind .get fun r => .branch ?_ (.pure _)) fun _ => ?_
      · exact Trace.Covers.emit fun r => counting_of_silent rfl r
      refine .bind (commitUpTo _) fun _ => .branch (.pure _) (.bind .get fun r => ?_)
      refine .bind (send _ _) fun _ => .bind (modify fun _ => rfl) fun _ => .branch ?_ (.pure _)
      exact .bind (modify fun _ => rfl) fun _ => .branch closeBatch (.pure _)

/-- A follower executes what the leader has committed. -/
theorem handleCommit (msg : CommitMessage) : Counts (handleCommit setup app msg) := by
  unfold Vr.handleCommit
  refine .bind .get fun r => .branch (.pure _) (.branch (.pure _) (.branch ?_ ?_))
  · exact requestStateTransfer
  refine .bind (.require _) fun _ => .bind (modify fun _ => rfl) fun _ => .branch (.pure _) ?_
  exact .branch requestStateTransfer (commitUpTo _)

/-- Sending entries executes nothing. -/
theorem handleRequestStateTransfer (remote : Address) (msg : RequestStateTransferMessage) :
    Counts (handleRequestStateTransfer remote msg) := by
  unfold Vr.handleRequestStateTransfer
  exact .bind .get fun r => .branch (.pure _) (.branch requestStateTransfer (send _ _))

/-- An entry that is transferred replaces another one only after the last committed operation. -/
theorem transferEntry (oldLastOp : Nat) (entry : Entry) :
    Counts (transferEntry oldLastOp entry) := by
  unfold Vr.transferEntry
  refine .bind .get fun r => .branch (.pure _) (.branch (.bind (.demand _) fun mine => ?_) ?_)
  · refine .bind (.require _) fun _ => .bind (.require _) fun _ => .branch ?_ ?_
    · exact .bind (.require _) fun _ => .pure _
    · refine .bind (.require _) fun _ => .bind (.demand _) fun cut => .bind (.demand _) fun log => ?_
      exact .bind (modify fun _ => rfl) fun _ => .pure _
  · refine .bind (.require _) fun _ => .bind (.demand _) fun log => ?_
    exact .bind (modify fun _ => rfl) fun _ => .pure _

/-- The entries of a transfer are put into the log before any of them is executed. -/
theorem transferEntries (oldLastOp : Nat) (entries : List Entry) :
    Counts (transferEntries oldLastOp entries) := by
  induction entries generalizing oldLastOp with
  | nil => exact .pure _
  | cons entry rest inductionHypothesis =>
      exact .bind (transferEntry _ _) fun oldLastOp => inductionHypothesis oldLastOp

/-- What a transfer brings is executed as far as the leader has committed it. -/
theorem handleStateTransfer (msg : StateTransferMessage) :
    Counts (handleStateTransfer setup app msg) := by
  have completed : ∀ oldLastOp, Counts (completeTransfer setup app msg oldLastOp) := by
    intro oldLastOp
    unfold completeTransfer
    refine .bind .get fun r => .bind (.require _) fun _ => .bind (commitUpTo _) fun _ => ?_
    refine .bind (sendPrepareOKs _) fun _ => .bind .get fun r => ?_
    exact .bind (modify fun _ => rfl) fun _ => .forEach fun pending => handlePrepare _ _
  unfold Vr.handleStateTransfer
  refine .bind .get fun r => .branch (.pure _) (.bind (transferEntries _ _) fun oldLastOp => ?_)
  exact .branch (.bind (modify fun _ => rfl) fun _ => completed _) (completed _)

/-- The vote that is sent says how far the replica has committed, and commits nothing. -/
theorem handleStartViewChange (msg : StartViewChangeMessage) :
    Counts (handleStartViewChange setup undefined msg) := by
  have counted : Counts (countStartViewChange setup undefined msg) := by
    unfold countStartViewChange
    refine .bind .get fun r => .bind (.require _) fun _ => .bind (modify fun _ => rfl) fun _ => ?_
    split
    next => exact .pure _
    next => exact .branch (.bind (modify fun _ => rfl) fun _ => send _ _) (.pure _)
  unfold Vr.handleStartViewChange
  refine .bind .get fun r => .branch (.pure _) (.branch (.pure _) (.branch ?_ counted))
  exact .bind (startViewChange _) fun _ => counted

/-- The new leader starts the view with its own log, and has committed nothing more. -/
theorem handleDoViewChange (msg : DoViewChangeMessage) :
    Counts (handleDoViewChange setup undefined.stopping msg) := by
  have led : ∀ msgs, Counts (becomeLeader setup undefined.stopping msg msgs) := by
    intro msgs
    unfold becomeLeader
    refine .bind .get fun r => ?_
    split
    next => exact .stop
    next =>
        refine .bind (modify fun _ => rfl) fun _ => .bind .get fun r => .bind (.require _) ?_
        refine fun _ => .bind (modify fun _ => rfl) fun _ => .bind ?_ fun _ => ?_
        · exact Trace.Covers.emit fun r => counting_of_silent rfl r
        · exact .bind .get fun r => send _ _
  have counted : Counts (countDoViewChange setup undefined.stopping msg) := by
    unfold countDoViewChange
    refine .bind (.require _) fun _ => .bind .get fun r => .bind (modify fun _ => rfl) fun _ => ?_
    split
    next => exact .pure _
    next => exact led _
  unfold Vr.handleDoViewChange
  refine .bind .get fun r => .branch (.pure _) (.branch (.pure _) (.branch ?_ counted))
  exact .bind (startViewChange _) fun _ => counted

/-- A follower executes what the new leader has committed. -/
theorem handleStartView (msg : StartViewMessage) : Counts (handleStartView setup app msg) := by
  have installed : Counts (installStartView msg) := by
    unfold installStartView
    refine .bind .get fun r => ?_
    split
    next => exact .bind (.require _) fun _ => .require _
    next =>
        refine .bind (.require _) fun _ => .bind (.demand _) fun cut => ?_
        exact .bind (.demand _) fun log => modify fun _ => rfl
  unfold Vr.handleStartView
  refine .bind .get fun r => .branch (.pure _) (.branch (.pure _) (.bind (.require _) fun _ => ?_))
  refine .bind installed fun _ => .bind (modify fun _ => rfl) fun _ => ?_
  refine .bind (modify fun _ => rfl) fun _ => .bind .get fun r => .bind (.require _) fun _ => ?_
  exact .bind (commitUpTo _) fun _ => sendPrepareOKs _

/-- The log of the leader is installed and not executed: the handler stops where what it reads is
gone. -/
theorem handleRecoveryResponse (msg : RecoveryResponseMessage) :
    Counts (handleRecoveryResponse setup undefined.stopping msg) := by
  unfold Vr.handleRecoveryResponse
  refine .bind .get fun r => .branch (.pure _) (.branch (.pure _) ?_)
  refine .bind (modify fun _ => rfl) fun _ => ?_
  split
  next => exact .pure _
  next =>
      refine .bind (.require _) fun _ => ?_
      split
      next => exact .pure _
      next =>
          refine .branch (.pure _) ?_
          unfold completeRecovery
          refine .bind .get fun r => .bind (.demand _) fun log => .bind (modify fun _ => rfl) ?_
          exact fun _ => .bind (modify fun _ => rfl) fun _ => .stop

/-- Whatever message arrives, operation numbers are executed in order. -/
theorem receiveMessage (remote : Address) (msg : Message) :
    Counts (receiveMessage setup app undefined.stopping remote msg) := by
  cases msg with
  | request msg => exact handleRequest _ _
  | unloggedRequest msg => exact .bind .get fun r => .branch (.pure _) (send _ _)
  | prepare msg => exact handlePrepare _ _
  | prepareOK msg => exact handlePrepareOK _
  | commit msg => exact handleCommit _
  | requestStateTransfer msg => exact handleRequestStateTransfer _ _
  | stateTransfer msg => exact handleStateTransfer _
  | startViewChange msg => exact handleStartViewChange _
  | doViewChange msg => exact handleDoViewChange _
  | startView msg => exact handleStartView _
  | recovery msg =>
      exact .bind .get fun r => .branch (.pure _) (.branch (send _ _) (send _ _))
  | recoveryResponse msg => exact handleRecoveryResponse _
  | reply msg => exact .stop
  | unloggedReply msg => exact .stop

/-- Whatever timeout fires, nothing is executed out of order. -/
theorem fireTimer (timer : Timer) : Counts (fireTimer setup timer) := by
  cases timer with
  | viewChange => exact .bind .get fun r => startViewChange _
  | nullCommit => exact .bind .get fun r => .bind (.require _) fun _ => send _ _
  | stateTransfer => exact modify fun _ => rfl
  | resendPrepare =>
      exact .bind .get fun r => .bind (.require _) fun _ => .branch (.pure _) (send _ _)
  | closeBatch => exact closeBatch
  | recovery => exact .bind .get fun r => send _ _

end Counts

/-! ## Each request once -/

/-- Two requests are the same request of the same client. -/
def Request.Same (mine theirs : Request) : Prop :=
  mine.clientid = theirs.clientid ∧ mine.clientreqid = theirs.clientreqid

instance (mine theirs : Request) : Decidable (Request.Same mine theirs) :=
  inferInstanceAs (Decidable (_ ∧ _))

/-- A request may be appended to a log that does not have it. -/
def unheard : Admission := fun log operation =>
  ∀ other ∈ log, ¬ Request.Same other.request operation.request

/-- A leader accepts a request that its log has already, because its client table does not know
it. -/
def Replica.Readmits (setup : Setup) (r : Replica) (msg : RequestMessage) : Prop :=
  r.Accepts setup msg ∧ ∃ entry ∈ r.log.entries, Request.Same entry.request msg.req

instance (setup : Setup) (r : Replica) (msg : RequestMessage) :
    Decidable (r.Readmits setup msg) :=
  inferInstanceAs (Decidable (_ ∧ _))

namespace System

/-- The delivery of a packet makes a leader accept a request that its log has already. -/
def Readmitted (d : Deployment) (s : System) : Packet → Prop
  | ⟨_, .replica idx, .request msg⟩ => (s.replicas idx).Readmits (d.setup idx) msg
  | _ => False

instance (d : Deployment) (s : System) (packet : Packet) : Decidable (s.Readmitted d packet) := by
  unfold Readmitted
  split <;> infer_instance

/-- The step makes a leader accept a request that its log has already. -/
def Readmits (d : Deployment) (s : System) : Action → Prop
  | .deliver position _ _ => ∃ packet ∈ s.network[position]?, s.Readmitted d packet
  | _ => False

instance (d : Deployment) (s : System) (action : Action) : Decidable (s.Readmits d action) :=
  match action with
  | .deliver position _ _ =>
    inferInstanceAs (Decidable (∃ packet ∈ s.network[position]?, s.Readmitted d packet))
  | .request .. | .unloggedRequest .. | .timer .. | .crash .. => .isFalse id

/-- The step takes the state of replica `idx` away. -/
def Crashes (idx : Nat) : Action → Prop
  | .crash other _ => other = idx
  | _ => False

instance (idx : Nat) (action : Action) : Decidable (Crashes idx action) :=
  match action with
  | .crash other _ => inferInstanceAs (Decidable (other = idx))
  | .request .. | .unloggedRequest .. | .deliver .. | .timer .. => .isFalse id

/-- What replica `idx` has executed, in order. -/
def executedBy (idx : Nat) (s : System) : List (Nat × Request) :=
  (s.executed.filter (·.1 = idx)).map Prod.snd

/-- Replica `idx` has executed no request twice. -/
def ExecutedOnce (idx : Nat) (s : System) : Prop :=
  (s.executedBy idx).Pairwise fun mine theirs => ¬ Request.Same mine.2 theirs.2

instance (idx : Nat) (s : System) : Decidable (s.ExecutedOnce idx) :=
  inferInstanceAs (Decidable (List.Pairwise _ _))

variable {d : Deployment} {s next : System} {idx : Nat}

/-- What replica `idx` has executed has increasing numbers, up to its last committed one. -/
structure InOrder (idx : Nat) (s : System) : Prop where
  ordered : ((s.executedBy idx).map Prod.fst).Pairwise (· < ·)
  committed : ∀ opnum ∈ (s.executedBy idx).map Prod.fst, opnum ≤ (s.replicas idx).lastCommitted

/-- What a replica executes is added to what it has executed, and to no other's. -/
theorem executedBy_absorb (d : Deployment) (s : System) (idx actor : Nat)
    (outcome : Outcome Replica Output Unit) :
    (s.absorb d actor outcome).executedBy idx = s.executedBy idx ++
      if actor = idx then outcome.outputs.filterMap Output.execution else [] := by
  unfold executedBy System.absorb
  rw [List.filter_append, List.map_append]
  congr 1
  split
  next who => simp [who, List.filter_map, Function.comp_def]
  next who => simp [who, List.filter_map, Function.comp_def]

/-- A handler that counts keeps the order. -/
theorem InOrder.absorb (inOrder : s.InOrder idx) {actor : Nat} {handler : Run Unit}
    (counts : Counts handler) :
    (s.absorb d actor (handler (s.replicas actor))).InOrder idx := by
  obtain ⟨le, ordered, bounds⟩ := counts (s.replicas actor)
  have added := executedBy_absorb d s idx actor
    (handler (s.replicas actor))
  by_cases who : actor = idx
  · subst who
    rw [if_pos rfl] at added
    have state : (s.absorb d actor (handler (s.replicas actor))).replicas actor =
        (handler (s.replicas actor)).state := by
      simp [System.absorb]
    refine ⟨?_, ?_⟩
    · rw [added, List.map_append]
      refine List.pairwise_append.mpr ⟨inOrder.ordered, ordered, fun opnum old opnum' new => ?_⟩
      exact (inOrder.committed opnum old).trans_lt (bounds opnum' new).1
    · rw [added, List.map_append, state]
      intro opnum inBoth
      rcases List.mem_append.mp inBoth with old | new
      · exact (inOrder.committed opnum old).trans le
      · exact (bounds opnum new).2
  · rw [if_neg who, List.append_nil] at added
    have state : (s.absorb d actor (handler (s.replicas actor))).replicas idx = s.replicas idx := by
      simp [System.absorb, Function.update_of_ne (Ne.symm who)]
    refine ⟨?_, ?_⟩
    · rw [added]
      exact inOrder.ordered
    · rw [added, state]
      exact inOrder.committed

/-- A defined step that does not take the replica's state away keeps the order. -/
theorem InOrder.step (inOrder : s.InOrder idx) {action : Action} (defined : s.Defined d action)
    (keeps : ¬ Crashes idx action) (stepped : s.step d action = some next) :
    next.InOrder idx := by
  have ran : ∀ {actor : Nat} {handler : Run Unit}, Counts handler →
      s.runAt d actor handler = some next → next.InOrder idx := by
    intro actor handler counts ran
    unfold System.runAt at ran
    split at ran
    next =>
        obtain rfl := Option.some.inj ran
        exact inOrder.absorb counts
    next => simp at ran
  cases action with
  | request client actor msg =>
      obtain rfl := Option.some.inj stepped
      exact ⟨inOrder.ordered, inOrder.committed⟩
  | unloggedRequest client actor msg =>
      obtain rfl := Option.some.inj stepped
      exact ⟨inOrder.ordered, inOrder.committed⟩
  | deliver position app undefined =>
      rw [step_of_defined defined] at stepped
      simp only [System.step] at stepped
      split at stepped
      next => exact ran (Counts.receiveMessage _ _) stepped
      next => simp at stepped
  | timer actor timer =>
      simp only [System.step] at stepped
      split at stepped
      next => exact ran (Counts.fireTimer _) stepped
      next => simp at stepped
  | crash actor nonce =>
      simp only [System.step, System.crash] at stepped
      split at stepped
      next =>
          obtain rfl := Option.some.inj stepped
          have added := executedBy_absorb d s idx actor
            (sendRecoveryMessages (d.setup actor)
              ((s.replicas actor).restarted (d.setup actor) nonce))
          rw [show (if actor = idx then _ else _) = ([] : List (Nat × Request)) by
            split <;> rfl, List.append_nil] at added
          refine ⟨added ▸ inOrder.ordered, ?_⟩
          rw [added]
          have other : idx ≠ actor := Ne.symm keeps
          simpa [System.absorb, Function.update_of_ne other] using inOrder.committed
      next => simp at stepped

/-- A leader that does not accept what its log has already may append what it accepts. -/
theorem admits_of_not_readmits {action : Action} (clear : ¬ s.Readmits d action) :
    s.Admits d unheard action := by
  cases action with
  | deliver position app undefined =>
      intro src idx msg found
      cases msg with
      | request msg =>
          intro accepts op other inLog same
          obtain ⟨entry, inEntries, rfl⟩ := List.mem_map.mp inLog
          exact clear ⟨_, found, accepts, entry, inEntries, same⟩
      | _ => trivial
  | _ => trivial

/-- Where no log has a request twice, what was chosen for two numbers is not the same request. -/
theorem not_same_of_executable {c : Configuration} {w : World c unheard} (balanced : c.Balanced)
    {opnum later : Nat} {mine theirs : Request} (before : opnum < later)
    (holds : Executable w opnum mine) (holds' : Executable w later theirs) :
    ¬ Request.Same mine theirs := by
  obtain ⟨positive, view, operation, chosen, found, rfl⟩ := holds
  obtain ⟨-, view', operation', chosen', found', rfl⟩ := holds'
  have agree := w.sound.chosen_unique balanced chosen (ViewLogs.Chosen.le chosen' before.le)
  have here := congrArg (·[opnum - 1]?) agree
  simp only [List.getElem?_take, if_pos (show opnum - 1 < opnum by omega)] at here
  have foundToo : (w.viewLog view')[opnum - 1]? = some operation := here.symm.trans found
  have admitted := w.sound.admitted _ view' (later - 1) operation' found'
  refine admitted operation (List.mem_of_getElem? (i := opnum - 1) ?_)
  rw [List.getElem?_take, if_pos (by omega)]
  exact foundToo

/-- The requests that a replica executes are different, in every run of defined steps in which it
does not lose its state, that takes none of the branches on which agreement is lost, and in which
no leader accepts a request that its log has already. -/
theorem executedOnce_of_clear (balanced : d.configuration.Balanced) (idx : Nat)
    (reachable : (system d).Reachable
      (fun s action => s.Clear d action ∧ ¬ s.Readmits d action ∧ ¬ Crashes idx action) s) :
    s.ExecutedOnce idx := by
  have inOrder : s.InOrder idx := by
    obtain ⟨initial, actions, valid, steps⟩ := reachable
    obtain rfl := valid
    induction steps with
    | refl => exact ⟨.nil, fun _ none_ => nomatch none_⟩
    | step _ guarded stepped inductionHypothesis =>
        exact inductionHypothesis.step guarded.1.defined guarded.2.2 stepped
  obtain ⟨w, stands⟩ := (invariant_stands balanced unheard).of_reachable
    (reachable.imp fun state action guarded => ⟨guarded.1, admits_of_not_readmits guarded.2.1⟩)
  have executable : ∀ done ∈ s.executedBy idx, Executable w done.1 done.2 := by
    intro done inDone
    obtain ⟨⟨who, opnum, request⟩, inExecuted, rfl⟩ := List.mem_map.mp inDone
    exact stands.executed who opnum request (List.mem_of_mem_filter inExecuted)
  have ordered : (s.executedBy idx).Pairwise fun mine theirs => mine.1 < theirs.1 :=
    List.pairwise_map.mp inOrder.ordered
  refine ordered.imp_of_mem fun {mine theirs} inMine inTheirs before => ?_
  exact not_same_of_executable balanced before (executable mine inMine)
    (executable theirs inTheirs)

/-- Two requests replicated one after the other under the first leader; the client sends the
first one again in between. -/
def resentRun : List Action :=
  ask 7 0 "a" 0 ++ deliveries [1, 3, 0] ++ ask 8 0 "b" 8 ++ deliveries [9, 11]

/-- Replica 0 executes two different requests in the resent run. -/
theorem executedOnce_resentRun :
    ∃ s : System, (s.executedBy 0).length = 2 ∧ s.ExecutedOnce 0 := by
  obtain ⟨s, reachable, two⟩ := (system trio).exists_reachable_of_run
    (fun s action => s.Clear trio action ∧ ¬ s.Readmits trio action ∧ ¬ Crashes 0 action)
    (fun s => decide ((s.executedBy 0).length = 2)) resentRun rfl (by decide +kernel)
  exact ⟨s, of_decide_eq_true two, executedOnce_of_clear balanced_trio 0 reachable⟩

/-- A message under way is no request, or one of another client, or the same one, or an earlier
one. -/
def Precedes (msg : RequestMessage) : Message → Prop
  | .request earlier => earlier.req.clientid = msg.req.clientid →
      earlier.req = msg.req ∨ earlier.req.clientreqid < msg.req.clientreqid
  | _ => True

instance (msg : RequestMessage) (other : Message) : Decidable (Precedes msg other) :=
  match other with
  | .request earlier => inferInstanceAs (Decidable (earlier.req.clientid = msg.req.clientid →
      earlier.req = msg.req ∨ earlier.req.clientreqid < msg.req.clientreqid))
  | .reply _ | .unloggedRequest _ | .unloggedReply _ | .prepare _ | .prepareOK _ | .commit _ |
      .requestStateTransfer _ | .stateTransfer _ | .startViewChange _ | .doViewChange _ |
      .startView _ | .recovery _ | .recoveryResponse _ => .isTrue trivial

/-- Clients number their requests upwards, and send a request again only as it was. -/
def Disciplined (s : System) : Action → Prop
  | .request _ _ msg => ∀ packet ∈ s.network, Precedes msg packet.msg
  | _ => True

instance (s : System) (action : Action) : Decidable (s.Disciplined action) :=
  match action with
  | .request _ _ msg =>
    inferInstanceAs (Decidable (∀ packet ∈ s.network, Precedes msg packet.msg))
  | .unloggedRequest .. | .deliver .. | .timer .. | .crash .. => .isTrue trivial

/-- Replica 0 has logged two requests in view 0 that nobody else has. Replica 1 leads view 1 and
logs a client's request, and leads view 4 with that log. Replica 0 takes it over instead of its
own, which is longer, and so enters none of its requests in the client table. It leads view 6 with
it, and the client sends its request again. -/
def readmittedRun : List Action :=
  ask 8 0 "x" 0 ++ ask 9 0 "y" 3 ++ [.timer 1 .viewChange] ++ deliveries [7, 9, 10] ++
    ask 7 1 "a" 13 ++ [.timer 2 .viewChange, .timer 2 .viewChange, .timer 2 .viewChange] ++
    deliveries [21, 23, 24, 25] ++ [.timer 2 .viewChange, .timer 2 .viewChange] ++
    deliveries [29, 32, 33] ++ ask 7 0 "a" 36 ++ deliveries [35, 38, 40]

/-- Replica 0 executes the request twice in the readmitted run. -/
theorem not_executedOnce_readmittedRun : ¬ ∀ (d : Deployment) (s : System) (idx : Nat),
    d.configuration.Balanced →
      (system d).Reachable
        (fun s action => s.Defined d action ∧ s.Disciplined action ∧ Crashless action) s →
      s.ExecutedOnce idx := by
  intro always
  obtain ⟨s, reachable, twice⟩ := (system trio).exists_reachable_of_run
    (fun s action => s.Defined trio action ∧ s.Disciplined action ∧ Crashless action)
    (fun s => decide (¬ s.ExecutedOnce 0)) readmittedRun rfl (by decide +kernel)
  exact of_decide_eq_true twice (always trio s 0 balanced_trio reachable)

end System

end PaxosBus.Vr

import PaxosBus.Library.ViewLogs
import PaxosBus.Vr.System

/-!
# What stands behind a replica's state

The replicas of the protocol are members of a group that replicates a log view
by view: `ViewLogs` says what each of them has, and what views and votes mean.
This module ties the two together. A message is valid in a state of the
replicated logs when it says nothing that is not so; because the logs only grow,
a valid message stays valid however long it is under way. A replica is backed
when its log is the log of the last view it was active in, and what it has
collected is valid.
-/

set_option autoImplicit false

namespace PaxosBus.Vr

open PaxosBus.Common PaxosBus.Library

/-- The replicated logs of the replicas' operations. -/
abbrev Logs := ViewLogs Operation

/-- After which logs a leader may append an operation. What the replicas agree on does not
depend on it. -/
abbrev Admission := List Operation → Operation → Prop

/-- The replicas as a group that replicates a log. -/
def group (c : Configuration) (admits : Admission) : ViewLogs.Group Operation where
  n := c.n
  f := c.f
  leader := c.getLeaderIndex
  viewOf := Operation.view
  admits := admits

/-- Replicated logs that can come about. -/
structure World (c : Configuration) (admits : Admission) where
  logs : Logs
  sound : ViewLogs.Sound (group c admits) logs

namespace World

variable {c : Configuration} {admits : Admission}

/-- The world before anything has happened. -/
def initial (c : Configuration) (admits : Admission) : World c admits :=
  ⟨ViewLogs.initial, .initial (group c admits)⟩

/-- A world that steps of replica `idx` lead to. -/
def Later (idx : Nat) (w w' : World c admits) : Prop :=
  ViewLogs.Steps (group c admits) idx w.logs w'.logs

/-- The log of a view. -/
def viewLog (w : World c admits) (view : Nat) : List Operation :=
  w.logs.viewLog (group c admits) view

/-- The first `count` operations of the log of a view are on a majority of replicas. -/
def Chosen (w : World c admits) (view count : Nat) : Prop :=
  w.logs.Chosen (group c admits) view count

/-- The first `count` operations of the log of a view are known to be chosen in that view or in
an earlier one. -/
def Decided (w : World c admits) (view count : Nat) : Prop :=
  ∃ earlier ≤ view, w.Chosen earlier count

/-- A log that a replica can be active with in a view. -/
def Within (w : World c admits) (view : Nat) (log : List Operation) : Prop :=
  w.logs.Within (group c admits) view log

/-- What the log of an empty or other log ends with. -/
def lastView (log : List Operation) : Nat := (log.getLast?.map Operation.view).getD 0

end World

open World

/-! ## Valid messages -/

section Validity

variable {c : Configuration} {admits : Admission} (w : World c admits)

/-- The requests of a batch are where the log of the view has them. -/
def PrepareMessage.Valid (msg : PrepareMessage) : Prop :=
  ∀ index request, msg.request[index]? = some request →
    0 < msg.batchstart ∧
      (w.viewLog msg.view)[msg.batchstart - 1 + index]? = some ⟨msg.view, request⟩

/-- The sender has held everything that it acknowledges. -/
def PrepareOKMessage.Valid (msg : PrepareOKMessage) : Prop :=
  msg.replicaidx < c.n ∧ msg.opnum ≤ (w.logs.logIn msg.replicaidx msg.view).length

/-- What the leader says is committed is decided. -/
def CommitMessage.Valid (msg : CommitMessage) : Prop := w.Decided msg.view msg.opnum

/-- The sender has been active in the view with a decided log up to `opnum`. -/
def RequestStateTransferMessage.Valid (src : Nat) (msg : RequestStateTransferMessage) : Prop :=
  msg.view ≤ w.logs.normalView src ∧ w.Decided msg.view msg.opnum ∧
    msg.opnum ≤ (w.logs.logIn src msg.view).length

/-- The entries are the end of a log of the view, from a number up to which the receiver's log
was decided when it asked. -/
def StateTransferMessage.Valid (dst : Nat) (msg : StateTransferMessage) : Prop :=
  ∃ log from_ asked, w.Within msg.view log ∧ Window log 1 from_ msg.entries ∧
    asked ≤ msg.view ∧ asked ≤ w.logs.normalView dst ∧ w.Decided asked from_ ∧
    from_ ≤ (w.logs.logIn dst asked).length ∧ w.Decided msg.view msg.opnum

/-- The message describes the log that the sender had when it voted, and brings some of it, if
there is any. -/
structure DoViewChangeMessage.Valid (msg : DoViewChangeMessage) : Prop where
  sender : msg.replicaidx < c.n
  voted : w.logs.ballot msg.view msg.replicaidx = some msg.normalView
  ranked : msg.lastnormalview = lastView (w.logs.logIn msg.replicaidx msg.normalView)
  length : msg.lastop = (w.logs.logIn msg.replicaidx msg.normalView).length
  nonempty : msg.entries = [] → msg.lastop = 0

/-- The message describes the log that the view started with, and brings its end. -/
structure StartViewMessage.Valid (msg : StartViewMessage) : Prop where
  base : ∃ log from_, w.logs.base msg.view = some log ∧ msg.lastop = log.length ∧
    Window log 1 from_ msg.entries
  committed : w.Decided msg.view msg.lastcommitted
  committed_le : msg.lastcommitted ≤ msg.lastop
  nonempty : msg.entries = [] → msg.lastop = 0

/-- A message says nothing that is not so. The answer to a recovering replica may say anything:
no defined step uses it. -/
def Message.Valid (src : Nat) (dst : Destination) : Message → Prop
  | .prepare msg => msg.Valid w
  | .prepareOK msg => msg.Valid w
  | .commit msg => msg.Valid w
  | .requestStateTransfer msg => msg.Valid w src
  | .stateTransfer msg =>
    match dst with
    | .one (.replica dst) => msg.Valid w dst
    | .one (.client _) => True
    | .others => False
  | .doViewChange msg => msg.Valid w
  | .startView msg => msg.Valid w
  | _ => True

/-- The request is what was chosen for the operation number. -/
def Executable (opnum : Nat) (request : Request) : Prop :=
  0 < opnum ∧ ∃ view operation, w.Chosen view opnum ∧
    (w.viewLog view)[opnum - 1]? = some operation ∧ operation.request = request

/-- An output of replica `idx` is justified. -/
def Output.Valid (idx : Nat) : Output → Prop
  | .send dst msg => msg.Valid w idx dst
  | .execute opnum request => Executable w opnum request
  | .prepared view opnum entries => w.Chosen view opnum ∧ opnum ≤ entries.length ∧
      entries.map LogEntry.operation <+: w.viewLog view
  | .started view entries => w.logs.base view = some (entries.map LogEntry.operation)

end Validity

/-! ## Backed replicas -/

/-- The part of a replica's state that agreement is about. -/
structure Core where
  status : Status
  view : Nat
  lastCommitted : Nat
  lastOp : Nat
  log : Log Unit
  pendingPrepares : List (Address × PrepareMessage)
  lastPrepare : PrepareMessage
  prepareOKQuorum : QuorumSet Viewstamp PrepareOKMessage
  doViewChangeQuorum : QuorumSet Nat DoViewChangeMessage
  normalView : Nat
  fence : Nat

/-- The core of a replica's state. -/
def Replica.core (r : Replica) : Core where
  status := r.status
  view := r.view
  lastCommitted := r.lastCommitted
  lastOp := r.lastOp
  log := r.log
  pendingPrepares := r.pendingPrepares
  lastPrepare := r.lastPrepare
  prepareOKQuorum := r.prepareOKQuorum
  doViewChangeQuorum := r.doViewChangeQuorum
  normalView := r.normalView
  fence := r.fence

section Backing

variable {c : Configuration} {admits : Admission} (w : World c admits) (idx : Nat)

/-- What a replica has collected from others is valid. -/
structure Core.Collected (r : Core) : Prop where
  required : r.prepareOKQuorum.numRequired = c.f
  requiredVotes : r.doViewChangeQuorum.numRequired = c.f
  acks : r.prepareOKQuorum.All fun vs replicaIdx _ =>
    replicaIdx < c.n ∧ replicaIdx ≠ idx ∧ vs.opnum ≤ (w.logs.logIn replicaIdx vs.view).length
  votes : r.doViewChangeQuorum.All fun view replicaIdx msg =>
    msg.Valid w ∧ msg.view = view ∧ msg.replicaidx = replicaIdx
  pending : ∀ entry ∈ r.pendingPrepares, entry.2.Valid w
  resendable : r.lastPrepare.Valid w

/-- A replica's log is that of the last view it was active in, up to what is committed it is
decided, and what it has collected is valid. -/
structure Core.Placed (r : Core) : Prop where
  start : r.log.start = 1
  log : r.log.operations = w.logs.logIn idx r.normalView
  lastOp : r.lastOp = r.log.entries.length
  committed : w.Decided r.normalView r.lastCommitted
  committed_le : r.lastCommitted ≤ r.lastOp
  collected : r.Collected w idx

/-- A replica that is active in its view. -/
structure Core.Active (r : Core) : Prop where
  placed : r.Placed w idx
  normal : r.status = .normal
  view : r.normalView = r.view
  fence : r.fence = r.view

/-- A replica that is changing to a view. -/
structure Core.Changing (r : Core) : Prop where
  placed : r.Placed w idx
  status : r.status = .viewChange
  view : r.normalView < r.view
  fence : r.fence ≤ r.view
  leader : r.fence = r.view → c.getLeaderIndex r.view ≠ idx

/-- A replica that is active in its view or changing to it. -/
def Core.Engaged (r : Core) : Prop := r.Active w idx ∨ r.Changing w idx

/-- A replica that has lost its state and has not got it back. -/
structure Replica.Recovering (r : Replica) : Prop where
  status : r.status = .recovering
  view : r.view = 0
  start : r.log.start = 1
  log : r.log.operations = []
  lastOp : r.lastOp = 0
  lastCommitted : r.lastCommitted = 0
  quiet : r.viewChangeTimeout = false
  collected : r.core.Collected w idx

/-- What stands behind the state of a replica that has not stopped. -/
def Replica.Backed (r : Replica) : Prop := r.core.Engaged w idx ∨ r.Recovering w idx

/-- What the history fields of a replica say, whether it has stopped or not. -/
def Replica.Recorded (r : Replica) : Prop :=
  w.logs.normalView idx = r.normalView ∧ w.logs.fence idx = r.fence

end Backing

/-! ## What lasts -/

section Lasting

variable {c : Configuration} {admits : Admission} {w w' : World c admits} {idx : Nat}

open ViewLogs (Grows)

namespace World

/-- What has been recorded is not forgotten when a replica goes on. -/
theorem Later.grows (later : Later idx w w') : Grows w.logs w'.logs :=
  (ViewLogs.Steps.sound_grows w.sound later).2

/-- A step makes a later world. -/
theorem exists_later {logs : Logs} (step : ViewLogs.Step (group c admits) idx w.logs logs) :
    ∃ w' : World c admits, w'.logs = logs ∧ Later idx w w' :=
  ⟨⟨logs, (step.sound_grows w.sound).1⟩, rfl, .single step⟩

/-- A replica can become, or stay, active with a log that its leader has. -/
theorem exists_adopt {view : Nat} {log : List Operation} (unfenced : w.logs.fence idx ≤ view)
    (within : w.Within view log) (extends_ : w.logs.logIn idx view <+: log) :
    ∃ w' : World c admits, Later idx w w' ∧ w'.logs.logIn idx view = log ∧
      w'.logs.normalView idx = view ∧ w'.logs.fence idx = view ∧
      w'.logs.base = w.logs.base := by
  obtain ⟨base, started, above, below⟩ := within
  obtain ⟨w', same, later⟩ :=
    exists_later (.adopt view log base unfenced started above below extends_)
  refine ⟨w', later, ?_, ?_, ?_, ?_⟩
  · rw [same, ViewLogs.logIn_adopt, if_pos ⟨rfl, rfl⟩]
  · simp [same, ViewLogs.adopt]
  · simp [same, ViewLogs.adopt]
  · rw [same]
    rfl

/-- The leader of a view that it has not been fenced from can extend the log of the view. -/
theorem exists_append {view : Nat} (operation : Operation)
    (leads : c.getLeaderIndex view = idx) (active : w.logs.normalView idx = view)
    (unfenced : w.logs.fence idx = view) (created : operation.view = view)
    (admitted : admits (w.logs.logIn idx view) operation) :
    ∃ w' : World c admits, Later idx w w' ∧
      w'.logs.logIn idx view = w.logs.logIn idx view ++ [operation] ∧
      w'.logs.normalView idx = view ∧ w'.logs.fence idx = view := by
  subst active
  obtain ⟨w', same, later⟩ := exists_later (.append operation leads unfenced created admitted)
  refine ⟨w', later, ?_, ?_, ?_⟩
  · rw [same, ViewLogs.append, ViewLogs.logIn_setLog, if_pos ⟨rfl, rfl⟩]
    rfl
  · rw [same]
    rfl
  · rw [same, ← unfenced]
    rfl

/-- What is decided stays decided. -/
theorem Decided.grows {view count : Nat} (decided : w.Decided view count)
    (grows : Grows w.logs w'.logs) : w'.Decided view count := by
  obtain ⟨earlier, le, chosen⟩ := decided
  exact ⟨earlier, le, grows.chosen chosen⟩

/-- What is decided is decided for later views and shorter pieces. -/
theorem Decided.mono {view later count fewer : Nat} (decided : w.Decided view count)
    (after : view ≤ later) (le : fewer ≤ count) : w.Decided later fewer := by
  obtain ⟨earlier, before, chosen⟩ := decided
  exact ⟨earlier, before.trans after, ViewLogs.Chosen.le chosen le⟩

/-- A part of the leader's log stays one when that log grows. -/
theorem Within.grows {view : Nat} {log : List Operation} (within : w.Within view log)
    (grows : Grows w.logs w'.logs) : w'.Within view log :=
  Grows.within grows within

/-- The log of a view only grows. -/
theorem viewLog_grows (grows : Grows w.logs w'.logs) (view : Nat) :
    w.viewLog view <+: w'.viewLog view :=
  grows.logIn _ view

/-- An entry of the log of a view stays there. -/
theorem getElem?_viewLog_grows (grows : Grows w.logs w'.logs) {view index : Nat}
    {operation : Operation} (found : (w.viewLog view)[index]? = some operation) :
    (w'.viewLog view)[index]? = some operation := by
  obtain ⟨more, whole⟩ := viewLog_grows grows view
  have inside := (List.getElem?_eq_some_iff.mp found).1
  rw [← whole, List.getElem?_append_left inside, found]

/-- Two logs of which one is a decided piece longer agree on the piece. -/
theorem Decided.take_eq (balanced : c.Balanced) {view view' count : Nat}
    {log log' : List Operation} (decided : w.Decided view count)
    (within : w.Within view log) (long : count ≤ log.length)
    (decided' : w.Decided view' count) (within' : w.Within view' log')
    (long' : count ≤ log'.length) : log.take count = log'.take count := by
  obtain ⟨earlier, before, chosen⟩ := decided
  obtain ⟨earlier', before', chosen'⟩ := decided'
  calc log.take count = (w.viewLog earlier).take count :=
        w.sound.chosen_take balanced chosen before within long
    _ = (w.viewLog earlier').take count := w.sound.chosen_unique balanced chosen chosen'
    _ = log'.take count := (w.sound.chosen_take balanced chosen' before' within' long').symm

/-- A log of a later view has all that is decided. -/
theorem Decided.le_length (balanced : c.Balanced) {view later count : Nat}
    {log : List Operation} (decided : w.Decided view count) (after : view < later)
    (within : w.Within later log) : count ≤ log.length := by
  obtain ⟨earlier, before, chosen⟩ := decided
  exact w.sound.chosen_length_later balanced chosen (by omega) within

/-- Operations of one view at the same place in two logs are the same. -/
theorem Within.operation_eq {view view' index : Nat} {log log' : List Operation}
    {mine theirs : Operation} (within : w.Within view log) (within' : w.Within view' log')
    (found : log[index]? = some mine) (found' : log'[index]? = some theirs)
    (same : mine.view = theirs.view) : mine = theirs := by
  have agree := ViewLogs.Matched.take_eq (w.sound.matched_within within)
    (w.sound.matched_within within') found found' same
  have here := congrArg (·[index]?) agree
  simpa [List.getElem?_take, found, found'] using here

end World

/-- A batch stays a part of its view's log. -/
theorem PrepareMessage.Valid.grows {msg : PrepareMessage} (valid : msg.Valid w)
    (grows : Grows w.logs w'.logs) : msg.Valid w' := by
  intro index request found
  obtain ⟨positive, here⟩ := valid index request found
  exact ⟨positive, getElem?_viewLog_grows grows here⟩

/-- A vote stays true of what its sender had. -/
theorem DoViewChangeMessage.Valid.grows {msg : DoViewChangeMessage} (valid : msg.Valid w)
    (grows : Grows w.logs w'.logs) : msg.Valid w' := by
  obtain ⟨kept, same⟩ := grows.ballot _ _ _ valid.voted
  exact {
    sender := valid.sender
    voted := kept
    ranked := same ▸ valid.ranked
    length := same ▸ valid.length
    nonempty := valid.nonempty }

/-- A valid message stays valid. -/
theorem Message.Valid.grows {src : Nat} {dst : Destination} {msg : Message}
    (valid : msg.Valid w src dst) (grows : Grows w.logs w'.logs) : msg.Valid w' src dst := by
  have length : ∀ member view, (w.logs.logIn member view).length ≤
      (w'.logs.logIn member view).length :=
    fun member view => (grows.logIn member view).length_le
  cases msg with
  | prepare msg => exact PrepareMessage.Valid.grows valid grows
  | prepareOK msg => exact ⟨valid.1, valid.2.trans (length _ _)⟩
  | commit msg => exact Decided.grows valid grows
  | requestStateTransfer msg =>
      obtain ⟨active, decided, held⟩ := valid
      exact ⟨active.trans (grows.normalView src), decided.grows grows, held.trans (length _ _)⟩
  | stateTransfer msg =>
      match dst, valid with
      | .one (.replica dst), ⟨log, from_, asked, within, window, before, active, decided, held,
          committed⟩ =>
          exact ⟨log, from_, asked, within.grows grows, window, before,
            active.trans (grows.normalView dst), decided.grows grows, held.trans (length _ _),
            committed.grows grows⟩
      | .one (.client _), _ => trivial
  | doViewChange msg => exact DoViewChangeMessage.Valid.grows valid grows
  | startView msg =>
      obtain ⟨log, from_, base, long, window⟩ := valid.base
      exact {
        base := ⟨log, from_, grows.base _ _ base, long, window⟩
        committed := valid.committed.grows grows
        committed_le := valid.committed_le
        nonempty := valid.nonempty }
  | _ => trivial

/-- A justified output stays justified while only its replica moves on. -/
theorem Output.Valid.later {output : Output} (valid : output.Valid w idx)
    (later : Later idx w w') : output.Valid w' idx := by
  have grows := later.grows
  cases output with
  | send dst msg => exact Message.Valid.grows valid grows
  | execute opnum request =>
      obtain ⟨positive, view, operation, chosen, found, same⟩ := valid
      exact ⟨positive, view, operation, grows.chosen chosen, getElem?_viewLog_grows grows found,
        same⟩
  | prepared view opnum entries =>
      obtain ⟨chosen, long, below⟩ := valid
      exact ⟨grows.chosen chosen, long, below.trans (viewLog_grows grows view)⟩
  | started view entries => exact grows.base _ _ valid

namespace Core

variable {r : Core}

/-- What was collected stays valid. -/
theorem Collected.grows (collected : r.Collected w idx) (grows : Grows w.logs w'.logs) :
    r.Collected w' idx where
  required := collected.required
  requiredVotes := collected.requiredVotes
  acks := collected.acks.imp fun vs replicaIdx _ ⟨inGroup, other, held⟩ =>
    ⟨inGroup, other, held.trans (grows.logIn replicaIdx vs.view).length_le⟩
  votes := collected.votes.imp fun _ _ _ ⟨valid, rest⟩ =>
    ⟨valid.grows grows, rest⟩
  pending entry inPending := (collected.pending entry inPending).grows grows
  resendable := collected.resendable.grows grows

/-- A replica keeps its place while only others move on. -/
theorem Placed.frame (placed : r.Placed w idx) (grows : Grows w.logs w'.logs)
    (same : w'.logs.logIn idx = w.logs.logIn idx) : r.Placed w' idx where
  start := placed.start
  log := by rw [same, placed.log]
  lastOp := placed.lastOp
  committed := placed.committed.grows grows
  committed_le := placed.committed_le
  collected := placed.collected.grows grows

namespace Engaged

/-- A replica that takes part is in its place, in a view or between views. -/
theorem placed (engaged : r.Engaged w idx) : r.Placed w idx :=
  engaged.elim (·.placed) (·.placed)

/-- The last view in which a replica was normal is not after its own. -/
theorem normalView_le (engaged : r.Engaged w idx) : r.normalView ≤ r.view :=
  engaged.elim (·.view.le) (·.view.le)

/-- A replica has promised nothing beyond its own view. -/
theorem fence_le (engaged : r.Engaged w idx) : r.fence ≤ r.view :=
  engaged.elim (·.fence.le) (·.fence)

end Engaged

end Core

/-- Steps of other replicas leave a replica backed. -/
theorem Replica.Backed.frame {r : Replica} (backed : r.Backed w idx)
    (grows : Grows w.logs w'.logs) (same : w'.logs.logIn idx = w.logs.logIn idx) :
    r.Backed w' idx := by
  rcases backed with (active | changing) | recovering
  · exact .inl (.inl { active with placed := active.placed.frame grows same })
  · exact .inl (.inr { changing with placed := changing.placed.frame grows same })
  · exact .inr { recovering with collected := recovering.collected.grows grows }

/-- What the handlers of replica `idx` are judged by. -/
def logic (c : Configuration) (admits : Admission) (idx : Nat) :
    Logic (World c admits) Replica Output where
  Later := World.Later idx
  refl _ := .refl
  trans := .trans
  Valid w output := output.Valid w idx
  mono later valid := Output.Valid.later valid later
  Keeps w r := r.Recorded w idx

end Lasting

end PaxosBus.Vr

import PaxosBus.NoPaxos.Installing
import PaxosBus.NoPaxos.Patching
import PaxosBus.NoPaxos.Requesting
import PaxosBus.NoPaxos.Rewinding

/-!
# The log that a view starts with

A replica that starts a view with a `StartView` should have the log of its
leader afterwards, with the reply to the state transfer that it may ask for. It
has if nothing has to be rewound, as what is rewound is torn, and if its own
log is the beginning of what the view starts with. `ReadyFor` says what that
comes to before the message is handled.
-/

set_option autoImplicit false

namespace PaxosBus.NoPaxos

open PaxosBus.Common PaxosBus.Library
open Handler (Returns)

/-- What a log has at a number where the log of the leader has something or nothing. -/
def Entry.Merged (entry : Entry) (committedgaps : List Nat) (opnum : Nat) (theirs : Option Entry) :
    Prop :=
  if opnum ∈ committedgaps then entry.state = .noop
  else entry.state = .received ∧ ∃ leaders, theirs = some leaders ∧ leaders.request = entry.request

/-- The replica has the log that the view starts with. -/
structure Replica.Adopted (r leader : Replica) (msg : StartViewMessage) : Prop where
  lastOp : r.lastOp = msg.lastop
  merged : ∀ opnum, 0 < opnum → opnum ≤ msg.lastop → ∃ entry, r.log.find opnum = some entry ∧
    entry.Merged msg.committedgaps opnum (leader.log.find opnum)

/-- The leader replies to a request with a message. -/
def Replica.Answers (leader : Replica) (addr : Address) (request : StateTransferRequestMessage)
    (reply : StateTransferReplyMessage) : Prop :=
  .send (.one addr) (.stateTransferReply reply) ∈
    (handleStateTransferRequest addr request leader).outputs

/-- A replica that has handled a `StartView` and sent these requests has the log that the view
starts with, or gets it with the reply of the leader to the request that it has sent to the leader. -/
def Replica.Obtains (setup : Setup) (app : App) (r leader : Replica) (addr : Address)
    (msg : StartViewMessage) (requests : List (Destination × StateTransferRequestMessage)) : Prop :=
  match requests with
  | [] => r.Adopted leader msg
  | [(destination, request)] =>
    destination = .one (.replica (setup.configuration.getLeaderIndex msg.view)) ∧
      ∃ reply, leader.Answers addr request reply ∧
        let outcome := handleStateTransferReply setup app reply r
        outcome.value = some () ∧ outcome.state.Adopted leader msg
  | _ => False

/-- A replica with some address gets through a `StartView`, and through the reply of the leader to
the request that it sends on the way, if it sends one, and has the log that the view starts with. -/
def Replica.TakesOver (setup : Setup) (r leader : Replica) (addr : Address)
    (msg : StartViewMessage) : Prop :=
  ∀ app, let outcome := handleStartView setup app msg r
    outcome.value = some () ∧
      outcome.state.Obtains setup app leader addr msg (asked (handleStartView setup app msg) r)

/-- The log of a replica is the beginning of what the view starts with, but for gaps that it can
still take, and the leader has the rest. -/
structure Replica.ReadyFor (r leader : Replica) (msg : StartViewMessage) : Prop where
  whole : r.lastOp = r.log.lastOpnum
  normal : r.SameNormal msg
  shorter : r.lastOp ≤ msg.lastop
  upToDate : r.outdatedGap msg = none
  gaps : ∀ gap ∈ msg.committedgaps, gap ≤ r.lastOp → ∃ entry, r.log.find gap = some entry ∧
    (entry.state = .noop ∨ r.lastCommittedOp < gap ∧ r.lastExecutedOp < gap)
  own : ∀ opnum entry, r.log.find opnum = some entry → opnum ∉ msg.committedgaps →
    entry.state = .received ∧
      ∃ theirs, leader.log.find opnum = some theirs ∧ theirs.request = entry.request
  missing : ∀ opnum, r.lastOp < opnum → opnum ≤ msg.lastop →
    if opnum ∈ msg.committedgaps then
      ∀ other, r.lastOp < other → other < opnum → other ∈ msg.committedgaps
    else ∃ theirs, leader.log.find opnum = some theirs ∧ theirs.state = .received

variable {setup : Setup} {app : App} {r leader : Replica} {msg : StartViewMessage}

/-! ## The parts of the handler -/

section Parts

variable {Post : Unit → Replica → Prop}

/-- Nothing is rewound for the view, or the log gets torn. -/
theorem rewindForView_cases (returns : (rewindForView msg).Returns r Post) :
    (r.SameNormal msg ∧ r.lastOp ≤ msg.lastop ∧ Post () r) ∨ ∃ r', r'.core.Torn ∧ Post () r' := by
  simp only [rewindForView, Handler.returns_bind, Handler.returns_get, Handler.returns_ite,
    Handler.returns_require, Handler.returns_pure] at returns
  split at returns
  next => exact .inr (rewindLogToOpnum_tears returns)
  next =>
      obtain ⟨sessnum, view, rest⟩ := returns
      split at rest
      next => exact .inr (rewindLogToOpnum_tears rest)
      next fits => exact .inl ⟨⟨sessnum, view⟩, Nat.not_lt.mp fits, rest⟩

/-- Nothing is rewound for a gap, or the log gets torn. -/
theorem rewindForGap_cases (returns : (rewindForGap msg).Returns r Post) :
    (r.outdatedGap msg = none ∧ Post () r) ∨ ∃ r', r'.core.Torn ∧ Post () r' := by
  have started := Handler.returns_get.mp (Handler.returns_bind.mp returns)
  split at started
  next => exact .inr (rewindLogToOpnum_tears started)
  next none_ => exact .inl ⟨none_, Handler.returns_pure.mp started⟩

/-- A torn log stays torn when the view is started. -/
theorem completeStartView_tears (follower : ¬ setup.AmLeader msg.view) (torn : r.core.Torn)
    (returns : (completeStartView setup app msg).Returns r Post) :
    ∃ r', r'.core.Torn ∧ Post () r' := by
  simp only [completeStartView, sendStateTransferRequest, sendToReplica, enterView, followView,
    sendStartViewReply, Handler.returns_bind, Handler.returns_get, Handler.returns_ite,
    Handler.returns_modify, Handler.returns_emit, Handler.returns_require, if_neg follower]
    at returns
  split at returns
  next =>
      refine ⟨_, ?_, returns⟩
      exact torn
  next =>
      refine ⟨_, ?_, returns.2.2.2.2⟩
      exact torn

/-- A torn log stays torn when a reply is handled. -/
theorem handleStateTransferReply_tears {reply : StateTransferReplyMessage} (torn : r.core.Torn)
    (returns : (handleStateTransferReply setup app reply).Returns r Post) :
    ∃ r', r'.core.Torn ∧ Post () r' := by
  simp only [handleStateTransferReply, Handler.returns_bind, Handler.returns_get,
    Handler.returns_ite, Handler.returns_demand, Handler.returns_require, Handler.returns_pure]
    at returns
  split at returns
  next => exact ⟨r, torn, returns⟩
  next =>
      split at returns
      next => exact ⟨r, torn, returns⟩
      next =>
          obtain ⟨-, -, -, -, -, -, -, loop⟩ := returns
          generalize reply.entries.drop (r.lastOp + 1 - reply.begin_) = entries at loop
          cases entries with
          | nil => exact ⟨r, torn, Handler.returns_pure.mp loop⟩
          | cons entry rest => exact absurd (Handler.returns_bind.mp loop) (transferEntry_torn torn)

end Parts

/-- A replica with a whole log waits for what it lacks, or enters the view. -/
theorem completeStartView_returns (sturdy : r.core.Sturdy setup)
    (follower : ¬ setup.AmLeader msg.view) (sessnum : r.sessnum ≤ msg.sessnum)
    (view : r.view ≤ msg.view) :
    (completeStartView setup app msg).Returns r fun _ r' => r'.core =
      if r.lastOp < msg.lastop then
        (r.core.joining msg.sessnum msg.view).transferring msg.lastop
          (setup.configuration.getLeaderIndex msg.view) .enterView true
      else r.core.entering msg.sessnum msg.view := by
  apply Returns.get_bind
  apply Returns.branch
  · intro behind
    rw [if_pos behind]
    apply Returns.modify_bind
    apply Returns.emit_bind
    apply Returns.get_bind
    apply Returns.emit_bind
    exact Handler.returns_modify.mpr rfl
  · intro there
    rw [if_neg there]
    have enters := @enterView_returns setup app r msg.sessnum msg.view sturdy.whole sturdy.point
      sessnum view
    rw [if_neg follower] at enters
    exact enters.imp fun _ r' ⟨core, _⟩ => core

/-- A replica that starts a view comes down to its gaps, or the log gets torn. -/
theorem handleStartView_cases {Post : Unit → Replica → Prop} (adopts : r.Adopts setup msg)
    (returns : (handleStartView setup app msg).Returns r Post) :
    (r.SameNormal msg ∧ r.lastOp ≤ msg.lastop ∧ r.outdatedGap msg = none ∧
      (installCommittedGaps setup app msg.committedgaps).Returns { r with committedGaps := {} }
        fun _ r1 => (completeStartView setup app msg).Returns r1 Post) ∨
    ∃ r', r'.core.Torn ∧ Post () r' := by
  obtain ⟨current, new, follower⟩ := adopts
  have tears : ∀ r1 : Replica, r1.core.Torn →
      (installCommittedGaps setup app msg.committedgaps).Returns { r1 with committedGaps := {} }
        (fun _ r2 => (completeStartView setup app msg).Returns r2 Post) →
      ∃ r', r'.core.Torn ∧ Post () r' := by
    intro r1 torn onward
    have torn1 : ({ r1 with committedGaps := {} } : Replica).core.Torn := torn
    obtain ⟨r2, torn2, completes⟩ := installCommittedGaps_tears torn1 onward
    exact completeStartView_tears follower torn2 completes
  simp only [handleStartView, Handler.returns_bind, Handler.returns_get, Handler.returns_ite,
    Handler.returns_require, Handler.returns_modify, if_neg current, if_neg new] at returns
  rcases rewindForView_cases returns.2 with ⟨normal, shorter, onward⟩ | ⟨r1, torn1, onward⟩
  · rcases rewindForGap_cases onward with ⟨upToDate, onward⟩ | ⟨r2, torn2, onward⟩
    · exact .inl ⟨normal, shorter, upToDate, onward⟩
    · exact .inr (tears r2 torn2 onward)
  · rcases rewindForGap_cases onward with ⟨-, onward⟩ | ⟨r2, torn2, onward⟩
    · exact .inr (tears r1 torn1 onward)
    · exact .inr (tears r2 torn2 onward)

/-- The log stays as it is where it is the beginning of what the view starts with. -/
theorem rewindForView_eq (normal : r.SameNormal msg) (shorter : r.lastOp ≤ msg.lastop) :
    rewindForView msg r = ⟨r, [], some ()⟩ := by
  have keeps : ¬ (r.lastNormalSessnum < msg.lastnormalsessnum ∨
      r.lastNormalView < msg.lastnormalview) := by
    rw [normal.1, normal.2]
    simp
  unfold rewindForView
  rw [Handler.get_bind, if_neg keeps, Handler.require_bind, if_pos normal.1, Handler.require_bind,
    if_pos normal.2, if_neg (Nat.not_lt.mpr shorter)]
  rfl

/-- It stays as it is where no gap is outdated. -/
theorem rewindForGap_eq (upToDate : r.outdatedGap msg = none) :
    rewindForGap msg r = ⟨r, [], some ()⟩ := by
  unfold rewindForGap
  rw [Handler.get_bind, upToDate]
  rfl

/-- Where nothing is rewound, the handler comes down to the gaps of the view and its end. -/
theorem handleStartView_eq (adopts : r.Adopts setup msg) (normal : r.SameNormal msg)
    (shorter : r.lastOp ≤ msg.lastop) (upToDate : r.outdatedGap msg = none) :
    handleStartView setup app msg r = (installCommittedGaps setup app msg.committedgaps >>= fun _ =>
      completeStartView setup app msg) { r with committedGaps := {} } := by
  obtain ⟨current, new, follower⟩ := adopts
  unfold handleStartView
  rw [Handler.get_bind, if_neg current, if_neg new, Handler.require_bind, if_pos follower,
    Handler.bind_of_ended (rewindForView_eq normal shorter),
    Handler.bind_of_ended (rewindForGap_eq upToDate)]
  rfl

/-- Nothing is rewound where the log is the beginning of what the view starts with. -/
theorem handleStartView_returns {Post : Unit → Replica → Prop} (adopts : r.Adopts setup msg)
    (normal : r.SameNormal msg) (shorter : r.lastOp ≤ msg.lastop)
    (upToDate : r.outdatedGap msg = none)
    (onward : (installCommittedGaps setup app msg.committedgaps).Returns
      { r with committedGaps := {} } fun _ r1 => (completeStartView setup app msg).Returns r1 Post) :
    (handleStartView setup app msg).Returns r Post := by
  unfold Returns
  rw [handleStartView_eq adopts normal shorter upToDate]
  exact Handler.returns_bind.mpr onward

/-- What is asked for then is what is asked for after the gaps of the view. -/
theorem handleStartView_asks (adopts : r.Adopts setup msg) (normal : r.SameNormal msg)
    (shorter : r.lastOp ≤ msg.lastop) (upToDate : r.outdatedGap msg = none) {r1 : Replica}
    (installs : (installCommittedGaps setup app msg.committedgaps).Returns
      { r with committedGaps := {} } fun _ r' => r' = r1) :
    asked (handleStartView setup app msg) r = asked (completeStartView setup app msg) r1 := by
  obtain ⟨⟨⟩, ended, rfl⟩ := installs
  unfold asked
  rw [handleStartView_eq adopts normal shorter upToDate]
  exact asked_bind (framed_unasking.installCommittedGaps _) ended

/-! ## The state transfer -/

/-- Which reply the leader gives to a request, if any. -/
theorem answers_iff {addr : Address} {request : StateTransferRequestMessage}
    {reply : StateTransferReplyMessage} : leader.Answers addr request reply ↔
      request.sessnum = leader.sessnum ∧ request.view = leader.view ∧
      request.begin_ ≤ leader.lastOp ∧ request.end_ ≤ leader.lastOp + 1 ∧
      ∃ entries, leader.log.dump request.begin_ request.end_ = some entries ∧
        reply = { sessnum := leader.sessnum, view := leader.view, begin_ := request.begin_,
                  end_ := request.end_, entries := entries } := by
  have outputs : (handleStateTransferRequest addr request leader).outputs =
      if request.sessnum ≠ leader.sessnum ∨ request.view ≠ leader.view then []
      else if leader.lastOp < request.begin_ ∨ leader.lastOp + 1 < request.end_ then []
      else match leader.log.dump request.begin_ request.end_ with
        | none => []
        | some entries => [.send (.one addr) (.stateTransferReply
            { sessnum := leader.sessnum, view := leader.view, begin_ := request.begin_,
              end_ := request.end_, entries := entries })] := by
    have started : (handleStateTransferRequest addr request leader).outputs =
        ((if request.sessnum ≠ leader.sessnum ∨ request.view ≠ leader.view then pure ()
          else if leader.lastOp < request.begin_ ∨ leader.lastOp + 1 < request.end_ then pure ()
          else do
            let entries ← Handler.demand (leader.log.dump request.begin_ request.end_)
            sendMessage addr (.stateTransferReply
              { sessnum := leader.sessnum, view := leader.view, begin_ := request.begin_,
                end_ := request.end_, entries := entries }) : Run Unit) leader).outputs := rfl
    rw [started]
    split
    next => rfl
    next =>
        split
        next => rfl
        next =>
            cases leader.log.dump request.begin_ request.end_ <;> rfl
  unfold Replica.Answers
  rw [outputs]
  constructor
  · intro member
    split at member
    next => nomatch member
    next current =>
        split at member
        next => nomatch member
        next inside =>
            split at member
            next => nomatch member
            next entries dumped =>
                obtain ⟨sessnum, view⟩ := not_or.mp current
                obtain ⟨begins, ends⟩ := not_or.mp inside
                have same := List.mem_singleton.mp member
                simp only [Output.send.injEq, Message.stateTransferReply.injEq, true_and] at same
                exact ⟨not_not.mp sessnum, not_not.mp view, Nat.not_lt.mp begins,
                  Nat.not_lt.mp ends, entries, dumped, same⟩
  · rintro ⟨sessnum, view, begins, ends, entries, dumped, rfl⟩
    rw [if_neg (by simp [sessnum, view]), if_neg (by omega), dumped]
    exact List.mem_singleton_self _

/-- The replica has the rest of its log from the leader. -/
structure Replica.Fetches (r leader : Replica) (lastop : Nat) (r' : Replica) : Prop where
  lastOp : r'.lastOp = lastop
  old : ∀ opnum entry, r.log.find opnum = some entry → r'.log.find opnum = some entry
  new : ∀ opnum, r.lastOp < opnum → opnum ≤ lastop → ∃ entry, leader.log.find opnum = some entry ∧
    r'.log.find opnum = some entry

section Transfer

variable {addr : Address} {lastop : Nat} {reply : StateTransferReplyMessage}

/-- What the leader sends for the rest of a log is put in entry by entry. -/
theorem handleStateTransferReply_rest {Post : Unit → Replica → Prop} (behind : r.lastOp < lastop)
    (answers : leader.Answers addr (r.restRequest lastop) reply) :
    (∀ index entry, reply.entries[index]? = some entry →
      leader.log.find (r.lastOp + 1 + index) = some entry) ∧
    r.lastOp + reply.entries.length = lastop ∧ r.Continued reply.entries ∧
    ((handleStateTransferReply setup app reply).Returns r Post ↔
      (Handler.forEach reply.entries (transferEntry setup app)).Returns r Post) := by
  obtain ⟨sessnum, view, -, -, entries, dumped, rfl⟩ := answers_iff.mp answers
  change leader.log.dump (r.lastOp + 1) (lastop + 1) = some entries at dumped
  obtain ⟨length, numbers⟩ := Log.of_dump (Nat.succ_pos _) (by omega) dumped
  refine ⟨fun index entry found => (numbers index entry found).2, ?_, ?_, ?_⟩
  · change r.lastOp + entries.length = lastop
    omega
  · intro index entry found
    have := (numbers index entry found).1
    omega
  · rw [handleStateTransferReply_returns sessnum.symm view.symm le_rfl (Nat.succ_lt_succ behind)
      length fun index entry found => (numbers index entry found).1]
    change (Handler.forEach (entries.drop (r.lastOp + 1 - (r.lastOp + 1))) _).Returns r Post ↔ _
    rw [Nat.sub_self, List.drop_zero]

/-- A replica without gaps in the rest gets it from the leader. -/
theorem handleStateTransferReply_fetches (sturdy : r.core.Sturdy setup) (behind : r.lastOp < lastop)
    (answers : leader.Answers addr (r.restRequest lastop) reply)
    (free : ∀ gap ∈ r.committedGaps, gap ≤ r.lastOp) :
    (handleStateTransferReply setup app reply).Returns r fun _ r' => r.Fetches leader lastop r' := by
  obtain ⟨theirs, length, continued, returns⟩ := handleStateTransferReply_rest behind answers
  rw [returns]
  apply (transferEntries_returns sturdy continued fun gap member => .inl (free gap member)).imp
  rintro _ r' ⟨more, grows, gaps⟩
  obtain rfl : more = [] := by
    cases more with
    | nil => rfl
    | cons other others =>
        have found : (reply.entries ++ other :: others)[reply.entries.length]? = some other := by
          rw [List.getElem?_append_right le_rfl, Nat.sub_self]
          rfl
        have number := grows.number sturdy.whole found
        have := free _ (gaps other List.mem_cons_self)
        omega
  rw [List.append_nil] at grows
  constructor
  · rw [grows.lastOp sturdy.whole, length]
  · exact fun opnum entry found => grows.find_old found
  · intro opnum above below
    have inside : opnum - r.lastOp - 1 < reply.entries.length := by omega
    have found := List.getElem?_eq_getElem inside
    have same : r.lastOp + (opnum - r.lastOp - 1) + 1 = opnum := by omega
    have same' : r.lastOp + 1 + (opnum - r.lastOp - 1) = opnum := by omega
    refine ⟨_, same' ▸ theirs _ _ found, ?_⟩
    have there := grows.find_new sturdy.whole found
    rwa [same] at there

/-- A replica with a gap in the rest does not. -/
theorem handleStateTransferReply_stuck {Post : Unit → Replica → Prop} {gap : Nat}
    (sturdy : r.core.Sturdy setup) (answers : leader.Answers addr (r.restRequest lastop) reply)
    (drained : r.lastOp + 1 ∉ r.committedGaps) (member : gap ∈ r.committedGaps)
    (beyond : r.lastOp < gap) (inside : gap ≤ lastop) :
    ¬ (handleStateTransferReply setup app reply).Returns r Post := by
  have behind : r.lastOp < lastop := by omega
  have different : gap ≠ r.lastOp + 1 := fun same => drained (same ▸ member)
  obtain ⟨-, length, continued, returns⟩ := handleStateTransferReply_rest behind answers
  rw [returns]
  exact transferEntries_stuck sturdy continued member (by omega) (by omega)

/-- The leader has the rest of a log if and only if it answers. -/
theorem exists_answers (sessnum : leader.sessnum = r.sessnum) (view : leader.view = r.view)
    (behind : r.lastOp < lastop) (counted : leader.log.entries.length ≤ leader.lastOp) :
    (∃ reply, leader.Answers addr (r.restRequest lastop) reply) ↔
      lastop ≤ leader.log.entries.length := by
  constructor
  · rintro ⟨reply, answers⟩
    obtain ⟨-, -, -, -, entries, dumped, -⟩ := answers_iff.mp answers
    unfold Log.dump at dumped
    split at dumped
    next inside =>
        rw [Log.lastOpnum_eq] at inside
        exact Nat.le_of_succ_le_succ inside
    next => nomatch dumped
  · intro there
    have dumps : ∃ entries, leader.log.dump (r.lastOp + 1) (lastop + 1) = some entries := by
      refine ⟨_, if_pos ?_⟩
      rw [Log.lastOpnum_eq]
      exact Nat.succ_le_succ there
    obtain ⟨entries, dumped⟩ := dumps
    refine ⟨_, answers_iff.mpr ⟨sessnum.symm, view.symm, ?_, ?_, entries, dumped, rfl⟩⟩
    · change r.lastOp + 1 ≤ leader.lastOp
      omega
    · change lastop + 1 ≤ leader.lastOp + 1
      omega

end Transfer

/-! ## The whole -/

/-- What the log has is what the view starts with. -/
def Replica.Agrees (r leader : Replica) (msg : StartViewMessage) : Prop :=
  ∀ opnum entry, r.log.find opnum = some entry →
    entry.Merged msg.committedgaps opnum (leader.log.find opnum)

section Whole

variable {addr : Address}

/-- A log that has an entry for every operation is the one that the view starts with if it agrees
with it. -/
theorem Replica.Agrees.adopted (agrees : r.Agrees leader msg) (whole : r.core.Whole)
    (lastOp : r.lastOp = msg.lastop) : r.Adopted leader msg where
  lastOp := lastOp
  merged opnum positive inside := by
    obtain ⟨entry, found⟩ := whole.exists_find positive (lastOp ▸ inside)
    exact ⟨entry, found, agrees opnum entry found⟩

/-- What the log of the view contains is what the view starts with. -/
theorem Replica.Adopted.agrees {r' : Replica} (adopted : r'.Adopted leader msg)
    (whole : r.core.Whole) (within : r.lastOp ≤ msg.lastop)
    (old : ∀ opnum entry, r.log.find opnum = some entry → r'.log.find opnum = some entry) :
    r.Agrees leader msg := by
  intro opnum entry found
  obtain ⟨positive, inside⟩ := whole.inside found
  obtain ⟨other, there, merged⟩ := adopted.merged opnum positive (inside.trans within)
  rwa [Option.some.inj ((old opnum entry found).symm.trans there)]

/-- A torn log is not the one that a view starts with, whatever the leader sends. -/
theorem not_obtains_of_torn {requests : List (Destination × StateTransferRequestMessage)}
    (torn : r.core.Torn) : ¬ r.Obtains setup app leader addr msg requests := by
  have not_adopted : ∀ r' : Replica, r'.core.Torn → ¬ r'.Adopted leader msg := by
    intro r' torn' adopted
    change r'.log.entries.length < r'.lastOp at torn'
    obtain ⟨entry, found, -⟩ := adopted.merged r'.lastOp (by omega) adopted.lastOp.le
    have := (List.getElem?_eq_some_iff.mp (Log.find_eq_some.mp found).2).1
    omega
  intro obtains
  unfold Replica.Obtains at obtains
  split at obtains
  next => exact not_adopted r torn obtains
  next =>
      obtain ⟨-, reply, -, post⟩ := obtains
      have returns : (handleStateTransferReply setup app reply).Returns r fun _ r' =>
          r'.Adopted leader msg := Handler.returns_iff_of_unit.mpr post
      obtain ⟨r', torn', adopted⟩ := handleStateTransferReply_tears torn returns
      exact not_adopted r' torn' adopted
  next => exact obtains

/-- A replica that has entered the view and asks for nothing has the log that it starts with if its
own log agrees with it. -/
theorem obtains_iff_of_entered {r' : Replica} (whole : r.core.Whole) (lastOp : r.lastOp = msg.lastop)
    (core : r'.core = r.core.entering msg.sessnum msg.view) :
    r'.Obtains setup app leader addr msg [] ↔ r.Agrees leader msg := by
  have log : r'.log = r.log := congrArg Core.log core
  have lastOp' : r'.lastOp = r.lastOp := congrArg Core.lastOp core
  have whole' : r'.core.Whole := by
    rw [core]
    exact whole
  unfold Replica.Obtains
  constructor
  · intro adopted
    exact adopted.agrees whole lastOp.le fun _ _ found => log ▸ found
  · intro agrees
    have agrees' : r'.Agrees leader msg := fun opnum entry found => agrees opnum entry (log ▸ found)
    exact agrees'.adopted whole' (lastOp'.trans lastOp)

/-- A replica that asks the leader for the rest gets it if it has no gaps there and the leader has
received all of it. -/
theorem obtains_iff_of_waiting {r' : Replica} (sturdy : r.core.Sturdy setup)
    (drained : r.lastOp + 1 ∉ r.committedGaps)
    (known : ∀ gap, gap ∈ r.committedGaps ↔ gap ∈ msg.committedgaps)
    (bounded : ∀ gap ∈ msg.committedgaps, gap ≤ msg.lastop)
    (sessnum : leader.sessnum = msg.sessnum) (view : leader.view = msg.view)
    (counted : leader.log.entries.length ≤ leader.lastOp) (behind : r.lastOp < msg.lastop)
    (core : r'.core = (r.core.joining msg.sessnum msg.view).transferring msg.lastop
      (setup.configuration.getLeaderIndex msg.view) .enterView true) :
    r'.Obtains setup app leader addr msg [(.one (.replica (setup.configuration.getLeaderIndex
        msg.view)), { r with sessnum := msg.sessnum, view := msg.view }.restRequest msg.lastop)] ↔
      r.Agrees leader msg ∧
      (∀ gap ∈ msg.committedgaps, gap ≤ r.lastOp) ∧
      ∀ opnum, r.lastOp < opnum → opnum ≤ msg.lastop → ∃ theirs,
        leader.log.find opnum = some theirs ∧ theirs.state = .received := by
  have log : r'.log = r.log := congrArg Core.log core
  have lastOp : r'.lastOp = r.lastOp := congrArg Core.lastOp core
  have gaps : r'.committedGaps = r.committedGaps := congrArg Core.committedGaps core
  have sessnum' : r'.sessnum = msg.sessnum := congrArg Core.sessnum core
  have view' : r'.view = msg.view := congrArg Core.view core
  have behind' : r'.lastOp < msg.lastop := lastOp.trans_lt behind
  have drained' : r'.lastOp + 1 ∉ r'.committedGaps := by rwa [lastOp, gaps]
  have sturdy' : r'.core.Sturdy setup := by
    rw [core]
    exact ⟨sturdy.whole, sturdy.point, fun _ => trivial⟩
  have own : { r with sessnum := msg.sessnum, view := msg.view }.restRequest msg.lastop =
      r'.restRequest msg.lastop := by
    unfold Replica.restRequest
    rw [sessnum', view', lastOp]
  unfold Replica.Obtains
  rw [own]
  constructor
  · rintro ⟨-, reply, answers, post⟩
    have returns : (handleStateTransferReply setup app reply).Returns r' fun _ r'' =>
        r''.Adopted leader msg := Handler.returns_iff_of_unit.mpr post
    have free : ∀ gap ∈ r'.committedGaps, gap ≤ r'.lastOp := by
      intro gap member
      by_contra beyond
      have inside : gap ≤ msg.lastop := bounded gap ((known gap).mp (gaps ▸ member))
      exact handleStateTransferReply_stuck sturdy' answers drained' member (Nat.not_le.mp beyond)
        inside returns
    have free' : ∀ gap ∈ msg.committedgaps, gap ≤ r.lastOp := by
      intro gap member
      have inside := free gap (gaps ▸ (known gap).mpr member)
      rwa [lastOp] at inside
    obtain ⟨⟨⟩, -, fetches, adopted⟩ :=
      (handleStateTransferReply_fetches sturdy' behind' answers free).and returns
    refine ⟨?_, free', ?_⟩
    · exact adopted.agrees sturdy.whole behind.le fun _ _ found => fetches.old _ _ (log ▸ found)
    · intro opnum above below
      obtain ⟨theirs, hasIt, there⟩ := fetches.new opnum (lastOp.trans_lt above) below
      obtain ⟨entry, found, merged⟩ := adopted.merged opnum (by omega) below
      obtain rfl := Option.some.inj (there.symm.trans found)
      have noGap : opnum ∉ msg.committedgaps := by
        intro gap
        have := free' opnum gap
        omega
      unfold Entry.Merged at merged
      rw [if_neg noGap] at merged
      exact ⟨theirs, hasIt, merged.1⟩
  · rintro ⟨agrees, free, received⟩
    have free' : ∀ gap ∈ r'.committedGaps, gap ≤ r'.lastOp := by
      intro gap member
      rw [lastOp]
      exact free gap ((known gap).mp (gaps ▸ member))
    have there : msg.lastop ≤ leader.log.entries.length := by
      obtain ⟨theirs, hasIt, -⟩ := received msg.lastop behind le_rfl
      have := (List.getElem?_eq_some_iff.mp (Log.find_eq_some.mp hasIt).2).1
      omega
    obtain ⟨reply, answers⟩ := (@exists_answers r' leader addr msg.lastop
      (sessnum.trans sessnum'.symm) (view.trans view'.symm) behind' counted).mpr there
    suffices gets : (handleStateTransferReply setup app reply).Returns r' fun _ r'' =>
        r''.Adopted leader msg from ⟨rfl, reply, answers, Handler.returns_iff_of_unit.mp gets⟩
    apply (handleStateTransferReply_fetches sturdy' behind' answers free').imp
    intro _ r'' fetches
    refine ⟨fetches.lastOp, fun opnum positive below => ?_⟩
    rcases Nat.lt_or_ge r.lastOp opnum with above | inside
    · obtain ⟨theirs, hasIt, found⟩ := fetches.new opnum (lastOp.trans_lt above) below
      obtain ⟨other, found', state⟩ := received opnum above below
      obtain rfl := Option.some.inj (found'.symm.trans hasIt)
      have noGap : opnum ∉ msg.committedgaps := by
        intro gap
        have := free opnum gap
        omega
      refine ⟨_, found, ?_⟩
      unfold Entry.Merged
      rw [if_neg noGap]
      exact ⟨state, _, hasIt, rfl⟩
    · obtain ⟨entry, found⟩ := sturdy.whole.exists_find positive inside
      exact ⟨entry, fetches.old _ _ (log ▸ found), agrees opnum entry found⟩

/-- A replica whose gaps are installed completes the view change with the log of the view if its own
log agrees with it, no gap lies in the rest, and the leader has received all of the rest. -/
theorem completeStartView_obtains_iff (sturdy : r.core.Sturdy setup)
    (drained : r.lastOp + 1 ∉ r.committedGaps)
    (known : ∀ gap, gap ∈ r.committedGaps ↔ gap ∈ msg.committedgaps)
    (bounded : ∀ gap ∈ msg.committedgaps, gap ≤ msg.lastop) (within : r.lastOp ≤ msg.lastop)
    (follower : ¬ setup.AmLeader msg.view) (old : r.sessnum ≤ msg.sessnum ∧ r.view ≤ msg.view)
    (sessnum : leader.sessnum = msg.sessnum) (view : leader.view = msg.view)
    (counted : leader.log.entries.length ≤ leader.lastOp) :
    ((completeStartView setup app msg).Returns r fun _ r' =>
      r'.Obtains setup app leader addr msg (asked (completeStartView setup app msg) r)) ↔
      r.Agrees leader msg ∧ (r.lastOp < msg.lastop → (∀ gap ∈ msg.committedgaps, gap ≤ r.lastOp) ∧
        ∀ opnum, r.lastOp < opnum → opnum ≤ msg.lastop → ∃ theirs,
          leader.log.find opnum = some theirs ∧ theirs.state = .received) := by
  have completes := @completeStartView_returns setup app r msg sturdy follower old.1 old.2
  rw [completeStartView_asks]
  by_cases behind : r.lastOp < msg.lastop
  · rw [if_pos behind] at completes ⊢
    have obtains_iff := fun (r' : Replica) core => @obtains_iff_of_waiting setup app r leader msg addr
      r' sturdy drained known bounded sessnum view counted behind core
    constructor
    · intro obtains
      obtain ⟨⟨⟩, -, core, obtains'⟩ := completes.and obtains
      obtain ⟨agrees, free, received⟩ := (obtains_iff _ core).mp obtains'
      exact ⟨agrees, fun _ => ⟨free, received⟩⟩
    · rintro ⟨agrees, rest⟩
      obtain ⟨free, received⟩ := rest behind
      exact completes.imp fun _ r' core => (obtains_iff r' core).mpr ⟨agrees, free, received⟩
  · rw [if_neg behind] at completes ⊢
    have lastOp : r.lastOp = msg.lastop := by omega
    have obtains_iff := fun (r' : Replica) core => @obtains_iff_of_entered setup app r leader msg addr
      r' sturdy.whole lastOp core
    constructor
    · intro obtains
      obtain ⟨⟨⟩, -, core, obtains'⟩ := completes.and obtains
      exact ⟨(obtains_iff _ core).mp obtains', fun below => absurd below behind⟩
    · rintro ⟨agrees, -⟩
      exact completes.imp fun _ r' core => (obtains_iff r' core).mpr agrees

theorem increasing_nil : ([] : List Nat).Pairwise (· < ·) := .nil

/-- The replica before it installs the gaps of a view. -/
def Replica.gapless (r : Replica) : Replica :=
  { r with committedGaps := { increasing := increasing_nil } }

/-- The gaps of the view are all that there are. -/
theorem Replica.Patched.known_iff {gaps : List Nat} {r' : Replica}
    (patched : r.gapless.Patched setup gaps r') (gap : Nat) :
    gap ∈ r'.committedGaps ↔ gap ∈ gaps :=
  (patched.known gap).trans (or_iff_right OpnumSet.not_mem_empty)

/-- The log with the gaps agrees with the log of the view if it did without them. -/
theorem Replica.Patched.agrees_iff {r' : Replica}
    (patched : r.gapless.Patched setup msg.committedgaps r') (whole : r.core.Whole) :
    r'.Agrees leader msg ↔ ∀ opnum entry, r.log.find opnum = some entry →
      opnum ∉ msg.committedgaps → entry.state = .received ∧
        ∃ theirs, leader.log.find opnum = some theirs ∧ theirs.request = entry.request := by
  constructor
  · intro agrees opnum entry found noGap
    have there := patched.old opnum entry found
    rw [if_neg fun both => noGap both.1] at there
    have merged := agrees opnum entry there
    unfold Entry.Merged at merged
    rwa [if_neg noGap] at merged
  · intro own opnum entry' there'
    unfold Entry.Merged
    obtain ⟨positive, inside'⟩ := Core.Whole.inside patched.sturdy.whole there'
    rcases Nat.lt_or_ge r.lastOp opnum with above | inside
    · obtain ⟨member, entry, there, noop⟩ := patched.new opnum above inside'
      obtain rfl := Option.some.inj (there.symm.trans there')
      rwa [if_pos ((patched.known_iff opnum).mp member)]
    · obtain ⟨entry, found⟩ := whole.exists_find positive inside
      have there := patched.old opnum entry found
      obtain rfl := Option.some.inj (there.symm.trans there')
      by_cases gap : opnum ∈ msg.committedgaps
      · rw [if_pos gap, if_pos ⟨gap, OpnumSet.not_mem_empty⟩]
        rfl
      · rw [if_neg gap, if_neg fun both => gap both.1]
        exact own opnum entry found gap

/-- What is missing with the gaps, and what was missing without them. -/
theorem Replica.Patched.missing_iff {r' : Replica}
    (patched : r.gapless.Patched setup msg.committedgaps r')
    (bounded : ∀ gap ∈ msg.committedgaps, gap ≤ msg.lastop) (within : r'.lastOp ≤ msg.lastop) :
    (r'.lastOp < msg.lastop → (∀ gap ∈ msg.committedgaps, gap ≤ r'.lastOp) ∧
      ∀ opnum, r'.lastOp < opnum → opnum ≤ msg.lastop → ∃ theirs,
        leader.log.find opnum = some theirs ∧ theirs.state = .received) ↔
    ∀ opnum, r.lastOp < opnum → opnum ≤ msg.lastop →
      if opnum ∈ msg.committedgaps then
        ∀ other, r.lastOp < other → other < opnum → other ∈ msg.committedgaps
      else ∃ theirs, leader.log.find opnum = some theirs ∧ theirs.state = .received := by
  have longer : r.lastOp ≤ r'.lastOp := patched.longer
  have new : ∀ opnum, r.lastOp < opnum → opnum ≤ r'.lastOp → opnum ∈ msg.committedgaps :=
    fun opnum above below => (patched.known_iff opnum).mp (patched.new opnum above below).1
  constructor
  · intro rest opnum above below
    split
    next gap =>
        intro other aboveOther belowOther
        apply new other aboveOther
        rcases within.lt_or_eq with behind | there
        · have := (rest behind).1 opnum gap
          omega
        · omega
    next noGap =>
        have beyond : r'.lastOp < opnum := by
          by_contra inside
          exact noGap (new opnum above (Nat.not_lt.mp inside))
        exact (rest (beyond.trans_le below)).2 opnum beyond below
  · intro missing behind
    have notNext : r'.lastOp + 1 ∉ msg.committedgaps := fun member =>
      patched.drained ((patched.known_iff _).mpr member)
    have free : ∀ gap ∈ msg.committedgaps, gap ≤ r'.lastOp := by
      intro gap member
      by_contra beyond
      have between := missing gap (longer.trans_lt (Nat.not_le.mp beyond)) (bounded gap member)
      rw [if_pos member] at between
      have different : gap ≠ r'.lastOp + 1 := fun same => notNext (same ▸ member)
      exact notNext (between (r'.lastOp + 1) (by omega) (by omega))
    refine ⟨free, fun opnum above below => ?_⟩
    have theirs := missing opnum (longer.trans_lt above) below
    rwa [if_neg fun gap => absurd (free opnum gap) (Nat.not_le.mpr above)] at theirs

/-- The gaps of a view do not make a log longer than the view. -/
theorem Replica.Patched.within {r' : Replica}
    (patched : r.gapless.Patched setup msg.committedgaps r')
    (bounded : ∀ gap ∈ msg.committedgaps, gap ≤ msg.lastop) (shorter : r.lastOp ≤ msg.lastop) :
    r'.lastOp ≤ msg.lastop := by
  by_contra beyond
  have longer : r.lastOp < r'.lastOp := by omega
  obtain ⟨member, -⟩ := patched.new r'.lastOp longer le_rfl
  exact beyond (bounded _ ((patched.known_iff _).mp member))

/-- A replica obtains the log of a view if and only if it was ready for it. -/
theorem Replica.takesOver_iff (adopts : r.Adopts setup msg)
    (grounded : r.core.Torn ∨ r.core.Sturdy setup)
    (increasing : msg.committedgaps.Pairwise (· < ·))
    (bounded : ∀ gap ∈ msg.committedgaps, gap ≤ msg.lastop)
    (sessnum : leader.sessnum = msg.sessnum) (view : leader.view = msg.view)
    (counted : leader.log.entries.length ≤ leader.lastOp) :
    r.TakesOver setup leader addr msg ↔ r.ReadyFor leader msg := by
  have drained : r.gapless.lastOp + 1 ∉ r.gapless.committedGaps := OpnumSet.not_mem_empty
  have later : r.sessnum ≤ msg.sessnum ∧ r.view ≤ msg.view := by
    have := adopts.1
    omega
  have takes_iff : ∀ gap, r.gapless.Takes gap ↔ (gap ≤ r.lastOp → ∃ entry,
      r.log.find gap = some entry ∧
        (entry.state = .noop ∨ r.lastCommittedOp < gap ∧ r.lastExecutedOp < gap)) :=
    fun gap => or_iff_right OpnumSet.not_mem_empty
  have completes_iff := fun (app : App) (r' : Replica)
      (patched : r.gapless.Patched setup msg.committedgaps r') (shorter : r.lastOp ≤ msg.lastop) =>
    @completeStartView_obtains_iff setup app r' leader msg addr patched.sturdy patched.drained
      patched.known_iff bounded (patched.within bounded shorter) adopts.2.2
      ⟨patched.sessnum.trans_le later.1, patched.view.trans_le later.2⟩ sessnum view counted
  constructor
  · intro takesOver
    have returns : (handleStartView setup {} msg).Returns r fun _ r' =>
        r'.Obtains setup {} leader addr msg (asked (handleStartView setup {} msg) r) :=
      Handler.returns_iff_of_unit.mpr (takesOver {})
    rcases handleStartView_cases adopts returns with ⟨normal, shorter, upToDate, onward⟩ | torn
    · change (installCommittedGaps setup {} msg.committedgaps).Returns r.gapless _ at onward
      have sturdy : r.gapless.core.Sturdy setup := by
        rcases grounded with torn | sturdy
        · have torn0 : r.gapless.core.Torn := torn
          obtain ⟨r1, torn1, completes⟩ := installCommittedGaps_tears torn0 onward
          obtain ⟨r2, torn2, obtains⟩ := completeStartView_tears adopts.2.2 torn1 completes
          exact absurd obtains (not_obtains_of_torn torn2)
        · exact ⟨sturdy.whole, sturdy.point, sturdy.awaits⟩
      have whole : r.core.Whole := sturdy.whole
      have takes : ∀ gap ∈ msg.committedgaps, r.gapless.Takes gap := by
        intro gap member
        by_contra fails
        exact installCommittedGaps_stuck sturdy drained member fails onward
      obtain ⟨⟨⟩, ended, patched, completes⟩ :=
        (installCommittedGaps_returns sturdy drained takes (.inr increasing)).and onward
      rw [handleStartView_asks adopts normal shorter upToDate ⟨(), ended, rfl⟩] at completes
      obtain ⟨agrees, rest⟩ := (completes_iff {} _ patched shorter).mp completes
      exact {
        whole := by
          rw [Log.lastOpnum_eq]
          exact whole.symm
        normal := normal
        shorter := shorter
        upToDate := upToDate
        gaps := fun gap member => (takes_iff gap).mp (takes gap member)
        own := (patched.agrees_iff whole).mp agrees
        missing := (patched.missing_iff bounded (patched.within bounded shorter)).mp rest }
    · obtain ⟨r', torn', obtains⟩ := torn
      exact absurd obtains (not_obtains_of_torn torn')
  · rintro ⟨counts, normal, shorter, upToDate, gaps, own, missing⟩ app
    have whole : r.core.Whole := by
      rw [Log.lastOpnum_eq] at counts
      exact counts.symm
    have sturdy : r.gapless.core.Sturdy setup := by
      rcases grounded with torn | sturdy
      · change r.log.entries.length < r.lastOp at torn
        change r.log.entries.length = r.lastOp at whole
        omega
      · exact ⟨sturdy.whole, sturdy.point, sturdy.awaits⟩
    have takes : ∀ gap ∈ msg.committedgaps, r.gapless.Takes gap :=
      fun gap member => (takes_iff gap).mpr (gaps gap member)
    suffices gets : (handleStartView setup app msg).Returns r fun _ r' =>
        r'.Obtains setup app leader addr msg (asked (handleStartView setup app msg) r) from
      Handler.returns_iff_of_unit.mp gets
    apply handleStartView_returns adopts normal shorter upToDate
    obtain ⟨⟨⟩, ended, patched⟩ :=
      @installCommittedGaps_returns setup app _ _ sturdy drained takes (.inr increasing)
    refine ⟨(), ended, ?_⟩
    rw [handleStartView_asks adopts normal shorter upToDate ⟨(), ended, rfl⟩]
    apply (completes_iff app _ patched shorter).mpr
    exact ⟨(patched.agrees_iff whole).mpr own,
      (patched.missing_iff bounded (patched.within bounded shorter)).mpr missing⟩

end Whole

/-! ## Runs -/

namespace System

variable {d : Deployment} {s : System} {idx : Nat}

/-- The log of a replica that has not stopped has no more entries than it counts. -/
theorem counted_of_reachable (reachable : (system d).Reachable TransitionSystem.unguarded s)
    (running : s.stopped idx = false) :
    (s.replicas idx).log.entries.length ≤ (s.replicas idx).lastOp := by
  rcases ((grounds_of_reachable reachable).grounded idx running).log with torn | ⟨whole, -⟩
  · exact Nat.le_of_lt torn
  · exact Nat.le_of_eq whole

/-- The leader of a view. -/
def leaderOf (s : System) (d : Deployment) (view : Nat) : Replica :=
  s.replicas (d.configuration.getLeaderIndex view)

/-- In every reachable state a replica obtains the log of a view that it starts, with the help of the
leader of the view, if and only if it is ready for it. -/
theorem takesOver_iff_ready (reachable : (system d).Reachable TransitionSystem.unguarded s)
    {src : Address} {msg : StartViewMessage} (running : s.stopped idx = false)
    (received : { src := src, dst := .replica idx, msg := .startView msg } ∈ s.network)
    (adopts : (s.replicas idx).Adopts (d.setup idx) msg)
    (led : s.stopped (d.configuration.getLeaderIndex msg.view) = false)
    (sessnum : (s.leaderOf d msg.view).sessnum = msg.sessnum)
    (view : (s.leaderOf d msg.view).view = msg.view) :
    (s.replicas idx).TakesOver (d.setup idx) (s.leaderOf d msg.view) (.replica idx) msg ↔
      (s.replicas idx).ReadyFor (s.leaderOf d msg.view) msg := by
  have grounds := grounds_of_reachable reachable
  have shaped : (Message.startView msg).Shaped := grounds.shaped _ received
  exact Replica.takesOver_iff adopts (grounds.grounded idx running).torn_or_sturdy shaped.1 shaped.2
    sessnum view (counted_of_reachable reachable led)

/-- The `StartView` of replica 1 for view 1, which starts with one request. -/
def firstStartView : StartViewMessage where
  sessnum := 0
  view := 1
  lastnormalsessnum := 0
  lastnormalview := 0
  lastop := 1
  committedgaps := []

/-- It is on its way to replica 2. -/
def starting : Packet where
  src := .replica 1
  dst := .replica 2
  msg := .startView firstStartView

/-- Two replicas have the first request. Replica 1 becomes the leader of view 1 with replica 0. -/
def startingRun : List Action :=
  ask 0 1 [0, 1] ++ deliveries [0, 1] ++ [.timer 1 .leaderSyncHeard {}] ++ deliveries [4, 8]

/-- Replica 2, which has nothing, gets the log of the view from its leader. -/
theorem takesOver_startingRun : ∃ s : System, (s.replicas 2).lastOp = 0 ∧
    (s.replicas 2).TakesOver (trio.setup 2) (s.leaderOf trio 1) (.replica 2) firstStartView := by
  obtain ⟨s, reachable, outcome⟩ := (system trio).exists_reachable_of_run
    TransitionSystem.unguarded
    (fun s => decide ((s.stopped 2 = false ∧ s.network[10]? = some starting ∧
      (s.replicas 2).Adopts (trio.setup 2) firstStartView) ∧
      (s.stopped 1 = false ∧ (s.leaderOf trio 1).sessnum = 0 ∧ (s.leaderOf trio 1).view = 1 ∧
        ((s.leaderOf trio 1).log.find 1).map Entry.state = some .received) ∧
      (s.replicas 2).lastOp = 0 ∧ (s.replicas 2).log.entries = [] ∧
      (s.replicas 2).SameNormal firstStartView ∧
      (s.replicas 2).outdatedGap firstStartView = none)) startingRun rfl (by decide +kernel)
  obtain ⟨⟨running, there, adopts⟩, ⟨led, sessnum, view, first⟩, lastOp, empty, normal, upToDate⟩ :=
    of_decide_eq_true outcome
  refine ⟨s, lastOp, ?_⟩
  apply (takesOver_iff_ready reachable running (List.mem_of_getElem? there) adopts led sessnum
    view).mpr
  exact {
    whole := by rw [lastOp, Log.lastOpnum_eq, empty, List.length_nil]
    normal := normal
    shorter := lastOp.trans_le (Nat.zero_le _)
    upToDate := upToDate
    gaps := fun gap member => nomatch member
    own := fun opnum entry found => by simp [Log.find, empty] at found
    missing := fun opnum above below => by
      have noGap : opnum ∉ firstStartView.committedgaps := List.not_mem_nil
      rw [if_neg noGap]
      have only : opnum = 1 := by
        change opnum ≤ 1 at below
        omega
      subst only
      exact Option.map_eq_some_iff.mp first }

/-- Replica 2 has a request more than the view starts with. It drops both that it has, and counts
one. -/
theorem not_takesOver_leadingRun : ¬ ∀ (d : Deployment) (s : System) (idx : Nat) (src : Address)
    (msg : StartViewMessage), (system d).Reachable TransitionSystem.unguarded s →
    s.stopped idx = false →
    { src := src, dst := .replica idx, msg := .startView msg } ∈ s.network →
    (s.replicas idx).Adopts (d.setup idx) msg →
    s.stopped (d.configuration.getLeaderIndex msg.view) = false →
    (s.leaderOf d msg.view).sessnum = msg.sessnum → (s.leaderOf d msg.view).view = msg.view →
    (s.replicas idx).TakesOver (d.setup idx) (s.leaderOf d msg.view) (.replica idx) msg := by
  intro always
  obtain ⟨s, reachable, outcome⟩ := (system trio).exists_reachable_of_run
    TransitionSystem.unguarded
    (fun s => decide ((s.stopped 2 = false ∧ s.network[14]? = some starting ∧
      (s.replicas 2).Adopts (trio.setup 2) firstStartView) ∧
      (s.stopped 1 = false ∧ (s.leaderOf trio 1).sessnum = 0 ∧ (s.leaderOf trio 1).view = 1) ∧
      asked (handleStartView (trio.setup 2) {} firstStartView) (s.replicas 2) = [] ∧
      (handleStartView (trio.setup 2) {} firstStartView (s.replicas 2)).state.log.find 1 = none))
    leadingRun rfl (by decide +kernel)
  obtain ⟨⟨running, there, adopts⟩, ⟨led, sessnum, view⟩, idle, gone⟩ := of_decide_eq_true outcome
  obtain ⟨-, obtains⟩ := always trio s 2 _ firstStartView reachable running
    (List.mem_of_getElem? there) adopts led sessnum view {}
  rw [idle] at obtains
  obtain ⟨entry, found, -⟩ := obtains.merged 1 Nat.one_pos le_rfl
  rw [gone] at found
  nomatch found

end System

end PaxosBus.NoPaxos

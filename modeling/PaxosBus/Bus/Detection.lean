import PaxosBus.Bus.Recovery
import PaxosBus.Bus.Agreement

/-!
# Which slots the gap timer recovers

A gap is an empty slot from the frontier up to the highest sequence number seen
whose deadline has passed. The scan of `OnGapTimeout` starts recovery for all of
them; its upper bound is the frontier where that lies above the highest sequence
number, and then it takes the slot at the frontier, which nobody has sent, for a
gap as well.
-/

set_option autoImplicit false

namespace PaxosBus.Bus

open Std PaxosBus.Common PaxosBus.Library

/-- Deadlines do not fall from one slot to the next. -/
theorem ClientStream.deadlineNs_mono (s : ClientStream) (options : Options) {slot later : Nat}
    (order : slot ≤ later) : s.deadlineNs options slot ≤ s.deadlineNs options later := by
  have slots : (slot : Int) - 1 ≤ (later : Int) - 1 := by omega
  have elapsed : ((slot : Int) - 1) * s.intervalNs ≤ ((later : Int) - 1) * s.intervalNs :=
    Int.mul_le_mul_of_nonneg_right slots (Int.natCast_nonneg s.intervalNs)
  unfold ClientStream.deadlineNs
  omega

namespace Replica

variable (r : Replica) (clientId : Nat)

/-- The slot is empty and its deadline has passed. -/
def Overdue (nowNs slot : Nat) : Prop :=
  (r.entry clientId slot).state = .empty ∧ (r.stream clientId).deadlineNs r.options slot ≤ nowNs

/-- The slot is overdue and lies between the frontier and the highest sequence number seen. -/
def Gap (nowNs slot : Nat) : Prop :=
  (r.stream clientId).nextExpected ≤ slot ∧ slot ≤ (r.stream clientId).maxSeqSeen ∧
    r.Overdue clientId nowNs slot

/-- Nothing holds recovery of the slot back: a follower repeats a request only when the last one
is `gapRetryMs` old. -/
def Ready (slot now : Nat) : Prop :=
  r.amLeader = true ∨ (r.stream clientId).recentlyRequested r.options slot now = false

/-- The leader is asked for the slot. -/
def Asks (sends : List Send) (slot : Nat) : Prop :=
  ∃ send ∈ sends, send.msg =
    .gapRequest { clientId, seqNum := slot, viewId := r.viewId, replicaIdx := r.replicaIdx }

/-- The gap timer starts recovery of the slot: the leader turns it into a NoOp, a follower asks
the leader for it. -/
def Recovers (clock : Nat → Nat) (slot : Nat) : Prop :=
  if r.amLeader = true then
    (r.entry clientId slot).state = .empty ∧
      ((r.onGapTimeout clientId clock).1.entry clientId slot).state = .noop
  else
    r.Asks clientId (r.onGapTimeout clientId clock).2 slot

/-- The gap timer starts recovery of exactly the gaps, but for the requests held back. -/
def Detects (clock : Nat → Nat) : Prop :=
  ∀ slot, r.Recovers clientId clock slot ↔
    r.Gap clientId (clock 0) slot ∧ r.Ready clientId slot (clock slot)

/-- The frontier is within what has been seen, or nothing is done about the slot there: it is
filled, or its deadline has not passed, or the leader has just been asked for it. -/
def Within (clock : Nat → Nat) : Prop :=
  (r.stream clientId).nextExpected ≤ (r.stream clientId).maxSeqSeen ∨
    ¬ r.Overdue clientId (clock 0) (r.stream clientId).nextExpected ∨
      ¬ r.Ready clientId (r.stream clientId).nextExpected
        (clock (r.stream clientId).nextExpected)

instance (nowNs slot : Nat) : Decidable (r.Overdue clientId nowNs slot) :=
  inferInstanceAs (Decidable (_ ∧ _))

instance (slot now : Nat) : Decidable (r.Ready clientId slot now) :=
  inferInstanceAs (Decidable (_ ∨ _))

instance (clock : Nat → Nat) : Decidable (r.Within clientId clock) :=
  inferInstanceAs (Decidable (_ ∨ _ ∨ _))

/-! ## The scan -/

/-- Resolving a slot moves no deadline. -/
theorem deadlineNs_resolveGap (slot now other : Nat) (options : Options) :
    ((r.resolveGap clientId slot now).1.stream clientId).deadlineNs options other =
      (r.stream clientId).deadlineNs options other := by
  rw [stream_resolveGap, if_pos rfl]
  unfold ClientStream.resolve ClientStream.nullify ClientStream.ask
  split <;> split <;> rfl

/-- Resolving a slot leaves the others as overdue as they were. -/
theorem overdue_resolveGap {slot other : Nat} (now nowNs : Nat) (different : slot ≠ other) :
    (r.resolveGap clientId slot now).1.Overdue clientId nowNs other ↔
      r.Overdue clientId nowNs other := by
  have options : (r.resolveGap clientId slot now).1.options = r.options := by
    have identityEq := r.identity_resolveGap clientId slot now
    simp only [identity, Prod.mk.injEq] at identityEq
    exact identityEq.2.2.1
  unfold Overdue
  rw [options, deadlineNs_resolveGap, entry_resolveGap_of_ne _ _ _ _ _ _ (by simp [different])]

/-- The scan of the leader turns exactly the overdue slots into NoOps. -/
theorem noop_scanGaps (leads : r.amLeader = true) (nowNs : Nat) (clock : Nat → Nat)
    (slot slots other : Nat) :
    (r.entry clientId other).state = .empty ∧
        ((r.scanGaps clientId nowNs clock slot slots).1.entry clientId other).state = .noop ↔
      slot ≤ other ∧ other < slot + slots ∧ r.Overdue clientId nowNs other := by
  induction slots generalizing r slot with
  | zero =>
      constructor
      · rintro ⟨missing, noop⟩
        rw [show (r.scanGaps clientId nowNs clock slot 0).1 = r from rfl, missing] at noop
        cases noop
      · rintro ⟨low, high, _⟩
        omega
  | succ slots inductionHypothesis =>
      unfold scanGaps
      dsimp only
      split
      · -- a filled slot is skipped, and is not overdue
        rename_i filled
        rw [inductionHypothesis r leads (slot + 1)]
        constructor
        · rintro ⟨low, high, overdue⟩
          exact ⟨by omega, by omega, overdue⟩
        · rintro ⟨low, high, overdue⟩
          have different : slot ≠ other := by
            rintro rfl
            exact ClientStream.filled_eq_true.mp filled overdue.1
          exact ⟨by omega, by omega, overdue⟩
      · rename_i missing
        have empty : (r.entry clientId slot).state = .empty :=
          ClientStream.filled_eq_false.mp (eq_false_of_ne_true missing)
        split
        · -- no later slot is due when this one is not
          rename_i early
          constructor
          · rintro ⟨unresolved, noop⟩
            rw [unresolved] at noop
            cases noop
          · rintro ⟨low, high, overdue⟩
            have later := (r.stream clientId).deadlineNs_mono r.options low
            have due := overdue.2
            omega
        · rename_i due
          have sameLeader : (r.resolveGap clientId slot (clock slot)).1.amLeader = true := by
            rw [amLeader_congr (r.identity_resolveGap clientId slot (clock slot))]
            exact leads
          by_cases same : slot = other
          · subst same
            have noop : ((r.resolveGap clientId slot (clock slot)).1.entry clientId slot).state =
                .noop := by
              unfold resolveGap
              rw [dif_pos leads, entry_startGapAgreement, if_pos ⟨rfl, rfl⟩]
            constructor
            · intro _
              exact ⟨Nat.le_refl slot, by omega, empty, Int.not_lt.mp due⟩
            · intro _
              refine ⟨empty, ?_⟩
              rw [entry_scanGaps _ _ _ _ _ _ _ _ (by rw [noop]; intro empty; cases empty)]
              exact noop
          · have before := r.entry_resolveGap_of_ne clientId other clientId slot (clock slot)
              (by simp [same])
            have rest := inductionHypothesis (r.resolveGap clientId slot (clock slot)).1
              sameLeader (slot + 1)
            rw [before, overdue_resolveGap _ _ _ _ same] at rest
            rw [rest]
            constructor
            · rintro ⟨low, high, overdue⟩
              exact ⟨by omega, by omega, overdue⟩
            · rintro ⟨low, high, overdue⟩
              exact ⟨by omega, by omega, overdue⟩

/-- A follower's request for one slot does not count as one for another. -/
theorem ready_sendGapRequest {slot other : Nat} (now later : Nat) (different : slot ≠ other) :
    (r.sendGapRequest clientId slot now).1.Ready clientId other later ↔
      r.Ready clientId other later := by
  unfold sendGapRequest
  dsimp only
  split
  · have same : (r.setStream clientId (r.stream clientId)).stream clientId = r.stream clientId :=
      r.stream_setStream_stream clientId clientId
    unfold Ready
    rw [same]
    exact Iff.rfl
  · have asked : ((r.setStream clientId ((r.stream clientId).noteRequest slot now)).stream
        clientId).recentlyRequested r.options other later =
          (r.stream clientId).recentlyRequested r.options other later := by
      rw [stream_setStream, if_pos rfl]
      simp [ClientStream.recentlyRequested, ClientStream.noteRequest, TreeMap.getElem?_insert,
        different]
    unfold Ready
    rw [show (r.setStream clientId ((r.stream clientId).noteRequest slot now)).options =
      r.options from rfl, asked]
    exact Iff.rfl

/-- A follower asks for the slot unless it has just done so. -/
theorem asks_sendGapRequest (follows : r.amLeader = false) (slot now other : Nat) :
    r.Asks clientId (r.sendGapRequest clientId slot now).2 other ↔
      slot = other ∧ r.Ready clientId slot now := by
  have ready : r.Ready clientId slot now ↔
      (r.stream clientId).recentlyRequested r.options slot now = false := by
    simp [Ready, follows]
  rw [ready]
  unfold Asks sendGapRequest
  dsimp only
  split
  · rename_i recent
    simp [recent]
  · rename_i stale
    simp [stale]

/-- What is asked in two parts of a list. -/
theorem asks_append (sends later : List Send) (slot : Nat) :
    r.Asks clientId (sends ++ later) slot ↔
      r.Asks clientId sends slot ∨ r.Asks clientId later slot := by
  simp only [Asks, List.mem_append, or_and_right, exists_or]

/-- The scan of a follower asks for exactly the overdue slots that it has not just asked for. -/
theorem asks_scanGaps (follows : r.amLeader = false) (nowNs : Nat) (clock : Nat → Nat)
    (slot slots other : Nat) :
    r.Asks clientId (r.scanGaps clientId nowNs clock slot slots).2 other ↔
      slot ≤ other ∧ other < slot + slots ∧ r.Overdue clientId nowNs other ∧
        r.Ready clientId other (clock other) := by
  induction slots generalizing r slot with
  | zero =>
      constructor
      · rintro ⟨send, sent, _⟩
        cases sent
      · rintro ⟨low, high, _⟩
        omega
  | succ slots inductionHypothesis =>
      unfold scanGaps
      dsimp only
      split
      · rename_i filled
        rw [inductionHypothesis r follows (slot + 1)]
        constructor
        · rintro ⟨low, high, overdue, ready⟩
          exact ⟨by omega, by omega, overdue, ready⟩
        · rintro ⟨low, high, overdue, ready⟩
          have different : slot ≠ other := by
            rintro rfl
            exact ClientStream.filled_eq_true.mp filled overdue.1
          exact ⟨by omega, by omega, overdue, ready⟩
      · rename_i missing
        have empty : (r.entry clientId slot).state = .empty :=
          ClientStream.filled_eq_false.mp (eq_false_of_ne_true missing)
        split
        · rename_i early
          constructor
          · rintro ⟨send, sent, _⟩
            cases sent
          · rintro ⟨low, high, overdue, _⟩
            have later := (r.stream clientId).deadlineNs_mono r.options low
            have due := overdue.2
            omega
        · rename_i due
          have identityEq := r.identity_resolveGap clientId slot (clock slot)
          have branch : r.resolveGap clientId slot (clock slot) =
              r.sendGapRequest clientId slot (clock slot) := by
            unfold resolveGap
            rw [dif_neg (by simp [follows])]
          have sameFollower : (r.resolveGap clientId slot (clock slot)).1.amLeader = false := by
            rw [amLeader_congr identityEq]
            exact follows
          have sameAsks : ∀ sends,
              (r.resolveGap clientId slot (clock slot)).1.Asks clientId sends other ↔
                r.Asks clientId sends other := by
            intro sends
            simp only [identity, Prod.mk.injEq] at identityEq
            unfold Asks
            rw [identityEq.2.1, identityEq.2.2.2]
          have rest := inductionHypothesis (r.resolveGap clientId slot (clock slot)).1
            sameFollower (slot + 1)
          rw [sameAsks] at rest
          rw [asks_append, rest, branch, asks_sendGapRequest _ _ follows]
          by_cases same : slot = other
          · subst same
            constructor
            · rintro (⟨_, ready⟩ | ⟨low, _⟩)
              · exact ⟨Nat.le_refl slot, by omega, ⟨empty, Int.not_lt.mp due⟩, ready⟩
              · omega
            · rintro ⟨_, _, _, ready⟩
              exact .inl ⟨rfl, ready⟩
          · have overdue := r.overdue_resolveGap clientId (clock slot) nowNs same
            rw [branch] at overdue
            rw [overdue, ready_sendGapRequest _ _ _ _ same]
            constructor
            · rintro (⟨equal, _⟩ | ⟨low, high, rest⟩)
              · exact absurd equal same
              · exact ⟨by omega, by omega, rest⟩
            · rintro ⟨low, high, rest⟩
              exact .inr ⟨by omega, by omega, rest⟩

/-- Forgetting the timer that has fired changes nothing that the scan looks at. -/
theorem overdue_untimed (nowNs slot : Nat) :
    (r.setStream clientId (r.stream clientId).untimed).Overdue clientId nowNs slot ↔
      r.Overdue clientId nowNs slot := by
  unfold Overdue
  rw [entry_setStream_of_log _ _ (by rfl), stream_setStream, if_pos rfl]
  exact Iff.rfl

theorem ready_untimed (slot now : Nat) :
    (r.setStream clientId (r.stream clientId).untimed).Ready clientId slot now ↔
      r.Ready clientId slot now := by
  unfold Ready
  rw [stream_setStream, if_pos rfl]
  exact Iff.rfl

/-- The gap timer scans from the frontier to the highest sequence number seen, but at least the
slot at the frontier. -/
theorem recovers_iff (clock : Nat → Nat) (slot : Nat) :
    r.Recovers clientId clock slot ↔
      (r.stream clientId).nextExpected ≤ slot ∧
        slot ≤ max (r.stream clientId).maxSeqSeen (r.stream clientId).nextExpected ∧
          r.Overdue clientId (clock 0) slot ∧ r.Ready clientId slot (clock slot) := by
  have bound : ∀ next seen : Nat, (next ≤ slot ∧ slot < next + (max seen next + 1 - next)) ↔
      next ≤ slot ∧ slot ≤ max seen next := by
    intro next seen
    omega
  unfold Recovers
  split
  · rename_i leads
    have scan := noop_scanGaps (r.setStream clientId (r.stream clientId).untimed) clientId leads
      (clock 0) clock (r.stream clientId).nextExpected
      (max (r.stream clientId).maxSeqSeen (r.stream clientId).nextExpected + 1 -
        (r.stream clientId).nextExpected) slot
    rw [entry_setStream_of_log _ _ (by rfl), overdue_untimed, ← and_assoc, bound, and_assoc]
      at scan
    simp only [onGapTimeout, entry_advanceContiguous]
    rw [show (r.setStream clientId { r.stream clientId with gapTimerId := 0 }) =
      r.setStream clientId (r.stream clientId).untimed from rfl, scan]
    simp [Ready, leads]
  · rename_i follows
    have scan := asks_scanGaps (r.setStream clientId (r.stream clientId).untimed) clientId
      (eq_false_of_ne_true follows) (clock 0) clock (r.stream clientId).nextExpected
      (max (r.stream clientId).maxSeqSeen (r.stream clientId).nextExpected + 1 -
        (r.stream clientId).nextExpected) slot
    rw [overdue_untimed, ready_untimed, ← and_assoc, bound, and_assoc] at scan
    exact scan

/-- The gap timer starts recovery of exactly the gaps, unless it takes an overdue slot at a
frontier above all that has been seen. -/
theorem detects_iff (clock : Nat → Nat) :
    r.Detects clientId clock ↔ r.Within clientId clock := by
  constructor
  · intro detects
    by_contra beyond
    obtain ⟨above, overdue, ready⟩ : (r.stream clientId).maxSeqSeen <
        (r.stream clientId).nextExpected ∧
        r.Overdue clientId (clock 0) (r.stream clientId).nextExpected ∧
          r.Ready clientId (r.stream clientId).nextExpected
            (clock (r.stream clientId).nextExpected) := by
      simpa [Within, not_or] using beyond
    have recovered := (r.recovers_iff clientId clock (r.stream clientId).nextExpected).mpr
      ⟨Nat.le_refl _, Nat.le_max_right _ _, overdue, ready⟩
    have seen := ((detects _).mp recovered).1.2.1
    omega
  · intro within slot
    rw [recovers_iff, Gap]
    constructor
    · rintro ⟨low, high, overdue, ready⟩
      refine ⟨⟨low, ?_, overdue⟩, ready⟩
      by_contra unseen
      -- the slot is the one at the frontier, and the frontier is above all that has been seen
      have atFrontier : slot = (r.stream clientId).nextExpected := by omega
      rcases within with seen | early | held
      · omega
      · exact early (atFrontier ▸ overdue)
      · exact held (atFrontier ▸ ready)
    · rintro ⟨⟨low, high, overdue⟩, ready⟩
      exact ⟨low, Nat.le_trans high (Nat.le_max_left _ _), overdue, ready⟩

/-- No message makes a replica ask for a slot. -/
theorem not_gapRequest_receiveMessage {remote : Address} {msg : Message} {clock : Nat → Nat}
    {send : Send} {request : GapRequestMessage}
    (sent : send ∈ (r.receiveMessage remote msg clock).2) : send.msg ≠ .gapRequest request := by
  have answer : ∀ {r' : Replica} {client seq : Nat}, send ∈ r'.replyToClient client seq →
      send.msg ≠ .gapRequest request := by
    intro r' client seq member
    obtain ⟨addr, _, rfl⟩ := mem_replyToClient r' client seq member
    intro same
    cases same
  cases msg with
  | sync msg => cases sent
  | data msg =>
      simp only [receiveMessage, handleData] at sent
      split at sent
      · cases sent
      · split at sent
        · cases sent
        · split at sent <;> exact answer sent
  | dataReply msg => cases sent
  | gapRequest msg =>
      simp only [receiveMessage, handleGapRequest] at sent
      split at sent
      · split at sent
        · obtain rfl := List.mem_singleton.mp sent
          intro same
          cases same
        · obtain rfl := List.mem_singleton.mp sent
          intro same
          cases same
        · cases sent
      · cases sent
  | gapReply msg =>
      simp only [receiveMessage, handleGapReply] at sent
      split at sent
      · split at sent
        · cases sent
        · exact answer sent
      · cases sent
  | gapCommit msg =>
      obtain rfl := List.mem_singleton.mp sent
      intro same
      cases same
  | gapCommitReply msg => cases sent

/-- Only a NoOp commit turns a slot into a NoOp on its arrival. -/
theorem noop_receiveMessage {remote : Address} {msg : Message} {clock : Nat → Nat}
    {client slot : Nat} (gapMode : r.options.gapEnabled = true)
    (noop : ((r.receiveMessage remote msg clock).1.entry client slot).state = .noop) :
    (r.entry client slot).state = .noop ∨ ∃ commit, msg = .gapCommit commit := by
  cases msg with
  | sync msg =>
      rw [receiveMessage, entry_handleSync] at noop
      exact .inl noop
  | data msg =>
      rw [receiveMessage] at noop
      rcases r.entry_handleData client slot remote msg clock gapMode with same | ⟨_, _, _, written⟩
      · rw [same] at noop
        exact .inl noop
      · rw [written] at noop
        cases noop
  | dataReply msg => exact .inl noop
  | gapRequest msg =>
      rw [receiveMessage, entry_handleGapRequest] at noop
      exact .inl noop
  | gapReply msg =>
      rw [receiveMessage] at noop
      rcases r.handleGapReply_cases msg clock with ⟨same, _⟩ | ⟨_, written, _⟩
      · rw [same] at noop
        exact .inl noop
      · rw [written] at noop
        split at noop
        · cases noop
        · exact .inl noop
  | gapCommit msg => exact .inr ⟨msg, rfl⟩
  | gapCommitReply msg =>
      rw [receiveMessage, entry_handleGapCommitReply] at noop
      exact .inl noop

/-- The replica when one of its timers has fired. -/
def expire (id : Nat) : Replica := { r with timers := r.timers.cancelTimer id }

end Replica

namespace System

/-- No gap timer takes an overdue slot at a frontier above all that has been seen. -/
def InStream (s : System) : Action → Prop
  | .replicaTimer idx id clock => ∀ timer, (s.replicas idx).timers.pending[id]? = some timer →
      ((s.replicas idx).expire id).Within timer.callback clock
  | _ => True

instance (s : System) (action : Action) : Decidable (s.InStream action) :=
  match action with
  | .replicaTimer idx id clock =>
    match found : (s.replicas idx).timers.pending[id]? with
    | none => .isTrue (by simp [InStream, found])
    | some timer =>
      decidable_of_iff (((s.replicas idx).expire id).Within timer.callback clock)
        (by simp [InStream, found])
  | .start _ _ => inferInstanceAs (Decidable True)
  | .clientTimer _ _ _ => inferInstanceAs (Decidable True)
  | .deliver _ _ => inferInstanceAs (Decidable True)

/-- What a gap timer asks for has been seen. -/
theorem asked_seen (r : Replica) {clientId : Nat} {clock : Nat → Nat} {send : Send}
    {request : GapRequestMessage} (within : r.Within clientId clock)
    (sent : send ∈ (r.onGapTimeout clientId clock).2) (isRequest : send.msg = .gapRequest request) :
    request.seqNum ≤ (r.stream request.clientId).maxSeqSeen := by
  rcases r.mem_onGapTimeout clientId sent with ⟨_, idx, seq, _, _, rfl⟩ | ⟨follows, seq, rfl⟩
  · cases isRequest
  · cases isRequest
    have recovered : r.Recovers clientId clock seq := by
      rw [Replica.Recovers, if_neg (by simp [follows])]
      exact ⟨_, sent, rfl⟩
    exact (((r.detects_iff clientId clock).mpr within seq).mp recovered).1.2.1

/-- What a gap timer turns into a NoOp at the leader has been seen. -/
theorem nullified_seen (r : Replica) {clientId client slot : Nat} {clock : Nat → Nat}
    (within : r.Within clientId clock) (leads : r.amLeader = true)
    (undecided : (r.entry client slot).state ≠ .noop)
    (noop : ((r.onGapTimeout clientId clock).1.entry client slot).state = .noop) :
    slot ≤ (r.stream client).maxSeqSeen := by
  by_cases same : clientId = client
  · subst same
    have missing : (r.entry clientId slot).state = .empty := by
      rcases r.entry_onGapTimeout_cases clientId slot clientId clock with kept | ⟨_, missing, _⟩
      · rw [kept] at noop
        exact absurd noop undecided
      · exact missing
    have recovered : r.Recovers clientId clock slot := by
      rw [Replica.Recovers, if_pos leads]
      exact ⟨missing, noop⟩
    exact (((r.detects_iff clientId clock).mpr within slot).mp recovered).1.2.1
  · -- the streams of other clients are left alone
    have after := r.untimed_onGapTimeout clientId client clock
    rw [if_neg same] at after
    have log := congrArg ClientStream.log after
    have kept : (r.onGapTimeout clientId clock).1.entry client slot = r.entry client slot :=
      ClientStream.entry_congr log slot
    rw [kept] at noop
    exact absurd noop undecided

/-- In every state of every run in which no gap timer takes an overdue slot above all that has
been seen for a gap: a gap timer that fires starts recovery of exactly the gaps if and only if it
does not either; and no step that does not makes a replica ask for, or the leader turn into a
NoOp, a slot above the highest sequence number it has seen of the client. -/
theorem detects_of_inStream (d : Deployment) (s : System)
    (reachable : (system d).Reachable InStream s) :
    (∀ idx id clock timer, (s.replicas idx).timers.pending[id]? = some timer →
      (((s.replicas idx).expire id).Detects timer.callback clock ↔
        ((s.replicas idx).expire id).Within timer.callback clock)) ∧
      ∀ action s', s.InStream action → (system d).step s action = some s' →
        (∀ packet ∈ s'.network.drop s.network.length, ∀ idx request,
          packet.src = .replica idx → packet.msg = .gapRequest request →
            request.seqNum ≤ ((s.replicas idx).stream request.clientId).maxSeqSeen) ∧
          (d.options.gapEnabled = true → ∀ client slot,
            (s.leaderEntry d client slot).state ≠ .noop →
              (s'.leaderEntry d client slot).state = .noop →
                slot ≤ ((s.replicas (leaderIdx d)).stream client).maxSeqSeen) := by
  refine ⟨fun idx id clock timer pending => Replica.detects_iff _ _ _, ?_⟩
  intro action s' inStream transition
  constructor
  · intro packet member idx request fromReplica isRequest
    rcases step_cases transition with ⟨_, ⟨sent, grown, fromClients⟩, _⟩ |
      ⟨position, clock, received, receiver, rfl, found, addressed, rfl⟩ |
      ⟨fired, id, clock, timer, rfl, pending, rfl⟩
    · rw [grown, List.drop_left] at member
      obtain ⟨client, fromClient⟩ := fromClients packet member
      rw [fromClient] at fromReplica
      cases fromReplica
    · simp only [updateReplica, List.drop_left] at member
      obtain ⟨send, sent, rfl⟩ := List.mem_map.mp member
      exact absurd isRequest (Replica.not_gapRequest_receiveMessage _ sent)
    · simp only [updateReplica, List.drop_left] at member
      obtain ⟨send, sent, rfl⟩ := List.mem_map.mp member
      cases fromReplica
      exact asked_seen ((s.replicas idx).expire id) (inStream timer pending) sent isRequest
  · intro gapMode client slot undecided noop
    have aligned := (aligned_invariant d gapMode).of_reachable
      (reachable.imp fun _ _ _ => trivial)
    have fields := aligned.fields (leaderIdx d)
    rcases step_cases transition with ⟨same, _, _⟩ |
      ⟨position, clock, received, receiver, rfl, found, addressed, rfl⟩ |
      ⟨fired, id, clock, timer, rfl, pending, rfl⟩
    · unfold leaderEntry at undecided noop
      rw [same] at noop
      exact absurd noop undecided
    · by_cases acting : leaderIdx d = receiver
      · subst acting
        unfold leaderEntry at undecided noop
        have mode : (s.replicas (leaderIdx d)).options.gapEnabled = true := by
          rw [fields.2.2.1]
          exact gapMode
        simp only [leaderIdx, updateReplica_self] at noop mode
        rcases Replica.noop_receiveMessage _ mode noop with before | ⟨commit, isCommit⟩
        · exact absurd before undecided
        · -- a NoOp commit is never addressed to the leader
          have backed := aligned.packets received (List.mem_of_getElem? found)
          simp only [Backed, isCommit] at backed
          exact absurd addressed backed.1
      · have same := updateReplica_of_ne s
          ((s.replicas receiver).receiveMessage received.src received.msg clock).1
          ((s.replicas receiver).receiveMessage received.src received.msg clock).2 acting
        unfold leaderEntry at undecided noop
        simp only [leaderIdx] at same
        rw [same] at noop
        exact absurd noop undecided
    · by_cases acting : leaderIdx d = fired
      · subst acting
        unfold leaderEntry at undecided noop
        simp only [leaderIdx, updateReplica_self] at noop
        exact nullified_seen ((s.replicas (leaderIdx d)).expire id) (inStream timer pending)
          ((aligned.amLeader_iff _).mpr rfl) undecided noop
      · have same := updateReplica_of_ne s
          ((s.replicas fired).expire id |>.onGapTimeout timer.callback clock).1
          ((s.replicas fired).expire id |>.onGapTimeout timer.callback clock).2 acting
        unfold leaderEntry at undecided noop
        simp only [leaderIdx] at same
        unfold Replica.expire at same
        rw [same] at noop
        exact absurd noop undecided

/-! ## Two firings of the leader's gap timer -/

/-- The second request reaches the leader before the first, and the gap timer fires. -/
def missingRun : List Action := warmUp ++ [.deliver 6 (clockAt 5012)]

/-- Both requests reach the leader in order, and the client pauses. -/
def pausedRun : List Action :=
  warmUp ++ [.deliver 3 (clockAt 5001), .deliver 6 (clockAt 5012)]

set_option maxRecDepth 10000 in
/-- The gap timer of the leader that misses a request starts recovery of exactly the gaps. -/
theorem detects_missingRun : ∃ (s : System) (timer : PendingTimer Nat),
    (s.replicas 0).timers.pending[1]? = some timer ∧
      ((s.replicas 0).expire 1).Detects timer.callback (clockAt 5022) := by
  obtain ⟨s, reachable, fires⟩ :=
    (system trio).exists_reachable_of_run InStream
      (fun s => ((s.replicas 0).timers.pending[1]?).any fun timer =>
        decide (((s.replicas 0).expire 1).Within timer.callback (clockAt 5022)))
      missingRun rfl (by decide)
  obtain ⟨timer, pending, within⟩ := (Option.any_eq_true _ _).mp fires
  refine ⟨s, timer, pending, ?_⟩
  exact ((detects_of_inStream trio s reachable).1 0 1 (clockAt 5022) timer pending).mpr
    (of_decide_eq_true within)

set_option maxRecDepth 10000 in
/-- The gap timer of the leader that misses nothing turns the next slot, which nobody has sent,
into a NoOp. -/
theorem not_detects_pausedRun :
    ¬ ∀ s, (system trio).Reachable TransitionSystem.unguarded s →
      ∀ idx id clock timer, (s.replicas idx).timers.pending[id]? = some timer →
        ((s.replicas idx).expire id).Detects timer.callback clock := by
  intro always
  obtain ⟨s, reachable, fires⟩ :=
    (system trio).exists_reachable_of_run TransitionSystem.unguarded
      (fun s => ((s.replicas 0).timers.pending[2]?).any fun timer =>
        !decide (((s.replicas 0).expire 2).Within timer.callback (clockAt 5035)))
      pausedRun rfl (by decide)
  obtain ⟨timer, pending, beyond⟩ := (Option.any_eq_true _ _).mp fires
  have detects := always s reachable 0 2 (clockAt 5035) timer pending
  have within := (Replica.detects_iff _ timer.callback (clockAt 5035)).mp detects
  rw [Bool.not_eq_true'] at beyond
  exact of_decide_eq_false beyond within

end System

end PaxosBus.Bus

import PaxosBus.Bus.Writes

/-!
# Streams that are treated alike

Two streams may differ in what is never read: the data of a slot that holds
none, the id of the gap timer, the count of acknowledgements. Streams that agree
on all the rest stay so through every handler. Beside it stands what else a
handler does that depends on the stream: what it sends, and whether it arms the
gap timer.
-/

set_option autoImplicit false

namespace PaxosBus.Bus

open Std PaxosBus.Common

/-- The entries have the same state, and the same data where they have data. -/
def LogEntry.Alike (e e' : LogEntry) : Prop :=
  e.state = e'.state ∧ (e.state = .received → e = e')

namespace LogEntry.Alike

theorem refl (e : LogEntry) : e.Alike e := ⟨rfl, fun _ => rfl⟩

/-- Entries without data. -/
theorem of_state {e e' : LogEntry} (same : e.state = e'.state) (noData : e.state ≠ .received) :
    e.Alike e' :=
  ⟨same, fun received => absurd received noData⟩

end LogEntry.Alike

namespace ClientStream

/-- The streams agree on all that is read but the notes of requests. -/
structure Alike (s s' : ClientStream) : Prop where
  baseRecvNs : s.baseRecvNs = s'.baseRecvNs
  intervalNs : s.intervalNs = s'.intervalNs
  nextExpected : s.nextExpected = s'.nextExpected
  maxSeqSeen : s.maxSeqSeen = s'.maxSeqSeen
  entries : ∀ slot, (s.entry slot).Alike (s'.entry slot)

/-- The streams agree on the requests that are held back. -/
def SameHeld (options : Options) (s s' : ClientStream) : Prop :=
  ∀ slot now, 1 ≤ slot →
    s.recentlyRequested options slot now = s'.recentlyRequested options slot now

variable {s s' : ClientStream}

/-- Whether a request is held back depends on the last one. -/
theorem recentlyRequested_congr {options : Options} {slot : Nat}
    (same : s'.gapLastReqNs[slot]? = s.gapLastReqNs[slot]?) (now : Nat) :
    s'.recentlyRequested options slot now = s.recentlyRequested options slot now := by
  unfold recentlyRequested
  rw [same]

/-- Where no request is noted, none is held back. -/
theorem recentlyRequested_of_none {options : Options} {slot : Nat}
    (none_ : s.gapLastReqNs[slot]? = none) (now : Nat) :
    s.recentlyRequested options slot now = false := by
  unfold recentlyRequested
  rw [none_]

/-- The frontier is the first slot from where it was that is not filled. -/
theorem frontierFrom_eq {next frontier : Nat} (reached : next ≤ frontier)
    (filled : ∀ slot, next ≤ slot → slot < frontier → s.filled slot = true)
    (missing : s.filled frontier = false) : s.frontierFrom s.log.size next = frontier := by
  have stops := s.filled_frontierFrom_size next
  have start := s.le_frontierFrom s.log.size next
  rcases Nat.lt_trichotomy (s.frontierFrom s.log.size next) frontier with short | same | long
  · rw [filled _ start short] at stops
    cases stops
  · exact same
  · rw [s.filled_of_lt_frontierFrom s.log.size next frontier reached long] at missing
    cases missing

/-- Streams that are the same up to the ids of their gap timers have the same fields. -/
theorem fields_of_untimed (same : s'.untimed = s.untimed) :
    s'.baseRecvNs = s.baseRecvNs ∧ s'.intervalNs = s.intervalNs ∧
      s'.nextExpected = s.nextExpected ∧ s'.maxSeqSeen = s.maxSeqSeen ∧ s'.log = s.log ∧
        s'.gapLastReqNs = s.gapLastReqNs := by
  have base := congrArg ClientStream.baseRecvNs same
  have interval := congrArg ClientStream.intervalNs same
  have next := congrArg ClientStream.nextExpected same
  have highest := congrArg ClientStream.maxSeqSeen same
  have log := congrArg ClientStream.log same
  have asked := congrArg ClientStream.gapLastReqNs same
  exact ⟨base, interval, next, highest, log, asked⟩

namespace Alike

/-- The same slots are filled. -/
theorem filled (alike : s.Alike s') (slot : Nat) : s.filled slot = s'.filled slot := by
  unfold ClientStream.filled
  rw [(alike.entries slot).1]

/-- The frontier is walked equally far. -/
theorem frontier (alike : s.Alike s') :
    s.frontierFrom s.log.size s.nextExpected = s'.frontierFrom s'.log.size s'.nextExpected := by
  apply frontierFrom_eq
  · rw [alike.nextExpected]
    exact s'.le_frontierFrom _ _
  · intro slot low high
    rw [alike.filled]
    exact s'.filled_of_lt_frontierFrom _ _ slot (alike.nextExpected ▸ low) high
  · rw [alike.filled]
    exact s'.filled_frontierFrom_size _

/-- The slots have the same deadlines. -/
theorem deadlineNs (alike : s.Alike s') (options : Options) (slot : Nat) :
    s.deadlineNs options slot = s'.deadlineNs options slot := by
  unfold ClientStream.deadlineNs
  rw [alike.baseRecvNs, alike.intervalNs]

/-- The gap timer is armed for the same time. -/
theorem delayMs (alike : s.Alike s') (options : Options) (now : Nat) :
    s.delayMs options now = s'.delayMs options now := by
  unfold ClientStream.delayMs
  rw [alike.deadlineNs, alike.nextExpected]

/-- Fields that nothing here reads may differ. -/
theorem of_fields {t t' : ClientStream} (alike : s.Alike s')
    (base : t.baseRecvNs = s.baseRecvNs) (interval : t.intervalNs = s.intervalNs)
    (next : t.nextExpected = s.nextExpected) (highest : t.maxSeqSeen = s.maxSeqSeen)
    (log : t.log = s.log)
    (base' : t'.baseRecvNs = s'.baseRecvNs) (interval' : t'.intervalNs = s'.intervalNs)
    (next' : t'.nextExpected = s'.nextExpected) (highest' : t'.maxSeqSeen = s'.maxSeqSeen)
    (log' : t'.log = s'.log) : t.Alike t' where
  baseRecvNs := by rw [base, base', alike.baseRecvNs]
  intervalNs := by rw [interval, interval', alike.intervalNs]
  nextExpected := by rw [next, next', alike.nextExpected]
  maxSeqSeen := by rw [highest, highest', alike.maxSeqSeen]
  entries slot := by
    rw [entry_congr log, entry_congr log']
    exact alike.entries slot

/-- Streams that are alike up to the ids of their gap timers. -/
theorem of_untimed {t t' : ClientStream} (same : t.untimed = s.untimed)
    (same' : t'.untimed = s'.untimed) (alike : s.Alike s') : t.Alike t' := by
  obtain ⟨base, interval, next, highest, log, _⟩ := fields_of_untimed same
  obtain ⟨base', interval', next', highest', log', _⟩ := fields_of_untimed same'
  exact alike.of_fields base interval next highest log base' interval' next' highest' log'

/-- Entries that are alike are set in the same slot. -/
theorem setEntry (alike : s.Alike s') (seq : Nat) {e e' : LogEntry} (same : e.Alike e') :
    (s.setEntry seq e).Alike (s'.setEntry seq e') where
  baseRecvNs := alike.baseRecvNs
  intervalNs := alike.intervalNs
  nextExpected := alike.nextExpected
  maxSeqSeen := alike.maxSeqSeen
  entries slot := by
    rw [entry_setEntry, entry_setEntry]
    split
    · exact same
    · exact alike.entries slot

/-- A slot becomes a NoOp in both. -/
theorem setNoop (alike : s.Alike s') (seq : Nat) :
    (s.setEntry seq { s.entry seq with state := .noop }).Alike
      (s'.setEntry seq { s'.entry seq with state := .noop }) :=
  alike.setEntry seq (.of_state rfl nofun)

/-- The same number has been seen last. -/
theorem noteSeq (alike : s.Alike s') (seq : Nat) : (s.noteSeq seq).Alike (s'.noteSeq seq) where
  baseRecvNs := alike.baseRecvNs
  intervalNs := alike.intervalNs
  nextExpected := alike.nextExpected
  maxSeqSeen := congrArg (max · seq) alike.maxSeqSeen
  entries := alike.entries

/-- Both streams have the new anchor. -/
theorem reanchor (alike : s.Alike s') (seq actualNs : Nat) :
    (s.reanchor seq actualNs).Alike (s'.reanchor seq actualNs) where
  baseRecvNs := by
    unfold ClientStream.reanchor
    rw [alike.intervalNs]
  intervalNs := alike.intervalNs
  nextExpected := alike.nextExpected
  maxSeqSeen := alike.maxSeqSeen
  entries := alike.entries

/-- Both frontiers advance equally far. -/
theorem advance (alike : s.Alike s') : s.advance.Alike s'.advance where
  baseRecvNs := alike.baseRecvNs
  intervalNs := alike.intervalNs
  nextExpected := alike.frontier
  maxSeqSeen := alike.maxSeqSeen
  entries := alike.entries

/-- The same request is recorded in both, or in neither. -/
theorem record (alike : s.Alike s') (seq : Nat) (payload : String) (sendTimeNs now : Nat) :
    (s.record seq payload sendTimeNs now).Alike (s'.record seq payload sendTimeNs now) := by
  have noted := alike.noteSeq seq
  unfold ClientStream.record
  rw [← (noted.entries seq).1]
  split
  · exact noted
  · exact noted.setEntry seq (.refl _)

/-- Both streams start again with the same anchor. -/
theorem resync (alike : s.Alike s') (msg : SyncMessage) (recvNs : Nat) :
    (s.resync msg recvNs).Alike (s'.resync msg recvNs) where
  baseRecvNs := rfl
  intervalNs := rfl
  nextExpected := rfl
  maxSeqSeen := rfl
  entries := alike.entries

/-- The same data is dropped by both, or taken by both. -/
theorem takeData (alike : s.Alike s') (gapMode dropped : Bool) (msg : DataMessage)
    (clock : Nat → Nat) :
    (s.takeData gapMode dropped msg clock).Alike (s'.takeData gapMode dropped msg clock) := by
  have noted := alike.noteSeq msg.seqNum
  have anchored := noted.reanchor msg.seqNum (clock 0)
  unfold ClientStream.takeData
  split
  · exact noted
  · dsimp only
    split
    · exact (anchored.record msg.seqNum msg.payload msg.sendTimeNs (clock 1)).advance
    · exact anchored

/-- A note that is taken back is not read. -/
theorem dropRequest (alike : s.Alike s') (seq : Nat) :
    (s.dropRequest seq).Alike (s'.dropRequest seq) :=
  alike.of_fields rfl rfl rfl rfl rfl rfl rfl rfl rfl rfl

/-- The entry of a gap reply is taken by both, or by neither. -/
theorem takeReply (alike : s.Alike s') (msg : GapReplyMessage) (now : Nat) :
    (s.takeReply msg now).Alike (s'.takeReply msg now) := by
  unfold ClientStream.takeReply
  rw [← alike.filled]
  split
  · exact ((alike.record msg.seqNum msg.payload msg.sendTimeNs now).dropRequest msg.seqNum).advance
  · exact alike

/-- The slot becomes a NoOp in both. -/
theorem takeCommit (alike : s.Alike s') (seq : Nat) :
    (s.takeCommit seq).Alike (s'.takeCommit seq) :=
  ((alike.setNoop seq).dropRequest seq).advance

/-- Acknowledgements are counted in fields that nothing here reads. -/
theorem takeAck (alike : s.Alike s') (needed : Nat) (msg : GapCommitReplyMessage) :
    (s.takeAck needed msg).Alike (s'.takeAck needed msg) := by
  have quiet : ∀ t : ClientStream, (t.takeAck needed msg).baseRecvNs = t.baseRecvNs ∧
      (t.takeAck needed msg).intervalNs = t.intervalNs ∧
        (t.takeAck needed msg).nextExpected = t.nextExpected ∧
          (t.takeAck needed msg).maxSeqSeen = t.maxSeqSeen ∧
            (t.takeAck needed msg).log = t.log := by
    intro t
    unfold ClientStream.takeAck
    split
    · dsimp only
      split <;> exact ⟨rfl, rfl, rfl, rfl, rfl⟩
    · exact ⟨rfl, rfl, rfl, rfl, rfl⟩
  obtain ⟨base, interval, next, highest, log⟩ := quiet s
  obtain ⟨base', interval', next', highest', log'⟩ := quiet s'
  exact alike.of_fields base interval next highest log base' interval' next' highest' log'

/-- The leader resolves a missing slot, or a follower asks for it. -/
theorem resolve (alike : s.Alike s') (leader : Bool) (options : Options) (seq now : Nat) :
    (s.resolve leader options seq now).Alike (s'.resolve leader options seq now) := by
  unfold ClientStream.resolve
  split
  · unfold nullify
    rw [← (alike.entries seq).1]
    split
    · exact alike
    · exact (alike.setNoop seq).of_fields rfl rfl rfl rfl rfl rfl rfl rfl rfl rfl
  · have quiet : ∀ t : ClientStream, (t.ask options seq now).baseRecvNs = t.baseRecvNs ∧
        (t.ask options seq now).intervalNs = t.intervalNs ∧
          (t.ask options seq now).nextExpected = t.nextExpected ∧
            (t.ask options seq now).maxSeqSeen = t.maxSeqSeen ∧
              (t.ask options seq now).log = t.log := by
      intro t
      unfold ask
      split <;> exact ⟨rfl, rfl, rfl, rfl, rfl⟩
    obtain ⟨base, interval, next, highest, log⟩ := quiet s
    obtain ⟨base', interval', next', highest', log'⟩ := quiet s'
    exact alike.of_fields base interval next highest log base' interval' next' highest' log'

/-- The gap scan treats streams alike that are alike. -/
theorem scan (alike : s.Alike s') (leader : Bool) (options : Options) (nowNs : Nat)
    (clock : Nat → Nat) (slot slots : Nat) :
    (s.scan leader options nowNs clock slot slots).Alike
      (s'.scan leader options nowNs clock slot slots) := by
  induction slots generalizing s s' slot with
  | zero => exact alike
  | succ slots inductionHypothesis =>
      unfold ClientStream.scan
      rw [← alike.filled, ← alike.deadlineNs]
      split
      · exact inductionHypothesis alike (slot + 1)
      · split
        · exact alike
        · exact inductionHypothesis (alike.resolve leader options slot (clock slot)) (slot + 1)

end Alike

namespace SameHeld

variable {options : Options}

/-- The last requests are as they were. -/
theorem of_same {t t' : ClientStream} (held : SameHeld options s s')
    (same : t.gapLastReqNs = s.gapLastReqNs) (same' : t'.gapLastReqNs = s'.gapLastReqNs) :
    SameHeld options t t' := by
  intro slot now positive
  rw [recentlyRequested_congr (congrArg (·[slot]?) same) now,
    recentlyRequested_congr (congrArg (·[slot]?) same') now]
  exact held slot now positive

/-- The request for a slot is dropped in both. -/
theorem dropRequest (held : SameHeld options s s') (seq : Nat) :
    SameHeld options (s.dropRequest seq) (s'.dropRequest seq) := by
  intro slot now positive
  by_cases same : seq = slot
  · subst same
    have dropped : ∀ t : ClientStream, (t.dropRequest seq).gapLastReqNs[seq]? = none := by
      intro t
      simp [ClientStream.dropRequest]
    rw [recentlyRequested_of_none (dropped s), recentlyRequested_of_none (dropped s')]
  · have kept : ∀ t : ClientStream, (t.dropRequest seq).gapLastReqNs[slot]? =
        t.gapLastReqNs[slot]? := by
      intro t
      simp [ClientStream.dropRequest, TreeMap.getElem?_erase, same]
    rw [recentlyRequested_congr (kept s), recentlyRequested_congr (kept s')]
    exact held slot now positive

/-- A slot is asked for in both, unless it has just been. -/
theorem ask (held : SameHeld options s s') {seq : Nat} (positive : 1 ≤ seq) (now : Nat) :
    SameHeld options (s.ask options seq now) (s'.ask options seq now) := by
  unfold ClientStream.ask
  rw [← held seq now positive]
  split
  · exact held
  · intro slot later positive'
    by_cases same : seq = slot
    · subst same
      have asked : (s.noteRequest seq now).gapLastReqNs[seq]? =
          (s'.noteRequest seq now).gapLastReqNs[seq]? := by
        simp [noteRequest]
      exact recentlyRequested_congr asked later
    · have kept : ∀ t : ClientStream, (t.noteRequest seq now).gapLastReqNs[slot]? =
          t.gapLastReqNs[slot]? := by
        intro t
        simp [noteRequest, TreeMap.getElem?_insert, same]
      rw [recentlyRequested_congr (kept s), recentlyRequested_congr (kept s')]
      exact held slot later positive'

/-- A follower's gap scan holds back the same requests as before in both. -/
theorem scan (held : SameHeld options s s') (alike : s.Alike s') (nowNs : Nat)
    (clock : Nat → Nat) {slot : Nat} (positive : 1 ≤ slot) (slots : Nat) :
    SameHeld options (s.scan false options nowNs clock slot slots)
      (s'.scan false options nowNs clock slot slots) := by
  induction slots generalizing s s' slot with
  | zero => exact held
  | succ slots inductionHypothesis =>
      unfold ClientStream.scan
      rw [← alike.filled, ← alike.deadlineNs]
      split
      · exact inductionHypothesis held alike (by omega)
      · split
        · exact held
        · exact inductionHypothesis (held.ask positive (clock slot))
            (alike.resolve false options slot (clock slot)) (by omega)

end SameHeld

/-- Recording data, in gap mode or not, asks for nothing. -/
theorem gapLastReqNs_record (s : ClientStream) (seq : Nat) (payload : String)
    (sendTimeNs now : Nat) :
    (s.record seq payload sendTimeNs now).gapLastReqNs = s.gapLastReqNs := by
  unfold record
  split <;> rfl

/-- Data takes back no note of a gap request. -/
theorem gapLastReqNs_takeData (s : ClientStream) (gapMode dropped : Bool) (msg : DataMessage)
    (clock : Nat → Nat) : (s.takeData gapMode dropped msg clock).gapLastReqNs = s.gapLastReqNs := by
  unfold takeData
  split
  · rfl
  · dsimp only
    split
    · exact gapLastReqNs_record _ _ _ _ _
    · rfl

/-- An acknowledgement takes back no note of a gap request. -/
theorem gapLastReqNs_takeAck (s : ClientStream) (needed : Nat) (msg : GapCommitReplyMessage) :
    (s.takeAck needed msg).gapLastReqNs = s.gapLastReqNs := by
  unfold takeAck
  split
  · dsimp only
    split <;> rfl
  · rfl

end ClientStream

namespace Replica

variable (r : Replica)

/-! ## What a handler sends and arms -/

/-- Data is answered when it is let in. -/
theorem sends_handleData (remote : Address) (msg : DataMessage) (clock : Nat → Nat) :
    (r.handleData remote msg clock).2 =
      if (r.clients[msg.clientId]?).isSome && !(r.options.gapEnabled && r.shouldDrop msg.seqNum) then
        [{ dst := remote
           msg := .dataReply
            { clientId := msg.clientId, seqNum := msg.seqNum, viewId := r.viewId,
              logSlotNum := msg.seqNum, replicaIdx := r.replicaIdx } }]
      else [] := by
  have answer : ∀ r' : Replica, r'.identity = r.identity →
      r'.clientAddr = r.clientAddr.insert msg.clientId remote →
      r'.replyToClient msg.clientId msg.seqNum =
        [{ dst := remote
           msg := .dataReply
            { clientId := msg.clientId, seqNum := msg.seqNum, viewId := r.viewId,
              logSlotNum := msg.seqNum, replicaIdx := r.replicaIdx } }] := by
    intro r' same address
    simp only [identity, Prod.mk.injEq] at same
    unfold replyToClient
    rw [address, TreeMap.getElem?_insert_self, same.2.1, same.2.2.2]
  unfold handleData
  split
  · rename_i absent
    simp [absent]
  · rename_i s found
    have sameDrop : (r.learnAddress msg.clientId remote).shouldDrop msg.seqNum =
        r.shouldDrop msg.seqNum := rfl
    have sameMode : (r.learnAddress msg.clientId remote).options = r.options := rfl
    dsimp only
    rw [sameDrop, sameMode, found]
    cases dropped : r.options.gapEnabled && r.shouldDrop msg.seqNum with
    | true => rfl
    | false =>
      simp only [Bool.false_eq_true, if_false, Option.isSome_some, Bool.not_false, Bool.and_self,
        if_true]
      split
      · apply answer
        · rw [identity_recordReceived]
          rfl
        · rw [clientAddr_recordReceived]
          rfl
      · apply answer
        · rfl
        · rfl

/-- Recovered data is answered when it fills its slot. -/
theorem sends_handleGapReply (msg : GapReplyMessage) (clock : Nat → Nat) :
    (r.handleGapReply msg clock).2 =
      if msg.found && !(r.stream msg.clientId).filled msg.seqNum then
        r.replyToClient msg.clientId msg.seqNum
      else [] := by
  unfold handleGapReply
  split
  · rename_i found
    dsimp only
    split
    · rename_i filled
      simp [filled]
    · rename_i missing
      rw [if_pos (by simp [found, missing])]
      have sameIdentity : (((r.setStream msg.clientId (r.stream msg.clientId)).recordReceived
          msg.clientId msg.seqNum msg.payload msg.sendTimeNs (clock 0))).identity = r.identity := by
        rw [identity_recordReceived]
        rfl
      simp only [identity, Prod.mk.injEq] at sameIdentity
      unfold replyToClient
      rw [clientAddr_setStream, clientAddr_recordReceived, clientAddr_setStream]
      have view : ∀ (r' : Replica) (s : ClientStream), (r'.setStream msg.clientId s).viewId =
          r'.viewId := fun _ _ => rfl
      have self : ∀ (r' : Replica) (s : ClientStream), (r'.setStream msg.clientId s).replicaIdx =
          r'.replicaIdx := fun _ _ => rfl
      rw [view, self, sameIdentity.2.1, sameIdentity.2.2.2]
  · rename_i lacking
    simp [lacking]

/-- Storing a stream leaves its gap timer pending. -/
theorem gapTimer_setStream {clientId : Nat} {s : ClientStream}
    (sameTimer : s.gapTimerId = (r.stream clientId).gapTimerId) :
    (r.setStream clientId s).gapTimer clientId = r.gapTimer clientId := by
  unfold gapTimer
  rw [stream_setStream, if_pos rfl, sameTimer]
  rfl

/-- Recording a request arms no timer. -/
theorem gapTimer_recordReceived (clientId seq : Nat) (payload : String) (sendTimeNs now : Nat) :
    (r.recordReceived clientId seq payload sendTimeNs now).gapTimer clientId =
      r.gapTimer clientId := by
  unfold recordReceived
  dsimp only
  split <;> exact r.gapTimer_setStream rfl

/-- In gap mode the gap timer is armed whenever the frontier has been walked. -/
theorem gapTimer_advanceContiguous (clientId now : Nat) :
    (r.advanceContiguous clientId now).gapTimer clientId =
      if r.options.gapEnabled then
        some { ms := (r.stream clientId).advance.delayMs r.options now, callback := clientId }
      else r.gapTimer clientId := by
  unfold advanceContiguous
  dsimp only
  have mode : (r.setStream clientId { r.stream clientId with
      nextExpected := (r.stream clientId).frontierFrom (r.stream clientId).log.size
        (r.stream clientId).nextExpected }).options = r.options := rfl
  rw [mode]
  split
  · rw [Timed.gapTimer_armGapTimer_self, stream_setStream, if_pos rfl]
    rfl
  · exact r.gapTimer_setStream rfl

/-- The reading of the clock with which the handler of a message arms the gap timer. -/
def arming (msg : Message) (clock : Nat → Nat) : Option Nat :=
  match msg with
  | .data msg =>
    if r.options.gapEnabled && (r.clients[msg.clientId]?).isSome && !r.shouldDrop msg.seqNum then
      some (clock 2)
    else none
  | .gapReply msg =>
    if r.options.gapEnabled && (msg.found && !(r.stream msg.clientId).filled msg.seqNum) then
      some (clock 1)
    else none
  | .gapCommit _ => if r.options.gapEnabled then some (clock 0) else none
  | _ => none

/-- Data that is taken in gap mode arms the gap timer, and other data leaves it as it is. -/
theorem gapTimer_handleData (remote : Address) (msg : DataMessage) (clock : Nat → Nat) :
    (r.handleData remote msg clock).1.gapTimer msg.clientId =
      match r.arming (.data msg) clock with
      | none => r.gapTimer msg.clientId
      | some now => some
        { ms := (r.takes (.data msg) clock (r.stream msg.clientId)).delayMs r.options now
          callback := msg.clientId } := by
  unfold handleData arming takes
  split
  · rename_i absent
    simp [absent]
  · rename_i s found
    have present : r.stream msg.clientId = s := by simp [stream, found]
    have sameDrop : (r.learnAddress msg.clientId remote).shouldDrop msg.seqNum =
        r.shouldDrop msg.seqNum := rfl
    have sameMode : ∀ s' : ClientStream, ((r.learnAddress msg.clientId remote).setStream
        msg.clientId s').options = r.options := fun _ => rfl
    have kept : ∀ s' : ClientStream, s'.gapTimerId = s.gapTimerId →
        ((r.learnAddress msg.clientId remote).setStream msg.clientId s').gapTimer msg.clientId =
          r.gapTimer msg.clientId := by
      intro s' same
      rw [gapTimer_setStream _ (by rw [same]; exact congrArg ClientStream.gapTimerId present.symm)]
      rfl
    dsimp only
    rw [sameDrop, present]
    simp only [found, Option.isSome_some, if_true, Bool.and_true]
    cases gapMode : r.options.gapEnabled with
    | false =>
        have mode : (r.learnAddress msg.clientId remote).options.gapEnabled = false := gapMode
        simp only [mode, sameMode, gapMode, Bool.false_and]
        exact kept _ rfl
    | true =>
        have mode : (r.learnAddress msg.clientId remote).options.gapEnabled = true := gapMode
        cases dropped : r.shouldDrop msg.seqNum with
        | true =>
            simp only [mode, Bool.and_self, if_true, Bool.not_true, Bool.and_false]
            exact kept _ rfl
        | false =>
            have recordedMode : (((r.learnAddress msg.clientId remote).setStream msg.clientId
                ((s.noteSeq msg.seqNum).reanchor msg.seqNum (clock 0))).recordReceived msg.clientId
                  msg.seqNum msg.payload msg.sendTimeNs (clock 1)).options = r.options := by
              have same := identity_recordReceived ((r.learnAddress msg.clientId remote).setStream
                msg.clientId ((s.noteSeq msg.seqNum).reanchor msg.seqNum (clock 0))) msg.clientId
                  msg.seqNum msg.payload msg.sendTimeNs (clock 1)
              simp only [identity, Prod.mk.injEq] at same
              exact same.2.2.1
            simp only [mode, sameMode, gapMode, Bool.and_false, Bool.not_false, Bool.and_self,
              if_true, Bool.false_eq_true, if_false]
            rw [gapTimer_advanceContiguous, recordedMode, gapMode, if_pos rfl,
              stream_recordReceived, if_pos rfl, stream_setStream, if_pos rfl]
            simp [ClientStream.takeData]

/-- A gap reply that fills its slot in gap mode arms the gap timer. -/
theorem gapTimer_handleGapReply (msg : GapReplyMessage) (clock : Nat → Nat) :
    (r.handleGapReply msg clock).1.gapTimer msg.clientId =
      match r.arming (.gapReply msg) clock with
      | none => r.gapTimer msg.clientId
      | some now => some
        { ms := (r.takes (.gapReply msg) clock (r.stream msg.clientId)).delayMs r.options now
          callback := msg.clientId } := by
  unfold handleGapReply arming takes ClientStream.takeReply
  by_cases fresh : (msg.found && !(r.stream msg.clientId).filled msg.seqNum) = true
  · obtain ⟨found, missing⟩ := Bool.and_eq_true_iff.mp fresh
    rw [Bool.not_eq_true'] at missing
    dsimp only
    rw [if_pos found, if_neg (by simp [missing]), if_pos fresh, fresh, Bool.and_true]
    have recorded : ∀ r' : Replica, r'.identity = r.identity → r'.options = r.options := by
      intro r' same
      simp only [identity, Prod.mk.injEq] at same
      exact same.2.2.1
    have mode := recorded ((r.setStream msg.clientId (r.stream msg.clientId)).recordReceived
      msg.clientId msg.seqNum msg.payload msg.sendTimeNs (clock 0)) (by
        rw [identity_recordReceived]
        rfl)
    have sameMode : ∀ (r' : Replica) (s' : ClientStream),
        (r'.setStream msg.clientId s').options = r'.options := fun _ _ => rfl
    rw [gapTimer_advanceContiguous, sameMode, mode, stream_setStream, if_pos rfl,
      stream_recordReceived, if_pos rfl, stream_setStream, if_pos rfl]
    split
    · rfl
    · rw [gapTimer_setStream _ (by
        rw [stream_recordReceived, if_pos rfl, stream_setStream, if_pos rfl]
        rfl), gapTimer_recordReceived]
      exact r.gapTimer_setStream rfl
  · have refused : (msg.found && !(r.stream msg.clientId).filled msg.seqNum) = false :=
      eq_false_of_ne_true fresh
    dsimp only
    rw [refused, Bool.and_false]
    split
    · rename_i found
      have filled : (r.stream msg.clientId).filled msg.seqNum = true := by
        simpa [found] using refused
      rw [if_pos filled]
      exact r.gapTimer_setStream rfl
    · rfl

/-- The gap timer of the client after a message about it. -/
theorem gapTimer_receiveMessage (remote : Address) (msg : Message) (clock : Nat → Nat) :
    (r.receiveMessage remote msg clock).1.gapTimer msg.clientId =
      match r.arming msg clock with
      | none => r.gapTimer msg.clientId
      | some now => some
        { ms := (r.takes msg clock (r.stream msg.clientId)).delayMs r.options now
          callback := msg.clientId } := by
  cases msg with
  | sync msg => exact r.gapTimer_setStream rfl
  | data msg => exact r.gapTimer_handleData remote msg clock
  | dataReply msg => rfl
  | gapRequest msg =>
      simp only [receiveMessage, handleGapRequest, arming, Message.clientId]
      split
      · split <;> exact r.gapTimer_setStream rfl
      · rfl
  | gapReply msg => exact r.gapTimer_handleGapReply msg clock
  | gapCommit msg =>
      simp only [receiveMessage, handleGapCommit, arming, Message.clientId]
      rw [gapTimer_advanceContiguous, stream_setStream, if_pos rfl]
      have mode : ∀ s : ClientStream, (r.setStream msg.clientId s).options = r.options :=
        fun _ => rfl
      rw [mode]
      split
      · rfl
      · exact r.gapTimer_setStream rfl
  | gapCommitReply msg =>
      simp only [receiveMessage, handleGapCommitReply, arming, Message.clientId]
      split
      · split
        · split <;> exact r.gapTimer_setStream rfl
        · exact r.gapTimer_setStream rfl
      · rfl

end Replica

end PaxosBus.Bus

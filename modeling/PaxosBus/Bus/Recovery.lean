import PaxosBus.Bus.Frontier

/-!
# The books of gap recovery

A follower notes the slots it has asked the leader for, and the leader the slots
whose NoOp is being agreed on. A recovered slot and a committed NoOp drop the
note of the request; data that comes directly does not. The books stay tidy as
long as no data is recorded in a slot that has been asked for.
-/

set_option autoImplicit false

namespace PaxosBus.Bus

open Std PaxosBus.Common PaxosBus.Library

namespace ClientStream

/-- Only empty slots are asked for, and only by a follower; only NoOps are being agreed on, and
only by the leader; an agreement still lacks acknowledgements. -/
structure Tidy (leader : Bool) (f : Nat) (s : ClientStream) : Prop where
  requested : ∀ slot, slot ∈ s.gapRequestNs →
    leader = false ∧ (s.entry slot).state = .empty
  lastRequested : ∀ slot, slot ∈ s.gapLastReqNs →
    leader = false ∧ (s.entry slot).state = .empty
  sameKeys : ∀ slot, slot ∈ s.gapCommitAcks ↔ slot ∈ s.noopStartNs
  noops : ∀ slot, slot ∈ s.noopStartNs → leader = true ∧ (s.entry slot).state = .noop
  lacking : 1 ≤ f → ∀ (slot : Nat) (acks : Finset Nat),
    s.gapCommitAcks[slot]? = some acks → acks.card < f

/-- The slot has been asked for. -/
def asked (s : ClientStream) (slot : Nat) : Bool :=
  s.gapRequestNs.contains slot || s.gapLastReqNs.contains slot

variable {s s' : ClientStream} {leader : Bool} {f : Nat}

/-- A slot is not asked for if neither map has it. -/
theorem asked_eq_false {slot : Nat} :
    s.asked slot = false ↔ slot ∉ s.gapRequestNs ∧ slot ∉ s.gapLastReqNs := by
  rw [asked, Bool.or_eq_false_iff, ← Bool.not_eq_true, ← Bool.not_eq_true]
  exact Iff.rfl

namespace Tidy

/-- The books and the log are as they were. -/
theorem of_same (tidy : s.Tidy leader f) (log : s'.log = s.log)
    (requests : s'.gapRequestNs = s.gapRequestNs)
    (lastRequests : s'.gapLastReqNs = s.gapLastReqNs) (acks : s'.gapCommitAcks = s.gapCommitAcks)
    (starts : s'.noopStartNs = s.noopStartNs) : s'.Tidy leader f := by
  have entries : ∀ slot, s'.entry slot = s.entry slot := entry_congr log
  constructor
  · intro slot noted
    rw [entries]
    exact tidy.requested slot (requests ▸ noted)
  · intro slot noted
    rw [entries]
    exact tidy.lastRequested slot (lastRequests ▸ noted)
  · rw [acks, starts]
    exact tidy.sameKeys
  · intro slot started
    rw [entries]
    exact tidy.noops slot (starts ▸ started)
  · rw [acks]
    exact tidy.lacking

/-- A slot that has not been asked for, and is no NoOp, may be written. -/
theorem setEntry (tidy : s.Tidy leader f) {seq : Nat} {e : LogEntry}
    (unasked : s.asked seq = false) (stays : (s.entry seq).state = .noop → e.state = .noop) :
    (s.setEntry seq e).Tidy leader f := by
  have notes := asked_eq_false.mp unasked
  constructor
  · intro slot noted
    have other : seq ≠ slot := fun same => notes.1 (same ▸ noted)
    rw [entry_setEntry, if_neg other]
    exact tidy.requested slot noted
  · intro slot noted
    have other : seq ≠ slot := fun same => notes.2 (same ▸ noted)
    rw [entry_setEntry, if_neg other]
    exact tidy.lastRequested slot noted
  · exact tidy.sameKeys
  · intro slot started
    obtain ⟨leads, noop⟩ := tidy.noops slot started
    refine ⟨leads, ?_⟩
    rw [entry_setEntry]
    split
    · rename_i same
      exact stays (same ▸ noop)
    · exact noop
  · exact tidy.lacking

/-- A request that is dropped leaves fewer notes. -/
theorem dropRequest (tidy : s.Tidy leader f) (seq : Nat) : (s.dropRequest seq).Tidy leader f where
  requested slot noted := tidy.requested slot (TreeMap.mem_of_mem_erase noted)
  lastRequested slot noted := tidy.lastRequested slot (TreeMap.mem_of_mem_erase noted)
  sameKeys := tidy.sameKeys
  noops := tidy.noops
  lacking := tidy.lacking

/-- A follower asks for an empty slot. -/
theorem noteRequest (tidy : s.Tidy false f) {seq : Nat} (now : Nat)
    (missing : (s.entry seq).state = .empty) : (s.noteRequest seq now).Tidy false f := by
  have inserted : ∀ (map : TreeMap Nat Nat) (slot : Nat), slot ∈ map.insert seq now →
      seq = slot ∨ slot ∈ map := by
    intro map slot noted
    simpa using TreeMap.mem_insert.mp noted
  constructor
  · intro slot noted
    refine ⟨rfl, ?_⟩
    have cases : seq = slot ∨ slot ∈ s.gapRequestNs := by
      unfold ClientStream.noteRequest at noted
      dsimp only at noted
      split at noted
      · exact .inr noted
      · exact inserted _ _ noted
    rcases cases with rfl | before
    · exact missing
    · exact (tidy.requested slot before).2
  · intro slot noted
    refine ⟨rfl, ?_⟩
    rcases inserted _ _ noted with rfl | before
    · exact missing
    · exact (tidy.lastRequested slot before).2
  · exact tidy.sameKeys
  · exact tidy.noops
  · exact tidy.lacking

/-- The leader starts to agree on a NoOp. -/
theorem startAgreement (tidy : s.Tidy true f) {seq : Nat} (now : Nat)
    (noop : (s.entry seq).state = .noop) : (s.startAgreement seq now).Tidy true f where
  requested := tidy.requested
  lastRequested := tidy.lastRequested
  sameKeys slot := by
    simp only [ClientStream.startAgreement, TreeMap.mem_insert, tidy.sameKeys slot]
  noops slot started := by
    have cases : seq = slot ∨ slot ∈ s.noopStartNs := by
      simpa using TreeMap.mem_insert.mp started
    rcases cases with rfl | before
    · exact ⟨rfl, noop⟩
    · exact tidy.noops slot before
  lacking needed slot acks counted := by
    simp only [ClientStream.startAgreement, TreeMap.getElem?_insert] at counted
    split at counted
    · obtain rfl := Option.some.inj counted
      exact needed
    · exact tidy.lacking needed slot acks counted

/-- The leader holds no note of a request. -/
theorem unasked (tidy : s.Tidy true f) (slot : Nat) : s.asked slot = false := by
  apply asked_eq_false.mpr
  constructor
  · intro noted
    cases (tidy.requested slot noted).1
  · intro noted
    cases (tidy.lastRequested slot noted).1

/-- Data is recorded in a slot that has not been asked for. -/
theorem record (tidy : s.Tidy leader f) {seq : Nat} (payload : String) (sendTimeNs now : Nat)
    (unasked : s.asked seq = false) : (s.record seq payload sendTimeNs now).Tidy leader f := by
  have noted : (s.noteSeq seq).Tidy leader f := tidy.of_same rfl rfl rfl rfl rfl
  unfold ClientStream.record
  split
  · exact noted
  · rename_i undecided
    exact noted.setEntry unasked fun final => absurd final undecided

/-- One missing slot is resolved. -/
theorem resolve (tidy : s.Tidy leader f) (options : Options) {seq : Nat} (now : Nat)
    (missing : (s.entry seq).state = .empty) : (s.resolve leader options seq now).Tidy leader f := by
  unfold ClientStream.resolve
  cases leader with
  | true =>
      rw [if_pos rfl, nullify, if_neg (by simp [missing])]
      have written := tidy.setEntry (e := { s.entry seq with state := .noop }) (tidy.unasked seq)
        fun _ => rfl
      exact written.startAgreement now (by simp)
  | false =>
      rw [if_neg (by simp)]
      unfold ask
      split
      · exact tidy
      · exact tidy.noteRequest now missing

/-- The gap scan resolves slots that are missing. -/
theorem scan (tidy : s.Tidy leader f) (options : Options) (nowNs : Nat) (clock : Nat → Nat)
    (slot slots : Nat) : (s.scan leader options nowNs clock slot slots).Tidy leader f := by
  induction slots generalizing s slot with
  | zero => exact tidy
  | succ slots inductionHypothesis =>
      unfold ClientStream.scan
      split
      · exact inductionHypothesis tidy (slot + 1)
      · rename_i missing
        split
        · exact tidy
        · have empty : (s.entry slot).state = .empty := by simpa [filled] using missing
          exact inductionHypothesis (tidy.resolve options (clock slot) empty) (slot + 1)

/-- The frontier moves, and no slot. -/
theorem advance (tidy : s.Tidy leader f) : s.advance.Tidy leader f :=
  tidy.of_same rfl rfl rfl rfl rfl

/-- The timer is no note. -/
theorem untimed (tidy : s.Tidy leader f) : s.untimed.Tidy leader f :=
  tidy.of_same rfl rfl rfl rfl rfl

/-- Streams with the same notes and slots. -/
theorem of_untimed (same : s'.untimed = s.untimed) (tidy : s.Tidy leader f) :
    s'.Tidy leader f := by
  have stripped : s'.untimed.Tidy leader f := by
    rw [same]
    exact tidy.untimed
  exact stripped.of_same rfl rfl rfl rfl rfl

/-- Data is taken. In gap mode it is either dropped or recorded. -/
theorem takeData (tidy : s.Tidy leader f) (gapMode dropped : Bool) (msg : DataMessage)
    (clock : Nat → Nat)
    (unasked : gapMode = true → dropped = false → s.asked msg.seqNum = false) :
    (s.takeData gapMode dropped msg clock).Tidy leader f := by
  unfold ClientStream.takeData
  split
  · exact tidy.of_same rfl rfl rfl rfl rfl
  · rename_i kept
    dsimp only
    split
    · rename_i enabled
      have anchored : ((s.noteSeq msg.seqNum).reanchor msg.seqNum (clock 0)).Tidy leader f :=
        tidy.of_same rfl rfl rfl rfl rfl
      have arrived : dropped = false := by simpa [enabled] using kept
      exact (anchored.record msg.payload msg.sendTimeNs (clock 1)
        (unasked enabled arrived)).advance
    · exact tidy.of_same rfl rfl rfl rfl rfl

/-- Recovered data fills an empty slot, whose request is then dropped. -/
theorem takeReply (tidy : s.Tidy leader f) (msg : GapReplyMessage) (now : Nat) :
    (s.takeReply msg now).Tidy leader f := by
  unfold ClientStream.takeReply
  split
  · -- the note of the request is dropped after the slot is written: dropping it first is the same
    have dropped := tidy.dropRequest msg.seqNum
    have unasked : (s.dropRequest msg.seqNum).asked msg.seqNum = false := by
      simp [asked, ClientStream.dropRequest]
    have recorded := dropped.record msg.payload msg.sendTimeNs now unasked
    have same : (s.record msg.seqNum msg.payload msg.sendTimeNs now).dropRequest msg.seqNum =
        (s.dropRequest msg.seqNum).record msg.seqNum msg.payload msg.sendTimeNs now := by
      unfold ClientStream.record
      by_cases final : ((s.noteSeq msg.seqNum).entry msg.seqNum).state = .noop
      · have after : (((s.dropRequest msg.seqNum).noteSeq msg.seqNum).entry msg.seqNum).state =
            .noop := final
        rw [if_pos final, if_pos after]
        rfl
      · have after : ¬ (((s.dropRequest msg.seqNum).noteSeq msg.seqNum).entry msg.seqNum).state =
            .noop := final
        rw [if_neg final, if_neg after]
        rfl
    rw [same]
    exact recorded.advance
  · exact tidy

/-- A committed NoOp is written, and the request for its slot is dropped. -/
theorem takeCommit (tidy : s.Tidy leader f) (seq : Nat) : (s.takeCommit seq).Tidy leader f := by
  have dropped := tidy.dropRequest seq
  have unasked : (s.dropRequest seq).asked seq = false := by
    simp [asked, ClientStream.dropRequest]
  have written := dropped.setEntry (e := { s.entry seq with state := .noop }) unasked
    fun _ => rfl
  exact written.advance

/-- An acknowledgement is counted, and the last one that is needed closes the agreement. -/
theorem takeAck (tidy : s.Tidy leader f) (msg : GapCommitReplyMessage) :
    (s.takeAck f msg).Tidy leader f := by
  unfold ClientStream.takeAck
  split
  · rename_i started
    dsimp only
    split
    · constructor
      · exact tidy.requested
      · exact tidy.lastRequested
      · intro slot
        simp only [TreeMap.mem_erase, tidy.sameKeys slot]
      · intro slot stays
        exact tidy.noops slot (TreeMap.mem_of_mem_erase stays)
      · intro needed slot acks counted
        rw [TreeMap.getElem?_erase] at counted
        split at counted
        · cases counted
        · exact tidy.lacking needed slot acks counted
    · rename_i few
      constructor
      · exact tidy.requested
      · exact tidy.lastRequested
      · intro slot
        have present : msg.seqNum ∈ s.noopStartNs := TreeMap.mem_iff_contains.mpr started
        simp only [TreeMap.mem_insert, tidy.sameKeys slot]
        constructor
        · rintro (same | stays)
          · have equal : msg.seqNum = slot := by simpa using same
            exact equal ▸ present
          · exact stays
        · exact .inr
      · exact tidy.noops
      · intro needed slot acks counted
        rw [TreeMap.getElem?_insert] at counted
        split at counted
        · obtain rfl := Option.some.inj counted
          exact Nat.lt_of_not_le few
        · exact tidy.lacking needed slot acks counted
  · exact tidy

end Tidy

/-- Nothing is noted in a stream that has just been created. -/
theorem tidy_new : Tidy leader f {} where
  requested slot noted := absurd noted TreeMap.not_mem_emptyc
  lastRequested slot noted := absurd noted TreeMap.not_mem_emptyc
  sameKeys _ := Iff.rfl
  noops slot started := absurd started TreeMap.not_mem_emptyc
  lacking _ slot acks counted := by cases counted

end ClientStream

namespace Replica

variable (r : Replica)

/-- `HandleData` records the data, and its slot has been asked for. -/
def recordsAsked (msg : DataMessage) : Bool :=
  (r.clients[msg.clientId]?).isSome && r.options.gapEnabled && !r.shouldDrop msg.seqNum &&
    (r.stream msg.clientId).asked msg.seqNum

/-- The message is not data for a slot that the replica has asked for and now records. -/
def Unasked (msg : Message) : Prop :=
  match msg with
  | .data msg => r.recordsAsked msg = false
  | _ => True

instance (msg : Message) : Decidable (r.Unasked msg) :=
  match msg with
  | .data msg => inferInstanceAs (Decidable (r.recordsAsked msg = false))
  | .sync _ => inferInstanceAs (Decidable True)
  | .dataReply _ => inferInstanceAs (Decidable True)
  | .gapRequest _ => inferInstanceAs (Decidable True)
  | .gapReply _ => inferInstanceAs (Decidable True)
  | .gapCommit _ => inferInstanceAs (Decidable True)
  | .gapCommitReply _ => inferInstanceAs (Decidable True)

/-- The books of every client are tidy. -/
def Tidy : Prop := ∀ client, (r.stream client).Tidy r.amLeader r.config.f

variable {r}

/-- Whatever the message does to the stream of its client, the books stay tidy. -/
theorem Tidy.takes (tidy : r.Tidy) (msg : Message) (clock : Nat → Nat) (unasked : r.Unasked msg) :
    (r.takes msg clock (r.stream msg.clientId)).Tidy r.amLeader r.config.f := by
  have before := tidy msg.clientId
  cases msg with
  | sync msg => exact before.of_same rfl rfl rfl rfl rfl
  | data msg =>
      unfold Replica.takes
      dsimp only
      split
      · rename_i known
        apply before.takeData
        intro gapMode arrived
        simp only [Unasked, recordsAsked, known, gapMode, arrived, Bool.true_and,
          Bool.not_false] at unasked
        exact unasked
      · exact before
  | dataReply msg => exact before
  | gapRequest msg => exact before
  | gapReply msg => exact before.takeReply msg (clock 0)
  | gapCommit msg => exact before.takeCommit msg.seqNum
  | gapCommitReply msg =>
      unfold Replica.takes
      dsimp only
      split
      · exact before.takeAck msg
      · exact before

/-- What the replica is decides whether it leads and how many acknowledgements it needs. -/
theorem tidy_congr {r' : Replica} (same : r'.identity = r.identity)
    (streams : ∀ client, (r'.stream client).Tidy r.amLeader r.config.f) : r'.Tidy := by
  have leads := amLeader_congr same
  have config : r'.config = r.config := congrArg Prod.fst same
  intro client
  rw [leads, config]
  exact streams client

/-- A message keeps the notes tidy, unless it brings what was not asked for. -/
theorem Tidy.receiveMessage (tidy : r.Tidy) (remote : Address) (msg : Message)
    (clock : Nat → Nat) (unasked : r.Unasked msg) :
    (r.receiveMessage remote msg clock).1.Tidy := by
  apply tidy_congr (r.identity_receiveMessage remote msg clock)
  intro client
  have after := r.untimed_receiveMessage client remote msg clock
  split at after
  · rename_i same
    subst same
    exact (tidy.takes msg clock unasked).of_untimed after
  · exact (tidy client).of_untimed after

/-- A gap timer keeps the notes tidy. -/
theorem Tidy.onGapTimeout (tidy : r.Tidy) (timers : Timers Nat) (clientId : Nat)
    (clock : Nat → Nat) : ({ r with timers }.onGapTimeout clientId clock).1.Tidy := by
  apply tidy_congr (r := { r with timers }) (identity_onGapTimeout _ clientId clock)
  intro client
  have after := untimed_onGapTimeout { r with timers } clientId client clock
  split at after
  · rename_i same
    subst same
    exact (((tidy clientId).untimed.scan r.options (clock 0) clock _ _).advance).of_untimed after
  · exact (tidy client).of_untimed after

end Replica

namespace System

/-- No replica records data in a slot that it has asked its leader for. -/
abbrev RecordsUnasked : System → Action → Prop := Admitting Replica.Unasked

/-- Along every run in which no data is recorded in a slot that has been asked for, only empty
slots are noted as asked for, exactly the NoOps whose agreement is open are noted as such at the
leader, and an open agreement has fewer than `f` acknowledgements. -/
theorem tidy_of_recordsUnasked (d : Deployment) (s : System)
    (reachable : (system d).Reachable RecordsUnasked s) (idx client : Nat) :
    ((s.replicas idx).stream client).Tidy (s.replicas idx).amLeader d.config.f := by
  have invariant : (system d).Invariant RecordsUnasked
      (fun s => ∀ idx, (s.replicas idx).config = d.config ∧ (s.replicas idx).Tidy) := by
    apply replica_invariant d (fun r => r.config = d.config ∧ r.Tidy)
    · intro idx
      exact ⟨rfl, fun client => ClientStream.tidy_new⟩
    · intro r remote msg clock holds unasked
      exact ⟨(congrArg Prod.fst (r.identity_receiveMessage remote msg clock)).trans holds.1,
        holds.2.receiveMessage remote msg clock unasked⟩
    · intro r id clock timer holds pending
      exact ⟨(congrArg Prod.fst (Replica.identity_onGapTimeout _ timer.callback clock)).trans
        holds.1, holds.2.onGapTimeout _ timer.callback clock⟩
  obtain ⟨config, tidy⟩ := invariant.of_reachable reachable idx
  rw [← config]
  exact tidy client

/-! ## Two executions in which a request is lost on the way -/

/-- The group of three, without simulated drops. -/
def lossless : Deployment := { trio with options := { gapEnabled := true, dropMod := 0 } }

/-- Follower 2 gets the second request of client 7 only, and asks the leader for the first. -/
def askingRun : List Action :=
  warmUp ++ [.deliver 3 (clockAt 5001), .deliver 8 (clockAt 5012), .replicaTimer 2 1 (clockAt 5025)]

/-- The leader serves the slot that was asked for. -/
def servedRun : List Action :=
  askingRun ++ [.deliver 11 (clockAt 5026), .deliver 12 (clockAt 5027)]

/-- The first request reaches the follower on its own after all. -/
def overtakenRun : List Action := askingRun ++ [.deliver 5 (clockAt 5026)]

set_option maxRecDepth 10000 in
/-- The served run records nothing in a slot that has been asked for, and resolves the slot. -/
theorem tidy_servedRun : ∃ s : System, (s.replicas 2).entry 7 1 ≠ {} ∧
    ((s.replicas 2).stream 7).Tidy (s.replicas 2).amLeader 1 := by
  obtain ⟨s, reachable, served⟩ :=
    (system lossless).exists_reachable_of_run RecordsUnasked
      (fun s => decide ((s.replicas 2).entry 7 1 ≠ {})) servedRun rfl (by decide)
  exact ⟨s, of_decide_eq_true served, tidy_of_recordsUnasked lossless s reachable 2 7⟩

set_option maxRecDepth 10000 in
/-- In the overtaken run the follower has the slot and still notes it as asked for. -/
theorem not_tidy_overtakenRun :
    ¬ ∀ s, (system lossless).Reachable TransitionSystem.unguarded s → ∀ idx client,
      ((s.replicas idx).stream client).Tidy (s.replicas idx).amLeader lossless.config.f := by
  intro always
  obtain ⟨s, reachable, stale⟩ :=
    (system lossless).exists_reachable_of_run TransitionSystem.unguarded
      (fun s => decide (((s.replicas 2).entry 7 1).state = .received) &&
        ((s.replicas 2).stream 7).gapRequestNs.contains 1) overtakenRun rfl (by decide)
  obtain ⟨received, noted⟩ := Bool.and_eq_true_iff.mp stale
  have missing := ((always s reachable 2 7).requested 1 (TreeMap.mem_iff_contains.mpr noted)).2
  have resolved := of_decide_eq_true received
  unfold Replica.entry at resolved
  rw [missing] at resolved
  cases resolved

end System

end PaxosBus.Bus

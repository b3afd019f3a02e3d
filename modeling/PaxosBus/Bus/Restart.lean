import PaxosBus.Bus.Lockstep

/-!
# A stream that is restarted

A `Sync` resets the anchor, the frontier and the highest sequence number of a
stream, and keeps its log, its timer and the notes of gap recovery. So a replica
behaves after a `Sync` as one that has never heard of the client, exactly when
nothing is left in the log, no gap timer is pending and no earlier request holds
one back.
-/

set_option autoImplicit false

namespace PaxosBus.Bus

open Std PaxosBus.Common

namespace Replica

/-- Nothing that a `Sync` keeps tells the client from a new one: its slots are empty, its gap
timer is not pending, and it has no request outstanding that could hold back another. -/
structure Clean (r : Replica) (client : Nat) : Prop where
  slots : ∀ slot, (r.entry client slot).state = .empty
  timer : r.gapTimer client = none
  requests : r.amLeader = true ∨ r.options.gapEnabled = false ∨ r.options.gapRetryNs = 0 ∨
    ∀ slot, 1 ≤ slot → slot ∉ (r.stream client).gapLastReqNs

/-! ## After a `Sync` -/

/-- What a `Sync` does to the stream of its client. -/
theorem stream_handleSync (r : Replica) (remote : Address) (sync : SyncMessage) (recvNs : Nat) :
    (r.handleSync remote sync recvNs).stream sync.clientId =
      (r.stream sync.clientId).resync sync recvNs := by
  have stored : (r.handleSync remote sync recvNs).stream sync.clientId =
      (r.setStream sync.clientId ((r.stream sync.clientId).resync sync recvNs)).stream
        sync.clientId := rfl
  rw [stored, stream_setStream, if_pos rfl]

/-- After a `Sync` of a clean client the replica is in lockstep with one that has never heard of
the client. -/
theorem lockstep_handleSync {r r' : Replica} (identityEq : r'.identity = r.identity)
    (timed : r.Timed) (timed' : r'.Timed) {sync : SyncMessage} (clean : r.Clean sync.clientId)
    (unknown : r'.clients[sync.clientId]? = none) (unarmed : r'.gapTimer sync.clientId = none)
    (remote : Address) (recvNs : Nat) :
    Lockstep sync.clientId (r.handleSync remote sync recvNs)
      (r'.handleSync remote sync recvNs) := by
  have stream : ∀ r : Replica, (r.handleSync remote sync recvNs).stream sync.clientId =
      (r.stream sync.clientId).resync sync recvNs :=
    fun r => r.stream_handleSync remote sync recvNs
  have timer : ∀ r : Replica, (r.handleSync remote sync recvNs).gapTimer sync.clientId =
      r.gapTimer sync.clientId := fun r =>
    r.gapTimer_receiveMessage remote (.sync sync) fun _ => recvNs
  have new : r'.stream sync.clientId = {} := by
    unfold Replica.stream
    rw [unknown]
    rfl
  have known : ∀ r : Replica,
      ((r.handleSync remote sync recvNs).clients[sync.clientId]?).isSome = true := by
    intro r
    simp [handleSync, setStream, learnAddress]
  have writes : ∀ r : Replica, Writes sync.clientId r (r.handleSync remote sync recvNs) :=
    fun r => .receiveMessage r remote (.sync sync) fun _ => recvNs
  constructor
  · exact identityEq
  · exact known r
  · exact known r'
  · simp [handleSync, learnAddress]
  · rw [stream, stream, new]
    constructor
    · rfl
    · rfl
    · rfl
    · rfl
    · intro slot
      have empty := clean.slots slot
      exact .of_state empty (by
        rw [show (((r.stream sync.clientId).resync sync recvNs).entry slot).state = .empty
          from empty]
        intro filled
        cases filled)
  · rw [stream]
    exact Nat.le_refl 1
  · intro follows gapMode slot now positive
    have fresh : (({} : ClientStream).resync sync recvNs).gapLastReqNs[slot]? = none := rfl
    rw [stream, stream, new, ClientStream.recentlyRequested_of_none fresh]
    rcases clean.requests with leads | plain | eager | free
    · rw [show (r.handleSync remote sync recvNs).amLeader = r.amLeader from rfl, leads] at follows
      cases follows
    · rw [show (r.handleSync remote sync recvNs).options = r.options from rfl, plain] at gapMode
      cases gapMode
    · unfold ClientStream.recentlyRequested
      split
      · rfl
      · rw [show (r.handleSync remote sync recvNs).options = r.options from rfl, eager]
        simp
    · apply ClientStream.recentlyRequested_of_none
      exact TreeMap.getElem?_eq_none (free slot positive)
  · rw [timer, timer, clean.timer, unarmed]
  · intro _
    rw [timer]
    exact clean.timer
  · exact timed.of_writes (writes r)
  · exact timed'.of_writes (writes r')

/-! ## Telling a restarted stream from a new one -/

/-- Recovered data arrives for the slot after this one, which arms the gap timer and makes the
replica expect this one. -/
def recovery (clientId slot : Nat) : GapReplyMessage :=
  { clientId, seqNum := slot + 1, viewId := 0, replicaIdx := 0, found := true,
    sendTimeNs := 0, payload := "" }

/-- The recovered data arrives, and later the gap timer fires. -/
def probe (clientId slot : Nat) (clock : Nat → Nat) : List Event :=
  [.message (.client clientId) (.gapReply (recovery clientId slot)) (fun _ => 0),
    .gapTimer clientId clock]

/-- Recovered data leaves the earlier slots, the anchor and the notes about them alone. -/
theorem takeReply_recovery {s : ClientStream} (msg : GapReplyMessage) {slot : Nat}
    (empty : ∀ slot, (s.entry slot).state = .empty) (next : s.nextExpected = 1)
    (positive : 1 ≤ slot) (seq : msg.seqNum = slot + 1) (found : msg.found = true) (now : Nat) :
    (s.takeReply msg now).nextExpected = 1 ∧ slot ≤ (s.takeReply msg now).maxSeqSeen ∧
      ((s.takeReply msg now).entry slot).state = .empty ∧
        (s.takeReply msg now).gapLastReqNs[slot]? = s.gapLastReqNs[slot]? ∧
          (s.takeReply msg now).baseRecvNs = s.baseRecvNs ∧
            (s.takeReply msg now).intervalNs = s.intervalNs := by
  have missing : s.filled msg.seqNum = false := ClientStream.filled_eq_false.mpr (empty _)
  have undecided : ((s.noteSeq msg.seqNum).entry msg.seqNum).state ≠ .noop := by
    rw [show ((s.noteSeq msg.seqNum).entry msg.seqNum).state = .empty from empty _]
    exact nofun
  have recorded : s.record msg.seqNum msg.payload msg.sendTimeNs now =
      (s.noteSeq msg.seqNum).setEntry msg.seqNum
        { state := .received, payload := msg.payload, sendTimeNs := msg.sendTimeNs,
          recvNs := now } := by
    unfold ClientStream.record
    rw [if_neg undecided]
  have taken : s.takeReply msg now = (((s.noteSeq msg.seqNum).setEntry msg.seqNum
      { state := .received, payload := msg.payload, sendTimeNs := msg.sendTimeNs,
        recvNs := now }).dropRequest msg.seqNum).advance := by
    unfold ClientStream.takeReply
    rw [if_pos (by simp [found, missing]), recorded]
  have others : ∀ other, other ≠ msg.seqNum → ((s.takeReply msg now).entry other).state =
      .empty := by
    intro other different
    rw [taken]
    have written := ClientStream.entry_setEntry (s.noteSeq msg.seqNum) msg.seqNum other
      { state := .received, payload := msg.payload, sendTimeNs := msg.sendTimeNs, recvNs := now }
    rw [if_neg (Ne.symm different)] at written
    exact (congrArg LogEntry.state written).trans (empty other)
  constructor
  · rw [taken]
    apply ClientStream.frontierFrom_eq
    · exact Nat.le_of_eq next
    · intro other low high
      have walked : s.nextExpected ≤ other := low
      omega
    · apply ClientStream.filled_eq_false.mpr
      have first := others 1 (by omega)
      rw [taken] at first
      exact first
  · refine ⟨?_, others slot (by omega), ?_, ?_, ?_⟩
    · rw [taken]
      exact Nat.le_trans (by omega) (Nat.le_max_right s.maxSeqSeen msg.seqNum)
    · rw [taken]
      simp [ClientStream.advance, ClientStream.dropRequest, ClientStream.setEntry,
        ClientStream.noteSeq, TreeMap.getElem?_erase, seq]
    · rw [taken]
      rfl
    · rw [taken]
      rfl

/-- What is asked is among what is told. -/
theorem asks_filter (r : Replica) (client : Nat) (sends : List Send) (slot : Nat) :
    r.Asks client (sends.filter (·.msg.tellsOf client)) slot ↔ r.Asks client sends slot := by
  constructor
  · rintro ⟨send, sent, request⟩
    exact ⟨send, (List.mem_filter.mp sent).1, request⟩
  · rintro ⟨send, sent, request⟩
    refine ⟨send, List.mem_filter.mpr ⟨sent, ?_⟩, request⟩
    rw [request]
    exact beq_self_eq_true client

/-- A follower asks for the slot when the gap timer fires in the probe, unless it has just
asked. -/
theorem asks_probe {r : Replica} (client slot : Nat) (clock : Nat → Nat) (timed : r.Timed)
    (follows : r.amLeader = false) (gapMode : r.options.gapEnabled = true)
    (positive : 1 ≤ slot) (empty : ∀ slot, (r.entry client slot).state = .empty)
    (next : (r.stream client).nextExpected = 1)
    (due : (r.stream client).deadlineNs r.options slot ≤ clock 0) :
    ∃ first sends, r.tells client (probe client slot clock) = [first, sends] ∧
      (r.Asks client sends slot ↔
        (r.stream client).recentlyRequested r.options slot (clock slot) = false) := by
  have identityEq := r.identity_receiveMessage (.client client)
    (.gapReply (recovery client slot)) fun _ => 0
  have missing : (r.stream client).filled (recovery client slot).seqNum = false :=
    ClientStream.filled_eq_false.mpr (empty _)
  obtain ⟨nextAfter, seen, emptyAfter, asked, base, interval⟩ :=
    takeReply_recovery (recovery client slot) empty next positive rfl rfl 0
  have armed : r.arming (.gapReply (recovery client slot)) (fun _ => 0) = some 0 := by
    simp only [arming, gapMode, Bool.true_and]
    rw [if_pos]
    rw [show r.stream (recovery client slot).clientId = r.stream client from rfl, missing]
    rfl
  have timer := r.gapTimer_receiveMessage (.client client) (.gapReply (recovery client slot))
    fun _ => 0
  have stream := r.untimed_receiveMessage client (.client client)
    (.gapReply (recovery client slot)) fun _ => 0
  have timedAfter : (r.receiveMessage (.client client) (.gapReply (recovery client slot))
      fun _ => 0).1.Timed := timed.of_writes (.receiveMessage r _ _ _)
  rw [armed] at timer
  rw [if_pos (by rfl)] at stream
  refine ⟨_, _, rfl, ?_⟩
  rw [asks_filter]
  unfold undergo
  dsimp only
  generalize (r.receiveMessage (.client client) (.gapReply (recovery client slot))
    fun _ => 0).1 = later at identityEq timer stream timedAfter
  have pending : ∃ ms, later.gapTimer client = some { ms, callback := client } := ⟨_, timer⟩
  obtain ⟨ms, pending⟩ := pending
  obtain ⟨base', interval', next', seen', log', asked'⟩ := ClientStream.fields_of_untimed stream
  rw [pending]
  dsimp only
  have mode := options_congr identityEq
  have follows' : (later.expire (later.stream client).gapTimerId).amLeader = false := by
    rw [← follows]
    exact amLeader_congr identityEq
  have sameAsks : ∀ sends,
      r.Asks client sends slot ↔
        (later.expire (later.stream client).gapTimerId).Asks client sends slot := by
    intro sends
    simp only [identity, Prod.mk.injEq] at identityEq
    unfold Asks
    rw [← identityEq.2.1, ← identityEq.2.2.2]
    exact Iff.rfl
  have recovers := (later.expire (later.stream client).gapTimerId).recovers_iff client clock slot
  rw [Recovers, if_neg (by simp [follows'])] at recovers
  rw [sameAsks, recovers]
  have streams : (later.expire (later.stream client).gapTimerId).stream client =
      later.stream client := rfl
  have dueAfter : (later.stream client).deadlineNs later.options slot ≤ clock 0 := by
    unfold ClientStream.deadlineNs
    rw [base', interval', mode]
    exact base ▸ interval ▸ due
  have recent : (later.stream client).recentlyRequested later.options slot (clock slot) =
      (r.stream client).recentlyRequested r.options slot (clock slot) := by
    rw [mode]
    exact ClientStream.recentlyRequested_congr
      ((congrArg (·[slot]?) asked').trans asked) (clock slot)
  have emptyNow : ((later.stream client).entry slot).state = .empty := by
    rw [ClientStream.entry_congr log']
    exact emptyAfter
  rw [streams]
  constructor
  · rintro ⟨_, _, _, ready⟩
    rcases ready with leads | ready
    · rw [follows'] at leads
      cases leads
    · rw [← recent]
      exact ready
  · intro ready
    refine ⟨?_, ?_, ⟨emptyNow, dueAfter⟩, .inr ?_⟩
    · rw [next']
      exact Nat.le_trans (Nat.le_of_eq nextAfter) positive
    · apply Nat.le_trans _ (Nat.le_max_left _ _)
      rw [seen']
      exact seen
    · rw [← recent] at ready
      exact ready

section

variable {r r' : Replica} {sync : SyncMessage} {remote : Address} {recvNs : Nat}

/-- A slot that a follower has asked for tells: the new replica asks for it in the probe, and the
restarted one holds its request back. -/
theorem requests_of_indistinct (identityEq : r'.identity = r.identity) (timed : r.Timed)
    (timed' : r'.Timed) (unknown : r'.clients[sync.clientId]? = none)
    (slots : ∀ slot, (r.entry sync.clientId slot).state = .empty)
    (indistinct : ∀ later, Indistinct sync.clientId (r.handleSync remote sync recvNs)
      (r'.handleSync remote sync recvNs) later) :
    r.amLeader = true ∨ r.options.gapEnabled = false ∨ r.options.gapRetryNs = 0 ∨
      ∀ slot, 1 ≤ slot → slot ∉ (r.stream sync.clientId).gapLastReqNs := by
  by_contra distinct
  simp only [not_or, not_forall, not_not] at distinct
  obtain ⟨follows, gapMode, waits, slot, positive, noted⟩ := distinct
  have new : r'.stream sync.clientId = {} := by
    unfold Replica.stream
    rw [unknown]
    rfl
  have mode := options_congr identityEq
  obtain ⟨last, asked⟩ : ∃ last, (r.stream sync.clientId).gapLastReqNs[slot]? = some last :=
    ⟨_, TreeMap.getElem?_eq_some_getElem noted⟩
  let deadline := ((r.stream sync.clientId).resync sync recvNs).deadlineNs r.options slot
  let clock : Nat → Nat := fun reading => if reading = slot then last else deadline.toNat
  have due : ∀ s : ClientStream, (s.resync sync recvNs).deadlineNs r.options slot ≤
      (clock 0 : Int) := by
    intro s
    have same : (s.resync sync recvNs).deadlineNs r.options slot = deadline := rfl
    rw [same, show clock 0 = deadline.toNat from if_neg (by omega)]
    exact Int.self_le_toNat deadline
  have timedSync : ∀ r : Replica, r.Timed → (r.handleSync remote sync recvNs).Timed :=
    fun r timed => timed.of_writes (.receiveMessage r remote (.sync sync) fun _ => recvNs)
  obtain ⟨first, sends, told, asks⟩ := asks_probe sync.clientId slot clock
    (timedSync r timed) (eq_false_of_ne_true follows)
    (eq_true_of_ne_false gapMode) positive
    (fun slot => by rw [entry, stream_handleSync]; exact slots slot)
    (by rw [stream_handleSync]; rfl) (by rw [stream_handleSync]; exact due _)
  obtain ⟨first', sends', told', asks'⟩ := asks_probe sync.clientId slot clock
    (timedSync r' timed')
    ((amLeader_congr identityEq).trans (eq_false_of_ne_true follows))
    ((congrArg Options.gapEnabled mode).trans (eq_true_of_ne_false gapMode)) positive
    (fun slot => by rw [entry, stream_handleSync, new]; rfl)
    (by rw [stream_handleSync]; rfl)
    (by
      rw [stream_handleSync, show (r'.handleSync remote sync recvNs).options = r.options from mode]
      exact due _)
  have same := (indistinct (probe sync.clientId slot clock)).tells
  rw [told, told'] at same
  obtain ⟨_, rfl⟩ : first = first' ∧ sends = sends' := by simpa using same
  have recent : ((r.handleSync remote sync recvNs).stream sync.clientId).recentlyRequested
      (r.handleSync remote sync recvNs).options slot (clock slot) = true := by
    have now : clock slot = last := if_pos rfl
    have kept : ((r.handleSync remote sync recvNs).stream sync.clientId).gapLastReqNs[slot]? =
        some last := by
      rw [stream_handleSync]
      exact asked
    unfold ClientStream.recentlyRequested
    rw [kept, now]
    have retry : 0 < r.options.gapRetryNs := Nat.pos_of_ne_zero waits
    simpa [show (r.handleSync remote sync recvNs).options = r.options from rfl] using retry
  have stale : ((r'.handleSync remote sync recvNs).stream sync.clientId).recentlyRequested
      (r'.handleSync remote sync recvNs).options slot (clock slot) = false := by
    apply ClientStream.recentlyRequested_of_none
    rw [stream_handleSync, new]
    rfl
  have asksSame : (r'.handleSync remote sync recvNs).Asks sync.clientId sends slot →
      (r.handleSync remote sync recvNs).Asks sync.clientId sends slot := by
    have fields := identityEq
    simp only [identity, Prod.mk.injEq] at fields
    rintro ⟨send, sent, request⟩
    refine ⟨send, sent, request.trans ?_⟩
    rw [show (r'.handleSync remote sync recvNs).viewId = r.viewId from fields.2.2.2,
      show (r'.handleSync remote sync recvNs).replicaIdx = r.replicaIdx from fields.2.1]
    rfl
  rw [asks.mp (asksSame (asks'.mpr stale))] at recent
  cases recent

/-- A gap timer that is pending tells: it starts recovery of the first slot, and the new replica
has none. -/
theorem timer_of_indistinct (timed : r.Timed)
    (plainIdle : r.options.gapEnabled = false → r.gapTimer sync.clientId = none)
    (unknown : r'.clients[sync.clientId]? = none) (unarmed : r'.gapTimer sync.clientId = none)
    (slots : ∀ slot, (r.entry sync.clientId slot).state = .empty)
    (requests : r.amLeader = true ∨ r.options.gapEnabled = false ∨ r.options.gapRetryNs = 0 ∨
      ∀ slot, 1 ≤ slot → slot ∉ (r.stream sync.clientId).gapLastReqNs)
    (indistinct : ∀ later, Indistinct sync.clientId (r.handleSync remote sync recvNs)
      (r'.handleSync remote sync recvNs) later) :
    r.gapTimer sync.clientId = none := by
  cases pending : r.gapTimer sync.clientId with
  | none => rfl
  | some timer =>
      exfalso
      let deadline := ((r.stream sync.clientId).resync sync recvNs).deadlineNs r.options 1
      let event : Event := .gapTimer sync.clientId fun _ => deadline.toNat
      have told := indistinct [event]
      have still : (r.handleSync remote sync recvNs).gapTimer sync.clientId = some timer :=
        (r.gapTimer_receiveMessage remote (.sync sync) fun _ => recvNs).trans pending
      have still' : (r'.handleSync remote sync recvNs).gapTimer sync.clientId = none :=
        (r'.gapTimer_receiveMessage remote (.sync sync) fun _ => recvNs).trans unarmed
      have fired : (r.handleSync remote sync recvNs).undergo event =
          ((r.handleSync remote sync recvNs).expire ((r.handleSync remote sync recvNs).stream
            sync.clientId).gapTimerId).onGapTimeout sync.clientId
              fun _ => deadline.toNat := by
        have owner := timed.callback_gapTimer pending
        simp only [event, undergo, still, owner]
      have quiet : (r'.handleSync remote sync recvNs).undergo event =
          (r'.handleSync remote sync recvNs, []) := by
        simp only [event, undergo, still']
      have recovers : ((r.handleSync remote sync recvNs).expire ((r.handleSync remote sync
          recvNs).stream sync.clientId).gapTimerId).Recovers sync.clientId
            (fun _ => deadline.toNat) 1 := by
        have streams : ((r.handleSync remote sync recvNs).expire ((r.handleSync remote sync
            recvNs).stream sync.clientId).gapTimerId).stream sync.clientId =
              (r.stream sync.clientId).resync sync recvNs :=
          r.stream_handleSync remote sync recvNs
        rw [recovers_iff, Overdue, Ready, entry, streams]
        refine ⟨Nat.le_refl 1, Nat.le_max_right _ _, ⟨slots 1, Int.self_le_toNat deadline⟩, ?_⟩
        rcases requests with leads | plain | eager | free
        · exact .inl leads
        · rw [plainIdle plain] at pending
          cases pending
        · apply Or.inr
          unfold ClientStream.recentlyRequested
          split
          · rfl
          · rw [show ((r.handleSync remote sync recvNs).expire _).options = r.options from rfl,
              eager]
            simp
        · apply Or.inr
          apply ClientStream.recentlyRequested_of_none
          exact TreeMap.getElem?_eq_none (free 1 (Nat.le_refl 1))
      unfold Recovers at recovers
      split at recovers
      · have states := told.states 1
        have after : (r.handleSync remote sync recvNs).underwent [event] =
            ((r.handleSync remote sync recvNs).undergo event).1 := rfl
        have after' : (r'.handleSync remote sync recvNs).underwent [event] =
            ((r'.handleSync remote sync recvNs).undergo event).1 := rfl
        rw [after, after', fired, quiet, recovers.2, entry, stream_handleSync] at states
        have new : r'.stream sync.clientId = {} := by
          unfold Replica.stream
          rw [unknown]
          rfl
        rw [new] at states
        cases states
      · have tells := told.tells
        unfold Replica.tells at tells
        rw [fired, quiet] at tells
        have silent := List.cons.inj tells
        have asks := (asks_filter _ _ _ _).mpr recovers
        rw [silent.1] at asks
        obtain ⟨send, sent, _⟩ := asks
        cases sent

end

/-! ## The law of a restart -/

/-- Whatever has happened at a replica before a `Sync`: no later events tell it from a replica that
had never heard of the client before the same `Sync`, if and only if the client is clean. -/
theorem restart_iff (config : Configuration) (replicaIdx : Nat) (options : Options)
    (history : List Event) (remote : Address) (sync : SyncMessage) (recvNs : Nat) :
    (∀ before later : List Event, (∀ event ∈ before, event.clientId ≠ sync.clientId) →
      Indistinct sync.clientId
        ((({ config, replicaIdx, options } : Replica).underwent history).handleSync
          remote sync recvNs)
        ((({ config, replicaIdx, options } : Replica).underwent before).handleSync
          remote sync recvNs) later) ↔
      (({ config, replicaIdx, options } : Replica).underwent history).Clean sync.clientId := by
  have new := Timed.new config replicaIdx options
  have timed := timed_underwent new history
  have unarmedNew := gapTimer_new config replicaIdx options
  constructor
  · intro law
    have indistinct := fun later => law [] later fun event member => nomatch member
    have identityEq := (identity_underwent new history).symm
    have slots : ∀ slot, ((({ config, replicaIdx, options } : Replica).underwent history).entry
        sync.clientId slot).state = .empty := by
      intro slot
      have same := (indistinct []).states slot
      simp only [underwent, List.foldl_nil, entry, stream_handleSync] at same
      exact same
    have requests := requests_of_indistinct identityEq timed new rfl slots indistinct
    have timer := timer_of_indistinct timed
      (fun plain => idle_underwent new history
        (by rwa [options_congr (identity_underwent new history)] at plain) unarmedNew _)
      rfl (unarmedNew _) slots requests indistinct
    exact ⟨slots, timer, requests⟩
  · intro clean before later others
    have untouched := untouched_underwent new others
    have identityEq := (identity_underwent new before).trans (identity_underwent new history).symm
    have lockstep := lockstep_handleSync identityEq timed (timed_underwent new before) clean
      untouched.stream (untouched.timer.trans (unarmedNew _)) remote recvNs
    exact lockstep.indistinct later

/-- Client 1 synchronises with replica 0 of three and sends its first message. -/
def firstStream : List Event :=
  [.message (.client 1) (.sync { clientId := 1, sendTimeNs := 0, intervalMs := 10, startDelayMs := 1 }) fun _ => 0,
    .message (.client 1)
      (.data { clientId := 1, seqNum := 1, appReqId := 1, sendTimeNs := 0, payload := "a" })
      fun _ => 1000000]

/-- Client 1 starts anew, and its second message is the first to arrive. -/
def secondStream : List Event :=
  [.message (.client 1)
    (.data { clientId := 1, seqNum := 2, appReqId := 2, sendTimeNs := 0, payload := "b" })
    fun _ => 22000000]

/-- A slot of the first stream counts for the second: the frontier passes it though its message
has not arrived. -/
theorem distinct_secondStream :
    ¬ ∀ (config : Configuration) (replicaIdx : Nat) (options : Options)
      (history before later : List Event) (remote : Address) (sync : SyncMessage) (recvNs : Nat),
      (∀ event ∈ before, event.clientId ≠ sync.clientId) →
      Indistinct sync.clientId
        ((({ config, replicaIdx, options } : Replica).underwent history).handleSync
          remote sync recvNs)
        ((({ config, replicaIdx, options } : Replica).underwent before).handleSync
          remote sync recvNs) later := by
  intro law
  have same := law { n := 3, f := 1 } 0 { gapEnabled := true, dropMod := 0 } firstStream []
    secondStream (.client 1)
    { clientId := 1, sendTimeNs := 0, intervalMs := 10, startDelayMs := 1 } 10000000
    fun event member => nomatch member
  have frontier := same.frontier
  revert frontier
  decide

end Replica

end PaxosBus.Bus

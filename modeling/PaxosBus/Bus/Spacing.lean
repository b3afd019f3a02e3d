import PaxosBus.Bus.Lockstep

/-!
# How often a follower asks for a slot

A follower notes when it last asked the leader for a slot, and asks again only
after `gapRetryMs`. The note is dropped when the slot is recovered or becomes a
NoOp, and a slot that is filled is never empty again. So the requests for one slot
of one client are that far apart along every run, whatever messages arrive. The
period is computed in nanoseconds as a `uint64_t`: where the product wraps around,
the follower asks again too early.
-/

set_option autoImplicit false

namespace PaxosBus.Bus

open Std PaxosBus.Common

/-- The clock readings of an event, in the order in which they are taken. -/
def Event.clock : Event → Nat → Nat
  | .message _ _ clock => clock
  | .gapTimer _ clock => clock

/-- The clock does not go backwards, neither within an event nor from one event to a later one, and
fits `uint64_t`. -/
structure Chronological (events : List Event) : Prop where
  within : ∀ event ∈ events, Monotone event.clock
  bounded : ∀ event ∈ events, ∀ reading, event.clock reading < 2 ^ 64
  across : events.Pairwise fun earlier later =>
    ∀ reading reading', earlier.clock reading ≤ later.clock reading'

namespace Chronological

variable {event : Event} {events : List Event}

/-- What comes later is chronological by itself. -/
theorem tail (chronological : Chronological (event :: events)) : Chronological events where
  within other member := chronological.within other (List.mem_cons_of_mem _ member)
  bounded other member := chronological.bounded other (List.mem_cons_of_mem _ member)
  across := (List.pairwise_cons.mp chronological.across).2

/-- There is a time between the first event and the later ones. -/
theorem between (chronological : Chronological (event :: events)) :
    ∃ until_, (∀ reading, event.clock reading ≤ until_) ∧
      ∀ later ∈ events, ∀ reading, until_ ≤ later.clock reading := by
  have across := (List.pairwise_cons.mp chronological.across).1
  cases events with
  | nil =>
      refine ⟨2 ^ 64, ?_, fun _ member => absurd member List.not_mem_nil⟩
      intro reading
      exact (chronological.bounded event List.mem_cons_self reading).le
  | cons next rest =>
      refine ⟨next.clock 0, fun reading => across next List.mem_cons_self reading 0, ?_⟩
      intro later member reading
      rcases List.mem_cons.mp member with rfl | inRest
      · exact chronological.tail.within later List.mem_cons_self (Nat.zero_le reading)
      · exact (List.pairwise_cons.mp chronological.tail.across).1 later inRest 0 reading

end Chronological

/-- A gap request: what it asks for and when it is sent. -/
structure Asking where
  client : Nat
  slot : Nat
  time : Nat
deriving DecidableEq, Repr

/-- The gap requests among what is sent. `SendGapRequest` reads the clock for each slot. -/
def askings (clock : Nat → Nat) (sends : List Send) : List Asking :=
  sends.filterMap fun send =>
    match send.msg with
    | .gapRequest msg => some { client := msg.clientId, slot := msg.seqNum, time := clock msg.seqNum }
    | _ => none

/-- What is asked for in two lists of sends is asked for in one after the other. -/
theorem askings_append (clock : Nat → Nat) (sends later : List Send) :
    askings clock (sends ++ later) = askings clock sends ++ askings clock later :=
  List.filterMap_append ..

namespace Replica

/-- The gap requests that a replica sends along a sequence of events, in order. -/
def askedAlong : Replica → List Event → List Asking
  | _, [] => []
  | r, event :: events =>
    askings event.clock (r.undergo event).2 ++ askedAlong (r.undergo event).1 events

end Replica

/-- The requests are for one slot of one client. -/
def Asking.SameSlot (earlier later : Asking) : Prop :=
  earlier.client = later.client ∧ earlier.slot = later.slot

/-- Requests for one slot are at least the computed period apart. -/
def Apart (options : Options) (log : List Asking) : Prop :=
  log.Pairwise fun earlier later =>
    earlier.SameSlot later → earlier.time + options.gapRetryNs ≤ later.time

/-! ## What keeps the notes -/

namespace ClientStream

variable {s s' : ClientStream}

/-- What is filled stays filled, and the note about a slot that is still empty stays. -/
structure Keeps (s s' : ClientStream) : Prop where
  filled : ∀ slot, s.filled slot = true → s'.filled slot = true
  noted : ∀ slot, s'.filled slot = false → s'.gapLastReqNs[slot]? = s.gapLastReqNs[slot]?

/-- A stream that fills slots and leaves the notes alone. -/
theorem Keeps.of_notes (filled : ∀ slot, s.filled slot = true → s'.filled slot = true)
    (same : s'.gapLastReqNs = s.gapLastReqNs) : s.Keeps s' where
  filled := filled
  noted slot _ := by rw [same]

theorem Keeps.refl (s : ClientStream) : s.Keeps s := .of_notes (fun _ filled => filled) rfl

/-- The id of the gap timer does not matter. -/
theorem Keeps.of_untimed {t : ClientStream} (keeps : s.Keeps t) (same : s'.untimed = t.untimed) :
    s.Keeps s' := by
  have log : s'.log = t.log := congrArg (fun s => s.log) same
  have notes : s'.gapLastReqNs = t.gapLastReqNs := congrArg (fun s => s.gapLastReqNs) same
  constructor
  · intro slot filled
    rw [filled_congr log]
    exact keeps.filled slot filled
  · intro slot missing
    rw [filled_congr log] at missing
    rw [notes]
    exact keeps.noted slot missing

/-- A note may be dropped when its slot is filled. -/
theorem Keeps.dropRequest (keeps : s.Keeps s') {seq : Nat} (full : s'.filled seq = true) :
    s.Keeps (s'.dropRequest seq).advance where
  filled := keeps.filled
  noted := by
    intro slot missing
    have other : seq ≠ slot := by
      rintro rfl
      exact absurd full (by rw [show s'.filled seq = false from missing]; simp)
    have kept : (s'.dropRequest seq).advance.gapLastReqNs[slot]? = s'.gapLastReqNs[slot]? := by
      simp [advance, ClientStream.dropRequest, TreeMap.getElem?_erase, other]
    rw [kept]
    exact keeps.noted slot missing

/-- Data recorded in a slot fills it. -/
theorem filled_record (s : ClientStream) (seq : Nat) (payload : String) (sendTimeNs now : Nat) :
    (s.record seq payload sendTimeNs now).filled seq = true := by
  unfold record
  split
  next noop =>
      apply filled_eq_true.mpr
      rw [noop]
      exact nofun
  next =>
      apply filled_eq_true.mpr
      rw [entry_setEntry, if_pos rfl]
      exact nofun

/-- A gap reply fills its slot, so its note may go. -/
theorem keeps_takeReply (s : ClientStream) (msg : GapReplyMessage) (now : Nat) :
    s.Keeps (s.takeReply msg now) := by
  unfold takeReply
  split
  next =>
      have recorded : s.Keeps (s.record msg.seqNum msg.payload msg.sendTimeNs now) :=
        .of_notes (s.fills_record _ _ _ _).kept (s.gapLastReqNs_record _ _ _ _)
      exact recorded.dropRequest (s.filled_record _ _ _ _)
  next => exact .refl s

/-- A commit fills its slot, so its note may go. -/
theorem keeps_takeCommit (s : ClientStream) (seq : Nat) : s.Keeps (s.takeCommit seq) := by
  have full : ({ s.entry seq with state := .noop } : LogEntry).state ≠ .empty := nofun
  have written : s.Keeps (s.setEntry seq { s.entry seq with state := .noop }) :=
    .of_notes (s.fills_setEntry seq full).kept rfl
  apply written.dropRequest
  apply filled_eq_true.mpr
  rw [entry_setEntry, if_pos rfl]
  exact full

end ClientStream

namespace Replica

variable {r r' : Replica} {log : List Asking} {now now' : Nat}

/-- Receiving a message keeps the notes about slots that stay empty. -/
theorem keeps_takes (r : Replica) (msg : Message) (clock : Nat → Nat) (s : ClientStream) :
    s.Keeps (r.takes msg clock s) := by
  unfold takes
  cases msg with
  | sync msg => exact .of_notes (fun _ filled => filled) rfl
  | data msg =>
      dsimp only
      split
      next =>
          exact .of_notes (s.advances_takeData _ _ _ _).kept (s.gapLastReqNs_takeData _ _ _ _)
      next => exact .refl s
  | dataReply msg => exact .refl s
  | gapRequest msg => exact .refl s
  | gapReply msg => exact s.keeps_takeReply msg _
  | gapCommit msg => exact s.keeps_takeCommit msg.seqNum
  | gapCommitReply msg =>
      dsimp only
      split
      next => exact .of_notes (s.advances_takeAck _ _).kept (s.gapLastReqNs_takeAck _ _)
      next => exact .refl s

/-- No message makes a replica send a gap request. -/
theorem askings_receiveMessage (r : Replica) (remote : Address) (msg : Message)
    (clock : Nat → Nat) : askings clock (r.receiveMessage remote msg clock).2 = [] := by
  have replies : ∀ (r : Replica) (clientId seq : Nat),
      askings clock (r.replyToClient clientId seq) = [] := by
    intro r clientId seq
    unfold replyToClient
    split <;> rfl
  unfold receiveMessage
  cases msg with
  | sync msg => rfl
  | data msg =>
      dsimp only
      unfold handleData
      split
      next => rfl
      next =>
          dsimp only
          split
          · rfl
          · split
            · exact replies _ _ _
            · exact replies _ _ _
  | dataReply msg => rfl
  | gapRequest msg =>
      dsimp only
      unfold handleGapRequest
      split
      next =>
          dsimp only
          split <;> rfl
      next => rfl
  | gapReply msg =>
      dsimp only
      unfold handleGapReply
      split
      next =>
          dsimp only
          split
          · rfl
          · exact replies _ _ _
      next => rfl
  | gapCommit msg => rfl
  | gapCommitReply msg => rfl

/-- A request fills no slot. -/
theorem filled_noteRequest (r : Replica) (clientId slot time client other : Nat) :
    ((r.setStream clientId ((r.stream clientId).noteRequest slot time)).stream client).filled other =
      (r.stream client).filled other := by
  rw [stream_setStream]
  split
  next same =>
      subst same
      rfl
  next => rfl

/-- A request is noted for its slot, and the other notes are as they were. -/
theorem noted_noteRequest (r : Replica) (clientId slot time client other : Nat) :
    ((r.setStream clientId ((r.stream clientId).noteRequest slot time)).stream
        client).gapLastReqNs[other]? =
      if clientId = client ∧ slot = other then some time
      else (r.stream client).gapLastReqNs[other]? := by
  rw [stream_setStream]
  by_cases same : clientId = client
  · subst same
    simp [ClientStream.noteRequest, TreeMap.getElem?_insert]
  · simp [same]

/-! ## The requests sent so far -/

/-- The requests sent so far are apart, and for each whose slot is still empty the replica has noted
a request that is no older. -/
structure Spaced (r : Replica) (log : List Asking) (now : Nat) : Prop where
  noted : ∀ asking ∈ log, (r.stream asking.client).filled asking.slot = false →
    ∃ last, (r.stream asking.client).gapLastReqNs[asking.slot]? = some last ∧
      asking.time ≤ last ∧ last ≤ now
  apart : Apart r.options log

namespace Spaced

/-- What keeps the notes keeps the requests apart. -/
theorem keep (spaced : r.Spaced log now) (same : r'.options = r.options) (order : now ≤ now')
    (keeps : ∀ client, (r.stream client).Keeps (r'.stream client)) : r'.Spaced log now' where
  noted := by
    intro asking member missing
    have missingBefore : (r.stream asking.client).filled asking.slot = false := by
      by_contra full
      have filled := (keeps asking.client).filled asking.slot (by simpa using full)
      rw [missing] at filled
      cases filled
    obtain ⟨last, noted, asked, past⟩ := spaced.noted asking member missingBefore
    refine ⟨last, ?_, asked, past.trans order⟩
    rw [(keeps asking.client).noted asking.slot missing, noted]
  apart := same ▸ spaced.apart

/-- A request may be sent and noted when the earlier ones for its slot are old enough. -/
theorem ask {clientId slot time : Nat} (spaced : r.Spaced log now) (order : now ≤ time)
    (old : ∀ asking ∈ log, asking.client = clientId → asking.slot = slot →
      asking.time + r.options.gapRetryNs ≤ time) :
    (r.setStream clientId ((r.stream clientId).noteRequest slot time)).Spaced
      (log ++ [{ client := clientId, slot := slot, time := time }]) time := by
  constructor
  · intro asking member missing
    rw [noted_noteRequest]
    rw [filled_noteRequest] at missing
    split
    next here =>
        refine ⟨time, rfl, ?_, le_rfl⟩
        rcases List.mem_append.mp member with before | new
        · have := old asking before here.1.symm here.2.symm
          omega
        · rw [List.mem_singleton.mp new]
    next elsewhere =>
        rcases List.mem_append.mp member with before | new
        · obtain ⟨last, noted, asked, past⟩ := spaced.noted asking before missing
          exact ⟨last, noted, asked, past.trans order⟩
        · rw [List.mem_singleton.mp new] at elsewhere
          exact absurd ⟨rfl, rfl⟩ elsewhere
  · apply List.pairwise_append.mpr
    refine ⟨spaced.apart, List.pairwise_singleton .., ?_⟩
    intro earlier member later new sameSlot
    rw [List.mem_singleton.mp new] at sameSlot ⊢
    exact old earlier member sameSlot.1 sameSlot.2

/-- A follower asks for an empty slot if it has not just done so. -/
theorem sendGapRequest {clock : Nat → Nat} {clientId slot : Nat} (spaced : r.Spaced log now)
    (missing : (r.stream clientId).filled slot = false) (order : now ≤ clock slot)
    (bounded : clock slot < 2 ^ 64) :
    (r.sendGapRequest clientId slot (clock slot)).1.Spaced
      (log ++ askings clock (r.sendGapRequest clientId slot (clock slot)).2) (clock slot) := by
  unfold Replica.sendGapRequest
  dsimp only
  split
  next =>
      have same : (r.setStream clientId (r.stream clientId)).Spaced log (clock slot) := by
        have options : (r.setStream clientId (r.stream clientId)).options = r.options := rfl
        apply spaced.keep options order
        intro client
        rw [stream_setStream_stream]
        exact .refl _
      rwa [← List.append_nil log] at same
  next stale =>
      apply spaced.ask order
      -- what was noted for this slot is old enough
      rintro asking member rfl rfl
      obtain ⟨last, noted, asked, past⟩ := spaced.noted asking member missing
      unfold ClientStream.recentlyRequested at stale
      rw [noted] at stale
      have elapsed : (clock asking.slot + 2 ^ 64 - last) % 2 ^ 64 = clock asking.slot - last := by
        rw [show clock asking.slot + 2 ^ 64 - last = clock asking.slot - last + 2 ^ 64 by omega,
          Nat.add_mod_right, Nat.mod_eq_of_lt (by omega)]
      simp only [elapsed, decide_eq_true_eq] at stale
      omega

/-- The gap scan of a follower asks for slots at the readings taken for them. -/
theorem scanGaps {clock : Nat → Nat} {clientId slot slots : Nat} (spaced : r.Spaced log now)
    (follows : r.amLeader = false) (monotone : Monotone clock)
    (bounded : ∀ reading, clock reading < 2 ^ 64) (order : now ≤ clock slot) (nowNs : Nat) :
    (r.scanGaps clientId nowNs clock slot slots).1.Spaced
      (log ++ askings clock (r.scanGaps clientId nowNs clock slot slots).2)
        (clock (slot + slots)) := by
  induction slots generalizing r log now slot with
  | zero =>
      rw [show (r.scanGaps clientId nowNs clock slot 0) = (r, []) from rfl]
      rw [show askings clock [] = [] from rfl, List.append_nil]
      exact spaced.keep rfl order fun _ => .refl _
  | succ slots inductionHypothesis =>
      have onward : clock slot ≤ clock (slot + 1) := monotone (Nat.le_succ slot)
      rw [show slot + (slots + 1) = slot + 1 + slots by omega]
      unfold Replica.scanGaps
      dsimp only
      split
      next => exact inductionHypothesis spaced follows (order.trans onward)
      next missing =>
          split
          next =>
              rw [show askings clock [] = [] from rfl, List.append_nil]
              exact spaced.keep rfl (order.trans (monotone (by omega))) fun _ => .refl _
          next =>
              have branch : r.resolveGap clientId slot (clock slot) =
                  r.sendGapRequest clientId slot (clock slot) := by
                unfold resolveGap
                rw [dif_neg (by simp [follows])]
              have identityEq := r.identity_resolveGap clientId slot (clock slot)
              have followsNext : (r.resolveGap clientId slot (clock slot)).1.amLeader = false :=
                (amLeader_congr identityEq).trans follows
              have asked := spaced.sendGapRequest (eq_false_of_ne_true missing) order (bounded slot)
              rw [← branch] at asked
              have later := inductionHypothesis asked followsNext onward
              rwa [List.append_assoc, ← askings_append] at later

/-- Moving the frontier changes neither slots nor notes. -/
theorem advanceContiguous {clientId time : Nat} (spaced : r.Spaced log now) (order : now ≤ now') :
    (r.advanceContiguous clientId time).Spaced log now' := by
  apply spaced.keep (options_congr (r.identity_advanceContiguous clientId time)) order
  intro client
  have advanced := r.untimed_advanceContiguous clientId client time
  split at advanced
  next same =>
      subst same
      have moved : (r.stream clientId).Keeps (r.stream clientId).advance :=
        .of_notes (fun _ filled => filled) rfl
      exact moved.of_untimed advanced
  next => exact (ClientStream.Keeps.refl _).of_untimed advanced

/-- The gap timer of a follower fires. -/
theorem onGapTimeout {clock : Nat → Nat} {clientId : Nat} (spaced : r.Spaced log now)
    (follows : r.amLeader = false) (monotone : Monotone clock)
    (bounded : ∀ reading, clock reading < 2 ^ 64) (order : now ≤ clock 0) {until_ : Nat}
    (ends : ∀ reading, clock reading ≤ until_) :
    ((r.expire (r.stream clientId).gapTimerId).onGapTimeout clientId clock).1.Spaced
      (log ++ askings clock
        ((r.expire (r.stream clientId).gapTimerId).onGapTimeout clientId clock).2) until_ := by
  have forgotten : (r.forgetTimer clientId).Spaced log now := by
    have options : (r.forgetTimer clientId).options = r.options := rfl
    apply spaced.keep options le_rfl
    intro client
    apply (ClientStream.Keeps.refl _).of_untimed
    rw [Timed.stream_forgetTimer]
    split
    next same =>
        subst same
        rfl
    next => rfl
  have scanned := @scanGaps _ _ _ _ clientId (r.stream clientId).nextExpected
    (max (r.stream clientId).maxSeqSeen (r.stream clientId).nextExpected + 1 -
      (r.stream clientId).nextExpected) forgotten follows monotone bounded
    (order.trans (monotone (Nat.zero_le _))) (clock 0)
  unfold Replica.onGapTimeout
  dsimp only
  exact scanned.advanceContiguous (ends _)

/-- An event keeps the requests apart. -/
theorem undergo (spaced : r.Spaced log now) (timed : r.Timed) (follows : r.amLeader = false)
    (event : Event) (monotone : Monotone event.clock)
    (bounded : ∀ reading, event.clock reading < 2 ^ 64) (order : now ≤ event.clock 0)
    {until_ : Nat} (ends : ∀ reading, event.clock reading ≤ until_) :
    (r.undergo event).1.Spaced (log ++ askings event.clock (r.undergo event).2) until_ := by
  have past : now ≤ until_ := order.trans (ends 0)
  cases event with
  | message remote msg clock =>
      have quiet : askings clock (r.undergo (.message remote msg clock)).2 = [] :=
        r.askings_receiveMessage remote msg clock
      simp only [Event.clock]
      rw [quiet, List.append_nil]
      have options := options_congr (r.identity_receiveMessage remote msg clock)
      apply spaced.keep options past
      intro client
      have taken := r.untimed_receiveMessage client remote msg clock
      split at taken
      next => exact (r.keeps_takes msg clock _).of_untimed taken
      next => exact (ClientStream.Keeps.refl _).of_untimed taken
  | gapTimer clientId clock =>
      simp only [Replica.undergo]
      split
      next =>
          rw [show askings _ [] = [] from rfl, List.append_nil]
          exact spaced.keep rfl past fun _ => .refl _
      next timer pending =>
          rw [timed.callback_gapTimer pending]
          exact spaced.onGapTimeout follows monotone bounded order ends

/-- Events keep the requests apart. -/
theorem underwent {events : List Event} (spaced : r.Spaced log now) (timed : r.Timed)
    (follows : r.amLeader = false) (chronological : Chronological events)
    (order : ∀ event ∈ events, ∀ reading, now ≤ event.clock reading) :
    Apart r.options (log ++ r.askedAlong events) := by
  induction events generalizing r log now with
  | nil =>
      rw [show r.askedAlong [] = [] from rfl, List.append_nil]
      exact spaced.apart
  | cons event events inductionHypothesis =>
      obtain ⟨until_, ends, starts⟩ := chronological.between
      have next := spaced.undergo timed follows event
        (chronological.within event List.mem_cons_self)
        (chronological.bounded event List.mem_cons_self)
        (order event List.mem_cons_self 0) ends
      have identityEq := identity_undergo timed event
      have later := inductionHypothesis next (timed.undergo event)
        ((amLeader_congr identityEq).trans follows) chronological.tail starts
      rw [options_congr identityEq, List.append_assoc] at later
      exact later

end Spaced

/-- A follower asks for empty slots only. -/
theorem missing_of_asking {event : Event} {asking : Asking} (timed : r.Timed)
    (follows : r.amLeader = false) (member : asking ∈ askings event.clock (r.undergo event).2) :
    (r.entry asking.client asking.slot).state = .empty := by
  cases event with
  | message remote msg clock =>
      have quiet : askings clock (r.undergo (.message remote msg clock)).2 = [] :=
        r.askings_receiveMessage remote msg clock
      simp only [Event.clock] at member
      rw [quiet] at member
      exact absurd member List.not_mem_nil
  | gapTimer clientId clock =>
      simp only [Replica.undergo, Event.clock] at member
      split at member
      next => exact absurd member List.not_mem_nil
      next timer pending =>
          rw [timed.callback_gapTimer pending] at member
          obtain ⟨send, sent, asked⟩ := List.mem_filterMap.mp member
          have follower : (r.expire (r.stream clientId).gapTimerId).amLeader = false := follows
          rcases mem_onGapTimeout _ clientId sent with ⟨leads, -⟩ | ⟨-, seq, rfl⟩
          · rw [follower] at leads
            cases leads
          · obtain rfl := Option.some.inj asked
            have recovers : (r.expire (r.stream clientId).gapTimerId).Recovers clientId clock seq := by
              unfold Recovers
              rw [if_neg (by simp [follower])]
              exact ⟨_, sent, rfl⟩
            have overdue := ((recovers_iff _ clientId clock seq).mp recovers).2.2.1
            exact overdue.1

/-- A replica that is about to start. -/
theorem spaced_new (config : Configuration) (replicaIdx : Nat) (options : Options) :
    Spaced { config, replicaIdx, options } [] 0 where
  noted := nofun
  apart := List.Pairwise.nil

/-- Along every run of a follower, two gap requests for one slot of one client are at least
`gapRetryMs` apart if these are less than 2^64 nanoseconds, and none is sent for a slot that is
RECEIVED or NOOP. -/
theorem gapRequests_apart (config : Configuration) (replicaIdx : Nat) (options : Options)
    (follows : ({ config, replicaIdx, options } : Replica).amLeader = false)
    (events : List Event) (chronological : Chronological events) :
    (options.gapRetryMs * nsPerMs < 2 ^ 64 →
        (({ config, replicaIdx, options } : Replica).askedAlong events).Pairwise
          fun earlier later => earlier.client = later.client → earlier.slot = later.slot →
            earlier.time + options.gapRetryMs * nsPerMs ≤ later.time) ∧
      ∀ before event rest, events = before ++ event :: rest →
        ∀ asking ∈ askings event.clock
            ((({ config, replicaIdx, options } : Replica).underwent before).undergo event).2,
          ((({ config, replicaIdx, options } : Replica).underwent before).entry asking.client
            asking.slot).state = .empty := by
  have timed := Timed.new config replicaIdx options
  constructor
  · intro fits
    have period : options.gapRetryNs = options.gapRetryMs * nsPerMs := Nat.mod_eq_of_lt fits
    have apart := (spaced_new config replicaIdx options).underwent timed follows chronological
      fun _ _ _ => Nat.zero_le _
    apply List.Pairwise.imp _ apart
    intro earlier later spaced sameClient sameSlot
    rw [← period]
    exact spaced ⟨sameClient, sameSlot⟩
  · intro before event rest _ asking member
    have followsThen := (amLeader_congr (identity_underwent timed before)).trans follows
    exact missing_of_asking (timed_underwent timed before) followsThen member

/-- The first slot of a client is lost, and the gap timer fires three times before it is
recovered. -/
def losing : List Event :=
  [.message (.client 7) (.sync { clientId := 7, sendTimeNs := 0, intervalMs := 1, startDelayMs := 0 })
      fun _ => 0,
    .message (.client 7)
      (.data { clientId := 7, seqNum := 2, sendTimeNs := 0, payload := "b", appReqId := 1 })
      fun _ => nsPerMs,
    .gapTimer 7 fun _ => 20 * nsPerMs,
    .gapTimer 7 fun _ => 60 * nsPerMs,
    .gapTimer 7 fun _ => 130 * nsPerMs]

/-- The events of the run come one after the other. -/
theorem chronological_losing : Chronological losing where
  within event member := by
    simp only [losing, List.mem_cons, List.not_mem_nil, or_false] at member
    rcases member with rfl | rfl | rfl | rfl | rfl <;> exact monotone_const
  bounded event member := by
    simp only [losing, List.mem_cons, List.not_mem_nil, or_false] at member
    rcases member with rfl | rfl | rfl | rfl | rfl <;> simp [Event.clock, nsPerMs]
  across := by
    simp [losing, Event.clock, nsPerMs]

/-- The follower asks twice for the slot, the second time when 100 ms have passed. -/
theorem gapRequests_apart_losing :
    ({ config := { n := 3, f := 1 }, replicaIdx := 1
       options := { gapEnabled := true, dropMod := 0 } } : Replica).askedAlong losing =
        [{ client := 7, slot := 1, time := 20 * nsPerMs },
          { client := 7, slot := 1, time := 130 * nsPerMs }] ∧
      20 * nsPerMs + 100 * nsPerMs ≤ 130 * nsPerMs := by
  have sent : ({ config := { n := 3, f := 1 }, replicaIdx := 1
                 options := { gapEnabled := true, dropMod := 0 } } : Replica).askedAlong losing =
      [{ client := 7, slot := 1, time := 20 * nsPerMs },
        { client := 7, slot := 1, time := 130 * nsPerMs }] := by decide
  have apart := (gapRequests_apart { n := 3, f := 1 } 1 { gapEnabled := true, dropMod := 0 }
    (by decide) losing chronological_losing).1 (by decide)
  rw [sent] at apart
  refine ⟨sent, ?_⟩
  exact List.rel_of_pairwise_cons apart (List.mem_singleton_self _) rfl rfl

/-- With a retry period of 18446744073710 ms the product wraps around to less than half a
millisecond, and the follower asks at each gap timer. -/
theorem not_apart_losing :
    ¬ ∀ (config : Configuration) (replicaIdx : Nat) (options : Options) (events : List Event),
      ({ config, replicaIdx, options } : Replica).amLeader = false → Chronological events →
        (({ config, replicaIdx, options } : Replica).askedAlong events).Pairwise
          fun earlier later => earlier.client = later.client → earlier.slot = later.slot →
            earlier.time + options.gapRetryMs * nsPerMs ≤ later.time := by
  intro law
  have apart := law { n := 3, f := 1 } 1
    { gapEnabled := true, dropMod := 0, gapRetryMs := 18446744073710 } losing (by decide)
    chronological_losing
  have sent : ({ config := { n := 3, f := 1 }, replicaIdx := 1
                 options :=
                  { gapEnabled := true, dropMod := 0, gapRetryMs := 18446744073710 } } :
      Replica).askedAlong losing =
      [{ client := 7, slot := 1, time := 20 * nsPerMs },
        { client := 7, slot := 1, time := 60 * nsPerMs },
        { client := 7, slot := 1, time := 130 * nsPerMs }] := by decide
  rw [sent] at apart
  have early : 20 * nsPerMs + 18446744073710 * nsPerMs ≤ 60 * nsPerMs :=
    List.rel_of_pairwise_cons apart (List.mem_cons_self ..) rfl rfl
  exact absurd early (by decide)

end Replica

end PaxosBus.Bus

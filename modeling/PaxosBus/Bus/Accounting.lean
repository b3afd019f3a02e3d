import PaxosBus.Bus.System
import PaxosBus.Bus.Numbering
import PaxosBus.Library.Ledger

/-!
# Where each logical request of a client is

A logical request moves to a fresh slot on every resend and leaves the inflight
table when a quorum has replied, so it is always in one place: outstanding in one
slot, or counted. `Accounted` states it for the inflight table as a ledger and
adds that no outstanding slot lies above `seqNum`, which is why a send never
overwrites an attempt.

`Session` puts one client against an arbitrary environment: its handlers run in
any order, on any clock, with any reply. Every client of a deployment is the
client of some session.
-/

set_option autoImplicit false

namespace PaxosBus.Bus

open Std PaxosBus.Common PaxosBus.Library

namespace Client

/-- The books of a client that has counted the requests `counted`. -/
structure Accounted (c : Client) (counted : List Nat) : Prop where
  tallied : Tallied InflightEntry.appReqId c.inflight counted c.appReqId
  committed : counted.length = c.committedCount
  taken : ∀ {seq e}, c.inflight[seq]? = some e → seq ≤ c.seqNum

/-- The next slot is not outstanding. -/
theorem Accounted.next {c : Client} {counted : List Nat} (accounted : c.Accounted counted) :
    c.inflight[c.seqNum + 1]? = none := by
  cases found : c.inflight[c.seqNum + 1]? with
  | none => rfl
  | some e =>
      have := accounted.taken found
      omega

/-- A client that has sent nothing. -/
theorem Accounted.unsent {c : Client} (inflight : c.inflight = {}) (appReqId : c.appReqId = 0)
    (committedCount : c.committedCount = 0) : c.Accounted [] where
  tallied := by
    rw [inflight, appReqId]
    exact .empty _
  committed := by simp [committedCount]
  taken found := by simp [inflight] at found

/-- The books depend on the table and the three counters only. -/
theorem Accounted.congr {c c' : Client} {counted : List Nat} (accounted : c.Accounted counted)
    (inflight : c'.inflight = c.inflight) (seqNum : c'.seqNum = c.seqNum)
    (appReqId : c'.appReqId = c.appReqId) (committedCount : c'.committedCount = c.committedCount) :
    c'.Accounted counted := by
  obtain ⟨tallied, committed, taken⟩ := accounted
  constructor
  · rwa [inflight, appReqId]
  · rwa [committedCount]
  · rwa [inflight, seqNum]

/-- A round of the catch-up loop issues the next request in the next slot. -/
theorem accounted_sendRound {c : Client} {counted : List Nat} (accounted : c.Accounted counted)
    (sendNow : Nat) : (c.sendRound sendNow).1.Accounted counted where
  tallied := accounted.tallied.issue accounted.next rfl
  committed := accounted.committed
  taken := by
    intro seq e found
    change seq ≤ c.seqNum + 1
    simp only [sendRound, scheduleSend, sendData, TreeMap.getElem?_insert] at found
    split at found
    · rename_i same
      have : c.seqNum + 1 = seq := by simpa using same
      omega
    · exact (accounted.taken found).trans (Nat.le_succ _)

/-- The catch-up loop keeps the books. -/
theorem accounted_sendLoop {c c' : Client} {counted : List Nat} {readings : List Nat}
    {sends : List Send} {lastNow : Nat} (accounted : c.Accounted counted)
    (looped : c.sendLoop readings = some (c', sends, lastNow)) : c'.Accounted counted := by
  induction c, readings using sendLoop.induct generalizing c' sends lastNow with
  | case1 c => cases looped
  | case2 c now early =>
      simp only [sendLoop, early, if_true, Option.some.injEq, Prod.mk.injEq] at looped
      obtain ⟨rfl, -, -⟩ := looped
      exact accounted
  | case3 c now due => simp [sendLoop, due] at looped
  | case4 c now sendNow rest early => simp [sendLoop, early] at looped
  | case5 c now sendNow rest due stuck => simp [sendLoop, due, stuck] at looped
  | case6 c now sendNow rest due last later lastNow' completed inductionHypothesis =>
      simp only [sendLoop, due, if_false, completed, Option.some.injEq, Prod.mk.injEq] at looped
      obtain ⟨rfl, -, -⟩ := looped
      exact inductionHypothesis (accounted_sendRound accounted sendNow) completed

/-- A tick sends new requests, and counts no reply. -/
theorem accounted_sendTick {c c' : Client} {counted : List Nat} {readings : List Nat}
    {sends : List Send} (accounted : c.Accounted counted)
    (ticked : c.sendTick readings = some (c', sends)) : c'.Accounted counted := by
  unfold sendTick at ticked
  split at ticked
  · cases ticked
  · rename_i looped
    obtain ⟨rfl, -⟩ := Prod.mk.inj (Option.some.inj ticked)
    exact (accounted_sendLoop accounted looped).congr rfl rfl rfl rfl

/-- The first tick comes when the wait for the syncs is over. -/
theorem accounted_onSyncWaitDone {c c' : Client} {counted : List Nat} {now : Nat}
    {readings : List Nat} {sends : List Send} (accounted : c.Accounted counted)
    (waited : c.onSyncWaitDone now readings = some (c', sends)) : c'.Accounted counted := by
  have scheduled : { c with nextSendNs := now }.Accounted counted :=
    accounted.congr rfl rfl rfl rfl
  exact accounted_sendTick scheduled waited

/-- A resend moves its request to the next slot. -/
theorem accounted_onResendTimeout {c : Client} {counted : List Nat}
    (accounted : c.Accounted counted) (seq now : Nat) :
    (c.onResendTimeout seq now).1.Accounted counted := by
  unfold onResendTimeout
  split
  · exact accounted
  · rename_i e found
    have fresh : (c.inflight.erase seq)[c.seqNum + 1]? = none := by
      rw [TreeMap.getElem?_erase]
      split
      · rfl
      · exact accounted.next
    constructor
    · exact accounted.tallied.move found fresh rfl
    · exact accounted.committed
    · intro other e' kept
      change other ≤ c.seqNum + 1
      simp only [sendData, TreeMap.getElem?_insert, TreeMap.getElem?_erase] at kept
      split at kept
      · rename_i same
        have : c.seqNum + 1 = other := by simpa using same
        omega
      · split at kept
        · cases kept
        · exact (accounted.taken kept).trans (Nat.le_succ _)

/-- Every timer of a client keeps the books. -/
theorem accounted_fireTimer {c c' : Client} {counted : List Nat} {id : Nat}
    {readings : List Nat} {sends : List Send} (accounted : c.Accounted counted)
    (fired : c.fireTimer id readings = some (c', sends)) : c'.Accounted counted := by
  unfold fireTimer at fired
  split at fired
  · cases fired
  · have expired : { c with timers := c.timers.cancelTimer id }.Accounted counted :=
      accounted.congr rfl rfl rfl rfl
    dsimp only at fired
    split at fired
    · exact accounted_onSyncWaitDone expired fired
    · exact accounted_sendTick expired fired
    · obtain ⟨rfl, -⟩ := Prod.mk.inj (Option.some.inj fired)
      exact accounted_onResendTimeout expired _ _
    · cases fired

/-- The requests that a message makes the client count: the one in the slot it reports. -/
def counts (overshift : Nat → BitVec 32) (c : Client) (msg : Message) : List Nat :=
  ((c.receiveMessage overshift msg).2.bind fun seq =>
    c.inflight[seq]?.map InflightEntry.appReqId).toList

/-- A message changes one mark, or settles the request whose quorum it completes. -/
theorem accounted_receiveMessage {c : Client} {counted : List Nat}
    (accounted : c.Accounted counted) (overshift : Nat → BitVec 32) (msg : Message) :
    (c.receiveMessage overshift msg).1.Accounted (counted ++ c.counts overshift msg) := by
  cases msg with
  | dataReply reply =>
      simp only [counts, receiveMessage, handleDataReply]
      split
      · simpa using accounted
      · rename_i e found
        split
        · simpa using accounted
        · split
          · simp only [Option.bind_some, found, Option.map_some, Option.toList_some]
            constructor
            · exact accounted.tallied.settle found
            · simp [accounted.committed]
            · intro seq e' kept
              simp only [TreeMap.getElem?_erase] at kept
              split at kept
              · cases kept
              · exact accounted.taken kept
          · simp only [Option.bind_none, Option.toList_none, List.append_nil]
            constructor
            · exact accounted.tallied.amend found rfl
            · exact accounted.committed
            · intro seq e' kept
              simp only [TreeMap.getElem?_insert] at kept
              split at kept
              · rename_i same
                obtain rfl : reply.seqNum = seq := by simpa using same
                exact accounted.taken found
              · exact accounted.taken kept
  | sync | data | gapRequest | gapReply | gapCommit | gapCommitReply =>
      simpa [counts, receiveMessage] using accounted

/-! ## One message for each replica and slot -/

/-- Two messages that use one slot are the copies of one attempt for two replicas. -/
def OneAttempt (first second : Send) : Prop :=
  ∀ data data', first.msg = .data data → second.msg = .data data' →
    data.seqNum = data'.seqNum → data = data' ∧ first.dst ≠ second.dst

/-- What is sent to all replicas is one message for each. -/
theorem oneAttempt_sendToReplicas (config : Configuration) (msg : Message) :
    (sendToReplicas config msg).Pairwise OneAttempt := by
  apply List.Pairwise.map
  swap
  · exact List.nodup_range
  · intro idx idx' different data data' isData isData' _
    have same : Message.data data = .data data' := isData.symm.trans isData'
    exact ⟨Message.data.inj same, fun equal => different (Address.replica.inj equal)⟩

/-- The sends of consecutive parts of a handler do not share a slot. -/
theorem oneAttempt_append {first middle last : Client} {before after : List Send}
    (left : before.Pairwise OneAttempt) (right : after.Pairwise OneAttempt)
    (leftNumbered : Numbered first middle before) (rightNumbered : Numbered middle last after) :
    (before ++ after).Pairwise OneAttempt := by
  refine List.pairwise_append.mpr ⟨left, right, fun send sent send' sent' => ?_⟩
  intro data data' isData isData' sameSlot
  exfalso
  rcases leftNumbered.fresh send sent with ⟨sync, isSync⟩ | ⟨_, same, -, -, high⟩
  · simp [isData] at isSync
  · rcases rightNumbered.fresh send' sent' with ⟨sync, isSync⟩ | ⟨_, same', -, low, -⟩
    · simp [isData'] at isSync
    · rw [isData, Message.data.injEq] at same
      rw [isData', Message.data.injEq] at same'
      subst same same'
      omega

/-- The rounds of the loop send one request each. -/
theorem oneAttempt_sendLoop {c c' : Client} {readings : List Nat} {sends : List Send}
    {lastNow : Nat} (looped : c.sendLoop readings = some (c', sends, lastNow)) :
    sends.Pairwise OneAttempt := by
  induction c, readings using sendLoop.induct generalizing c' sends lastNow with
  | case1 c => cases looped
  | case2 c now early =>
      simp only [sendLoop, early, if_true, Option.some.injEq, Prod.mk.injEq] at looped
      obtain ⟨-, rfl, -⟩ := looped
      exact .nil
  | case3 c now due => simp [sendLoop, due] at looped
  | case4 c now sendNow rest early => simp [sendLoop, early] at looped
  | case5 c now sendNow rest due stuck => simp [sendLoop, due, stuck] at looped
  | case6 c now sendNow rest due last later lastNow' completed inductionHypothesis =>
      simp only [sendLoop, due, if_false, completed, Option.some.injEq, Prod.mk.injEq] at looped
      obtain ⟨-, rfl, -⟩ := looped
      exact oneAttempt_append (oneAttempt_sendToReplicas _ _) (inductionHypothesis completed)
        (c.numbered_sendRound sendNow) (numbered_sendLoop completed)

/-- A tick sends every request once to each replica. -/
theorem oneAttempt_sendTick {c c' : Client} {readings : List Nat} {sends : List Send}
    (ticked : c.sendTick readings = some (c', sends)) : sends.Pairwise OneAttempt := by
  unfold sendTick at ticked
  split at ticked
  · cases ticked
  · rename_i looped
    obtain ⟨-, rfl⟩ := Prod.mk.inj (Option.some.inj ticked)
    exact oneAttempt_sendLoop looped

/-- A request that is sent again goes to every replica once. -/
theorem oneAttempt_onResendTimeout (c : Client) (seq now : Nat) :
    (c.onResendTimeout seq now).2.Pairwise OneAttempt := by
  unfold onResendTimeout
  split
  · exact .nil
  · exact oneAttempt_sendToReplicas _ _

/-- Whatever timer fires, no replica gets a request twice at once. -/
theorem oneAttempt_fireTimer {c c' : Client} {id : Nat} {readings : List Nat}
    {sends : List Send} (fired : c.fireTimer id readings = some (c', sends)) :
    sends.Pairwise OneAttempt := by
  unfold fireTimer at fired
  split at fired
  · cases fired
  · dsimp only at fired
    split at fired
    · exact oneAttempt_sendTick fired
    · exact oneAttempt_sendTick fired
    · obtain ⟨-, rfl⟩ := Prod.mk.inj (Option.some.inj fired)
      exact oneAttempt_onResendTimeout _ _ _
    · cases fired

end Client

/-! ## One client against any environment -/

/-- What a session is set up with. -/
structure Enrollment where
  config : Configuration
  clientId : Nat
  intervalMs : Nat
  resendMs : Nat
  overshift : Nat → BitVec 32

/-- A client, the `appReqId`s it has counted as committed, oldest first, and everything it has
sent. -/
structure Session where
  client : Client
  counted : List Nat := []
  sent : List Send := []

/-- What the environment can make a client do. The handlers may also be called without the
timer that belongs to them, as late timers do for slots that are gone. -/
inductive SessionAction where
  | start (now : Nat)
  | fire (id : Nat) (readings : List Nat)
  | sendTick (readings : List Nat)
  | resendTimeout (seq : Nat) (now : Nat)
  | receive (msg : Message)

namespace Session

/-- A client that has just been constructed. -/
def fresh (e : Enrollment) : Session where
  client :=
    { config := e.config, clientId := e.clientId, intervalMs := e.intervalMs,
      resendMs := e.resendMs }

/-- The client moves on and sends. -/
def advance (s : Session) (moved : Client × List Send) : Session :=
  { s with client := moved.1, sent := s.sent ++ moved.2 }

/-- One call of a handler. -/
def step (e : Enrollment) (s : Session) : SessionAction → Option Session
  | .start now => some (s.advance (s.client.start now))
  | .fire id readings => (s.client.fireTimer id readings).map s.advance
  | .sendTick readings => (s.client.sendTick readings).map s.advance
  | .resendTimeout seq now => some (s.advance (s.client.onResendTimeout seq now))
  | .receive msg =>
    some { s with
      client := (s.client.receiveMessage e.overshift msg).1
      counted := s.counted ++ s.client.counts e.overshift msg }

/-- The slots in which a request is outstanding. -/
def HoldsAt (s : Session) (seq appReqId : Nat) : Prop :=
  ∃ e, s.client.inflight[seq]? = some e ∧ e.appReqId = appReqId

/-- The books are right, every slot in use has been taken, and no slot is used twice. -/
structure Balanced (s : Session) : Prop where
  accounted : s.client.Accounted s.counted
  used : ∀ send ∈ s.sent, ∀ data, send.msg = .data data → data.seqNum ≤ s.client.seqNum
  single : s.sent.Pairwise Client.OneAttempt

/-- A handler that keeps the books and takes fresh slots keeps a session balanced. -/
theorem Balanced.advance {s : Session} (balanced : s.Balanced) {c : Client} {sends : List Send}
    (accounted : c.Accounted s.counted) (numbered : Client.Numbered s.client c sends)
    (single : sends.Pairwise Client.OneAttempt) : (s.advance (c, sends)).Balanced where
  accounted := accounted
  used send sent data isData := by
    rcases List.mem_append.mp sent with early | late
    · exact (balanced.used send early data isData).trans numbered.grows
    · rcases numbered.fresh send late with ⟨sync, isSync⟩ | ⟨data', isData', -, -, high⟩
      · simp [isData] at isSync
      · rw [isData, Message.data.injEq] at isData'
        subst isData'
        exact high
  single := by
    refine List.pairwise_append.mpr ⟨balanced.single, single, fun send sent send' sent' => ?_⟩
    intro data data' isData isData' sameSlot
    exfalso
    have high := balanced.used send sent data isData
    rcases numbered.fresh send' sent' with ⟨sync, isSync⟩ | ⟨_, same, -, low, -⟩
    · simp [isData'] at isSync
    · rw [isData', Message.data.injEq] at same
      subst same
      omega

end Session

/-- One client as a transition system. -/
def sessionSystem (e : Enrollment) : TransitionSystem Session SessionAction where
  Initial s := s = .fresh e
  step := Session.step e

namespace Session

/-- Every call of a handler keeps a session balanced. -/
theorem invariant_balanced (e : Enrollment) :
    (sessionSystem e).Invariant TransitionSystem.unguarded Balanced where
  initial s valid := by
    subst valid
    exact ⟨.unsent rfl rfl rfl, by simp [fresh], .nil⟩
  preserved {s action next} balanced _ transition := by
    cases action with
    | start now =>
        obtain rfl := Option.some.inj transition
        exact balanced.advance (balanced.accounted.congr rfl rfl rfl rfl)
          (s.client.numbered_start now) (Client.oneAttempt_sendToReplicas _ _)
    | fire id readings =>
        obtain ⟨⟨c, sends⟩, fired, rfl⟩ := Option.map_eq_some_iff.mp transition
        exact balanced.advance (Client.accounted_fireTimer balanced.accounted fired)
          (Client.numbered_fireTimer fired) (Client.oneAttempt_fireTimer fired)
    | sendTick readings =>
        obtain ⟨⟨c, sends⟩, ticked, rfl⟩ := Option.map_eq_some_iff.mp transition
        exact balanced.advance (Client.accounted_sendTick balanced.accounted ticked)
          (Client.numbered_sendTick ticked) (Client.oneAttempt_sendTick ticked)
    | resendTimeout seq now =>
        obtain rfl := Option.some.inj transition
        exact balanced.advance (Client.accounted_onResendTimeout balanced.accounted seq now)
          (s.client.numbered_onResendTimeout seq now) (s.client.oneAttempt_onResendTimeout seq now)
    | receive msg =>
        obtain rfl := Option.some.inj transition
        obtain ⟨-, number⟩ := s.client.numbering_receiveMessage e.overshift msg
        constructor
        · exact Client.accounted_receiveMessage balanced.accounted e.overshift msg
        · intro send sent data isData
          exact (balanced.used send sent data isData).trans number.ge
        · exact balanced.single

/-- The accounts of a client: the counted and the outstanding requests add up to `appReqId`,
different slots hold different requests, every request is outstanding in exactly one slot and
not counted or counted exactly once and not outstanding, and any two data messages with one
sequence number are copies of one attempt. -/
structure Accounts (s : Session) : Prop where
  total : s.client.committedCount + s.client.inflight.size = s.client.appReqId
  tally : s.counted.length = s.client.committedCount
  distinct : ∀ seq seq' appReqId, s.HoldsAt seq appReqId → s.HoldsAt seq' appReqId → seq = seq'
  once : ∀ appReqId, 1 ≤ appReqId → appReqId ≤ s.client.appReqId →
    ((∃! seq, s.HoldsAt seq appReqId) ∧ s.counted.count appReqId = 0) ∨
      ((¬ ∃ seq, s.HoldsAt seq appReqId) ∧ s.counted.count appReqId = 1)
  single : s.sent.Pairwise Client.OneAttempt

/-- The accounts are right in every state a client can get into. -/
theorem accounts_of_reachable (e : Enrollment) (s : Session)
    (reachable : (sessionSystem e).Reachable TransitionSystem.unguarded s) : s.Accounts := by
  obtain ⟨⟨tallied, committed, -⟩, -, single⟩ :=
    (invariant_balanced e).of_reachable reachable
  have distinct : ∀ seq seq' appReqId, s.HoldsAt seq appReqId → s.HoldsAt seq' appReqId →
      seq = seq' := by
    rintro seq seq' appReqId ⟨entry, found, rfl⟩ ⟨entry', found', same⟩
    exact tallied.distinct found found' same.symm
  constructor
  · exact committed ▸ tallied.total
  · exact committed
  · exact distinct
  · intro appReqId positive bounded
    rcases tallied.exactly_once positive bounded with ⟨⟨seq, held⟩, once⟩ | ⟨gone, once⟩
    · exact .inl ⟨⟨seq, held, fun seq' held' => distinct seq' seq appReqId held' held⟩, once⟩
    · exact .inr ⟨gone, once⟩
  · exact single

/-- Client 7 of three replicas, 10 ms between requests and 15 ms until a resend. -/
def enrolled : Enrollment where
  config := { n := 3, f := 1 }
  clientId := 7
  intervalMs := 10
  resendMs := 15
  overshift _ := 0

/-- Requests 1 and 2 go out in slots 1 and 2, request 1 moves to slot 3, and two replies for
slot 2 follow a late one for slot 1. -/
def resentRun : List SessionAction :=
  [.start 0, .fire 1 [5000000000, 5000000000, 5000000000, 5000000001],
    .fire 3 [5010000000, 5010000000, 5010000001], .fire 2 [5015000000]] ++
  [(1, 0), (2, 0), (2, 0), (2, 1), (2, 2)].map fun (seq, idx) =>
    .receive (.dataReply { clientId := 7, seqNum := seq, viewId := 0, logSlotNum := seq,
                           replicaIdx := idx })

set_option maxRecDepth 10000 in
/-- The resent run counts request 2 while request 1 waits in slot 3. -/
theorem accounts_resentRun : ∃ s : Session,
    s.counted = [2] ∧ s.client.inflight.keys = [3] ∧ s.Accounts := by
  obtain ⟨s, reachable, resent⟩ :=
    (sessionSystem enrolled).exists_reachable_of_run TransitionSystem.unguarded
      (fun s => decide (s.counted = [2] ∧ s.client.inflight.keys = [3])) resentRun rfl
      (by decide)
  obtain ⟨counted, keys⟩ := of_decide_eq_true resent
  exact ⟨s, counted, keys, accounts_of_reachable enrolled s reachable⟩

/-! ## The clients of a deployment -/

/-- The session that one client of a deployment takes part in. -/
def enrollment (d : Deployment) (clientId : Nat) : Enrollment where
  config := d.config
  clientId
  intervalMs := d.intervalMs clientId
  resendMs := d.resendMs clientId
  overshift := d.overshift

/-- A client of a deployment is where some session of that client has got to. -/
def Follows (d : Deployment) (clientId : Nat) (s : System) : Prop :=
  ∃ session, (sessionSystem (enrollment d clientId)).Reachable TransitionSystem.unguarded session ∧
    session.client = s.clients clientId

/-- A session that has got to a client's state can take the client's next step. -/
theorem Follows.step {d : Deployment} {clientId : Nat} {s : System}
    (follows : Follows d clientId s) (action : SessionAction) {c : Client} {s' : System}
    (called : ∀ session : Session, session.client = s.clients clientId →
      ∃ next, session.step (enrollment d clientId) action = some next ∧ next.client = c)
    (stored : s'.clients clientId = c) : Follows d clientId s' := by
  obtain ⟨session, reachable, same⟩ := follows
  obtain ⟨next, stepped, moved⟩ := called session same
  exact ⟨next, reachable.steps (.step .refl trivial stepped), moved.trans stored.symm⟩

/-- Every client of a deployment follows a session. -/
theorem invariant_follows (d : Deployment) (clientId : Nat) :
    (system d).Invariant TransitionSystem.unguarded (Follows d clientId) where
  initial s valid := by
    subst valid
    exact ⟨.fresh (enrollment d clientId), .initial rfl, rfl⟩
  preserved {s action next} follows _ transition := by
    cases action with
    | start other now =>
        simp only [system, System.step] at transition
        split at transition
        · cases transition
        · obtain rfl := Option.some.inj transition
          by_cases mine : clientId = other
          · subst mine
            refine follows.step (.start now) (fun session same => ⟨_, rfl, ?_⟩)
              (Function.update_self ..)
            simp [advance, same]
          · obtain ⟨session, reachable, same⟩ := follows
            exact ⟨session, reachable, by simp [System.updateClient, mine, same]⟩
    | clientTimer other id readings =>
        simp only [system, System.step] at transition
        split at transition
        · cases transition
        · rename_i c sends fired
          obtain rfl := Option.some.inj transition
          by_cases mine : clientId = other
          · subst mine
            refine follows.step (.fire id readings)
              (fun session same => ⟨session.advance (c, sends), ?_, rfl⟩)
              (Function.update_self ..)
            simp [step, same, fired]
          · obtain ⟨session, reachable, same⟩ := follows
            exact ⟨session, reachable, by simp [System.updateClient, mine, same]⟩
    | replicaTimer idx id clock =>
        simp only [system, System.step, System.fireReplicaTimer] at transition
        split at transition
        · cases transition
        · obtain rfl := Option.some.inj transition
          exact follows
    | deliver position clock =>
        simp only [system, System.step] at transition
        split at transition
        · cases transition
        · rename_i packet _
          obtain rfl := Option.some.inj transition
          unfold System.receive
          split
          · exact follows
          · rename_i other _
            by_cases mine : clientId = other
            · subst mine
              refine follows.step (.receive packet.msg) (fun session same => ⟨_, rfl, ?_⟩)
                (Function.update_self ..)
              simp [same, enrollment]
            · obtain ⟨session, reachable, same⟩ := follows
              exact ⟨session, reachable, by simp [mine, same]⟩

/-- In every reachable state of a deployment, the counted and the outstanding requests of each
client add up to its `appReqId`, and no request is outstanding in two slots. -/
theorem accounts_of_client (d : Deployment) (clientId : Nat) {s : System}
    (reachable : (system d).Reachable TransitionSystem.unguarded s) :
    (s.clients clientId).committedCount + (s.clients clientId).inflight.size =
        (s.clients clientId).appReqId ∧
      ∀ (seq seq' : Nat) (e e' : InflightEntry), (s.clients clientId).inflight[seq]? = some e →
        (s.clients clientId).inflight[seq']? = some e' → e.appReqId = e'.appReqId →
        seq = seq' := by
  obtain ⟨session, sessionReachable, same⟩ :=
    (invariant_follows d clientId).of_reachable reachable
  obtain ⟨total, -, distinct, -, -⟩ := accounts_of_reachable _ session sessionReachable
  rw [same] at total
  refine ⟨total, fun seq seq' e e' found found' sameRequest => ?_⟩
  exact distinct seq seq' e.appReqId ⟨e, same ▸ found, rfl⟩ ⟨e', same ▸ found', sameRequest.symm⟩

end Session

end PaxosBus.Bus

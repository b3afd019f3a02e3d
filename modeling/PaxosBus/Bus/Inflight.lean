import PaxosBus.Bus.Client
import Mathlib.Tactic.Common

/-!
# What each client handler does to the inflight table

The timers only add attempts that no replica has answered, each together with
the data message it stands for. A reply marks its replica in one attempt, and
removes the attempt exactly when it reports the slot as committed.
-/

set_option autoImplicit false

namespace PaxosBus.Bus

open Std PaxosBus.Common

namespace Client

/-- What a client is, as opposed to what it has sent and heard. -/
def identity (c : Client) : Configuration × Nat := (c.config, c.clientId)

/-- A data message of this client for one slot. -/
def DataFor (clientId seq : Nat) (msg : Message) : Prop :=
  ∃ data, msg = .data data ∧ data.clientId = clientId ∧ data.seqNum = seq ∧
    data.payload = payload

/-- The effect of a timer: every message is a data message to a replica, and an attempt is
either an old one or unanswered and accompanied by its data message. -/
structure Attempts (c c' : Client) (sends : List Send) : Prop where
  same : c'.identity = c.identity
  posted : ∀ send ∈ sends, ∃ idx seq, send.dst = .replica idx ∧ DataFor c.clientId seq send.msg
  added : ∀ {seq e}, c'.inflight[seq]? = some e → c.inflight[seq]? = some e ∨
    e.replicaMask = 0 ∧ (0 < c.config.n → ∃ send ∈ sends, DataFor c.clientId seq send.msg)

/-- Sending nothing and adding nothing. -/
theorem Attempts.of_inflight {c c' : Client} (same : c'.identity = c.identity)
    (inflight : c'.inflight = c.inflight) : Attempts c c' [] where
  same := same
  posted := by simp
  added := fun found => .inl (inflight ▸ found)

/-- The effects of two consecutive parts of a handler compose. -/
theorem Attempts.trans {first middle last : Client} {before after : List Send}
    (left : Attempts first middle before) (right : Attempts middle last after) :
    Attempts first last (before ++ after) := by
  have sameId : middle.clientId = first.clientId := congrArg Prod.snd left.same
  have sameConfig : middle.config = first.config := congrArg Prod.fst left.same
  constructor
  · exact right.same.trans left.same
  · intro send sent
    rcases List.mem_append.mp sent with early | late
    · exact left.posted send early
    · exact sameId ▸ right.posted send late
  · intro seq e found
    rcases right.added found with older | ⟨fresh, posted⟩
    · rcases left.added older with oldest | ⟨fresh, posted⟩
      · exact .inl oldest
      · refine .inr ⟨fresh, fun nonempty => ?_⟩
        obtain ⟨send, sent, data⟩ := posted nonempty
        exact ⟨send, List.mem_append_left _ sent, data⟩
    · refine .inr ⟨fresh, fun nonempty => ?_⟩
      obtain ⟨send, sent, data⟩ := posted (sameConfig ▸ nonempty)
      exact ⟨send, List.mem_append_right _ sent, sameId ▸ data⟩

/-- Only the inflight table and the identity of the final client matter. -/
theorem Attempts.congr_right {c c₁ c₂ : Client} {sends : List Send}
    (attempts : Attempts c c₁ sends) (same : c₂.identity = c₁.identity)
    (inflight : c₂.inflight = c₁.inflight) : Attempts c c₂ sends := by
  simpa using attempts.trans (.of_inflight same inflight)

/-- Only the inflight table and the identity of the initial client matter. -/
theorem Attempts.congr_left {c₁ c₂ c' : Client} {sends : List Send}
    (attempts : Attempts c₂ c' sends) (same : c₂.identity = c₁.identity)
    (inflight : c₂.inflight = c₁.inflight) : Attempts c₁ c' sends := by
  simpa using (Attempts.of_inflight same inflight).trans attempts

/-- `SendData` adds one unanswered attempt and sends its data message to every replica. -/
theorem attempts_sendData (c : Client) (seq appReqId firstSendNs attempts now : Nat) :
    Attempts c (c.sendData seq appReqId firstSendNs attempts now).1
      (c.sendData seq appReqId firstSendNs attempts now).2 := by
  constructor
  · rfl
  · intro send sent
    obtain ⟨idx, _, rfl⟩ := mem_sendToReplicas.mp sent
    exact ⟨idx, seq, rfl, _, rfl, rfl, rfl, rfl⟩
  · intro other e found
    simp only [sendData, TreeMap.getElem?_insert] at found
    split at found
    · rename_i same
      obtain rfl : seq = other := by simpa using same
      obtain rfl := Option.some.inj found
      refine .inr ⟨rfl, fun nonempty => ?_⟩
      exact ⟨_, mem_sendToReplicas.mpr ⟨0, nonempty, rfl⟩, _, rfl, rfl, rfl, rfl⟩
    · exact .inl found

/-- Setting the time of the next send adds nothing. -/
theorem attempts_scheduleSend (c : Client) (nextSendNs : Nat) :
    Attempts c (c.scheduleSend nextSendNs) [] :=
  .of_inflight rfl rfl

/-- One round of the loop sends one attempt. -/
theorem attempts_sendRound (c : Client) (sendNow : Nat) :
    Attempts c (c.sendRound sendNow).1 (c.sendRound sendNow).2 := by
  have numbered : Attempts c { c with seqNum := c.seqNum + 1, appReqId := c.appReqId + 1 } [] :=
    .of_inflight rfl rfl
  have sent := numbered.trans (attempts_sendData _ (c.seqNum + 1) (c.appReqId + 1) 0 1 sendNow)
  rw [List.nil_append] at sent
  unfold sendRound
  rw [← List.append_nil (Prod.snd _)]
  exact sent.trans (attempts_scheduleSend _ _)

/-- The catch-up loop only adds unanswered attempts. -/
theorem attempts_sendLoop {c c' : Client} {readings : List Nat} {sends : List Send}
    {lastNow : Nat} (looped : c.sendLoop readings = some (c', sends, lastNow)) :
    Attempts c c' sends := by
  induction c, readings using sendLoop.induct generalizing c' sends lastNow with
  | case1 c => cases looped
  | case2 c now early =>
      simp only [sendLoop, early, if_true, Option.some.injEq, Prod.mk.injEq] at looped
      obtain ⟨rfl, rfl, -⟩ := looped
      exact .of_inflight rfl rfl
  | case3 c now due => simp [sendLoop, due] at looped
  | case4 c now sendNow rest early => simp [sendLoop, early] at looped
  | case5 c now sendNow rest due stuck => simp [sendLoop, due, stuck] at looped
  | case6 c now sendNow rest due last later lastNow' completed inductionHypothesis =>
      simp only [sendLoop, due, if_false, completed, Option.some.injEq, Prod.mk.injEq] at looped
      obtain ⟨rfl, rfl, -⟩ := looped
      exact (c.attempts_sendRound sendNow).trans (inductionHypothesis completed)

theorem attempts_sendTick {c c' : Client} {readings : List Nat} {sends : List Send}
    (ticked : c.sendTick readings = some (c', sends)) : Attempts c c' sends := by
  unfold sendTick at ticked
  split at ticked
  · cases ticked
  · rename_i looped
    obtain ⟨rfl, rfl⟩ := Prod.mk.inj (Option.some.inj ticked)
    exact (attempts_sendLoop looped).congr_right rfl rfl

/-- A resend abandons one attempt and adds a fresh one. -/
theorem attempts_onResendTimeout (c : Client) (seq now : Nat) :
    Attempts c (c.onResendTimeout seq now).1 (c.onResendTimeout seq now).2 := by
  unfold onResendTimeout
  split
  · exact .of_inflight rfl rfl
  · rename_i e found
    have abandoned : Attempts c
        { c with inflight := c.inflight.erase seq, seqNum := c.seqNum + 1 } [] := by
      refine ⟨rfl, by simp, fun {other e'} kept => .inl ?_⟩
      simp only [TreeMap.getElem?_erase] at kept
      split at kept
      · cases kept
      · exact kept
    exact abandoned.trans (attempts_sendData _ _ _ _ _ _)

/-- Every timer of a client only adds unanswered attempts. -/
theorem attempts_fireTimer {c c' : Client} {id : Nat} {readings : List Nat}
    {sends : List Send} (fired : c.fireTimer id readings = some (c', sends)) :
    Attempts c c' sends := by
  unfold fireTimer at fired
  split at fired
  · cases fired
  · dsimp only at fired
    split at fired
    · exact (attempts_sendTick fired).congr_left rfl rfl
    · exact (attempts_sendTick fired).congr_left rfl rfl
    · obtain ⟨rfl, rfl⟩ := Prod.mk.inj (Option.some.inj fired)
      exact (attempts_onResendTimeout _ _ _).congr_left rfl rfl
    · cases fired

/-! ## Replies -/

/-- A reply leaves the client what it is. -/
@[simp] theorem identity_receiveMessage (overshift : Nat → BitVec 32) (c : Client)
    (msg : Message) : (c.receiveMessage overshift msg).1.identity = c.identity := by
  cases msg <;> try rfl
  simp only [receiveMessage, handleDataReply]
  split
  · rfl
  · split
    · rfl
    · split <;> rfl

/-- The slots whose attempts a client still tracks after a message were tracked before, and
the only new mark is that of the replica that replied. -/
theorem inflight_receiveMessage {overshift : Nat → BitVec 32} {c : Client} {msg : Message}
    {seq : Nat} {e : InflightEntry}
    (found : (c.receiveMessage overshift msg).1.inflight[seq]? = some e) :
    ∃ old, c.inflight[seq]? = some old ∧ (e.replicaMask = old.replicaMask ∨
      ∃ reply, msg = .dataReply reply ∧ reply.seqNum = seq ∧
        e.replicaMask = old.replicaMask ||| bit overshift reply.replicaIdx) := by
  cases msg with
  | dataReply reply =>
      simp only [receiveMessage, handleDataReply] at found
      split at found
      · exact ⟨e, found, .inl rfl⟩
      · rename_i old tracked
        split at found
        · exact ⟨e, found, .inl rfl⟩
        · split at found
          · simp only [TreeMap.getElem?_erase] at found
            split at found
            · cases found
            · exact ⟨e, found, .inl rfl⟩
          · simp only [TreeMap.getElem?_insert] at found
            split at found
            · rename_i same
              obtain rfl : reply.seqNum = seq := by simpa using same
              obtain rfl := Option.some.inj found
              exact ⟨old, tracked, .inr ⟨reply, rfl, rfl, rfl⟩⟩
            · exact ⟨e, found, .inl rfl⟩
  | sync | data | gapRequest | gapReply | gapCommit | gapCommitReply =>
      exact ⟨e, found, .inl rfl⟩

/-- A slot is reported as committed only by a reply for it, and only when the attempt has the
leader's mark, the reply's own mark included. -/
theorem committed_receiveMessage {overshift : Nat → BitVec 32} {c : Client} {msg : Message}
    {seq : Nat} (done : (c.receiveMessage overshift msg).2 = some seq) :
    ∃ reply old, msg = .dataReply reply ∧ reply.seqNum = seq ∧ c.inflight[seq]? = some old ∧
      (old.replicaMask ||| bit overshift reply.replicaIdx) &&&
        bit overshift (c.config.getLeaderIndex reply.viewId) ≠ 0 := by
  cases msg with
  | dataReply reply =>
      simp only [receiveMessage, handleDataReply] at done
      split at done
      · cases done
      · rename_i old tracked
        split at done
        · cases done
        · split at done
          · rename_i quorum
            obtain rfl := Option.some.inj done
            refine ⟨reply, old, rfl, rfl, tracked, ?_⟩
            simp only [hasQuorum, Bool.and_eq_true, bne_iff_ne] at quorum
            exact quorum.2
          · cases done
  | sync | data | gapRequest | gapReply | gapCommit | gapCommitReply => cases done

end Client

end PaxosBus.Bus

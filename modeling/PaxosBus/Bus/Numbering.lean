import PaxosBus.Bus.Client
import Mathlib.Tactic.Common
import Mathlib.Order.Basic
import Mathlib.Data.Nat.Basic

/-!
# The slot numbers a client uses

Every data message takes a slot number that the client has not used before: the
catch-up loop and a resend both increment `seqNum` first, and one round sends the
same message to every replica. `Numbered` says so for one handler and composes
along a loop.
-/

set_option autoImplicit false

namespace PaxosBus.Bus

open Std PaxosBus.Common

namespace Client

/-- The effect of a handler on the numbering: it sends clock synchronisation or data of this
client, data only in slots that it has just taken, and only one message in each slot. -/
structure Numbered (c c' : Client) (sends : List Send) : Prop where
  same : c'.clientId = c.clientId
  grows : c.seqNum ≤ c'.seqNum
  fresh : ∀ send ∈ sends, (∃ sync, send.msg = .sync sync) ∨ ∃ data, send.msg = .data data ∧
    data.clientId = c.clientId ∧ c.seqNum < data.seqNum ∧ data.seqNum ≤ c'.seqNum
  single : ∀ first ∈ sends, ∀ second ∈ sends, ∀ data data', first.msg = .data data →
    second.msg = .data data' → data.seqNum = data'.seqNum → data = data'

/-- Sending nothing leaves the numbering alone. -/
theorem Numbered.of_seqNum {c c' : Client} (same : c'.clientId = c.clientId)
    (number : c'.seqNum = c.seqNum) : Numbered c c' [] where
  same := same
  grows := number.ge
  fresh := by simp
  single := by simp

/-- The effects of two consecutive parts of a handler compose: the second part takes only
slots above those of the first. -/
theorem Numbered.trans {first middle last : Client} {before after : List Send}
    (left : Numbered first middle before) (right : Numbered middle last after) :
    Numbered first last (before ++ after) := by
  have below : ∀ send ∈ before, ∀ data, send.msg = .data data → data.seqNum ≤ middle.seqNum := by
    intro send sent data isData
    rcases left.fresh send sent with ⟨sync, isSync⟩ | ⟨data', isData', -, -, high⟩
    · rw [isSync] at isData
      cases isData
    · rw [isData'] at isData
      cases isData
      exact high
  have above : ∀ send ∈ after, ∀ data, send.msg = .data data → middle.seqNum < data.seqNum := by
    intro send sent data isData
    rcases right.fresh send sent with ⟨sync, isSync⟩ | ⟨data', isData', -, low, -⟩
    · rw [isSync] at isData
      cases isData
    · rw [isData'] at isData
      cases isData
      exact low
  constructor
  · exact right.same.trans left.same
  · exact left.grows.trans right.grows
  · intro send sent
    rcases List.mem_append.mp sent with early | late
    · rcases left.fresh send early with sync | ⟨data, isData, mine, low, high⟩
      · exact .inl sync
      · exact .inr ⟨data, isData, mine, low, high.trans right.grows⟩
    · rcases right.fresh send late with sync | ⟨data, isData, mine, low, high⟩
      · exact .inl sync
      · exact .inr ⟨data, isData, mine.trans left.same, left.grows.trans_lt low, high⟩
  · intro send sent send' sent' data data' isData isData' sameSlot
    rcases List.mem_append.mp sent with early | late
    · rcases List.mem_append.mp sent' with early' | late'
      · exact left.single send early send' early' data data' isData isData' sameSlot
      · have low := below send early data isData
        have high := above send' late' data' isData'
        omega
    · rcases List.mem_append.mp sent' with early' | late'
      · have low := below send' early' data' isData'
        have high := above send late data isData
        omega
      · exact right.single send late send' late' data data' isData isData' sameSlot

/-- Only the identity and the numbering of the initial client matter. -/
theorem Numbered.congr_left {c₁ c₂ c' : Client} {sends : List Send}
    (numbered : Numbered c₂ c' sends) (same : c₂.clientId = c₁.clientId)
    (number : c₂.seqNum = c₁.seqNum) : Numbered c₁ c' sends := by
  simpa using (Numbered.of_seqNum same number).trans numbered

/-- Only the identity and the numbering of the final client matter. -/
theorem Numbered.congr_right {c c₁ c₂ : Client} {sends : List Send}
    (numbered : Numbered c c₁ sends) (same : c₂.clientId = c₁.clientId)
    (number : c₂.seqNum = c₁.seqNum) : Numbered c c₂ sends := by
  simpa using numbered.trans (.of_seqNum same number)

/-- `Start` sends no data. -/
theorem numbered_start (c : Client) (now : Nat) : Numbered c (c.start now).1 (c.start now).2 where
  same := rfl
  grows := by
    have number : (c.start now).1.seqNum = c.seqNum := rfl
    rw [number]
  fresh send sent := by
    obtain ⟨idx, _, rfl⟩ := mem_sendToReplicas.mp sent
    exact .inl ⟨_, rfl⟩
  single first sent second sent' data data' isData _ _ := by
    obtain ⟨idx, _, rfl⟩ := mem_sendToReplicas.mp sent
    cases isData

/-- A caller that takes the next slot number and calls `SendData` with it. -/
theorem numbered_sendData {c t : Client} (appReqId firstSendNs attempts now : Nat)
    (same : t.clientId = c.clientId) (next : t.seqNum = c.seqNum + 1) :
    Numbered c (t.sendData t.seqNum appReqId firstSendNs attempts now).1
      (t.sendData t.seqNum appReqId firstSendNs attempts now).2 where
  same := same
  grows := by
    have number : (t.sendData t.seqNum appReqId firstSendNs attempts now).1.seqNum =
      t.seqNum := rfl
    omega
  fresh send sent := by
    obtain ⟨idx, _, rfl⟩ := mem_sendToReplicas.mp sent
    exact .inr ⟨_, rfl, same, next ▸ Nat.lt_succ_self _, Nat.le_refl _⟩
  single first sent second sent' data data' isData isData' _ := by
    obtain ⟨idx, _, rfl⟩ := mem_sendToReplicas.mp sent
    obtain ⟨idx', _, rfl⟩ := mem_sendToReplicas.mp sent'
    cases isData
    cases isData'
    rfl

/-- Setting the time of the next send takes no slot. -/
theorem numbered_scheduleSend (c : Client) (nextSendNs : Nat) :
    Numbered c (c.scheduleSend nextSendNs) [] :=
  .of_seqNum rfl rfl

/-- One round of the catch-up loop takes the next slot. -/
theorem numbered_sendRound (c : Client) (sendNow : Nat) :
    Numbered c (c.sendRound sendNow).1 (c.sendRound sendNow).2 := by
  have sent := numbered_sendData (c := c)
    (t := { c with seqNum := c.seqNum + 1, appReqId := c.appReqId + 1 }) (c.appReqId + 1) 0 1
    sendNow rfl rfl
  unfold sendRound
  rw [← List.append_nil (Prod.snd _)]
  exact sent.trans (numbered_scheduleSend _ _)

/-- The catch-up loop takes slots in increasing order. -/
theorem numbered_sendLoop {c c' : Client} {readings : List Nat} {sends : List Send}
    {lastNow : Nat} (looped : c.sendLoop readings = some (c', sends, lastNow)) :
    Numbered c c' sends := by
  induction c, readings using sendLoop.induct generalizing c' sends lastNow with
  | case1 c => cases looped
  | case2 c now early =>
      simp only [sendLoop, early, if_true, Option.some.injEq, Prod.mk.injEq] at looped
      obtain ⟨rfl, rfl, -⟩ := looped
      exact .of_seqNum rfl rfl
  | case3 c now due => simp [sendLoop, due] at looped
  | case4 c now sendNow rest early => simp [sendLoop, early] at looped
  | case5 c now sendNow rest due stuck => simp [sendLoop, due, stuck] at looped
  | case6 c now sendNow rest due last later lastNow' completed inductionHypothesis =>
      simp only [sendLoop, due, if_false, completed, Option.some.injEq, Prod.mk.injEq] at looped
      obtain ⟨rfl, rfl, -⟩ := looped
      exact (c.numbered_sendRound sendNow).trans (inductionHypothesis completed)

theorem numbered_sendTick {c c' : Client} {readings : List Nat} {sends : List Send}
    (ticked : c.sendTick readings = some (c', sends)) : Numbered c c' sends := by
  unfold sendTick at ticked
  split at ticked
  · cases ticked
  · rename_i looped
    obtain ⟨rfl, rfl⟩ := Prod.mk.inj (Option.some.inj ticked)
    exact (numbered_sendLoop looped).congr_right rfl rfl

/-- A resend takes a fresh slot for the old request. -/
theorem numbered_onResendTimeout (c : Client) (seq now : Nat) :
    Numbered c (c.onResendTimeout seq now).1 (c.onResendTimeout seq now).2 := by
  unfold onResendTimeout
  split
  · exact .of_seqNum rfl rfl
  · rename_i e found
    exact numbered_sendData (t := { c with
      inflight := c.inflight.erase seq
      seqNum := c.seqNum + 1 }) e.appReqId e.firstSendTimeNs (e.attempts + 1) now rfl rfl

/-- Every timer of a client sends data in fresh slots only. -/
theorem numbered_fireTimer {c c' : Client} {id : Nat} {readings : List Nat}
    {sends : List Send} (fired : c.fireTimer id readings = some (c', sends)) :
    Numbered c c' sends := by
  unfold fireTimer at fired
  split at fired
  · cases fired
  · dsimp only at fired
    split at fired
    · exact (numbered_sendTick fired).congr_left rfl rfl
    · exact (numbered_sendTick fired).congr_left rfl rfl
    · obtain ⟨rfl, rfl⟩ := Prod.mk.inj (Option.some.inj fired)
      exact (numbered_onResendTimeout _ _ _).congr_left rfl rfl
    · cases fired

/-- A reply takes no slot. -/
theorem numbering_receiveMessage (overshift : Nat → BitVec 32) (c : Client) (msg : Message) :
    (c.receiveMessage overshift msg).1.clientId = c.clientId ∧
      (c.receiveMessage overshift msg).1.seqNum = c.seqNum := by
  cases msg with
  | dataReply reply =>
      simp only [receiveMessage, handleDataReply]
      split
      · exact ⟨rfl, rfl⟩
      · split
        · exact ⟨rfl, rfl⟩
        · split <;> exact ⟨rfl, rfl⟩
  | sync | data | gapRequest | gapReply | gapCommit | gapCommitReply => exact ⟨rfl, rfl⟩

end Client

end PaxosBus.Bus

import PaxosBus.Bus.Committed

/-!
# When a client counts a slot as committed

The rule is a quorum of distinct replicas that includes the leader. The client
keeps the set of replicas it has heard from as the bits of a 32-bit word beside
an 8-bit counter. As long as no shift is by 32 or more the word is that set, and
the slot is counted right; with more than 32 replicas the bit of the last ones is
undefined, and whatever it is, some replies are counted wrong.
-/

set_option autoImplicit false

namespace PaxosBus.Bus

open Std PaxosBus.Common

/-! ## The rule -/

/-- The replicas that the replies come from. -/
def heardFrom (replies : List DataReplyMessage) : Finset Nat :=
  (replies.map (·.replicaIdx)).toFinset

/-- With the reply at the position, a quorum has replied and the leader of the reply's view is
among it. -/
def Completes (config : Configuration) (replies : List DataReplyMessage) (position : Nat) : Prop :=
  ∃ reply, replies[position]? = some reply ∧
    config.quorumSize ≤ (heardFrom (replies.take (position + 1))).card ∧
      config.getLeaderIndex reply.viewId ∈ heardFrom (replies.take (position + 1))

/-- The reply at the position is the first one from its replica. -/
def Fresh (replies : List DataReplyMessage) (position : Nat) : Prop :=
  ∃ reply, replies[position]? = some reply ∧ reply.replicaIdx ∉ heardFrom (replies.take position)

/-- The position is the first one with the property. -/
def First (property : Nat → Prop) (position : Nat) : Prop :=
  property position ∧ ∀ earlier, earlier < position → ¬ property earlier

/-- The reply at the position comes from a replica that has a bit in the word, and so has the
leader of its view if that is looked for, which a fresh reply that reaches a quorum does. -/
def Narrow (config : Configuration) (replies : List DataReplyMessage) (position : Nat) : Prop :=
  ∀ reply, replies[position]? = some reply →
    reply.replicaIdx < 32 ∧
      (Fresh replies position →
        config.quorumSize ≤ (heardFrom (replies.take (position + 1))).card →
          config.getLeaderIndex reply.viewId < 32)

/-- The replies are all for the slot and come from replicas of the group. -/
def RepliesTo (config : Configuration) (seq : Nat) (replies : List DataReplyMessage) : Prop :=
  ∀ reply ∈ replies, reply.seqNum = seq ∧ reply.replicaIdx < config.n

namespace Client

/-- What the client counts, reply by reply. -/
def tallies (overshift : Nat → BitVec 32) (c : Client) : List DataReplyMessage → List (Option Nat)
  | [] => []
  | reply :: rest =>
    (c.handleDataReply overshift reply).2 ::
      (c.handleDataReply overshift reply).1.tallies overshift rest

/-- Handling the reply shifts by less than 32: by the replica's index, and by the leader's where
the counter has reached a quorum. -/
def ShiftsWithin (overshift : Nat → BitVec 32) (c : Client) (msg : DataReplyMessage) : Prop :=
  ∀ e, c.inflight[msg.seqNum]? = some e →
    msg.replicaIdx < 32 ∧
      (e.replicaMask &&& bit overshift msg.replicaIdx = 0 →
        c.config.quorumSize ≤ (e.replyCount + 1).toNat →
          c.config.getLeaderIndex msg.viewId < 32)

/-- No reply makes the client shift by 32 or more, which is undefined. -/
def Defined (overshift : Nat → BitVec 32) (c : Client) : List DataReplyMessage → Prop
  | [] => True
  | reply :: rest =>
    c.ShiftsWithin overshift reply ∧ (c.handleDataReply overshift reply).1.Defined overshift rest

/-- The slot is outstanding, and nobody has replied. -/
def Awaits (c : Client) (seq : Nat) : Prop :=
  ∃ e, c.inflight[seq]? = some e ∧ e.replicaMask = 0 ∧ e.replyCount = 0

/-- The slot is counted at the first reply that completes the rule, and at no other. -/
def CountsRight (overshift : Nat → BitVec 32) (c : Client) (seq : Nat)
    (replies : List DataReplyMessage) : Prop :=
  ∀ position, (c.tallies overshift replies)[position]? = some (some seq) ↔
    First (Completes c.config replies) position

end Client

/-! ## The rule at one reply -/

@[simp] theorem heardFrom_append (before after : List DataReplyMessage) :
    heardFrom (before ++ after) = heardFrom before ∪ heardFrom after := by
  simp [heardFrom]

@[simp] theorem heardFrom_singleton (reply : DataReplyMessage) :
    heardFrom [reply] = {reply.replicaIdx} := by
  simp [heardFrom]

/-- One reply more is one more replica that has been heard from, or none. -/
theorem heardFrom_snoc (before : List DataReplyMessage) (reply : DataReplyMessage) :
    heardFrom (before ++ [reply]) = insert reply.replicaIdx (heardFrom before) := by
  rw [heardFrom_append, heardFrom_singleton, Finset.union_comm]
  rfl

/-- The rule, at a reply: there are enough replicas by then, and the leader of its view is one of
them. -/
theorem completes_at (config : Configuration) (before rest : List DataReplyMessage)
    (reply : DataReplyMessage) :
    Completes config (before ++ reply :: rest) before.length ↔
      config.quorumSize ≤ (insert reply.replicaIdx (heardFrom before)).card ∧
        config.getLeaderIndex reply.viewId ∈ insert reply.replicaIdx (heardFrom before) := by
  have taken : (before ++ reply :: rest).take (before.length + 1) = before ++ [reply] := by
    simp [List.take_append]
  have found : (before ++ reply :: rest)[before.length]? = some reply := by simp
  unfold Completes
  rw [taken, found, heardFrom_snoc]
  constructor
  · rintro ⟨same, found, completes⟩
    obtain rfl := Option.some.inj found
    exact completes
  · intro completes
    exact ⟨reply, rfl, completes⟩

/-- A reply is fresh if its replica has not been heard from. -/
theorem fresh_at (before rest : List DataReplyMessage) (reply : DataReplyMessage) :
    Fresh (before ++ reply :: rest) before.length ↔ reply.replicaIdx ∉ heardFrom before := by
  have taken : (before ++ reply :: rest).take before.length = before := by simp
  have found : (before ++ reply :: rest)[before.length]? = some reply := by simp
  unfold Fresh
  rw [taken, found]
  constructor
  · rintro ⟨same, found, fresh⟩
    obtain rfl := Option.some.inj found
    exact fresh
  · intro fresh
    exact ⟨reply, rfl, fresh⟩

/-! ## The word and the counter -/

/-- The bits of the word are the replicas heard from, and the counter is their number. -/
structure Marks (e : InflightEntry) (before : List DataReplyMessage) : Prop where
  mask : ∀ i, i < 32 → (e.replicaMask.getLsbD i = true ↔ i ∈ heardFrom before)
  count : e.replyCount.toNat = (heardFrom before).card

/-- The bit of a replica tells whether it is in the word. -/
theorem and_bit_ne_zero (overshift : Nat → BitVec 32) {mask : BitVec 32} {i : Nat}
    (small : i < 32) : mask &&& bit overshift i ≠ 0 ↔ mask.getLsbD i = true := by
  constructor
  · intro common
    by_contra absent
    apply common
    apply BitVec.eq_of_getLsbD_eq
    intro k _
    simp only [bit, small, if_true]
    grind
  · intro present zero
    have set : (mask &&& bit overshift i).getLsbD i = true := by
      rw [BitVec.getLsbD_and, present]
      simp [bit, small]
    rw [zero] at set
    simp at set

namespace Marks

variable {e : InflightEntry} {before : List DataReplyMessage}

/-- An entry that has counted nothing marks no reply. -/
theorem empty (noMask : e.replicaMask = 0) (noCount : e.replyCount = 0) : Marks e [] where
  mask i _ := by simp [noMask, heardFrom]
  count := by simp [noCount, heardFrom]

/-- A replica heard from before changes neither. -/
theorem again (marks : Marks e before) {reply : DataReplyMessage}
    (known : reply.replicaIdx ∈ heardFrom before) : Marks e (before ++ [reply]) := by
  have same : heardFrom (before ++ [reply]) = heardFrom before := by
    rw [heardFrom_append, heardFrom_singleton]
    exact Finset.union_eq_left.mpr (Finset.singleton_subset_iff.mpr known)
  exact ⟨by rw [same]; exact marks.mask, by rw [same]; exact marks.count⟩

/-- With replicas of the first 32 the counter has room for one more. -/
theorem count_next (marks : Marks e before) {reply : DataReplyMessage}
    (within : ∀ i ∈ heardFrom before, i < 32) (fresh : reply.replicaIdx ∉ heardFrom before) :
    (e.replyCount + 1).toNat = (heardFrom (before ++ [reply])).card := by
  have bounded : (heardFrom before).card ≤ 32 := by
    have subset : heardFrom before ⊆ Finset.range 32 := fun i heard =>
      Finset.mem_range.mpr (within i heard)
    have cards := Finset.card_le_card subset
    rwa [Finset.card_range] at cards
  rw [heardFrom_snoc, Finset.card_insert_of_notMem fresh, ← marks.count]
  have room : e.replyCount.toNat + 1 < 2 ^ 8 := by
    rw [marks.count]
    omega
  have one : (1 : BitVec 8).toNat = 1 := rfl
  rw [BitVec.toNat_add, one]
  exact Nat.mod_eq_of_lt room

/-- A replica heard from for the first time is marked and counted. -/
theorem next (marks : Marks e before) (overshift : Nat → BitVec 32) {reply : DataReplyMessage}
    (within : ∀ i ∈ heardFrom before, i < 32) (small : reply.replicaIdx < 32)
    (fresh : reply.replicaIdx ∉ heardFrom before) :
    Marks { e with
      replicaMask := e.replicaMask ||| bit overshift reply.replicaIdx
      replyCount := e.replyCount + 1 } (before ++ [reply]) where
  mask i inWord := by
    rw [heardFrom_snoc, Finset.mem_insert, ← marks.mask i inWord]
    simp only [bit, small, if_true, BitVec.getLsbD_or, Bool.or_eq_true]
    have own : (1#32 <<< reply.replicaIdx).getLsbD i = true ↔ i = reply.replicaIdx := by
      grind
    rw [own, or_comm]
  count := marks.count_next within fresh

end Marks

/-! ## The client follows the rule -/

namespace Client

variable (overshift : Nat → BitVec 32) {c : Client} {seq : Nat}

/-- Replies for a slot that is not outstanding are not counted. -/
theorem tallies_of_absent {replies : List DataReplyMessage}
    (absent : c.inflight[seq]? = none) (repliesTo : ∀ reply ∈ replies, reply.seqNum = seq) :
    ∀ position : Nat, (c.tallies overshift replies)[position]? ≠ some (some seq) := by
  induction replies with
  | nil => simp [tallies]
  | cons reply rest inductionHypothesis =>
      have ignored : c.handleDataReply overshift reply = (c, none) := by
        unfold handleDataReply
        rw [repliesTo reply (List.mem_cons_self ..), absent]
      unfold tallies
      rw [ignored]
      intro position
      cases position with
      | zero => simp
      | succ position =>
          rw [List.getElem?_cons_succ]
          exact inductionHypothesis (fun later member =>
            repliesTo later (List.mem_cons_of_mem _ member)) position

/-- The three ways in which a reply for an outstanding slot is handled. -/
theorem handleDataReply_cases {e : InflightEntry} {reply : DataReplyMessage}
    (tracked : c.inflight[reply.seqNum]? = some e) :
    (e.replicaMask &&& bit overshift reply.replicaIdx ≠ 0 ∧
        c.handleDataReply overshift reply = (c, none)) ∨
      e.replicaMask &&& bit overshift reply.replicaIdx = 0 ∧
        ∃ (c' : Client) (e' : InflightEntry), c'.config = c.config ∧
          e' = { e with
            replicaMask := e.replicaMask ||| bit overshift reply.replicaIdx
            replyCount := e.replyCount + 1 } ∧
          (c.hasQuorum overshift e' reply.viewId = true ∧
              c'.inflight[reply.seqNum]? = none ∧
                c.handleDataReply overshift reply = (c', some reply.seqNum) ∨
            c.hasQuorum overshift e' reply.viewId = false ∧
              c'.inflight[reply.seqNum]? = some e' ∧
                c.handleDataReply overshift reply = (c', none)) := by
  unfold handleDataReply
  rw [tracked]
  dsimp only
  split
  · rename_i again
    exact .inl ⟨again, rfl⟩
  · rename_i fresh
    refine .inr ⟨not_not.mp fresh, ?_⟩
    split
    · rename_i quorum
      refine ⟨_, _, ?_, rfl, .inl ⟨quorum, ?_, rfl⟩⟩
      · rfl
      · simp
    · rename_i few
      refine ⟨_, _, ?_, rfl, .inr ⟨eq_false_of_ne_true few, ?_, rfl⟩⟩
      · rfl
      · simp

/-- A reply for a slot that is not outstanding makes no shift. -/
theorem defined_of_absent {replies : List DataReplyMessage}
    (absent : c.inflight[seq]? = none) (repliesTo : ∀ reply ∈ replies, reply.seqNum = seq) :
    c.Defined overshift replies := by
  induction replies with
  | nil => trivial
  | cons reply rest inductionHypothesis =>
      have untracked : c.inflight[reply.seqNum]? = none := by
        rw [repliesTo reply (List.mem_cons_self ..)]
        exact absent
      have ignored : c.handleDataReply overshift reply = (c, none) := by
        unfold handleDataReply
        rw [untracked]
      constructor
      · intro e tracked
        rw [untracked] at tracked
        cases tracked
      · rw [ignored]
        exact inductionHypothesis fun later member =>
          repliesTo later (List.mem_cons_of_mem _ member)

/-- With the replies marked, the quorum test is the rule, if the leader it looks for has a bit. -/
theorem hasQuorum_iff {e : InflightEntry} {replies : List DataReplyMessage}
    (marks : Marks e replies) (viewId : Nat)
    (leader : c.config.quorumSize ≤ (heardFrom replies).card →
      c.config.getLeaderIndex viewId < 32) :
    c.hasQuorum overshift e viewId = true ↔
      c.config.quorumSize ≤ (heardFrom replies).card ∧
        c.config.getLeaderIndex viewId ∈ heardFrom replies := by
  unfold hasQuorum
  rw [Bool.and_eq_true, decide_eq_true_eq, bne_iff_ne, marks.count]
  constructor
  · rintro ⟨quorum, marked⟩
    have small := leader quorum
    exact ⟨quorum, (marks.mask _ small).mp ((and_bit_ne_zero overshift small).mp marked)⟩
  · rintro ⟨quorum, heard⟩
    have small := leader quorum
    exact ⟨quorum, (and_bit_ne_zero overshift small).mpr ((marks.mask _ small).mpr heard)⟩

section OneReply

variable {before rest : List DataReplyMessage} {reply : DataReplyMessage} {e : InflightEntry}

/-- A small replica index is unmarked if and only if the replica has not been heard from. -/
theorem unmarked_iff (marks : Marks e before) (small : reply.replicaIdx < 32) :
    e.replicaMask &&& bit overshift reply.replicaIdx = 0 ↔
      reply.replicaIdx ∉ heardFrom before := by
  rw [← marks.mask _ small, ← and_bit_ne_zero overshift small, not_not]

/-- The shifts that a reply brings are told by the replies before it. -/
theorem shiftsWithin_iff (tracked : c.inflight[reply.seqNum]? = some e) (marks : Marks e before)
    (within : ∀ i ∈ heardFrom before, i < 32) :
    c.ShiftsWithin overshift reply ↔
      Narrow c.config (before ++ reply :: rest) before.length := by
  have found : (before ++ reply :: rest)[before.length]? = some reply := by simp
  have taken : (before ++ reply :: rest).take (before.length + 1) = before ++ [reply] := by
    simp [List.take_append]
  unfold ShiftsWithin Narrow
  rw [fresh_at, taken]
  constructor
  · intro shifts same found'
    obtain rfl := Option.some.inj (found.symm.trans found')
    obtain ⟨small, leader⟩ := shifts e tracked
    refine ⟨small, fun fresh quorum => leader ((unmarked_iff overshift marks small).mpr fresh) ?_⟩
    rw [marks.count_next within fresh]
    exact quorum
  · intro narrow same tracked'
    obtain rfl := Option.some.inj (tracked.symm.trans tracked')
    obtain ⟨small, leader⟩ := narrow reply found
    refine ⟨small, fun unmarked quorum => ?_⟩
    have fresh := (unmarked_iff overshift marks small).mp unmarked
    rw [marks.count_next within fresh] at quorum
    exact leader fresh quorum

/-- A reply whose shifts are defined is counted if it is fresh and completes the rule; otherwise
the client goes on waiting, with the reply marked. -/
theorem handleDataReply_marks (tracked : c.inflight[reply.seqNum]? = some e)
    (marks : Marks e before) (within : ∀ i ∈ heardFrom before, i < 32)
    (narrow : Narrow c.config (before ++ reply :: rest) before.length) :
    ((Fresh (before ++ reply :: rest) before.length ∧
        Completes c.config (before ++ reply :: rest) before.length) ∧
      ∃ c' : Client, c'.inflight[reply.seqNum]? = none ∧
        c.handleDataReply overshift reply = (c', some reply.seqNum)) ∨
      ¬ (Fresh (before ++ reply :: rest) before.length ∧
          Completes c.config (before ++ reply :: rest) before.length) ∧
        ∃ (c' : Client) (e' : InflightEntry), c'.config = c.config ∧
          c'.inflight[reply.seqNum]? = some e' ∧ Marks e' (before ++ [reply]) ∧
            c.handleDataReply overshift reply = (c', none) := by
  obtain ⟨small, leader⟩ := (shiftsWithin_iff overshift tracked marks within).mpr narrow e tracked
  rw [fresh_at, completes_at, ← heardFrom_snoc]
  rcases handleDataReply_cases overshift tracked with
    ⟨marked, ignored⟩ | ⟨unmarked, c', e', sameConfig, rfl, outcome⟩
  · -- a replica that has been heard from
    have known : reply.replicaIdx ∈ heardFrom before :=
      (marks.mask _ small).mp ((and_bit_ne_zero overshift small).mp marked)
    exact .inr ⟨fun both => both.1 known, c, e, rfl, tracked, marks.again known, ignored⟩
  · have fresh := (unmarked_iff overshift marks small).mp unmarked
    have marks' := marks.next overshift within small fresh
    have rule := hasQuorum_iff (c := c) overshift marks' reply.viewId (by
      intro quorum
      apply leader unmarked
      rw [marks.count_next within fresh]
      exact quorum)
    rcases outcome with ⟨quorum, absent, counted⟩ | ⟨few, tracked', waits⟩
    · exact .inl ⟨⟨fresh, rule.mp quorum⟩, c', absent, counted⟩
    · refine .inr ⟨?_, c', _, sameConfig, tracked', marks', waits⟩
      rintro ⟨_, completes⟩
      rw [rule.mpr completes] at few
      cases few

end OneReply

/-- The replies after the first ones are counted where the rule says. -/
def CountsAfter (overshift : Nat → BitVec 32) (c : Client) (seq : Nat)
    (before rest : List DataReplyMessage) : Prop :=
  ∀ position, (c.tallies overshift rest)[position]? = some (some seq) ↔
    First (Completes c.config (before ++ rest)) (before.length + position)

section Counting

variable {before rest : List DataReplyMessage} {reply : DataReplyMessage}

/-- A reply that is not counted and does not complete the rule leaves it to the later ones. -/
theorem countsAfter_cons_iff {c' : Client} (sameConfig : c'.config = c.config)
    (waits : c.handleDataReply overshift reply = (c', none))
    (few : ¬ Completes c.config (before ++ reply :: rest) before.length) :
    c.CountsAfter overshift seq before (reply :: rest) ↔
      c'.CountsAfter overshift seq (before ++ [reply]) rest := by
  have shift : before ++ reply :: rest = (before ++ [reply]) ++ rest := by simp
  have later : ∀ k, (before ++ [reply]).length + k = before.length + (k + 1) := by
    intro k
    simp
    omega
  unfold CountsAfter
  rw [tallies, waits, sameConfig, ← shift]
  constructor
  · intro counts position
    rw [later, ← counts (position + 1), List.getElem?_cons_succ]
  · intro counts position
    cases position with
    | zero => simpa using fun first : First _ before.length => few first.1
    | succ position => rw [List.getElem?_cons_succ, ← later, counts position]

/-- The reply that is counted settles the slot. -/
theorem countsAfter_of_counted {c' : Client}
    (repliesTo : ∀ later ∈ reply :: rest, later.seqNum = seq)
    (absent : c'.inflight[seq]? = none)
    (counted : c.handleDataReply overshift reply = (c', some seq))
    (first : First (Completes c.config (before ++ reply :: rest)) before.length) :
    c.CountsAfter overshift seq before (reply :: rest) := by
  intro position
  rw [tallies, counted]
  cases position with
  | zero => simpa using first
  | succ position =>
      rw [List.getElem?_cons_succ]
      have silent := tallies_of_absent overshift absent
        (fun later member => repliesTo later (List.mem_cons_of_mem _ member)) position
      constructor
      · intro again
        exact absurd again silent
      · intro second
        exact absurd first.1 (second.2 before.length (by omega))

/-- A reply that completes the rule and is not counted is a miscount. -/
theorem not_countsAfter_of_missed {c' : Client}
    (waits : c.handleDataReply overshift reply = (c', none))
    (first : First (Completes c.config (before ++ reply :: rest)) before.length) :
    ¬ c.CountsAfter overshift seq before (reply :: rest) := by
  intro counts
  have counted := (counts 0).mpr first
  rw [tallies, waits] at counted
  simp at counted

end Counting

end Client

/-- From the position on, the replies that are handled before the rule is complete bring no shift
by 32 or more, and the one that completes it is fresh. -/
structure WellOrdered (config : Configuration) (replies : List DataReplyMessage) (start : Nat) :
    Prop where
  narrow : ∀ position, start ≤ position →
    (∀ earlier, earlier < position → ¬ Completes config replies earlier) →
      Narrow config replies position
  fresh : ∀ position, start ≤ position → First (Completes config replies) position →
    Fresh replies position

namespace WellOrdered

variable {config : Configuration} {replies : List DataReplyMessage} {start : Nat}

/-- A position at which the rule is not complete can be passed. -/
theorem succ_iff (narrow : Narrow config replies start)
    (few : ¬ Completes config replies start) :
    WellOrdered config replies start ↔ WellOrdered config replies (start + 1) := by
  constructor
  · intro ordered
    exact ⟨fun position later => ordered.narrow position (by omega),
      fun position later => ordered.fresh position (by omega)⟩
  · intro ordered
    constructor
    · intro position from_ quiet
      rcases Nat.eq_or_lt_of_le from_ with rfl | later
      · exact narrow
      · exact ordered.narrow position later quiet
    · intro position from_ first
      rcases Nat.eq_or_lt_of_le from_ with rfl | later
      · exact absurd first.1 few
      · exact ordered.fresh position later first

/-- Nothing is asked beyond a position at which the rule is complete. -/
theorem of_completes (narrow : Narrow config replies start) (fresh : Fresh replies start)
    (completes : Completes config replies start) : WellOrdered config replies start where
  narrow position from_ quiet := by
    rcases Nat.eq_or_lt_of_le from_ with rfl | later
    · exact narrow
    · exact absurd completes (quiet start later)
  fresh position from_ first := by
    rcases Nat.eq_or_lt_of_le from_ with rfl | later
    · exact fresh
    · exact absurd completes (first.2 start later)

end WellOrdered

/-- Once the replies before are marked, the rest is handled without an undefined shift and counted
right if and only if it is well ordered. -/
theorem Client.countsAfter_iff (overshift : Nat → BitVec 32) {c : Client} {seq : Nat}
    (before : List DataReplyMessage) {rest : List DataReplyMessage} {e : InflightEntry}
    (repliesTo : ∀ reply ∈ rest, reply.seqNum = seq) (tracked : c.inflight[seq]? = some e)
    (marks : Marks e before) (within : ∀ i ∈ heardFrom before, i < 32)
    (quiet : ∀ earlier, earlier < before.length →
      ¬ Completes c.config (before ++ rest) earlier) :
    c.Defined overshift rest ∧ c.CountsAfter overshift seq before rest ↔
      WellOrdered c.config (before ++ rest) before.length := by
  induction rest generalizing c before e with
  | nil =>
      have beyond : ∀ position, before.length ≤ position → (before ++ [])[position]? = none := by
        intro position from_
        simpa using from_
      constructor
      · intro _
        constructor
        · intro position from_ _ reply found
          rw [beyond position from_] at found
          cases found
        · rintro position from_ ⟨⟨reply, found, _⟩, _⟩
          rw [beyond position from_] at found
          cases found
      · intro _
        refine ⟨trivial, fun position => ⟨by simp [tallies], ?_⟩⟩
        rintro ⟨⟨reply, found, _⟩, _⟩
        rw [beyond _ (Nat.le_add_right _ _)] at found
        cases found
  | cons reply rest inductionHypothesis =>
      have same := repliesTo reply (List.mem_cons_self ..)
      subst same
      have shift : before ++ reply :: rest = (before ++ [reply]) ++ rest := by simp
      by_cases narrow : Narrow c.config (before ++ reply :: rest) before.length
      case neg =>
        -- an undefined shift
        have wide : ¬ c.ShiftsWithin overshift reply := fun shifts =>
          narrow ((shiftsWithin_iff overshift tracked marks within).mp shifts)
        constructor
        · intro right
          exact absurd right.1.1 wide
        · intro ordered
          exact absurd (ordered.narrow before.length (Nat.le_refl _) quiet) narrow
      have shifts := (shiftsWithin_iff overshift tracked marks within).mpr narrow
      have smallIdx := (narrow reply (by simp)).1
      rcases handleDataReply_marks overshift tracked marks within narrow with
        ⟨⟨fresh, completes⟩, c', absent, counted⟩ |
          ⟨passed, c', e', sameConfig, tracked', marks', waits⟩
      · -- the reply that counts
        have settled : c.Defined overshift (reply :: rest) := by
          refine ⟨shifts, ?_⟩
          rw [counted]
          exact defined_of_absent overshift absent fun later member =>
            repliesTo later (List.mem_cons_of_mem _ member)
        have counts := countsAfter_of_counted overshift repliesTo absent counted
          ⟨completes, quiet⟩
        exact ⟨fun _ => .of_completes narrow fresh completes, fun _ => ⟨settled, counts⟩⟩
      · by_cases completes : Completes c.config (before ++ reply :: rest) before.length
        · -- a repeated reply that completes the rule is dropped
          constructor
          · intro right
            exact absurd right.2
              (not_countsAfter_of_missed overshift waits ⟨completes, quiet⟩)
          · intro ordered
            have fresh := ordered.fresh before.length (Nat.le_refl _) ⟨completes, quiet⟩
            exact absurd ⟨fresh, completes⟩ passed
        · -- the client goes on waiting
          have go := inductionHypothesis (c := c') (before ++ [reply])
            (fun later member => repliesTo later (List.mem_cons_of_mem _ member)) tracked' marks'
            (by
              intro i heard
              rw [heardFrom_snoc, Finset.mem_insert] at heard
              rcases heard with rfl | old
              · exact smallIdx
              · exact within i old)
            (by
              rw [sameConfig, ← shift]
              intro earlier lower
              rw [List.length_append, List.length_singleton] at lower
              rcases Nat.lt_succ_iff_lt_or_eq.mp lower with old | rfl
              · exact quiet earlier old
              · exact completes)
          rw [sameConfig, ← shift, List.length_append, List.length_singleton,
            ← WellOrdered.succ_iff narrow completes] at go
          rw [← go, countsAfter_cons_iff overshift sameConfig waits completes, Defined, waits]
          exact ⟨fun right => ⟨right.1.2, right.2⟩, fun right => ⟨⟨shifts, right.1⟩, right.2⟩⟩

namespace Client

variable (overshift : Nat → BitVec 32) {c : Client} {seq : Nat}

/-! ## More than 32 replicas -/

/-- A reply of the first view. -/
def replyFrom (seq idx : Nat) : DataReplyMessage :=
  { clientId := 0, seqNum := seq, viewId := 0, logSlotNum := seq, replicaIdx := idx }

/-- The replies come from the replicas that they are made for. -/
theorem heardFrom_map_replyFrom (seq : Nat) (idxs : List Nat) :
    heardFrom (idxs.map (replyFrom seq)) = idxs.toFinset := by
  have same : (idxs.map (replyFrom seq)).map (·.replicaIdx) = idxs := by
    rw [List.map_map]
    exact List.map_id idxs
  rw [heardFrom, same]

/-- They are replies to the slot. -/
theorem repliesTo_replyFrom {config : Configuration} {idxs : List Nat}
    (inGroup : ∀ idx ∈ idxs, idx < config.n) :
    RepliesTo config seq (idxs.map (replyFrom seq)) := by
  intro reply member
  obtain ⟨idx, inList, rfl⟩ := List.mem_map.mp member
  exact ⟨rfl, inGroup idx inList⟩

/-- When a bare quorum replies, the first replica among it, the last reply completes the rule. -/
theorem first_completes_replyFrom {config : Configuration} {idxs : List Nat}
    (distinct : idxs.Nodup) (exactly : idxs.length = config.f + 1) (leader : 0 ∈ idxs) :
    First (Completes config (idxs.map (replyFrom seq))) config.f := by
  have taken : ∀ count, heardFrom ((idxs.map (replyFrom seq)).take count) =
      (idxs.take count).toFinset := by
    intro count
    rw [← List.map_take, heardFrom_map_replyFrom]
  constructor
  · have inside : config.f < idxs.length := by omega
    refine ⟨replyFrom seq idxs[config.f], by simp [inside], ?_, ?_⟩
    · rw [taken, ← exactly, List.take_length, List.toFinset_card_of_nodup distinct, exactly]
      exact Nat.le_refl _
    · rw [taken, ← exactly, List.take_length, List.mem_toFinset]
      simpa [Configuration.getLeaderIndex, replyFrom] using leader
  · rintro earlier before ⟨reply, _, quorum, _⟩
    rw [taken] at quorum
    have few := List.toFinset_card_le (idxs.take (earlier + 1))
    rw [List.length_take] at few
    unfold Configuration.quorumSize at quorum
    omega

/-- Each reply counts for one at most, and an 8-bit counter does not reach 256. -/
theorem quorum_le_of_tallies {replies : List DataReplyMessage} {e : InflightEntry}
    (tracked : c.inflight[seq]? = some e) (repliesTo : ∀ reply ∈ replies, reply.seqNum = seq)
    {position : Nat} (counted : (c.tallies overshift replies)[position]? = some (some seq)) :
    c.config.quorumSize ≤ e.replyCount.toNat + (position + 1) ∧ c.config.quorumSize ≤ 255 := by
  induction replies generalizing c e position with
  | nil => simp [tallies] at counted
  | cons reply rest inductionHypothesis =>
      obtain rfl : reply.seqNum = seq := repliesTo reply (List.mem_cons_self ..)
      have later : ∀ other ∈ rest, other.seqNum = reply.seqNum := fun other member =>
        repliesTo other (List.mem_cons_of_mem _ member)
      have step : (e.replyCount + 1).toNat ≤ e.replyCount.toNat + 1 := by
        rw [BitVec.toNat_add]
        exact Nat.mod_le _ _
      have byte : (e.replyCount + 1).toNat ≤ 255 := by
        have bounded := (e.replyCount + 1).isLt
        omega
      unfold tallies at counted
      rcases handleDataReply_cases overshift tracked with
        ⟨_, ignored⟩ | ⟨_, c', e', sameConfig, rfl, ⟨quorum, absent, done⟩ | ⟨_, tracked', waits⟩⟩
      · rw [ignored] at counted
        cases position with
        | zero => simp at counted
        | succ position =>
            rw [List.getElem?_cons_succ] at counted
            have rest' := inductionHypothesis tracked later counted
            omega
      · rw [done] at counted
        cases position with
        | zero =>
            rw [hasQuorum, Bool.and_eq_true, decide_eq_true_eq] at quorum
            have reached := quorum.1
            simp only at reached
            omega
        | succ position =>
            rw [List.getElem?_cons_succ] at counted
            exact absurd counted (tallies_of_absent overshift absent later position)
      · rw [waits] at counted
        cases position with
        | zero => simp at counted
        | succ position =>
            rw [List.getElem?_cons_succ] at counted
            have rest' := inductionHypothesis tracked' later counted
            rw [sameConfig] at rest'
            simp only at rest'
            omega

/-- With 256 and more replicas in a quorum, nothing is ever counted. -/
theorem not_countsRight_of_large (large : 255 ≤ c.config.f) (awaits : c.Awaits seq) :
    ¬ c.CountsRight overshift seq ((List.range (c.config.f + 1)).map (replyFrom seq)) := by
  intro right
  obtain ⟨e, tracked, _, _⟩ := awaits
  have first : First (Completes c.config ((List.range (c.config.f + 1)).map (replyFrom seq)))
      c.config.f :=
    first_completes_replyFrom List.nodup_range List.length_range (by simp)
  have few := (quorum_le_of_tallies overshift tracked (fun reply member => by
    obtain ⟨idx, _, rfl⟩ := List.mem_map.mp member
    rfl) ((right c.config.f).mpr first)).2
  unfold Configuration.quorumSize at few
  omega

/-- Bit 32 is whatever the program yields for the undefined shift. -/
theorem bit_thirtyTwo (overshift : Nat → BitVec 32) : bit overshift 32 = overshift 32 := by
  simp [bit]

/-- A reply that finds no mark and leaves the counter below the quorum is counted and waits. -/
theorem waits_of_few {e : InflightEntry} (idx : Nat) (tracked : c.inflight[seq]? = some e)
    (unmarked : e.replicaMask &&& bit overshift idx = 0)
    (few : (e.replyCount + 1).toNat < c.config.quorumSize) :
    ∃ (c' : Client) (e' : InflightEntry), c'.config = c.config ∧
      e' = { e with
        replicaMask := e.replicaMask ||| bit overshift idx
        replyCount := e.replyCount + 1 } ∧
      c'.inflight[seq]? = some e' ∧
        c.handleDataReply overshift (replyFrom seq idx) = (c', none) := by
  have tracked' : c.inflight[(replyFrom seq idx).seqNum]? = some e := tracked
  rcases handleDataReply_cases overshift tracked' with
    ⟨marked, _⟩ | ⟨_, c', e', sameConfig, same, ⟨quorum, _, _⟩ | ⟨_, waiting, waits⟩⟩
  · exact absurd unmarked marked
  · rw [hasQuorum, Bool.and_eq_true, decide_eq_true_eq, same] at quorum
    have reached := quorum.1
    simp only at reached
    omega
  · exact ⟨c', e', sameConfig, same, waiting, waits⟩

/-- The mark of replica 32 is that of a smaller one, whose reply is then taken for a repeated
one. -/
theorem not_countsRight_of_shared {e : InflightEntry} {j : Nat} {others : List Nat}
    (tracked : c.inflight[seq]? = some e) (noMask : e.replicaMask = 0) (noCount : e.replyCount = 0)
    (small : j < 32) (shared : (overshift 32).getLsbD j = true)
    (quorum : 2 ≤ c.config.f) (distinct : (32 :: j :: others).Nodup)
    (exactly : (32 :: j :: others).length = c.config.f + 1) (leader : 0 ∈ 32 :: j :: others) :
    ¬ c.CountsRight overshift seq ((32 :: j :: others).map (replyFrom seq)) := by
  intro right
  have counted := (right c.config.f).mpr (first_completes_replyFrom distinct exactly leader)
  have one : (e.replyCount + 1).toNat = 1 := by
    rw [noCount]
    rfl
  obtain ⟨c', e', sameConfig, rfl, waiting, waits⟩ := waits_of_few overshift 32
    tracked (by simp [noMask]) (by
      rw [one]
      unfold Configuration.quorumSize
      omega)
  have ignored : c'.handleDataReply overshift (replyFrom seq j) = (c', none) := by
    have waiting' : c'.inflight[(replyFrom seq j).seqNum]? = _ := waiting
    rcases handleDataReply_cases overshift waiting' with
      ⟨_, ignored⟩ | ⟨unmarked, _⟩
    · exact ignored
    · have marked : (e.replicaMask ||| bit overshift 32) &&& bit overshift j ≠ 0 := by
        apply (and_bit_ne_zero overshift small).mpr
        rw [noMask, bit_thirtyTwo]
        simpa using shared
      exact absurd unmarked marked
  obtain ⟨rest, position⟩ : ∃ rest, c.config.f = rest + 2 := ⟨c.config.f - 2, by omega⟩
  rw [List.map_cons, List.map_cons, tallies, waits, tallies, ignored, position,
    List.getElem?_cons_succ, List.getElem?_cons_succ] at counted
  have few := (quorum_le_of_tallies overshift waiting (fun reply member => by
    obtain ⟨idx, _, rfl⟩ := List.mem_map.mp member
    rfl) counted).1
  rw [sameConfig] at few
  simp only [one] at few
  unfold Configuration.quorumSize at few
  omega

/-- Replica 32 has no mark, so that each of its replies is counted anew. -/
theorem counted_of_void (void : overshift 32 = 0) (byte : c.config.f ≤ 254)
    (nonempty : 0 < c.config.n) {e : InflightEntry} {count : Nat}
    (tracked : c.inflight[seq]? = some e) (noMask : e.replicaMask = 0)
    (counted : e.replyCount.toNat + count = c.config.f) :
    (c.tallies overshift ((List.replicate count 32 ++ [0]).map (replyFrom seq)))[count]? =
      some (some seq) := by
  have next : (e.replyCount + 1).toNat = e.replyCount.toNat + 1 := by
    have one : (1 : BitVec 8).toNat = 1 := rfl
    rw [BitVec.toNat_add, one]
    apply Nat.mod_eq_of_lt
    omega
  induction count generalizing c e with
  | zero =>
      have tracked' : c.inflight[(replyFrom seq 0).seqNum]? = some e := tracked
      have leads : c.config.getLeaderIndex (replyFrom seq 0).viewId = 0 := by
        simp [Configuration.getLeaderIndex, replyFrom]
      rcases handleDataReply_cases overshift tracked' with
        ⟨marked, _⟩ | ⟨_, c', e', _, rfl, ⟨_, _, done⟩ | ⟨few, _, _⟩⟩
      · exact absurd (by simp [noMask]) marked
      · rw [List.replicate_zero, List.nil_append, List.map_singleton, tallies, done]
        rfl
      · -- the counter has reached the quorum, and the leader has just been marked
        have quorum : c.hasQuorum overshift { e with
            replicaMask := e.replicaMask ||| bit overshift (replyFrom seq 0).replicaIdx
            replyCount := e.replyCount + 1 } (replyFrom seq 0).viewId = true := by
          have marked : (bit overshift 0 &&& bit overshift 0) ≠ 0 := by
            apply (and_bit_ne_zero overshift (by decide)).mpr
            simp [bit]
          rw [hasQuorum, Bool.and_eq_true, decide_eq_true_eq, bne_iff_ne, leads, noMask]
          refine ⟨?_, by simpa [replyFrom] using marked⟩
          simp only [next]
          unfold Configuration.quorumSize
          omega
        rw [quorum] at few
        cases few
  | succ count inductionHypothesis =>
      obtain ⟨c', e', sameConfig, rfl, waiting, waits⟩ := waits_of_few overshift 32
        tracked (by simp [noMask]) (by
          rw [next]
          unfold Configuration.quorumSize
          omega)
      rw [List.replicate_succ, List.cons_append, List.map_cons, tallies, waits,
        List.getElem?_cons_succ]
      apply inductionHypothesis (by rw [sameConfig]; exact byte)
        (by rw [sameConfig]; exact nonempty) waiting
      · rw [bit_thirtyTwo, void, noMask]
        rfl
      · rw [sameConfig]
        simp only [next]
        omega
      · have one : (1 : BitVec 8).toNat = 1 := rfl
        simp only [BitVec.toNat_add (e.replyCount + 1), one, next]
        apply Nat.mod_eq_of_lt
        omega

/-- So two replicas make a quorum. -/
theorem not_countsRight_of_void (void : overshift 32 = 0) (byte : c.config.f ≤ 254)
    (nonempty : 0 < c.config.n) (quorum : 2 ≤ c.config.f) (awaits : c.Awaits seq) :
    ¬ c.CountsRight overshift seq
      ((List.replicate c.config.f 32 ++ [0]).map (replyFrom seq)) := by
  intro right
  obtain ⟨e, tracked, noMask, noCount⟩ := awaits
  have start : e.replyCount.toNat + c.config.f = c.config.f := by simp [noCount]
  have counted := counted_of_void overshift void byte nonempty tracked noMask start
  obtain ⟨_, _, reached, _⟩ := ((right c.config.f).mp counted).1
  have two : heardFrom (((List.replicate c.config.f 32 ++ [0]).map (replyFrom seq)).take
      (c.config.f + 1)) ⊆ {32, 0} := by
    intro idx heard
    rw [← List.map_take, heardFrom_map_replyFrom, List.mem_toFinset] at heard
    have member := List.mem_of_mem_take heard
    rcases List.mem_append.mp member with copy | last
    · simp [List.eq_of_mem_replicate copy]
    · simp [List.mem_singleton.mp last]
  have cards := Finset.card_le_card two
  have pair : ({32, 0} : Finset Nat).card = 2 := by decide
  unfold Configuration.quorumSize at reached
  omega

/-- A bare quorum can be chosen with replica 32, any smaller replica and the first one in it. -/
theorem exists_quorum_with {config : Configuration} {j : Nat} (balanced : config.Balanced)
    (wide : 32 < config.n) (small : j < 32) :
    ∃ others : List Nat, (32 :: j :: others).Nodup ∧
      (32 :: j :: others).length = config.f + 1 ∧ 0 ∈ 32 :: j :: others ∧
        ∀ idx ∈ 32 :: j :: others, idx < config.n := by
  unfold Configuration.Balanced at balanced
  have room : (((Finset.range config.n).erase 32).erase j).card = config.n - 2 := by
    rw [Finset.card_erase_of_mem, Finset.card_erase_of_mem, Finset.card_range]
    · omega
    · exact Finset.mem_range.mpr wide
    · exact Finset.mem_erase.mpr ⟨by omega, Finset.mem_range.mpr (by omega)⟩
  have includes : ({0} : Finset Nat).erase j ⊆ ((Finset.range config.n).erase 32).erase j := by
    apply Finset.erase_subset_erase
    intro idx zero
    rw [Finset.mem_singleton.mp zero]
    exact Finset.mem_erase.mpr ⟨by omega, Finset.mem_range.mpr (by omega)⟩
  have atMostOne : (({0} : Finset Nat).erase j).card ≤ config.f - 1 := by
    have cards := Finset.card_erase_le (s := ({0} : Finset Nat)) (a := j)
    rw [Finset.card_singleton] at cards
    omega
  obtain ⟨others, zeroIn, inGroup, exactly⟩ :=
    Finset.exists_subsuperset_card_eq includes atMostOne (by rw [room]; omega)
  have member : ∀ idx ∈ others, idx ≠ j ∧ idx ≠ 32 ∧ idx < config.n := by
    intro idx inOthers
    have inRange := inGroup inOthers
    rw [Finset.mem_erase, Finset.mem_erase, Finset.mem_range] at inRange
    exact inRange
  refine ⟨others.toList, ?_, ?_, ?_, ?_⟩
  · rw [List.nodup_cons, List.nodup_cons, List.mem_cons, Finset.mem_toList, Finset.mem_toList]
    refine ⟨?_, ?_, others.nodup_toList⟩
    · rintro (same | inOthers)
      · omega
      · exact (member 32 inOthers).2.1 rfl
    · intro inOthers
      exact (member j inOthers).1 rfl
  · rw [List.length_cons, List.length_cons, Finset.length_toList, exactly]
    omega
  · by_cases zero : j = 0
    · simp [zero]
    · have chosen : 0 ∈ others := zeroIn (Finset.mem_erase.mpr ⟨Ne.symm zero, by simp⟩)
      simp [chosen]
  · intro idx inList
    rcases List.mem_cons.mp inList with rfl | rest
    · exact wide
    · rcases List.mem_cons.mp rest with rfl | inOthers
      · omega
      · exact (member idx (Finset.mem_toList.mp inOthers)).2.2

/-- Whatever the undefined shift yields, more than 32 replicas have some replies of the first
view counted wrong. -/
theorem exists_not_countsRight (balanced : c.config.Balanced) (wide : 32 < c.config.n)
    (awaits : c.Awaits seq) :
    ∃ replies, RepliesTo c.config seq replies ∧ (∀ reply ∈ replies, reply.viewId = 0) ∧
      ¬ c.CountsRight overshift seq replies := by
  have inView : ∀ idxs : List Nat, ∀ reply ∈ idxs.map (replyFrom seq), reply.viewId = 0 := by
    intro idxs reply member
    obtain ⟨idx, _, rfl⟩ := List.mem_map.mp member
    rfl
  have double : c.config.n = 2 * c.config.f + 1 := balanced
  by_cases large : 255 ≤ c.config.f
  · refine ⟨_, repliesTo_replyFrom ?_, inView _,
      not_countsRight_of_large overshift large awaits⟩
    intro idx inRange
    have bounded := List.mem_range.mp inRange
    omega
  · by_cases void : overshift 32 = 0
    · refine ⟨_, repliesTo_replyFrom ?_, inView _,
        not_countsRight_of_void overshift void (by omega) (by omega) (by omega) awaits⟩
      intro idx inList
      rcases List.mem_append.mp inList with copy | last
      · rw [List.eq_of_mem_replicate copy]
        exact wide
      · rw [List.mem_singleton.mp last]
        omega
    · obtain ⟨j, small, shared⟩ : ∃ j, j < 32 ∧ (overshift 32).getLsbD j = true := by
        by_contra clear
        apply void
        apply BitVec.eq_of_getLsbD_eq
        intro j small
        have unset : (overshift 32).getLsbD j ≠ true := fun set => clear ⟨j, small, set⟩
        simpa using unset
      obtain ⟨e, tracked, noMask, noCount⟩ := awaits
      obtain ⟨others, distinct, exactly, leader, inGroup⟩ :=
        exists_quorum_with balanced wide small
      exact ⟨_, repliesTo_replyFrom inGroup, inView _,
        not_countsRight_of_shared overshift tracked noMask noCount small shared (by omega)
          distinct exactly leader⟩

end Client

/-- Replies for an outstanding slot are handled without an undefined shift and counted right if and
only if none that is handled before the rule is complete, or completes it, needs a bit beyond the
word, and the one that completes it is the first from its replica. In a group of more than 32
replicas some replies of one view are counted wrong, whatever the undefined shift yields. -/
theorem countsRight_iff (config : Configuration) (balanced : config.Balanced) :
    (∀ (overshift : Nat → BitVec 32) (c : Client) (seq : Nat) (replies : List DataReplyMessage),
        c.config = config → c.Awaits seq → RepliesTo config seq replies →
          (c.Defined overshift replies ∧ c.CountsRight overshift seq replies ↔
            (∀ position, (∀ earlier, earlier < position → ¬ Completes config replies earlier) →
              Narrow config replies position) ∧
            ∀ position, First (Completes config replies) position → Fresh replies position)) ∧
      (32 < config.n → ∀ (overshift : Nat → BitVec 32) (c : Client) (seq : Nat),
        c.config = config → c.Awaits seq →
          ∃ replies, RepliesTo config seq replies ∧ (∀ reply ∈ replies, reply.viewId = 0) ∧
            ¬ c.CountsRight overshift seq replies) := by
  constructor
  · rintro overshift c seq replies rfl ⟨e, tracked, noMask, noCount⟩ repliesTo
    have counted := Client.countsAfter_iff overshift []
      (fun reply member => (repliesTo reply member).1) tracked (Marks.empty noMask noCount)
      (by simp [heardFrom]) (fun earlier before => absurd before (Nat.not_lt_zero earlier))
    unfold Client.CountsAfter at counted
    simp only [List.nil_append, List.length_nil, Nat.zero_add] at counted
    unfold Client.CountsRight
    rw [counted]
    constructor
    · intro ordered
      exact ⟨fun position => ordered.narrow position (Nat.zero_le _),
        fun position => ordered.fresh position (Nat.zero_le _)⟩
    · rintro ⟨narrow, fresh⟩
      exact ⟨fun position _ => narrow position, fun position _ => fresh position⟩
  · rintro wide overshift c seq rfl awaits
    exact Client.exists_not_countsRight overshift balanced wide awaits

/-- A client that has sent its first request. -/
def waiting (config : Configuration) : Client :=
  (({ config, clientId := 7, intervalMs := 10, resendMs := 0 } : Client).sendData 1 1 0 1 0).1

/-- The client waits for its first slot. -/
theorem awaits_waiting (config : Configuration) : (waiting config).Awaits 1 := by
  let e : InflightEntry :=
    { sendTimeNs := 0, firstSendTimeNs := 0, replicaMask := 0, replyCount := 0, appReqId := 1,
      attempts := 1, resendTimerId := 0 }
  have sent : (waiting config).inflight[1]? = some e := by simp [waiting, Client.sendData, e]
  exact ⟨e, sent, rfl, rfl⟩

/-- The shift of a machine that takes the shift count modulo the width of the word. -/
def wrapped (i : Nat) : BitVec 32 := 1#32 <<< (i % 32)

/-- In a group of 33, a quorum of the first 17 replicas is counted right. -/
theorem countsRight_lower :
    (waiting { n := 33, f := 16 }).Defined wrapped ((List.range 17).map (Client.replyFrom 1)) ∧
      (waiting { n := 33, f := 16 }).CountsRight wrapped 1
        ((List.range 17).map (Client.replyFrom 1)) := by
  have group : RepliesTo { n := 33, f := 16 } 1 ((List.range 17).map (Client.replyFrom 1)) :=
    Client.repliesTo_replyFrom (by decide)
  have own : ∀ {position : Nat} {reply : DataReplyMessage},
      ((List.range 17).map (Client.replyFrom 1))[position]? = some reply →
        position < 17 ∧ reply = Client.replyFrom 1 position := by
    intro position reply found
    rw [List.getElem?_map, Option.map_eq_some_iff] at found
    obtain ⟨idx, atPosition, rfl⟩ := found
    obtain ⟨inside, rfl⟩ := List.getElem?_eq_some_iff.mp atPosition
    rw [List.length_range] at inside
    rw [List.getElem_range]
    exact ⟨inside, rfl⟩
  apply ((countsRight_iff { n := 33, f := 16 } (by decide)).1 wrapped _ 1 _ rfl
    (awaits_waiting _) group).mpr
  constructor
  · intro position _ reply found
    obtain ⟨inside, rfl⟩ := own found
    exact ⟨Nat.lt_trans inside (by decide), fun _ _ => by
      simp [Configuration.getLeaderIndex, Client.replyFrom]⟩
  · rintro position ⟨⟨reply, found, _⟩, _⟩
    obtain ⟨_, rfl⟩ := own found
    refine ⟨_, found, ?_⟩
    rw [← List.map_take, Client.heardFrom_map_replyFrom, List.mem_toFinset, List.take_range]
    intro earlier
    exact absurd (Nat.lt_of_lt_of_le (List.mem_range.mp earlier) (Nat.min_le_left ..))
      (Nat.lt_irrefl _)

set_option maxRecDepth 10000 in
/-- In a group of 33, replica 32 is mistaken for the leader: the replies of replicas 32 and
1 to 16 are counted as a quorum that includes replica 0. -/
theorem not_countsRight_wrapped :
    ¬ ∀ (config : Configuration) (overshift : Nat → BitVec 32) (c : Client) (seq : Nat)
      (replies : List DataReplyMessage), config.Balanced → c.config = config → c.Awaits seq →
        RepliesTo config seq replies → c.CountsRight overshift seq replies := by
  intro always
  have right := always { n := 33, f := 16 } wrapped (waiting { n := 33, f := 16 }) 1
    ((32 :: List.range' 1 16).map (Client.replyFrom 1)) (by decide) rfl (awaits_waiting _)
    (Client.repliesTo_replyFrom (by decide)) 16
  obtain ⟨reply, found, _, leader⟩ := (right.mp (by decide)).1
  obtain rfl := Option.some.inj found
  exact absurd leader (by decide)

end PaxosBus.Bus

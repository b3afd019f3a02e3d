import Mathlib.Data.Prod.Lex
import PaxosBus.Library.OrderedSet
import PaxosBus.NoPaxos.Framing
import PaxosBus.NoPaxos.Representation

/-!
# The order of the pending requests

The set of the pending requests is ordered by a comparator that should go by the
session first. It looks at the number in the session even if the first request
is of the later one, so that it puts two requests before each other where the
one of the earlier session has the larger number. Where no two such requests
meet, the set is in the order of the sequencer and drained in this order, and
what remains has to wait.
-/

set_option autoImplicit false

namespace PaxosBus.NoPaxos

open PaxosBus.Library
open OrderedSet (ByKey Ascending)
open Trace (Covers)

/-! ## The comparators -/

/-- `ComparePendingRequests`. -/
def comparePendingRequests (first second : RequestMessage) : Bool :=
  if first.sessnum ≠ second.sessnum then
    first.sessnum < second.sessnum
  else
    first.msgnum < second.msgnum

/-- `__pendreq_key_compare`, the comparator of the set. -/
def pendreqKeyCompare (lhs rhs : RequestMessage) : Bool :=
  if lhs.sessnum < rhs.sessnum then true else lhs.msgnum < rhs.msgnum

/-- The slot of a request, in the order of the sequencer. -/
def RequestMessage.slot (msg : RequestMessage) : ℕ ×ₗ ℕ := toLex (msg.sessnum, msg.msgnum)

/-- The first request is of an earlier session, and its number is larger. -/
def Inverted (a b : RequestMessage) : Prop := a.sessnum < b.sessnum ∧ b.msgnum < a.msgnum

variable {a b : RequestMessage}

theorem slot_lt : a.slot < b.slot ↔
    a.sessnum < b.sessnum ∨ a.sessnum = b.sessnum ∧ a.msgnum < b.msgnum :=
  Prod.Lex.toLex_lt_toLex

/-- `ComparePendingRequests` goes by the slots. -/
theorem comparePendingRequests_iff : comparePendingRequests a b = true ↔ a.slot < b.slot := by
  rw [slot_lt]
  unfold comparePendingRequests
  split
  next different => simp [different]
  next same => simp [not_not.mp same]

/-- The two comparators differ on inverted requests only. -/
theorem pendreqKeyCompare_eq_iff :
    pendreqKeyCompare a b = comparePendingRequests a b ↔ ¬ Inverted b a := by
  unfold Inverted pendreqKeyCompare comparePendingRequests
  split
  next earlier => simp [earlier.ne, earlier, earlier.not_gt]
  next notEarlier =>
      split
      next different =>
          have later : b.sessnum < a.sessnum := by omega
          simp [notEarlier, later]
      next same => simp [not_not.mp same]

/-- Where no requests are inverted, the comparator of the set goes by the slots. -/
theorem byKey_of_not_inverted (notBefore : ¬ Inverted a b) (notAfter : ¬ Inverted b a) :
    ByKey pendreqKeyCompare RequestMessage.slot a b := by
  constructor
  · rw [pendreqKeyCompare_eq_iff.mpr notAfter, comparePendingRequests_iff]
  · rw [pendreqKeyCompare_eq_iff.mpr notBefore, comparePendingRequests_iff]

/-! ## Draining the set -/

/-- A request that `TryProcessClientRequest` has done with, for a replica in this state. -/
def Replica.CanProcess (r : Replica) (msg : RequestMessage) : Prop :=
  r.status = .normal ∧ (msg.sessnum < r.sessnum ∨ msg.sessnum = r.sessnum ∧ msg.msgnum ≤ r.nextMsgnum)

/-- How the requests leave the set, one after the other. -/
inductive Drains (setup : Setup) (app : App) : Replica → List RequestMessage → Replica → Prop where
  | empty {r : Replica} (nothing : r.pendingRequests = []) : Drains setup app r [] r
  | waits {r : Replica} {msg : RequestMessage} {rest : List RequestMessage}
      (front : r.pendingRequests = msg :: rest)
      (unprocessed : (tryProcessClientRequest setup app msg r).value ≠ some true) :
      Drains setup app r [] (tryProcessClientRequest setup app msg r).state
  | takes {r last : Replica} {msg : RequestMessage} {rest taken : List RequestMessage}
      (front : r.pendingRequests = msg :: rest)
      (processed : (tryProcessClientRequest setup app msg r).value = some true)
      (others : Drains setup app
        { (tryProcessClientRequest setup app msg r).state with pendingRequests := rest }
        taken last) :
      Drains setup app r (msg :: taken) last

/-- The application's choice is the front of the set. -/
def App.inOrder (app : App) : App := { app with first := fun _ => 0 }

variable {setup : Setup} {app : App} {r : Replica} {msg : RequestMessage}
  {rest : List RequestMessage}

/-- A replica that starts a view change is not in its normal status. -/
theorem startViewChange_changes {sessnum view : Nat} :
    Ensures (startViewChange setup sessnum view) r fun _ r' => r'.status = .viewChange := by
  refine .bind (.get trivial fun _ => .bind (.require trivial fun _ _ => ?_))
  refine .bind (.change trivial fun _ => .bind (.get trivial fun _ => ?_))
  refine .bind (.emit trivial trivial fun _ => .branch (fun _ => .change trivial rfl) fun _ => ?_)
  exact .bind (.emit trivial trivial fun _ => .change trivial rfl)

/-- `TryProcessClientRequest` has done with a request only if the replica can process it. If it has
to wait, so has everything after it. -/
theorem tryProcessClientRequest_ensures : Ensures (tryProcessClientRequest setup app msg) r
    fun processed r' => (processed = true → r.CanProcess msg) ∧
      (processed = false → ∀ other : RequestMessage, msg.slot ≤ other.slot →
        ¬ r'.CanProcess other) := by
  apply Logic.Meets.bind
  refine .get trivial fun _ => .branch (fun abnormal => ?_) fun normal => ?_
  · exact .pure trivial ⟨fun no => (nomatch no), fun _ _ _ can => abnormal can.1⟩
  have normal := not_not.mp normal
  refine .branch (fun older => .pure trivial ⟨fun _ => ⟨normal, .inl older⟩, ?_⟩) fun notOlder => ?_
  · exact fun no => nomatch no
  refine .branch (fun newer => ?_) fun notNewer => ?_
  · -- A new session, which the replica has to move to first.
    refine .bind (startViewChange_changes.imp fun _ _ r' _ changing _ => .pure trivial ?_)
    refine ⟨fun no => (nomatch no), fun _ _ _ can => ?_⟩
    exact absurd (changing.symm.trans can.1) (by decide)
  have same : msg.sessnum = r.sessnum := by omega
  refine .branch (fun older => .pure trivial ⟨fun _ => ⟨normal, .inr ⟨same, older.le⟩⟩, ?_⟩)
    fun notOlder => ?_
  · exact fun no => nomatch no
  refine .branch (fun ahead => ?_) fun notAhead => ?_
  · have waits : ∀ r' : Replica, r'.sessnum = r.sessnum → r'.nextMsgnum = r.nextMsgnum →
        ∀ other : RequestMessage, msg.slot ≤ other.slot → ¬ r'.CanProcess other := by
      rintro r' sessnum next other after ⟨-, older | ⟨current, reached⟩⟩
      all_goals rw [← not_lt, slot_lt] at after; omega
    refine .branch (fun _ => .pure trivial ⟨fun no => (nomatch no), fun _ => waits r rfl rfl⟩)
      fun _ => ?_
    refine .bind (.change trivial fun _ => .pure trivial ⟨fun no => (nomatch no), fun _ => ?_⟩)
    exact waits _ rfl rfl
  · have any : Ensures (processNextOperation setup app msg.req
        { view := r.view, opnum := r.lastOp + 1, sessnum := msg.sessnum, msgnum := msg.msgnum }
        .received) r fun _ _ => True :=
      ⟨(), trivial, fun _ _ => trivial, trivial, fun _ _ => trivial⟩
    refine .bind (any.imp fun _ _ r' _ _ _ => .pure trivial ?_)
    exact ⟨fun _ => ⟨normal, .inr ⟨same, by omega⟩⟩, fun no => nomatch no⟩

/-- How a handler treats the set of the pending requests. -/
def keepingPending : Trace Replica Output where
  Rel r _ r' := r'.pendingRequests = r.pendingRequests
  refl _ := rfl
  trans before after := after.trans before

theorem indifferent_keepingPending : Indifferent keepingPending where
  change same := same
  emit _ _ _ := rfl

/-- The front of a set that is in order. -/
theorem firstPending_inOrder (ascending : Ascending RequestMessage.slot (msg :: rest)) :
    firstPending app.inOrder (msg :: rest) = some msg := by
  obtain ⟨after, -⟩ := List.pairwise_cons.mp ascending
  rw [firstPending]
  split
  next single =>
      have unchanged : ∀ others ⊆ rest, others.foldl earlier msg = msg := by
        intro others
        induction others with
        | nil => exact fun _ => rfl
        | cons other others inductionHypothesis =>
            intro within
            have member : other ∈ rest := within List.mem_cons_self
            have same := of_decide_eq_true (List.all_eq_true.mp single other member)
            have notBefore : ¬ other.msgnum < msg.msgnum := by
              have later := after other member
              rw [slot_lt] at later
              omega
            rw [List.foldl_cons, earlier, if_neg notBefore]
            exact inductionHypothesis (List.subset_of_cons_subset within)
      rw [unchanged rest (List.Subset.refl _)]
  next => rfl

/-- `ProcessPendingRequests` takes requests from the front of the set, in its order, and where it
ends without stopping the replica, nothing that is left can be processed. -/
structure DrainsInOrder (setup : Setup) (app : App) (r : Replica)
    (outcome : Outcome Replica Output Unit) : Prop where
  front : ∃ taken, Drains setup app.inOrder r taken outcome.state ∧
    r.pendingRequests = taken ++ outcome.state.pendingRequests
  rest : outcome.value.isSome → ∀ msg ∈ outcome.state.pendingRequests,
    (tryProcessClientRequest setup app.inOrder msg outcome.state).value ≠ some true

theorem unprocessed_of_not_canProcess (cannot : ¬ r.CanProcess msg) :
    (tryProcessClientRequest setup app msg r).value ≠ some true := by
  intro processed
  have ensures : Ensures (tryProcessClientRequest setup app msg) r _ :=
    tryProcessClientRequest_ensures
  obtain ⟨_, -, -, -, post⟩ := ensures
  exact cannot ((post true processed).1 rfl)

/-- One round of the loop. -/
theorem processPending_succ {rounds : Nat} (front : r.pendingRequests = msg :: rest)
    (ascending : Ascending RequestMessage.slot r.pendingRequests) :
    processPending setup app.inOrder (rounds + 1) r =
      (tryProcessClientRequest setup app.inOrder msg >>= fun processed =>
        if processed then
          (Handler.modify fun r => { r with pendingRequests := r.pendingRequests.erase msg }) >>=
            fun _ => processPending setup app.inOrder rounds
        else
          pure ()) r := by
  have first : firstPending app.inOrder r.pendingRequests = some msg := by
    rw [front] at ascending ⊢
    exact firstPending_inOrder ascending
  conv_lhs =>
    unfold processPending
  rw [Handler.get_bind, first]

/-- The loop drains the set in its order. -/
theorem processPending_drains (pending : List RequestMessage) (same : r.pendingRequests = pending)
    (ascending : Ascending RequestMessage.slot pending) :
    DrainsInOrder setup app r (processPending setup app.inOrder pending.length r) := by
  induction pending generalizing r with
  | nil =>
      have ended : processPending setup app.inOrder 0 r = ⟨r, [], some ()⟩ := rfl
      rw [List.length_nil, ended]
      refine ⟨⟨[], .empty same, rfl⟩, fun _ msg member => ?_⟩
      rw [same] at member
      nomatch member
  | cons msg rest inductionHypothesis =>
      obtain ⟨after, sorted⟩ := List.pairwise_cons.mp ascending
      have unchanged : (tryProcessClientRequest setup app.inOrder msg r).state.pendingRequests =
          r.pendingRequests := indifferent_keepingPending.framed.tryProcessClientRequest msg r
      have ensures : Ensures (tryProcessClientRequest setup app.inOrder msg) r _ :=
        tryProcessClientRequest_ensures
      obtain ⟨_, -, -, -, post⟩ := ensures
      have waits : (tryProcessClientRequest setup app.inOrder msg r).value ≠ some true →
          Drains setup app.inOrder r [] (tryProcessClientRequest setup app.inOrder msg r).state :=
        .waits same
      have takes : ∀ {taken last}, (tryProcessClientRequest setup app.inOrder msg r).value =
          some true → Drains setup app.inOrder
            { (tryProcessClientRequest setup app.inOrder msg r).state with
              pendingRequests := rest } taken last →
          Drains setup app.inOrder r (msg :: taken) last := .takes same
      rw [List.length_cons, processPending_succ same (same ▸ ascending)]
      rcases tried : tryProcessClientRequest setup app.inOrder msg r with ⟨state, outputs, value⟩
      rw [tried] at unchanged post waits takes
      rcases value with _ | _ | _
      · rw [Handler.bind_of_stopped tried]
        exact ⟨⟨[], waits (by simp), unchanged.symm⟩, fun no => nomatch no⟩
      · rw [Handler.bind_of_ended tried]
        have waiting := (post false rfl).2 rfl
        refine ⟨⟨[], waits (by simp), unchanged.symm⟩, fun _ other member => ?_⟩
        change other ∈ state.pendingRequests at member
        rw [unchanged, same] at member
        apply unprocessed_of_not_canProcess (waiting other _)
        rcases List.mem_cons.mp member with rfl | inRest
        · exact le_rfl
        · exact (after other inRest).le
      · rw [Handler.bind_of_ended tried]
        have front : state.pendingRequests.erase msg = rest := by
          rw [unchanged, same, List.erase_cons_head]
        have erased : (Handler.modify fun r : Replica =>
            { r with pendingRequests := r.pendingRequests.erase msg } : Run Unit) state =
              ⟨{ state with pendingRequests := rest }, [], some ()⟩ := by
          rw [← front]
          rfl
        rw [if_pos rfl, Handler.bind_of_ended erased]
        obtain ⟨⟨taken, drains, split⟩, ends⟩ :=
          inductionHypothesis (r := { state with pendingRequests := rest }) rfl sorted
        refine ⟨⟨msg :: taken, takes rfl drains, ?_⟩, ends⟩
        rw [same, List.cons_append]
        exact congrArg (msg :: ·) split

/-- `ProcessPendingRequests` drains a set that is in its order. -/
theorem processPendingRequests_drains
    (ascending : Ascending RequestMessage.slot r.pendingRequests) :
    DrainsInOrder setup app r (processPendingRequests setup app.inOrder r) := by
  have unfolded : processPendingRequests setup app.inOrder r =
      (if r.status ≠ .normal then (pure () : Run Unit)
        else processPending setup app.inOrder r.pendingRequests.length) r := rfl
  rw [unfolded]
  split
  next abnormal =>
      have waits : ∀ msg, tryProcessClientRequest setup app.inOrder msg r =
          ⟨r, [], some false⟩ := by
        intro msg
        have unfolded : tryProcessClientRequest setup app.inOrder msg r =
            (if r.status ≠ .normal then (pure false : Run Bool) else _) r := rfl
        rw [unfolded, if_pos abnormal]
        rfl
      constructor
      · refine ⟨[], ?_, rfl⟩
        change Drains setup app.inOrder r [] r
        cases pending : r.pendingRequests with
        | nil => exact .empty pending
        | cons msg rest =>
            have stays : Drains setup app.inOrder r []
                (tryProcessClientRequest setup app.inOrder msg r).state :=
              .waits pending (by rw [waits]; simp)
            rwa [waits] at stays
      · intro _ msg _
        change (tryProcessClientRequest setup app.inOrder msg r).value ≠ some true
        rw [waits]
        simp
  next => exact processPending_drains r.pendingRequests rfl ascending

/-! ## Insertions and drains -/

/-- What happens to the set: a request is inserted, or the set is drained by a replica in some
state. -/
inductive PendingEvent where
  | insert (msg : RequestMessage)
  | drain (setup : Setup) (app : App) (r : Replica)

/-- The set in its order after an event. -/
def PendingEvent.apply (pending : List RequestMessage) : PendingEvent → List RequestMessage
  | .insert msg => OrderedSet.insert pendreqKeyCompare msg pending
  | .drain setup app r =>
    (processPendingRequests setup app.inOrder
      { r with pendingRequests := pending }).state.pendingRequests

/-- The set in its order after some events. -/
def pendingAfter (events : List PendingEvent) : List RequestMessage :=
  events.foldl PendingEvent.apply []

/-- `AddPendingRequest` on the elements of the set in any order. -/
theorem addPendingRequest_perm {pending : List RequestMessage}
    (same : r.pendingRequests.Perm pending) (ascending : Ascending RequestMessage.slot pending)
    (byKey : ∀ other ∈ pending, ByKey pendreqKeyCompare RequestMessage.slot msg other) :
    (r.addPendingRequest msg).pendingRequests.Perm
      (PendingEvent.apply pending (.insert msg)) := by
  have known : (r.pendingRequests.any fun other =>
      other.sessnum = msg.sessnum ∧ other.msgnum = msg.msgnum) ↔
        msg.slot ∈ pending.map RequestMessage.slot := by
    rw [List.any_eq_true, List.mem_map]
    simp only [same.mem_iff, RequestMessage.slot, EmbeddingLike.apply_eq_iff_eq, Prod.mk.injEq,
      decide_eq_true_eq]
  have inserted := OrderedSet.insert_perm byKey ascending
  unfold Replica.addPendingRequest
  split
  next there =>
      rw [if_pos (known.mp there)] at inserted
      exact same.trans inserted.symm
  next new =>
      rw [if_neg fun member => new (known.mpr member)] at inserted
      exact (List.perm_append_singleton msg _).trans ((same.cons msg).trans inserted.symm)

/-- The set is in the order of the sequencer in the course of these events. -/
structure KeepsOrder (events : List PendingEvent) : Prop where
  strictWeakOrder : IsStrictWeakOrder {msg : RequestMessage // .insert msg ∈ events}
    fun a b => pendreqKeyCompare a b = true
  agrees : ∀ a b, .insert a ∈ events → .insert b ∈ events →
    pendreqKeyCompare a b = comparePendingRequests a b
  ordered : ∀ before, before <+: events →
    (pendingAfter before).Pairwise fun a b => comparePendingRequests a b = true
  once : ∀ before, before <+: events → ((pendingAfter before).map RequestMessage.slot).Nodup
  inserts : ∀ before msg, before ++ [.insert msg] <+: events → ∀ slot,
    slot ∈ (pendingAfter (before ++ [.insert msg])).map RequestMessage.slot ↔
      slot = msg.slot ∨ slot ∈ (pendingAfter before).map RequestMessage.slot
  drains : ∀ before setup app r, before ++ [.drain setup app r] <+: events →
    DrainsInOrder setup app { r with pendingRequests := pendingAfter before }
      (processPendingRequests setup app.inOrder { r with pendingRequests := pendingAfter before })

theorem pendingAfter_append_singleton {before : List PendingEvent} {event : PendingEvent} :
    pendingAfter (before ++ [event]) = event.apply (pendingAfter before) := by
  unfold pendingAfter
  rw [List.foldl_append, List.foldl_cons, List.foldl_nil]

section

variable {events : List PendingEvent}

/-- No two of the inserted requests are inverted. -/
def Regular (events : List PendingEvent) : Prop :=
  ∀ a b, .insert a ∈ events → .insert b ∈ events → ¬ Inverted a b

/-- The set has only inserted requests, in the order of their slots. -/
structure Sorted (events : List PendingEvent) : Prop where
  inserted : ∀ msg ∈ pendingAfter events, .insert msg ∈ events
  ascending : Ascending RequestMessage.slot (pendingAfter events)

/-- The comparator goes by the slots of a new request and those in the set. -/
theorem Sorted.byKey {msg : RequestMessage} (sorted : Sorted events)
    (regular : Regular (events ++ [.insert msg])) :
    ∀ other ∈ pendingAfter events, ByKey pendreqKeyCompare RequestMessage.slot msg other := by
  intro other member
  have before := List.mem_append_left [PendingEvent.insert msg] (sorted.inserted other member)
  have last : PendingEvent.insert msg ∈ events ++ [.insert msg] := by simp
  exact byKey_of_not_inverted (regular _ _ last before) (regular _ _ before last)

/-- Where no two requests are inverted the set is sorted. -/
theorem sorted_of_regular (regular : Regular events) : Sorted events := by
  induction events using List.reverseRecOn with
  | nil => exact ⟨fun _ none_ => (nomatch none_), List.Pairwise.nil⟩
  | append_singleton before event inductionHypothesis =>
      have sorted := inductionHypothesis fun a b inA inB =>
        regular a b (List.mem_append_left _ inA) (List.mem_append_left _ inB)
      cases event with
      | insert msg =>
          have byKey := sorted.byKey regular
          constructor
          · rw [pendingAfter_append_singleton]
            intro other member
            rcases (OrderedSet.mem_insert byKey sorted.ascending).mp member with old | ⟨rfl, -⟩
            · exact List.mem_append_left _ (sorted.inserted other old)
            · simp
          · rw [pendingAfter_append_singleton]
            exact OrderedSet.ascending_insert byKey sorted.ascending
      | drain setup app r =>
          have drained : DrainsInOrder setup app { r with pendingRequests := pendingAfter before }
              (processPendingRequests setup app.inOrder
                { r with pendingRequests := pendingAfter before }) :=
            processPendingRequests_drains sorted.ascending
          obtain ⟨taken, -, split⟩ := drained.front
          have sublist : (pendingAfter (before ++ [.drain setup app r])).Sublist
              (pendingAfter before) := by
            rw [pendingAfter_append_singleton]
            change pendingAfter before =
              taken ++ PendingEvent.apply (pendingAfter before) (.drain setup app r) at split
            have kept := List.sublist_append_right taken
              (PendingEvent.apply (pendingAfter before) (.drain setup app r))
            rwa [← split] at kept
          constructor
          · intro msg member
            exact List.mem_append_left _ (sorted.inserted msg (sublist.subset member))
          · exact sorted.ascending.sublist sublist

/-- The set is in the order of the sequencer if and only if no two requests that were inserted are
inverted. -/
theorem keepsOrder_iff : KeepsOrder events ↔ Regular events := by
  constructor
  · intro keeps a b inA inB inverted
    exact pendreqKeyCompare_eq_iff.mp (keeps.agrees b a inB inA) inverted
  · intro regular
    have agrees : ∀ a b, .insert a ∈ events → .insert b ∈ events →
        pendreqKeyCompare a b = comparePendingRequests a b :=
      fun a b inA inB => pendreqKeyCompare_eq_iff.mpr (regular b a inB inA)
    have regularBefore : ∀ before, before <+: events → Regular before :=
      fun before front a b inA inB => regular a b (front.subset inA) (front.subset inB)
    have bySlot : ∀ a b : {msg : RequestMessage // .insert msg ∈ events},
        pendreqKeyCompare a b = true ↔ a.1.slot < b.1.slot := by
      rintro ⟨a, inA⟩ ⟨b, inB⟩
      rw [agrees a b inA inB, comparePendingRequests_iff]
    constructor
    · simp only [bySlot]
      exact { irrefl := fun a => lt_irrefl a.1.slot
              trans := fun _ _ _ => lt_trans
              incomp_trans := fun a b c => by
                rintro ⟨notAB, notBA⟩ ⟨notBC, notCB⟩
                have same : a.1.slot = c.1.slot := (le_antisymm (not_lt.mp notBA)
                  (not_lt.mp notAB)).trans (le_antisymm (not_lt.mp notCB) (not_lt.mp notBC))
                exact ⟨same.not_lt, same.not_gt⟩ }
    · exact agrees
    · intro before front
      exact (sorted_of_regular (regularBefore before front)).ascending.imp
        comparePendingRequests_iff.mpr
    · exact fun before front => (sorted_of_regular (regularBefore before front)).ascending.nodup
    · intro before msg front slot
      have sorted := sorted_of_regular
        (regularBefore before ((List.prefix_append before _).trans front))
      rw [pendingAfter_append_singleton]
      exact OrderedSet.mem_keys_insert (sorted.byKey (regularBefore _ front)) sorted.ascending
    · intro before setup app r front
      apply processPendingRequests_drains
      exact (sorted_of_regular
        (regularBefore before ((List.prefix_append before _).trans front))).ascending

end

/-- A request of an earlier session with a larger number is pending when one of the next session
comes: each comes before the other. -/
theorem not_keepsOrder_inverted : ¬ ∀ events, KeepsOrder events := by
  intro always
  let request (sessnum msgnum : Nat) : RequestMessage :=
    { sessnum := sessnum, msgnum := msgnum, req := { op := "op", clientid := 0, clientreqid := 1 } }
  have agrees := (always [.insert (request 0 2), .insert (request 1 1)]).agrees (request 1 1)
    (request 0 2) (by simp) (by simp)
  exact absurd agrees (by decide)

end PaxosBus.NoPaxos

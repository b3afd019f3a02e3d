import PaxosBus.NoPaxos.Representation

/-!
# Rewinding the log

`RewindLogToOpnum` leaves one entry less than it is asked for, and no entry at
all is out of its reach. A replica that stays clear of it, and of a `StartView`
that takes one of its gaps away, is always represented by its fields; a replica
that rewinds is not.
-/

set_option autoImplicit false

namespace PaxosBus.NoPaxos

open PaxosBus.Common PaxosBus.Library
open Logic (Meets)

/-- The fields of a replica between handlers represent its log. -/
structure Replica.Represented (r : Replica) : Prop where
  lastOp : r.lastOp = r.log.lastOpnum
  holds : ∀ opnum, (∃ entry, r.log.find opnum = some entry ∧ entry.viewstamp.opnum = opnum) ↔
    1 ≤ opnum ∧ opnum ≤ r.lastOp
  length : r.log.entries.length = r.lastOp
  committed : r.lastCommittedOp ≤ r.lastOp
  executed : r.lastExecutedOp ≤ r.lastOp
  noop : ∀ op entry, op ≤ r.lastOp → r.log.find op = some entry →
    (entry.state = .noop ↔ op ∈ r.committedGaps)
  next : r.lastOp + 1 ∉ r.committedGaps

/-- A call of `RewindLogToOpnum` returns and leaves exactly the first entries. -/
def Replica.RewindsTo (r : Replica) (opnum : Nat) : Prop :=
  (rewindLogToOpnum opnum r).value = some () ∧
    (rewindLogToOpnum opnum r).state.log.entries = r.log.entries.take opnum

namespace Replica

variable {r : Replica}

/-- What the handlers keep is the representation. -/
theorem Tidy.represented (tidy : r.Tidy []) : r.Represented where
  lastOp := by rw [Log.lastOpnum_eq, tidy.lastOp]
  holds opnum := by
    constructor
    · rintro ⟨entry, found, -⟩
      obtain ⟨positive, there⟩ := Log.find_eq_some.mp found
      have := (List.getElem?_eq_some_iff.mp there).1
      have := tidy.lastOp
      omega
    · rintro ⟨positive, inside⟩
      have bound : opnum - 1 < r.log.entries.length := by
        have := tidy.lastOp
        omega
      refine ⟨r.log.entries[opnum - 1], Log.find_eq_some.mpr ⟨positive, ?_⟩, ?_⟩
      · exact List.getElem?_eq_getElem bound
      · have := r.log.numbered _ _ (List.getElem?_eq_getElem bound)
        omega
  length := tidy.lastOp.symm
  committed := tidy.committed
  executed := tidy.executed
  noop op entry _ found := by
    constructor
    · intro noop
      exact (tidy.noop op entry found noop).resolve_right List.not_mem_nil
    · exact tidy.gap op entry found
  next := tidy.next

/-- Where it returns, `RewindLogToOpnum` has removed the entry with the number as well. -/
theorem rewindLogToOpnum_ensures {opnum : Nat} (inside : opnum ≤ r.log.entries.length) :
    Ensures (rewindLogToOpnum opnum) r fun _ r' =>
      0 < opnum ∧ r'.log.entries = r.log.entries.take (opnum - 1) := by
  refine .bind (.get trivial fun _ => .bind (.require trivial fun _ _ => ?_))
  refine .bind (.require trivial fun _ _ => .bind (.change trivial fun _ => ?_))
  refine .bind (.demand trivial fun shorter removed _ => .change trivial ?_)
  exact Log.of_removeAfter removed inside

/-- Rewinding never leaves what it is asked for: the entry with the number goes as well, and there
is none with the number zero. -/
theorem Represented.not_rewindsTo (represented : r.Represented) {opnum : Nat}
    (inside : opnum ≤ r.lastOp) : ¬ r.RewindsTo opnum := by
  rintro ⟨returns, leaves⟩
  have length := represented.length
  obtain ⟨_, -, -, -, post⟩ := rewindLogToOpnum_ensures (r := r) (length ▸ inside)
  obtain ⟨positive, shorter⟩ := post () returns
  have lengths := congrArg List.length (leaves.symm.trans shorter)
  rw [List.length_take, List.length_take] at lengths
  omega

/-! ## What makes a replica rewind -/

/-- The replica has not been normal as late as a log from a session and view. -/
def Lags (r : Replica) (lastnormalsessnum lastnormalview : Nat) : Prop :=
  r.lastNormalSessnum < lastnormalsessnum ∨ r.lastNormalView < lastnormalview

instance (r : Replica) (lastnormalsessnum lastnormalview : Nat) :
    Decidable (r.Lags lastnormalsessnum lastnormalview) :=
  inferInstanceAs (Decidable (_ ∨ _))

/-- The replica starts a view with a `StartView`. -/
def Adopts (setup : Setup) (r : Replica) (msg : StartViewMessage) : Prop :=
  ¬ (msg.sessnum < r.sessnum ∨ msg.view < r.view) ∧
    ¬ (msg.sessnum = r.sessnum ∧ msg.view = r.view ∧ r.status ≠ .viewChange) ∧
    ¬ setup.AmLeader msg.view

instance (setup : Setup) (r : Replica) (msg : StartViewMessage) : Decidable (r.Adopts setup msg) :=
  inferInstanceAs (Decidable (_ ∧ _))

/-- The log that a view starts with is from where the replica was last normal. -/
def SameNormal (r : Replica) (msg : StartViewMessage) : Prop :=
  r.lastNormalSessnum = msg.lastnormalsessnum ∧ r.lastNormalView = msg.lastnormalview

instance (r : Replica) (msg : StartViewMessage) : Decidable (r.SameNormal msg) :=
  inferInstanceAs (Decidable (_ ∧ _))

/-- A `StartView` has another log than the replica, or a shorter one, or lacks its last gap. -/
def Outruns (r : Replica) (msg : StartViewMessage) : Prop :=
  r.Lags msg.lastnormalsessnum msg.lastnormalview ∨
    (r.SameNormal msg ∧ msg.lastop < r.lastOp) ∨ (r.outdatedGap msg).isSome

instance (r : Replica) (msg : StartViewMessage) : Decidable (r.Outruns msg) :=
  inferInstanceAs (Decidable (_ ∨ _))

/-- The replica as it is when it looks at a `ViewChange`. -/
def joined (r : Replica) (msg : ViewChangeMessage) : Replica :=
  if r.sessnum < msg.sessnum ∨ r.view < msg.view then
    r.changing (max r.sessnum msg.sessnum) (max r.view msg.view)
  else
    r

/-- Joining a view change does not matter for where the replica was last normal. -/
theorem lags_joined {msg : ViewChangeMessage} (r : Replica) (sessnum view : Nat) :
    (r.joined msg).Lags sessnum view ↔ r.Lags sessnum view := by
  unfold joined
  split <;> exact Iff.rfl

/-- The messages of a quorum that a `ViewChange` completes at the leader. -/
def quorumWith (setup : Setup) (r : Replica) (msg : ViewChangeMessage) :
    Option (List ViewChangeMessage) :=
  if (r.joined msg).status = .viewChange ∧ setup.AmLeader (r.joined msg).view ∧
      ¬ (msg.sessnum < (r.joined msg).sessnum ∨ msg.view < (r.joined msg).view) then
    ((r.joined msg).viewChangeQuorum.addAndCheckForQuorum (msg.sessnum, msg.view) msg.replicaIdx
      msg).2.map (·.values)
  else
    none

/-- A `ViewChange` completes a quorum, one of which has been normal later than the leader. -/
def Overtaken (setup : Setup) (r : Replica) (msg : ViewChangeMessage) : Prop :=
  ∃ msgs ∈ r.quorumWith setup msg,
    r.Lags ((r.joined msg).latest msgs).sessnum ((r.joined msg).latest msgs).view

instance (setup : Setup) (r : Replica) (msg : ViewChangeMessage) :
    Decidable (r.Overtaken setup msg) :=
  inferInstanceAs (Decidable (∃ msgs ∈ r.quorumWith setup msg, _))

/-- The message makes the replica call `RewindLogToOpnum`. -/
def Rewinds (setup : Setup) (r : Replica) : Message → Prop
  | .startView msg => r.Adopts setup msg ∧ r.Outruns msg
  | .viewChange msg => r.Overtaken setup msg
  | _ => False

instance (setup : Setup) (r : Replica) (msg : Message) : Decidable (r.Rewinds setup msg) := by
  cases msg <;> unfold Rewinds <;> infer_instance

/-- Where a `StartView` makes the replica rewind its log to. -/
def rewindPoints (r : Replica) (msg : StartViewMessage) : List Nat :=
  (if r.Lags msg.lastnormalsessnum msg.lastnormalview then
    [r.lastCommittedOp]
  else if r.SameNormal msg ∧ msg.lastop < r.lastOp then
    [msg.lastop]
  else
    []) ++ ((r.outdatedGap msg).map (· - 1)).toList

/-- The message makes the replica rewind its log below its last sync point. -/
def Undercuts (setup : Setup) (r : Replica) : Message → Prop
  | .startView msg => r.Adopts setup msg ∧
    ∃ opnum ∈ r.rewindPoints msg, opnum < r.leaderLastSyncPreparePoint
  | .viewChange msg => r.Overtaken setup msg ∧ r.lastCommittedOp < r.leaderLastSyncPreparePoint
  | _ => False

instance (setup : Setup) (r : Replica) (msg : Message) : Decidable (r.Undercuts setup msg) := by
  cases msg <;> unfold Undercuts <;> infer_instance

/-- The message makes the replica forget a gap whose NOOP stays in the log. -/
def ForgetsGap (setup : Setup) (r : Replica) : Message → Prop
  | .startView msg => r.Adopts setup msg ∧ r.SameNormal msg ∧
    ∃ gap ∈ r.committedGaps.elements, 1 ≤ gap ∧ gap ≤ r.lastOp ∧ gap ∉ msg.committedgaps
  | _ => False

instance (setup : Setup) (r : Replica) (msg : Message) : Decidable (r.ForgetsGap setup msg) := by
  cases msg <;> unfold ForgetsGap <;> infer_instance

end Replica

variable {setup : Setup} {app : App} {r : Replica}

/-! ## View changes without rewinding -/

/-- Nothing is rewound for a log that the replica has the beginning of. -/
theorem rewindForView_ensures {msg : StartViewMessage} (keeps : ¬ r.Outruns msg) :
    Ensures (rewindForView msg) r fun _ r' => r' = r ∧ r.SameNormal msg := by
  refine .bind (.get trivial fun _ => .branch (fun lags => ?_) fun _ => ?_)
  · exact absurd (.inl lags) keeps
  refine .bind (.require trivial fun sessnum _ => .bind (.require trivial fun view _ => ?_))
  refine .branch (fun shorter => ?_) fun _ => .pure trivial ⟨rfl, sessnum, view⟩
  exact absurd (.inr (.inl ⟨⟨sessnum, view⟩, shorter⟩)) keeps

/-- A replica that knows the gaps does not rewind. -/
theorem rewindForGap_ensures {msg : StartViewMessage} (keeps : ¬ r.Outruns msg) :
    Ensures (rewindForGap msg) r fun _ r' => r' = r := by
  refine .bind (.get trivial fun _ => ?_)
  split
  next lastGap outdated => exact absurd (.inr (.inr (outdated ▸ rfl))) keeps
  next => exact .pure trivial rfl

/-- The replica enters the view, or asks for what its log lacks. -/
theorem completeStartView_leaves {msg : StartViewMessage} :
    LeavesLog (completeStartView setup app msg) r := by
  refine leaves_bind get_leaves fun _ _ => .branch (fun _ => ?_) fun _ => enterView_leaves
  refine leaves_bind (change_leaves ⟨rfl, rfl, rfl, id, id⟩) fun _ r' => ?_
  refine leaves_bind (.emit trivial trivial (.refl r')) fun _ _ => ?_
  exact sendStateTransferRequest_leaves

/-- When the gaps are forgotten, their NOOPs wait for the gaps of the message. -/
theorem Replica.Tidy.forget (tidy : r.Tidy []) {gaps : List Nat}
    (keeps : ∀ gap ∈ r.committedGaps.elements, 1 ≤ gap → gap ≤ r.lastOp → gap ∈ gaps) :
    Replica.Tidy (gaps ++ []) { r with committedGaps := {} } where
  lastOp := tidy.lastOp
  committed := tidy.committed
  executed := tidy.executed
  gap _ _ _ member := absurd member OpnumSet.not_mem_empty
  noop opnum entry found noop := by
    have member := (tidy.noop opnum entry found noop).resolve_right List.not_mem_nil
    obtain ⟨positive, there⟩ := Log.find_eq_some.mp found
    have inside : opnum - 1 < r.log.entries.length := (List.getElem?_eq_some_iff.mp there).1
    have := tidy.lastOp
    refine .inr (List.mem_append_left _ (keeps opnum member positive ?_))
    omega
  next := OpnumSet.not_mem_empty

/-- Where nothing is rewound and no gap is forgotten, the gaps of the message are entered. -/
theorem handleStartView_tidies {msg : StartViewMessage} (tidy : r.Tidy [])
    (stays : ¬ r.Rewinds setup (.startView msg)) (remembers : ¬ r.ForgetsGap setup (.startView msg)) :
    Tidies (handleStartView setup app msg) r := by
  refine .bind (.get trivial fun _ => .branch (fun _ => .pure trivial tidy) fun current => ?_)
  refine .branch (fun _ => tidies_of_leaves sendStartViewReply_leaves tidy) fun new => ?_
  refine .bind (.require trivial fun follower _ => ?_)
  have adopts : r.Adopts setup msg := ⟨current, new, follower⟩
  have keeps : ¬ r.Outruns msg := fun outruns => stays ⟨adopts, outruns⟩
  refine .bind ((rewindForView_ensures keeps).imp ?_)
  rintro _ _ _ _ ⟨rfl, normal⟩ _
  refine .bind ((rewindForGap_ensures keeps).imp ?_)
  rintro _ _ _ _ rfl _
  refine .bind (.change trivial fun _ => .bind ?_)
  have forgotten := tidy.forget fun gap member positive inside => by
    by_contra missing
    exact remembers ⟨adopts, normal, gap, member, positive, inside, missing⟩
  refine (installCommittedGaps_ensures forgotten).imp fun _ _ r' _ tidy _ => ?_
  exact tidies_of_leaves completeStartView_leaves tidy

/-- A leader that has been normal as late as everyone of the quorum only installs gaps. -/
theorem mergeQuorum_tidies {msgs : List ViewChangeMessage} (tidy : r.Tidy [])
    (latest : ¬ r.Lags (r.latest msgs).sessnum (r.latest msgs).view) :
    Tidies (mergeQuorum setup app msgs) r := by
  refine .bind (.get trivial fun _ => .bind (.emit trivial trivial fun _ => ?_))
  refine .branch (fun lags => absurd lags latest) fun _ => ?_
  refine tidies_bind (mergeLogs_tidies tidy) fun _ _ tidy => ?_
  exact tidies_of_leaves completeMerge_leaves tidy

/-- A leader whose own view is the latest merges the gaps of the votes. -/
theorem joinedViewChange_tidies {remote : Address} {msg : ViewChangeMessage} (tidy : r.Tidy [])
    (latest : r.status = .viewChange → setup.AmLeader r.view →
      ¬ (msg.sessnum < r.sessnum ∨ msg.view < r.view) → ∀ msgs,
        (r.viewChangeQuorum.addAndCheckForQuorum (msg.sessnum, msg.view) msg.replicaIdx msg).2 =
          some msgs → ¬ r.Lags (r.latest msgs.values).sessnum (r.latest msgs.values).view) :
    Tidies (joinedViewChange setup app remote msg) r := by
  refine .bind (.get trivial fun _ => .branch (fun _ => .pure trivial tidy) fun current => ?_)
  refine .bind (.require trivial fun _ _ => .bind (.require trivial fun leader _ => ?_))
  refine .branch (fun _ => tidies_of_leaves sendMessage_leaves tidy) fun changing => ?_
  refine .bind (.change trivial fun _ => ?_)
  split
  next => exact .pure trivial (tidy.frame rfl rfl rfl rfl rfl)
  next msgs complete =>
      refine mergeQuorum_tidies (tidy.frame rfl rfl rfl rfl rfl) ?_
      exact latest (not_not.mp changing) leader current msgs complete

/-- The replica as it looks at the message, but for a timeout. -/
theorem startViewChange_joined {msg : ViewChangeMessage}
    (behind : r.sessnum < msg.sessnum ∨ r.view < msg.view) :
    Ensures (startViewChange setup msg.sessnum msg.view) r fun _ r' =>
      r' = { r.joined msg with viewChangeTimeout := true } := by
  refine .bind (.get trivial fun _ => .bind (.require trivial fun _ _ => ?_))
  refine .bind (.change trivial fun _ => .bind (.get trivial fun _ => ?_))
  rw [Replica.joined, if_pos behind]
  refine .bind (.emit trivial trivial fun _ => .branch (fun _ => .change trivial rfl) fun _ => ?_)
  exact .bind (.emit trivial trivial fun _ => .change trivial rfl)

/-- A vote makes the leader rewind only if its own view is not the latest. -/
theorem handleViewChange_tidies {remote : Address} {msg : ViewChangeMessage} (tidy : r.Tidy [])
    (stays : ¬ r.Rewinds setup (.viewChange msg)) :
    Tidies (handleViewChange setup app remote msg) r := by
  have latest : ∀ msgs, r.quorumWith setup msg = some msgs →
      ¬ r.Lags ((r.joined msg).latest msgs).sessnum ((r.joined msg).latest msgs).view :=
    fun msgs complete lags => stays ⟨msgs, complete, lags⟩
  have lags_joined : ∀ sessnum view, (r.joined msg).Lags sessnum view ↔ r.Lags sessnum view := by
    intro sessnum view
    unfold Replica.joined
    split <;> exact Iff.rfl
  have joined_latest : (r.joined msg).status = .viewChange → setup.AmLeader (r.joined msg).view →
      ¬ (msg.sessnum < (r.joined msg).sessnum ∨ msg.view < (r.joined msg).view) → ∀ msgs,
        ((r.joined msg).viewChangeQuorum.addAndCheckForQuorum (msg.sessnum, msg.view)
          msg.replicaIdx msg).2 = some msgs →
        ¬ (r.joined msg).Lags ((r.joined msg).latest msgs.values).sessnum
          ((r.joined msg).latest msgs.values).view := by
    intro changing leader current msgs complete
    rw [lags_joined]
    apply latest
    rw [Replica.quorumWith, if_pos ⟨changing, leader, current⟩, complete, Option.map_some]
  refine .bind (.get trivial fun _ => .branch (fun behind => ?_) fun current => ?_)
  · refine .bind (((startViewChange_joined behind).and_bare (startViewChange_tidies tidy)).imp ?_)
    rintro _ _ _ _ ⟨rfl, tidy⟩ _
    exact joinedViewChange_tidies tidy joined_latest
  · rw [Replica.joined, if_neg current] at joined_latest
    exact joinedViewChange_tidies tidy joined_latest

/-! ## The replica between handlers -/

/-- Any message that rewinds nothing and lets no gap be forgotten. -/
theorem receiveMessage_tidies {remote : Address} {msg : Message} (tidy : r.Tidy [])
    (stays : ¬ r.Rewinds setup msg) (remembers : ¬ r.ForgetsGap setup msg) :
    Tidies (receiveMessage setup app remote msg) r := by
  refine tidies_bind ?_ fun _ _ tidy => processPendingRequests_tidies tidy
  cases msg with
  | request msg => exact handleClientRequest_tidies tidy
  | unloggedRequest msg => exact tidies_of_leaves sendMessage_leaves tidy
  | gapRequest msg => exact handleGapRequest_tidies tidy
  | gapReply msg => exact handleGapReply_tidies tidy
  | gapCommit msg => exact handleGapCommit_tidies tidy
  | gapCommitReply msg => exact handleGapCommitReply_tidies tidy
  | stateTransferRequest msg => exact tidies_of_leaves handleStateTransferRequest_leaves tidy
  | stateTransferReply msg => exact handleStateTransferReply_tidies tidy
  | viewChangeRequest msg => exact handleViewChangeRequest_tidies tidy
  | viewChange msg => exact handleViewChange_tidies tidy stays
  | startView msg => exact handleStartView_tidies tidy stays remembers
  | startViewReply msg => exact tidies_of_leaves handleStartViewReply_leaves tidy
  | syncPrepare msg => exact handleSyncPrepare_tidies tidy
  | syncPrepareReply msg => exact handleSyncPrepareReply_tidies tidy
  | syncCommit msg => exact handleSyncCommit_tidies tidy
  | syncPrepareRequest | reply | unloggedReply => exact .stop trivial

/-- A replica starts with no log and no gaps. -/
theorem constructed_tidy : (Replica.constructed setup).Tidy [] where
  lastOp := rfl
  committed := Nat.le_refl 0
  executed := Nat.le_refl 0
  gap _ _ _ member := absurd member OpnumSet.not_mem_empty
  noop opnum entry found _ := by
    obtain ⟨-, there⟩ := Log.find_eq_some.mp found
    exact absurd there (by simp [Replica.constructed])
  next := OpnumSet.not_mem_empty

/-- A packet that a replica must not get. -/
def Packet.Reaches (bad : Nat → Message → Prop) (packet : Packet) : Prop :=
  match packet.dst with
  | .replica idx => bad idx packet.msg
  | .client _ => False

instance (bad : Nat → Message → Prop) [∀ idx msg, Decidable (bad idx msg)] (packet : Packet) :
    Decidable (packet.Reaches bad) := by
  unfold Packet.Reaches
  cases packet.dst <;> infer_instance

namespace System

variable (d : Deployment)

/-- The action does not deliver to a replica what it must not get. -/
def Avoids (s : System) (bad : Setup → Replica → Message → Prop) : Action → Prop
  | .deliver position _ => ∀ packet ∈ s.network[position]?,
    ¬ packet.Reaches fun idx msg => bad (d.setup idx) (s.replicas idx) msg
  | _ => True

instance (s : System) (bad : Setup → Replica → Message → Prop)
    [∀ setup r msg, Decidable (bad setup r msg)] (action : Action) :
    Decidable (s.Avoids d bad action) := by
  cases action <;> unfold Avoids <;> infer_instance

/-- The message makes the replica rewind its log, or forget a gap of it. -/
def Unsettles (setup : Setup) (r : Replica) (msg : Message) : Prop :=
  r.Rewinds setup msg ∨ r.ForgetsGap setup msg

instance (setup : Setup) (r : Replica) (msg : Message) : Decidable (Unsettles setup r msg) :=
  inferInstanceAs (Decidable (_ ∨ _))

/-- No replica rewinds its log or forgets a gap of it. -/
def Settled (s : System) (action : Action) : Prop := s.Avoids d Unsettles action

instance (s : System) (action : Action) : Decidable (s.Settled d action) :=
  inferInstanceAs (Decidable (s.Avoids d Unsettles action))

/-- The replicas that have not stopped are represented by their fields. -/
def AllTidy (s : System) : Prop := ∀ idx, s.stopped idx = false → (s.replicas idx).Tidy []

variable {d}

/-- What a handler keeps, the replica keeps. -/
theorem AllTidy.absorb {s : System} (all : s.AllTidy) {idx : Nat} {handler : Run Unit}
    (tidies : Tidies handler (s.replicas idx)) :
    (s.absorb d idx (handler (s.replicas idx))).AllTidy := by
  obtain ⟨_, -, -, -, post⟩ := tidies
  intro other goesOn
  rcases eq_or_ne other idx with rfl | different
  · simp only [System.absorb, Function.update_self] at goesOn ⊢
    obtain ⟨value, ended⟩ := Option.isSome_iff_exists.mp (by simpa using goesOn)
    exact post value ended
  · simp only [System.absorb, Function.update_of_ne different] at goesOn ⊢
    exact all other goesOn

/-- In a settled run the fields fit together at every replica. -/
theorem invariant_allTidy (d : Deployment) : (system d).Invariant (Settled d) AllTidy where
  initial state initial idx _ := by
    obtain rfl := initial
    exact constructed_tidy
  preserved {s action next} all settled stepped := by
    cases moves_of_step stepped with
    | invoke | invokeUnlogged | unloggedTimeout | multicast | reply | unloggedReply => exact all
    | receive found inGroup running =>
        have safe := settled _ (Option.mem_def.mpr found)
        exact all.absorb (receiveMessage_tidies (all _ running) (fun rewinds => safe (.inl rewinds))
          fun forgets => safe (.inr forgets))
    | fire active inGroup running => exact all.absorb (fireTimer_tidies (all _ running))

/-- In a settled run every replica is represented by its fields between handlers, and there no call
of `RewindLogToOpnum` that the fields allow leaves what it is asked for. -/
theorem represented_of_settled {s : System} (reachable : (system d).Reachable (Settled d) s)
    {idx : Nat} (running : s.stopped idx = false) :
    (s.replicas idx).Represented ∧ ∀ opnum, (s.replicas idx).lastExecutedOp ≤ opnum →
      opnum ≤ (s.replicas idx).lastOp → ¬ (s.replicas idx).RewindsTo opnum := by
  have represented := ((invariant_allTidy d).of_reachable reachable idx running).represented
  exact ⟨represented, fun _ _ inside => represented.not_rewindsTo inside⟩

/-! ## A deployment of three replicas -/

/-- Three replicas, and a client of its own for every slot. -/
def trio : Deployment where
  configuration := { n := 3, f := 1 }
  operation _ _ := "op"
  stamped sessnum msgnum := (10 * sessnum + msgnum, 1)

theorem balanced_trio : trio.configuration.Balanced := rfl

/-- A client sends a request, which is put into a slot and is on its way to some replicas. -/
def ask (sessnum msgnum : Nat) (idxs : List Nat) : List Action :=
  .invoke (10 * sessnum + msgnum) :: idxs.map fun idx => .multicast sessnum msgnum idx

/-- The packets at some positions are delivered in this order. -/
def deliveries (positions : List Nat) : List Action :=
  positions.map fun position => .deliver position {}

/-- All replicas have the request of the first slot, and replica 2 the one of the second as well.
Replica 1 becomes the leader of view 1 with replica 0. -/
def leadingRun : List Action :=
  ask 0 1 [0, 1, 2] ++ deliveries [0, 1, 2] ++ ask 0 2 [2] ++ deliveries [6] ++
    [.timer 1 .leaderSyncHeard {}] ++ deliveries [8, 12]

/-- Nobody rewinds its log while a view starts with the log of its leader. -/
theorem represented_leadingRun : ∃ s : System, (s.replicas 1).view = 1 ∧
    (s.replicas 1).Represented ∧ ∀ opnum, (s.replicas 1).lastExecutedOp ≤ opnum →
      opnum ≤ (s.replicas 1).lastOp → ¬ (s.replicas 1).RewindsTo opnum := by
  obtain ⟨s, reachable, led⟩ := (system trio).exists_reachable_of_run (Settled trio)
    (fun s => decide ((s.replicas 1).view = 1 ∧ s.stopped 1 = false)) leadingRun rfl
    (by decide +kernel)
  obtain ⟨view, running⟩ := of_decide_eq_true led
  exact ⟨s, view, represented_of_settled reachable running⟩

/-- Replica 2 follows into view 1, has to drop one entry for that, and drops both. -/
theorem not_represented_droppedRun : ¬ ∀ (d : Deployment) (s : System),
    d.configuration.Balanced → (system d).Reachable TransitionSystem.unguarded s →
      ∀ idx, s.stopped idx = false →
        (s.replicas idx).Represented ∧ ∀ opnum, (s.replicas idx).lastExecutedOp ≤ opnum →
          opnum ≤ (s.replicas idx).lastOp → (s.replicas idx).RewindsTo opnum := by
  intro always
  obtain ⟨s, reachable, dropped⟩ := (system trio).exists_reachable_of_run
    TransitionSystem.unguarded
    (fun s => decide (s.stopped 2 = false ∧ (s.replicas 2).lastOp ≠ (s.replicas 2).log.lastOpnum))
    (leadingRun ++ deliveries [14]) rfl (by decide +kernel)
  obtain ⟨running, differ⟩ := of_decide_eq_true dropped
  exact differ (always trio s balanced_trio reachable 2 running).1.lastOp

end System

end PaxosBus.NoPaxos

import PaxosBus.NoPaxos.Shifts

/-!
# Messages that no handler is called for

`ReceiveMessage` panics on a message of any other type than those it tests for.
Replies go to clients only. But a follower that is told of a commitment before
it has heard of the sync point asks its leader with a message which the dispatch
does not know, although `HandleSyncPrepareRequest` is declared for it. Up to
such a step every message to a replica has its handler, and any such step sends
one that has not.
-/

set_option autoImplicit false

namespace PaxosBus.NoPaxos

open PaxosBus.Common PaxosBus.Library

/-- The dispatch of `ReceiveMessage` tests for the type of the message. -/
def Message.Expected : Message → Prop
  | .syncPrepareRequest _ => False
  | .reply _ => False
  | .unloggedReply _ => False
  | _ => True

instance (msg : Message) : Decidable msg.Expected :=
  match msg with
  | .syncPrepareRequest _ | .reply _ | .unloggedReply _ => .isFalse id
  | .request _ | .unloggedRequest _ | .gapRequest _ | .gapReply _ | .gapCommit _ |
      .gapCommitReply _ | .stateTransferRequest _ | .stateTransferReply _ | .viewChangeRequest _ |
      .viewChange _ | .startView _ | .startViewReply _ | .syncPrepare _ | .syncPrepareReply _ |
      .syncCommit _ => .isTrue trivial

/-- At any other message a replica panics. -/
theorem dispatch_unexpected {setup : Setup} {app : App} {remote : Address} {msg : Message}
    (unexpected : ¬ msg.Expected) : dispatch setup app remote msg = Handler.stop := by
  cases msg with
  | syncPrepareRequest | reply | unloggedReply => rfl
  | _ => exact absurd trivial unexpected

/-- A leader that gets a request for its last `SyncPrepare` sends it to whoever asks, and stays
up. -/
def Replica.AnswersRequest (setup : Setup) (r : Replica) (remote : Address) (msg : Message) :
    Prop :=
  ∀ app, (receiveMessage setup app remote msg r).value = some () ∧
    .send (.one remote) (.syncPrepare
      { sessnum := r.sessnum, view := r.view, lastop := r.leaderLastSyncPreparePoint,
        committedgaps := r.leaderLastSyncCommittedGaps.elements }) ∈
      (receiveMessage setup app remote msg r).outputs

namespace System

variable (d : Deployment)

/-- Every message on its way to a replica has a handler there, and the leader of a session and view
answers those who ask for its last `SyncPrepare`. -/
structure Handled (s : System) : Prop where
  expected : ∀ packet ∈ s.network, ∀ idx, packet.dst = .replica idx → packet.msg.Expected
  answered : ∀ packet ∈ s.network, ∀ idx msg, packet.dst = .replica idx →
    packet.msg = .syncPrepareRequest msg → s.stopped idx = false →
    (d.setup idx).AmLeader (s.replicas idx).view → msg.sessnum = (s.replicas idx).sessnum →
    msg.view = (s.replicas idx).view →
    (s.replicas idx).AnswersRequest (d.setup idx) packet.src packet.msg

variable {d}

end System

/-! ## Addresses -/

/-- What is sent to a replica has a handler, and is not a message of a client. -/
def Output.Handled : Output → Prop
  | .send (.one (.client _)) _ => True
  | .send _ (.request _) => False
  | .send _ (.unloggedRequest _) => False
  | .send _ msg => msg.Expected
  | _ => True

/-- A plain message has a handler. -/
theorem Message.Plain.handled {msg : Message} (plain : msg.Plain) (dst : Destination) :
    (Output.send dst msg).Handled := by
  rcases dst with ⟨addr⟩ | _
  · cases addr <;> cases msg <;> trivial
  · cases msg <;> trivial

/-- Whoever a replica takes for a client is one. -/
def Core.Locates (c : Core) : Prop :=
  ∀ clientid addr, c.clientAddresses clientid = some addr → ∃ client, addr = .client client

/-- The logic of what replicas send to each other. -/
def addressing : Logic Unit Core Output where
  Later _ _ := True
  refl _ := trivial
  trans _ _ := trivial
  Valid _ output := output.Handled
  mono _ valid := valid
  Keeps _ c := c.Locates

/-- A mark is not sent. -/
theorem Output.Executes.handled {output : Output} (executes : output.Executes) : output.Handled := by
  cases output with
  | executed | repeated => trivial
  | _ => exact absurd executes id

/-- Replies go to clients. -/
theorem Replies.handled {c : Core} {output : Output} (locates : c.Locates)
    (replies : Replies c output) : output.Handled := by
  rcases replies with ⟨clientid, addr, reply, found, rfl⟩ | executes
  · obtain ⟨client, rfl⟩ := locates clientid addr found
    trivial
  · exact executes.handled

/-- A message that a prepared replica sends has a handler, if it goes to a replica. -/
theorem Sends.handled {o : Occasion} {c : Core} {dst : Destination} {msg : Message}
    (sends : Sends o c dst msg) (locates : c.Locates) (prepared : ¬ o.unprepared)
    (unlogged : ∀ src msg, o.known src (.unloggedRequest msg) → ∃ client, src = .client client) :
    (Output.send dst msg).Handled := by
  cases sends with
  | plain plain => exact plain.handled dst
  | reply found =>
      obtain ⟨client, rfl⟩ := locates _ _ found
      trivial
  | unloggedReply known =>
      obtain ⟨client, rfl⟩ := unlogged _ _ known
      trivial
  | @stateTransferRequest dst waiting =>
      rcases dst with ⟨addr⟩ | _
      · cases addr <;> trivial
      · trivial
  | @stateTransferReply remote msg entries known sessnum view inside dumped =>
      cases remote <;> trivial
  | viewChange => trivial
  | startView =>
      rcases dst with ⟨addr⟩ | _
      · cases addr <;> trivial
      · trivial
  | syncPrepareRequest unprepared => exact absurd unprepared prepared

/-- Every move of a prepared replica sends to replicas only what they have handlers for. -/
theorem Move.addresses {o : Occasion} {c next : Core} {outputs : List Output}
    (moved : Move o c outputs next) (locates : c.Locates) (prepared : ¬ o.unprepared)
    (client : ∀ src msg, o.known src (.request msg) → ∃ client, src = .client client)
    (unlogged : ∀ src msg, o.known src (.unloggedRequest msg) → ∃ client, src = .client client) :
    next.Locates ∧ ∀ output ∈ outputs, output.Handled := by
  have processing : ∀ opnum {outputs : List Output}, (∀ output ∈ outputs, Replies c output) →
      ∀ output ∈ .processing opnum c.stateTransferOpEnd c.committedGaps.elements :: outputs,
        output.Handled := by
    intro opnum outputs replies output member
    rcases List.mem_cons.mp member with rfl | inReplies
    · trivial
    · exact (replies output inReplies).handled locates
  cases moved with
  | send sends =>
      refine ⟨locates, fun output single => ?_⟩
      rw [List.mem_singleton.mp single]
      exact sends.handled locates prepared unlogged
  | @locate remote msg known =>
      refine ⟨fun clientid addr found => ?_, by simp⟩
      rcases eq_or_ne clientid msg.req.clientid with rfl | different
      · simp only [Function.update_self, Option.some.injEq] at found
        cases before : c.clientAddresses msg.req.clientid with
        | none =>
            rw [before] at found
            exact found ▸ client _ _ known
        | some addr' =>
            rw [before] at found
            exact found ▸ locates _ _ before
      · simp only [Function.update_of_ne different] at found
        exact locates clientid addr found
  | refuse replies => exact ⟨locates, processing _ replies⟩
  | append next appended replies inside => exact ⟨locates, processing _ replies⟩
  | appendLast next appended replies last =>
      refine ⟨locates, fun output member => ?_⟩
      rcases List.mem_append.mp member with before | atEnd
      · exact processing _ replies output before
      · rw [List.mem_singleton.mp atEnd]
        trivial
  | mergeTransfer elected behind transferring =>
      subst transferring
      refine ⟨locates, fun output member => ?_⟩
      rcases List.mem_cons.mp member with rfl | single
      · trivial
      · rw [List.mem_singleton.mp single]
        trivial
  | followTransfer follows behind transferring =>
      subst transferring
      refine ⟨locates, fun output member => ?_⟩
      rcases List.mem_cons.mp member with rfl | single
      · trivial
      · rw [List.mem_singleton.mp single]
        trivial
  | @syncTransfer msg asked next follower behind transferring =>
      subst transferring
      refine ⟨locates, fun output member => ?_⟩
      rcases List.mem_cons.mp member with rfl | rest
      · trivial
      · cases asked with
        | false => simp at rest
        | true =>
            rw [List.mem_singleton.mp rest]
            trivial
  | execute executes =>
      refine ⟨locates, fun output single => ?_⟩
      rw [List.mem_singleton.mp single]
      exact executes.handled
  | merge | mergeEnter | follow | finish | agreed | call =>
      refine ⟨locates, fun output single => ?_⟩
      rw [List.mem_singleton.mp single]
      trivial
  | _ => exact ⟨locates, by simp⟩

/-! ## Runs -/

namespace System

variable {d : Deployment} {s next : System}

/-- A packet to a replica has a handler there, and a client's packet comes from a client. -/
def Sound (packet : Packet) : Prop :=
  ∀ idx, packet.dst = .replica idx → match packet.msg with
    | .request _ => ∃ client, packet.src = .client client
    | .unloggedRequest _ => ∃ client, packet.src = .client client
    | msg => msg.Expected

/-- Every packet is sound, and every replica that has not stopped replies to clients. -/
structure Addressed (s : System) : Prop where
  sound : ∀ packet ∈ s.network, Sound packet
  locates : ∀ idx, s.stopped idx = false → (s.replicas idx).core.Locates

/-- What a replica sends becomes sound packets. -/
theorem sound_post {src : Nat} {output : Output} (handled : output.Handled) {packet : Packet}
    (member : packet ∈ post d.configuration src output) : Sound packet := by
  cases output with
  | send dst msg =>
      rcases dst with ⟨addr⟩ | _
      · obtain rfl := List.mem_singleton.mp member
        intro idx isReplica
        cases addr with
        | client => nomatch isReplica
        | replica => cases msg <;> first | exact handled | exact absurd handled id
      · obtain ⟨other, -, rfl⟩ := List.mem_map.mp member
        intro idx _
        cases msg <;> first | exact handled | exact absurd handled id
  | _ => nomatch member

/-- A client's packets are sound. -/
theorem FromClient.sound {packet : Packet} (fromClient : FromClient packet) : Sound packet := by
  cases fromClient with
  | request => exact fun _ _ => ⟨_, rfl⟩
  | unlogged => exact fun _ _ => ⟨_, rfl⟩

/-- A shift of prepared replicas sends only sound packets. -/
theorem Addressed.shifts {action : Action} (addressed : s.Addressed)
    (prepared : s.Prepared d action) (shifts : s.Shifts d action next) : next.Addressed := by
  cases shifts with
  | @ran idx outcome last ran outputs =>
      let o : Occasion := s.occasion d idx (¬ s.Prepared d action) (¬ s.Sparing d action)
      have request : ∀ src msg, o.known src (.request msg) → ∃ client, src = .client client :=
        fun src msg known => addressed.sound _ known idx rfl
      have unlogged : ∀ src msg, o.known src (.unloggedRequest msg) →
          ∃ client, src = .client client := fun src msg known => addressed.sound _ known idx rfl
      obtain ⟨_, -, locates, handled⟩ := ran.moves.keeps addressing
        (fun locates moved => by
          obtain ⟨locates', handled⟩ := moved.addresses locates (not_not.mpr prepared) request
            unlogged
          exact ⟨(), trivial, locates', handled⟩)
        (show addressing.Keeps () _ from addressed.locates idx ran.running)
      constructor
      · intro packet member
        rcases List.mem_append.mp member with old | new
        · exact addressed.sound packet old
        · obtain ⟨output, inOutputs, inPost⟩ := List.mem_flatMap.mp new
          exact sound_post (handled output inOutputs) inPost
      · intro other running
        rcases eq_or_ne other idx with rfl | different
        · simp only [absorb, Function.update_self] at running ⊢
          exact (ran.ended running).1 ▸ locates
        · simp only [absorb, Function.update_of_ne different] at running ⊢
          exact addressed.locates other running
  | asked asked =>
      obtain ⟨more, network, fromClients⟩ := asked.network
      constructor
      · intro packet member
        rw [network] at member
        rcases List.mem_append.mp member with old | new
        · exact addressed.sound packet old
        · exact (fromClients packet new).sound
      · intro idx running
        rw [asked.stopped] at running
        rw [asked.replicas]
        exact addressed.locates idx running

/-- For as long as every replica that is told of a commitment has heard of its sync point, each
message to a replica has a handler there. -/
theorem handled_of_prepared (reachable : (system d).Reachable (Prepared d) s) : s.Handled d := by
  have addressed : s.Addressed := by
    refine of_shifts ⟨by simp [initial], by simp [initial, Core.Locates, Replica.core, Replica.constructed]⟩ ?_
      reachable
    intro s action next prepared _ addressed shifts
    exact addressed.shifts prepared shifts
  have expected : ∀ packet ∈ s.network, ∀ idx, packet.dst = .replica idx → packet.msg.Expected := by
    intro packet member idx toReplica
    have sound := addressed.sound packet member idx toReplica
    cases kind : packet.msg <;> rw [kind] at sound <;> trivial
  refine ⟨expected, fun packet member idx msg toReplica request => ?_⟩
  have absurd_ := expected packet member idx toReplica
  rw [request] at absurd_
  exact absurd absurd_ id

/-! ## Steps that break it -/

/-- A replica that is told of a commitment before it has heard of the sync point asks its leader. -/
theorem asks_of_unprepared {setup : Setup} {app : App} {remote : Address} {r : Replica}
    {msg : Message} (unprepared : r.Unprepared setup msg) :
    .send (.one (.replica (setup.configuration.getLeaderIndex r.view)))
        (.syncPrepareRequest { sessnum := r.sessnum, view := r.view }) ∈
      (receiveMessage setup app remote msg r).outputs := by
  cases msg with
  | syncCommit msg =>
      obtain ⟨_, _, syncpoint⟩ := msg
      obtain ⟨rfl, rfl, status, follower, later, missing⟩ := unprepared
      have checked : checkViewNumAndStatus setup r.sessnum r.view r = ⟨r, [], some true⟩ := by
        simp [checkViewNumAndStatus, status, bind, Handler.get, pure]
      apply Handler.mem_outputs_bind
      simp [dispatch, handleSyncCommit, checked, follower, Nat.not_le.mpr later, missing,
        sendToReplica, bind, pure, Handler.get, Handler.require, Handler.modify, Handler.emit]
  | _ => exact absurd unprepared id

/-- Any such step sends a message that has no handler. -/
theorem not_handled_of_unprepared {action : Action} (stepped : s.step d action = some next)
    (unprepared : ¬ s.Prepared d action) : ¬ next.Handled d := by
  intro handled
  cases moves_of_step stepped with
  | @receive position app src idx msg found inGroup running =>
      apply unprepared
      intro packet there reaches
      obtain rfl := Option.some.inj (found.symm.trans there)
      let asked : Packet :=
        { src := .replica idx
          dst := .replica (d.configuration.getLeaderIndex (s.replicas idx).view)
          msg := .syncPrepareRequest
            { sessnum := (s.replicas idx).sessnum, view := (s.replicas idx).view } }
      have sent : asked ∈ (s.absorb d idx
          (receiveMessage (d.setup idx) app src msg (s.replicas idx))).network :=
        List.mem_append_right _
          (List.mem_flatMap.mpr ⟨_, asks_of_unprepared reaches, List.mem_singleton_self _⟩)
      exact handled.expected asked sent _ rfl
  | reply found =>
      apply unprepared
      intro packet there reaches
      obtain rfl := Option.some.inj (found.symm.trans there)
      exact reaches
  | unloggedReply found =>
      apply unprepared
      intro packet there reaches
      obtain rfl := Option.some.inj (found.symm.trans there)
      exact reaches
  | _ => exact unprepared trivial

/-! ## A lost sync point -/

/-- All replicas have a request. Only replica 1 hears of the sync point of the leader, which
commits the request with it and tells both followers. -/
def committingRun : List Action :=
  ask 0 1 [0, 1, 2] ++ deliveries [0, 1, 2] ++ [.timer 0 .sync {}] ++ deliveries [6, 8]

/-- Replica 1 is told of the commitment, and nothing is sent that has no handler. -/
theorem handled_committingRun : ∃ s : System, (s.replicas 1).lastCommittedOp = 1 ∧
    s.Handled trio := by
  obtain ⟨s, reachable, committed⟩ := (system trio).exists_reachable_of_run (Prepared trio)
    (fun s => decide ((s.replicas 1).lastCommittedOp = 1)) (committingRun ++ deliveries [9]) rfl
    (by decide +kernel)
  exact ⟨s, of_decide_eq_true committed, handled_of_prepared reachable⟩

/-- The packet with which replica 2 asks its leader for the last sync point. -/
def asking : Packet where
  src := .replica 2
  dst := .replica 0
  msg := .syncPrepareRequest { sessnum := 0, view := 0 }

/-- Replica 2 asks for the sync point that it has not heard of. -/
theorem not_handled_committingRun : ¬ ∀ (d : Deployment) (s : System),
    d.configuration.Balanced → (system d).Reachable TransitionSystem.unguarded s →
      s.Handled d := by
  intro always
  obtain ⟨s, reachable, asked⟩ := (system trio).exists_reachable_of_run
    TransitionSystem.unguarded
    (fun s => decide (s.network[11]? = some asking))
    (committingRun ++ deliveries [10]) rfl (by decide +kernel)
  have sent := List.mem_of_getElem? (of_decide_eq_true asked)
  exact (always trio s balanced_trio reachable).expected _ sent 0 rfl

end System

end PaxosBus.NoPaxos

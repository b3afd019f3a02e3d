import PaxosBus.Vr.Safety
import PaxosBus.Vr.Voters

/-!
# The messages of a view change suffice

A vote is made for the leader of the view, and the start of a view for its
followers, from the commit points that the sender has heard of. Where each of
them suffices for whom it goes to when it is sent, it does so whenever it
arrives, and no replica finds that it lacks entries.
-/

set_option autoImplicit false

namespace PaxosBus.Vr

open PaxosBus.Common PaxosBus.Library World

variable {d : Deployment} {s : System} {idx : Nat}

/-- The entries start no later than right after what the replica has committed. -/
def Reaches (entries : List Entry) (r : Replica) : Prop :=
  ∀ first ∈ entries.head?, ¬ r.lastCommitted + 1 < first.viewstamp.opnum

/-- The replica can use a vote, if it attends to the view: the entries reach down to what it has
committed, and it has counted a `StartViewChange`. -/
def DoViewChangeMessage.SufficesFor (msg : DoViewChangeMessage) (r : Replica) : Prop :=
  r.Attends msg.view → Reaches msg.entries r ∧ r.Heard msg.view

/-- The replica can use the start of a view, if it attends to the view. -/
def StartViewMessage.SufficesFor (msg : StartViewMessage) (r : Replica) : Prop :=
  r.Attends msg.view → Reaches msg.entries r

namespace Replica

variable {received : DoViewChangeMessage → Prop} {r r' : Replica}

/-- The votes that a replica holds reach down to what it has committed. -/
def Holds (r : Replica) : Prop :=
  ∀ (view voter : Nat) (vote : DoViewChangeMessage),
    (r.doViewChangeQuorum.messages view)[voter]? = some vote → r.Attends view →
      Reaches vote.entries r

theorem Onward.reaches (onward : r.Onward received r') {entries : List Entry}
    (reaches : Reaches entries r) : Reaches entries r' := by
  intro first head beyond
  have committed := onward.committed
  exact reaches first head (by omega)

/-- What suffices for a replica goes on to suffice. -/
theorem Onward.vote (onward : r.Onward received r') (joined : r.Joined)
    {msg : DoViewChangeMessage} (suffices_ : msg.SufficesFor r) : msg.SufficesFor r' := by
  intro attends
  obtain ⟨reaches, heard⟩ := suffices_ (onward.attends _ attends)
  exact ⟨onward.reaches reaches, onward.heard joined _ attends heard⟩

theorem Onward.startView (onward : r.Onward received r') {msg : StartViewMessage}
    (suffices_ : msg.SufficesFor r) : msg.SufficesFor r' :=
  fun attends => onward.reaches (suffices_ (onward.attends _ attends))

/-- A vote that arrives may be held. -/
theorem Onward.holds (onward : r.Onward received r') (holds : r.Holds)
    (arrives : ∀ vote, received vote → vote.SufficesFor r) : r'.Holds := by
  intro view voter vote found attends
  have attended := onward.attends view attends
  rcases onward.votes view voter vote found with before | ⟨new, rfl⟩
  · exact onward.reaches (holds view voter vote before attended)
  · exact onward.reaches (arrives vote new attended).1

/-- One of some commit points is near enough to what the replica has committed. -/
def Near (r : Replica) (points : List Nat) : Prop := ∃ point ∈ points, point ≤ r.lastCommitted + 1

instance (r : Replica) (points : List Nat) : Decidable (r.Near points) :=
  inferInstanceAs (Decidable (∃ point ∈ points, _))

/-- Entries that span commit points near enough to a replica reach down to what it has
committed. -/
theorem Near.reaches {points : List Nat} (near : r.Near points) {entries : List Entry}
    (spans : Spans entries points) : Reaches entries r := by
  obtain ⟨point, member, le⟩ := near
  intro first head beyond
  have := spans first head point member
  omega

end Replica

namespace System

/-- The delivery of a packet makes a replica send a vote to a leader that attends to the view but
has not counted a `StartViewChange`, or of which every commit point that the voter has heard of is
too far ahead; or makes a leader send the start of its view to a follower that attends to it and
of which all the commit points are too far ahead. -/
def Undersupplies (d : Deployment) (s : System) (packet : Packet) : Prop :=
  match packet with
  | ⟨_, .replica idx, .startViewChange msg⟩ =>
    let r := s.replicas idx
    let leader := d.configuration.getLeaderIndex msg.view
    r.Attends msg.view ∧
      r.startViewChangeQuorum.numRequired ≤
        ((r.startViewChangeQuorum.add msg.view msg.replicaidx msg).messages msg.view).size ∧
      leader ≠ idx ∧ s.stopped leader = false ∧ (s.replicas leader).Attends msg.view ∧
      ¬ ((s.replicas leader).Near (r.pointsAt msg) ∧ (s.replicas leader).Heard msg.view)
  | ⟨_, .replica idx, .doViewChange msg⟩ =>
    let r := s.replicas idx
    let msgs := (r.doViewChangeQuorum.add msg.view msg.replicaidx msg).messages msg.view
    r.Attends msg.view ∧ r.doViewChangeQuorum.numRequired ≤ msgs.size ∧
      ∃ other ∈ others d.configuration idx, s.stopped other = false ∧
        (s.replicas other).Attends msg.view ∧
          ¬ (s.replicas other).Near (r.pointsFor msg.view msgs)
  | _ => False

instance (d : Deployment) (s : System) (packet : Packet) : Decidable (s.Undersupplies d packet) :=
  match packet with
  | ⟨_, .replica idx, .startViewChange msg⟩ =>
    inferInstanceAs (Decidable (
      let r := s.replicas idx
      let leader := d.configuration.getLeaderIndex msg.view
      r.Attends msg.view ∧
        r.startViewChangeQuorum.numRequired ≤
          ((r.startViewChangeQuorum.add msg.view msg.replicaidx msg).messages msg.view).size ∧
        leader ≠ idx ∧ s.stopped leader = false ∧ (s.replicas leader).Attends msg.view ∧
        ¬ ((s.replicas leader).Near (r.pointsAt msg) ∧ (s.replicas leader).Heard msg.view)))
  | ⟨_, .replica idx, .doViewChange msg⟩ =>
    inferInstanceAs (Decidable (
      let r := s.replicas idx
      let msgs := (r.doViewChangeQuorum.add msg.view msg.replicaidx msg).messages msg.view
      r.Attends msg.view ∧ r.doViewChangeQuorum.numRequired ≤ msgs.size ∧
        ∃ other ∈ others d.configuration idx, s.stopped other = false ∧
          (s.replicas other).Attends msg.view ∧
            ¬ (s.replicas other).Near (r.pointsFor msg.view msgs)))
  | ⟨_, .replica _, .request _⟩ | ⟨_, .replica _, .reply _⟩ | ⟨_, .replica _, .unloggedRequest _⟩
  | ⟨_, .replica _, .unloggedReply _⟩ | ⟨_, .replica _, .prepare _⟩ | ⟨_, .replica _, .prepareOK _⟩
  | ⟨_, .replica _, .commit _⟩ | ⟨_, .replica _, .requestStateTransfer _⟩
  | ⟨_, .replica _, .stateTransfer _⟩ | ⟨_, .replica _, .startView _⟩ | ⟨_, .replica _, .recovery _⟩
  | ⟨_, .replica _, .recoveryResponse _⟩ | ⟨_, .client _, _⟩ => .isFalse id

/-- What a running replica has, and what is on the way to it, suffices for it. -/
structure Supplies (s : System) (idx : Nat) : Prop where
  awake : (s.replicas idx).status ≠ .recovering
  joined : (s.replicas idx).Joined
  holds : (s.replicas idx).Holds
  votes : ∀ packet ∈ s.network, packet.dst = .replica idx → ∀ vote,
    packet.msg = .doViewChange vote → vote.SufficesFor (s.replicas idx)
  starts : ∀ packet ∈ s.network, packet.dst = .replica idx → ∀ sv,
    packet.msg = .startView sv → sv.SufficesFor (s.replicas idx)

/-- Every running replica is supplied. -/
def Supplied (s : System) : Prop := ∀ idx, s.stopped idx = false → s.Supplies idx

/-- The votes that suffice for the leaders that they go to. -/
def VoteSuffices (d : Deployment) (s : System) (vote : DoViewChangeMessage) : Prop :=
  s.stopped (d.configuration.getLeaderIndex vote.view) = false →
    vote.SufficesFor (s.replicas (d.configuration.getLeaderIndex vote.view))

/-- The starts of views that suffice for all the others. -/
def StartSuffices (d : Deployment) (s : System) (idx : Nat) (sv : StartViewMessage) : Prop :=
  ∀ other ∈ others d.configuration idx, s.stopped other = false → sv.SufficesFor (s.replicas other)

/-- A packet that a handler posts suffices for the other replicas as they are. -/
theorem suffices_of_posted {output : Output}
    (sanctioned : output.Sanctioned (d.setup idx) (s.VoteSuffices d) (s.StartSuffices d idx))
    {packet : Packet} (posted : packet ∈ post d.configuration idx output) {other : Nat}
    (dst : packet.dst = .replica other) (running : s.stopped other = false) :
    (∀ vote, packet.msg = .doViewChange vote →
      other ≠ idx ∧ vote.SufficesFor (s.replicas other)) ∧
    ∀ sv, packet.msg = .startView sv → other ≠ idx ∧ sv.SufficesFor (s.replicas other) := by
  cases output with
  | send dest msg =>
      constructor
      · intro vote content
        cases dest with
        | one addr =>
            obtain rfl := List.mem_singleton.mp posted
            obtain rfl : msg = .doViewChange vote := content
            obtain ⟨toLeader, another, suffices_⟩ := sanctioned
            obtain rfl : addr = .replica other := dst
            obtain rfl : other = d.configuration.getLeaderIndex vote.view :=
              Address.replica.inj (Destination.one.inj toLeader)
            exact ⟨another, suffices_ running⟩
        | others =>
            obtain ⟨_, _, rfl⟩ := List.mem_map.mp posted
            obtain rfl : msg = .doViewChange vote := content
            cases sanctioned.1
      · intro sv content
        cases dest with
        | one addr =>
            obtain rfl := List.mem_singleton.mp posted
            obtain rfl : msg = .startView sv := content
            cases sanctioned.1
        | others =>
            obtain ⟨other', inGroup, rfl⟩ := List.mem_map.mp posted
            obtain rfl : msg = .startView sv := content
            obtain rfl : other' = other := Address.replica.inj dst
            have another := of_decide_eq_true (List.mem_filter.mp inGroup).2
            exact ⟨another, sanctioned.2 other' inGroup running⟩
  | _ => cases posted

/-- A handler that sends what suffices leaves every replica supplied. -/
theorem Supplied.absorb (supplied : s.Supplied) (running : s.stopped idx = false)
    {handler : Run Unit} {received : DoViewChangeMessage → Prop}
    (arrives : ∀ vote, received vote → vote.SufficesFor (s.replicas idx))
    (proceeds : Proceeds (d.setup idx) (s.VoteSuffices d) (s.StartSuffices d idx) received handler
      (s.replicas idx)) : (s.absorb d idx (handler (s.replicas idx))).Supplied := by
  obtain ⟨_, -, sanctioned, -, post⟩ := proceeds
  have mine := supplied idx running
  intro other runs
  by_cases who : other = idx
  · subst who
    simp only [System.absorb, Function.update_self] at runs
    obtain ⟨value, ended⟩ := Option.isSome_iff_exists.mp (Option.isNone_eq_false_iff.mp runs)
    have onward := post value ended
    have state : (s.absorb d other (handler (s.replicas other))).replicas other =
        (handler (s.replicas other)).state := Function.update_self ..
    refine ⟨?_, ?_, ?_, ?_, ?_⟩
    · rw [state]
      exact onward.awake mine.awake
    · rw [state]
      exact onward.joined mine.joined
    · rw [state]
      exact onward.holds mine.holds arrives
    · intro packet inNetwork dst vote content
      rw [state]
      rcases List.mem_append.mp inNetwork with old | new
      · exact onward.vote mine.joined (mine.votes packet old dst vote content)
      · obtain ⟨output, inOutputs, posted⟩ := List.mem_flatMap.mp new
        have another :=
          (suffices_of_posted (sanctioned output inOutputs) posted dst running).1 vote content
        exact absurd rfl another.1
    · intro packet inNetwork dst sv content
      rw [state]
      rcases List.mem_append.mp inNetwork with old | new
      · exact onward.startView (mine.starts packet old dst sv content)
      · obtain ⟨output, inOutputs, posted⟩ := List.mem_flatMap.mp new
        have another :=
          (suffices_of_posted (sanctioned output inOutputs) posted dst running).2 sv content
        exact absurd rfl another.1
  · simp only [System.absorb, Function.update_of_ne who] at runs
    have theirs := supplied other runs
    have state : (s.absorb d idx (handler (s.replicas idx))).replicas other = s.replicas other :=
      Function.update_of_ne who ..
    refine ⟨?_, ?_, ?_, ?_, ?_⟩
    · rw [state]
      exact theirs.awake
    · rw [state]
      exact theirs.joined
    · rw [state]
      exact theirs.holds
    · intro packet inNetwork dst vote content
      rw [state]
      rcases List.mem_append.mp inNetwork with old | new
      · exact theirs.votes packet old dst vote content
      · obtain ⟨output, inOutputs, posted⟩ := List.mem_flatMap.mp new
        exact ((suffices_of_posted (sanctioned output inOutputs) posted dst runs).1 vote content).2
    · intro packet inNetwork dst sv content
      rw [state]
      rcases List.mem_append.mp inNetwork with old | new
      · exact theirs.starts packet old dst sv content
      · obtain ⟨output, inOutputs, posted⟩ := List.mem_flatMap.mp new
        exact ((suffices_of_posted (sanctioned output inOutputs) posted dst runs).2 sv content).2

/-- A client's packet is no part of a view change. -/
theorem Supplied.post_client (supplied : s.Supplied) {client : Nat} {msg : Message}
    (fromClient : msg.FromClient) :
    ({ s with network := s.network ++ [⟨.client client, .replica idx, msg⟩] } : System).Supplied := by
  intro other runs
  have theirs := supplied other runs
  refine { theirs with votes := ?_, starts := ?_ }
  · intro packet inNetwork dst vote content
    rcases List.mem_append.mp inNetwork with old | new
    · exact theirs.votes packet old dst vote content
    · obtain rfl := List.mem_singleton.mp new
      obtain rfl : msg = .doViewChange vote := content
      cases fromClient
  · intro packet inNetwork dst sv content
    rcases List.mem_append.mp inNetwork with old | new
    · exact theirs.starts packet old dst sv content
    · obtain rfl := List.mem_singleton.mp new
      obtain rfl : msg = .startView sv := content
      cases fromClient

/-- The step is defined, takes none of the branches on which agreement is lost, takes nobody's state
away, and sends no vote or start of a view that does not suffice for whom it goes to as it
stands. -/
def Supplying (d : Deployment) (s : System) (action : Action) : Prop :=
  s.Clear d action ∧ Crashless action ∧
    match action with
    | .deliver position _ _ => ∀ packet ∈ s.network[position]?.toList, ¬ s.Undersupplies d packet
    | _ => True

instance (d : Deployment) (s : System) (action : Action) : Decidable (s.Supplying d action) :=
  match action with
  | .deliver position app undefined =>
    inferInstanceAs (Decidable (s.Clear d (.deliver position app undefined) ∧
      Crashless (.deliver position app undefined) ∧
        ∀ packet ∈ s.network[position]?.toList, ¬ s.Undersupplies d packet))
  | .request client idx msg =>
    inferInstanceAs (Decidable (s.Clear d (.request client idx msg) ∧
      Crashless (.request client idx msg) ∧ True))
  | .unloggedRequest client idx msg =>
    inferInstanceAs (Decidable (s.Clear d (.unloggedRequest client idx msg) ∧
      Crashless (.unloggedRequest client idx msg) ∧ True))
  | .timer idx timer =>
    inferInstanceAs (Decidable (s.Clear d (.timer idx timer) ∧ Crashless (.timer idx timer) ∧ True))
  | .crash idx nonce =>
    inferInstanceAs (Decidable (s.Clear d (.crash idx nonce) ∧ Crashless (.crash idx nonce) ∧ True))

/-- The log of a running replica starts with the first operation. -/
theorem Stands.start {admits : Admission} {w : World d.configuration admits} (stands : s.Stands w)
    (running : s.stopped idx = false) : (s.replicas idx).log.start = 1 := by
  rcases stands.backed idx running with engaged | recovering
  · exact engaged.placed.start
  · exact recovering.start

/-- A step that supplies leaves every replica supplied. -/
theorem Supplied.step {admits : Admission} {w : World d.configuration admits}
    (supplied : s.Supplied) (stands : s.Stands w) {action : Action}
    (supplying : s.Supplying d action) {next : System} (stepped : s.step d action = some next) :
    next.Supplied := by
  obtain ⟨clear, crashless, enough⟩ := supplying
  cases action with
  | request client idx msg =>
      obtain rfl := Option.some.inj stepped
      exact supplied.post_client trivial
  | unloggedRequest client idx msg =>
      obtain rfl := Option.some.inj stepped
      exact supplied.post_client trivial
  | deliver position app undefined =>
      rw [step_of_defined clear.defined] at stepped
      simp only [System.step] at stepped
      split at stepped
      next src idx msg found =>
          unfold System.runAt at stepped
          split at stepped
          next enabled =>
              obtain rfl := Option.some.inj stepped
              have running := enabled.2
              have inNetwork := List.mem_of_getElem? found
              have feeds := enough _ (Option.mem_toList.mpr found)
              have arrives : ∀ vote, msg = .doViewChange vote → vote.SufficesFor (s.replicas idx) :=
                fun vote content => (supplied idx running).votes _ inNetwork rfl vote content
              apply supplied.absorb running arrives
              apply receiveMessage_proceeds (stands.start running) (supplied idx running).awake
              · rintro svc rfl attends vote ⟨complete, another, view, spans⟩ runs attended
                rw [view] at runs attended ⊢
                let leader := s.replicas (d.configuration.getLeaderIndex svc.view)
                have near : leader.Near ((s.replicas idx).pointsAt svc) ∧ leader.Heard svc.view := by
                  by_contra lacks
                  exact feeds ⟨attends, complete, another, runs, attended, lacks⟩
                exact ⟨near.1.reaches spans, near.2⟩
              · rintro dvc rfl attends sv ⟨complete, view, spans⟩ other isOther runs attended
                rw [view] at attended
                by_contra lacks
                refine feeds ⟨attends, complete, other, isOther, runs, attended, fun near => ?_⟩
                exact lacks (near.reaches spans)
          next => cases stepped
      next => cases stepped
  | timer idx timer =>
      simp only [System.step] at stepped
      split at stepped
      next =>
          unfold System.runAt at stepped
          split at stepped
          next enabled =>
              obtain rfl := Option.some.inj stepped
              have arrives : ∀ vote : DoViewChangeMessage, False →
                  vote.SufficesFor (s.replicas idx) := fun _ none_ => none_.elim
              exact supplied.absorb enabled.2 arrives fireTimer_proceeds
          next => cases stepped
      next => cases stepped
  | crash idx nonce => cases crashless

/-- At the start nothing is on the way. -/
theorem supplied_initial : (System.initial d).Supplied := by
  intro idx _
  refine ⟨nofun, ?_, ?_, nofun, nofun⟩
  · intro view heard
    unfold Replica.Heard at heard
    simp [System.initial, Replica.initialized, Replica.blank] at heard
  · intro view voter vote found
    simp [System.initial, Replica.initialized, Replica.blank] at found

end System

/-! ## What the receivers check -/

/-- A vote that outranks another log brings some of its own. -/
theorem DoViewChangeMessage.Valid.entries_ne_nil {c : Configuration} {admits : Admission}
    {w : World c admits} {x : DoViewChangeMessage} (valid : x.Valid w) {latestView latestOp : Nat}
    (outranks : Outranks x latestView latestOp) : x.entries ≠ [] := by
  intro none_
  have short := valid.nonempty none_
  have ranked := valid.ranked
  rw [List.eq_nil_of_length_eq_zero (valid.length.symm.trans short)] at ranked
  have noView : x.lastnormalview = 0 := ranked
  unfold Outranks at outranks
  omega

namespace Replica

variable (r : Replica)

/-- What the leader of a new view checks of the message that brings the latest log, when `msg`
completes the votes. -/
def CanInstall (msg latestMsg : DoViewChangeMessage) : Prop :=
  match latestMsg.entries with
  | [] => r.lastCommitted = msg.lastcommitted ∧ msg.lastop = msg.lastcommitted
  | first :: _ => ¬ r.lastCommitted + 1 < first.viewstamp.opnum

instance (msg latestMsg : DoViewChangeMessage) : Decidable (r.CanInstall msg latestMsg) := by
  unfold CanInstall
  split <;> infer_instance

/-- What a follower checks of the start of a view. -/
def CanStart (msg : StartViewMessage) : Prop :=
  match msg.entries with
  | [] => msg.lastcommitted = r.lastCommitted ∧ msg.lastop = msg.lastcommitted
  | first :: _ => ¬ r.lastCommitted + 1 < first.viewstamp.opnum

instance (msg : StartViewMessage) : Decidable (r.CanStart msg) := by
  unfold CanStart
  split <;> infer_instance

/-- Where a vote completes those for a view that the replica attends to, there is a
`StartViewChange` to take the minimum of, and if the log of a vote is selected, the vote came with
what the checks want to see, though they look for it in a copy that is gone. -/
def CanLead (msg : DoViewChangeMessage) : Prop :=
  let msgs := (r.doViewChangeQuorum.add msg.view msg.replicaidx msg).messages msg.view
  r.Attends msg.view → r.doViewChangeQuorum.numRequired ≤ msgs.size →
    r.Heard msg.view ∧
      ∀ x ∈ (latest r.log.lastViewstamp.view r.log.lastViewstamp.opnum none msgs.values).2,
        r.CanInstall msg x

instance (msg : DoViewChangeMessage) : Decidable (r.CanLead msg) :=
  inferInstanceAs (Decidable (_ → _ → _ ∧ ∀ x ∈ _, r.CanInstall msg x))

end Replica

namespace System

/-- No message of a view change that is on the way to a running replica finds that something is
missing there. -/
structure Suffices (d : Deployment) (s : System) : Prop where
  vote : ∀ src idx msg, ⟨src, .replica idx, .doViewChange msg⟩ ∈ s.network →
    s.stopped idx = false → (s.replicas idx).CanLead msg
  start : ∀ src idx msg, ⟨src, .replica idx, .startView msg⟩ ∈ s.network →
    s.stopped idx = false → (s.replicas idx).Attends msg.view → (s.replicas idx).CanStart msg

/-- In a supplied state that something stands behind, every vote finds what it needs. -/
theorem Supplied.canLead {admits : Admission} {w : World d.configuration admits}
    (supplied : s.Supplied) (stands : s.Stands w) {src : Address} {msg : DoViewChangeMessage}
    (inNetwork : ⟨src, .replica idx, .doViewChange msg⟩ ∈ s.network)
    (running : s.stopped idx = false) : (s.replicas idx).CanLead msg := by
  have mine := supplied idx running
  intro attends _
  obtain ⟨reaches, heard⟩ := mine.votes _ inNetwork rfl msg rfl attends
  refine ⟨heard, fun x selected => ?_⟩
  have engaged : (s.replicas idx).core.Engaged w idx :=
    (stands.backed idx running).resolve_right fun recovering => mine.awake recovering.status
  have validMsg : msg.Valid w := by
    have genuine := stands.genuine _ inNetwork
    cases src with
    | client _ => cases genuine
    | replica _ => exact genuine
  have all : ((s.replicas idx).doViewChangeQuorum.add msg.view msg.replicaidx msg).All
      fun view _ vote => vote.Valid w ∧ (view = msg.view → Reaches vote.entries (s.replicas idx)) := by
    apply QuorumSet.All.add
    · intro view voter vote found
      refine ⟨(engaged.placed.collected.votes view voter vote found).1, ?_⟩
      rintro rfl
      exact mine.holds _ voter vote found attends
    · exact ⟨validMsg, fun _ => reaches⟩
  rcases selects_latest (s.replicas idx).log.lastViewstamp.view
      (s.replicas idx).log.lastViewstamp.opnum none
      (((s.replicas idx).doViewChangeQuorum.add msg.view msg.replicaidx msg).messages
        msg.view).values with
    ⟨same, -⟩ | ⟨best, member, same, outranks, -⟩
  · rw [same] at selected
    cases selected
  · rw [same] at selected
    obtain rfl := Option.some.inj selected
    obtain ⟨voter, found⟩ := mem_values.mp member
    obtain ⟨valid, reachesHere⟩ := all msg.view voter best found
    unfold Replica.CanInstall
    split
    next none_ =>
        exact absurd none_ (valid.entries_ne_nil outranks)
    next first rest some_ =>
        apply reachesHere rfl first
        rw [some_]
        rfl

/-- And every start of a view does. -/
theorem Supplied.canStart {admits : Admission} {w : World d.configuration admits}
    (balanced : d.configuration.Balanced) (supplied : s.Supplied) (stands : s.Stands w)
    {src : Address} {msg : StartViewMessage}
    (inNetwork : ⟨src, .replica idx, .startView msg⟩ ∈ s.network)
    (running : s.stopped idx = false) (attends : (s.replicas idx).Attends msg.view) :
    (s.replicas idx).CanStart msg := by
  have mine := supplied idx running
  have reaches := mine.starts _ inNetwork rfl msg rfl attends
  have engaged : (s.replicas idx).core.Engaged w idx :=
    (stands.backed idx running).resolve_right fun recovering => mine.awake recovering.status
  have valid : msg.Valid w := by
    have genuine := stands.genuine _ inNetwork
    cases src with
    | client _ => cases genuine
    | replica _ => exact genuine
  unfold Replica.CanStart
  split
  next none_ =>
      -- The view has started with an empty log, so nothing was committed before it.
      have empty := valid.nonempty none_
      have committed := valid.committed_le
      obtain ⟨log, from_, base, length, -⟩ := valid.base
      have within : w.Within msg.view log := ⟨log, base, List.prefix_rfl, w.sound.extended _ _ base⟩
      have later : (s.replicas idx).normalView < msg.view :=
        @Core.Engaged.normalView_lt (d.setup idx) _ w _ engaged _ attends
      have before : (s.replicas idx).lastCommitted ≤ log.length :=
        engaged.placed.committed.le_length balanced later within
      omega
  next first rest some_ =>
      apply reaches first
      rw [some_]
      rfl

/-- View-change messages suffice along every run of defined steps that takes none of the branches on
which agreement is lost, in which nobody loses its state, and in which every vote and every start of
a view suffices, when it is sent, for whom it goes to. -/
theorem suffices_of_supplying (balanced : d.configuration.Balanced)
    (reachable : (system d).Reachable (Supplying d) s) : s.Suffices d := by
  have invariant : (system d).Invariant (Supplying d) fun s =>
      s.Supplied ∧ ∃ w : World d.configuration (fun _ _ => True), s.Stands w := {
    initial := by
      rintro _ rfl
      exact ⟨supplied_initial, _, stands_initial balanced⟩
    preserved := by
      rintro s action next ⟨supplied, w, stands⟩ supplying stepped
      exact ⟨supplied.step stands supplying stepped,
        stands.step balanced supplying.1 (admits_of_free s action) stepped⟩ }
  obtain ⟨supplied, w, stands⟩ := invariant.of_reachable reachable
  exact {
    vote := fun _ _ _ inNetwork running => supplied.canLead stands inNetwork running
    start := fun _ _ _ inNetwork running attends =>
      supplied.canStart balanced stands inNetwork running attends }

/-- In the quiet run replica 1 leads view 1, with a vote that suffices. -/
theorem suffices_quietRun : ∃ s : System, s.started.length = 1 ∧ s.Suffices trio := by
  obtain ⟨s, reachable, once⟩ := (system trio).exists_reachable_of_run (Supplying trio)
    (fun s => decide (s.started.length = 1)) quietRun rfl (by decide +kernel)
  exact ⟨s, of_decide_eq_true once, suffices_of_supplying balanced_trio reachable⟩

/-- Replicas 0 and 2 have committed two requests that replica 1 has not got. Replica 0 leads view 3
with the vote of replica 2. -/
def distantRun : List Action :=
  ask 7 0 "a" 0 ++ deliveries [2, 3] ++ ask 8 0 "b" 7 ++ deliveries [9, 10, 13] ++
    [.timer 2 .viewChange, .timer 2 .viewChange, .timer 2 .viewChange] ++ deliveries [18, 21, 22]

/-- The start of a view that a message is. -/
def startOf : Message → Option StartViewMessage
  | .startView msg => some msg
  | _ => none

/-- The start of a view is on the way to replica 1, which is running, attends to the view and cannot
install the log. -/
def Starved (s : System) : Prop :=
  s.stopped 1 = false ∧ ∃ packet ∈ s.network, packet.dst = .replica 1 ∧
    ∃ msg ∈ startOf packet.msg,
      (s.replicas 1).Attends msg.view ∧ ¬ (s.replicas 1).CanStart msg

instance (s : System) : Decidable s.Starved := inferInstanceAs (Decidable (_ ∧ ∃ _ ∈ _, _))

/-- View 3 starts with entries from the second operation on, which replica 1 cannot install. -/
theorem not_suffices_distantRun : ¬ ∀ (d : Deployment) (s : System), d.configuration.Balanced →
    (system d).Reachable (Defined d) s → s.Suffices d := by
  intro always
  obtain ⟨s, reachable, starved⟩ := (system trio).exists_reachable_of_run (Defined trio)
    (fun s => decide s.Starved) distantRun rfl (by decide +kernel)
  obtain ⟨running, ⟨src, dst, content⟩, inNetwork, rfl, msg, isStart, attends, unable⟩ :=
    of_decide_eq_true starved
  cases content with
  | startView sv =>
      obtain rfl := Option.some.inj isStart
      exact unable ((always trio s balanced_trio reachable).start src 1 _ inNetwork running attends)
  | _ => cases isStart

end System

end PaxosBus.Vr

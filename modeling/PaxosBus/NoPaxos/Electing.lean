import PaxosBus.Library.Climbing
import PaxosBus.NoPaxos.Shifts

/-!
# The order of views

A session and view is entered only once a quorum has been in it: its leader has
counted the messages of the others, and whoever follows has heard from the
leader. Every replica raises its session and its view, never lowers one. So the
entered pairs are ordered, although the pairs that replicas have been in need
not be, and the last session and the last view in a quorum belong together.
-/

set_option autoImplicit false

namespace PaxosBus.NoPaxos

open PaxosBus.Common PaxosBus.Library

namespace System

/-- Sessions and views that have been entered are ordered, and what a leader finds for the last one
in a quorum is the greatest of them. -/
structure ViewsOrdered (s : System) : Prop where
  entered : ∀ entrance ∈ s.entrances, ∀ other ∈ s.entrances,
    (entrance.sessnum, entrance.view) ≤ (other.sessnum, other.view) ∨
      (other.sessnum, other.view) ≤ (entrance.sessnum, entrance.view)
  merged : ∀ merge ∈ s.merges,
    IsGreatest {pair | pair = merge.own ∨ pair ∈ merge.others} merge.latest

end System

/-! ## Moves -/

section Moves

variable {configuration : Configuration} {held held' : Holdings (Nat × Nat)} {o : Occasion}
  {c next : Core} {outputs : List Output} {pair : Nat × Nat}

/-- A quorum has been in the session and view. -/
abbrev Electable (configuration : Configuration) (held : Holdings (Nat × Nat)) (pair : Nat × Nat) :
    Prop :=
  held.Certified configuration.n configuration.quorumSize pair

/-- What a message of a view change says is true. -/
def Message.Backed (configuration : Configuration) (held : Holdings (Nat × Nat)) : Message → Prop
  | .viewChange msg => msg.replicaIdx < configuration.n ∧
      configuration.getLeaderIndex msg.view ≠ msg.replicaIdx ∧
      (msg.sessnum, msg.view) ∈ held msg.replicaIdx ∧ Electable configuration held msg.normal
  | .startView msg => Electable configuration held (msg.sessnum, msg.view)
  | _ => True

/-- What a replica says, enters and finds goes back to a quorum. -/
def Output.Backed (configuration : Configuration) (held : Holdings (Nat × Nat)) : Output → Prop
  | .send _ msg => msg.Backed configuration held
  | .entered sessnum view _ => Electable configuration held (sessnum, view)
  | .merged own others latest => IsGreatest {pair | pair = own ∨ pair ∈ others} latest
  | _ => True

theorem Message.Backed.mono {msg : Message} (backed : msg.Backed configuration held)
    (more : ∀ member, held member ⊆ held' member) : msg.Backed configuration held' := by
  cases msg with
  | viewChange msg =>
      obtain ⟨inGroup, follower, been, normal⟩ := backed
      exact ⟨inGroup, follower, more _ been, normal.mono more⟩
  | startView msg => exact Holdings.Certified.mono backed more
  | _ => trivial

theorem Output.Backed.mono {output : Output} (backed : output.Backed configuration held)
    (more : ∀ member, held member ⊆ held' member) : output.Backed configuration held' := by
  cases output with
  | send dst msg => exact Message.Backed.mono backed more
  | entered => exact Holdings.Certified.mono backed more
  | merged => exact backed
  | _ => trivial

/-- A mark of an execution is backed. -/
theorem Output.Executes.backed {output : Output} (executes : output.Executes) :
    output.Backed configuration held := by
  cases output with
  | executed | repeated => trivial
  | _ => exact absurd executes id

/-- The replica takes part in a view, or is about to enter one. -/
def Core.Begun (c : Core) : Prop :=
  c.status ≠ .viewChange ∨ c.startGapRequestTimeout = true ∨ c.gapRequestTimeout = true ∨
    c.startViewTimeout = true ∨ 0 < c.stateTransferOpEnd ∧ c.stateTransferCallback = .enterView

/-- What a replica has to do with where the members have been. -/
structure Core.Holds (configuration : Configuration) (idx : Nat) (held : Holdings (Nat × Nat))
    (c : Core) : Prop where
  at_ : held.At idx c.pair
  normal : Electable configuration held c.normal
  begun : c.Begun → Electable configuration held c.pair

/-- The logic of a replica that relies on what has reached it. -/
def electing (o : Occasion) :
    Logic (Holdings (Nat × Nat)) Core Output where
  Later held held' := (∀ member, held member ⊆ held' member) ∧
    ∀ member, member ≠ o.setup.replicaIdx → held' member = held member
  refl _ := ⟨fun _ => subset_rfl, fun _ _ => rfl⟩
  trans before after := ⟨fun member => (before.1 member).trans (after.1 member),
    fun member different => (after.2 member different).trans (before.2 member different)⟩
  Valid held output := output.Backed o.setup.configuration held
  mono later backed := backed.mono later.1
  Keeps held c := held.Climbing ∧ (∀ msg, o.Known msg → msg.Backed o.setup.configuration held) ∧
    c.Holds o.setup.configuration o.setup.replicaIdx held

/-- A leader with the messages of a quorum is a member more. -/
theorem Elected.electable {msgs : List ViewChangeMessage} (elected : Elected o c msgs)
    (inGroup : o.setup.replicaIdx < o.setup.configuration.n)
    (at_ : held.At o.setup.replicaIdx c.pair)
    (backed : ∀ msg, o.Known msg → msg.Backed o.setup.configuration held) :
    Electable o.setup.configuration held c.pair := by
  have others : ∀ member ∈ (msgs.map ViewChangeMessage.replicaIdx).toFinset,
      member < o.setup.configuration.n ∧ member ≠ o.setup.replicaIdx ∧ c.pair ∈ held member := by
    intro member found
    obtain ⟨msg, inMsgs, rfl⟩ := List.mem_map.mp (List.mem_toFinset.mp found)
    obtain ⟨sender, follower, been, -⟩ := backed _ (elected.known msg inMsgs)
    have current := elected.current msg inMsgs
    have view : msg.view = c.view := congrArg Prod.snd current
    rw [current] at been
    rw [view] at follower
    exact ⟨sender, fun same => follower (elected.leader.trans same.symm), been⟩
  refine ⟨insert o.setup.replicaIdx (msgs.map ViewChangeMessage.replicaIdx).toFinset, ?_, ?_, ?_⟩
  · intro member found
    rcases Finset.mem_insert.mp found with rfl | other
    · exact Finset.mem_range.mpr inGroup
    · exact Finset.mem_range.mpr (others member other).1
  · have quorum := elected.quorum
    rw [Finset.card_insert_of_notMem fun found => (others _ found).2.1 rfl]
    omega
  · intro member found
    rcases Finset.mem_insert.mp found with rfl | other
    · exact at_.1
    · exact (others member other).2.2

/-- A replica that stays in its session and view, and begins nothing. -/
theorem Core.Holds.frame {idx : Nat} (holds : c.Holds configuration idx held)
    (pair : next.pair = c.pair) (normal : next.normal = c.normal) (begun : next.Begun → c.Begun) :
    next.Holds configuration idx held := by
  constructor
  · rw [pair]
    exact holds.at_
  · rw [normal]
    exact holds.normal
  · rw [pair]
    exact fun nextBegun => holds.begun (begun nextBegun)

/-- A move keeps to where quorums have been, at the latest after the replica has been where it moves
to. -/
def Elects (o : Occasion) (held : Holdings (Nat × Nat)) (outputs : List Output) (next : Core) :
    Prop :=
  ∃ held', (electing o).Later held held' ∧ (electing o).Keeps held' next ∧
    ∀ output ∈ outputs, (electing o).Valid held' output

/-- A move within a session and view. -/
theorem electing_stay (keeps : (electing o).Keeps held c)
    (holds : next.Holds o.setup.configuration o.setup.replicaIdx held)
    (valid : ∀ output ∈ outputs, output.Backed o.setup.configuration held) :
    Elects o held outputs next :=
  ⟨held, (electing o).refl held, ⟨keeps.1, keeps.2.1, holds⟩, valid⟩

/-- A move to a later session or view. -/
theorem electing_rise (keeps : (electing o).Keeps held c) (up : c.pair ≤ next.pair)
    (normal : Electable o.setup.configuration (held.move o.setup.replicaIdx next.pair) next.normal)
    (begun : next.Begun →
      Electable o.setup.configuration (held.move o.setup.replicaIdx next.pair) next.pair)
    (valid : ∀ output ∈ outputs,
      output.Backed o.setup.configuration (held.move o.setup.replicaIdx next.pair)) :
    Elects o held outputs next := by
  obtain ⟨climbing, backed, holds⟩ := keeps
  have more := held.subset_move o.setup.replicaIdx next.pair
  refine ⟨held.move o.setup.replicaIdx next.pair, ⟨more, ?_⟩, ⟨?_, ?_, ?_⟩, valid⟩
  · exact fun member different => Function.update_of_ne different _ _
  · exact climbing.move holds.at_ up
  · exact fun msg known => (backed msg known).mono more
  · exact ⟨holds.at_.move up, normal, begun⟩

/-- A replica tells only what is so. -/
theorem Sends.backed {dst : Destination} {msg : Message} (sends : Sends o c dst msg)
    (inGroup : o.setup.replicaIdx < o.setup.configuration.n)
    (holds : c.Holds o.setup.configuration o.setup.replicaIdx held) :
    msg.Backed o.setup.configuration held := by
  cases sends with
  | plain plain => cases msg <;> trivial
  | viewChange follower => exact ⟨inGroup, follower, holds.at_.1, holds.normal⟩
  | startView leader started =>
      apply holds.begun
      rcases started with status | timeout
      · exact .inl status
      · exact .inr (.inr (.inr (.inl timeout)))
  | _ => trivial

/-- What a leader finds for the last session and view is the greatest pair in its quorum. -/
theorem isGreatest_latest {msgs : List ViewChangeMessage} (own : Nat × Nat) {op : Nat}
    (comparable : ∀ pair ∈ own :: msgs.map ViewChangeMessage.normal,
      ∀ other ∈ own :: msgs.map ViewChangeMessage.normal, pair ≤ other ∨ other ≤ pair) :
    let latest := msgs.foldl Latest.consider { sessnum := own.1, view := own.2, op := op }
    IsGreatest {pair | pair = own ∨ pair ∈ msgs.map ViewChangeMessage.normal}
      (latest.sessnum, latest.view) := by
  have folded : ∀ latest : Latest,
      ((msgs.foldl Latest.consider latest).sessnum, (msgs.foldl Latest.consider latest).view) =
        (msgs.map ViewChangeMessage.normal).foldl (· ⊔ ·) (latest.sessnum, latest.view) := by
    clear comparable
    induction msgs with
    | nil => exact fun _ => rfl
    | cons msg rest inductionHypothesis => exact fun latest => inductionHypothesis _
  intro latest
  have greatest := isGreatest_foldl_sup comparable
  simp only [List.mem_cons] at greatest
  rw [show (latest.sessnum, latest.view) = _ from folded _]
  exact greatest

/-- One output that is backed. -/
theorem backed_singleton {output : Output} (backed : output.Backed configuration held) :
    ∀ other ∈ [output], other.Backed configuration held := by
  intro other single
  rwa [List.mem_singleton.mp single]

/-- A replica that asks for operations says nothing of views. -/
theorem asking_backed (c : Core) (asked : Bool) :
    ∀ output ∈ c.asking asked, output.Backed configuration held := by
  intro output member
  rcases List.mem_cons.mp member with rfl | rest
  · trivial
  · cases asked with
    | false => nomatch rest
    | true =>
        rw [List.mem_singleton.mp rest]
        trivial

/-- Nor does one that processes an operation. -/
theorem processing_backed {opnum end_ : Nat} {gaps : List Nat}
    (replies : ∀ output ∈ outputs, Replies c output) :
    ∀ output ∈ .processing opnum end_ gaps :: outputs, output.Backed configuration held := by
  intro output member
  rcases List.mem_cons.mp member with rfl | inReplies
  · trivial
  · rcases replies output inReplies with ⟨clientid, addr, reply, -, rfl⟩ | executes
    · trivial
    · exact executes.backed

/-- A leader that has the messages of a quorum finds the greatest pair, as those of quorums can be
compared. -/
theorem Elected.merged_backed {msgs : List ViewChangeMessage} (elected : Elected o c msgs)
    (keeps : (electing o).Keeps held c) (balanced : o.setup.configuration.Balanced) :
    let latest := msgs.foldl Latest.consider
      { sessnum := c.lastNormalSessnum, view := c.lastNormalView, op := c.lastOp }
    (Output.merged c.normal (msgs.map ViewChangeMessage.normal)
      (latest.sessnum, latest.view)).Backed o.setup.configuration held := by
  obtain ⟨climbing, backed, holds⟩ := keeps
  apply isGreatest_latest c.normal
  have normals : ∀ pair ∈ c.normal :: msgs.map ViewChangeMessage.normal,
      Electable o.setup.configuration held pair := by
    intro pair member
    rcases List.mem_cons.mp member with rfl | inMsgs
    · exact holds.normal
    · obtain ⟨msg, sent, rfl⟩ := List.mem_map.mp inMsgs
      exact (backed _ (elected.known msg sent)).2.2.2
  intro pair member other member'
  refine (normals pair member).comparable (normals other member') climbing ?_
  unfold Configuration.Balanced at balanced
  unfold Configuration.quorumSize
  omega

/-- A replica in a session and view where a quorum has been enters it. -/
theorem electing_enter {log : List Entry} (keeps : (electing o).Keeps held c)
    (electable : Electable o.setup.configuration held c.pair) :
    Elects o held [.entered c.sessnum c.view log] (c.entering c.sessnum c.view) :=
  electing_stay keeps ⟨keeps.2.2.at_, electable, fun _ => electable⟩ (backed_singleton electable)

/-- A change of view goes up, and the replica has not begun anything there. -/
theorem electing_change (keeps : (electing o).Keeps held c) (newsessnum newview : Nat) :
    Elects o held [] (c.changing (max c.sessnum newsessnum) (max c.view newview)) := by
  apply electing_rise keeps
  · exact ⟨le_max_left _ _, le_max_left _ _⟩
  · exact keeps.2.2.normal.mono (held.subset_move _ _)
  · exact fun begun => absurd begun (by simp [Core.Begun, Core.changing, Core.cleared])
  · exact fun _ none_ => nomatch none_

section Follows

variable {msg : StartViewMessage} (follows : Follows o c msg) (keeps : (electing o).Keeps held c)
include follows keeps

/-- A replica enters a view that its leader has told it of, -/
theorem electing_follow {log : List Entry} : Elects o held [.entered msg.sessnum msg.view log]
    (c.entering msg.sessnum msg.view) := by
  have up : c.pair ≤ (c.entering msg.sessnum msg.view).pair := ⟨follows.sessnum, follows.view⟩
  have told : Electable o.setup.configuration held (msg.sessnum, msg.view) :=
    keeps.2.1 _ follows.known
  have entered := told.mono (held.subset_move o.setup.replicaIdx (msg.sessnum, msg.view))
  exact electing_rise keeps up entered (fun _ => entered) (backed_singleton entered)

/-- or asks for what it lacks there. -/
theorem electing_followTransfer (last replicaIdx : Nat) : Elects o held
    (((c.joining msg.sessnum msg.view).transferring last replicaIdx .enterView true).asking true)
    ((c.joining msg.sessnum msg.view).transferring last replicaIdx .enterView true) := by
  have up : c.pair ≤ ((c.joining msg.sessnum msg.view).transferring last replicaIdx
      .enterView true).pair := ⟨follows.sessnum, follows.view⟩
  have told : Electable o.setup.configuration held (msg.sessnum, msg.view) :=
    keeps.2.1 _ follows.known
  apply electing_rise keeps up
  · exact keeps.2.2.normal.mono (held.subset_move _ _)
  · exact fun _ => told.mono (held.subset_move _ _)
  · exact asking_backed _ _

end Follows

/-- Every move keeps to where quorums have been. -/
theorem Move.elects (moved : Move o c outputs next) (keeps : (electing o).Keeps held c)
    (inGroup : o.setup.replicaIdx < o.setup.configuration.n)
    (balanced : o.setup.configuration.Balanced) : Elects o held outputs next := by
  obtain ⟨-, backed, holds⟩ := id keeps
  have quiet : ∀ output ∈ ([] : List Output), output.Backed o.setup.configuration held := by simp
  have electable : ∀ {msgs}, Elected o c msgs → Electable o.setup.configuration held c.pair :=
    fun elected => elected.electable inGroup holds.at_ backed
  cases moved with
  | send sends => exact electing_stay keeps holds (backed_singleton (sends.backed inGroup holds))
  | execute executes => exact electing_stay keeps holds (backed_singleton executes.backed)
  | call => exact electing_stay keeps holds (backed_singleton trivial)
  | change raised => exact electing_change keeps _ _
  | awaitRequest status =>
      exact electing_stay keeps (holds.frame rfl rfl fun _ => .inl status) quiet
  | requestGap missing weaker =>
      refine electing_stay keeps (holds.frame rfl rfl ?_) quiet
      exact fun _ => .inr (missing.imp_right .inl)
  | agree status =>
      refine electing_stay keeps (holds.frame rfl rfl ?_) quiet
      exact fun _ => status.imp_right fun timeout => .inr (.inl timeout)
  | agreed status =>
      refine electing_stay keeps (holds.frame rfl rfl ?_) (backed_singleton trivial)
      exact fun _ => .inl (by simp [status])
  | refuse replies => exact electing_stay keeps holds (processing_backed replies)
  | append next appended replies inside =>
      refine electing_stay keeps (holds.frame rfl rfl ?_) (processing_backed replies)
      rintro (status | ⟨⟨⟩⟩ | ⟨⟨⟩⟩ | later)
      · exact .inl status
      · exact .inr (.inr (.inr later))
  | appendLast next appended replies last =>
      refine electing_stay keeps (holds.frame rfl rfl ?_) ?_
      · rintro (status | ⟨⟨⟩⟩ | ⟨⟨⟩⟩ | later)
        · exact .inl status
        · exact .inr (.inr (.inr later))
      · intro output member
        rcases List.mem_append.mp member with before | atEnd
        · exact processing_backed replies output before
        · rw [List.mem_singleton.mp atEnd]
          trivial
  | merge elected found =>
      subst found
      exact electing_stay keeps holds (backed_singleton (elected.merged_backed keeps balanced))
  | mergeTransfer elected behind transferring =>
      subst transferring
      refine electing_stay keeps ⟨holds.at_, holds.normal, fun _ => electable elected⟩ ?_
      exact asking_backed _ _
  | mergeEnter elected => exact electing_enter keeps (electable elected)
  | followTransfer follows behind transferring =>
      subst transferring
      exact electing_followTransfer follows keeps _ _
  | follow follows => exact electing_follow follows keeps
  | syncTransfer follower behind transferring =>
      subst transferring
      refine electing_stay keeps (holds.frame rfl rfl ?_) (asking_backed _ _)
      rintro (status | waiting | gap | start | ⟨_, ⟨⟩⟩)
      · exact .inl status
      · exact .inr (.inl waiting)
      · exact .inr (.inr (.inl gap))
      · exact .inr (.inr (.inr (.inl start)))
  | finish callback pending =>
      exact electing_enter keeps (holds.begun (.inr (.inr (.inr (.inr ⟨pending, callback⟩)))))
  | awaitStartView leader started =>
      refine electing_stay keeps (holds.frame rfl rfl ?_) quiet
      exact fun _ => started.imp_right fun timeout => .inr (.inr (.inl timeout))
  | stopStartView =>
      refine electing_stay keeps (holds.frame rfl rfl ?_) quiet
      rintro (status | waiting | gap | ⟨⟨⟩⟩ | callback)
      · exact .inl status
      · exact .inr (.inl waiting)
      · exact .inr (.inr (.inl gap))
      · exact .inr (.inr (.inr (.inr callback)))
  | _ => exact electing_stay keeps (holds.frame rfl rfl id) quiet

end Moves

/-! ## Runs -/

namespace System

variable {d : Deployment} {s next : System} {held : Holdings (Nat × Nat)}

/-- What the group has to do with where its replicas have been. -/
structure Electing (d : Deployment) (s : System) (held : Holdings (Nat × Nat)) : Prop where
  climbing : held.Climbing
  backed : ∀ packet ∈ s.network, packet.msg.Backed d.configuration held
  holds : ∀ idx, s.stopped idx = false → (s.replicas idx).core.Holds d.configuration idx held
  entered : ∀ entrance ∈ s.entrances,
    Electable d.configuration held (entrance.sessnum, entrance.view)
  merged : ∀ merge ∈ s.merges,
    IsGreatest {pair | pair = merge.own ∨ pair ∈ merge.others} merge.latest

/-- At first everybody is in the first session and view. -/
theorem electing_initial (balanced : d.configuration.Balanced) :
    Electing d (initial d) fun _ => {(0, 0)} := by
  have first : Electable d.configuration (fun _ => {(0, 0)}) (0, 0) := by
    refine ⟨Finset.range d.configuration.n, subset_rfl, ?_, fun _ _ => rfl⟩
    rw [Finset.card_range]
    unfold Configuration.Balanced at balanced
    unfold Configuration.quorumSize
    omega
  constructor
  · exact fun _ => Set.subsingleton_singleton.isChain
  · exact fun _ none_ => nomatch none_
  · exact fun _ _ => ⟨isGreatest_singleton, first, fun _ => first⟩
  · exact fun _ none_ => nomatch none_
  · exact fun _ none_ => nomatch none_

/-- What a replica sends is what its outputs say. -/
theorem backed_post {src : Nat} {output : Output} (backed : output.Backed d.configuration held)
    {packet : Packet} (member : packet ∈ post d.configuration src output) :
    packet.msg.Backed d.configuration held := by
  cases output with
  | send dst msg =>
      cases dst with
      | one addr => exact List.mem_singleton.mp member ▸ backed
      | others =>
          obtain ⟨other, -, rfl⟩ := List.mem_map.mp member
          exact backed
  | _ => nomatch member

/-- Whoever enters a session and view has a quorum. -/
theorem backed_entrance {idx : Nat} {output : Output} {entry : Entrance}
    (backed : output.Backed d.configuration held) (marks : entrance idx output = some entry) :
    Electable d.configuration held (entry.sessnum, entry.view) := by
  cases output with
  | entered =>
      obtain rfl := Option.some.inj marks
      exact backed
  | _ => nomatch marks

/-- What a merge has found is the greatest pair. -/
theorem backed_merge {idx : Nat} {output : Output} {found : Merge}
    (backed : output.Backed d.configuration held) (marks : merge idx output = some found) :
    IsGreatest {pair | pair = found.own ∨ pair ∈ found.others} found.latest := by
  cases output with
  | merged =>
      obtain rfl := Option.some.inj marks
      exact backed
  | _ => nomatch marks

/-- Every shift keeps to where quorums have been. -/
theorem Electing.shifts {action : Action} (electing_ : Electing d s held)
    (balanced : d.configuration.Balanced) (shifts : s.Shifts d action next) :
    ∃ held', Electing d next held' := by
  cases shifts with
  | @ran idx outcome last ran outputs =>
      let o : Occasion := s.occasion d idx (¬ s.Prepared d action) (¬ s.Sparing d action)
      have known : ∀ msg, o.Known msg → msg.Backed d.configuration held :=
        fun msg ⟨src, sent⟩ => electing_.backed _ sent
      obtain ⟨held', ⟨more, others⟩, ⟨climbing, -, holds⟩, valid⟩ :=
        ran.moves.keeps (electing o) (fun keeps moved => moved.elects keeps ran.inGroup balanced)
          ⟨electing_.climbing, known, electing_.holds idx ran.running⟩
      refine ⟨held', climbing, ?_, ?_, ?_, ?_⟩
      · intro packet member
        rcases List.mem_append.mp member with old | new
        · exact (electing_.backed packet old).mono more
        · obtain ⟨output, inOutputs, inPost⟩ := List.mem_flatMap.mp new
          exact backed_post (valid output inOutputs) inPost
      · intro other running
        rcases eq_or_ne other idx with rfl | different
        · simp only [absorb, Function.update_self] at running ⊢
          exact (ran.ended running).1 ▸ holds
        · simp only [absorb, Function.update_of_ne different] at running ⊢
          have before := electing_.holds other running
          constructor
          · rw [Holdings.At, others other different]
            exact before.at_
          · exact before.normal.mono more
          · exact fun begun => (before.begun begun).mono more
      · intro entry member
        rcases List.mem_append.mp member with old | new
        · exact (electing_.entered entry old).mono more
        · obtain ⟨output, inOutputs, marks⟩ := List.mem_filterMap.mp new
          exact backed_entrance (valid output inOutputs) marks
      · intro found member
        rcases List.mem_append.mp member with old | new
        · exact electing_.merged found old
        · obtain ⟨output, inOutputs, marks⟩ := List.mem_filterMap.mp new
          exact backed_merge (valid output inOutputs) marks
  | asked asked =>
      obtain ⟨more, network, fromClients⟩ := asked.network
      refine ⟨held, electing_.climbing, ?_, ?_, ?_, ?_⟩
      · intro packet member
        rw [network] at member
        rcases List.mem_append.mp member with old | new
        · exact electing_.backed packet old
        · cases fromClients packet new <;> trivial
      · intro idx running
        rw [asked.stopped] at running
        rw [asked.replicas]
        exact electing_.holds idx running
      · rw [asked.entrances]
        exact electing_.entered
      · rw [asked.merges]
        exact electing_.merged

/-- In every reachable state all sessions and views that have been entered are ordered, and what
each merge has found for the last one is the greatest in its quorum. -/
theorem viewsOrdered_of_reachable (balanced : d.configuration.Balanced)
    (reachable : (system d).Reachable TransitionSystem.unguarded s) : s.ViewsOrdered := by
  obtain ⟨held, electing_⟩ : ∃ held, Electing d s held := by
    apply of_shifts ⟨_, electing_initial balanced⟩ ?_ reachable
    intro s action next _ _ ⟨held, electing_⟩ shifts
    exact electing_.shifts balanced shifts
  constructor
  · intro entry member other member'
    refine (electing_.entered entry member).comparable (electing_.entered other member')
      electing_.climbing ?_
    unfold Configuration.Balanced at balanced
    unfold Configuration.quorumSize
    omega
  · exact electing_.merged

/-- The leader hears of a new session and starts it with replica 1. Replica 1 then becomes the leader
of the next view with replica 2, which has not been in that session. -/
def advancingRun : List Action :=
  ask 0 1 [0, 1, 2] ++ deliveries [0, 1, 2] ++ ask 1 1 [0] ++ deliveries [6, 7, 11, 12] ++
    [.timer 1 .leaderSyncHeard {}] ++ deliveries [17, 20]

/-- A session and a view are entered one after the other, and the later leader finds its own pair to
be the greatest of its quorum. -/
theorem viewsOrdered_advancingRun : ∃ s : System,
    s.entrances.map (fun entrance => (entrance.idx, entrance.sessnum, entrance.view)) =
      [(0, 1, 0), (1, 1, 0), (1, 1, 1)] ∧
    s.merges = [{ idx := 0, own := (0, 0), others := [(0, 0)], latest := (0, 0) },
      { idx := 1, own := (1, 0), others := [(0, 0)], latest := (1, 0) }] ∧ s.ViewsOrdered := by
  obtain ⟨s, reachable, outcome⟩ := (system trio).exists_reachable_of_run
    TransitionSystem.unguarded
    (fun s => decide (
      s.entrances.map (fun entrance => (entrance.idx, entrance.sessnum, entrance.view)) =
        [(0, 1, 0), (1, 1, 0), (1, 1, 1)] ∧
      s.merges = [{ idx := 0, own := (0, 0), others := [(0, 0)], latest := (0, 0) },
        { idx := 1, own := (1, 0), others := [(0, 0)], latest := (1, 0) }]))
    advancingRun rfl (by decide +kernel)
  obtain ⟨entrances, merges⟩ := of_decide_eq_true outcome
  exact ⟨s, entrances, merges, viewsOrdered_of_reachable balanced_trio reachable⟩

end System

end PaxosBus.NoPaxos

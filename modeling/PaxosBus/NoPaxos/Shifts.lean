import PaxosBus.NoPaxos.Handling
import PaxosBus.NoPaxos.Rewinding

/-!
# Steps of the group as moves of its replicas

In every reachable state the replicas that have not stopped are ready for the
next handler. So each step of the group is one of a client, or a sequence of
moves of one replica, which relies on nothing but its own core and the packets
on their way to it.
-/

set_option autoImplicit false

namespace PaxosBus.NoPaxos

open PaxosBus.Common PaxosBus.Library

namespace System

variable (d : Deployment)

/-- A replica steps on what is on its way to it. -/
def occasion (s : System) (idx : Nat) (unprepared undercut : Prop) : Occasion where
  setup := d.setup idx
  known src msg := { src := src, dst := .replica idx, msg := msg } ∈ s.network
  unprepared := unprepared
  undercut := undercut

/-- No replica is told that operations are committed before it has heard which. -/
def Prepared (s : System) (action : Action) : Prop :=
  s.Avoids d (fun setup r msg => r.Unprepared setup msg) action

instance (s : System) (action : Action) : Decidable (s.Prepared d action) :=
  inferInstanceAs (Decidable (s.Avoids d _ action))

/-- No replica rewinds its log below its last sync point. -/
def Sparing (s : System) (action : Action) : Prop :=
  s.Avoids d (fun setup r msg => r.Undercuts setup msg) action

instance (s : System) (action : Action) : Decidable (s.Sparing d action) :=
  inferInstanceAs (Decidable (s.Avoids d _ action))

/-- What the replica that an action runs puts out. -/
def outputs (s : System) : Action → List Output
  | .deliver position app =>
    match s.network[position]? with
    | some ⟨src, .replica idx, msg⟩ =>
      (receiveMessage (d.setup idx) app src msg (s.replicas idx)).outputs
    | _ => []
  | .timer idx timer app => (fireTimer (d.setup idx) app timer (s.replicas idx)).outputs
  | _ => []

/-- A replica ready for the next handler. -/
structure Ready (s : System) (idx : Nat) : Prop where
  proper : (s.replicas idx).Proper (s.occasion d idx True True)
  rests : (s.replicas idx).core.Rests

/-- Every replica that has not stopped is ready. -/
def AllReady (s : System) : Prop := ∀ idx, s.stopped idx = false → s.Ready d idx

/-- A replica has run a handler, which was a sequence of moves. -/
structure Ran (s : System) (idx : Nat) (unprepared undercut : Prop)
    (outcome : Outcome Replica Output Unit) (last : Core) : Prop where
  inGroup : idx < d.configuration.n
  running : s.stopped idx = false
  moves : Library.Moves (Move (s.occasion d idx unprepared undercut)) (s.replicas idx).core
    outcome.outputs last
  ended : outcome.value.isNone = false → last = outcome.state.core ∧ last.Rests ∧
    outcome.state.Proper (s.occasion d idx unprepared undercut)

/-- A packet of a client. -/
inductive FromClient : Packet → Prop where
  | request {clientid idx msg} :
      FromClient { src := .client clientid, dst := .replica idx, msg := .request msg }
  | unlogged {clientid idx msg} :
      FromClient { src := .client clientid, dst := .replica idx, msg := .unloggedRequest msg }

/-- A client has done something, which the replicas see in its packets only. -/
structure Asked (s next : System) : Prop where
  replicas : next.replicas = s.replicas
  stopped : next.stopped = s.stopped
  entrances : next.entrances = s.entrances
  merges : next.merges = s.merges
  enterings : next.enterings = s.enterings
  transfers : next.transfers = s.transfers
  network : ∃ more, next.network = s.network ++ more ∧ ∀ packet ∈ more, FromClient packet

/-- What a step of the group does. -/
inductive Shifts (s : System) (action : Action) : System → Prop where
  | ran {idx outcome last}
      (ran : s.Ran d idx (¬ s.Prepared d action) (¬ s.Sparing d action) outcome last)
      (outputs : outcome.outputs = s.outputs d action) :
      Shifts s action (s.absorb d idx outcome)
  | asked {next} (asked : s.Asked next) : Shifts s action next

variable {d} {s next : System} {idx : Nat} {action : Action} {unprepared undercut : Prop}

/-- What has reached a replica is not forgotten. -/
theorem Ready.mono (ready : s.Ready d idx) (same : next.replicas idx = s.replicas idx)
    (network : ∀ packet ∈ s.network, packet ∈ next.network) : next.Ready d idx where
  proper := by
    rw [same]
    exact ready.proper.mono rfl fun _ ⟨src, known⟩ => ⟨src, network _ known⟩
  rests := by
    rw [same]
    exact ready.rests

/-- After a shift every replica that has not stopped is ready again. -/
theorem AllReady.shifts (all : s.AllReady d) (shifts : s.Shifts d action next) :
    next.AllReady d := by
  intro other running
  cases shifts with
  | @ran idx outcome last ran outputs =>
      rcases eq_or_ne other idx with rfl | different
      · simp only [absorb, Function.update_self] at running
        obtain ⟨rfl, rests, proper⟩ := ran.ended running
        constructor
        · simp only [absorb, Function.update_self]
          refine proper.mono rfl ?_
          rintro _ ⟨src, known⟩
          exact ⟨src, List.mem_append_left _ known⟩
        · simp only [absorb, Function.update_self]
          exact rests
      · simp only [absorb, Function.update_of_ne different] at running
        refine (all other running).mono ?_ fun _ member => List.mem_append_left _ member
        simp only [absorb, Function.update_of_ne different]
  | asked asked =>
      rw [asked.stopped] at running
      obtain ⟨more, network, -⟩ := asked.network
      refine (all other running).mono (congrFun asked.replicas other) fun packet member => ?_
      rw [network]
      exact List.mem_append_left _ member

/-- A handler that ends leaves what it leaves when it is run. -/
theorem Ran.of_runs {handler : Run Unit} (inGroup : idx < d.configuration.n)
    (running : s.stopped idx = false)
    (runs : Runs (s.occasion d idx unprepared undercut) handler (s.replicas idx)) :
    ∃ last, s.Ran d idx unprepared undercut (handler (s.replicas idx)) last := by
  obtain ⟨last, moves, ended⟩ := runs
  refine ⟨last, inGroup, running, moves, fun goesOn => ?_⟩
  obtain ⟨value, returned⟩ := Option.isSome_iff_exists.mp (by simpa using goesOn)
  obtain ⟨same, proper, rests⟩ := ended value returned
  have core : last = (handler (s.replicas idx)).state.core := same
  exact ⟨core, core ▸ rests, proper⟩

/-- Every step of the group is one of these. -/
theorem shifts_of_step (all : s.AllReady d) (stepped : s.step d action = some next) :
    s.Shifts d action next := by
  cases moves_of_step stepped with
  | invoke => exact .asked ⟨rfl, rfl, rfl, rfl, rfl, rfl, [], (List.append_nil _).symm, by simp⟩
  | @invokeUnlogged clientid idx op =>
      refine .asked ⟨rfl, rfl, rfl, rfl, rfl, rfl, ?_⟩
      unfold askedUnlogged
      dsimp only
      split
      next => exact ⟨[], (List.append_nil _).symm, by simp⟩
      next => exact ⟨_, rfl, fun packet single => List.mem_singleton.mp single ▸ .unlogged⟩
  | unloggedTimeout =>
      exact .asked ⟨rfl, rfl, rfl, rfl, rfl, rfl, [], (List.append_nil _).symm, by simp⟩
  | multicast =>
      refine .asked ⟨rfl, rfl, rfl, rfl, rfl, rfl, _, rfl, fun packet single => ?_⟩
      exact List.mem_singleton.mp single ▸ .request
  | reply => exact .asked ⟨rfl, rfl, rfl, rfl, rfl, rfl, [], (List.append_nil _).symm, by simp⟩
  | unloggedReply =>
      exact .asked ⟨rfl, rfl, rfl, rfl, rfl, rfl, [], (List.append_nil _).symm, by simp⟩
  | @receive position app src idx msg found inGroup running =>
      have ready := all idx running
      have lacks : (s.replicas idx).Unprepared (d.setup idx) msg →
          ¬ s.Prepared d (.deliver position app) :=
        fun unprepared prepared => prepared _ (Option.mem_def.mpr found) unprepared
      have below : (s.replicas idx).Undercuts (d.setup idx) msg →
          ¬ s.Sparing d (.deliver position app) :=
        fun undercuts sparing => sparing _ (Option.mem_def.mpr found) undercuts
      have runs : Runs (s.occasion d idx (¬ s.Prepared d (.deliver position app))
          (¬ s.Sparing d (.deliver position app)))
          (receiveMessage (d.setup idx) app src msg) (s.replicas idx) :=
        receiveMessage_runs ⟨ready.proper.known, ready.proper.required⟩ ready.rests
          (List.mem_of_getElem? found) lacks below
      obtain ⟨last, ran⟩ := Ran.of_runs inGroup running runs
      refine .ran ran ?_
      simp only [outputs, found]
  | @fire idx timer app active inGroup running =>
      have ready := all idx running
      have runs : Runs (s.occasion d idx (¬ s.Prepared d (.timer idx timer app))
          (¬ s.Sparing d (.timer idx timer app)))
          (fireTimer (d.setup idx) app timer) (s.replicas idx) :=
        fireTimer_runs ⟨ready.proper.known, ready.proper.required⟩ ready.rests active
      obtain ⟨last, ran⟩ := Ran.of_runs inGroup running runs
      exact .ran ran rfl

/-- In every reachable state the replicas that have not stopped are ready. -/
theorem invariant_allReady (d : Deployment) :
    (system d).Invariant TransitionSystem.unguarded (AllReady d) where
  initial state initial idx _ := by
    obtain rfl := initial
    refine ⟨⟨?_, rfl⟩, ⟨OpnumSet.not_mem_empty, fun torn => absurd torn (Nat.lt_irrefl 0)⟩⟩
    intro pair sender msg found
    simp [System.initial, Replica.constructed] at found
  preserved all _ stepped := all.shifts (shifts_of_step all stepped)

/-- What every shift of ready replicas keeps holds in every reachable state. -/
theorem of_shifts {Guard : System → Action → Prop} {Inv : System → Prop}
    (initial : Inv (System.initial d))
    (preserved : ∀ {s action next}, Guard s action → s.AllReady d → Inv s →
      s.Shifts d action next → Inv next)
    {s : System} (reachable : (system d).Reachable Guard s) : Inv s := by
  have both : (system d).Invariant Guard fun s => s.AllReady d ∧ Inv s :=
    { initial := fun state isInitial => by
        obtain rfl := isInitial
        exact ⟨(invariant_allReady d).initial _ rfl, initial⟩
      preserved := fun {s action next} holds allowed stepped => by
        have shifts := shifts_of_step holds.1 stepped
        exact ⟨holds.1.shifts shifts, preserved allowed holds.1 holds.2 shifts⟩ }
  exact (both.of_reachable reachable).2

end System

end PaxosBus.NoPaxos

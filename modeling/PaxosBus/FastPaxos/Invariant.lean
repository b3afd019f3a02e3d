import PaxosBus.FastPaxos.Leading

/-!
# What stands behind a reachable state

In every reachable state there is a course of the leader that every replica
follows and no packet contradicts. A handler moves the course of its own replica
forward and justifies what it puts out by it, so a step keeps what stands behind
everybody else.
-/

set_option autoImplicit false

namespace PaxosBus.FastPaxos

open PaxosBus.Common PaxosBus.Library
open Logic (Meets)

variable {d : Deployment} {strict : Prop} {idx : Nat} {w : Course} {r : Replica} {app : App}

/-! ## Any message and any timer -/

/-- The requests that the leader has while it handles a message, and the acknowledgements that it
handles then. -/
def Replica.handles (r : Replica) : Message → Option (List Request × List PrepareOKMessage)
  | .prepareOK msg => some (r.log.requests, [msg])
  | .request msg =>
    if r.Accepts msg.req then
      some (r.log.requests ++ [msg.req], r.pendingPrepareOKs.map Prod.snd)
    else
      none
  | _ => none

/-- No acknowledgement that the leader handles on a message commits a number before everything
below it is covered. -/
def Replica.Patient (d : Deployment) (w : Course) (msg : Message) (r : Replica) : Prop :=
  ∀ handled ∈ r.handles msg, r.core.Gapless d w handled.1 handled.2

/-- Any replica handles a `PrepareOK`. -/
theorem handleAnyPrepareOK_meets {remote : Address} {msg : PrepareOKMessage}
    (follows : r.core.Follows d w strict idx) (settled : r.core.Settled) (valid : msg.Valid d w)
    (patient : idx = d.leader → strict → r.Patient d w (.prepareOK msg)) :
    (logic d strict idx).Meets (handlePrepareOK (d.setup idx) app remote msg) w r fun _ w' r' =>
      r'.core.Leaves d idx w w' := by
  by_cases leader : idx = d.leader
  · have log := (follows.leads leader).log
    have counted : ∀ opnum, senders (r.fastPrepareOKQuorum.messages ⟨0, opnum⟩) ⊆
        r.core.ackers w.log [msg] opnum := fun opnum => Finset.subset_union_left
    refine (handlePrepareOK_meets leader follows settled valid counted
      (fun matches_ => Core.mem_ackers (List.mem_singleton_self msg) matches_) ?_).imp ?_
    · intro strict_ matches_ enough
      rw [log] at matches_ enough
      exact patient leader strict_ _ rfl msg (List.mem_singleton_self msg) matches_ enough
    · rintro _ w' r' _ ⟨rfl, counts⟩
      exact ⟨.refl w', counts.settled⟩
  · exact handlePrepareOK_follower_meets leader follows settled valid

/-- Any replica handles any message that says nothing that is not so. -/
theorem receiveMessage_meets {src : Address} {msg : Message} (inGroup : idx < d.configuration.n)
    (follows : r.core.Follows d w strict idx) (settled : r.core.Settled)
    (valid : Packet.Valid d w ⟨src, .replica idx, msg⟩)
    (patient : idx = d.leader → strict → r.Patient d w msg) :
    (logic d strict idx).Meets (receiveMessage (d.setup idx) app src msg) w r fun _ w' r' =>
      r'.core.Leaves d idx w w' := by
  cases msg with
  | request msg =>
      refine handleRequest_meets inGroup follows settled valid fun leader strict_ accepts => ?_
      rw [(follows.leads leader).log]
      exact patient leader strict_ _ (if_pos accepts)
  | prepare msg => exact handlePrepare_meets inGroup follows settled valid
  | prepareOK msg => exact handleAnyPrepareOK_meets follows settled valid patient
  | commit msg => exact handleCommit_meets follows settled valid
  | requestStateTransfer msg =>
      obtain ⟨src, rfl, valid⟩ := valid
      exact handleRequestStateTransfer_meets follows settled valid
  | stateTransfer msg => exact handleStateTransfer_meets inGroup follows settled (valid idx rfl)
  | unloggedRequest msg =>
      have rest : r.core.Leaves d idx w w := ⟨.refl w, settled⟩
      refine .bind (.get follows fun _ => .branch (fun _ => .pure follows rest) fun _ => ?_)
      exact .emit follows (valid_post fun dst => trivial) rest
  | reply msg => exact .stop follows
  | unloggedReply msg => exact .stop follows

/-- Any timer may fire at any replica. -/
theorem fireTimer_meets {timer : Timer} (follows : r.core.Follows d w strict idx)
    (settled : r.core.Settled) :
    (logic d strict idx).Meets (fireTimer (d.setup idx) timer) w r fun _ w' r' =>
      r'.core.Leaves d idx w w' := by
  cases timer with
  | stateTransfer => exact .change follows ⟨.refl w, settled⟩
  | resendPrepare =>
      refine (resendPrepare_meets follows).imp ?_
      rintro _ w' r' _ ⟨rfl, same⟩
      exact ⟨.refl w', same ▸ settled⟩

/-! ## The group -/

namespace System

variable {s : System}

/-- The course stands behind the state. -/
structure Stands (d : Deployment) (strict : Prop) (s : System) (w : Course) : Prop where
  follows : ∀ idx, (s.replicas idx).core.Follows d w strict idx
  settled : ∀ idx, s.stopped idx = false → (s.replicas idx).core.Settled
  valid : ∀ packet ∈ s.network, packet.Valid d w

/-- A replica that has just been constructed follows the empty course. -/
theorem follows_constructed (d : Deployment) (strict : Prop) (idx : Nat) :
    (Replica.constructed d.configuration).core.Follows d {} strict idx where
  view := rfl
  start := rfl
  views _ none_ := nomatch none_
  length := rfl
  slow_le := Nat.le_refl 0
  known_le := Nat.le_refl 0
  agreed _ none_ := absurd none_ (Nat.not_lt_zero _)
  executed := List.prefix_rfl
  executed_le := Nat.le_refl 0
  slow := Nat.le_refl 0
  committed := Nat.le_refl 0
  guessed _ _ none_ := False.elim none_
  prepares _ none_ := nomatch none_
  leads _ := {
    log := rfl
    paths := rfl
    prepare := ⟨rfl, fun none_ => absurd none_ (Nat.lt_irrefl 0)⟩
    numbers := fun _ none_ => nomatch none_
    table := fun _ none_ => nomatch none_
    once := List.nodup_nil
    pending := fun _ none_ => nomatch none_
    slowRequired := Nat.le_refl _
    fastRequired := Nat.le_add_right _ _
    slowAcks := fun _ _ _ none_ => by simp [Replica.core, Replica.constructed] at none_
    fastAcks := fun _ _ _ none_ => by simp [Replica.core, Replica.constructed] at none_
    covered := fun _ opnum positive le => absurd le (Nat.not_le.mpr positive) }

theorem stands_initial (d : Deployment) (strict : Prop) : (initial d).Stands d strict {} where
  follows := follows_constructed d strict
  settled _ _ := ⟨rfl, Nat.le_refl 0⟩
  valid _ none_ := nomatch none_

/-- What a replica does stands, if its outputs are justified and it is left settled. -/
theorem Stands.absorb (stands : s.Stands d strict w) {w' : Course}
    {outcome : Outcome Replica Send Unit} (later : w.Later d idx w')
    (valid : ∀ output ∈ outcome.outputs, ∀ packet ∈ post d.configuration idx output,
      packet.Valid d w')
    (follows : outcome.state.core.Follows d w' strict idx)
    (settled : outcome.value.isNone = false → outcome.state.core.Settled) :
    (s.absorb d idx outcome).Stands d strict w' where
  follows other := by
    by_cases who : other = idx
    · subst who
      simpa [System.absorb] using follows
    · simp only [System.absorb, Function.update_of_ne who]
      exact (stands.follows other).frame later who
  settled other running := by
    by_cases who : other = idx
    · subst who
      simp only [System.absorb, Function.update_self] at running ⊢
      exact settled running
    · simp only [System.absorb, Function.update_of_ne who] at running ⊢
      exact stands.settled other running
  valid packet inNetwork := by
    rcases List.mem_append.mp inNetwork with old | new
    · exact (stands.valid packet old).later later
    · obtain ⟨output, inOutputs, posted⟩ := List.mem_flatMap.mp new
      exact valid output inOutputs packet posted

/-- A handler that a replica runs. -/
theorem Stands.of_meets (stands : s.Stands d strict w) {handler : Run Unit}
    (meets : (logic d strict idx).Meets handler w (s.replicas idx) fun _ w' r' =>
      r'.core.Leaves d idx w w') :
    ∃ w', (s.absorb d idx (handler (s.replicas idx))).Stands d strict w' := by
  obtain ⟨w', later, valid, follows, post⟩ := meets
  refine ⟨w', stands.absorb later valid follows fun ended => ?_⟩
  cases value : (handler (s.replicas idx)).value with
  | none => simp [value] at ended
  | some result => exact (post result value).2

/-- A client's packet changes nothing. -/
theorem Stands.post_client (stands : s.Stands d strict w) {packet : Packet}
    (fromClient : packet.Valid d w) :
    ({ s with network := s.network ++ [packet] } : System).Stands d strict w where
  follows := stands.follows
  settled := stands.settled
  valid other inNetwork := by
    rcases List.mem_append.mp inNetwork with old | new
    · exact stands.valid other old
    · obtain rfl := List.mem_singleton.mp new
      exact fromClient

/-- No acknowledgement that the leader handles in a step commits a number before everything below
it is covered. -/
def Patient (d : Deployment) (w : Course) (s : System) : Action → Prop
  | .deliver position _ => ∀ src msg, s.network[position]? = some ⟨src, .replica d.leader, msg⟩ →
      (s.replicas d.leader).Patient d w msg
  | _ => True

/-- A step leads to a state that a course stands behind. -/
theorem Stands.step (stands : s.Stands d strict w) {action : Action}
    (patient : strict → s.Patient d w action) {next : System}
    (stepped : s.step d action = some next) : ∃ w', next.Stands d strict w' := by
  cases action with
  | request client idx clientid clientreqid =>
      obtain rfl := Option.some.inj stepped
      exact ⟨w, stands.post_client rfl⟩
  | unloggedRequest client idx msg =>
      obtain rfl := Option.some.inj stepped
      exact ⟨w, stands.post_client trivial⟩
  | deliver position app =>
      simp only [System.step] at stepped
      split at stepped
      next src idx msg found =>
          unfold System.runAt at stepped
          split at stepped
          next enabled =>
              obtain rfl := Option.some.inj stepped
              have valid := stands.valid _ (List.mem_of_getElem? found)
              refine stands.of_meets (receiveMessage_meets enabled.1 (stands.follows idx)
                (stands.settled idx enabled.2) valid ?_)
              rintro rfl strict_
              exact patient strict_ src msg found
          next => simp at stepped
      next => simp at stepped
  | timer idx timer =>
      simp only [System.step] at stepped
      split at stepped
      next =>
          unfold System.runAt at stepped
          split at stepped
          next enabled =>
              obtain rfl := Option.some.inj stepped
              exact stands.of_meets
                (fireTimer_meets (stands.follows idx) (stands.settled idx enabled.2))
          next => simp at stepped
      next => simp at stepped

end System

end PaxosBus.FastPaxos

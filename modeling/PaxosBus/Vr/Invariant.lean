import PaxosBus.Vr.Recovery

/-!
# The invariant of the group

Behind every state that is reached by defined steps, without taking a branch on
which agreement is lost, stands a state of the replicated logs: every running
replica is backed by it, every packet is genuine in it, and so is what has been
executed, prepared and started.
-/

set_option autoImplicit false

namespace PaxosBus.Vr

open PaxosBus.Common PaxosBus.Library World

variable {d : Deployment} {admits : Admission}

/-- A packet says nothing that is not so. -/
def Packet.Genuine {c : Configuration} (w : World c admits) (packet : Packet) : Prop :=
  packet.msg.Genuine w packet.src packet.dst

namespace System

/-- What stands behind a state of the group. -/
structure Stands (w : World d.configuration admits) (s : System) : Prop where
  recorded : ∀ idx, (s.replicas idx).Recorded w idx
  backed : ∀ idx, s.stopped idx = false → (s.replicas idx).Backed w idx
  genuine : ∀ packet ∈ s.network, packet.Genuine w
  executed : ∀ idx opnum request, (idx, opnum, request) ∈ s.executed → Executable w opnum request
  prepared : ∀ view opnum entries, (view, opnum, entries) ∈ s.prepared →
    w.Chosen view opnum ∧ opnum ≤ entries.length ∧
      entries.map LogEntry.operation <+: w.viewLog view
  started : ∀ view entries, (view, entries) ∈ s.started →
    w.logs.base view = some (entries.map LogEntry.operation)

/-- A replica that has just been constructed has collected nothing. -/
theorem collected_blank (w : World d.configuration admits) (idx : Nat) :
    (Replica.blank d.configuration).core.Collected w idx where
  required := rfl
  requiredVotes := rfl
  acks _ _ _ none_ := by simp [Replica.blank, Replica.core] at none_
  votes _ _ _ none_ := by simp [Replica.blank, Replica.core] at none_
  pending _ none_ := nomatch none_
  resendable index request none_ := by simp [Replica.blank, Replica.core] at none_

/-- Before anything has happened every replica is active in view zero. -/
theorem stands_initial (balanced : d.configuration.Balanced) :
    (initial d).Stands (World.initial d.configuration admits) where
  recorded _ := ⟨rfl, rfl⟩
  backed idx _ := by
    have placed : (Replica.initialized (d.setup idx)).core.Placed
        (World.initial d.configuration admits) idx := {
      start := rfl
      log := rfl
      lastOp := rfl
      committed := decided_zero balanced 0
      committed_le := Nat.le_refl 0
      collected := { collected_blank (World.initial d.configuration admits) idx with } }
    exact .inl (.inl { placed := placed, normal := rfl, view := rfl, fence := rfl })
  genuine _ none_ := nomatch none_
  executed _ _ _ none_ := nomatch none_
  prepared _ _ _ none_ := nomatch none_
  started _ _ none_ := nomatch none_

/-! ## What a handler puts out -/

/-- A message for all others is genuine for each of them. -/
theorem genuine_of_others {w : World d.configuration admits} {src idx : Nat} {msg : Message}
    (valid : msg.Valid w src .others) : msg.Genuine w (.replica src) (.replica idx) := by
  cases msg with
  | stateTransfer msg => exact False.elim valid
  | _ => exact valid

/-- The packets of a justified output are genuine. -/
theorem genuine_post {w : World d.configuration admits} {src : Nat} {output : Output}
    (valid : output.Valid w src) {packet : Packet}
    (posted : packet ∈ post d.configuration src output) : packet.Genuine w := by
  cases output with
  | send dst msg =>
      cases dst with
      | one addr =>
          obtain rfl := List.mem_singleton.mp posted
          exact valid
      | others =>
          obtain ⟨idx, -, rfl⟩ := List.mem_map.mp posted
          exact genuine_of_others valid
  | execute opnum request => exact nomatch posted
  | prepared view opnum entries => exact nomatch posted
  | started view entries => exact nomatch posted

/-! ## One step -/

variable {s : System} {w w' : World d.configuration admits} {idx : Nat}
  {outcome : Outcome Replica Output Unit}

/-- Genuine packets stay genuine. -/
theorem genuine_grows {packet : Packet} (genuine : packet.Genuine w)
    (grows : ViewLogs.Grows w.logs w'.logs) : packet.Genuine w' := by
  rcases packet with ⟨src, dst, msg⟩
  cases src with
  | client addr => exact genuine
  | replica src => exact Message.Valid.grows genuine grows

/-- What a replica does stands, if its outputs are justified and it is left backed. -/
theorem Stands.absorb (stands : s.Stands w) (moves : Later idx w w')
    (valid : ∀ output ∈ outcome.outputs, output.Valid w' idx)
    (recorded : outcome.state.Recorded w' idx)
    (backed : outcome.value.isNone = false → outcome.state.Backed w' idx) :
    (s.absorb d idx outcome).Stands w' where
  recorded other := by
    by_cases who : other = idx
    · subst who
      simpa [System.absorb] using recorded
    · obtain ⟨-, normalView, fence⟩ := ViewLogs.Steps.frame moves who
      simp only [System.absorb, Function.update_of_ne who]
      exact ⟨normalView.trans (stands.recorded other).1, fence.trans (stands.recorded other).2⟩
  backed other running := by
    by_cases who : other = idx
    · subst who
      simp only [System.absorb, Function.update_self] at running ⊢
      exact backed running
    · obtain ⟨logIn, -, -⟩ := ViewLogs.Steps.frame moves who
      simp only [System.absorb, Function.update_of_ne who] at running ⊢
      exact (stands.backed other running).frame moves.grows logIn
  genuine packet inNetwork := by
    rcases List.mem_append.mp inNetwork with old | new
    · exact genuine_grows (stands.genuine packet old) moves.grows
    · obtain ⟨output, inOutputs, posted⟩ := List.mem_flatMap.mp new
      exact genuine_post (valid output inOutputs) posted
  executed other opnum request done := by
    rcases List.mem_append.mp done with old | new
    · have before : (Output.execute opnum request).Valid w idx :=
        stands.executed other opnum request old
      exact before.later moves
    · obtain ⟨_, inDone, ⟨⟩⟩ := List.mem_map.mp new
      obtain ⟨output, inOutputs, execution⟩ := List.mem_filterMap.mp inDone
      cases output with
      | execute opnum' request' =>
          obtain ⟨⟩ := execution
          exact valid _ inOutputs
      | _ => exact nomatch execution
  prepared view opnum entries marked := by
    rcases List.mem_append.mp marked with old | new
    · have before : (Output.prepared view opnum entries).Valid w idx :=
        stands.prepared view opnum entries old
      exact before.later moves
    · obtain ⟨output, inOutputs, preparation⟩ := List.mem_filterMap.mp new
      cases output with
      | prepared view' opnum' entries' =>
          obtain ⟨⟩ := preparation
          exact valid _ inOutputs
      | _ => exact nomatch preparation
  started view entries marked := by
    rcases List.mem_append.mp marked with old | new
    · have before : (Output.started view entries).Valid w idx :=
        stands.started view entries old
      exact before.later moves
    · obtain ⟨output, inOutputs, start⟩ := List.mem_filterMap.mp new
      cases output with
      | started view' entries' =>
          obtain ⟨⟩ := start
          exact valid _ inOutputs
      | _ => exact nomatch start

/-- A handler that a replica runs. -/
theorem Stands.of_meets (stands : s.Stands w) {handler : Run Unit}
    (meets : ((d.setup idx).logic admits).Meets handler w (s.replicas idx)
      fun _ w' r' => r'.Backed w' idx) :
    ∃ w' : World d.configuration admits, (s.absorb d idx (handler (s.replicas idx))).Stands w' := by
  obtain ⟨w', moves, valid, recorded, post⟩ := meets
  refine ⟨w', stands.absorb moves valid recorded fun ended => ?_⟩
  cases value : (handler (s.replicas idx)).value with
  | none => simp [value] at ended
  | some result => exact post result value

/-- A replica that crashes is recovering. -/
theorem Stands.crash (stands : s.Stands w) {nonce : Nat} {next : System}
    (crashed : s.crash d idx nonce = some next) : next.Stands w := by
  unfold System.crash at crashed
  split at crashed
  next =>
      obtain rfl := Option.some.inj crashed
      have recovering :
          ((s.replicas idx).restarted (d.setup idx) nonce).Recovering w idx := {
        status := rfl
        view := rfl
        start := rfl
        log := rfl
        lastOp := rfl
        lastCommitted := rfl
        quiet := rfl
        collected := { collected_blank w idx with } }
      refine stands.absorb .refl ?_ (stands.recorded idx) (fun _ => .inr recovering)
      intro output inOutputs
      obtain rfl := List.mem_singleton.mp inOutputs
      trivial
  next => simp at crashed

/-- A client's packet changes nothing. -/
theorem Stands.post_client (stands : s.Stands w) {client : Nat} {msg : Message}
    (fromClient : msg.FromClient) :
    ({ s with network := s.network ++ [⟨.client client, .replica idx, msg⟩] } : System).Stands
      w where
  recorded := stands.recorded
  backed := stands.backed
  genuine packet inNetwork := by
    rcases List.mem_append.mp inNetwork with old | new
    · exact stands.genuine packet old
    · obtain rfl := List.mem_singleton.mp new
      exact fromClient
  executed := stands.executed
  prepared := stands.prepared
  started := stands.started

/-- Whether what a delivered request leads to may be appended. -/
def Admits (d : Deployment) (admits : Admission) (s : System) : Action → Prop
  | .deliver position _ _ => ∀ src idx msg, s.network[position]? = some ⟨src, .replica idx, msg⟩ →
      msg.Admitted (d.setup idx) admits (s.replicas idx)
  | _ => True

/-- A step that is defined and takes none of the branches on which agreement is lost keeps the
invariant. -/
theorem Stands.step (balanced : d.configuration.Balanced) (stands : s.Stands w) {action : Action}
    (clear : s.Clear d action) (admitted : s.Admits d admits action) {next : System}
    (stepped : s.step d action = some next) :
    ∃ w' : World d.configuration admits, next.Stands w' := by
  cases action with
  | request client idx msg =>
      obtain rfl := Option.some.inj stepped
      exact ⟨w, stands.post_client trivial⟩
  | unloggedRequest client idx msg =>
      obtain rfl := Option.some.inj stepped
      exact ⟨w, stands.post_client trivial⟩
  | deliver position app undefined =>
      simp only [System.step] at stepped
      split at stepped
      next src idx msg found =>
          unfold System.runAt at stepped
          split at stepped
          next enabled =>
              obtain rfl := Option.some.inj stepped
              have inNetwork := List.mem_of_getElem? found
              obtain ⟨defined, errs⟩ := clear _ (Option.mem_toList.mpr found)
              refine stands.of_meets ?_
              apply receiveMessage_meets balanced enabled.1 (stands.recorded idx)
                (stands.backed idx enabled.2)
              · exact stands.genuine _ inNetwork
              · exact admitted src idx msg found
              · exact defined
              · exact errs
          next => simp at stepped
      next => simp at stepped
  | timer idx timer =>
      simp only [System.step] at stepped
      split at stepped
      next running =>
          unfold System.runAt at stepped
          split at stepped
          next enabled =>
              obtain rfl := Option.some.inj stepped
              refine stands.of_meets ?_
              exact fireTimer_meets balanced (stands.recorded idx) (stands.backed idx enabled.2)
                running
          next => simp at stepped
      next => simp at stepped
  | crash idx nonce => exact ⟨w, stands.crash stepped⟩

/-- Something stands behind every state that is reached by defined steps without taking a branch on
which agreement is lost. -/
theorem invariant_stands (balanced : d.configuration.Balanced) (admits : Admission) :
    (system d).Invariant (fun s action => s.Clear d action ∧ s.Admits d admits action)
      fun s => ∃ w : World d.configuration admits, s.Stands w where
  initial state initial := by
    obtain rfl := initial
    exact ⟨_, stands_initial balanced⟩
  preserved holds guarded stepped := by
    obtain ⟨w, stands⟩ := holds
    exact stands.step balanced guarded.1 guarded.2 stepped

end System

end PaxosBus.Vr

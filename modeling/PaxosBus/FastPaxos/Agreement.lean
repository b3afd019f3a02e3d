import PaxosBus.FastPaxos.Invariant

/-!
# Agreement on what is executed

Every replica executes the leader's log from its beginning on, whatever order
the requests reach the followers in, and the leader puts no request of a client
into its log twice.
-/

set_option autoImplicit false

namespace PaxosBus.FastPaxos

open PaxosBus.Common PaxosBus.Library

variable {d : Deployment} {s : System}

namespace System

/-- What a replica has executed, and what the leader has, go the same way, and no replica has
executed a client's request twice. -/
structure ExecutedAgree (d : Deployment) (s : System) : Prop where
  sequences : ∀ idx, (s.replicas idx).executed <+: (s.replicas d.leader).executed ∨
    (s.replicas d.leader).executed <+: (s.replicas idx).executed
  once : ∀ idx, ((s.replicas idx).executed.map Request.reqid).Nodup

/-- A course stands behind every reachable state. -/
theorem invariant_stands (d : Deployment) :
    (system d).Invariant TransitionSystem.unguarded fun s => ∃ w, s.Stands d False w where
  initial state initial := by
    obtain rfl := initial
    exact ⟨{}, stands_initial d False⟩
  preserved holds _ stepped := by
    obtain ⟨w, stands⟩ := holds
    exact stands.step False.elim stepped

/-- Replicas agree where a course stands behind them: all that they have executed is the beginning
of the leader's log. -/
theorem Stands.executedAgree {strict : Prop} {w : Course} (stands : s.Stands d strict w) :
    s.ExecutedAgree d where
  sequences idx := by
    have mine := (stands.follows idx).executed
    have leaders := (stands.follows d.leader).executed
    exact List.prefix_or_prefix_of_prefix mine leaders
  once idx := by
    have once := ((stands.follows d.leader).leads rfl).once
    have mine := (stands.follows idx).executed.map Request.reqid
    exact once.sublist mine.sublist

/-- Replicas agree on what they execute, in every reachable state. -/
theorem executedAgree_of_reachable
    (reachable : (system d).Reachable TransitionSystem.unguarded s) : s.ExecutedAgree d := by
  obtain ⟨w, stands⟩ := (invariant_stands d).of_reachable reachable
  exact stands.executedAgree

/-! ## A deployment of three replicas -/

/-- Three replicas, of which replica 0 leads, and clients that always ask for the same. -/
def trio : Deployment where
  configuration := { n := 3, f := 1 }
  operation _ _ := "op"

theorem balanced_trio : trio.configuration.Balanced := rfl

/-- The packets at some positions are delivered in this order. -/
def deliveries (positions : List Nat) : List Action :=
  positions.map fun position => .deliver position {}

/-- Two clients' requests reach replica 1 in the other order than the leader. Replica 1 gets the
leader's log by a state transfer, and the leader commits both requests with its acknowledgements;
replica 1 hears of the first commitment only. -/
def crossedRun : List Action :=
  [.request 0 0 7 1, .request 0 0 8 1, .request 0 1 8 1, .request 0 1 7 1] ++
    deliveries [2, 3, 0, 1] ++ deliveries [4, 6, 8, 10] ++ deliveries [11, 12, 15]

/-- After the crossed run replica 1 has executed the first of the leader's two requests. -/
theorem executedAgree_crossedRun : ∃ s : System, (s.replicas 0).executed.length = 2 ∧
    (s.replicas 1).executed.length = 1 ∧ s.ExecutedAgree trio := by
  obtain ⟨s, reachable, happened⟩ := (system trio).exists_reachable_of_run
    TransitionSystem.unguarded (fun s => decide ((s.replicas 0).executed.length = 2 ∧
      (s.replicas 1).executed.length = 1)) crossedRun rfl (by decide +kernel)
  obtain ⟨both, first⟩ := of_decide_eq_true happened
  exact ⟨s, both, first, executedAgree_of_reachable reachable⟩

end System

end PaxosBus.FastPaxos

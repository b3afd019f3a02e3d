import PaxosBus.FastPaxos.Agreement

/-!
# Durability of what the leader commits

The leader commits a number, and with it everything below, as soon as enough
followers acknowledge the number. On the slow path an acknowledgement speaks for
everything below its number as well. On the fast path it does not: a follower
that has the leader's request at a number may have others below, and these are
then committed although nobody else has them. What the leader commits is held by
`f` followers in the runs that stay clear of that.
-/

set_option autoImplicit false

namespace PaxosBus.FastPaxos

open PaxosBus.Common PaxosBus.Library

variable {d : Deployment} {strict : Prop} {s : System} {w : Course} {idx : Nat}

/-- The request that a replica has at a number. -/
def Replica.requestAt (r : Replica) (opnum : Nat) : Option Request :=
  (r.log.find opnum).map LogEntry.request

/-- A replica that follows a course keeps its requests from number one on. -/
theorem requestAt_eq_some {r : Replica} (follows : r.core.Follows d w strict idx) {opnum : Nat}
    {req : Request} :
    r.requestAt opnum = some req ↔ 0 < opnum ∧ r.log.requests[opnum - 1]? = some req := by
  have start : r.log.start = 1 := follows.start
  unfold Replica.requestAt Log.find Log.requests
  rw [start, List.getElem?_map]
  by_cases none_ : opnum < 1
  · simp [none_, show ¬ 0 < opnum by omega]
  · simp [none_, show 0 < opnum by omega]

namespace System

/-- The followers that have the leader's request at a number. -/
def holders (d : Deployment) (s : System) (opnum : Nat) : Finset Nat :=
  (Finset.range d.configuration.n).filter fun idx => idx ≠ d.leader ∧
    ∃ req ∈ ((s.replicas d.leader).requestAt opnum).toList,
      (s.replicas idx).requestAt opnum = some req

theorem mem_holders {opnum : Nat} : idx ∈ s.holders d opnum ↔
    idx < d.configuration.n ∧ idx ≠ d.leader ∧
      ∃ req, (s.replicas d.leader).requestAt opnum = some req ∧
        (s.replicas idx).requestAt opnum = some req := by
  simp [holders]

/-- Whatever the leader has committed, `f` followers have. -/
def Durable (d : Deployment) (s : System) : Prop :=
  ∀ opnum ≤ (s.replicas d.leader).lastCommitted, 0 < opnum →
    d.configuration.f ≤ (s.holders d opnum).card

instance (d : Deployment) (s : System) : Decidable (s.Durable d) :=
  inferInstanceAs (Decidable (∀ opnum ≤ (s.replicas d.leader).lastCommitted, _))

/-- While the leader handles some acknowledgements, one of them completes a quorum on the fast
path for a number, and a number below that is not yet committed is held by fewer than `f`
followers. -/
def Exposes (d : Deployment) (s : System) (requests : List Request)
    (acks : List PrepareOKMessage) : Prop :=
  ∃ ack ∈ acks, ack.Matches requests ∧
    (s.replicas d.leader).fastPrepareOKQuorum.numRequired ≤
      ((s.replicas d.leader).core.ackers requests acks ack.opnum).card ∧
    ∃ opnum < ack.opnum, (s.replicas d.leader).lastCommitted < opnum ∧
      (s.holders d opnum).card < d.configuration.f

instance (d : Deployment) (s : System) (requests : List Request) (acks : List PrepareOKMessage) :
    Decidable (s.Exposes d requests acks) :=
  inferInstanceAs (Decidable (∃ ack ∈ acks, _))

/-- The step does not make the leader commit, on the fast path, a number above one that fewer than
`f` followers hold. -/
def Covers (d : Deployment) (s : System) : Action → Prop
  | .deliver position _ => ∀ packet ∈ s.network[position]?.toList,
      packet.dst = .replica d.leader →
        ∀ handled ∈ ((s.replicas d.leader).handles packet.msg).toList,
          ¬ s.Exposes d handled.1 handled.2
  | _ => True

instance (d : Deployment) (s : System) (action : Action) : Decidable (s.Covers d action) := by
  cases action <;> unfold Covers <;> infer_instance

/-! ## What is covered is held -/

/-- A follower that is known to have the leader's request has it. -/
theorem Stands.mem_holders_of_holds (stands : s.Stands d strict w) {opnum : Nat}
    (inGroup : idx < d.configuration.n) (follower : idx ≠ d.leader) (positive : 0 < opnum)
    (inside : opnum ≤ w.log.length) (holds : w.Holds idx opnum) : idx ∈ s.holders d opnum := by
  have follows := stands.follows idx
  have leader := stands.follows d.leader
  have index : opnum - 1 < w.log.length := by omega
  have here : w.log[opnum - 1]? = some w.log[opnum - 1] := List.getElem?_eq_getElem index
  have mine : (s.replicas idx).log.requests[opnum - 1]? = some w.log[opnum - 1] := by
    rcases holds with known | ⟨req, has, guessed⟩
    · have known := known.trans follows.slow
      exact (follows.agreed (opnum - 1) (by omega)).trans here
    · rcases follows.guessed opnum req guessed with own | ⟨req', here', own⟩
      · exact own.trans (has.2.symm.trans here)
      · exact own.trans (here'.symm.trans here)
  have log := (leader.leads rfl).log
  refine mem_holders.mpr ⟨inGroup, follower, w.log[opnum - 1], ?_, ?_⟩
  · exact (requestAt_eq_some leader).mpr ⟨positive, (congrArg (·[opnum - 1]?) log).symm.trans here⟩
  · exact (requestAt_eq_some follows).mpr ⟨positive, mine⟩

/-- Where everything committed is covered, it is held. -/
theorem Stands.durable (stands : s.Stands d True w) : s.Durable d := by
  intro opnum le positive
  have leader := stands.follows d.leader
  have inside : opnum ≤ w.log.length :=
    le.trans ((Nat.le_max_right _ _).trans leader.known_le)
  obtain ⟨holders, enough, all⟩ := (leader.leads rfl).covered trivial opnum positive le
  refine enough.trans (Finset.card_le_card fun idx member => ?_)
  obtain ⟨inGroup, follower, holds⟩ := all idx member
  exact stands.mem_holders_of_holds inGroup follower positive inside holds

/-! ## What is held can be told -/

/-- The course knows of the requests that the replica has now. -/
def Told (s : System) (w : Course) (idx : Nat) : Prop :=
  ∀ opnum req, (s.replicas idx).log.requests[opnum - 1]? = some req → w.guessed idx opnum req

/-- All the replicas up to some index can let everybody know their states. -/
theorem Stands.exists_told (stands : s.Stands d strict w) (count : Nat) :
    ∃ w', s.Stands d strict w' ∧ ∀ idx < count, s.Told w' idx := by
  induction count with
  | zero => exact ⟨w, stands, fun idx none_ => absurd none_ (Nat.not_lt_zero idx)⟩
  | succ count inductionHypothesis =>
      obtain ⟨w', stands', told⟩ := inductionHypothesis
      have later := (stands'.follows count).later_tell
      refine ⟨w'.tell count (s.replicas count).core, ?_, ?_⟩
      · constructor
        · intro other
          by_cases who : other = count
          · subst who
            exact (stands'.follows other).tell
          · exact (stands'.follows other).frame later who
        · exact stands'.settled
        · exact fun packet inNetwork => (stands'.valid packet inNetwork).later later
      · intro idx below opnum req here
        rcases Nat.lt_succ_iff_lt_or_eq.mp below with before | rfl
        · exact later.guessed idx opnum req (told idx before opnum req here)
        · exact .inr ⟨rfl, here⟩

/-- What is held by followers that have told is covered. -/
theorem Stands.covered_of_holders (stands : s.Stands d strict w)
    (told : ∀ idx < d.configuration.n, s.Told w idx) {opnum : Nat}
    (enough : d.configuration.f ≤ (s.holders d opnum).card) : w.Covered d opnum := by
  refine ⟨s.holders d opnum, enough, fun idx member => ?_⟩
  obtain ⟨inGroup, follower, req, leaders, mine⟩ := mem_holders.mp member
  have leader := stands.follows d.leader
  obtain ⟨positive, here⟩ := (requestAt_eq_some leader).mp leaders
  obtain ⟨-, has⟩ := (requestAt_eq_some (stands.follows idx)).mp mine
  have log := (leader.leads rfl).log
  refine ⟨inGroup, follower, .inr ⟨req, ⟨positive, ?_⟩, told idx inGroup opnum req has⟩⟩
  exact (congrArg (·[opnum - 1]?) log).trans here

/-- A step that exposes no number is patient where the followers have told what they have. -/
theorem Stands.patient_of_covers (stands : s.Stands d strict w)
    (told : ∀ idx < d.configuration.n, s.Told w idx) {action : Action}
    (covers : s.Covers d action) : s.Patient d w action := by
  cases action with
  | deliver position app =>
      intro src msg found handled inHandles ack inAcks matches_ enough opnum above below
      have safe := covers _ (Option.mem_toList.mpr found) rfl handled
        (Option.mem_toList.mpr inHandles)
      apply stands.covered_of_holders told
      by_contra few
      exact safe ⟨ack, inAcks, matches_, enough, opnum, below, above, Nat.not_le.mp few⟩
  | request | unloggedRequest | timer => trivial

/-- A course in which all that is committed is covered stands behind every state that is reached
without exposing a number. -/
theorem invariant_covered (d : Deployment) :
    (system d).Invariant (Covers d) fun s => ∃ w, s.Stands d True w where
  initial state initial := by
    obtain rfl := initial
    exact ⟨{}, stands_initial d True⟩
  preserved holds covers stepped := by
    obtain ⟨w, stands⟩ := holds
    obtain ⟨w', stands', told⟩ := stands.exists_told d.configuration.n
    exact stands'.step (fun _ => stands'.patient_of_covers told covers) stepped

/-- What the leader has committed is held by `f` followers, in every run in which no fast quorum
commits a number above one that fewer than `f` followers hold. -/
theorem durable_of_covers (reachable : (system d).Reachable (Covers d) s) : s.Durable d := by
  obtain ⟨w, stands⟩ := (invariant_covered d).of_reachable reachable
  exact stands.durable

/-- In the crossed run two requests are committed and durable. -/
theorem durable_crossedRun :
    ∃ s : System, (s.replicas 0).lastCommitted = 2 ∧ s.Durable trio := by
  obtain ⟨s, reachable, committed⟩ := (system trio).exists_reachable_of_run (Covers trio)
    (fun s => decide ((s.replicas 0).lastCommitted = 2)) crossedRun rfl (by decide +kernel)
  exact ⟨s, of_decide_eq_true committed, durable_of_covers reachable⟩

/-- The leader has the request of client 7 at number 1, where both followers have the one of
client 8, and all have the one of client 9 at number 2. The acknowledgements of number 1 do not
match, and one of the two of number 2 has been counted. -/
def overtakenRun : List Action :=
  [.request 0 0 7 1] ++ deliveries [0] ++ [.request 0 1 8 1, .request 0 2 8 1] ++
    deliveries [1, 2] ++ [.request 0 0 9 1, .request 0 1 9 1, .request 0 2 9 1] ++
    deliveries [5, 6, 7, 8]

/-- The last acknowledgement makes the leader commit both numbers, and nobody else has its
request at number 1. -/
theorem not_durable_overtakenRun : ¬ ∀ (d : Deployment) (s next : System) (action : Action),
    d.configuration.Balanced → (system d).Reachable TransitionSystem.unguarded s →
      s.step d action = some next →
        (s.replicas d.leader).lastCommitted < (next.replicas d.leader).lastCommitted →
          next.Durable d := by
  intro always
  obtain ⟨s, reachable, commits⟩ := (system trio).exists_reachable_of_run
    TransitionSystem.unguarded (fun s => (s.step trio (.deliver 9 {})).any fun (next : System) =>
      decide ((s.replicas 0).lastCommitted < (next.replicas 0).lastCommitted ∧
        ¬ next.Durable trio)) overtakenRun rfl (by decide +kernel)
  obtain ⟨next, stepped, happened⟩ := (Option.any_eq_true _ _).mp commits
  obtain ⟨raised, lost⟩ := of_decide_eq_true happened
  exact lost (always trio s next _ balanced_trio reachable stepped raised)

end System

end PaxosBus.FastPaxos

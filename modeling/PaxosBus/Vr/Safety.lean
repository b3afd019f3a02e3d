import PaxosBus.Vr.Invariant

/-!
# What the group guarantees

Agreement on what is executed, survival of what was prepared, and matching of
logs, each along the runs of defined steps that take none of the branches on
which agreement is lost, and each with a run of defined steps that takes one and
loses it.
-/

set_option autoImplicit false

namespace PaxosBus.Vr

open PaxosBus.Common PaxosBus.Library World

variable {d : Deployment} {s : System}

namespace System

/-- Where anything may be appended, so may what a request leads to. -/
theorem admits_of_free (s : System) (action : Action) : s.Admits d (fun _ _ => True) action := by
  cases action with
  | deliver position app undefined =>
      intro src idx msg _
      cases msg with
      | request msg => exact fun _ _ => trivial
      | _ => trivial
  | _ => trivial

/-- Something stands behind every state that is reached by defined steps without taking a branch
on which agreement is lost, whatever the clients ask for. -/
theorem exists_stands (balanced : d.configuration.Balanced)
    (reachable : (system d).Reachable (Clear d) s) :
    ∃ w : World d.configuration (fun _ _ => True), s.Stands w := by
  refine (invariant_stands balanced fun _ _ => True).of_reachable (reachable.imp ?_)
  exact fun state action clear => ⟨clear, admits_of_free state action⟩

/-! ## A deployment of three replicas -/

/-- Three replicas that send a batch for each request. -/
def trio : Deployment where
  configuration := { n := 3, f := 1 }
  batchSize := 1

theorem balanced_trio : trio.configuration.Balanced := rfl

/-- The one request of a client. -/
def only (clientid : Nat) (op : String) : RequestMessage where
  req := { op := op, clientid := clientid, clientreqid := 1 }

/-- A client sends a request to a replica, which gets it at once, as packet `position`. -/
def ask (client idx : Nat) (op : String) (position : Nat) : List Action :=
  [.request client idx (only client op), .deliver position {} {}]

/-- The packets at some positions are delivered in this order. -/
def deliveries (positions : List Nat) : List Action :=
  positions.map fun position => .deliver position {} {}

/-- Replica 0 leads view 0 and commits a request with replica 1, which then leads view 1. -/
def quietRun : List Action :=
  ask 7 0 "a" 0 ++ deliveries [1, 3, 5] ++ [.timer 2 .viewChange] ++ deliveries [8, 10, 11]

/-- Replica 0 has logged a request in view 0 that nobody else has. Replica 1 leads view 1 and logs
another that nobody else has. Replica 0 leads view 3 with its own log, commits its request with
replica 2, which then votes for view 4. Replica 1 leads view 4 with its own log, because that ends
in an entry of view 1. -/
def outrankedRun : List Action :=
  ask 7 0 "a" 0 ++ [.timer 1 .viewChange] ++ deliveries [4, 6, 7] ++ ask 8 1 "b" 10 ++
    [.timer 2 .viewChange, .timer 2 .viewChange] ++ deliveries [15, 18, 19, 21, 22] ++
    [.timer 2 .viewChange] ++ deliveries [27, 29, 30]

/-- Replica 0 has logged a request in view 0 that nobody else has. It is transferred into view 1
with that log, while the log of the view is still empty, and takes the second request of that
view for the next one. -/
def suffixRun : List Action :=
  ask 7 0 "a" 0 ++ [.timer 1 .viewChange] ++ deliveries [4, 6, 7] ++ [.timer 1 .nullCommit] ++
    deliveries [10, 12, 14] ++ ask 8 1 "b" 16 ++ ask 9 1 "c" 19 ++ deliveries [20]

/-! ## Agreement -/

/-- Replicas that have executed an operation number have executed the same request there. -/
def ExecutedAgree (s : System) : Prop :=
  ∀ mine ∈ s.executed, ∀ theirs ∈ s.executed, mine.2.1 = theirs.2.1 → mine.2.2 = theirs.2.2

instance (s : System) : Decidable s.ExecutedAgree :=
  inferInstanceAs (Decidable (∀ mine ∈ s.executed, _))

/-- Two requests that were chosen for one operation number are the same. -/
theorem request_eq_of_executable {c : Configuration} {admits : Admission} {w : World c admits}
    (balanced : c.Balanced) {opnum : Nat} {mine theirs : Request}
    (holds : Executable w opnum mine) (holds' : Executable w opnum theirs) : mine = theirs := by
  obtain ⟨positive, view, operation, chosen, found, rfl⟩ := holds
  obtain ⟨-, view', operation', chosen', found', rfl⟩ := holds'
  have agree := w.sound.chosen_unique balanced chosen chosen'
  have here := congrArg (·[opnum - 1]?) agree
  simp only [List.getElem?_take, if_pos (show opnum - 1 < opnum by omega)] at here
  have same : some operation = some operation' := found.symm.trans (here.trans found')
  rw [Option.some.inj same]

/-- Replicas agree on what they execute, in every run of defined steps that takes none of the
branches on which agreement is lost. -/
theorem executedAgree_of_clear (balanced : d.configuration.Balanced)
    (reachable : (system d).Reachable (Clear d) s) : s.ExecutedAgree := by
  obtain ⟨w, stands⟩ := exists_stands balanced reachable
  rintro ⟨i, opnum, mine⟩ inExecuted ⟨j, _, theirs⟩ inExecuted' rfl
  exact request_eq_of_executable balanced (stands.executed i _ mine inExecuted)
    (stands.executed j _ theirs inExecuted')

/-- Two replicas execute the request of the quiet run. -/
theorem executedAgree_quietRun : ∃ s : System, s.executed.length = 2 ∧ s.ExecutedAgree := by
  obtain ⟨s, reachable, twice⟩ := (system trio).exists_reachable_of_run (Clear trio)
    (fun s => decide (s.executed.length = 2)) quietRun rfl (by decide +kernel)
  exact ⟨s, of_decide_eq_true twice, executedAgree_of_clear balanced_trio reachable⟩

/-- When view 4 goes on, replica 1 executes another request than replica 0 has. -/
theorem not_executedAgree_outrankedRun : ¬ ∀ (d : Deployment) (s : System),
    d.configuration.Balanced → (system d).Reachable (Defined d) s → s.ExecutedAgree := by
  intro always
  obtain ⟨s, reachable, differ⟩ := (system trio).exists_reachable_of_run (Defined trio)
    (fun s => decide (¬ s.ExecutedAgree)) (outrankedRun ++ deliveries [32, 33]) rfl
    (by decide +kernel)
  exact of_decide_eq_true differ (always trio s balanced_trio reachable)

/-! ## What is prepared is kept -/

/-- What a leader had acknowledged by `f` others is in the log that every later view starts
with. -/
def PreparedKept (s : System) : Prop :=
  ∀ prepared ∈ s.prepared, ∀ started ∈ s.started, prepared.1 < started.1 →
    prepared.2.1 ≤ prepared.2.2.length ∧
      (started.2.take prepared.2.1).map LogEntry.request =
        (prepared.2.2.take prepared.2.1).map LogEntry.request

instance (s : System) : Decidable s.PreparedKept :=
  inferInstanceAs (Decidable (∀ prepared ∈ s.prepared, _))

/-- What was prepared is kept, in every run of defined steps that takes none of the branches on
which agreement is lost. -/
theorem preparedKept_of_clear (balanced : d.configuration.Balanced)
    (reachable : (system d).Reachable (Clear d) s) : s.PreparedKept := by
  obtain ⟨w, stands⟩ := exists_stands balanced reachable
  rintro ⟨view, opnum, entries⟩ inPrepared ⟨later, base⟩ inStarted after
  obtain ⟨chosen, long, below⟩ := stands.prepared view opnum entries inPrepared
  have started := stands.started later base inStarted
  refine ⟨long, ?_⟩
  have within : w.Within later (base.map LogEntry.operation) :=
    ⟨_, started, List.prefix_rfl, w.sound.extended _ _ started⟩
  have enough : opnum ≤ (base.map LogEntry.operation).length :=
    w.sound.chosen_length_later balanced chosen after within
  have agree : (base.map LogEntry.operation).take opnum =
      (entries.map LogEntry.operation).take opnum := by
    rw [w.sound.chosen_take balanced chosen after.le within enough]
    obtain ⟨more, whole⟩ := below
    change (w.viewLog view).take opnum = _
    rw [← whole, List.take_append_of_le_length (by simpa using long)]
  have requests := congrArg (List.map Operation.request) agree
  simpa [List.map_take, Function.comp_def, LogEntry.operation] using requests

/-- The view change of the quiet run keeps what was prepared. -/
theorem preparedKept_quietRun :
    ∃ s : System, s.prepared.length = 1 ∧ s.started.length = 1 ∧ s.PreparedKept := by
  obtain ⟨s, reachable, happened⟩ := (system trio).exists_reachable_of_run (Clear trio)
    (fun s => decide (s.prepared.length = 1 ∧ s.started.length = 1)) quietRun rfl
    (by decide +kernel)
  obtain ⟨prepared, started⟩ := of_decide_eq_true happened
  exact ⟨s, prepared, started, preparedKept_of_clear balanced_trio reachable⟩

/-- View 4 starts without the request that replica 0 has committed in view 3. -/
theorem not_preparedKept_outrankedRun : ¬ ∀ (d : Deployment) (s : System),
    d.configuration.Balanced →
      (system d).Reachable (fun s action => s.Defined d action ∧ Crashless action) s →
        s.PreparedKept := by
  intro always
  obtain ⟨s, reachable, lost⟩ := (system trio).exists_reachable_of_run
    (fun s action => s.Defined trio action ∧ Crashless action)
    (fun s => decide (¬ s.PreparedKept)) outrankedRun rfl (by decide +kernel)
  exact of_decide_eq_true lost (always trio s balanced_trio reachable)

/-! ## Matching logs -/

/-- Running replicas in normal status that have entries of one view at one place have the same
views and requests up to there. -/
def LogsMatch (s : System) : Prop :=
  ∀ i j, s.stopped i = false → s.stopped j = false →
    (s.replicas i).status = .normal → (s.replicas j).status = .normal →
      ∀ k mine theirs, (s.replicas i).log.find k = some mine →
        (s.replicas j).log.find k = some theirs → mine.viewstamp.view = theirs.viewstamp.view →
          ∀ opnum, 1 ≤ opnum → opnum ≤ k →
            ∃ left right, (s.replicas i).log.find opnum = some left ∧
              (s.replicas j).log.find opnum = some right ∧
              left.viewstamp.view = right.viewstamp.view ∧ left.request = right.request

/-- A backed replica in normal status is active. -/
theorem active_of_normal {c : Configuration} {admits : Admission} {w : World c admits} {idx : Nat}
    {r : Replica} (backed : r.Backed w idx) (normal : r.status = .normal) :
    r.core.Active w idx := by
  rcases backed with (active | changing) | recovering
  · exact active
  · exact absurd (changing.status.symm.trans normal) (by decide)
  · exact absurd (recovering.status.symm.trans normal) (by decide)

/-- The log of an active replica has operations where their views have them. -/
theorem matched_of_active {c : Configuration} {admits : Admission} {w : World c admits} {idx : Nat}
    {r : Replica} (active : r.core.Active w idx) :
    w.logs.Matched (group c admits) r.log.operations := by
  rw [show r.log.operations = _ from active.placed.log]
  exact w.sound.matched _ _

/-- Logs match, in every run of defined steps that takes none of the branches on which agreement is
lost. -/
theorem logsMatch_of_clear (balanced : d.configuration.Balanced)
    (reachable : (system d).Reachable (Clear d) s) : s.LogsMatch := by
  obtain ⟨w, stands⟩ := exists_stands balanced reachable
  intro i j running running' normal normal' k mine theirs found found' sameView opnum positive le
  have active := active_of_normal (stands.backed i running) normal
  have active' := active_of_normal (stands.backed j running') normal'
  have here := Log.operation_of_find found
  have here' := Log.operation_of_find found'
  have start : (s.replicas i).log.start = 1 := active.placed.start
  have start' : (s.replicas j).log.start = 1 := active'.placed.start
  rw [start] at here
  rw [start'] at here'
  have agree := congrArg (·[opnum - 1]?)
    (ViewLogs.Matched.take_eq (matched_of_active active) (matched_of_active active') here here'
      sameView)
  simp only [List.getElem?_take, if_pos (show opnum - 1 < k - 1 + 1 by omega)] at agree
  have inside : opnum - 1 < (s.replicas i).log.operations.length := by
    have := (List.getElem?_eq_some_iff.mp here).1
    omega
  have mineHere := List.getElem?_eq_getElem inside
  obtain ⟨left, foundLeft, sameLeft⟩ := Log.exists_find mineHere
  obtain ⟨right, foundRight, sameRight⟩ := Log.exists_find (agree.symm.trans mineHere)
  rw [start, Nat.add_sub_cancel' positive] at foundLeft
  rw [start', Nat.add_sub_cancel' positive] at foundRight
  have same : left.operation = right.operation := sameLeft.trans sameRight.symm
  exact ⟨left, right, foundLeft, foundRight, congrArg Operation.view same,
    congrArg Operation.request same⟩

/-- The logs of the quiet run match. -/
theorem logsMatch_quietRun :
    ∃ s : System, (s.replicas 0).log.lastViewstamp.view = (s.replicas 1).log.lastViewstamp.view ∧
      (s.replicas 0).lastOp = 1 ∧ (s.replicas 1).lastOp = 1 ∧ s.LogsMatch := by
  obtain ⟨s, reachable, happened⟩ := (system trio).exists_reachable_of_run (Clear trio)
    (fun s => decide ((s.replicas 0).log.lastViewstamp.view =
      (s.replicas 1).log.lastViewstamp.view ∧ (s.replicas 0).lastOp = 1 ∧
      (s.replicas 1).lastOp = 1)) quietRun rfl (by decide +kernel)
  obtain ⟨view, mine, theirs⟩ := of_decide_eq_true happened
  exact ⟨s, view, mine, theirs, logsMatch_of_clear balanced_trio reachable⟩

/-- Replicas 0 and 1 are running in normal status with entries of one view at number 2 and
different requests at number 1. -/
def Mismatched (s : System) : Prop :=
  (s.stopped 0 = false ∧ (s.replicas 0).status = .normal) ∧
    (s.stopped 1 = false ∧ (s.replicas 1).status = .normal) ∧
    ((s.replicas 0).log.find 2).map (·.viewstamp.view) = some 1 ∧
    ((s.replicas 1).log.find 2).map (·.viewstamp.view) = some 1 ∧
    ((s.replicas 0).log.find 1).map (·.request) ≠ ((s.replicas 1).log.find 1).map (·.request)

instance (s : System) : Decidable s.Mismatched := inferInstanceAs (Decidable (_ ∧ _))

/-- After the suffix run the logs of replicas 0 and 1 do not match. -/
theorem not_logsMatch_suffixRun : ¬ ∀ (d : Deployment) (s : System),
    d.configuration.Balanced → (system d).Reachable (Defined d) s → s.LogsMatch := by
  intro always
  obtain ⟨s, reachable, mismatched⟩ := (system trio).exists_reachable_of_run (Defined trio)
    (fun s => decide s.Mismatched) suffixRun rfl (by decide +kernel)
  obtain ⟨⟨running, normal⟩, ⟨running', normal'⟩, second, second', first⟩ :=
    of_decide_eq_true mismatched
  obtain ⟨mine, found, view⟩ := Option.map_eq_some_iff.mp second
  obtain ⟨theirs, found', view'⟩ := Option.map_eq_some_iff.mp second'
  obtain ⟨left, right, foundLeft, foundRight, -, same⟩ :=
    always trio s balanced_trio reachable 0 1 running running' normal normal' 2 mine theirs found
      found' (view.trans view'.symm) 1 (Nat.le_refl 1) (by decide)
  rw [foundLeft, foundRight] at first
  exact first (congrArg some same)

end System

end PaxosBus.Vr

import PaxosBus.NoPaxos.Returning

/-!
# Gaps from another log

`InstallCommittedGaps` makes operations of the log gaps. It gets through if and
only if none of them is committed or executed as a request; then the log has the
same entries as before, but for the gaps, and has grown by those that follow it.
-/

set_option autoImplicit false

namespace PaxosBus.NoPaxos

open PaxosBus.Common PaxosBus.Library
open Handler (Returns)

variable {setup : Setup} {app : App} {r r' : Replica} {gap : Nat}

/-- The operation is a gap already, or can become one. -/
def Replica.Takes (r : Replica) (gap : Nat) : Prop :=
  gap ∈ r.committedGaps ∨ (gap ≤ r.lastOp → ∃ entry, r.log.find gap = some entry ∧
    (entry.state = .noop ∨ r.lastCommittedOp < gap ∧ r.lastExecutedOp < gap))

/-- An entry whose operation has become a gap. -/
def Entry.struck (entry : Entry) : Entry := { entry with state := .noop }

/-- The replica has made operations gaps. -/
structure Replica.Patched (setup : Setup) (gaps : List Nat) (r r' : Replica) : Prop where
  sturdy : r'.core.Sturdy setup
  sessnum : r'.sessnum = r.sessnum
  view : r'.view = r.view
  drained : r'.lastOp + 1 ∉ r'.committedGaps
  known : ∀ gap, gap ∈ r'.committedGaps ↔ gap ∈ r.committedGaps ∨ gap ∈ gaps
  longer : r.lastOp ≤ r'.lastOp
  old : ∀ opnum entry, r.log.find opnum = some entry → r'.log.find opnum =
    some (if opnum ∈ gaps ∧ opnum ∉ r.committedGaps then entry.struck else entry)
  new : ∀ opnum, r.lastOp < opnum → opnum ≤ r'.lastOp →
    opnum ∈ r'.committedGaps ∧ ∃ entry, r'.log.find opnum = some entry ∧ entry.state = .noop
  progresses : r.Progresses r'
  still : r'.lastOp = r.lastOp →
    r'.lastCommittedOp = r.lastCommittedOp ∧ r'.lastExecutedOp = r.lastExecutedOp
  calm : r.stateTransferOpEnd = 0 → r.Calm r'

namespace Replica.Patched

variable {gaps more : List Nat} {r'' : Replica}

theorem refl (sturdy : r.core.Sturdy setup) (drained : r.lastOp + 1 ∉ r.committedGaps) :
    r.Patched setup [] r where
  sturdy := sturdy
  sessnum := rfl
  view := rfl
  drained := drained
  known := by simp
  longer := le_rfl
  old := by simp
  new opnum above below := by omega
  progresses := ⟨le_rfl, le_rfl⟩
  still _ := ⟨rfl, rfl⟩
  calm ended := ⟨ended, rfl, rfl, rfl⟩

theorem trans (first : r.Patched setup gaps r') (second : r'.Patched setup more r'') :
    r.Patched setup (gaps ++ more) r'' where
  sturdy := second.sturdy
  sessnum := second.sessnum.trans first.sessnum
  view := second.view.trans first.view
  drained := second.drained
  known gap := by rw [second.known, first.known, List.mem_append, or_assoc]
  longer := first.longer.trans second.longer
  old opnum entry found := by
    rw [second.old opnum _ (first.old opnum entry found)]
    congr 1
    have known := first.known opnum
    by_cases here : opnum ∈ r.committedGaps
    · have there : opnum ∈ r'.committedGaps := known.mpr (.inl here)
      simp [here, there]
    · by_cases inFirst : opnum ∈ gaps
      · have there : opnum ∈ r'.committedGaps := known.mpr (.inr inFirst)
        simp [here, there, inFirst]
      · have there : opnum ∉ r'.committedGaps := by simp [known, here, inFirst]
        simp [here, there, inFirst]
  new opnum above below := by
    rcases Nat.lt_or_ge r'.lastOp opnum with beyond | inside
    · exact second.new opnum beyond below
    · obtain ⟨known, entry, found, noop⟩ := first.new opnum above inside
      refine ⟨(second.known opnum).mpr (.inl known), _, second.old opnum entry found, ?_⟩
      split
      next => rfl
      next => exact noop
  progresses := first.progresses.trans second.progresses
  still same := by
    have := first.longer
    have := second.longer
    obtain ⟨committed, executed⟩ := first.still (by omega)
    obtain ⟨committed', executed'⟩ := second.still (by omega)
    exact ⟨committed'.trans committed, executed'.trans executed⟩
  calm ended := by
    have before := first.calm ended
    exact before.trans (second.calm before.ended)

end Replica.Patched

/-! ## Entries -/

/-- A whole log has an entry for each operation up to the last one. -/
theorem Core.Whole.exists_find (whole : r.core.Whole) {opnum : Nat} (positive : 0 < opnum)
    (inside : opnum ≤ r.lastOp) : ∃ entry, r.log.find opnum = some entry := by
  have length : r.log.entries.length = r.lastOp := whole
  have there : opnum - 1 < r.log.entries.length := by omega
  exact ⟨_, Log.find_eq_some.mpr ⟨positive, List.getElem?_eq_getElem there⟩⟩

/-- And for no other operation. -/
theorem Core.Whole.inside (whole : r.core.Whole) {opnum : Nat} {entry : Entry}
    (found : r.log.find opnum = some entry) : 0 < opnum ∧ opnum ≤ r.lastOp := by
  have length : r.log.entries.length = r.lastOp := whole
  obtain ⟨positive, there⟩ := Log.find_eq_some.mp found
  have := (List.getElem?_eq_some_iff.mp there).1
  omega

/-- The entries of a log that grows stay where they are. -/
theorem Replica.Grows.find_old {more : List Entry} (grows : r.Grows setup more r') {opnum : Nat}
    {entry : Entry} (found : r.log.find opnum = some entry) : r'.log.find opnum = some entry := by
  obtain ⟨positive, there⟩ := Log.find_eq_some.mp found
  refine Log.find_eq_some.mpr ⟨positive, ?_⟩
  rw [grows.entries, List.getElem?_append_left (List.getElem?_eq_some_iff.mp there).1]
  exact there

/-- The others follow. -/
theorem Replica.Grows.find_new {more : List Entry} (grows : r.Grows setup more r')
    (whole : r.core.Whole) {index : Nat} {entry : Entry} (found : more[index]? = some entry) :
    r'.log.find (r.lastOp + index + 1) = some entry := by
  have length : r.log.entries.length = r.lastOp := whole
  refine Log.find_eq_some.mpr ⟨Nat.succ_pos _, ?_⟩
  rw [grows.entries, Nat.add_sub_cancel, List.getElem?_append_right (by omega), length,
    Nat.add_sub_cancel_left]
  exact found

/-! ## One gap -/

/-- A gap that is not in the log yet, or has its NOOP, is left there. -/
theorem overwriteGap_returns_same (settled : gap ≤ r.lastOp → ∃ entry,
    r.log.find gap = some entry ∧ entry.state = .noop) :
    (overwriteGap gap).Returns r fun _ r' => r' = r := by
  apply Returns.get_bind
  apply Returns.branch
  · intro inside
    obtain ⟨entry, found, noop⟩ := settled inside
    apply Returns.demand_bind found
    apply Returns.branch
    · exact fun _ => Returns.pure rfl
    · exact fun request => absurd noop request
  · exact fun _ => Returns.pure rfl

/-- The next operation is a gap, and those that follow are known. -/
theorem advanceGap_returns (sturdy : r.core.Sturdy setup) (next : r.lastOp + 1 = gap)
    (known : gap ∈ r.committedGaps) :
    (advanceGap setup app gap).Returns r fun _ r' => r'.lastOp + 1 ∉ r'.committedGaps ∧
      ∃ more, r.Grows setup more r' ∧ 0 < more.length ∧
        ∀ entry ∈ more, entry.state = .noop ∧ entry.viewstamp.opnum ∈ r.committedGaps := by
  subst next
  apply Returns.get_bind
  apply Returns.branch
  · intro _
    apply (processNextOperation_returns sturdy rfl).imp
    rintro _ r1 ⟨drained, more, grows, noops⟩
    refine ⟨drained, _, grows, Nat.succ_pos _, fun entry member => ?_⟩
    rcases List.mem_cons.mp member with rfl | later
    · refine ⟨?_, known⟩
      simp [Replica.decidedState]
    · exact noops entry later
  · exact fun other => absurd rfl other

/-- A whole log that has grown by known gaps. -/
theorem Replica.Grows.patched {more : List Entry} (grows : r.Grows setup more r')
    (whole : r.core.Whole) (drained : r'.lastOp + 1 ∉ r'.committedGaps) (some_ : 0 < more.length)
    (noops : ∀ entry ∈ more, entry.state = .noop ∧ entry.viewstamp.opnum ∈ r.committedGaps) :
    r.Patched setup [] r' := by
  have lastOp := grows.lastOp whole
  have known : ∀ gap, gap ∈ r'.committedGaps ↔ gap ∈ r.committedGaps := by
    intro gap
    rw [grows.gaps gap]
    constructor
    · rintro (old | ⟨entry, member, rfl, -⟩)
      · exact old
      · exact (noops entry member).2
    · exact .inl
  constructor
  · exact grows.sturdy
  · exact grows.sessnum
  · exact grows.view
  · exact drained
  · intro gap
    simp [known]
  · omega
  · intro opnum entry found
    rw [grows.find_old found]
    simp
  · intro opnum above below
    have inside : opnum - r.lastOp - 1 < more.length := by omega
    have there := List.getElem?_eq_getElem inside
    have found := grows.find_new whole there
    have number := grows.number whole there
    have same : r.lastOp + (opnum - r.lastOp - 1) + 1 = opnum := by omega
    obtain ⟨noop, gap⟩ := noops _ (List.getElem_mem inside)
    rw [same] at found
    rw [number, same] at gap
    exact ⟨(known opnum).mpr gap, _, found, noop⟩
  · exact grows.progresses
  · intro same
    omega
  · exact fun ended => grows.calm ended fun entry member => (noops entry member).1

/-- The replica knows one gap more. -/
def Replica.learn (r : Replica) (gap : Nat) : Replica :=
  { r with committedGaps := r.committedGaps.insert gap }

/-- A gap that the replica learns is not waiting if the next operation is not it. -/
theorem not_next_learn (drained : r.lastOp + 1 ∉ r.committedGaps) (stays : r.lastOp + 1 ≠ gap) :
    (r.learn gap).lastOp + 1 ∉ (r.learn gap).committedGaps := by
  intro member
  rcases OpnumSet.mem_insert.mp member with same | old
  · exact stays same
  · exact drained old

/-- A struck NOOP is the same. -/
theorem Entry.struck_of_noop {entry : Entry} (noop : entry.state = .noop) : entry.struck = entry := by
  unfold Entry.struck
  rw [← noop]

/-- What the replica does after it has learned a gap, where the log has nothing but a NOOP for it. -/
theorem Replica.Patched.of_learn (patched : (r.learn gap).Patched setup [] r')
    (settled : ∀ entry, r.log.find gap = some entry → entry.state = .noop) :
    r.Patched setup [gap] r' := by
  constructor
  · exact patched.sturdy
  · exact patched.sessnum
  · exact patched.view
  · exact patched.drained
  · intro other
    rw [patched.known other, List.mem_singleton, or_comm (b := other = gap)]
    exact (or_iff_left (List.not_mem_nil)).trans OpnumSet.mem_insert
  · exact patched.longer
  · intro opnum entry found
    have there := patched.old opnum entry found
    rw [there]
    congr 1
    split
    next none_ => exact absurd none_.1 List.not_mem_nil
    next =>
        split
        next known =>
            obtain rfl := List.mem_singleton.mp known.1
            exact (Entry.struck_of_noop (settled entry found)).symm
        next => rfl
  · exact patched.new
  · exact ⟨patched.progresses.committed, patched.progresses.executed⟩
  · exact patched.still
  · intro ended
    have calm := patched.calm ended
    exact ⟨calm.ended, calm.status, calm.committed, calm.executed⟩

/-- An entry of the log is struck. -/
theorem Replica.Patched.strike (sturdy : r.core.Sturdy setup)
    (drained : r.lastOp + 1 ∉ r.committedGaps) (inside : gap ≤ r.lastOp)
    (unknown : gap ∉ r.committedGaps) :
    r.Patched setup [gap] { r.learn gap with log := r.log.setStatus gap .noop } := by
  have whole : (r.log.setStatus gap .noop).entries.length = r.lastOp :=
    (Log.length_setStatus _ _).trans sturdy.whole
  constructor
  · exact ⟨whole, sturdy.point, sturdy.awaits⟩
  · rfl
  · rfl
  · exact not_next_learn drained (by omega)
  · intro other
    rw [List.mem_singleton, or_comm]
    exact OpnumSet.mem_insert
  · exact le_rfl
  · intro opnum entry found
    rw [Log.find_setStatus, found, Option.map_some]
    congr 1
    by_cases same : opnum = gap
    · subst same
      simp [unknown, Entry.struck]
    · simp [same]
  · intro opnum above below
    change opnum ≤ r.lastOp at below
    omega
  · exact ⟨le_rfl, le_rfl⟩
  · exact fun _ => ⟨rfl, rfl⟩
  · exact fun ended => ⟨ended, rfl, rfl, rfl⟩

/-- A gap can be installed that the replica can take. -/
theorem installGap_returns (sturdy : r.core.Sturdy setup)
    (drained : r.lastOp + 1 ∉ r.committedGaps) (takes : r.Takes gap) :
    (installGap setup app gap).Returns r fun _ r' => r.Patched setup [gap] r' := by
  have sturdy1 : (r.learn gap).core.Sturdy setup := ⟨sturdy.whole, sturdy.point, sturdy.awaits⟩
  apply Returns.get_bind
  apply Returns.branch
  · intro member
    apply Returns.pure
    have same := Replica.Patched.refl sturdy drained
    refine ⟨sturdy, rfl, rfl, drained, fun other => ?_, le_rfl, fun opnum entry found => ?_,
      same.new, same.progresses, same.still, same.calm⟩
    · rw [List.mem_singleton]
      exact ⟨.inl, fun known => known.elim id fun same => same ▸ member⟩
    · rw [found, if_neg]
      rintro ⟨single, new⟩
      exact new (List.mem_singleton.mp single ▸ member)
  · intro unknown
    apply Returns.modify_bind
    change Returns _ (r.learn gap) _
    by_cases next : r.lastOp + 1 = gap
    · apply (advanceGap_returns sturdy1 next (OpnumSet.mem_insert.mpr (.inl rfl))).bind
      rintro _ r1 ⟨drained1, more, grows, some_, noops⟩
      have patched1 := grows.patched sturdy1.whole drained1 some_ noops
      have above : r.lastOp < gap := by omega
      have settled : gap ≤ r1.lastOp → ∃ entry, r1.log.find gap = some entry ∧
          entry.state = .noop := fun inside => (patched1.new gap above inside).2
      apply (overwriteGap_returns_same settled).imp
      rintro _ _ rfl
      apply patched1.of_learn
      intro entry found
      have := (sturdy.whole.inside found).2
      omega
    · have stays : (advanceGap setup app gap).Returns (r.learn gap) fun _ r' => r' = r.learn gap :=
        .get_bind (.branch (fun same => absurd same next) fun _ => .pure rfl)
      apply stays.bind
      rintro _ _ rfl
      have same : (r.learn gap).Patched setup [] (r.learn gap) :=
        .refl sturdy1 (not_next_learn drained next)
      apply Returns.get_bind
      apply Returns.branch
      · intro inside
        obtain ⟨entry, found, free⟩ := takes.resolve_left unknown inside
        apply Returns.demand_bind found
        apply Returns.branch
        · intro noop
          apply Returns.pure
          apply same.of_learn
          intro other there
          rwa [Option.some.inj (there.symm.trans found)]
        · intro request
          obtain ⟨committed, executed⟩ := free.resolve_left request
          apply Returns.require_bind committed
          apply Returns.require_bind executed
          exact Handler.returns_modify.mpr (.strike sturdy drained inside unknown)
      · intro beyond
        apply Returns.pure
        apply same.of_learn
        intro entry found
        exact absurd (sturdy.whole.inside found).2 beyond

/-- A gap that the replica cannot take stops it. -/
theorem installGap_stuck {Post : Unit → Replica → Prop} (fails : ¬ r.Takes gap) :
    ¬ (installGap setup app gap).Returns r Post := by
  unfold Replica.Takes at fails
  push Not at fails
  obtain ⟨unknown, inside, taken⟩ := fails
  have next : ¬ r.lastOp + 1 = gap := by omega
  simp only [installGap, advanceGap, overwriteGap, Handler.returns_bind, Handler.returns_get,
    Handler.returns_ite, Handler.returns_modify, Handler.returns_pure, Handler.returns_demand,
    Handler.returns_require, if_neg unknown, if_neg next, if_pos inside]
  rintro ⟨entry, found, rest⟩
  obtain ⟨request, free⟩ := taken entry found
  rw [if_neg request] at rest
  have := free rest.1
  omega

/-! ## All gaps of a message -/

/-- A gap at the end of the log is not in the middle of it. -/
theorem Replica.Patched.lastOp_eq {other : Nat} (patched : r.Patched setup [gap] r')
    (drained : r.lastOp + 1 ∉ r.committedGaps) (less : gap < other) (inside : other ≤ r.lastOp) :
    r'.lastOp = r.lastOp := by
  by_contra different
  have longer := patched.longer
  obtain ⟨known, -⟩ := patched.new (r.lastOp + 1) (Nat.lt_succ_self _) (by omega)
  rcases (patched.known _).mp known with old | new
  · exact drained old
  · have := List.mem_singleton.mp new
    omega

/-- What the replica can take it can still take if nothing is committed or executed meanwhile. -/
theorem Replica.Patched.takes_of_same {gaps : List Nat} {other : Nat}
    (patched : r.Patched setup gaps r') (same : other ≤ r.lastOp →
      r'.lastCommittedOp = r.lastCommittedOp ∧ r'.lastExecutedOp = r.lastExecutedOp)
    (takes : r.Takes other) : r'.Takes other := by
  by_cases known : other ∈ r'.committedGaps
  · exact .inl known
  · have unknown : other ∉ r.committedGaps := fun old => known ((patched.known other).mpr (.inl old))
    refine .inr fun inside' => ?_
    have inside : other ≤ r.lastOp := by
      by_contra beyond
      exact known (patched.new other (Nat.not_le.mp beyond) inside').1
    obtain ⟨entry, found, free⟩ := takes.resolve_left unknown inside
    have there := patched.old other entry found
    have different : other ∉ gaps := fun new => known ((patched.known other).mpr (.inr new))
    rw [if_neg fun both => different both.1] at there
    refine ⟨entry, there, free.imp_right ?_⟩
    obtain ⟨committed, executed⟩ := same inside
    rw [committed, executed]
    exact id

/-- Nothing is committed or executed where no state transfer is on. -/
theorem Replica.Patched.takes_of_idle {gaps : List Nat} {other : Nat}
    (patched : r.Patched setup gaps r') (ended : r.stateTransferOpEnd = 0)
    (takes : r.Takes other) : r'.Takes other :=
  patched.takes_of_same (fun _ => ⟨(patched.calm ended).committed, (patched.calm ended).executed⟩)
    takes

/-- What the replica can take it can still take after another gap, where no callback comes between
them. -/
theorem Replica.Patched.takes {other : Nat} (patched : r.Patched setup [gap] r')
    (drained : r.lastOp + 1 ∉ r.committedGaps)
    (quiet : r.stateTransferOpEnd = 0 ∨ gap < other) (takes : r.Takes other) : r'.Takes other := by
  rcases quiet with ended | less
  · exact patched.takes_of_idle ended takes
  · exact patched.takes_of_same (fun inside => patched.still (patched.lastOp_eq drained less inside))
      takes

/-- What the replica cannot take it cannot take after another gap either. -/
theorem Replica.Patched.not_takes {other : Nat} (patched : r.Patched setup [gap] r')
    (whole : r.core.Whole) (different : other ≠ gap) (fails : ¬ r.Takes other) :
    ¬ r'.Takes other := by
  intro takes
  have unknown : other ∉ r.committedGaps := fun old => fails (.inl old)
  have inside : other ≤ r.lastOp := by
    by_contra beyond
    exact fails (.inr fun inside => absurd inside beyond)
  have unknown' : other ∉ r'.committedGaps := by
    simp [patched.known, unknown, different]
  obtain ⟨entry', found', free'⟩ := takes.resolve_left unknown' (inside.trans patched.longer)
  have positive := (Log.find_eq_some.mp found').1
  obtain ⟨entry, found⟩ := whole.exists_find positive inside
  have there := patched.old other entry found
  rw [if_neg fun both => different (List.mem_singleton.mp both.1)] at there
  obtain rfl := Option.some.inj (there.symm.trans found')
  refine fails (.inr fun _ => ⟨entry, found, free'.imp_right fun ⟨committed, executed⟩ => ?_⟩)
  exact ⟨patched.progresses.committed.trans_lt committed,
    patched.progresses.executed.trans_lt executed⟩

/-- The gaps of two messages are installed one after the other. -/
theorem installCommittedGaps_append {gaps more : List Nat} {Post : Unit → Replica → Prop} :
    (installCommittedGaps setup app (gaps ++ more)).Returns r Post ↔
      (installCommittedGaps setup app gaps).Returns r fun _ r' =>
        (installCommittedGaps setup app more).Returns r' Post :=
  Handler.returns_forEach_append

/-- Gaps can be installed all of which the replica can take, where no callback comes between
them. -/
theorem installCommittedGaps_returns {gaps : List Nat} (sturdy : r.core.Sturdy setup)
    (drained : r.lastOp + 1 ∉ r.committedGaps) (takes : ∀ gap ∈ gaps, r.Takes gap)
    (quiet : r.stateTransferOpEnd = 0 ∨ gaps.Pairwise (· < ·)) :
    (installCommittedGaps setup app gaps).Returns r fun _ r' => r.Patched setup gaps r' := by
  induction gaps generalizing r with
  | nil => exact Returns.pure (.refl sturdy drained)
  | cons gap rest inductionHypothesis =>
      apply (installGap_returns sturdy drained (takes gap List.mem_cons_self)).bind
      intro _ r1 patched
      have takes1 : ∀ other ∈ rest, r1.Takes other := by
        intro other member
        apply patched.takes drained _ (takes other (List.mem_cons_of_mem _ member))
        exact quiet.imp_right fun increasing => List.rel_of_pairwise_cons increasing member
      have quiet1 : r1.stateTransferOpEnd = 0 ∨ rest.Pairwise (· < ·) :=
        quiet.imp (fun ended => (patched.calm ended).ended) List.Pairwise.of_cons
      apply (inductionHypothesis patched.sturdy patched.drained takes1 quiet1).imp
      intro _ r2 patched'
      exact patched.trans patched'

/-- One gap that the replica cannot take stops it. -/
theorem installCommittedGaps_stuck {gaps : List Nat} {Post : Unit → Replica → Prop}
    (sturdy : r.core.Sturdy setup) (drained : r.lastOp + 1 ∉ r.committedGaps) (member : gap ∈ gaps)
    (fails : ¬ r.Takes gap) : ¬ (installCommittedGaps setup app gaps).Returns r Post := by
  induction gaps generalizing r with
  | nil => nomatch member
  | cons first rest inductionHypothesis =>
      intro returns
      have started := Handler.returns_bind.mp returns
      by_cases takes : r.Takes first
      · have different : gap ≠ first := fun same => fails (same ▸ takes)
        obtain ⟨⟨⟩, -, patched, onward⟩ := (installGap_returns sturdy drained takes).and started
        have inRest := (List.mem_cons.mp member).resolve_left different
        exact inductionHypothesis patched.sturdy patched.drained inRest
          (patched.not_takes sturdy.whole different fails) onward
      · exact installGap_stuck takes started

/-! ## A torn log -/

section Torn

variable {Post : Unit → Replica → Prop}

/-- What is rewound is torn. -/
theorem rewindLogToOpnum_tears {opnum : Nat} (returns : (rewindLogToOpnum opnum).Returns r Post) :
    ∃ r', r'.core.Torn ∧ Post () r' := by
  simp only [rewindLogToOpnum, Handler.returns_bind, Handler.returns_get, Handler.returns_require,
    Handler.returns_modify, Handler.returns_demand] at returns
  obtain ⟨-, -, log, removed, post⟩ := returns
  exact ⟨_, Log.length_removeAfter removed, post⟩

/-- A gap is installed in a torn log only where the log does not get longer. -/
theorem installGap_tears (torn : r.core.Torn)
    (returns : (installGap setup app gap).Returns r Post) : ∃ r', r'.core.Torn ∧ Post () r' := by
  simp only [installGap, advanceGap, overwriteGap, Handler.returns_bind, Handler.returns_get,
    Handler.returns_ite, Handler.returns_modify, Handler.returns_pure, Handler.returns_demand,
    Handler.returns_require] at returns
  split at returns
  next => exact ⟨r, torn, returns⟩
  next =>
      split at returns
      next => exact absurd returns (processNextOperation_torn torn)
      next =>
          split at returns
          next =>
              obtain ⟨entry, -, overwritten⟩ := returns
              split at overwritten
              next => exact ⟨r.learn gap, torn, overwritten⟩
              next =>
                  refine ⟨_, ?_, overwritten.2.2⟩
                  exact (Log.length_setStatus _ _).trans_lt torn
          next => exact ⟨r.learn gap, torn, returns⟩

theorem installCommittedGaps_tears {gaps : List Nat} (torn : r.core.Torn)
    (returns : (installCommittedGaps setup app gaps).Returns r Post) :
    ∃ r', r'.core.Torn ∧ Post () r' := by
  induction gaps generalizing r with
  | nil => exact ⟨r, torn, Handler.returns_pure.mp returns⟩
  | cons gap rest inductionHypothesis =>
      obtain ⟨r1, torn1, onward⟩ := installGap_tears torn (Handler.returns_bind.mp returns)
      exact inductionHypothesis torn1 onward

end Torn

end PaxosBus.NoPaxos

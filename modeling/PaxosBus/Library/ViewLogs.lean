import Mathlib.Data.List.Basic
import Mathlib.Data.List.Infix
import Mathlib.Logic.Relation
import PaxosBus.Library.Quorum

/-!
# Logs replicated view by view

What leader-based replication means, with no messages in it. In every view one
member leads and extends a log; the other members hold prefixes of it. A member
that votes for a view stays out of every earlier one. The leader of a view
starts from a log that is the most advanced among a majority of votes, where a
log is as advanced as the last view its owner was active in, and then as long.

`Sound` is the invariant of the four kinds of steps, and what it is for is
`Sound.chosen_within`: what a majority once held in a view is held in the log
every later view starts from.
-/

set_option autoImplicit false

namespace PaxosBus.Library

universe u

/-- The fixed parameters: group size, tolerated failures, who leads a view, the view an entry
was created in, and after which logs a leader may append it. -/
structure ViewLogs.Group (Entry : Type u) where
  n : Nat
  f : Nat
  leader : Nat → Nat
  viewOf : Entry → Nat
  admits : List Entry → Entry → Prop

/-- The state of the replicated logs. -/
structure ViewLogs (Entry : Type u) where
  /-- The latest log that a member held while active in a view. -/
  logIn : Nat → Nat → List Entry
  /-- The last view a member was active in. -/
  normalView : Nat → Nat
  /-- The highest view a member was active in or voted for. -/
  fence : Nat → Nat
  /-- For a view and a voter, the last view that the voter was active in before it voted. -/
  ballot : Nat → Nat → Option Nat
  /-- The log a view started from, once it has started. -/
  base : Nat → Option (List Entry)

namespace ViewLogs

variable {Entry : Type u} (group : Group Entry)

/-- Every member is active in view zero with an empty log. -/
def initial : ViewLogs Entry where
  logIn _ _ := []
  normalView _ := 0
  fence _ := 0
  ballot _ _ := none
  base view := if view = 0 then some [] else none

/-- The log of a view: that of its leader. -/
def viewLog (s : ViewLogs Entry) (view : Nat) : List Entry := s.logIn (group.leader view) view

/-- The log that a member brought to the view it voted for. -/
def votedLog (s : ViewLogs Entry) (member : Nat) : List Entry :=
  s.logIn member (s.normalView member)

/-- Replace the log of a member in a view. -/
def setLog (s : ViewLogs Entry) (member view : Nat) (log : List Entry) : ViewLogs Entry :=
  { s with logIn := Function.update s.logIn member (Function.update (s.logIn member) view log) }

/-- The leader of the current view appends an entry. -/
def append (s : ViewLogs Entry) (member : Nat) (entry : Entry) : ViewLogs Entry :=
  s.setLog member (s.normalView member) (s.votedLog member ++ [entry])

/-- A member becomes, or stays, active in a view with a log. -/
def adopt (s : ViewLogs Entry) (member view : Nat) (log : List Entry) : ViewLogs Entry :=
  { s.setLog member view log with
    normalView := Function.update s.normalView member view
    fence := Function.update s.fence member view }

/-- A member votes for a view. -/
def vote (s : ViewLogs Entry) (member view : Nat) : ViewLogs Entry :=
  { s with
    fence := Function.update s.fence member view
    ballot := Function.update s.ballot view
      (Function.update (s.ballot view) member (some (s.normalView member))) }

/-- The leader of a view starts it from a log. -/
def start (s : ViewLogs Entry) (member view : Nat) (log : List Entry) : ViewLogs Entry :=
  { s.adopt member view log with base := Function.update s.base view (some log) }

/-- A majority of votes for a view, the most advanced of which is the vote of `best`, last
active in view `bestView`. -/
structure Elected (s : ViewLogs Entry) (view : Nat) (voters : Finset Nat)
    (best bestView : Nat) : Prop where
  within : voters ⊆ Finset.range group.n
  quorum : group.f + 1 ≤ voters.card
  voted : ∀ voter ∈ voters, ∃ normal, s.ballot view voter = some normal
  bestIn : best ∈ voters
  bestVoted : s.ballot view best = some bestView
  mostAdvanced : ∀ voter ∈ voters, ∀ normal, s.ballot view voter = some normal →
    normal < bestView ∨
      normal = bestView ∧ (s.logIn voter normal).length ≤ (s.logIn best bestView).length

/-- What one member can do. -/
inductive Step (member : Nat) : ViewLogs Entry → ViewLogs Entry → Prop where
  | append {s : ViewLogs Entry} (entry : Entry)
      (leads : group.leader (s.normalView member) = member)
      (unfenced : s.fence member = s.normalView member)
      (created : group.viewOf entry = s.normalView member)
      (admitted : group.admits (s.votedLog member) entry) :
      Step member s (s.append member entry)
  | adopt {s : ViewLogs Entry} (view : Nat) (log base : List Entry)
      (unfenced : s.fence member ≤ view)
      (started : s.base view = some base)
      (above : base <+: log)
      (below : log <+: s.viewLog group view)
      (grows : s.logIn member view <+: log) :
      Step member s (s.adopt member view log)
  | vote {s : ViewLogs Entry} (view : Nat) (unfenced : s.fence member < view) :
      Step member s (s.vote member view)
  | start {s : ViewLogs Entry} (view : Nat) (voters : Finset Nat) (best bestView : Nat)
      (leads : group.leader view = member)
      (fenced : s.fence member = view)
      (inactive : s.normalView member < view)
      (elected : s.Elected group view voters best bestView) :
      Step member s (s.start member view (s.logIn best bestView))

/-- A log that a member can be active with in a view. -/
def Within (s : ViewLogs Entry) (view : Nat) (log : List Entry) : Prop :=
  ∃ base, s.base view = some base ∧ base <+: log ∧ log <+: s.viewLog group view

/-- A majority held the first `count` entries of the log of a view. -/
def Chosen (s : ViewLogs Entry) (view count : Nat) : Prop :=
  ∃ voters, voters ⊆ Finset.range group.n ∧ group.f + 1 ≤ voters.card ∧
    ∀ voter ∈ voters, count ≤ (s.logIn voter view).length

/-- Every entry of a log is where the log of the view that created it has it, and so is
everything before it. -/
def Matched (s : ViewLogs Entry) (log : List Entry) : Prop :=
  ∀ index entry, log[index]? = some entry →
    log.take (index + 1) <+: s.viewLog group (group.viewOf entry)

/-- Every entry of a log could be appended to what is before it. -/
def Admitted (log : List Entry) : Prop :=
  ∀ index entry, log[index]? = some entry → group.admits (log.take index) entry

/-- The invariant of the replicated logs. -/
structure Sound (s : ViewLogs Entry) : Prop where
  fenced : ∀ member, s.normalView member ≤ s.fence member
  untouched : ∀ member view, s.normalView member < view → s.logIn member view = []
  active : ∀ member, ∃ base, s.base (s.normalView member) = some base ∧
    base <+: s.votedLog member
  followed : ∀ member view, s.logIn member view <+: s.viewLog group view
  extended : ∀ view base, s.base view = some base → base <+: s.viewLog group view
  led : ∀ view base, s.base view = some base → view ≤ s.normalView (group.leader view)
  unstarted : ∀ view, s.base view = none → s.viewLog group view = []
  balloted : ∀ view voter normal, s.ballot view voter = some normal →
    normal < view ∧ view ≤ s.fence voter ∧ normal ≤ s.normalView voter ∧
      (∃ base, s.base normal = some base ∧ base <+: s.logIn voter normal) ∧
      ∀ between, normal < between → between < view → s.logIn voter between = []
  standing : ∀ member, s.normalView member < s.fence member →
    s.ballot (s.fence member) member = some (s.normalView member)
  elected : ∀ view base, s.base view = some base → 0 < view →
    ∃ voters best bestView, s.Elected group view voters best bestView ∧
      base = s.logIn best bestView
  matched : ∀ member view, s.Matched group (s.logIn member view)
  created : ∀ member view entry, entry ∈ s.logIn member view → group.viewOf entry ≤ view
  admitted : ∀ member view, Admitted group (s.logIn member view)

variable {group}

/-- The invariant holds before anything has happened. -/
theorem Sound.initial (group : Group Entry) : Sound group (initial : ViewLogs Entry) where
  fenced _ := Nat.le_refl 0
  untouched _ _ _ := rfl
  active _ := ⟨[], rfl, List.nil_prefix⟩
  followed _ _ := List.nil_prefix
  extended view base started := by
    by_cases first : view = 0
    · simp only [ViewLogs.initial, first, if_true, Option.some.injEq] at started
      exact started ▸ List.nil_prefix
    · simp [ViewLogs.initial, first] at started
  led view base started := by
    by_cases first : view = 0
    · exact first ▸ Nat.zero_le _
    · simp [ViewLogs.initial, first] at started
  unstarted _ _ := rfl
  balloted _ _ _ voted := nomatch voted
  standing _ ahead := absurd ahead (Nat.lt_irrefl 0)
  elected view base started later := by
    simp [ViewLogs.initial, Nat.pos_iff_ne_zero.mp later] at started
  matched _ _ index entry found := by simp [ViewLogs.initial] at found
  created _ _ entry member := by simp [ViewLogs.initial] at member
  admitted _ _ index entry found := by simp [ViewLogs.initial] at found

/-- What every step preserves: logs only grow, and what a vote was based on is final. -/
structure Grows (s t : ViewLogs Entry) : Prop where
  logIn : ∀ member view, s.logIn member view <+: t.logIn member view
  normalView : ∀ member, s.normalView member ≤ t.normalView member
  fence : ∀ member, s.fence member ≤ t.fence member
  base : ∀ view base, s.base view = some base → t.base view = some base
  ballot : ∀ view voter normal, s.ballot view voter = some normal →
    t.ballot view voter = some normal ∧ t.logIn voter normal = s.logIn voter normal

namespace Grows

variable {s t r : ViewLogs Entry}

theorem refl (s : ViewLogs Entry) : Grows s s where
  logIn _ _ := List.prefix_rfl
  normalView _ := Nat.le_refl _
  fence _ := Nat.le_refl _
  base _ _ started := started
  ballot _ _ _ voted := ⟨voted, rfl⟩

/-- What has grown twice has grown. -/
theorem trans (first : Grows s t) (second : Grows t r) : Grows s r where
  logIn member view := (first.logIn member view).trans (second.logIn member view)
  normalView member := (first.normalView member).trans (second.normalView member)
  fence member := (first.fence member).trans (second.fence member)
  base view base started := second.base view base (first.base view base started)
  ballot view voter normal voted := by
    obtain ⟨kept, same⟩ := first.ballot view voter normal voted
    obtain ⟨keptAgain, sameAgain⟩ := second.ballot view voter normal kept
    exact ⟨keptAgain, sameAgain.trans same⟩

/-- The log of a view grows with its leader's. -/
theorem viewLog (grows : Grows s t) (view : Nat) :
    s.viewLog group view <+: t.viewLog group view :=
  grows.logIn _ view

/-- A log stays one to be active with. -/
theorem within (grows : Grows s t) {view : Nat} {log : List Entry}
    (holds : s.Within group view log) : t.Within group view log := by
  obtain ⟨base, started, above, below⟩ := holds
  exact ⟨base, grows.base view base started, above, below.trans (grows.viewLog view)⟩

/-- What was chosen stays chosen. -/
theorem chosen (grows : Grows s t) {view count : Nat} (holds : s.Chosen group view count) :
    t.Chosen group view count := by
  obtain ⟨voters, within, quorum, held⟩ := holds
  refine ⟨voters, within, quorum, fun voter member => ?_⟩
  exact (held voter member).trans (grows.logIn voter view).length_le

/-- Entries stay where the view that created them has them. -/
theorem matched (grows : Grows s t) {log : List Entry} (holds : s.Matched group log) :
    t.Matched group log :=
  fun index entry found => (holds index entry found).trans (grows.viewLog _)

/-- An election stays won. -/
theorem elected (grows : Grows s t) {view best bestView : Nat} {voters : Finset Nat}
    (holds : s.Elected group view voters best bestView) :
    t.Elected group view voters best bestView where
  within := holds.within
  quorum := holds.quorum
  voted voter member := by
    obtain ⟨normal, voted⟩ := holds.voted voter member
    exact ⟨normal, (grows.ballot view voter normal voted).1⟩
  bestIn := holds.bestIn
  bestVoted := (grows.ballot view best bestView holds.bestVoted).1
  mostAdvanced voter member normal voted := by
    obtain ⟨before, votedBefore⟩ := holds.voted voter member
    obtain ⟨kept, same⟩ := grows.ballot view voter before votedBefore
    obtain rfl : before = normal := Option.some.inj (kept.symm.trans voted)
    rw [same, (grows.ballot view best bestView holds.bestVoted).2]
    exact holds.mostAdvanced voter member before votedBefore

end Grows

/-- A prefix of a matched log is matched. -/
theorem Matched.of_below {s : ViewLogs Entry} {log longer : List Entry}
    (holds : s.Matched group longer) (below : log <+: longer) : s.Matched group log := by
  intro index entry found
  obtain ⟨rest, rfl⟩ := below
  have inside : index < log.length := (List.getElem?_eq_some_iff.mp found).1
  have foundLonger : (log ++ rest)[index]? = some entry := by
    rw [List.getElem?_append_left inside, found]
  have := holds index entry foundLonger
  rwa [List.take_append_of_le_length (Nat.succ_le_of_lt inside)] at this

/-- A prefix of an admitted log is admitted. -/
theorem Admitted.of_below {log longer : List Entry} (holds : Admitted group longer)
    (below : log <+: longer) : Admitted group log := by
  intro index entry found
  obtain ⟨rest, rfl⟩ := below
  have inside : index < log.length := (List.getElem?_eq_some_iff.mp found).1
  have foundLonger : (log ++ rest)[index]? = some entry := by
    rw [List.getElem?_append_left inside, found]
  have := holds index entry foundLonger
  rwa [List.take_append_of_le_length inside.le] at this

/-- An admitted log can be extended by what may follow it. -/
theorem Admitted.concat {log : List Entry} {entry : Entry} (holds : Admitted group log)
    (admitted : group.admits log entry) : Admitted group (log ++ [entry]) := by
  intro index found at_
  rcases Nat.lt_or_ge index log.length with inside | atEnd
  · rw [List.getElem?_append_left inside] at at_
    rw [List.take_append_of_le_length inside.le]
    exact holds index found at_
  · obtain rfl : index = log.length := by
      have := (List.getElem?_eq_some_iff.mp at_).1
      rw [List.length_append, List.length_singleton] at this
      omega
    obtain rfl : entry = found := by simpa using at_
    rwa [List.take_left]

/-- Two matched logs that have entries of one view at the same place agree up to there. -/
theorem Matched.take_eq {s : ViewLogs Entry} {left right : List Entry}
    (leftHolds : s.Matched group left) (rightHolds : s.Matched group right)
    {index : Nat} {leftEntry rightEntry : Entry} (leftFound : left[index]? = some leftEntry)
    (rightFound : right[index]? = some rightEntry)
    (sameView : group.viewOf leftEntry = group.viewOf rightEntry) :
    left.take (index + 1) = right.take (index + 1) := by
  have leftBelow := leftHolds index leftEntry leftFound
  have rightBelow := rightHolds index rightEntry rightFound
  rw [sameView] at leftBelow
  have leftLength := (List.getElem?_eq_some_iff.mp leftFound).1
  have rightLength := (List.getElem?_eq_some_iff.mp rightFound).1
  have lengths : (left.take (index + 1)).length = (right.take (index + 1)).length := by
    rw [List.length_take, List.length_take]
    omega
  exact (List.prefix_of_prefix_length_le leftBelow rightBelow lengths.le).eq_of_length lengths

section Writing

variable {s : ViewLogs Entry} {member view : Nat} {log : List Entry}

/-- Only the log of that member in that view is set. -/
@[simp] theorem logIn_setLog (other at_ : Nat) :
    (s.setLog member view log).logIn other at_ =
      if other = member ∧ at_ = view then log else s.logIn other at_ := by
  by_cases who : other = member
  · subst who
    by_cases whenever : at_ = view
    · subst whenever
      simp [setLog]
    · simp [setLog, whenever]
  · simp [setLog, who]

/-- A log that is adopted is the member's in that view. -/
@[simp] theorem logIn_adopt (other at_ : Nat) :
    (s.adopt member view log).logIn other at_ =
      if other = member ∧ at_ = view then log else s.logIn other at_ :=
  logIn_setLog other at_

/-- Appending is adopting one's own log with an entry more. -/
theorem append_eq_adopt (entry : Entry) (unfenced : s.fence member = s.normalView member) :
    s.append member entry =
      s.adopt member (s.normalView member) (s.votedLog member ++ [entry]) := by
  simp only [append, adopt, Function.update_eq_self]
  rw [← unfenced, Function.update_eq_self]
  rfl

/-- The state after a member becomes active with a log, in a view that may start with it. -/
def write (s : ViewLogs Entry) (member view : Nat) (log : List Entry)
    (base : Nat → Option (List Entry)) : ViewLogs Entry :=
  { s.adopt member view log with base := base }

variable {base : Nat → Option (List Entry)}

/-- A log that is written is the member's in that view. -/
@[simp] theorem logIn_write (other at_ : Nat) :
    (s.write member view log base).logIn other at_ =
      if other = member ∧ at_ = view then log else s.logIn other at_ :=
  logIn_setLog other at_

/-- The member's last view is the one that it writes in. -/
@[simp] theorem normalView_write (other : Nat) :
    (s.write member view log base).normalView other =
      if other = member then view else s.normalView other := by
  simp [write, adopt, setLog, Function.update_apply]

/-- The member has promised nothing beyond the view that it writes in. -/
@[simp] theorem fence_write (other : Nat) :
    (s.write member view log base).fence other = if other = member then view else s.fence other := by
  simp [write, adopt, setLog, Function.update_apply]

/-- Writing at the fence only makes the state grow. -/
theorem Sound.grows_write (sound : Sound group s) (unfenced : s.fence member ≤ view)
    (kept : ∀ at_ started, s.base at_ = some started → base at_ = some started)
    (grows : s.logIn member view <+: log) : Grows s (s.write member view log base) where
  logIn other at_ := by
    rw [logIn_write]
    split
    next here => exact here.1 ▸ here.2 ▸ grows
    next => exact List.prefix_rfl
  normalView other := by
    rw [normalView_write]
    split
    next who => exact who ▸ (sound.fenced member).trans unfenced
    next => exact Nat.le_refl _
  fence other := by
    rw [fence_write]
    split
    next who => exact who ▸ unfenced
    next => exact Nat.le_refl _
  base at_ started holds := kept at_ started holds
  ballot at_ voter normal voted := by
    obtain ⟨earlier, promised, -⟩ := sound.balloted at_ voter normal voted
    refine ⟨voted, ?_⟩
    rw [logIn_write, if_neg]
    rintro ⟨rfl, rfl⟩
    omega

/-- The fence of a member is not below the view that it is active in. -/
theorem Sound.fenced_write (sound : Sound group s) (other : Nat) :
    (s.write member view log base).normalView other ≤
      (s.write member view log base).fence other := by
  rw [normalView_write, fence_write]
  split
  next => exact Nat.le_refl _
  next => exact sound.fenced other

/-- A member whose fence is ahead has voted for it. -/
theorem Sound.standing_write (sound : Sound group s) (other : Nat)
    (ahead : (s.write member view log base).normalView other <
      (s.write member view log base).fence other) :
    s.ballot ((s.write member view log base).fence other) other =
      some ((s.write member view log base).normalView other) := by
  rw [normalView_write, fence_write] at ahead ⊢
  by_cases who : other = member
  · rw [if_pos who, if_pos who] at ahead
    exact absurd ahead (Nat.lt_irrefl _)
  · rw [if_neg who, if_neg who] at ahead ⊢
    exact sound.standing other ahead

/-- The conditions under which writing a log keeps the invariant. -/
structure Writable (group : Group Entry) (s : ViewLogs Entry) (member view : Nat)
    (log : List Entry) (base : Nat → Option (List Entry)) : Prop where
  unfenced : s.fence member ≤ view
  others : ∀ at_, at_ ≠ view → base at_ = s.base at_
  started : ∃ first, base view = some first ∧ first <+: log
  origin : s.base view = base view ∨
    s.base view = none ∧ group.leader view = member ∧
      ∃ voters best bestView, s.Elected group view voters best bestView ∧
        base view = some (s.logIn best bestView)
  below : group.leader view = member ∨ log <+: s.viewLog group view
  grows : s.logIn member view <+: log
  matched : (s.write member view log base).Matched group log
  created : ∀ entry ∈ log, group.viewOf entry ≤ view
  admitted : Admitted group log

namespace Writable

/-- Views that have started stay started. -/
theorem kept (ok : Writable group s member view log base) (at_ : Nat) (first : List Entry)
    (holds : s.base at_ = some first) : base at_ = some first := by
  by_cases here : at_ = view
  · subst here
    rcases ok.origin with same | ⟨none_, -⟩
    · exact same ▸ holds
    · simp [none_] at holds
  · rw [ok.others at_ here, holds]

/-- Writing makes the state grow. -/
theorem growing (sound : Sound group s) (ok : Writable group s member view log base) :
    Grows s (s.write member view log base) :=
  sound.grows_write ok.unfenced ok.kept ok.grows

/-- The log that was written is within the log of its view. -/
theorem log_below (ok : Writable group s member view log base) :
    log <+: (s.write member view log base).viewLog group view := by
  unfold viewLog
  rw [logIn_write]
  rcases ok.below with leads | below
  · rw [if_pos ⟨leads, rfl⟩]
  · split
    next => exact List.prefix_rfl
    next => exact below

/-- The log of another view has not changed, nor the log of another member. -/
theorem logIn_of_ne {other at_ : Nat} (different : other = member → at_ ≠ view) :
    (s.write member view log base).logIn other at_ = s.logIn other at_ := by
  rw [logIn_write, if_neg fun both => different both.1 both.2]

/-- A view that has started now and had not before is the view of the log. -/
theorem view_of_new (ok : Writable group s member view log base) {at_ : Nat} {first : List Entry}
    (holds : base at_ = some first) (new : s.base at_ ≠ some first) : at_ = view := by
  by_contra elsewhere
  exact new ((ok.others at_ elsewhere).symm.trans holds)

section Keeps

variable (sound : Sound group s) (ok : Writable group s member view log base)
include sound ok

/-- A member has no log in a view that it has not been active in. -/
theorem untouched (other at_ : Nat)
    (later : (s.write member view log base).normalView other < at_) :
    (s.write member view log base).logIn other at_ = [] := by
  rw [normalView_write] at later
  split at later
  next who =>
      subst who
      have unfenced := ok.unfenced
      have normal := sound.fenced other
      rw [logIn_of_ne fun _ => by omega]
      exact sound.untouched other at_ (by omega)
  next who =>
      rw [logIn_of_ne fun same => absurd same who]
      exact sound.untouched other at_ later

/-- The view that a member is active in has started, with a part of its log. -/
theorem active (other : Nat) :
    ∃ first, base ((s.write member view log base).normalView other) = some first ∧
      first <+: (s.write member view log base).votedLog other := by
  unfold votedLog
  rw [normalView_write]
  split
  next who =>
      obtain ⟨first, started, above⟩ := ok.started
      rw [logIn_write, if_pos ⟨who, rfl⟩]
      exact ⟨first, started, above⟩
  next who =>
      obtain ⟨first, started, above⟩ := sound.active other
      rw [logIn_of_ne fun same => absurd same who]
      exact ⟨first, ok.kept _ _ started, above⟩

/-- Every log is within the log of its view. -/
theorem followed (other at_ : Nat) : (s.write member view log base).logIn other at_ <+:
    (s.write member view log base).viewLog group at_ := by
  rw [logIn_write]
  split
  next here => exact here.2 ▸ ok.log_below
  next => exact (sound.followed other at_).trans ((ok.growing sound).viewLog at_)

/-- The log of a view goes on from where it started. -/
theorem extended (at_ : Nat) (first : List Entry) (holds : base at_ = some first) :
    first <+: (s.write member view log base).viewLog group at_ := by
  by_cases here : at_ = view
  · subst here
    obtain ⟨other, started, above⟩ := ok.started
    obtain rfl : first = other := Option.some.inj (holds.symm.trans started)
    exact above.trans ok.log_below
  · have before : s.base at_ = some first := (ok.others at_ here).symm.trans holds
    exact (sound.extended at_ first before).trans ((ok.growing sound).viewLog at_)

/-- The leader of a view that has started has been active in it. -/
theorem led (at_ : Nat) (first : List Entry) (holds : base at_ = some first) :
    at_ ≤ (s.write member view log base).normalView (group.leader at_) := by
  by_cases before : s.base at_ = some first
  · exact (sound.led at_ first before).trans ((ok.growing sound).normalView _)
  · obtain rfl := ok.view_of_new holds before
    rcases ok.origin with same | ⟨-, leads, -⟩
    · exact absurd (same.trans holds) before
    · rw [normalView_write, if_pos leads]

/-- A view that has not started has no log. -/
theorem unstarted (at_ : Nat) (never : base at_ = none) :
    (s.write member view log base).viewLog group at_ = [] := by
  have elsewhere : at_ ≠ view := by
    rintro rfl
    obtain ⟨first, started, -⟩ := ok.started
    exact absurd (never.symm.trans started) (by simp)
  unfold viewLog
  rw [logIn_of_ne fun _ => elsewhere]
  exact sound.unstarted at_ ((ok.others at_ elsewhere).symm.trans never)

/-- What a vote was based on is as it was, as nobody writes below a vote. -/
theorem balloted (at_ voter normal : Nat) (voted : s.ballot at_ voter = some normal) :
    normal < at_ ∧ at_ ≤ (s.write member view log base).fence voter ∧
      normal ≤ (s.write member view log base).normalView voter ∧
      (∃ first, base normal = some first ∧
        first <+: (s.write member view log base).logIn voter normal) ∧
      ∀ between, normal < between → between < at_ →
        (s.write member view log base).logIn voter between = [] := by
  obtain ⟨earlier, promised, active, ⟨first, started, above⟩, between⟩ :=
    sound.balloted at_ voter normal voted
  have growing := ok.growing sound
  have unchanged : ∀ earlier, earlier < at_ →
      (s.write member view log base).logIn voter earlier = s.logIn voter earlier := by
    intro earlier before
    apply logIn_of_ne
    rintro rfl rfl
    have := ok.unfenced
    omega
  refine ⟨earlier, promised.trans (growing.fence voter), active.trans (growing.normalView voter),
    ⟨first, growing.base _ _ started, ?_⟩, fun mid after before => ?_⟩
  · rwa [unchanged normal earlier]
  · rw [unchanged mid before]
    exact between mid after before

/-- A view that has started has been elected. -/
theorem elected (at_ : Nat) (first : List Entry) (holds : base at_ = some first)
    (later : 0 < at_) : ∃ voters best bestView,
      (s.write member view log base).Elected group at_ voters best bestView ∧
        first = (s.write member view log base).logIn best bestView := by
  have growing := ok.growing sound
  have transfer : ∀ voters best bestView, s.Elected group at_ voters best bestView →
      first = s.logIn best bestView → ∃ voters best bestView,
        (s.write member view log base).Elected group at_ voters best bestView ∧
          first = (s.write member view log base).logIn best bestView := by
    intro voters best bestView elected same
    refine ⟨voters, best, bestView, growing.elected elected, ?_⟩
    rw [(growing.ballot at_ best bestView elected.bestVoted).2, same]
  by_cases before : s.base at_ = some first
  · obtain ⟨voters, best, bestView, elected, same⟩ := sound.elected at_ first before later
    exact transfer voters best bestView elected same
  · obtain rfl := ok.view_of_new holds before
    rcases ok.origin with same | ⟨-, -, voters, best, bestView, elected, same⟩
    · exact absurd (same.trans holds) before
    · exact transfer voters best bestView elected (Option.some.inj (holds.symm.trans same))

end Keeps

/-- Writing keeps the invariant. -/
theorem sound (sound : Sound group s) (ok : Writable group s member view log base) :
    Sound group (s.write member view log base) where
  fenced := sound.fenced_write
  untouched := ok.untouched sound
  active := ok.active sound
  followed := ok.followed sound
  extended := ok.extended sound
  led := ok.led sound
  unstarted := ok.unstarted sound
  balloted := ok.balloted sound
  standing := sound.standing_write
  elected := ok.elected sound
  matched other at_ := by
    rw [logIn_write]
    split
    next => exact ok.matched
    next => exact (ok.growing sound).matched (sound.matched other at_)
  created other at_ entry inLog := by
    rw [logIn_write] at inLog
    split at inLog
    next here => exact here.2 ▸ ok.created entry inLog
    next => exact sound.created other at_ entry inLog
  admitted other at_ := by
    rw [logIn_write]
    split
    next => exact ok.admitted
    next => exact sound.admitted other at_

end Writable

end Writing

section Steps

variable {s t : ViewLogs Entry} {member : Nat}

/-- An append is allowed to the leader of a view it has not been fenced from. -/
theorem Sound.writable_append (sound : Sound group s) (entry : Entry)
    (leads : group.leader (s.normalView member) = member)
    (unfenced : s.fence member = s.normalView member)
    (created : group.viewOf entry = s.normalView member)
    (admitted : group.admits (s.votedLog member) entry) :
    Writable group s member (s.normalView member) (s.votedLog member ++ [entry]) s.base := by
  obtain ⟨first, started, above⟩ := sound.active member
  have grows : s.logIn member (s.normalView member) <+: s.votedLog member ++ [entry] :=
    List.prefix_append _ _
  have growing : Grows s (s.write member (s.normalView member)
      (s.votedLog member ++ [entry]) s.base) :=
    sound.grows_write unfenced.le (fun _ _ holds => holds) grows
  refine {
    unfenced := unfenced.le
    others := fun _ _ => rfl
    started := ⟨first, started, above.trans grows⟩
    origin := .inl rfl
    below := .inl leads
    grows := grows
    matched := ?_
    created := ?_
    admitted := (sound.admitted member _).concat admitted }
  · intro index found holds
    rcases Nat.lt_or_ge index (s.votedLog member).length with inside | atEnd
    · rw [List.getElem?_append_left inside] at holds
      rw [List.take_append_of_le_length inside]
      exact growing.matched (sound.matched member _) index found holds
    · obtain rfl : index = (s.votedLog member).length := by
        have := (List.getElem?_eq_some_iff.mp holds).1
        rw [List.length_append, List.length_singleton] at this
        omega
      obtain rfl : entry = found := by simpa using holds
      rw [List.take_of_length_le (by simp), created, viewLog, logIn_write,
        if_pos ⟨leads, rfl⟩]
  · intro found inLog
    rcases List.mem_append.mp inLog with old | new
    · exact sound.created member _ found old
    · rw [List.mem_singleton.mp new, created]

/-- Adopting a log that the leader of a started view has is allowed. -/
theorem Sound.writable_adopt (sound : Sound group s) {view : Nat} {log base : List Entry}
    (unfenced : s.fence member ≤ view) (started : s.base view = some base) (above : base <+: log)
    (below : log <+: s.viewLog group view) (grows : s.logIn member view <+: log) :
    Writable group s member view log s.base where
  unfenced := unfenced
  others _ _ := rfl
  started := ⟨base, started, above⟩
  origin := .inl rfl
  below := .inr below
  grows := grows
  matched :=
    (sound.grows_write unfenced (fun _ _ holds => holds) grows).matched
      ((sound.matched _ view).of_below below)
  created entry inLog := sound.created _ view entry (below.subset inLog)
  admitted := (sound.admitted _ view).of_below below

/-- Starting a view from the most advanced of a majority of votes is allowed. -/
theorem Sound.writable_start (sound : Sound group s) {view best bestView : Nat}
    {voters : Finset Nat} (leads : group.leader view = member) (fenced : s.fence member = view)
    (inactive : s.normalView member < view)
    (elected : s.Elected group view voters best bestView) :
    Writable group s member view (s.logIn best bestView)
      (Function.update s.base view (some (s.logIn best bestView))) := by
  have fresh : s.base view = none := by
    cases started : s.base view with
    | none => rfl
    | some base =>
        have := sound.led view base started
        rw [leads] at this
        omega
  have kept : ∀ at_ first, s.base at_ = some first →
      Function.update s.base view (some (s.logIn best bestView)) at_ = some first := by
    intro at_ first holds
    rw [Function.update_of_ne]
    · exact holds
    · rintro rfl
      simp [fresh] at holds
  have grows : s.logIn member view <+: s.logIn best bestView := by
    rw [sound.untouched member view inactive]
    exact List.nil_prefix
  refine {
    unfenced := fenced.le
    others := fun at_ elsewhere => Function.update_of_ne elsewhere _ _
    started := ⟨s.logIn best bestView, by simp, List.prefix_rfl⟩
    origin := .inr ⟨fresh, leads, voters, best, bestView, elected, by simp⟩
    below := .inl leads
    grows := grows
    matched := (sound.grows_write fenced.le kept grows).matched (sound.matched best bestView)
    created := fun entry inLog => ?_
    admitted := sound.admitted best bestView }
  obtain ⟨earlier, -⟩ := sound.balloted view best bestView elected.bestVoted
  exact (sound.created best bestView entry inLog).trans earlier.le

/-- Voting only makes the state grow. -/
theorem Sound.grows_vote (sound : Sound group s) {view : Nat} (unfenced : s.fence member < view) :
    Grows s (s.vote member view) where
  logIn _ _ := List.prefix_rfl
  normalView _ := Nat.le_refl _
  fence other := by
    by_cases who : other = member
    · subst who
      simpa [vote] using unfenced.le
    · simp [vote, who]
  base _ _ started := started
  ballot at_ voter normal voted := by
    refine ⟨?_, rfl⟩
    by_cases here : at_ = view ∧ voter = member
    · obtain ⟨rfl, rfl⟩ := here
      obtain ⟨-, promised, -⟩ := sound.balloted at_ voter normal voted
      omega
    · by_cases whenever : at_ = view
      · subst whenever
        have who : voter ≠ member := fun same => here ⟨rfl, same⟩
        simpa [vote, who] using voted
      · simpa [vote, whenever] using voted

/-- Voting keeps the invariant. -/
theorem Sound.vote (sound : Sound group s) {view : Nat} (unfenced : s.fence member < view) :
    Sound group (s.vote member view) where
  fenced other := (sound.fenced other).trans ((sound.grows_vote unfenced).fence other)
  untouched := sound.untouched
  active := sound.active
  followed := sound.followed
  extended := sound.extended
  led := sound.led
  unstarted := sound.unstarted
  balloted at_ voter normal voted := by
    by_cases here : at_ = view ∧ voter = member
    · obtain ⟨rfl, rfl⟩ := here
      obtain rfl : s.normalView voter = normal := by simpa [ViewLogs.vote] using voted
      refine ⟨(sound.fenced voter).trans_lt unfenced, by simp [ViewLogs.vote], Nat.le_refl _,
        sound.active voter, fun between after _ => sound.untouched voter between after⟩
    · have before : s.ballot at_ voter = some normal := by
        by_cases whenever : at_ = view
        · subst whenever
          have who : voter ≠ member := fun same => here ⟨rfl, same⟩
          simpa [ViewLogs.vote, who] using voted
        · simpa [ViewLogs.vote, whenever] using voted
      obtain ⟨earlier, promised, rest⟩ := sound.balloted at_ voter normal before
      exact ⟨earlier, promised.trans ((sound.grows_vote unfenced).fence voter), rest⟩
  standing other ahead := by
    by_cases who : other = member
    · subst who
      simp [ViewLogs.vote]
    · have ahead : s.normalView other < s.fence other := by
        simpa [ViewLogs.vote, who] using ahead
      have voted := sound.standing other ahead
      have same : (s.vote member view).fence other = s.fence other := by
        simp [ViewLogs.vote, who]
      rw [same]
      exact ((sound.grows_vote unfenced).ballot _ _ _ voted).1
  elected at_ first started later := by
    obtain ⟨voters, best, bestView, elected, same⟩ := sound.elected at_ first started later
    exact ⟨voters, best, bestView, (sound.grows_vote unfenced).elected elected, same⟩
  matched := sound.matched
  created := sound.created
  admitted := sound.admitted

/-- Every step keeps the invariant and only makes the state grow. -/
theorem Step.sound_grows (sound : Sound group s) (step : Step group member s t) :
    Sound group t ∧ Grows s t := by
  cases step with
  | append entry leads unfenced created admitted =>
      rw [append_eq_adopt entry unfenced]
      have ok := sound.writable_append entry leads unfenced created admitted
      exact ⟨ok.sound sound, ok.growing sound⟩
  | adopt view log base unfenced started above below grows =>
      have ok := sound.writable_adopt unfenced started above below grows
      exact ⟨ok.sound sound, ok.growing sound⟩
  | vote view unfenced => exact ⟨sound.vote unfenced, sound.grows_vote unfenced⟩
  | start view voters best bestView leads fenced inactive elected =>
      have ok := sound.writable_start leads fenced inactive elected
      exact ⟨ok.sound sound, ok.growing sound⟩

/-- A step of one member leaves the others as they are. -/
theorem Step.frame (step : Step group member s t) {other : Nat} (who : other ≠ member) :
    t.logIn other = s.logIn other ∧ t.normalView other = s.normalView other ∧
      t.fence other = s.fence other := by
  cases step <;>
    simp [ViewLogs.append, ViewLogs.adopt, ViewLogs.vote, ViewLogs.start, setLog, who]

/-- Steps of one member. -/
abbrev Steps (group : Group Entry) (member : Nat) :
    ViewLogs Entry → ViewLogs Entry → Prop :=
  Relation.ReflTransGen (Step group member)

/-- Steps keep the invariant and only make the state grow. -/
theorem Steps.sound_grows (sound : Sound group s) (steps : Steps group member s t) :
    Sound group t ∧ Grows s t := by
  induction steps with
  | refl => exact ⟨sound, .refl s⟩
  | tail _ step inductionHypothesis =>
      obtain ⟨between, growing⟩ := inductionHypothesis
      obtain ⟨after, more⟩ := step.sound_grows between
      exact ⟨after, growing.trans more⟩

/-- Steps of one member leave the others as they are. -/
theorem Steps.frame (steps : Steps group member s t) {other : Nat} (who : other ≠ member) :
    t.logIn other = s.logIn other ∧ t.normalView other = s.normalView other ∧
      t.fence other = s.fence other := by
  induction steps with
  | refl => exact ⟨rfl, rfl, rfl⟩
  | tail _ step inductionHypothesis =>
      obtain ⟨logs, normals, fences⟩ := step.frame who
      obtain ⟨logsBefore, normalsBefore, fencesBefore⟩ := inductionHypothesis
      exact ⟨logs.trans logsBefore, normals.trans normalsBefore, fences.trans fencesBefore⟩

end Steps

section Safety

variable {s : ViewLogs Entry} {view count : Nat}

/-- A log to be active with has entries where their views have them. -/
theorem Sound.matched_within (sound : Sound group s) {log : List Entry}
    (within : s.Within group view log) : s.Matched group log := by
  obtain ⟨base, -, -, below⟩ := within
  exact (sound.matched _ view).of_below below

/-- The log a member was last active with. -/
theorem Sound.within_votedLog (sound : Sound group s) (member : Nat) :
    s.Within group (s.normalView member) (s.votedLog member) := by
  obtain ⟨base, started, above⟩ := sound.active member
  exact ⟨base, started, above, sound.followed member _⟩

/-- The log of a view that has started is one to be active with. -/
theorem Sound.within_viewLog (sound : Sound group s) {base : List Entry}
    (started : s.base view = some base) : s.Within group view (s.viewLog group view) :=
  ⟨base, started, sound.extended view base started, List.prefix_rfl⟩

/-- The leader holds what was chosen in its view. -/
theorem Sound.chosen_length (sound : Sound group s) (chosen : s.Chosen group view count) :
    count ≤ (s.viewLog group view).length := by
  obtain ⟨voters, -, quorum, held⟩ := chosen
  obtain ⟨voter, member⟩ : voters.Nonempty := by
    rw [← Finset.card_pos]
    omega
  exact (held voter member).trans (sound.followed voter view).length_le

/-- The first entries of what was chosen are chosen. -/
theorem Chosen.le {fewer : Nat} (chosen : s.Chosen group view count) (le : fewer ≤ count) :
    s.Chosen group view fewer := by
  obtain ⟨voters, within, quorum, held⟩ := chosen
  exact ⟨voters, within, quorum, fun voter member => le.trans (held voter member)⟩

/-- What was chosen in a view is in the log that every later view starts from. The induction
is on the later view: the most advanced vote is either from the view itself, or from one in
between that already had it. -/
theorem Sound.chosen_base (sound : Sound group s) (balanced : group.n = 2 * group.f + 1)
    (chosen : s.Chosen group view count) {later : Nat} {base : List Entry} (after : view < later)
    (started : s.base later = some base) : (s.viewLog group view).take count <+: base := by
  induction later using Nat.strong_induction_on generalizing base with
  | _ later inductionHypothesis =>
      rcases Nat.eq_zero_or_pos count with rfl | some_
      · simp
      obtain ⟨voters, best, bestView, elected, rfl⟩ := sound.elected later base started (by omega)
      obtain ⟨holders, within, quorum, held⟩ := chosen
      obtain ⟨witness, holds, votes⟩ := exists_common_member within elected.within (by
        have := elected.quorum
        omega)
      obtain ⟨normal, voted⟩ := elected.voted witness votes
      obtain ⟨-, -, -, -, between⟩ := sound.balloted later witness normal voted
      have held := held witness holds
      -- A voter that held entries in `view` was not last active before it.
      have active : view ≤ normal := by
        by_contra earlier
        rw [between view (by omega) after] at held
        simp at held
        omega
      obtain ⟨bestBefore, -, -, ⟨bestBase, bestStarted, bestAbove⟩, -⟩ :=
        sound.balloted later best bestView elected.bestVoted
      have advanced := elected.mostAdvanced witness votes normal voted
      rcases Nat.lt_or_ge view bestView with inBetween | same
      · exact (inductionHypothesis bestView bestBefore inBetween bestStarted).trans bestAbove
      · obtain rfl : bestView = view := by omega
        obtain rfl : normal = bestView := by omega
        have longer : count ≤ (s.logIn best normal).length := by omega
        have below := sound.followed best normal
        refine List.prefix_of_prefix_length_le (List.take_prefix _ _) below ?_
        rw [List.length_take]
        omega

/-- A log of a later view has everything that was chosen. -/
theorem Sound.chosen_length_later (sound : Sound group s) (balanced : group.n = 2 * group.f + 1)
    (chosen : s.Chosen group view count) {later : Nat} {log : List Entry} (after : view < later)
    (within : s.Within group later log) : count ≤ log.length := by
  obtain ⟨base, started, above, -⟩ := within
  have kept := (sound.chosen_base balanced chosen after started).trans above
  have := kept.length_le
  rw [List.length_take] at this
  have := sound.chosen_length chosen
  omega

/-- Every log of the view or a later one agrees with what was chosen. -/
theorem Sound.chosen_take (sound : Sound group s) (balanced : group.n = 2 * group.f + 1)
    (chosen : s.Chosen group view count) {later : Nat} {log : List Entry} (after : view ≤ later)
    (within : s.Within group later log) (long : count ≤ log.length) :
    log.take count = (s.viewLog group view).take count := by
  have length := sound.chosen_length chosen
  have below : (s.viewLog group view).take count <+: log := by
    rcases Nat.lt_or_eq_of_le after with later_ | rfl
    · obtain ⟨base, started, above, -⟩ := within
      exact (sound.chosen_base balanced chosen later_ started).trans above
    · obtain ⟨-, -, -, below⟩ := within
      refine List.prefix_of_prefix_length_le (List.take_prefix _ _) below ?_
      rw [List.length_take]
      omega
  have := List.prefix_iff_eq_take.mp below
  rw [List.length_take, min_eq_left length] at this
  exact this.symm

/-- Two views in which an entry number was chosen have the same entries up to it. -/
theorem Sound.chosen_unique (sound : Sound group s) (balanced : group.n = 2 * group.f + 1)
    {other : Nat} (chosen : s.Chosen group view count) (chosenToo : s.Chosen group other count) :
    (s.viewLog group view).take count = (s.viewLog group other).take count := by
  rcases Nat.eq_zero_or_pos count with rfl | some_
  · simp
  -- A view in which something was chosen has started.
  have started : ∀ at_, s.Chosen group at_ count →
      s.Within group at_ (s.viewLog group at_) := by
    intro at_ holds
    cases starts : s.base at_ with
    | some base => exact sound.within_viewLog starts
    | none =>
        have := sound.chosen_length holds
        rw [sound.unstarted at_ starts] at this
        simp at this
        omega
  rcases Nat.le_total view other with before | before
  · exact (sound.chosen_take balanced chosen before (started other chosenToo)
      (sound.chosen_length chosenToo)).symm
  · exact sound.chosen_take balanced chosenToo before (started view chosen)
      (sound.chosen_length chosen)

end Safety

end ViewLogs

end PaxosBus.Library

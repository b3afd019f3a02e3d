import PaxosBus.Common.ConfigurationFile
import Mathlib.Data.List.Induction
import Mathlib.Tactic.Common

/-!
# Which files the configuration is read from

The groups of a file are the runs of replica lines between group lines. A
configuration describes a file if it has these groups, numbered from zero without
a gap and all of one size, the last multicast and fc lines, and no negative
number. The constructor panics or describes its file, unless a blank line, a gap
between the groups, a negative number or an address with a leading colon gets
past its checks.
-/

set_option autoImplicit false

namespace PaxosBus.Common

open Std PaxosBus.Library

/-! ## What a file says -/

/-- The address in an argument: the text before the first colon and the text behind it. -/
def Argument.split (arg : Argument) : ReplicaAddress where
  host := arg.text.takeWhile (· ≠ ':')
  port := (arg.text.dropWhile (· ≠ ':')).drop 1

/-- The argument does not start with a colon. -/
def Argument.Plain (arg : Argument) : Prop := arg.text.head? ≠ some ':'

/-- The replica lines before the first group line, and those behind each group line. -/
def segments : List Directive → List (List Argument)
  | [] => [[]]
  | .group :: directives => [] :: segments directives
  | .replica arg :: directives => (segments directives).modifyHead (arg :: ·)
  | .f _ :: directives => segments directives
  | .multicast _ :: directives => segments directives
  | .fc _ :: directives => segments directives

/-- The groups of a file. Replica lines before the first group line are a group as well. -/
def groups (directives : List Directive) : List (List Argument) :=
  if (segments directives).head? = some [] then (segments directives).tail
  else segments directives

/-- The value of the last f line, or the initial one. -/
def lastF (directives : List Directive) : Int :=
  (directives.filterMap fun | .f value => some value | _ => none).getLast?.getD (-1)

/-- The last multicast line. -/
def lastMulticast (directives : List Directive) : Option Argument :=
  (directives.filterMap fun | .multicast arg => some arg | _ => none).getLast?

/-- The last fc line. -/
def lastFc (directives : List Directive) : Option Argument :=
  (directives.filterMap fun | .fc arg => some arg | _ => none).getLast?

/-- The directives of some lines, if all of them can be read. -/
def directives : List Text → Except Stop (List Directive)
  | [] => .ok []
  | line :: lines => do
    let directive ← readLine line
    let rest ← directives lines
    return directive.toList ++ rest

/-- The configuration is the one that the directives describe. -/
structure FileConfiguration.Describes (config : FileConfiguration) (ds : List Directive) :
    Prop where
  f : 0 ≤ config.f
  g : 1 ≤ config.g
  n : 1 ≤ config.n
  members : ∀ i : Nat, i < config.g → ∃ lines, (groups ds)[i]? = some lines ∧
    lines.length = config.n ∧ config.replicas[(i : Int)]? = some (lines.map Argument.split)
  numbered : ∀ group ∈ config.replicas, 0 ≤ group ∧ group < config.g
  multicast : config.multicast = (lastMulticast ds).map Argument.split
  fc : config.fc = (lastFc ds).map Argument.split

/-- The constructor panics, or the configuration describes the file. -/
def Proper (text : Text) : Prop :=
  (∃ message, FileConfiguration.read text = .error (.panic message)) ∨
    ∃ config ds, FileConfiguration.read text = .ok config ∧
      directives (text.splitOn '\n') = .ok ds ∧ config.Describes ds

/-! ## Which files are read properly -/

/-- How many groups have a replica. -/
def occupied (ds : List Directive) : Nat := (groups ds).countP fun lines => lines ≠ []

/-- The size of the first group. -/
def firstSize (ds : List Directive) : Nat := ((groups ds)[0]?.getD []).length

/-- The directives pass the checks after the loop. -/
structure Complete (ds : List Directive) : Prop where
  present : toInt (occupied ds) ≠ 0
  sizes : ∀ lines ∈ groups ds, lines ≠ [] → (lines.length : Int) = toInt (firstSize ds) % 2 ^ 64
  replicas : toInt (firstSize ds) ≠ 0
  f : lastF ds ≠ -1

/-- What the checks overlook: the number is not negative, no group without replicas comes before
one with replicas, the counts fit an `int`, and no address that is kept starts with a colon. -/
structure Clean (ds : List Directive) : Prop where
  f : 0 ≤ lastF ds
  gapless : ∃ full empty, groups ds = full ++ List.replicate empty [] ∧ ∀ lines ∈ full, lines ≠ []
  few : occupied ds < 2 ^ 31
  small : firstSize ds < 2 ^ 31
  replicas : ∀ lines ∈ groups ds, ∀ arg ∈ lines, arg.Plain
  multicast : ∀ arg, lastMulticast ds = some arg → arg.Plain
  fc : ∀ arg, lastFc ds = some arg → arg.Plain

/-- The first line that is not read panics, and there are not too many groups before it; or all
lines are read, and directives that pass the checks after the loop are clean. -/
def Regular (lines : List Text) : Prop :=
  (∃ before line after ds message, lines = before ++ line :: after ∧
      directives before = .ok ds ∧ (groups ds).length ≤ 2 ^ 31 ∧
      readLine line = .error (.panic message)) ∨
    ∃ ds, directives lines = .ok ds ∧ (groups ds).length ≤ 2 ^ 31 ∧ (Complete ds → Clean ds)

/-! ## Addresses -/

/-- An address is split at the first colon exactly if it does not start with one. -/
theorem Argument.address_eq_split_iff (arg : Argument) : arg.address = arg.split ↔ arg.Plain := by
  obtain ⟨text, address, read⟩ := arg
  unfold hostPort at read
  cases found : strtok [':'] text with
  | none =>
      rw [found] at read
      cases read
  | some tokens =>
      obtain ⟨host, saved⟩ := tokens
      rw [found] at read
      simp only [strtok_nil] at read
      have named := token_ne_nil found
      by_cases empty : saved = []
      · rw [if_pos empty] at read
        cases read
      rw [if_neg empty] at read
      obtain rfl := Option.some.inj read
      constructor
      · intro same
        obtain ⟨hosts, -⟩ := ReplicaAddress.mk.inj same
        intro colon
        cases text with
        | nil => cases colon
        | cons c rest =>
            obtain rfl := Option.some.inj colon
            exact named hosts
      · intro plain
        have start : text.dropWhile (· ∈ [':']) = text := by
          cases text with
          | nil => rfl
          | cons c rest =>
              have other : c ≠ ':' := fun same => plain (congrArg some same)
              simp [other]
        unfold strtok at found
        simp only [start] at found
        split at found
        · cases found
        · obtain ⟨rfl, rfl⟩ := Prod.mk.inj (Option.some.inj found)
          simp [Argument.split]

/-! ## Groups, line by line -/

/-- Add a replica line to the last group, or to a first one. -/
def addLast (arg : Argument) : List (List Argument) → List (List Argument)
  | [] => [[arg]]
  | [last] => [last ++ [arg]]
  | first :: second :: rest => first :: addLast arg (second :: rest)

/-- There is a run of replica lines before the first group line, even if it is empty. -/
theorem segments_ne_nil (ds : List Directive) : segments ds ≠ [] := by
  induction ds with
  | nil => simp [segments]
  | cons d ds inductionHypothesis =>
      cases d with
      | group => simp [segments]
      | replica arg =>
          obtain ⟨first, rest, same⟩ := List.exists_cons_of_ne_nil inductionHypothesis
          simp [segments, same]
      | f value => exact inductionHypothesis
      | multicast arg => exact inductionHypothesis
      | fc arg => exact inductionHypothesis

/-- A group line starts another run. -/
theorem segments_concat_group (ds : List Directive) :
    segments (ds ++ [.group]) = segments ds ++ [[]] := by
  induction ds with
  | nil => rfl
  | cons d ds inductionHypothesis =>
      cases d with
      | group => simp [segments, inductionHypothesis]
      | replica arg =>
          obtain ⟨first, rest, same⟩ := List.exists_cons_of_ne_nil (segments_ne_nil ds)
          simp [segments, inductionHypothesis, same]
      | f value => exact inductionHypothesis
      | multicast arg => exact inductionHypothesis
      | fc arg => exact inductionHypothesis

/-- A replica line goes to the last run. -/
theorem segments_concat_replica (ds : List Directive) (arg : Argument) :
    segments (ds ++ [.replica arg]) = addLast arg (segments ds) := by
  induction ds with
  | nil => rfl
  | cons d ds inductionHypothesis =>
      obtain ⟨first, rest, same⟩ := List.exists_cons_of_ne_nil (segments_ne_nil ds)
      cases d with
      | group => simp [segments, inductionHypothesis, same, addLast]
      | replica other =>
          rw [List.cons_append, segments, inductionHypothesis, segments, same]
          cases rest with
          | nil => rfl
          | cons second rest => rfl
      | f value => exact inductionHypothesis
      | multicast other => exact inductionHypothesis
      | fc other => exact inductionHypothesis

/-- A group line starts a group. -/
theorem groups_concat_group (ds : List Directive) :
    groups (ds ++ [.group]) = groups ds ++ [[]] := by
  obtain ⟨first, rest, same⟩ := List.exists_cons_of_ne_nil (segments_ne_nil ds)
  unfold groups
  rw [segments_concat_group, same]
  by_cases none : first = []
  · simp [none]
  · simp [none]

/-- A replica line belongs to the last group. -/
theorem groups_concat_replica (ds : List Directive) (arg : Argument) :
    groups (ds ++ [.replica arg]) = addLast arg (groups ds) := by
  obtain ⟨first, rest, same⟩ := List.exists_cons_of_ne_nil (segments_ne_nil ds)
  unfold groups
  rw [segments_concat_replica, same]
  cases rest with
  | nil =>
      by_cases none : first = []
      · simp [none, addLast]
      · simp [none, addLast]
  | cons second rest =>
      by_cases none : first = []
      · simp [none, addLast]
      · simp [none, addLast]

/-- No other line changes the groups. -/
theorem segments_concat_other (ds : List Directive) {d : Directive}
    (other : segments [d] = [[]] ∧ ∀ rest, segments (d :: rest) = segments rest) :
    segments (ds ++ [d]) = segments ds := by
  induction ds with
  | nil => exact other.1
  | cons e ds inductionHypothesis =>
      cases e with
      | group => simp [segments, inductionHypothesis]
      | replica arg => simp [segments, inductionHypothesis]
      | f value => exact inductionHypothesis
      | multicast arg => exact inductionHypothesis
      | fc arg => exact inductionHypothesis

@[simp] theorem groups_concat_f (ds : List Directive) (value : Int) :
    groups (ds ++ [.f value]) = groups ds := by
  rw [groups, segments_concat_other ds ⟨rfl, fun _ => rfl⟩, groups]

@[simp] theorem groups_concat_multicast (ds : List Directive) (arg : Argument) :
    groups (ds ++ [.multicast arg]) = groups ds := by
  rw [groups, segments_concat_other ds ⟨rfl, fun _ => rfl⟩, groups]

@[simp] theorem groups_concat_fc (ds : List Directive) (arg : Argument) :
    groups (ds ++ [.fc arg]) = groups ds := by
  rw [groups, segments_concat_other ds ⟨rfl, fun _ => rfl⟩, groups]

/-- A line that is added to no group starts the first one. -/
theorem length_addLast (arg : Argument) (gs : List (List Argument)) :
    (addLast arg gs).length = max 1 gs.length := by
  induction gs using addLast.induct with
  | case1 => rfl
  | case2 last => rfl
  | case3 first second rest inductionHypothesis =>
      simp only [addLast, List.length_cons] at inductionHypothesis ⊢
      omega

/-- Only the last group has another line. -/
theorem getElem?_addLast (arg : Argument) (gs : List (List Argument)) (i : Nat) :
    (addLast arg gs)[i]? =
      if i = gs.length - 1 then some (gs[i]?.getD [] ++ [arg]) else gs[i]? := by
  induction gs using addLast.induct generalizing i with
  | case1 => cases i <;> simp [addLast]
  | case2 last => cases i <;> simp [addLast]
  | case3 first second rest inductionHypothesis =>
      cases i with
      | zero => simp [addLast]
      | succ i =>
          have later := inductionHypothesis i
          simp only [addLast, List.getElem?_cons_succ, List.length_cons] at later ⊢
          rw [later]
          simp

/-- A first line makes one group more that has a replica. -/
theorem countP_addLast (arg : Argument) (gs : List (List Argument)) :
    (addLast arg gs).countP (fun lines => lines ≠ []) =
      gs.countP (fun lines => lines ≠ []) +
        if gs[gs.length - 1]?.getD [] = [] then 1 else 0 := by
  induction gs using addLast.induct with
  | case1 => simp [addLast]
  | case2 last => by_cases none : last = [] <;> simp [addLast, none]
  | case3 first second rest inductionHypothesis =>
      simp only [addLast, List.countP_cons, List.length_cons] at inductionHypothesis ⊢
      rw [inductionHypothesis]
      simp only [Nat.add_sub_cancel, List.getElem?_cons_succ]
      omega

/-! ## The loop -/

/-- What the map holds for a group: nothing, if it has no replicas. -/
def held (gs : List (List Argument)) (group : Int) : Option (List ReplicaAddress) :=
  if 0 ≤ group ∧ gs[group.toNat]?.getD [] ≠ [] then
    some ((gs[group.toNat]?.getD []).map Argument.address)
  else none

/-- The replicas of a group are the addresses in its lines, if it has any. -/
theorem held_eq_some_iff {gs : List (List Argument)} {group : Int}
    {addresses : List ReplicaAddress} :
    held gs group = some addresses ↔ ∃ (i : Nat) (lines : List Argument), group = i ∧
      gs[i]? = some lines ∧ lines ≠ [] ∧ addresses = lines.map Argument.address := by
  unfold held
  constructor
  · intro found
    split at found
    · rename_i present
      obtain ⟨natural, some⟩ := present
      cases lines : gs[group.toNat]? with
      | none => simp [lines] at some
      | some members =>
          rw [lines] at found some
          exact ⟨group.toNat, members, by omega, lines, some, (Option.some.inj found).symm⟩
    · cases found
  · rintro ⟨i, lines, rfl, found, some, rfl⟩
    simp [found, some]

/-- What the loop has gathered from some directives. -/
structure Reading.Represents (r : Reading) (ds : List Directive) : Prop where
  f : r.f = lastF ds
  group : r.group = (groups ds).length - 1
  replicas : ∀ group : Int, r.replicas[group]? = held (groups ds) group
  size : r.replicas.size = occupied ds
  multicast : r.multicast = (lastMulticast ds).map Argument.address
  fc : r.fc = (lastFc ds).map Argument.address

/-- The directives take effect one after the other. -/
def Reading.applyAll (r : Reading) (ds : List Directive) : Except Stop Reading :=
  ds.foldlM Reading.apply r

/-- The lines are read one after the other. -/
theorem Reading.applyAll_concat (r : Reading) (ds : List Directive) (d : Directive) :
    r.applyAll (ds ++ [d]) = (r.applyAll ds).bind fun r => r.apply d := by
  unfold applyAll
  rw [List.foldlM_append]
  apply bind_congr
  intro middle
  rw [List.foldlM_cons]
  exact bind_pure _

/-- Lines that can be read take effect, and the others are read in the state that they leave. -/
theorem Reading.readLines_append {before : List Text} {ds : List Directive}
    (read : directives before = .ok ds) (r : Reading) (rest : List Text) :
    r.readLines (before ++ rest) = (r.applyAll ds).bind fun r => r.readLines rest := by
  induction before generalizing r ds with
  | nil =>
      obtain rfl := Except.ok.inj read
      rfl
  | cons line before inductionHypothesis =>
      unfold directives at read
      cases first : readLine line with
      | error stop =>
          rw [first] at read
          cases read
      | ok directive =>
          cases later : directives before with
          | error stop =>
              rw [first, later] at read
              cases read
          | ok others =>
              rw [first, later] at read
              obtain rfl := Except.ok.inj read
              simp only [List.cons_append, readLines, first, bind, Except.bind]
              cases directive with
              | none => exact inductionHypothesis later r
              | some d =>
                  simp only [Option.toList_some, List.singleton_append, applyAll, List.foldlM_cons,
                    bind]
                  cases r.apply d with
                  | error stop => rfl
                  | ok next => exact inductionHypothesis later next

/-- Either every line can be read, or a first one cannot. -/
theorem directives_cases (lines : List Text) : (∃ ds, directives lines = .ok ds) ∨
    ∃ before line after ds stop, lines = before ++ line :: after ∧
      directives before = .ok ds ∧ readLine line = .error stop := by
  induction lines with
  | nil => exact .inl ⟨[], rfl⟩
  | cons line lines inductionHypothesis =>
      cases first : readLine line with
      | error stop => exact .inr ⟨[], line, lines, [], stop, rfl, rfl, first⟩
      | ok directive =>
          rcases inductionHypothesis with
            ⟨ds, later⟩ | ⟨before, stopped, after, ds, stop, rfl, later, failed⟩
          · refine .inl ⟨directive.toList ++ ds, ?_⟩
            rw [directives, first, later]
            rfl
          · refine .inr ⟨line :: before, stopped, after, directive.toList ++ ds, stop, rfl, ?_,
              failed⟩
            rw [directives, first, later]
            rfl

section Steps

variable {r : Reading} {ds : List Directive}

/-- Nothing has been read of no lines. -/
theorem represents_initial : ({} : Reading).Represents [] where
  f := rfl
  group := rfl
  replicas group := by simp [held, groups, segments]
  size := rfl
  multicast := rfl
  fc := rfl

/-- What the map holds once the last group has another replica. -/
theorem held_addLast (arg : Argument) (gs : List (List Argument)) (group : Int) :
    held (addLast arg gs) group =
      if group = (gs.length - 1 : Nat) then
        some ((gs[gs.length - 1]?.getD []).map Argument.address ++ [arg.address])
      else held gs group := by
  unfold held
  rw [getElem?_addLast]
  by_cases last : group = (gs.length - 1 : Nat)
  · subst last
    simp
  · by_cases natural : 0 ≤ group
    · have other : group.toNat ≠ gs.length - 1 := by omega
      rw [if_neg last, if_neg other]
    · rw [if_neg last, if_neg (fun found => natural found.1), if_neg (fun found => natural found.1)]

/-- A replica line goes to the last group. -/
theorem Reading.Represents.replica (represents : r.Represents ds) (arg : Argument) :
    ∃ next, r.apply (.replica arg) = .ok next ∧ next.Represents (ds ++ [.replica arg]) := by
  refine ⟨_, rfl, ?_⟩
  have last : (if r.group < 0 then 0 else r.group) = ((groups ds).length - 1 : Nat) := by
    rw [represents.group]
    split <;> omega
  have own := represents.replicas ((groups ds).length - 1 : Nat)
  constructor
  · simpa [lastF] using represents.f
  · rw [groups_concat_replica, length_addLast]
    dsimp only
    rw [last]
    omega
  · intro group
    dsimp only
    rw [groups_concat_replica, held_addLast, last, TreeMap.getElem?_insert,
      TreeMap.getD_eq_getD_getElem?, own]
    by_cases same : group = ((groups ds).length - 1 : Nat)
    · subst same
      by_cases none : (groups ds)[(groups ds).length - 1]?.getD [] = []
      · simp [held, none]
      · simp [held, none]
    · have different : ¬ (((groups ds).length - 1 : Nat) : Int) = group := fun equal =>
        same equal.symm
      simp [different, same, represents.replicas]
  · dsimp only
    rw [last, TreeMap.size_insert, represents.size, occupied, occupied, groups_concat_replica,
      countP_addLast]
    rw [TreeMap.contains_eq_isSome_getElem?, own]
    by_cases none : (groups ds)[(groups ds).length - 1]?.getD [] = []
    · simp [held, none]
    · simp [held, none]
  · simpa [lastMulticast] using represents.multicast
  · simpa [lastFc] using represents.fc

/-- A group line starts another group, if its number is an `int`. -/
theorem Reading.Represents.group_line (represents : r.Represents ds)
    (few : (groups ds).length + 1 ≤ 2 ^ 31) :
    ∃ next, r.apply .group = .ok next ∧ next.Represents (ds ++ [.group]) := by
  have number := represents.group
  refine ⟨_, if_neg (by omega), ?_⟩
  constructor
  · simpa [lastF] using represents.f
  · rw [groups_concat_group, List.length_append, List.length_singleton]
    dsimp only
    omega
  · intro group
    rw [groups_concat_group]
    refine (represents.replicas group).trans ?_
    unfold held
    by_cases natural : 0 ≤ group
    · have same : (groups ds ++ [[]])[group.toNat]?.getD [] = (groups ds)[group.toNat]?.getD [] := by
        rw [List.getElem?_append]
        split
        · rfl
        · rename_i beyond
          rw [List.getElem?_eq_none (Nat.le_of_not_lt beyond)]
          cases group.toNat - (groups ds).length <;> rfl
      rw [same]
    · rw [if_neg (fun found => natural found.1), if_neg (fun found => natural found.1)]
  · refine represents.size.trans ?_
    simp [occupied, groups_concat_group]
  · simpa [lastMulticast] using represents.multicast
  · simpa [lastFc] using represents.fc

/-- A line that gives the number of failures or an address that is not a replica's. -/
theorem Reading.Represents.other_line (represents : r.Represents ds) (d : Directive)
    (other : (∃ value, d = .f value) ∨ ∃ arg, d = .multicast arg ∨ d = .fc arg) :
    ∃ next, r.apply d = .ok next ∧ next.Represents (ds ++ [d]) := by
  obtain ⟨f, group, replicas, size, multicast, fc⟩ := represents
  rcases other with ⟨value, rfl⟩ | ⟨arg, rfl | rfl⟩
  · refine ⟨_, rfl, ?_, ?_, ?_, ?_, ?_, ?_⟩
    · simp [lastF]
    · simpa using group
    · simpa using replicas
    · simpa [occupied] using size
    · simpa [lastMulticast] using multicast
    · simpa [lastFc] using fc
  · refine ⟨_, rfl, ?_, ?_, ?_, ?_, ?_, ?_⟩
    · simpa [lastF] using f
    · simpa using group
    · simpa using replicas
    · simpa [occupied] using size
    · simp [lastMulticast]
    · simpa [lastFc] using fc
  · refine ⟨_, rfl, ?_, ?_, ?_, ?_, ?_, ?_⟩
    · simpa [lastF] using f
    · simpa using group
    · simpa using replicas
    · simpa [occupied] using size
    · simpa [lastMulticast] using multicast
    · simp [lastFc]

end Steps

/-- While the number of the group is an `int`, the loop gathers what the directives say. -/
theorem applyAll_represents {ds : List Directive} (few : (groups ds).length ≤ 2 ^ 31) :
    ∃ r, Reading.applyAll {} ds = .ok r ∧ r.Represents ds := by
  induction ds using List.reverseRecOn with
  | nil => exact ⟨{}, rfl, represents_initial⟩
  | append_singleton ds d inductionHypothesis =>
      cases d with
      | group =>
          rw [groups_concat_group, List.length_append, List.length_singleton] at few
          obtain ⟨r, applied, represents⟩ := inductionHypothesis (by omega)
          obtain ⟨next, more, represents'⟩ := represents.group_line few
          exact ⟨next, by rw [Reading.applyAll_concat, applied]; exact more, represents'⟩
      | replica arg =>
          rw [groups_concat_replica, length_addLast] at few
          obtain ⟨r, applied, represents⟩ := inductionHypothesis (by omega)
          obtain ⟨next, more, represents'⟩ := represents.replica arg
          exact ⟨next, by rw [Reading.applyAll_concat, applied]; exact more, represents'⟩
      | f value =>
          rw [groups_concat_f] at few
          obtain ⟨r, applied, represents⟩ := inductionHypothesis few
          obtain ⟨next, more, represents'⟩ := represents.other_line _ (.inl ⟨value, rfl⟩)
          exact ⟨next, by rw [Reading.applyAll_concat, applied]; exact more, represents'⟩
      | multicast arg =>
          rw [groups_concat_multicast] at few
          obtain ⟨r, applied, represents⟩ := inductionHypothesis few
          obtain ⟨next, more, represents'⟩ := represents.other_line _ (.inr ⟨arg, .inl rfl⟩)
          exact ⟨next, by rw [Reading.applyAll_concat, applied]; exact more, represents'⟩
      | fc arg =>
          rw [groups_concat_fc] at few
          obtain ⟨r, applied, represents⟩ := inductionHypothesis few
          obtain ⟨next, more, represents'⟩ := represents.other_line _ (.inr ⟨arg, .inr rfl⟩)
          exact ⟨next, by rw [Reading.applyAll_concat, applied]; exact more, represents'⟩

/-- One group more and its number overflows. -/
theorem applyAll_overflow {ds : List Directive} (many : 2 ^ 31 < (groups ds).length) :
    Reading.applyAll {} ds = .error .overflow := by
  induction ds using List.reverseRecOn with
  | nil => simp [groups, segments] at many
  | append_singleton ds d inductionHypothesis =>
      rw [Reading.applyAll_concat]
      by_cases earlier : 2 ^ 31 < (groups ds).length
      · rw [inductionHypothesis earlier]
        rfl
      · obtain ⟨r, applied, represents⟩ := applyAll_represents (Nat.le_of_not_lt earlier)
        rw [applied]
        cases d with
        | group =>
            rw [groups_concat_group, List.length_append, List.length_singleton] at many
            have number := represents.group
            exact if_pos (by omega)
        | replica arg =>
            rw [groups_concat_replica, length_addLast] at many
            omega
        | f value =>
            rw [groups_concat_f] at many
            exact absurd many earlier
        | multicast arg =>
            rw [groups_concat_multicast] at many
            exact absurd many earlier
        | fc arg =>
            rw [groups_concat_fc] at many
            exact absurd many earlier

/-! ## The checks after the loop -/

section Checks

variable {r : Reading} {ds : List Directive}

theorem toInt_zero : toInt 0 = 0 := rfl

/-- The map with a group zero. -/
theorem length_group_zero (represents : r.Represents ds) :
    ((if 0 ∈ r.replicas then r.replicas else r.replicas.insert 0 []).getD 0 []).length =
      firstSize ds := by
  have own := represents.replicas 0
  rw [TreeMap.getD_eq_getD_getElem?]
  split
  · rw [own, held]
    split
    · simp [firstSize]
    · rename_i absent
      have none : (groups ds)[0]?.getD [] = [] := by simpa using absent
      simp [firstSize, none]
  · rename_i absent
    rw [TreeMap.mem_iff_isSome_getElem?, own, held] at absent
    have none : (groups ds)[0]?.getD [] = [] := by
      by_contra some
      rw [if_pos (by simpa using some)] at absent
      exact absent rfl
    simp [firstSize, none]

/-- The check of the sizes, on the groups of the file. -/
theorem any_size_iff (represents : r.Represents ds) (n : Int) (first : n = toInt (firstSize ds)) :
    ((if 0 ∈ r.replicas then r.replicas else r.replicas.insert 0 []).toList.any
        fun kv => (kv.2.length : Int) ≠ n % 2 ^ 64) = true ↔
      ¬ ∀ lines ∈ groups ds, lines ≠ [] → (lines.length : Int) = toInt (firstSize ds) % 2 ^ 64 := by
  have entry : ∀ (group : Int) (addresses : List ReplicaAddress),
      r.replicas[group]? = some addresses → ∃ lines ∈ groups ds, lines ≠ [] ∧ addresses.length = lines.length := by
    intro group addresses found
    rw [represents.replicas, held_eq_some_iff] at found
    obtain ⟨i, lines, -, present, some, rfl⟩ := found
    exact ⟨lines, List.mem_of_getElem? present, some, List.length_map _⟩
  constructor
  · intro different sizes
    obtain ⟨⟨group, addresses⟩, member, different⟩ := List.any_eq_true.mp different
    rw [TreeMap.mem_toList_iff_getElem?_eq_some] at member
    have unequal : (addresses.length : Int) ≠ n % 2 ^ 64 := by simpa using different
    split at member
    · obtain ⟨lines, present, some, length⟩ := entry group addresses member
      rw [length, first] at unequal
      exact unequal (sizes lines present some)
    · rename_i absent
      have own := length_group_zero represents
      rw [if_neg absent, TreeMap.getD_insert_self] at own
      rw [TreeMap.getElem?_insert] at member
      split at member
      · obtain rfl := Option.some.inj member
        rw [first, ← own] at unequal
        exact unequal rfl
      · obtain ⟨lines, present, some, length⟩ := entry group addresses member
        rw [length, first] at unequal
        exact unequal (sizes lines present some)
  · intro different
    obtain ⟨lines, different⟩ := Classical.not_forall.mp different
    obtain ⟨present, different⟩ := Classical.not_imp.mp different
    obtain ⟨some, different⟩ := Classical.not_imp.mp different
    obtain ⟨i, found⟩ := List.getElem?_of_mem present
    have stored : r.replicas[(i : Int)]? = .some (lines.map Argument.address) := by
      rw [represents.replicas, held_eq_some_iff]
      exact ⟨i, lines, rfl, found, some, rfl⟩
    apply List.any_eq_true.mpr
    refine ⟨((i : Int), lines.map Argument.address), ?_, ?_⟩
    · rw [TreeMap.mem_toList_iff_getElem?_eq_some]
      split
      · exact stored
      · rename_i absent
        have later : ¬ compare (0 : Int) i = .eq := by
          intro same
          have zero : (0 : Int) = i := Std.compare_eq_iff_eq.mp same
          rw [← zero] at stored
          apply absent
          rw [TreeMap.mem_iff_isSome_getElem?, stored]
          rfl
        rw [TreeMap.getElem?_insert, if_neg later]
        exact stored
    · simpa [first] using different

/-- Directives that pass the checks make a configuration. -/
theorem finish_of_complete (represents : r.Represents ds) (complete : Complete ds) :
    ∃ config, r.finish = .ok config ∧ config.g = toInt (occupied ds) ∧
      config.n = toInt (firstSize ds) ∧ config.f = lastF ds ∧
      config.multicast = (lastMulticast ds).map Argument.address ∧
      config.fc = (lastFc ds).map Argument.address ∧
      ∀ group : Int, config.replicas[group]? = held (groups ds) group := by
  obtain ⟨present, sizes, replicas, f⟩ := complete
  have size := length_group_zero represents
  have zero : 0 ∈ r.replicas := by
    by_contra absent
    rw [if_neg absent, TreeMap.getD_insert_self] at size
    rw [← size] at replicas
    exact replicas rfl
  have equal := fun different => (any_size_iff represents _ rfl).mp different sizes
  rw [if_pos zero] at size equal
  have finished : r.finish = .ok
      { g := toInt (occupied ds)
        n := toInt (firstSize ds)
        f := lastF ds
        replicas := r.replicas
        multicast := r.multicast
        fc := r.fc } := by
    simp only [Reading.finish, represents.size, if_neg present, if_pos zero, size]
    rw [if_neg equal, if_neg replicas, represents.f, if_neg f]
  exact ⟨_, finished, rfl, rfl, rfl, represents.multicast, represents.fc, represents.replicas⟩

/-- Directives that do not pass the checks end in a panic. -/
theorem finish_of_not_complete (represents : r.Represents ds) (incomplete : ¬ Complete ds) :
    ∃ message, r.finish = .error (.panic message) := by
  have size := length_group_zero represents
  have checked := any_size_iff represents _ rfl
  simp only [Reading.finish, represents.size, size]
  by_cases present : toInt (occupied ds) = 0
  · exact ⟨_, if_pos present⟩
  rw [if_neg present]
  by_cases sizes : ∀ lines ∈ groups ds, lines ≠ [] →
      (lines.length : Int) = toInt (firstSize ds) % 2 ^ 64
  swap
  · exact ⟨_, if_pos (checked.mpr sizes)⟩
  rw [if_neg fun different => checked.mp different sizes]
  by_cases replicas : toInt (firstSize ds) = 0
  · exact ⟨_, if_pos replicas⟩
  rw [if_neg replicas, represents.f]
  by_cases f : lastF ds = -1
  · exact ⟨_, if_pos f⟩
  · exact absurd ⟨present, sizes, replicas, f⟩ incomplete

/-! ## What a configuration that is read describes -/

/-- The addresses of some lines are what the colon splits them into, if the lines are plain. -/
theorem map_address_eq_iff {lines : List Argument} :
    lines.map Argument.address = lines.map Argument.split ↔ ∀ arg ∈ lines, arg.Plain := by
  rw [List.map_inj_left]
  constructor
  · intro same arg member
    exact arg.address_eq_split_iff.mp (same arg member)
  · intro plain arg member
    exact arg.address_eq_split_iff.mpr (plain arg member)

/-- The same of a line that may be missing. -/
theorem map_address_option_iff {arg : Option Argument} :
    arg.map Argument.address = arg.map Argument.split ↔ ∀ a, arg = some a → a.Plain := by
  cases arg with
  | none => simp
  | some a => simp [a.address_eq_split_iff]

/-- With no gap between them, the groups with a replica are the first ones. -/
theorem occupied_gapless {full : List (List Argument)} {empty : Nat}
    (gapless : groups ds = full ++ List.replicate empty []) (some : ∀ lines ∈ full, lines ≠ []) :
    occupied ds = full.length := by
  have all : full.countP (fun lines => lines ≠ []) = full.length := by
    apply List.countP_eq_length.mpr
    intro lines member
    simpa using some lines member
  have none : (List.replicate empty ([] : List Argument)).countP (fun lines => lines ≠ []) = 0 := by
    apply List.countP_eq_zero.mpr
    intro lines member
    simp [List.eq_of_mem_replicate member]
  rw [occupied, gapless, List.countP_append, all, none, Nat.add_zero]

/-- The first size is that of a group. -/
theorem firstSize_mem (some : firstSize ds ≠ 0) :
    ∃ lines ∈ groups ds, lines ≠ [] ∧ lines.length = firstSize ds := by
  unfold firstSize at some ⊢
  cases first : (groups ds)[0]? with
  | none => simp [first] at some
  | some lines =>
      refine ⟨lines, List.mem_of_getElem? first, ?_, rfl⟩
      rintro rfl
      simp [first] at some

variable {config : FileConfiguration}

/-- A configuration that is made of clean directives describes them. -/
theorem describes_of_clean (complete : Complete ds) (clean : Clean ds)
    (g : config.g = toInt (occupied ds)) (n : config.n = toInt (firstSize ds))
    (f : config.f = lastF ds)
    (multicast : config.multicast = (lastMulticast ds).map Argument.address)
    (fc : config.fc = (lastFc ds).map Argument.address)
    (replicas : ∀ group : Int, config.replicas[group]? = held (groups ds) group) :
    config.Describes ds := by
  have present := complete.present
  have counted := complete.replicas
  rw [toInt_of_lt clean.few] at g present
  rw [toInt_of_lt clean.small] at n counted
  obtain ⟨full, empty, gapless, some⟩ := clean.gapless
  have whole := occupied_gapless gapless some
  constructor
  · rw [f]
    exact clean.f
  · omega
  · omega
  · intro i below
    have within : i < full.length := by omega
    have found : (groups ds)[i]? = .some (full.get ⟨i, within⟩) := by
      rw [gapless, List.getElem?_append_left within]
      exact List.getElem?_eq_getElem within
    have nonempty := some _ (List.get_mem full ⟨i, within⟩)
    have member := List.mem_of_getElem? found
    have length := complete.sizes _ member nonempty
    have small := clean.small
    rw [toInt_of_lt small] at length
    refine ⟨_, found, by omega, ?_⟩
    rw [replicas, held_eq_some_iff]
    exact ⟨i, _, rfl, found, nonempty,
      (map_address_eq_iff.mpr (clean.replicas _ member)).symm⟩
  · intro group member
    rw [TreeMap.mem_iff_isSome_getElem?, replicas] at member
    obtain ⟨addresses, stored⟩ := Option.isSome_iff_exists.mp member
    obtain ⟨i, lines, rfl, found, nonempty, -⟩ := held_eq_some_iff.mp stored
    have within : i < full.length := by
      by_contra beyond
      rw [gapless, List.getElem?_append_right (Nat.le_of_not_lt beyond)] at found
      exact nonempty (List.eq_of_mem_replicate (List.mem_of_getElem? found))
    omega
  · rw [multicast]
    exact map_address_option_iff.mpr clean.multicast
  · rw [fc]
    exact map_address_option_iff.mpr clean.fc

/-- Only clean directives are described by what is made of them. -/
theorem clean_of_describes (complete : Complete ds) (few : (groups ds).length ≤ 2 ^ 31)
    (describes : config.Describes ds)
    (g : config.g = toInt (occupied ds)) (n : config.n = toInt (firstSize ds))
    (f : config.f = lastF ds)
    (multicast : config.multicast = (lastMulticast ds).map Argument.address)
    (fc : config.fc = (lastFc ds).map Argument.address)
    (replicas : ∀ group : Int, config.replicas[group]? = held (groups ds) group) : Clean ds := by
  obtain ⟨natural, atLeastOne, inhabited, members, -, multicast', fc'⟩ := describes
  have bounded : occupied ds ≤ (groups ds).length := List.countP_le_length
  have below : occupied ds < 2 ^ 31 := by
    by_contra large
    have all : occupied ds = 2 ^ 31 := by omega
    rw [g, all] at atLeastOne
    exact absurd atLeastOne (by decide)
  have small : firstSize ds < 2 ^ 31 := by
    have some : firstSize ds ≠ 0 := by
      intro none
      exact complete.replicas (by rw [none, toInt_zero])
    obtain ⟨lines, member, nonempty, length⟩ := firstSize_mem some
    have kept := complete.sizes lines member nonempty
    have limit := toInt_lt (firstSize ds)
    rw [length, Int.emod_eq_of_lt (by omega) (by omega)] at kept
    omega
  rw [toInt_of_lt below] at g
  have front : ∀ i, i < occupied ds → ∃ lines, (groups ds)[i]? = some lines ∧ lines ≠ [] ∧
      lines.map Argument.address = lines.map Argument.split := by
    intro i within
    obtain ⟨lines, found, length, stored⟩ := members i (by omega)
    rw [replicas, held_eq_some_iff] at stored
    obtain ⟨j, lines', same, found', nonempty, equal⟩ := stored
    obtain rfl : i = j := by omega
    obtain rfl := Option.some.inj (found.symm.trans found')
    exact ⟨lines, found, nonempty, equal.symm⟩
  -- as many groups as have replicas are at the front, so the others are empty
  have full : ∀ lines ∈ (groups ds).take (occupied ds), lines ≠ [] ∧
      lines.map Argument.address = lines.map Argument.split := by
    intro lines member
    obtain ⟨i, found⟩ := List.getElem?_of_mem member
    have within : i < occupied ds := by
      have length := (List.getElem?_eq_some_iff.mp found).1
      rw [List.length_take] at length
      omega
    rw [List.getElem?_take_of_lt within] at found
    obtain ⟨lines', found', nonempty, equal⟩ := front i within
    obtain rfl := Option.some.inj (found.symm.trans found')
    exact ⟨nonempty, equal⟩
  have rest : ∀ lines ∈ (groups ds).drop (occupied ds), lines = [] := by
    have counted : occupied ds =
        ((groups ds).take (occupied ds)).countP (fun lines => lines ≠ []) +
          ((groups ds).drop (occupied ds)).countP (fun lines => lines ≠ []) := by
      rw [← List.countP_append, List.take_append_drop]
      rfl
    have all : ((groups ds).take (occupied ds)).countP (fun lines => lines ≠ []) =
        occupied ds := by
      rw [List.countP_eq_length.mpr (fun lines member => by simpa using (full lines member).1),
        List.length_take_of_le bounded]
    have none : ((groups ds).drop (occupied ds)).countP (fun lines => lines ≠ []) = 0 := by
      omega
    intro lines member
    simpa using List.countP_eq_zero.mp none lines member
  constructor
  · rw [← f]
    exact natural
  · refine ⟨(groups ds).take (occupied ds), ((groups ds).drop (occupied ds)).length, ?_,
      fun lines member => (full lines member).1⟩
    rw [← List.eq_replicate_of_mem rest, List.take_append_drop]
  · exact below
  · exact small
  · intro lines member
    rw [← List.take_append_drop (occupied ds) (groups ds)] at member
    rcases List.mem_append.mp member with front | back
    · exact map_address_eq_iff.mp (full lines front).2
    · rw [rest lines back]
      simp
  · exact map_address_option_iff.mp (multicast.symm.trans multicast')
  · exact map_address_option_iff.mp (fc.symm.trans fc')

end Checks

/-! ## Exactly which files are read properly -/

section Files

variable {text : Text}

/-- A line that is not read stops the constructor, unless there are too many groups before it. -/
theorem read_of_stopped {before after : List Text} {line : Text} {ds : List Directive}
    {stop : Stop} (lines : text.splitOn '\n' = before ++ line :: after)
    (read : directives before = .ok ds) (few : (groups ds).length ≤ 2 ^ 31)
    (stopped : readLine line = .error stop) : FileConfiguration.read text = .error stop := by
  obtain ⟨r, applied, -⟩ := applyAll_represents few
  simp only [FileConfiguration.read, lines, Reading.readLines_append read, applied, Except.bind,
    Reading.readLines, stopped, bind]

/-- Too many groups stop the constructor, whatever comes behind them. -/
theorem read_of_overflow {before after : List Text} {ds : List Directive}
    (lines : text.splitOn '\n' = before ++ after) (read : directives before = .ok ds)
    (many : 2 ^ 31 < (groups ds).length) : FileConfiguration.read text = .error .overflow := by
  simp only [FileConfiguration.read, lines, Reading.readLines_append read,
    applyAll_overflow many, Except.bind, bind]

/-- Lines that are all read come down to the checks after the loop. -/
theorem exists_read {ds : List Directive} (read : directives (text.splitOn '\n') = .ok ds)
    (few : (groups ds).length ≤ 2 ^ 31) :
    ∃ r : Reading, r.Represents ds ∧ FileConfiguration.read text = r.finish := by
  obtain ⟨r, applied, represents⟩ := applyAll_represents few
  refine ⟨r, represents, ?_⟩
  have looped := Reading.readLines_append read {} []
  rw [List.append_nil, applied] at looped
  rw [FileConfiguration.read, looped]
  rfl

/-- A regular file is read properly. -/
theorem proper_of_regular (regular : Regular (text.splitOn '\n')) : Proper text := by
  rcases regular with
    ⟨before, line, after, ds, message, lines, read, few, stopped⟩ | ⟨ds, read, few, clean⟩
  · exact .inl ⟨message, read_of_stopped lines read few stopped⟩
  · obtain ⟨r, represents, finished⟩ := exists_read read few
    by_cases complete : Complete ds
    · obtain ⟨config, made, g, n, f, multicast, fc, replicas⟩ :=
        finish_of_complete represents complete
      exact .inr ⟨config, ds, finished.trans made, read,
        describes_of_clean complete (clean complete) g n f multicast fc replicas⟩
    · obtain ⟨message, panicked⟩ := finish_of_not_complete represents complete
      exact .inl ⟨message, finished.trans panicked⟩

/-- A file that is read properly is regular. -/
theorem regular_of_proper (proper : Proper text) : Regular (text.splitOn '\n') := by
  rcases directives_cases (text.splitOn '\n') with
    ⟨ds, read⟩ | ⟨before, line, after, ds, stop, lines, read, stopped⟩
  · right
    by_cases few : (groups ds).length ≤ 2 ^ 31
    · refine ⟨ds, read, few, fun complete => ?_⟩
      obtain ⟨r, represents, finished⟩ := exists_read read few
      obtain ⟨config, made, g, n, f, multicast, fc, replicas⟩ :=
        finish_of_complete represents complete
      have accepted := finished.trans made
      rcases proper with ⟨message, panicked⟩ | ⟨config', ds', accepted', read', describes⟩
      · rw [accepted] at panicked
        cases panicked
      · obtain rfl := Except.ok.inj (accepted.symm.trans accepted')
        obtain rfl := Except.ok.inj (read.symm.trans read')
        exact clean_of_describes complete few describes g n f multicast fc replicas
    · have overflowed := read_of_overflow (List.append_nil _).symm read (Nat.lt_of_not_le few)
      rcases proper with ⟨message, panicked⟩ | ⟨config, ds', accepted, -, -⟩
      · rw [overflowed] at panicked
        cases panicked
      · rw [overflowed] at accepted
        cases accepted
  · left
    by_cases few : (groups ds).length ≤ 2 ^ 31
    · have failed := read_of_stopped lines read few stopped
      rcases proper with ⟨message, panicked⟩ | ⟨config, ds', accepted, -, -⟩
      · obtain rfl := Except.error.inj (failed.symm.trans panicked)
        exact ⟨before, line, after, ds, message, lines, read, few, stopped⟩
      · rw [failed] at accepted
        cases accepted
    · have overflowed := read_of_overflow lines read (Nat.lt_of_not_le few)
      rcases proper with ⟨message, panicked⟩ | ⟨config, ds', accepted, -, -⟩
      · rw [overflowed] at panicked
        cases panicked
      · rw [overflowed] at accepted
        cases accepted

/-- The constructor panics or yields the configuration that the file describes, exactly if the
file is regular: no line whose first token is missing comes before the first line that panics,
and, unless the checks after the loop panic, the number of failures is not negative, no group is
empty before one that is not, the counts fit an `int` and no address starts with a colon. -/
theorem proper_iff_regular (text : Text) : Proper text ↔ Regular (text.splitOn '\n') := by
  constructor
  · exact regular_of_proper
  · exact proper_of_regular

example : ((FileConfiguration.read "f 1\nreplica a:1\n\ngroup\nREPLICA b:2\n".toList).toOption.map
    fun config => (config.g, config.n, config.f)) = some (2, 1, 1) := by decide +kernel

/-- A line with nothing but a blank leaves no token to compare. -/
theorem not_proper_blank : ¬ ∀ text : Text, Proper text := by
  intro always
  have stopped : FileConfiguration.read [' '] = .error .nullToken := rfl
  rcases always [' '] with ⟨message, panicked⟩ | ⟨config, ds, accepted, -, -⟩
  · rw [stopped] at panicked
    cases panicked
  · rw [stopped] at accepted
    cases accepted

end Files

end PaxosBus.Common

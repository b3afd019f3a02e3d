import PaxosBus.Common.ReplicaLog

/-!
# Splicing a newer log

`Log::Install` after `Log::RemoveAfter`: the log keeps what it has up to the first
entry of the list that it lacks or has from another view, and the rest of the list
follows. The search for that entry says how many entries of the list are kept; all
else follows from that number.
-/

set_option autoImplicit false

namespace PaxosBus.Common.Log

variable {Hash : Type} {log cut final : Log Hash} {first : Nat} {entries : List (LogEntry Hash)}

/-- A log can be cut anywhere from its start on. -/
theorem exists_removeAfter {op : Nat} (positive : 0 < log.start) (low : log.start ≤ op) :
    ∃ cut, log.removeAfter op = some cut := by
  unfold removeAfter
  split
  next => exact ⟨_, rfl⟩
  next within =>
      have nonempty : log.entries ≠ [] := by
        intro empty
        simp only [lastOpnum, empty, List.getLast?_nil] at within
        omega
      have last := log.lastOpnum_add_one nonempty
      rw [if_pos ⟨low, by omega⟩]
      exact ⟨_, rfl⟩

/-- The number of the last entry. -/
theorem lastOpnum_eq (nonempty : 0 < log.entries.length) :
    log.lastOpnum = log.start + log.entries.length - 1 := by
  have := log.lastOpnum_add_one (List.length_pos_iff.mp nonempty)
  omega

/-- An entry is found at its position. -/
theorem find_add {position : Nat} : log.find (log.start + position) = log.entries[position]? := by
  unfold find
  rw [if_neg (by omega), Nat.add_sub_cancel_left]

/-! ## The search -/

/-- The entries of a list, placed in a log from a position on, that the log has in the same view,
and the first one that it lacks or has in another view. -/
structure Diverges (log : Log Hash) (position : Nat) (entries : List (LogEntry Hash))
    (count : Nat) : Prop where
  within : count ≤ entries.length
  reaches : position + count ≤ log.entries.length
  same : ∀ index < count, ∀ mine theirs, log.entries[position + index]? = some mine →
    entries[index]? = some theirs → mine.viewstamp.view = theirs.viewstamp.view
  differs : ∀ mine theirs, log.entries[position + count]? = some mine →
    entries[count]? = some theirs → mine.viewstamp.view ≠ theirs.viewstamp.view

/-- A list that starts with an entry of the same view diverges where the rest of it does. -/
theorem Diverges.cons {position count : Nat} {mine entry : LogEntry Hash}
    (here : log.entries[position]? = some mine)
    (sameView : mine.viewstamp.view = entry.viewstamp.view)
    (diverges : log.Diverges (position + 1) entries count) :
    log.Diverges position (entry :: entries) (count + 1) where
  within := Nat.succ_le_succ diverges.within
  reaches := by
    have := diverges.reaches
    omega
  same := by
    intro index below mine' theirs foundMine foundTheirs
    cases index with
    | zero =>
        obtain rfl := Option.some.inj (here.symm.trans foundMine)
        obtain rfl := Option.some.inj foundTheirs
        exact sameView
    | succ index =>
        apply diverges.same index (by omega) mine' theirs _ (by simpa using foundTheirs)
        rwa [Nat.add_right_comm, Nat.add_assoc]
  differs := by
    intro mine' theirs foundMine foundTheirs
    apply diverges.differs mine' theirs _ (by simpa using foundTheirs)
    rwa [Nat.add_right_comm, Nat.add_assoc]

/-- The first loop of `Log::Install` finds the divergence and cuts the log there. -/
theorem exists_findDivergence {position : Nat} (numbered : Numbered (log.start + position) entries)
    (reaches : position ≤ log.entries.length)
    (short : log.entries.length ≤ position + entries.length) :
    ∃ cut count, log.findDivergence entries = some (cut, entries.drop count) ∧
      log.Diverges position entries count ∧ cut.start = log.start ∧
        cut.entries = log.entries.take (position + count) := by
  induction entries generalizing position with
  | nil =>
      refine ⟨log, 0, rfl, ⟨le_rfl, by simpa using reaches, ?_, ?_⟩, rfl, ?_⟩
      · intro index before
        omega
      · intro mine theirs _ none_
        cases none_
      · rw [List.take_of_length_le (by simpa using short)]
  | cons entry rest inductionHypothesis =>
      have number := numbered.head
      simp only [findDivergence, number, find_add]
      cases here : log.entries[position]? with
      | none =>
          have ended := List.getElem?_eq_none_iff.mp here
          refine ⟨log, 0, rfl, ⟨Nat.zero_le _, by omega,
            fun _ none_ => absurd none_ (Nat.not_lt_zero _), ?_⟩, rfl, ?_⟩
          · intro mine theirs foundMine
            rw [Nat.add_zero, here] at foundMine
            simp at foundMine
          · rw [List.take_of_length_le (by omega)]
      | some mine =>
          have inside := (List.getElem?_eq_some_iff.mp here).1
          by_cases sameView : entry.viewstamp.view = mine.viewstamp.view
          · obtain ⟨cut, count, searched, diverges, start, kept⟩ :=
              @inductionHypothesis (position + 1)
                (by simpa [Nat.add_assoc] using numbered.tail) (by omega)
                (by simp only [List.length_cons] at short; omega)
            refine ⟨cut, count + 1, ?_, diverges.cons here sameView.symm, start, ?_⟩
            · simpa [sameView] using searched
            · rw [kept]
              congr 1
              omega
          · have cuts : log.removeAfter (log.start + position) =
                some { log with
                  entries := log.entries.take position
                  numbered := log.numbered.take _ } := by
              have last := log.lastOpnum_add_one (List.length_pos_iff.mp (by omega))
              unfold removeAfter
              rw [if_neg (by omega), if_pos ⟨by omega, by omega⟩]
              simp only [Nat.add_sub_cancel_left]
            refine ⟨{ log with
                entries := log.entries.take position
                numbered := log.numbered.take _ }, 0, ?_,
              ⟨Nat.zero_le _, by omega,
            fun _ none_ => absurd none_ (Nat.not_lt_zero _), ?_⟩, rfl, rfl⟩
            · simp [sameView, cuts]
            · intro mine' theirs foundMine foundTheirs
              obtain rfl := Option.some.inj (here.symm.trans foundMine)
              obtain rfl := Option.some.inj foundTheirs
              exact Ne.symm sameView

/-! ## The entries that follow -/

/-- The second loop of `Log::Install` appends entries that have the next numbers. -/
theorem exists_appendAll (numbered : Numbered (log.start + log.entries.length) entries) :
    ∃ final, log.appendAll entries = some final ∧ log.entries <+: final.entries := by
  induction entries generalizing log with
  | nil => exact ⟨log, rfl, List.prefix_rfl⟩
  | cons entry rest inductionHypothesis =>
      have fits : log.Appendable { view := entry.viewstamp.view, opnum := entry.viewstamp.opnum } :=
        (log.appendable_iff _).mpr numbered.head
      have appended : ∃ longer, log.append
          { view := entry.viewstamp.view, opnum := entry.viewstamp.opnum } entry.request .prepared =
            some longer := by
        unfold append
        rw [dif_pos fits]
        exact ⟨_, rfl⟩
      obtain ⟨longer, appended⟩ := appended
      obtain ⟨start, longerEntries, -⟩ := eq_of_append appended
      have next : Numbered (longer.start + longer.entries.length) rest := by
        rw [start, longerEntries, List.length_append, ← Nat.add_assoc]
        exact numbered.tail
      obtain ⟨final, rest_, grows⟩ := inductionHypothesis next
      refine ⟨final, ?_, ?_⟩
      · simp only [appendAll, appended, Option.bind_some, rest_]
      · rw [longerEntries] at grows
        exact (List.prefix_append ..).trans grows

/-- What `Log::Install` gives on a log that reaches the list and ends no later. -/
theorem exists_install {position : Nat} (numbered : Numbered (log.start + position) entries)
    (reaches : position ≤ log.entries.length)
    (short : log.entries.length ≤ position + entries.length) :
    ∃ final count, log.install entries = some final ∧ log.Diverges position entries count ∧
      final.start = log.start ∧ log.entries.take (position + count) <+: final.entries ∧
        final.operations = log.operations.take (position + count) ++
          (entries.drop count).map LogEntry.operation := by
  obtain ⟨cut, count, searched, diverges, start, kept⟩ :=
    exists_findDivergence numbered reaches short
  have next : Numbered (cut.start + cut.entries.length) (entries.drop count) := by
    rw [start, kept, List.length_take, min_eq_left diverges.reaches, ← Nat.add_assoc]
    exact numbered.drop count
  obtain ⟨final, appended, grows⟩ := exists_appendAll next
  obtain ⟨startToo, operations⟩ := of_appendAll appended
  refine ⟨final, count, ?_, diverges, startToo.trans start, kept ▸ grows, ?_⟩
  · unfold install
    rw [searched]
    exact appended
  · rw [operations]
    unfold Log.operations
    rw [kept, List.map_take]

/-! ## The spliced log -/

/-- A log into which a list has been spliced at a position, keeping `count` of the list's entries as
the log had them. -/
structure Spliced (log : Log Hash) (position : Nat) (entries : List (LogEntry Hash)) (count : Nat)
    (final : Log Hash) : Prop where
  diverges : log.Diverges position entries count
  start : final.start = log.start
  length : final.entries.length = position + entries.length
  before : ∀ index < position + count, final.entries[index]? = log.entries[index]?
  after : ∀ index, count ≤ index →
    final.operations[position + index]? = entries[index]?.map LogEntry.operation

/-- A divergence within the range of the list is one of the whole log. -/
theorem Diverges.of_take {position count : Nat} (diverges : cut.Diverges position entries count)
    (kept : cut.entries = log.entries.take (position + entries.length)) :
    log.Diverges position entries count := by
  have within := diverges.within
  have reaches := diverges.reaches
  have same : ∀ index < position + entries.length, cut.entries[index]? = log.entries[index]? := by
    intro index below
    rw [kept, List.getElem?_take_of_lt below]
  rw [kept, List.length_take] at reaches
  constructor
  · exact within
  · omega
  · intro index below mine theirs foundMine
    rw [← same _ (by omega)] at foundMine
    exact diverges.same index below mine theirs foundMine
  · intro mine theirs foundMine foundTheirs
    have inside := (List.getElem?_eq_some_iff.mp foundTheirs).1
    rw [← same _ (by omega)] at foundMine
    exact diverges.differs mine theirs foundMine foundTheirs

/-- Cutting a log after the range of a list and installing the list splices it in. -/
theorem exists_spliced {position : Nat} (positive : 0 < log.start)
    (numbered : Numbered (log.start + position) entries) (reaches : position ≤ log.entries.length) :
    ∃ cut final count, log.removeAfter (log.start + position + entries.length) = some cut ∧
      cut.install entries = some final ∧ log.Spliced position entries count final := by
  obtain ⟨cut, removed⟩ := exists_removeAfter positive
    (show log.start ≤ log.start + position + entries.length by omega)
  obtain ⟨start, kept, -⟩ := eq_of_removeAfter removed
  rw [Nat.add_assoc, Nat.add_sub_cancel_left] at kept
  have length := congrArg List.length kept
  rw [List.length_take] at length
  rw [← start] at numbered
  obtain ⟨final, count, installed, diverges, startToo, grows, operations⟩ :=
    exists_install numbered (show position ≤ cut.entries.length by omega) (by omega)
  have within := diverges.within
  have reachesCut := diverges.reaches
  refine ⟨cut, final, count, removed, installed, diverges.of_take kept, startToo.trans start, ?_, ?_,
    ?_⟩
  · rw [← length_operations, operations, List.length_append, List.length_take, length_operations,
      List.length_map, List.length_drop]
    omega
  · intro index below
    obtain ⟨appended, whole⟩ := grows
    rw [← whole, List.getElem?_append_left (by simp; omega), List.getElem?_take_of_lt below, kept,
      List.getElem?_take_of_lt (by omega)]
  · intro index beyond
    rw [operations, List.getElem?_append_right (by simp; omega), List.length_take,
      length_operations, min_eq_left reachesCut, List.getElem?_map, List.getElem?_drop]
    congr 2
    omega

namespace Spliced

variable {position count : Nat}

/-- The log says what the list says, if entries with one viewstamp hold one request. -/
theorem covers (spliced : log.Spliced position entries count final)
    (numbered : Numbered (log.start + position) entries)
    (agree : ∀ mine ∈ log.entries, ∀ theirs ∈ entries,
      mine.viewstamp = theirs.viewstamp → mine.request = theirs.request)
    {theirs : LogEntry Hash} (member : theirs ∈ entries) :
    ∃ mine, final.find theirs.viewstamp.opnum = some mine ∧
      mine.viewstamp = theirs.viewstamp ∧ mine.request = theirs.request := by
  obtain ⟨index, listed⟩ := List.mem_iff_getElem?.mp member
  have number := numbered index theirs listed
  have reaches := spliced.diverges.reaches
  rcases Nat.lt_or_ge index count with shared | fresh
  · have here := List.getElem?_eq_getElem (show position + index < log.entries.length by omega)
    have view := spliced.diverges.same index shared _ theirs here listed
    have opnum := log.numbered _ _ here
    have viewstamp : (log.entries[position + index]).viewstamp = theirs.viewstamp :=
      Viewstamp.ext view (by omega)
    refine ⟨log.entries[position + index], ?_, viewstamp, ?_⟩
    · rw [number, ← spliced.start, Nat.add_assoc, find_add, spliced.before _ (by omega), here]
    · exact agree _ (List.mem_of_getElem? here) theirs member viewstamp
  · have said := spliced.after index fresh
    rw [listed, Option.map_some] at said
    obtain ⟨mine, found, operation⟩ := exists_find said
    have here := found
    rw [find_add] at here
    have opnum := final.numbered _ _ here
    have start := spliced.start
    refine ⟨mine, ?_, Viewstamp.ext (congrArg Operation.view operation) (by omega),
      congrArg Operation.request operation⟩
    rw [number, ← start, Nat.add_assoc, found]

/-- An entry in the range of the list stays as it is if the list has nothing from another view up
to it. -/
theorem keeps (spliced : log.Spliced position entries count final)
    (numbered : Numbered (log.start + position) entries) {opnum : Nat} {mine : LogEntry Hash}
    (found : log.find opnum = some mine) (within : opnum < log.start + position + entries.length)
    (sameViews : ∀ theirs ∈ entries, theirs.viewstamp.opnum ≤ opnum →
      ∀ old, log.find theirs.viewstamp.opnum = some old →
        old.viewstamp.view = theirs.viewstamp.view) :
    final.find opnum = some mine := by
  obtain ⟨low, here⟩ := of_find found
  obtain ⟨index, rfl⟩ := Nat.exists_eq_add_of_le low
  rw [Nat.add_sub_cancel_left] at here
  have inside := (List.getElem?_eq_some_iff.mp here).1
  rw [← spliced.start, find_add]
  rcases Nat.lt_or_ge index (position + count) with shared | beyond
  · rw [spliced.before index shared, here]
  · -- the list differs from the log at or before this entry
    have listed := List.getElem?_eq_getElem (show count < entries.length by omega)
    have old := List.getElem?_eq_getElem (show position + count < log.entries.length by omega)
    have number := numbered count _ listed
    have foundOld := old
    rw [← find_add, ← Nat.add_assoc, ← number] at foundOld
    have sameView := sameViews _ (List.mem_of_getElem? listed) (by omega) _ foundOld
    exact absurd sameView (spliced.diverges.differs _ _ old listed)

end Spliced

/-- `Log::RemoveAfter` of the number after the list's last one and `Log::Install` of the list, where
the list starts within the log or right after it, and entries with one viewstamp hold one request:
the log ends where the list ends, says what the list says on the range of the list, and has what it
had before the first entry of another view. -/
theorem install_splices (log : Log Hash) (positive : 0 < log.start)
    (entries : List (LogEntry Hash)) (nonempty : entries ≠ []) (first : Nat)
    (numbered : Numbered first entries) (low : log.start ≤ first) (high : first ≤ log.lastOpnum + 1)
    (agree : ∀ mine ∈ log.entries, ∀ theirs ∈ entries,
      mine.viewstamp = theirs.viewstamp → mine.request = theirs.request) :
    ∃ cut final, log.removeAfter (first + entries.length - 1 + 1) = some cut ∧
      cut.install entries = some final ∧ final.lastOpnum = first + entries.length - 1 ∧
        (∀ theirs ∈ entries, ∃ mine, final.find theirs.viewstamp.opnum = some mine ∧
          mine.viewstamp = theirs.viewstamp ∧ mine.request = theirs.request) ∧
        (∀ opnum mine, log.find opnum = some mine → opnum ≤ first + entries.length - 1 →
          (∀ theirs ∈ entries, theirs.viewstamp.opnum ≤ opnum →
            ∀ old, log.find theirs.viewstamp.opnum = some old →
              old.viewstamp.view = theirs.viewstamp.view) →
            final.find opnum = some mine) := by
  have some_ := List.length_pos_iff.mpr nonempty
  obtain ⟨position, rfl⟩ := Nat.exists_eq_add_of_le low
  have reaches : position ≤ log.entries.length := by
    rcases List.eq_nil_or_concat log.entries with empty | ⟨before, last, whole⟩
    · simp only [lastOpnum, empty, List.getLast?_nil] at high
      omega
    · have := log.lastOpnum_add_one (by simp [whole])
      omega
  obtain ⟨cut, final, count, removed, installed, spliced⟩ :=
    exists_spliced positive numbered reaches
  have length := spliced.length
  refine ⟨cut, final, ?_, installed, ?_, ?_, ?_⟩
  · rwa [Nat.sub_add_cancel (by omega)]
  · rw [lastOpnum_eq (by omega), length, spliced.start, Nat.add_assoc]
  · intro theirs member
    exact spliced.covers numbered agree member
  · intro opnum mine found within sameViews
    exact spliced.keeps numbered found (by omega) sameViews

/-- A log of three operations from view 0, the first of them committed. -/
def threeOperations : Log Unit where
  hashing := { digest := fun _ _ _ => (), emptyHash := () }
  useHash := false
  start := 1
  initialHash := ()
  entries := [
    { viewstamp := { view := 0, opnum := 1 }, state := .committed,
      request := { op := "a", clientid := 1, clientreqid := 1 }, hash := () },
    { viewstamp := { view := 0, opnum := 2 }, state := .prepared,
      request := { op := "b", clientid := 2, clientreqid := 1 }, hash := () },
    { viewstamp := { view := 0, opnum := 3 }, state := .prepared,
      request := { op := "c", clientid := 3, clientreqid := 1 }, hash := () }]
  clientReqMap _ := none
  numbered := by
    intro index entry found
    match index, found with
    | 0, found | 1, found | 2, found =>
        obtain rfl := Option.some.inj found
        rfl
    | _ + 3, found => simp at found

/-- A list from view 1 that has the first operation as well, and another second one. -/
def twoOperations : List (LogEntry Unit) := [
    { viewstamp := { view := 0, opnum := 1 }, state := .prepared,
      request := { op := "a", clientid := 1, clientreqid := 1 }, hash := () },
    { viewstamp := { view := 1, opnum := 2 }, state := .prepared,
      request := { op := "d", clientid := 4, clientreqid := 1 }, hash := () }]

/-- The committed operation stays committed, and the log ends with the list. -/
theorem install_splices_twoOperations :
    ∃ cut final, threeOperations.removeAfter 3 = some cut ∧
      cut.install twoOperations = some final ∧ final.lastOpnum = 2 ∧
        final.find 1 = threeOperations.find 1 := by
  obtain ⟨cut, final, removed, installed, ends, -, keeps⟩ :=
    install_splices threeOperations (by decide) twoOperations (by decide) 1
      (by
        intro index entry found
        match index, found with
        | 0, found | 1, found =>
            obtain rfl := Option.some.inj found
            rfl
        | _ + 2, found => simp [twoOperations] at found)
      (by decide) (by decide) (by decide)
  refine ⟨cut, final, removed, installed, ends, ?_⟩
  exact keeps 1 _ rfl (by decide) (by decide)

end PaxosBus.Common.Log

import PaxosBus.Spec.Conduct

/-!
# Installing a log

What `InstallLog` leaves behind if it does not stop. Committing and rolling back
go by the hashes at single positions; as a hash stands for the whole log up to
its position, a log that ends with the hash of the new log is the new log.
-/

set_option autoImplicit false

namespace PaxosBus.Spec

open PaxosBus.Common PaxosBus.Library
open Logic (Meets)

variable {Hash : Type}

/-- A log with the given requests has the hash of the new log at a position. -/
def MatchesAt (hashing : Hashing Hash) (requests : List Request)
    (entries : List (LogEntry Hash)) (position : Nat) : Prop :=
  ∃ newEntry, entryOf entries (firstOpnumOf entries) position = some newEntry ∧
    hashing.chain (requests.take position) = newEntry.hash

/-- The positions before the first difference match. -/
theorem matches_of_firstDifferent [DecidableEq Hash] {hashing : Hashing Hash} {log : Log Hash}
    (hashed : log.Hashed hashing) {entries : List (LogEntry Hash)} {rounds position stop : Nat}
    (found : firstDifferent log entries (firstOpnumOf entries) rounds position = some stop) :
    position ≤ stop ∧ stop ≤ position + rounds ∧
      ∀ between, position ≤ between → between < stop →
        MatchesAt hashing log.requests entries between := by
  induction rounds generalizing position with
  | zero =>
      obtain rfl := Option.some.inj found
      exact ⟨Nat.le_refl _, Nat.le_refl _, fun between low high => by omega⟩
  | succ rounds inductionHypothesis =>
      simp only [firstDifferent] at found
      split at found
      next oldEntry newEntry old new =>
          split at found
          next differs =>
              obtain rfl := Option.some.inj found
              exact ⟨Nat.le_refl _, by omega, fun between low high => by omega⟩
          next same =>
              obtain ⟨low, high, matches_⟩ := inductionHypothesis found
              refine ⟨by omega, by omega, fun between above below => ?_⟩
              rcases Nat.eq_or_lt_of_le above with rfl | later
              · obtain ⟨-, -, -, -, hash⟩ := hashed.of_find old
                exact ⟨newEntry, new, hash ▸ not_not.mp same⟩
              · exact matches_ between later below
      next => simp at found

/-- What a replica is after `InstallLog`. -/
structure Replica.Installs (setup : Setup Hash) (terms : Terms Hash)
    (entries : List (LogEntry Hash)) (r r' : Replica Hash) : Prop where
  undisturbed : r.Undisturbed r'
  sound : r'.LogSound setup terms
  lastSpeculative : r'.lastSpeculative = lastOpnumOf entries
  lastCommitted : r.lastCommitted ≤ r'.lastCommitted
  empty : entries = [] → r.lastCommitted = 0
  keeps : r'.log.requests.take r.lastCommitted = r.log.requests.take r.lastCommitted
  ends : Numbered (firstOpnumOf entries) entries → r.lastCommitted < lastOpnumOf entries →
    MatchesAt setup.hashing r'.log.requests entries (lastOpnumOf entries)

variable [DecidableEq Hash] {setup : Setup Hash} {terms : Terms Hash} {w : Standing}
  {r : Replica Hash} {app : App} {entries : List (LogEntry Hash)}

/-- What is committed has the hashes of the new log. -/
theorem commitMatching_meets (sound : r.LogSound setup terms) (newLastCommitted : Nat) :
    (conduct setup terms).Meets (commitMatching entries newLastCommitted) w r fun _ w' r' =>
      w' = w ∧ r.Commits setup terms r'.lastCommitted r' ∧
        ∀ position, r.lastCommitted < position → firstOpnumOf entries ≤ position →
          position ≤ r'.lastCommitted →
            MatchesAt setup.hashing r.log.requests entries position := by
  unfold commitMatching
  refine .bind (.get trivial fun _ => .bind (.demand trivial fun toCommit found _ => ?_))
  obtain ⟨-, -, matches_⟩ := matches_of_firstDifferent sound.hashed found
  refine .branch (fun some_ => ?_) (fun none_ => ?_)
  · refine .bind ((commitUpTo_meets sound (toCommit - 1)).imp ?_)
    rintro - _ after - ⟨rfl, commits⟩ -
    refine .bind (.get trivial fun _ => .require trivial fun same => ?_)
    refine ⟨rfl, same.symm ▸ commits, fun position new start le => ?_⟩
    exact matches_ position (by omega) (by omega)
  · refine .pure trivial ⟨rfl, ⟨.refl r, sound, rfl, rfl, by simp⟩, ?_⟩
    intro position new start le
    omega

/-- What is not rolled back has the hashes of the new log. -/
theorem rollbackDiverging_meets (sound : r.LogSound setup terms) :
    (conduct setup terms).Meets (rollbackDiverging entries) w r fun _ w' r' =>
      w' = w ∧ (∃ backto, r.RollsBack setup terms backto r') ∧
        ∀ position, r.lastCommitted < position → firstOpnumOf entries ≤ position →
          position ≤ r'.lastSpeculative →
            MatchesAt setup.hashing r'.log.requests entries position := by
  unfold rollbackDiverging
  refine .bind (.get trivial fun _ => .bind (.demand trivial fun firstDiverging found _ => ?_))
  obtain ⟨-, -, matches_⟩ := matches_of_firstDifferent sound.hashed found
  refine .bind ((rollbackTo_meets sound (firstDiverging - 1)).imp ?_)
  rintro - _ after - ⟨rfl, rolls⟩ -
  refine .bind (.get trivial fun _ => .require trivial fun short => ?_)
  refine ⟨rfl, ⟨_, rolls⟩, fun position new start le => ?_⟩
  obtain ⟨newEntry, there, same⟩ := matches_ position (by omega) (by omega)
  refine ⟨newEntry, there, ?_⟩
  rw [rolls.requests, List.take_take, min_eq_left (by omega), same]

omit [DecidableEq Hash] in
/-- A reply that `InstallLog` sends is about nothing but the reply. -/
theorem notifyClient_meets (clientid : Nat) (reply : SpeculativeReplyMessage Hash) :
    (conduct setup terms).Meets (notifyClient clientid reply) w r fun _ w' r' =>
      w' = w ∧ r' = r := by
  unfold notifyClient sendMessage
  refine .bind (.get trivial fun _ => ?_)
  split
  · exact .emit trivial trivial ⟨rfl, rfl⟩
  · exact .pure trivial ⟨rfl, rfl⟩

omit [DecidableEq Hash] in
/-- What is found at an opnum is an entry of the list. -/
theorem mem_of_entryOf {start opnum : Nat} {entry : LogEntry Hash}
    (found : entryOf entries start opnum = some entry) : entry ∈ entries := by
  unfold entryOf at found
  split at found
  · simp at found
  · exact List.mem_of_getElem? found

/-- What a replica is after it has appended an entry of the new log. -/
structure Replica.InstallsEntry (setup : Setup Hash) (terms : Terms Hash)
    (newEntry : LogEntry Hash) (r r' : Replica Hash) : Prop where
  undisturbed : r.Undisturbed r'
  sound : r'.LogSound setup terms
  opnum : newEntry.viewstamp.opnum = r'.lastSpeculative
  requests : r'.log.requests = r.log.requests ++ [newEntry.request]
  lastCommitted : r'.lastCommitted = r.lastCommitted
  hash : newEntry.hash = setup.hashing.chain r'.log.requests

/-- An entry that is appended has the hash of the new log. -/
theorem installEntry_meets (sound : r.LogSound setup terms)
    (asked : ∀ entry ∈ entries, terms.asked entry.request) (start i : Nat) :
    (conduct setup terms).Meets (installEntry setup app entries start i) w r fun _ w' r' =>
      w' = w ∧ ∃ newEntry, entryOf entries start i = some newEntry ∧
        r.InstallsEntry setup terms newEntry r' := by
  have counted : ({ r with lastSpeculative := r.lastSpeculative + 1 } : Replica Hash).log.Hashed
      setup.hashing := sound.hashed
  have begun : r.Undisturbed { r with lastSpeculative := r.lastSpeculative + 1 } :=
    ⟨rfl, rfl, rfl, rfl, rfl, rfl, rfl, rfl⟩
  unfold installEntry
  refine .bind (.demand trivial fun newEntry there _ => .bind (.change trivial fun _ => ?_))
  refine .bind ((append_meets counted newEntry.viewstamp newEntry.request).imp ?_)
  rintro - _ appended - ⟨rfl, appends⟩ -
  have inOrder := appends.sound sound (asked newEntry (mem_of_entryOf there)) rfl rfl rfl
  refine .bind ((execute_meets newEntry.request).imp ?_)
  rintro result _ executed - ⟨rfl, same⟩ -
  refine .bind (.get trivial fun _ => .bind ((notifyClient_meets _ _).imp ?_))
  rintro - _ _ - ⟨rfl, rfl⟩ -
  refine .bind ((updateClientTable_meets _ _ _).imp ?_)
  rintro - _ after - ⟨rfl, updated⟩ -
  refine .require trivial fun hash => ⟨rfl, newEntry, there, ?_⟩
  have whole := same.trans updated
  refine ⟨(begun.trans appends.undisturbed).trans whole.undisturbed, whole.sound inOrder, ?_, ?_,
    ?_, ?_⟩
  · have opnum := appends.opnum
    have length := sound.lastSpeculative
    rw [whole.lastSpeculative, appends.lastSpeculative, opnum, length]
  · rw [whole.log, appends.requests]
  · exact whole.lastCommitted.trans appends.lastCommitted
  · rw [← hash, whole.log, same.log, appends.hashed.lastHash]

omit [DecidableEq Hash] in
/-- The entry found at an opnum of a numbered list has that opnum. -/
theorem opnum_of_entryOf {start opnum : Nat} {entry : LogEntry Hash}
    (numbered : Numbered start entries) (found : entryOf entries start opnum = some entry) :
    start ≤ opnum ∧ entry.viewstamp.opnum = opnum := by
  unfold entryOf at found
  split at found
  · simp at found
  · have := numbered _ _ found
    omega

omit [DecidableEq Hash] in
/-- A numbered list that is not empty ends at or after its first opnum. -/
theorem firstOpnumOf_le (numbered : Numbered (firstOpnumOf entries) entries)
    (some_ : 0 < lastOpnumOf entries) : firstOpnumOf entries ≤ lastOpnumOf entries := by
  unfold lastOpnumOf at some_ ⊢
  cases ends : entries.getLast? with
  | none => simp [ends] at some_
  | some last =>
      rw [List.getLast?_eq_getElem?] at ends
      have := numbered _ _ ends
      simp only [Option.map_some, Option.getD_some]
      omega

/-- What a replica is after it has appended what it misses. -/
structure Replica.Completes (setup : Setup Hash) (terms : Terms Hash)
    (entries : List (LogEntry Hash)) (r r' : Replica Hash) : Prop where
  undisturbed : r.Undisturbed r'
  sound : r'.LogSound setup terms
  lastCommitted : r'.lastCommitted = r.lastCommitted
  grows : r.log.requests <+: r'.log.requests
  matches_ : r'.log.requests = r.log.requests ∨ (Numbered (firstOpnumOf entries) entries →
    MatchesAt setup.hashing r'.log.requests entries r'.lastSpeculative)

/-- The last entry that is appended has the hash of the new log. -/
theorem installMissing_meets (sound : r.LogSound setup terms)
    (asked : ∀ entry ∈ entries, terms.asked entry.request) :
    (conduct setup terms).Meets (installMissing setup app entries) w r fun _ w' r' =>
      w' = w ∧ r.Completes setup terms entries r' ∧
        r'.lastSpeculative = lastOpnumOf entries := by
  unfold installMissing
  refine .bind (.get trivial fun _ => .bind ((Meets.forEach (fun w' r' =>
    w' = w ∧ r.Completes setup terms entries r') ?_ trivial ?_).imp ?_))
  · rintro i - world middle - ⟨rfl, completes⟩
    refine (installEntry_meets completes.sound asked _ i).imp ?_
    rintro - _ after - ⟨rfl, newEntry, there, installs⟩
    refine ⟨rfl, completes.undisturbed.trans installs.undisturbed, installs.sound,
      installs.lastCommitted.trans completes.lastCommitted,
      completes.grows.trans (installs.requests ▸ List.prefix_append _ _), .inr fun numbered => ?_⟩
    obtain ⟨-, position⟩ := opnum_of_entryOf numbered there
    have here : i = after.lastSpeculative := position.symm.trans installs.opnum
    refine ⟨newEntry, here ▸ there, ?_⟩
    rw [installs.hash, List.take_of_length_le (Nat.le_of_eq installs.sound.lastSpeculative.symm)]
  · exact ⟨rfl, .refl r, sound, rfl, List.prefix_refl _, .inl rfl⟩
  · rintro - _ after - ⟨rfl, completes⟩ -
    exact .bind (.get trivial fun _ => .require trivial fun whole => ⟨rfl, completes, whole⟩)

/-- `InstallLog` installs the log, or stops. -/
theorem installLog_meets (sound : r.LogSound setup terms)
    (asked : ∀ entry ∈ entries, terms.asked entry.request) :
    (conduct setup terms).Meets (installLog setup app entries) w r fun _ w' r' =>
      w' = w ∧ r.Installs setup terms entries r' := by
  unfold installLog
  refine .bind (.get trivial fun _ => .bind (.require trivial fun empty _ => ?_))
  refine .bind (.require trivial fun _ _ => .bind ((commitMatching_meets sound _).imp ?_))
  rintro - _ committed - ⟨rfl, commits, matching⟩ -
  refine .bind (.get trivial fun _ => .bind (.require trivial fun _ _ => ?_))
  refine .bind ((rollbackDiverging_meets commits.sound).imp ?_)
  rintro - _ rolled - ⟨rfl, ⟨backto, rolls⟩, kept⟩ -
  refine .bind ((installMissing_meets rolls.sound asked).imp ?_)
  rintro - _ completed - ⟨rfl, completes, whole⟩ -
  refine .bind ((commitUpTo_meets completes.sound _).imp ?_)
  rintro - _ after - ⟨rfl, finally_⟩ -
  refine .bind (.get trivial fun _ => .require trivial fun _ => ⟨rfl, ?_⟩)
  have before := commits.lastCommitted
  have between := rolls.lastCommitted
  have afterwards := completes.lastCommitted
  have ending := finally_.lastCommitted
  refine ⟨((commits.undisturbed.trans rolls.undisturbed).trans completes.undisturbed).trans
    finally_.undisturbed, finally_.sound, finally_.lastSpeculative.trans whole, by omega, empty,
    ?_, ?_⟩
  · -- What is committed is neither rolled back nor appended.
    obtain ⟨more, grown⟩ := completes.grows
    have within := rolls.sound.lastCommitted
    rw [rolls.sound.lastSpeculative, rolls.requests, List.length_take] at within
    have length : r.lastCommitted ≤ (committed.log.requests.take backto).length := by
      rw [List.length_take]
      omega
    rw [finally_.requests, ← grown, rolls.requests, List.take_append_of_le_length length,
      List.take_take, min_eq_left (by omega), commits.requests]
  intro numbered new
  rw [finally_.requests]
  rcases completes.matches_ with same | matches_
  · have length : rolled.lastSpeculative = lastOpnumOf entries := by
      rw [rolls.sound.lastSpeculative, ← same, ← completes.sound.lastSpeculative, whole]
    have start := firstOpnumOf_le numbered (Nat.zero_lt_of_lt new)
    rw [same]
    rcases Nat.lt_or_ge committed.lastCommitted (lastOpnumOf entries) with open_ | settled
    · exact kept _ open_ start (Nat.le_of_eq length.symm)
    · -- Nothing was compared after the commit, which had compared the last position already.
      obtain ⟨newEntry, there, hash⟩ := matching _ new start settled
      refine ⟨newEntry, there, ?_⟩
      have enough : lastOpnumOf entries ≤ backto := by
        have cut := rolls.sound.lastSpeculative
        rw [rolls.requests, List.length_take] at cut
        omega
      rw [rolls.requests, commits.requests, List.take_take, min_eq_left enough, hash]
  · exact whole ▸ matches_ numbered

end PaxosBus.Spec

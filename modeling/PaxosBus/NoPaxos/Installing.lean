import PaxosBus.NoPaxos.Returning
import PaxosBus.NoPaxos.Shifts

/-!
# The installation of a state transfer

The loop of `HandleStateTransferReply` takes the entries of the reply one after
the other, and `ProcessNextOperation` puts in by itself the gaps that follow. So
the loop gets through if and only if no known gap lies among the operations that
are missing, and the log has no hole before them. Then it installs all of them
as they were sent.
-/

set_option autoImplicit false

namespace PaxosBus.NoPaxos

open PaxosBus.Common PaxosBus.Library
open Handler (Returns)

/-- What the log has after the installation where the other replica has sent an entry. -/
def Entry.Installed (committedGaps : OpnumSet) (sent entry : Entry) : Prop :=
  if sent.state = .noop ∨ sent.viewstamp.opnum ∈ committedGaps then entry.state = .noop
  else entry.state = sent.state ∧ entry.request = sent.request

/-- The replica gets through a reply to a state transfer request: whatever is missing up to its end
is appended, once each, after all that was there before. -/
def Replica.Installs (setup : Setup) (r : Replica) (msg : StateTransferReplyMessage) : Prop :=
  ∀ app, let outcome := handleStateTransferReply setup app msg r
    outcome.value = some () ∧
    ∃ added, outcome.state.log.entries = r.log.entries ++ added ∧
      (added.map fun entry => entry.viewstamp.opnum).Nodup ∧
      ∀ opnum, r.lastOp < opnum → opnum < msg.end_ → ∃ sent ∈ msg.entries, ∃ entry ∈ added,
        sent.viewstamp.opnum = opnum ∧ entry.viewstamp.opnum = opnum ∧
          sent.Installed r.committedGaps entry

/-! ## The loop -/

section Loop

variable {setup : Setup} {app : App} {r : Replica}

/-- The entries have the numbers that follow the last operation. -/
def Replica.Continued (r : Replica) (entries : List Entry) : Prop :=
  ∀ index entry, entries[index]? = some entry → entry.viewstamp.opnum = r.lastOp + index + 1

/-- After the first entry. -/
theorem Replica.Continued.tail {r' : Replica} {entry : Entry} {rest : List Entry}
    (continued : r.Continued (entry :: rest)) (lastOp : r'.lastOp = r.lastOp + 1) :
    r'.Continued rest := by
  intro index other found
  have number := continued (index + 1) other found
  omega

/-- The next entry is put in with the gaps that follow it. -/
theorem transferEntry_returns {entry : Entry} (sturdy : r.core.Sturdy setup)
    (number : entry.viewstamp.opnum = r.lastOp + 1) :
    (transferEntry setup app entry).Returns r fun _ r' => r'.lastOp + 1 ∉ r'.committedGaps ∧
      ∃ more, r.Grows setup
        ({ entry with state := r.decidedState entry.viewstamp.opnum entry.state } :: more) r' ∧
        ∀ other ∈ more, other.viewstamp.opnum ∈ r.committedGaps := by
  apply Returns.get_bind
  apply Returns.require_bind number
  apply (processNextOperation_returns sturdy number).imp
  rintro _ r1 ⟨drained, more, grows, noops⟩
  exact ⟨drained, more, grows, fun other member => (noops other member).2⟩

/-- Entries among whose numbers there is no gap are put in as they are. -/
theorem transferEntries_returns {entries : List Entry} (sturdy : r.core.Sturdy setup)
    (continued : r.Continued entries)
    (free : ∀ gap ∈ r.committedGaps, gap ≤ r.lastOp ∨ r.lastOp + entries.length < gap) :
    (Handler.forEach entries (transferEntry setup app)).Returns r fun _ r' =>
      ∃ more, r.Grows setup (entries ++ more) r' ∧
        ∀ other ∈ more, other.viewstamp.opnum ∈ r.committedGaps := by
  induction entries generalizing r with
  | nil => exact Returns.pure ⟨[], .refl sturdy, by simp⟩
  | cons entry rest inductionHypothesis =>
      have number : entry.viewstamp.opnum = r.lastOp + 1 := continued 0 entry rfl
      have asSent : r.decidedState entry.viewstamp.opnum entry.state = entry.state := by
        unfold Replica.decidedState
        rw [if_neg fun member => ?_]
        have := free _ member
        rw [List.length_cons] at this
        omega
      apply (transferEntry_returns sturdy number).bind
      rintro _ r1 ⟨-, more, grows, gaps⟩
      rw [asSent] at grows
      have lastOp1 : r1.lastOp = r.lastOp + (entry :: more).length := grows.lastOp sturdy.whole
      cases rest with
      | nil => exact Returns.pure ⟨more, grows, gaps⟩
      | cons next later =>
          -- The number of the next entry would be a gap.
          obtain rfl : more = [] := by
            cases more with
            | nil => rfl
            | cons other others =>
                have number' : other.viewstamp.opnum = r.lastOp + 1 + 1 :=
                  grows.number sturdy.whole rfl
                have := free _ (gaps other List.mem_cons_self)
                simp only [List.length_cons] at this
                omega
          have free1 : ∀ gap ∈ r1.committedGaps, gap ≤ r1.lastOp ∨
              r1.lastOp + (next :: later).length < gap := by
            intro gap member
            rcases (grows.gaps gap).mp member with old | ⟨other, single, same, -⟩
            · have := free gap old
              simp only [List.length_cons, List.length_nil] at this lastOp1 ⊢
              omega
            · obtain rfl := List.mem_singleton.mp single
              change entry.viewstamp.opnum = gap at same
              simp only [List.length_cons, List.length_nil] at lastOp1
              omega
          apply (inductionHypothesis grows.sturdy (continued.tail lastOp1) free1).imp
          rintro _ r2 ⟨more, grows2, gaps2⟩
          refine ⟨more, grows.trans grows2, fun other member => ?_⟩
          rcases (grows.gaps _).mp (gaps2 other member) with old | ⟨first, single, same, -⟩
          · exact old
          · obtain rfl := List.mem_singleton.mp single
            obtain ⟨index, found⟩ := List.mem_iff_getElem?.mp (List.mem_append_right _ member)
            have number' := grows2.number grows.sturdy.whole found
            change entry.viewstamp.opnum = other.viewstamp.opnum at same
            simp only [List.length_cons, List.length_nil] at lastOp1
            omega

/-- Where a gap lies among the numbers, the loop does not get through. -/
theorem transferEntries_stuck {entries : List Entry} {gap : Nat} {Post : Unit → Replica → Prop}
    (sturdy : r.core.Sturdy setup) (continued : r.Continued entries)
    (member : gap ∈ r.committedGaps) (beyond : r.lastOp + 1 < gap)
    (inside : gap ≤ r.lastOp + entries.length) :
    ¬ (Handler.forEach entries (transferEntry setup app)).Returns r Post := by
  induction entries generalizing r with
  | nil =>
      rw [List.length_nil] at inside
      omega
  | cons entry rest inductionHypothesis =>
      intro returns
      have number : entry.viewstamp.opnum = r.lastOp + 1 := continued 0 entry rfl
      obtain ⟨⟨⟩, -, ⟨drained, more, grows, gaps⟩, others⟩ :=
        (transferEntry_returns sturdy number).and (Handler.returns_bind.mp returns)
      generalize (transferEntry setup app entry r).state = r1 at drained grows others
      have lastOp1 := grows.lastOp sturdy.whole
      rw [List.length_cons] at lastOp1
      have known : gap ∈ r1.committedGaps := (grows.gaps gap).mpr (.inl member)
      cases rest with
      | nil =>
          rw [List.length_singleton] at inside
          omega
      | cons next later =>
          cases more with
          | nil =>
              rw [List.length_nil] at lastOp1
              have notNext : gap ≠ r1.lastOp + 1 := fun same => drained (same ▸ known)
              rw [List.length_cons] at inside
              exact inductionHypothesis grows.sturdy (continued.tail lastOp1) known (by omega)
                (by omega) others
          | cons other more =>
              -- The loop expects the next entry where there is a gap already.
              obtain ⟨expected, -⟩ := Handler.returns_require.mp
                (Handler.returns_bind.mp (Handler.returns_get.mp
                  (Handler.returns_bind.mp (Handler.returns_bind.mp others))))
              have number' : next.viewstamp.opnum = r.lastOp + 1 + 1 := continued 1 next rfl
              rw [List.length_cons] at lastOp1
              omega

/-- A torn log takes no entry. -/
theorem transferEntry_torn {entry : Entry} {Post : Unit → Replica → Prop} (torn : r.core.Torn) :
    ¬ (transferEntry setup app entry).Returns r Post := by
  simp only [transferEntry, Handler.returns_bind, Handler.returns_get, Handler.returns_require]
  rintro ⟨-, processes⟩
  exact processNextOperation_torn torn processes

/-- A reply for what is missing comes down to the loop over the entries that are missing. -/
theorem handleStateTransferReply_returns {msg : StateTransferReplyMessage}
    {Post : Unit → Replica → Prop} (sessnum : msg.sessnum = r.sessnum) (view : msg.view = r.view)
    (begin_ : msg.begin_ ≤ r.lastOp + 1) (end_ : r.lastOp + 1 < msg.end_)
    (length : msg.begin_ + msg.entries.length = msg.end_)
    (numbers : ∀ index entry, msg.entries[index]? = some entry →
      entry.viewstamp.opnum = msg.begin_ + index) :
    (handleStateTransferReply setup app msg).Returns r Post ↔
      (Handler.forEach (msg.entries.drop (r.lastOp + 1 - msg.begin_))
        (transferEntry setup app)).Returns r Post := by
  have positive : 0 < msg.entries.length := by omega
  have first : msg.entries.head? = some msg.entries[0] := by
    rw [List.head?_eq_getElem?, List.getElem?_eq_getElem positive]
  have last : msg.entries.getLast? = some msg.entries[msg.entries.length - 1] := by
    rw [List.getLast?_eq_getElem?, List.getElem?_eq_getElem]
  have firstNumber := numbers 0 _ (List.getElem?_eq_getElem positive)
  have lastNumber := numbers (msg.entries.length - 1) _
    (List.getElem?_eq_getElem (by omega))
  have current : ¬ (msg.sessnum ≠ r.sessnum ∨ msg.view ≠ r.view) := by simp [sessnum, view]
  have missing : ¬ (0 < msg.end_ ∧ msg.end_ - 1 ≤ r.lastOp) := by omega
  simp only [handleStateTransferReply, Handler.returns_bind, Handler.returns_get,
    Handler.returns_ite, if_neg current, if_neg missing, first, last, Handler.returns_demand,
    Handler.returns_require, Option.some.injEq, exists_eq_left', firstNumber, lastNumber]
  simp only [begin_, true_and, Nat.add_zero]
  exact and_iff_right (by omega)

end Loop

/-- What a replica sends of its log. -/
theorem Log.of_dump {log : Log} {from_ to_ : Nat} {entries : List Entry} (positive : 0 < from_)
    (nonempty : from_ < to_) (dumped : log.dump from_ to_ = some entries) :
    from_ + entries.length = to_ ∧ ∀ index entry, entries[index]? = some entry →
      entry.viewstamp.opnum = from_ + index ∧ log.find (from_ + index) = some entry := by
  unfold Log.dump at dumped
  split at dumped
  next inside =>
      obtain rfl := Option.some.inj dumped
      rw [lastOpnum_eq] at inside
      rw [Nat.max_eq_left positive]
      constructor
      · rw [List.length_drop, List.length_take]
        omega
      · intro index entry found
        rw [List.getElem?_drop, List.getElem?_take] at found
        split at found
        next =>
            have number := log.numbered _ entry found
            have place : from_ + index - 1 = from_ - 1 + index := by omega
            refine ⟨by omega, find_eq_some.mpr ⟨by omega, ?_⟩⟩
            rwa [place]
        next => simp at found
  next => simp at dumped

section Installing

variable {setup : Setup} {app : App} {r : Replica} {msg : StateTransferReplyMessage}

/-- The entries for what is missing continue the log. -/
theorem continued_drop (begin_ : msg.begin_ ≤ r.lastOp + 1)
    (numbers : ∀ index entry, msg.entries[index]? = some entry →
      entry.viewstamp.opnum = msg.begin_ + index) :
    r.Continued (msg.entries.drop (r.lastOp + 1 - msg.begin_)) := by
  intro index entry found
  rw [List.getElem?_drop] at found
  have number := numbers _ entry found
  omega

/-- What the loop has put in is what was missing. -/
theorem Replica.Grows.installs {more : List Entry} {r' : Replica}
    (grows : r.Grows setup (msg.entries.drop (r.lastOp + 1 - msg.begin_) ++ more) r')
    (whole : r.core.Whole) (begin_ : msg.begin_ ≤ r.lastOp + 1) (end_ : r.lastOp + 1 < msg.end_)
    (length : msg.begin_ + msg.entries.length = msg.end_)
    (numbers : ∀ index entry, msg.entries[index]? = some entry →
      entry.viewstamp.opnum = msg.begin_ + index)
    (free : ∀ gap ∈ r.committedGaps, gap ≤ r.lastOp ∨ msg.end_ ≤ gap) :
    ∃ added, r'.log.entries = r.log.entries ++ added ∧
      (added.map fun entry => entry.viewstamp.opnum).Nodup ∧
      ∀ opnum, r.lastOp < opnum → opnum < msg.end_ → ∃ sent ∈ msg.entries, ∃ entry ∈ added,
        sent.viewstamp.opnum = opnum ∧ entry.viewstamp.opnum = opnum ∧
          sent.Installed r.committedGaps entry := by
  refine ⟨_, grows.entries, grows.nodup whole, ?_⟩
  intro opnum above below
  have inside : opnum - r.lastOp - 1 < (msg.entries.drop (r.lastOp + 1 - msg.begin_)).length := by
    rw [List.length_drop]
    omega
  let sent : Entry := (msg.entries.drop (r.lastOp + 1 - msg.begin_))[opnum - r.lastOp - 1]
  have member : sent ∈ msg.entries.drop (r.lastOp + 1 - msg.begin_) := List.getElem_mem inside
  have number : sent.viewstamp.opnum = opnum := by
    have := continued_drop begin_ numbers _ sent (List.getElem?_eq_getElem inside)
    omega
  refine ⟨sent, List.mem_of_mem_drop member, sent, List.mem_append_left _ member, number, number, ?_⟩
  have noGap : sent.viewstamp.opnum ∉ r.committedGaps := by
    intro gap
    have := free _ gap
    omega
  unfold Entry.Installed
  split
  next noop => exact noop.resolve_right noGap
  next => exact ⟨rfl, rfl⟩

/-- A replica gets through a reply if and only if its log is whole and has no gap in the range. -/
theorem Replica.getsThrough_iff (grounded : r.core.Torn ∨ r.core.Sturdy setup)
    (drained : r.lastOp + 1 ∉ r.committedGaps)
    (sessnum : msg.sessnum = r.sessnum) (view : msg.view = r.view)
    (begin_ : msg.begin_ ≤ r.lastOp + 1) (end_ : r.lastOp + 1 < msg.end_)
    (length : msg.begin_ + msg.entries.length = msg.end_)
    (numbers : ∀ index entry, msg.entries[index]? = some entry →
      entry.viewstamp.opnum = msg.begin_ + index) :
    r.Installs setup msg ↔ r.lastOp = r.log.lastOpnum ∧
      ∀ gap ∈ r.committedGaps, gap ≤ r.lastOp ∨ msg.end_ ≤ gap := by
  have continued := continued_drop begin_ numbers
  have missing : (msg.entries.drop (r.lastOp + 1 - msg.begin_)).length = msg.end_ - 1 - r.lastOp := by
    rw [List.length_drop]
    omega
  constructor
  · intro installs
    have returns : (handleStateTransferReply setup {} msg).Returns r fun _ _ => True :=
      ⟨(), (installs {}).1, trivial⟩
    rw [handleStateTransferReply_returns sessnum view begin_ end_ length numbers] at returns
    rcases grounded with torn | sturdy
    · exfalso
      cases entries : msg.entries.drop (r.lastOp + 1 - msg.begin_) with
      | nil =>
          rw [entries, List.length_nil] at missing
          omega
      | cons entry rest =>
          rw [entries] at returns
          exact transferEntry_torn torn (Handler.returns_bind.mp returns)
    · refine ⟨?_, fun gap member => ?_⟩
      · rw [Log.lastOpnum_eq]
        exact sturdy.whole.symm
      · by_contra among
        have notNext : gap ≠ r.lastOp + 1 := fun same => drained (same ▸ member)
        exact transferEntries_stuck sturdy continued member (by omega) (by omega) returns
  · rintro ⟨whole, free⟩ app
    have sturdy : r.core.Sturdy setup := by
      refine grounded.resolve_left fun torn => ?_
      rw [Log.lastOpnum_eq] at whole
      change r.log.entries.length < r.lastOp at torn
      omega
    have returns : (handleStateTransferReply setup app msg).Returns r fun _ r' => ∃ more,
        r.Grows setup (msg.entries.drop (r.lastOp + 1 - msg.begin_) ++ more) r' ∧
          ∀ other ∈ more, other.viewstamp.opnum ∈ r.committedGaps := by
      rw [handleStateTransferReply_returns sessnum view begin_ end_ length numbers]
      apply transferEntries_returns sturdy continued
      intro gap member
      have := free gap member
      omega
    obtain ⟨ended, more, grows, -⟩ := Handler.returns_iff_of_unit.mp returns
    exact ⟨ended, grows.installs sturdy.whole begin_ end_ length numbers free⟩

end Installing

/-! ## Moves -/

/-- A request asks for operations that there are, a reply has what it says of some log, and a view
starts with the gaps of its own log, in their order. -/
def Message.Shaped : Message → Prop
  | .stateTransferRequest msg => 0 < msg.begin_
  | .stateTransferReply msg =>
    0 < msg.begin_ ∧ ∃ log : Log, log.dump msg.begin_ msg.end_ = some msg.entries
  | .startView msg =>
    msg.committedgaps.Pairwise (· < ·) ∧ ∀ gap ∈ msg.committedgaps, gap ≤ msg.lastop
  | _ => True

/-- Only the messages matter. -/
def Output.Shaped : Output → Prop
  | .send _ msg => msg.Shaped
  | _ => True

/-- What every move of a replica keeps. -/
structure Core.Grounded (setup : Setup) (c : Core) : Prop where
  log : c.Torn ∨ c.Whole ∧ c.leaderLastSyncPreparePoint ≤ c.lastOp
  awaits : 0 < c.stateTransferOpEnd → c.Awaits setup
  begun : c.stateTransferTimeout = true → 0 < c.stateTransferOpBegin
  starting : ∀ gap ∈ c.startViewCommittedGaps, gap ≤ c.startViewLastOp
  collected : c.status = .viewChange → setup.AmLeader c.view → 0 < c.stateTransferOpEnd → c.Complete

/-- A log that is not torn is sturdy. -/
theorem Core.Grounded.torn_or_sturdy {setup : Setup} {c : Core} (grounded : c.Grounded setup) :
    c.Torn ∨ c.Sturdy setup :=
  grounded.log.imp_right fun ⟨whole, point⟩ => ⟨whole, point, grounded.awaits⟩

/-- The logic of what a replica sends for a state transfer. -/
def grounding (setup : Setup) : Logic Unit Core Output where
  Later _ _ := True
  refl _ := trivial
  trans _ _ := trivial
  Valid _ output := output.Shaped
  mono _ valid := valid
  Keeps _ c := c.Grounded setup

section Moves

variable {o : Occasion} {c next : Core} {outputs : List Output}

/-- A replica with a state transfer sends shaped messages only. -/
theorem Sends.shaped {dst : Destination} {msg : Message} (sends : Sends o c dst msg)
    (grounded : c.Grounded o.setup)
    (requests : ∀ src msg, o.known src (.stateTransferRequest msg) → 0 < msg.begin_) :
    msg.Shaped := by
  cases sends with
  | plain plain => cases msg <;> trivial
  | stateTransferRequest waiting => exact grounded.begun waiting
  | stateTransferReply known _ _ _ dumped => exact ⟨requests _ _ known, c.log, dumped⟩
  | startView => exact ⟨c.startViewCommittedGaps.increasing, grounded.starting⟩
  | _ => trivial

/-- What a replica puts out when it starts to wait for operations is shaped. -/
theorem shaped_asking {asked : Bool} (positive : 0 < c.stateTransferOpBegin) :
    ∀ output ∈ c.asking asked, output.Shaped := by
  intro output member
  rcases List.mem_cons.mp member with rfl | rest
  · trivial
  · cases asked with
    | false => simp at rest
    | true => exact List.mem_singleton.mp rest ▸ positive

/-- A mark is shaped. -/
theorem Output.Executes.shaped {output : Output} (executes : output.Executes) : output.Shaped := by
  cases output with
  | executed | repeated => trivial
  | _ => exact absurd executes id

/-- What goes with an operation is shaped. -/
theorem shaped_processing {opnum : Nat} {replies : List Output}
    (toClients : ∀ output ∈ replies, Replies c output) :
    ∀ output ∈ .processing opnum c.stateTransferOpEnd c.committedGaps.elements :: replies,
      output.Shaped := by
  intro output member
  rcases List.mem_cons.mp member with rfl | reply
  · trivial
  · rcases toClients output reply with ⟨clientid, addr, msg, -, rfl⟩ | executes
    · trivial
    · exact executes.shaped

/-- A quorum that is complete stays so with a message more. -/
theorem complete_vote {pair : Nat × Nat} {replicaIdx : Nat} {msg : ViewChangeMessage}
    (complete : c.Complete) : Core.Complete
      { c with viewChangeQuorum := c.viewChangeQuorum.add pair replicaIdx msg } :=
  QuorumSet.isSome_checkForQuorum_add complete

/-- Every move keeps the ground of state transfers. -/
theorem Move.grounds (moved : Move o c outputs next) (grounded : c.Grounded o.setup)
    (requests : ∀ src msg, o.known src (.stateTransferRequest msg) → 0 < msg.begin_) :
    next.Grounded o.setup ∧ ∀ output ∈ outputs, output.Shaped := by
  obtain ⟨log, awaits, begun, starting, collected⟩ := id grounded
  have ended : ∀ {next : Core}, next.log = c.log → next.lastOp = c.lastOp →
      next.leaderLastSyncPreparePoint = c.leaderLastSyncPreparePoint →
      next.stateTransferOpEnd = 0 → next.stateTransferTimeout = false →
      next.startViewCommittedGaps = c.startViewCommittedGaps →
      next.startViewLastOp = c.startViewLastOp → next.Grounded o.setup := by
    intro next log' lastOp point end_ timeout startGaps startOp
    refine ⟨?_, fun pending => ?_, fun waiting => ?_, ?_, fun _ _ pending => ?_⟩
    · unfold Core.Torn Core.Whole
      rw [log', lastOp, point]
      exact log
    · omega
    · simp [timeout] at waiting
    · rw [startGaps, startOp]
      exact starting
    · omega
  have appends : ∀ {vs : Viewstamp} {request : Request} {state : LogEntryState} {longer : Log},
      vs.opnum = c.lastOp + 1 → c.log.append vs request state = some longer →
      (c.appended vs longer state).Grounded o.setup := by
    intro vs request state longer next appended
    refine ⟨.inr ?_, awaits, begun, starting, collected⟩
    obtain ⟨atEnd, entries⟩ := Log.of_append appended
    have whole := log.resolve_left fun torn => by
      unfold Core.Torn at torn
      omega
    refine ⟨?_, whole.2.trans (by change c.lastOp ≤ vs.opnum; omega)⟩
    change longer.entries.length = vs.opnum
    rw [entries, List.length_append, List.length_singleton, atEnd]
  cases moved with
  | send sends =>
      refine ⟨grounded, fun output single => ?_⟩
      exact List.mem_singleton.mp single ▸ sends.shaped grounded requests
  | change | mergeEnter | follow | finish =>
      refine ⟨ended rfl rfl rfl rfl rfl rfl rfl, ?_⟩
      simp [Output.Shaped]
  | agreed =>
      refine ⟨⟨log, awaits, begun, starting, fun status => nomatch status⟩, ?_⟩
      simp [Output.Shaped]
  | agree => exact ⟨⟨log, awaits, begun, starting, fun status => nomatch status⟩, by simp⟩
  | vote =>
      refine ⟨⟨log, awaits, begun, starting, fun status leader pending => ?_⟩, by simp⟩
      exact complete_vote (collected status leader pending)
  | merge | call =>
      refine ⟨grounded, ?_⟩
      simp [Output.Shaped]
  | execute executes =>
      refine ⟨grounded, fun output single => ?_⟩
      exact List.mem_singleton.mp single ▸ executes.shaped
  | refuse replies => exact ⟨grounded, shaped_processing replies⟩
  | append next appended replies inside =>
      exact ⟨appends next appended, shaped_processing replies⟩
  | appendLast next appended replies last =>
      have grounded' := appends next appended
      refine ⟨⟨grounded'.log, grounded'.awaits, fun none_ => (nomatch none_), starting, collected⟩, ?_⟩
      intro output member
      rcases List.mem_append.mp member with before | atEnd
      · exact shaped_processing replies output before
      · exact List.mem_singleton.mp atEnd ▸ trivial
  | strike =>
      refine ⟨⟨?_, awaits, begun, starting, collected⟩, by simp⟩
      unfold Core.Torn Core.Whole
      rw [Log.length_setStatus]
      exact log
  | rewind removed =>
      exact ⟨⟨.inl (Log.length_removeAfter removed), awaits, begun, starting, collected⟩, by simp⟩
  | mergeTransfer elected behind transferring complete =>
      subst transferring
      have positive : 0 < c.lastOp + 1 := Nat.succ_pos _
      refine ⟨⟨log, fun _ => trivial, fun _ => positive, starting, ?_⟩, shaped_asking positive⟩
      exact fun status _ _ => complete status
  | followTransfer follows behind transferring =>
      subst transferring
      have positive : 0 < c.lastOp + 1 := Nat.succ_pos _
      refine ⟨⟨log, fun _ => trivial, fun _ => positive, starting, ?_⟩, shaped_asking positive⟩
      exact fun _ leader _ => absurd leader follows.follower
  | syncTransfer follower behind transferring =>
      subst transferring
      have positive : 0 < c.lastOp + 1 := Nat.succ_pos _
      refine ⟨⟨log, fun _ => ⟨rfl, follower⟩, fun _ => positive, starting, ?_⟩,
        shaped_asking positive⟩
      exact fun _ leader _ => absurd leader follower
  | setPoint =>
      refine ⟨⟨?_, awaits, begun, starting, collected⟩, by simp⟩
      exact log.imp_right fun ⟨whole, _⟩ => ⟨whole, le_rfl⟩
  | conclude bounded => exact ⟨⟨log, awaits, begun, bounded, collected⟩, by simp⟩
  | _ => exact ⟨⟨log, awaits, begun, starting, collected⟩, by simp⟩

end Moves

/-! ## Runs -/

namespace System

variable {d : Deployment} {s next : System} {idx : Nat}

/-- Every replica that has not stopped has a ground for its state transfer, and what is on its way
for one is shaped. -/
structure Grounds (d : Deployment) (s : System) : Prop where
  shaped : ∀ packet ∈ s.network, packet.msg.Shaped
  grounded : ∀ idx, s.stopped idx = false → (s.replicas idx).core.Grounded (d.setup idx)

/-- A packet is as shaped as the output. -/
theorem shaped_post {src : Nat} {output : Output} (shaped : output.Shaped) {packet : Packet}
    (member : packet ∈ post d.configuration src output) : packet.msg.Shaped := by
  cases output with
  | send dst msg =>
      cases dst with
      | one addr => exact List.mem_singleton.mp member ▸ shaped
      | others =>
          obtain ⟨other, -, rfl⟩ := List.mem_map.mp member
          exact shaped
  | _ => nomatch member

/-- Every shift keeps the ground of state transfers. -/
theorem Grounds.shifts {action : Action} (grounds : Grounds d s)
    (shifts : s.Shifts d action next) : Grounds d next := by
  cases shifts with
  | @ran idx outcome last ran outputs =>
      obtain ⟨⟨⟩, -, grounded, shaped⟩ := ran.moves.keeps (grounding (d.setup idx))
        (fun grounded moved => by
          obtain ⟨grounded', shaped⟩ := moved.grounds grounded
            fun src msg known => grounds.shaped _ known
          exact ⟨(), trivial, grounded', shaped⟩)
        (show (grounding (d.setup idx)).Keeps () _ from grounds.grounded idx ran.running)
      constructor
      · intro packet member
        rcases List.mem_append.mp member with old | new
        · exact grounds.shaped packet old
        · obtain ⟨output, inOutputs, inPost⟩ := List.mem_flatMap.mp new
          exact shaped_post (shaped output inOutputs) inPost
      · intro other running
        rcases eq_or_ne other idx with rfl | different
        · simp only [absorb, Function.update_self] at running ⊢
          exact (ran.ended running).1 ▸ grounded
        · simp only [absorb, Function.update_of_ne different] at running ⊢
          exact grounds.grounded other running
  | asked asked =>
      obtain ⟨more, network, fromClients⟩ := asked.network
      constructor
      · intro packet member
        rw [network] at member
        rcases List.mem_append.mp member with old | new
        · exact grounds.shaped packet old
        · cases fromClients packet new <;> trivial
      · intro idx running
        rw [asked.stopped] at running
        rw [asked.replicas]
        exact grounds.grounded idx running

/-- In every reachable state there is a ground for each state transfer. -/
theorem grounds_of_reachable (reachable : (system d).Reachable TransitionSystem.unguarded s) :
    Grounds d s := by
  apply of_shifts ?_ (fun _ _ grounds shifts => grounds.shifts shifts) reachable
  constructor
  · simp [initial]
  · intro idx _
    constructor <;>
      simp [initial, Replica.core, Replica.constructed, Core.Whole, OpnumSet.not_mem_empty]

/-- In every reachable state a replica gets through a reply to a state transfer request, for what is
missing from its log, if and only if its log is whole and no gap that it knows lies in the range. -/
theorem installs_iff (reachable : (system d).Reachable TransitionSystem.unguarded s)
    {src : Address} {msg : StateTransferReplyMessage} (running : s.stopped idx = false)
    (received : { src := src, dst := .replica idx, msg := .stateTransferReply msg } ∈ s.network)
    (sessnum : msg.sessnum = (s.replicas idx).sessnum) (view : msg.view = (s.replicas idx).view)
    (begin_ : msg.begin_ ≤ (s.replicas idx).lastOp + 1)
    (end_ : (s.replicas idx).lastOp < msg.end_ - 1) :
    (s.replicas idx).Installs (d.setup idx) msg ↔
      (s.replicas idx).lastOp = (s.replicas idx).log.lastOpnum ∧
        ∀ gap ∈ (s.replicas idx).committedGaps, gap ≤ (s.replicas idx).lastOp ∨ msg.end_ ≤ gap := by
  have ready := (invariant_allReady d).of_reachable reachable idx running
  have grounds := grounds_of_reachable reachable
  have shaped : (Message.stateTransferReply msg).Shaped := grounds.shaped _ received
  obtain ⟨positive, log, dumped⟩ := shaped
  obtain ⟨length, numbers⟩ := Log.of_dump positive (by omega) dumped
  exact Replica.getsThrough_iff (grounds.grounded idx running).torn_or_sturdy ready.rests.drained
    sessnum view begin_ (by omega) length fun index entry found => (numbers index entry found).1

/-- A reply of replica 0 on its way to replica 2. -/
def answering (msg : StateTransferReplyMessage) : Packet where
  src := .replica 0
  dst := .replica 2
  msg := .stateTransferReply msg

/-- The leader's reply with all that it has, two requests and the gap between them. -/
def belatedReply : StateTransferReplyMessage where
  sessnum := 0
  view := 0
  begin_ := 1
  end_ := 4
  entries := [{ viewstamp := { view := 0, opnum := 1, sessnum := 0, msgnum := 1 },
                state := .received, request := trio.request 0 1 },
              { viewstamp := { view := 0, opnum := 2, sessnum := 0, msgnum := 2 },
                state := .noop, request := noopRequest },
              { viewstamp := { view := 0, opnum := 3, sessnum := 0, msgnum := 3 },
                state := .received, request := trio.request 0 3 }]

/-- The leader and replica 1 agree on a gap, and another request follows it. Replica 2 is told of the
sync point and asks for everything. It gets the first request from its client, and the gap follows
it, before the reply of the leader is there. -/
def belatedRun : List Action :=
  ask 0 1 [0, 1, 2] ++ deliveries [0, 1] ++ ask 0 3 [0] ++ deliveries [5] ++
    [.timer 0 .startGapRequest {}, .timer 0 .gapRequest {}] ++ deliveries [8, 10] ++
    [.timer 0 .sync {}] ++ deliveries [13, 14, 2]

/-- Replica 2 gets through the reply, of which it has all but the last operation. -/
theorem installs_belatedRun : ∃ s : System, (s.replicas 2).lastOp = 2 ∧
    (s.replicas 2).committedGaps.elements = [2] ∧
    (s.replicas 2).Installs (trio.setup 2) belatedReply := by
  obtain ⟨s, reachable, outcome⟩ := (system trio).exists_reachable_of_run
    TransitionSystem.unguarded
    (fun s => decide (s.stopped 2 = false ∧ s.network[15]? = some (answering belatedReply) ∧
      (s.replicas 2).sessnum = 0 ∧ (s.replicas 2).view = 0 ∧ (s.replicas 2).lastOp = 2 ∧
      (s.replicas 2).log.lastOpnum = 2 ∧ (s.replicas 2).committedGaps.elements = [2])) belatedRun
    rfl (by decide +kernel)
  obtain ⟨running, there, sessnum, view, lastOp, log, gaps⟩ := of_decide_eq_true outcome
  refine ⟨s, lastOp, gaps, ?_⟩
  apply (installs_iff reachable running (List.mem_of_getElem? there) sessnum.symm view.symm
    (by simp [belatedReply]) (by simp [belatedReply, lastOp])).mpr
  rw [lastOp, log]
  refine ⟨rfl, fun gap member => .inl ?_⟩
  have known : gap ∈ (s.replicas 2).committedGaps.elements := member
  rw [gaps] at known
  exact (List.mem_singleton.mp known).le

/-- The leader's reply with a request and a gap after it, which it is still agreeing on. -/
def overlappingReply : StateTransferReplyMessage where
  sessnum := 0
  view := 0
  begin_ := 1
  end_ := 3
  entries := [{ viewstamp := { view := 0, opnum := 1, sessnum := 0, msgnum := 1 },
                state := .received, request := trio.request 0 1 },
              { viewstamp := { view := 0, opnum := 2, sessnum := 0, msgnum := 2 },
                state := .noop, request := noopRequest }]

/-- Replica 2 is told of the gap and the sync point, and asks for both operations. -/
def overlappingRun : List Action :=
  ask 0 1 [0] ++ deliveries [0] ++ ask 0 3 [0] ++ deliveries [2] ++
    [.timer 0 .startGapRequest {}, .timer 0 .gapRequest {}, .timer 0 .sync {}] ++
    deliveries [6, 8, 9]

/-- The gap follows the request by itself, and the loop expects it next. -/
theorem not_installs_overlappingRun : ¬ ∀ (d : Deployment) (s : System) (idx : Nat) (src : Address)
    (msg : StateTransferReplyMessage), (system d).Reachable TransitionSystem.unguarded s →
    s.stopped idx = false →
    { src := src, dst := .replica idx, msg := .stateTransferReply msg } ∈ s.network →
    msg.sessnum = (s.replicas idx).sessnum → msg.view = (s.replicas idx).view →
    msg.begin_ ≤ (s.replicas idx).lastOp + 1 → (s.replicas idx).lastOp < msg.end_ - 1 →
    (s.replicas idx).Installs (d.setup idx) msg := by
  intro always
  obtain ⟨s, reachable, outcome⟩ := (system trio).exists_reachable_of_run
    TransitionSystem.unguarded
    (fun s => decide (s.stopped 2 = false ∧ s.network[10]? = some (answering overlappingReply) ∧
      (s.replicas 2).sessnum = 0 ∧ (s.replicas 2).view = 0 ∧ (s.replicas 2).lastOp = 0 ∧
      (handleStateTransferReply (trio.setup 2) {} overlappingReply (s.replicas 2)).value = none))
    overlappingRun rfl (by decide +kernel)
  obtain ⟨running, there, sessnum, view, lastOp, stops⟩ := of_decide_eq_true outcome
  have installs := always trio s 2 _ _ reachable running (List.mem_of_getElem? there) sessnum.symm
    view.symm (by simp [overlappingReply]) (by simp [overlappingReply, lastOp])
  have ends := (installs {}).1
  rw [stops] at ends
  simp at ends

end System

end PaxosBus.NoPaxos

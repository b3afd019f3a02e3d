import PaxosBus.Common.HashChain
import PaxosBus.Spec.Replica
import PaxosBus.Spec.Window

/-!
# The conduct of a replica

What every replica keeps to, as a logic for its handlers. The world of the logic
is where the replica stands: it moves on to later views, and within a view that
the replica has entered the log only grows. A message speaks of the log that its
sender had when it stood there. The marks of a handler have to meet terms that
whoever uses the logic chooses.

This module is about the parts of a handler that work on the log.
-/

set_option autoImplicit false

namespace PaxosBus.Spec

open PaxosBus.Common PaxosBus.Library
open Logic (Meets)

variable {Hash : Type}

/-- Where a replica stands. -/
structure Standing where
  status : Status
  view : Nat
  lastCommitted : Nat
  requests : List Request

/-- Where a replica is. -/
def Replica.standing (r : Replica Hash) : Standing where
  status := r.status
  view := r.view
  lastCommitted := r.lastCommitted
  requests := r.log.requests

/-- A replica moves on: the log of a view that it has entered grows as long as it is in the view. -/
structure Standing.Later (first second : Standing) : Prop where
  view : first.view ≤ second.view
  lastCommitted : first.lastCommitted ≤ second.lastCommitted
  settled : first.view = second.view → first.status = .normal →
    second.status = .normal ∧ first.requests <+: second.requests

theorem Standing.Later.refl (standing : Standing) : standing.Later standing :=
  ⟨Nat.le_refl _, Nat.le_refl _, fun _ normal => ⟨normal, List.prefix_refl _⟩⟩

/-- Later of later is later. -/
theorem Standing.Later.trans {first second third : Standing} (before : first.Later second)
    (after : second.Later third) : first.Later third where
  view := before.view.trans after.view
  lastCommitted := before.lastCommitted.trans after.lastCommitted
  settled same normal := by
    have between := before.view
    have onward := after.view
    obtain ⟨still, grows⟩ := before.settled (by omega) normal
    obtain ⟨finally_, growsToo⟩ := after.settled (by omega) still
    exact ⟨finally_, grows.trans growsToo⟩

/-- What the messages that a replica handles and the marks that it puts out have to meet: which
messages have been sent, which requests have been made, which accesses, commits, `InViewMessage`s
and `FillLogGapMessage`s are admitted, and which destinations have committed something. -/
structure Terms (Hash : Type) where
  sent : Message Hash → Prop := fun _ => True
  asked : Request → Prop := fun _ => True
  reads : DoViewChangeMessage Hash → Nat → Prop := fun _ _ => True
  commits : Route → Status → Nat → Nat → List (LogEntry Hash) → Prop := fun _ _ _ _ _ => True
  joins : InViewMessage → Prop := fun _ => True
  gaps : FillLogGapMessage → Prop := fun _ => True
  committed : Destination → Prop := fun _ => True

/-- A vote that begins early enough to be merged with whole logs. -/
def DoViewChangeMessage.Early (msg : DoViewChangeMessage Hash) : Prop :=
  msg.entries = [] ∨ firstOpnumOf msg.entries = 1 ∨ firstOpnumOf msg.entries ≤ msg.lastcommitted

/-- A message that starts a view from a log: it carries the end of the log, and its number of
requests. -/
structure StartViewMessage.Honest (hashing : Hashing Hash) (requests : List Request)
    (msg : StartViewMessage Hash) : Prop where
  piece : ∃ skipped, Piece hashing requests skipped msg.entries
  lastspeculative : msg.lastspeculative = requests.length

/-- A log was the log of the view where the replica stands, or of an earlier one. -/
def Standing.Showed (standing : Standing) (view : Nat) (requests : List Request) : Prop :=
  view < standing.view ∨
    view = standing.view ∧ standing.status = .normal ∧ requests <+: standing.requests

/-- What a replica has shown stays shown. -/
theorem Standing.Showed.later {first second : Standing} {view : Nat} {requests : List Request}
    (showed : first.Showed view requests) (later : first.Later second) :
    second.Showed view requests := by
  have onward := later.view
  obtain past | ⟨rfl, normal, within⟩ := showed
  · exact .inl (by omega)
  · rcases Nat.lt_or_eq_of_le onward with beyond | same
    · exact .inl beyond
    · obtain ⟨still, grows⟩ := later.settled same normal
      exact .inr ⟨same, still, within.trans grows⟩

section Logic

variable (setup : Setup Hash) (terms : Terms Hash)

/-- What an output says is so. -/
def Valid (standing : Standing) : Output Hash → Prop
  | .send destination (.startView msg) =>
    setup.AmLeader msg.view ∧ ∃ requests, msg.Honest setup.hashing requests ∧
      (∀ request ∈ requests, terms.asked request) ∧
        (msg.entries = [] → requests = [] ∨ terms.committed destination) ∧
          standing.Showed msg.view requests
  | .send _ (.doViewChange msg) =>
    msg.WellFormed setup.hashing ∧ ∀ entry ∈ msg.entries, terms.asked entry.request
  | .send _ (.request _) | .send _ (.syncReply _) => False
  | .send _ (.inView msg) =>
    msg.replicaidx = setup.replicaIdx ∧ ¬ setup.AmLeader msg.view ∧ terms.joins msg
  | .send _ (.fillLogGap msg) => terms.gaps msg ∧ msg.lastcommitted ≤ standing.lastCommitted
  | .answering _ msg status view log =>
    msg.replicaidx = setup.replicaIdx ∧ ¬ setup.AmLeader view ∧ status = .normal ∧
      msg.view = view ∧ ∃ requests, Piece setup.hashing requests 0 log ∧
        (∀ request ∈ requests, terms.asked request) ∧
          ∀ hash, msg.lastspeculativehash = some hash → msg.lastspeculative ≤ requests.length ∧
            hash = setup.hashing.chain (requests.take msg.lastspeculative)
  | .committing route status view opnum log => terms.commits route status view opnum log
  | .read msg opnum => terms.reads msg opnum
  | _ => True

/-- The logic of a replica's conduct. -/
def conduct : Logic Standing (Replica Hash) (Output Hash) where
  Later := Standing.Later
  refl := .refl
  trans := .trans
  Valid := Valid setup terms
  mono := by
    intro first second output later valid
    match output with
    | .send destination (.startView msg) =>
        obtain ⟨leader, requests, honest, asked, empty, showed⟩ := valid
        exact ⟨leader, requests, honest, asked, empty, showed.later later⟩
    | .send _ (.fillLogGap msg) => exact ⟨valid.1, valid.2.trans later.lastCommitted⟩
    | .send _ (.request _) | .send _ (.reply _) | .send _ (.unloggedRequest _)
    | .send _ (.unloggedReply _) | .send _ (.sync _) | .send _ (.syncReply _)
    | .send _ (.requestViewChange _) | .send _ (.startViewChange _) | .send _ (.doViewChange _)
    | .send _ (.inView _) | .send _ (.fillDVCGap _) | .read _ _ | .answering _ _ _ _ _
    | .entering _ _ | .committing _ _ _ _ _ => exact valid
  Keeps _ _ := True

end Logic

namespace Replica

/-- The log of a replica is in order: it is hashed, its requests have been made, and exactly its
committed entries say so. -/
structure LogSound (setup : Setup Hash) (terms : Terms Hash) (r : Replica Hash) : Prop where
  hashed : r.log.Hashed setup.hashing
  asked : ∀ request ∈ r.log.requests, terms.asked request
  lastSpeculative : r.lastSpeculative = r.log.requests.length
  lastCommitted : r.lastCommitted ≤ r.lastSpeculative
  states : ∀ index entry, r.log.entries[index]? = some entry →
    (entry.state = .committed ↔ index < r.lastCommitted)

/-- What working on the log leaves alone. -/
structure Undisturbed (r r' : Replica Hash) : Prop where
  status : r'.status = r.status
  view : r'.view = r.view
  needFillDVC : r'.needFillDVC = r.needFillDVC
  pendingSync : r'.pendingSync = r.pendingSync
  syncReplyQuorum : r'.syncReplyQuorum = r.syncReplyQuorum
  doViewChangeQuorum : r'.doViewChangeQuorum = r.doViewChangeQuorum
  inViewQuorum : r'.inViewQuorum = r.inViewQuorum
  pendingRequests : r'.pendingRequests = r.pendingRequests

theorem Undisturbed.refl (r : Replica Hash) : r.Undisturbed r :=
  ⟨rfl, rfl, rfl, rfl, rfl, rfl, rfl, rfl⟩

/-- What is left undisturbed twice is undisturbed. -/
theorem Undisturbed.trans {r r' r'' : Replica Hash} (first : r.Undisturbed r')
    (second : r'.Undisturbed r'') : r.Undisturbed r'' where
  status := second.status.trans first.status
  view := second.view.trans first.view
  needFillDVC := second.needFillDVC.trans first.needFillDVC
  pendingSync := second.pendingSync.trans first.pendingSync
  syncReplyQuorum := second.syncReplyQuorum.trans first.syncReplyQuorum
  doViewChangeQuorum := second.doViewChangeQuorum.trans first.doViewChangeQuorum
  inViewQuorum := second.inViewQuorum.trans first.inViewQuorum
  pendingRequests := second.pendingRequests.trans first.pendingRequests

variable {r r' : Replica Hash} {setup : Setup Hash} {terms : Terms Hash}

/-- The end of the log is where the replica has got to. -/
theorem LogSound.exists_find (sound : r.LogSound setup terms) {opnum : Nat} (low : 0 < opnum)
    (high : opnum ≤ r.lastSpeculative) : ∃ entry, r.log.find opnum = some entry :=
  sound.hashed.exists_find low (sound.lastSpeculative ▸ high)

end Replica

variable {setup : Setup Hash} {terms : Terms Hash} {w : Standing} {r : Replica Hash} {app : App}

/-! ## Committing -/

/-- What a replica is after it has committed up to an opnum. -/
structure Replica.Commits (setup : Setup Hash) (terms : Terms Hash) (upto : Nat)
    (r r' : Replica Hash) : Prop where
  undisturbed : r.Undisturbed r'
  sound : r'.LogSound setup terms
  requests : r'.log.requests = r.log.requests
  lastSpeculative : r'.lastSpeculative = r.lastSpeculative
  lastCommitted : r'.lastCommitted = max r.lastCommitted upto

/-- One round of `CommitUpTo`. -/
theorem commitNext_meets (sound : r.LogSound setup terms) :
    (conduct setup terms).Meets commitNext w r fun _ w' r' =>
      w' = w ∧ r.Commits setup terms (r.lastCommitted + 1) r' := by
  unfold commitNext
  refine .bind (.change trivial fun _ => .bind (.get trivial fun _ => ?_))
  refine .bind (.require trivial fun success _ => .change trivial ?_)
  have found : ∃ entry, r.log.find (r.lastCommitted + 1) = some entry := by
    unfold Log.setStatus at success
    split at success
    · simp at success
    next entry found => exact ⟨entry, found⟩
  obtain ⟨entry, found⟩ := found
  obtain ⟨-, inside, -⟩ := sound.hashed.of_find found
  have requests : (r.log.setStatus (r.lastCommitted + 1) .committed).1.requests = r.log.requests :=
    Log.requests_setStatus _ _
  refine ⟨rfl, ⟨rfl, rfl, rfl, rfl, rfl, rfl, rfl, rfl⟩, ?_, requests, rfl, by simp⟩
  refine ⟨sound.hashed.setStatus _ _, requests.symm ▸ sound.asked, ?_, ?_, ?_⟩
  · exact sound.lastSpeculative.trans (congrArg List.length requests).symm
  · have := sound.lastSpeculative
    simp only
    omega
  · intro index entry present
    simp only [Log.setStatus, found] at present
    rw [List.getElem?_modify] at present
    obtain ⟨before, presentBefore, rfl⟩ := Option.map_eq_some_iff.mp present
    have state := sound.states index before presentBefore
    rw [sound.hashed.start, Nat.add_sub_cancel]
    simp only
    split
    next here => simp [← here]
    next elsewhere =>
        rw [state]
        omega

/-- `CommitUpTo` commits up to the opnum, or stops. -/
theorem commitUpTo_meets (sound : r.LogSound setup terms) (upto : Nat) :
    (conduct setup terms).Meets (commitUpTo upto) w r fun _ w' r' =>
      w' = w ∧ r.Commits setup terms upto r' := by
  unfold commitUpTo
  refine .bind (.get trivial fun _ => ?_)
  refine (Meets.repeated (fun rounds w' r' => w' = w ∧ rounds + r'.lastCommitted =
      (upto - r.lastCommitted) + r.lastCommitted ∧
        r.Commits setup terms r'.lastCommitted r') ?_ trivial ?_).imp ?_
  · rintro rounds world middle - ⟨rfl, left, commits⟩
    refine (commitNext_meets commits.sound).imp ?_
    rintro - _ after - ⟨rfl, next⟩
    have number := next.lastCommitted
    have start := commits.lastCommitted
    refine ⟨rfl, by omega, commits.undisturbed.trans next.undisturbed, next.sound,
      next.requests.trans commits.requests, next.lastSpeculative.trans commits.lastSpeculative,
      by omega⟩
  · exact ⟨rfl, rfl, .refl r, sound, rfl, rfl, by simp⟩
  · rintro - _ after - ⟨rfl, left, commits⟩
    exact ⟨rfl, commits.undisturbed, commits.sound, commits.requests, commits.lastSpeculative,
      by omega⟩

/-! ## Rolling back -/

/-- One round of `RollbackTo` is about the client table only. -/
theorem rollbackEntry_meets (i : Nat) :
    (conduct setup terms).Meets (rollbackEntry i) w r fun _ w' r' =>
      w' = w ∧ r.Undisturbed r' ∧ r'.log = r.log ∧ r'.lastSpeculative = r.lastSpeculative ∧
        r'.lastCommitted = r.lastCommitted := by
  unfold rollbackEntry
  refine .bind (.get trivial fun _ => .bind (.demand trivial fun entry _ _ => ?_))
  refine .bind (.require trivial fun _ _ => .branch (fun _ => ?_) (fun _ => ?_))
  · refine .bind (.demand trivial fun oldEntry _ _ => .change trivial ?_)
    exact ⟨rfl, ⟨rfl, rfl, rfl, rfl, rfl, rfl, rfl, rfl⟩, rfl, rfl, rfl⟩
  · exact .change trivial ⟨rfl, ⟨rfl, rfl, rfl, rfl, rfl, rfl, rfl, rfl⟩, rfl, rfl, rfl⟩

/-- What a replica is after it has rolled back to an opnum. -/
structure Replica.RollsBack (setup : Setup Hash) (terms : Terms Hash) (backto : Nat)
    (r r' : Replica Hash) : Prop where
  undisturbed : r.Undisturbed r'
  sound : r'.LogSound setup terms
  requests : r'.log.requests = r.log.requests.take backto
  lastCommitted : r'.lastCommitted = r.lastCommitted

/-- `RollbackTo` cuts the log, or stops. -/
theorem rollbackTo_meets (sound : r.LogSound setup terms) (backto : Nat) :
    (conduct setup terms).Meets (rollbackTo backto) w r fun _ w' r' =>
      w' = w ∧ r.RollsBack setup terms backto r' := by
  unfold rollbackTo
  refine .bind (.get trivial fun _ => .branch (fun short => ?_) (fun long => ?_))
  · refine .pure trivial ⟨rfl, .refl r, sound, ?_, rfl⟩
    rw [List.take_of_length_le (sound.lastSpeculative ▸ short)]
  · refine .bind (.require trivial fun committed _ => ?_)
    refine .bind ((Meets.forEach (fun w' r' => w' = w ∧ r.Undisturbed r' ∧ r'.log = r.log ∧
      r'.lastSpeculative = r.lastSpeculative ∧ r'.lastCommitted = r.lastCommitted) ?_ trivial
        ⟨rfl, .refl r, rfl, rfl, rfl⟩).imp ?_)
    · rintro i - world middle - ⟨rfl, undisturbed, log, speculative, commits⟩
      refine (rollbackEntry_meets i).imp ?_
      rintro - _ after - ⟨rfl, next, log', speculative', commits'⟩
      exact ⟨rfl, undisturbed.trans next, log'.trans log, speculative'.trans speculative,
        commits'.trans commits⟩
    · rintro - _ middle - ⟨rfl, undisturbed, log, speculative, commits⟩ -
      refine .bind (.change trivial fun _ => .bind (.get trivial fun _ => ?_))
      refine .bind (.demand trivial fun cut removed _ => .change trivial ?_)
      simp only [log] at removed
      obtain ⟨hashed, entries, requests⟩ := sound.hashed.removeAfter removed
      rw [Nat.add_sub_cancel] at entries requests
      have length := sound.lastSpeculative
      refine ⟨rfl, ⟨undisturbed.status, undisturbed.view, undisturbed.needFillDVC,
        undisturbed.pendingSync, undisturbed.syncReplyQuorum,
        undisturbed.doViewChangeQuorum, undisturbed.inViewQuorum, undisturbed.pendingRequests⟩,
        ⟨hashed, fun request member => sound.asked request ?_, ?_, ?_, ?_⟩, requests, commits⟩
      · simp only [requests] at member
        exact List.mem_of_mem_take member
      · simp only [requests, List.length_take]
        omega
      · simp only [commits]
        exact committed
      · intro index entry found
        simp only [entries, List.getElem?_take] at found
        split at found
        · simp only [commits]
          exact sound.states index entry found
        · simp at found

/-! ## Appending -/

/-- What a replica is after it has appended a request, before it counts the request. -/
structure Replica.Appends (hashing : Hashing Hash) (v : Viewstamp) (req : Request)
    (r r' : Replica Hash) : Prop where
  undisturbed : r.Undisturbed r'
  hashed : r'.log.Hashed hashing
  opnum : v.opnum = r.log.requests.length + 1
  requests : r'.log.requests = r.log.requests ++ [req]
  entries : r'.log.entries = r.log.entries ++ [r.log.newEntry v req .speculative]
  lastSpeculative : r'.lastSpeculative = r.lastSpeculative
  lastCommitted : r'.lastCommitted = r.lastCommitted

/-- `Log::Append` appends at the end, or stops. -/
theorem append_meets (hashed : r.log.Hashed setup.hashing) (v : Viewstamp) (req : Request) :
    (conduct setup terms).Meets (append v req) w r fun _ w' r' =>
      w' = w ∧ r.Appends setup.hashing v req r' := by
  unfold append
  refine .bind (.get trivial fun _ => .bind (.demand trivial fun longer appended _ => ?_))
  obtain ⟨hashed', opnum, requests, entries⟩ := hashed.append appended
  exact .change trivial ⟨rfl, ⟨rfl, rfl, rfl, rfl, rfl, rfl, rfl, rfl⟩, hashed', opnum, requests,
    entries, rfl, rfl⟩

/-- What an upcall and the client table have nothing to do with. -/
structure Replica.SameLog (r r' : Replica Hash) : Prop where
  undisturbed : r.Undisturbed r'
  log : r'.log = r.log
  lastSpeculative : r'.lastSpeculative = r.lastSpeculative
  lastCommitted : r'.lastCommitted = r.lastCommitted

/-- What leaves the log alone twice leaves it alone. -/
theorem Replica.SameLog.trans {r r' r'' : Replica Hash} (first : r.SameLog r')
    (second : r'.SameLog r'') : r.SameLog r'' where
  undisturbed := first.undisturbed.trans second.undisturbed
  log := second.log.trans first.log
  lastSpeculative := second.lastSpeculative.trans first.lastSpeculative
  lastCommitted := second.lastCommitted.trans first.lastCommitted

/-- A log that is sound is sound in another state. -/
theorem Replica.SameLog.sound {r r' : Replica Hash} (same : r.SameLog r')
    (sound : r.LogSound setup terms) : r'.LogSound setup terms where
  hashed := same.log ▸ sound.hashed
  asked := same.log ▸ sound.asked
  lastSpeculative := by rw [same.lastSpeculative, same.log, sound.lastSpeculative]
  lastCommitted := by rw [same.lastSpeculative, same.lastCommitted]; exact sound.lastCommitted
  states := by rw [same.log, same.lastCommitted]; exact sound.states

/-- The `Execute` upcall is about the application only. -/
theorem execute_meets (req : Request) :
    (conduct setup terms).Meets (execute app req) w r fun _ w' r' =>
      w' = w ∧ r.SameLog r' := by
  unfold execute
  refine .bind (.get trivial fun _ => .bind (.change trivial fun _ => .pure trivial ?_))
  exact ⟨rfl, ⟨rfl, rfl, rfl, rfl, rfl, rfl, rfl, rfl⟩, rfl, rfl, rfl⟩

/-- `UpdateClientTable` is about the client table only. -/
theorem updateClientTable_meets (req : Request) (opnum : Nat)
    (reply : SpeculativeReplyMessage Hash) :
    (conduct setup terms).Meets (updateClientTable req opnum reply) w r fun _ w' r' =>
      w' = w ∧ r.SameLog r' := by
  unfold updateClientTable
  refine .bind (.get trivial fun _ => .bind (.require trivial fun _ _ => ?_))
  refine .bind (.change trivial fun _ => .branch (fun _ => ?_) (fun _ => ?_))
  · exact .change trivial ⟨rfl, ⟨rfl, rfl, rfl, rfl, rfl, rfl, rfl, rfl⟩, rfl, rfl, rfl⟩
  · exact .change trivial ⟨rfl, ⟨rfl, rfl, rfl, rfl, rfl, rfl, rfl, rfl⟩, rfl, rfl, rfl⟩

/-- A request that is appended and counted keeps the log in order. -/
theorem Replica.Appends.sound {v : Viewstamp} {req : Request} {before counted after : Replica Hash}
    (appends : counted.Appends setup.hashing v req after) (sound : before.LogSound setup terms)
    (asked : terms.asked req) (log : counted.log = before.log)
    (committed : counted.lastCommitted = before.lastCommitted)
    (speculative : counted.lastSpeculative = before.lastSpeculative + 1) :
    after.LogSound setup terms where
  hashed := appends.hashed
  asked request member := by
    rw [appends.requests, log] at member
    rcases List.mem_append.mp member with old | new
    · exact sound.asked request old
    · exact List.mem_singleton.mp new ▸ asked
  lastSpeculative := by
    rw [appends.lastSpeculative, speculative, appends.requests, log, sound.lastSpeculative]
    simp
  lastCommitted := by
    have := sound.lastCommitted
    rw [appends.lastSpeculative, appends.lastCommitted, speculative, committed]
    omega
  states := by
    intro index entry found
    rw [appends.lastCommitted, committed]
    rw [appends.entries, log] at found
    rcases Nat.lt_or_ge index before.log.entries.length with inside | outside
    · rw [List.getElem?_append_left inside] at found
      exact sound.states index entry found
    · rw [List.getElem?_append_right outside] at found
      have last : entry = counted.log.newEntry v req .speculative := by
        rw [log]
        cases offset : index - before.log.entries.length with
        | zero => simpa [offset] using found.symm
        | succ more => simp [offset] at found
      have length := sound.lastSpeculative
      have le := sound.lastCommitted
      rw [Log.length_requests] at length
      rw [last]
      simp only [Log.newEntry]
      constructor
      · intro same
        cases same
      · intro beyond
        omega

end PaxosBus.Spec

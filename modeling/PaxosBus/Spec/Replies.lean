import PaxosBus.Spec.Reading

/-!
# What replies say

A replica that has executed the requests of its log, and no others, sends replies
that speak of a log: the opnum is its length, the hash stands for its requests, and
the result is what the application answers after them. A reply that is sent again
speaks of the log that the replica had when it made the reply.

This module is about the parts of a handler that execute requests and roll them back.
-/

set_option autoImplicit false

namespace PaxosBus.Spec

open PaxosBus.Common PaxosBus.Library
open Logic (Meets)

variable {Hash : Type}

/-- A reply speaks of a log with the given requests. -/
structure SpeculativeReplyMessage.Describes (hashing : Hashing Hash)
    (answers : List Request → String) (requests : List Request)
    (reply : SpeculativeReplyMessage Hash) : Prop where
  opnum : reply.opnum = requests.length
  loghash : reply.loghash = hashing.chain requests
  reply : reply.reply = answers requests

/-- A reply speaks of some log of requests that have been made. -/
def SpeculativeReplyMessage.Backed (hashing : Hashing Hash) (answers : List Request → String)
    (asked : Request → Prop) (reply : SpeculativeReplyMessage Hash) : Prop :=
  ∃ requests, (∀ request ∈ requests, asked request) ∧ reply.Describes hashing answers requests

/-- The logic of replies: those that a handler sends speak of logs. -/
def replying (hashing : Hashing Hash) (answers : List Request → String)
    (asked : Request → Prop) : Logic Unit (Replica Hash) (Output Hash) where
  Later _ _ := True
  refl _ := trivial
  trans _ _ := trivial
  Valid _ output := ∀ destination reply, output = .send destination (.reply reply) →
    reply.Backed hashing answers asked
  mono _ valid := valid
  Keeps _ _ := True

/-- A replica has executed the requests of its log and no others. The requests that it knows of
have been made, and the replies that it has stored speak of logs. -/
structure Replica.Executed (hashing : Hashing Hash) (answers : List Request → String)
    (asked : Request → Prop) (r : Replica Hash) : Prop where
  hashed : r.log.Hashed hashing
  made : ∀ request ∈ r.log.requests, asked request
  lastSpeculative : r.lastSpeculative = r.log.requests.length
  application : r.application = r.log.requests
  replies : ∀ opnum reply, (r.entryData opnum).replyMessage = some reply →
    reply.Backed hashing answers asked
  pending : ∀ pair ∈ r.pendingRequests, asked pair.2.req
  votes : r.doViewChangeQuorum.All fun _ _ msg => ∀ entry ∈ msg.entries, asked entry.request

variable {hashing : Hashing Hash} {answers : List Request → String} {asked : Request → Prop}
  {r : Replica Hash}

/-- A message that is not a reply says nothing about logs. -/
theorem replying_valid {destination : Destination} {msg : Message Hash}
    (other : ∀ reply, msg ≠ .reply reply) :
    (replying hashing answers asked).Valid () (.send destination msg) := by
  intro _ reply same
  cases same
  exact absurd rfl (other reply)

/-- A handler whose replies speak of logs, and that leaves the replica with what it has executed. -/
def Replies (hashing : Hashing Hash) (answers : List Request → String) (asked : Request → Prop)
    {α : Type} (handler : Run Hash α) (r : Replica Hash) : Prop :=
  (replying hashing answers asked).Meets handler () r fun _ _ r' =>
    r'.Executed hashing answers asked

namespace Replica.Executed

/-- Protocol data whose reply speaks of a log can replace other. -/
theorem setEntryData (executed : r.Executed hashing answers asked) {opnum : Nat}
    {data : EntryData Hash} (backed : ∀ reply, data.replyMessage = some reply →
      reply.Backed hashing answers asked) :
    (r.setEntryData opnum data).Executed hashing answers asked :=
  { executed with
    replies := by
      intro other reply found
      by_cases here : other = opnum
      · subst here
        simp only [Replica.setEntryData, Function.update_self] at found
        exact backed reply found
      · simp only [Replica.setEntryData, Function.update_of_ne here] at found
        exact executed.replies other reply found }

/-- The requests of a part of the log have been made. -/
theorem asked_of_mem_dump (executed : r.Executed hashing answers asked) (from_ : Nat) :
    ∀ entry ∈ r.log.dump from_, asked entry.request := by
  intro entry member
  have carried := List.mem_map_of_mem (f := LogEntry.request) member
  rw [(executed.hashed.dump from_).carries] at carried
  exact executed.made _ (List.mem_of_mem_drop carried)

/-- A vote whose requests have been made can be stored. -/
theorem add_vote (executed : r.Executed hashing answers asked) {view idx : Nat}
    {msg : DoViewChangeMessage Hash} (made : ∀ entry ∈ msg.entries, asked entry.request) :
    ({ r with doViewChangeQuorum := r.doViewChangeQuorum.add view idx msg } :
      Replica Hash).Executed hashing answers asked :=
  { executed with votes := executed.votes.add made }

end Replica.Executed

/-! ## Executing requests -/

/-- What a replica is between the append of a request and its execution. -/
structure Replica.Owes (hashing : Hashing Hash) (answers : List Request → String)
    (asked : Request → Prop) (req : Request) (opnum : Nat) (r : Replica Hash) : Prop where
  hashed : r.log.Hashed hashing
  made : ∀ request ∈ r.log.requests, asked request
  lastSpeculative : r.lastSpeculative = r.log.requests.length
  opnum : opnum = r.log.requests.length
  application : r.application ++ [req] = r.log.requests
  replies : ∀ opnum reply, (r.entryData opnum).replyMessage = some reply →
    reply.Backed hashing answers asked
  pending : ∀ pair ∈ r.pendingRequests, asked pair.2.req
  votes : r.doViewChangeQuorum.All fun _ _ msg => ∀ entry ∈ msg.entries, asked entry.request

/-- A request that has been counted is appended. -/
theorem append_owes (executed : r.Executed hashing answers asked) (v : Viewstamp) {req : Request}
    (made : asked req) :
    (replying hashing answers asked).Meets (append v req) ()
      { r with lastSpeculative := r.lastSpeculative + 1 } fun _ _ r' =>
        r'.Owes hashing answers asked req v.opnum := by
  apply Meets.bind
  apply Meets.get trivial
  intro _
  apply Meets.bind
  apply Meets.demand trivial
  intro longer appended _
  obtain ⟨hashed, opnum, requests, -⟩ := executed.hashed.append appended
  have length : longer.requests.length = r.log.requests.length + 1 := by simp [requests]
  apply Meets.change trivial
  constructor
  · exact hashed
  · intro request member
    rw [requests] at member
    rcases List.mem_append.mp member with old | new
    · exact executed.made request old
    · rwa [List.mem_singleton.mp new]
  · rw [length, executed.lastSpeculative]
  · rw [length, opnum]
  · rw [requests, executed.application]
  · intro other reply found
    by_cases here : other = v.opnum
    · subst here
      simp at found
    · simp only [Function.update_of_ne here] at found
      exact executed.replies other reply found
  · exact executed.pending
  · exact executed.votes

/-- A request that has been appended is executed: the result is the application's answer. -/
theorem execute_owes {app : App} {req : Request} {opnum : Nat}
    (owes : r.Owes hashing app.execute asked req opnum) :
    (replying hashing app.execute asked).Meets (execute app req) () r fun result _ r' =>
      r'.Executed hashing app.execute asked ∧ opnum = r'.log.requests.length ∧
        result = app.execute r'.log.requests := by
  apply Meets.bind
  apply Meets.get trivial
  intro _
  apply Meets.bind
  apply Meets.change trivial
  intro _
  apply Meets.pure trivial
  have answer : app.execute (r.application ++ [req]) = app.execute r.log.requests := by
    rw [owes.application]
  exact ⟨{ owes with }, owes.opnum, answer⟩

/-- The client table has nothing to do with what has been executed; the reply is stored. -/
theorem updateClientTable_replies (executed : r.Executed hashing answers asked) (req : Request)
    (opnum : Nat) {reply : SpeculativeReplyMessage Hash}
    (backed : reply.Backed hashing answers asked) :
    (replying hashing answers asked).Meets (updateClientTable req opnum reply) () r fun _ _ r' =>
      r'.Executed hashing answers asked ∧ r'.log = r.log := by
  have stored : ∀ data : EntryData Hash, data.replyMessage = some reply →
      (r.setEntryData opnum data).Executed hashing answers asked := by
    intro data same
    apply executed.setEntryData
    intro other found
    rw [same] at found
    rwa [← Option.some.inj found]
  apply Meets.bind
  apply Meets.get trivial
  intro _
  apply Meets.bind
  apply Meets.require trivial
  intro _ _
  apply Meets.bind
  apply Meets.change trivial
  intro _
  apply Meets.branch
  · exact fun _ => Meets.change trivial ⟨{ stored _ rfl with }, rfl⟩
  · exact fun _ => Meets.change trivial ⟨{ stored _ rfl with }, rfl⟩

/-! ## Committing and rolling back -/

/-- Committing leaves the requests as they are. -/
theorem commitUpTo_replies (executed : r.Executed hashing answers asked) (upto : Nat) :
    Replies hashing answers asked (commitUpTo upto) r := by
  apply Meets.bind
  apply Meets.get trivial
  intro _
  let Inv (_ : Nat) (_ : Unit) (r' : Replica Hash) : Prop := r'.Executed hashing answers asked
  refine Meets.repeated Inv ?_ trivial executed
  intro _ _ middle _ executedNow
  apply Meets.bind
  apply Meets.change trivial
  intro _
  apply Meets.bind
  apply Meets.get trivial
  intro _
  apply Meets.bind
  apply Meets.require trivial
  intro _ _
  apply Meets.change trivial
  have requests := @Log.requests_setStatus _ middle.log (middle.lastCommitted + 1) .committed
  exact { executedNow with
    hashed := executedNow.hashed.setStatus _ _
    made := requests.symm ▸ executedNow.made
    lastSpeculative := executedNow.lastSpeculative.trans (congrArg List.length requests).symm
    application := executedNow.application.trans requests.symm }

/-- Walking back over one entry is about the client table. -/
theorem rollbackEntry_replies (executed : r.Executed hashing answers asked) (i : Nat) :
    (replying hashing answers asked).Meets (rollbackEntry i) () r fun _ _ r' =>
      r'.Executed hashing answers asked ∧ r'.lastSpeculative = r.lastSpeculative := by
  apply Meets.bind
  apply Meets.get trivial
  intro _
  apply Meets.bind
  apply Meets.demand trivial
  intro entry _ _
  apply Meets.bind
  apply Meets.require trivial
  intro _ _
  apply Meets.branch
  · intro _
    apply Meets.bind
    apply Meets.demand trivial
    exact fun _ _ _ => Meets.change trivial ⟨{ executed with }, rfl⟩
  · exact fun _ => Meets.change trivial ⟨{ executed with }, rfl⟩

/-- The application rolls back the requests that the log loses. -/
theorem rollbackTo_replies (executed : r.Executed hashing answers asked) (backto : Nat) :
    Replies hashing answers asked (rollbackTo backto) r := by
  apply Meets.bind
  apply Meets.get trivial
  intro _
  apply Meets.branch
  · exact fun _ => Meets.pure trivial executed
  intro above
  apply Meets.bind
  apply Meets.require trivial
  intro _ _
  apply Meets.bind
  apply (Meets.forEach (fun _ r' => r'.Executed hashing answers asked ∧
    r'.lastSpeculative = r.lastSpeculative) ?_ trivial ⟨executed, rfl⟩).imp
  · rintro _ _ back _ ⟨executedNow, last⟩ _
    apply Meets.bind
    apply Meets.change trivial
    intro _
    apply Meets.bind
    apply Meets.get trivial
    intro _
    apply Meets.bind
    apply Meets.demand trivial
    intro cut removed _
    apply Meets.change trivial
    obtain ⟨hashed, -, requests⟩ := executedNow.hashed.removeAfter removed
    rw [Nat.add_sub_cancel] at requests
    have length := executedNow.lastSpeculative
    exact { executedNow with
      hashed := hashed
      made := by
        intro request member
        simp only [requests] at member
        exact executedNow.made request (List.mem_of_mem_take member)
      lastSpeculative := by
        simp only [requests, List.length_take]
        omega
      application := by
        simp only [requests, executedNow.application]
        congr 1
        omega }
  · rintro i _ _ middle _ ⟨executedNow, last⟩
    apply (rollbackEntry_replies executedNow i).imp
    rintro _ _ after _ ⟨executedAfter, same⟩
    exact ⟨executedAfter, same.trans last⟩

/-! ## Installing a log -/

section Install

variable [DecidableEq Hash] {setup : Setup Hash} {app : App} {entries : List (LogEntry Hash)}

/-- Committing what the new log has committed leaves the requests as they are. -/
theorem commitMatching_replies (executed : r.Executed hashing answers asked)
    (newLastCommitted : Nat) :
    Replies hashing answers asked (commitMatching entries newLastCommitted) r := by
  apply Meets.bind
  apply Meets.get trivial
  intro _
  apply Meets.bind
  apply Meets.demand trivial
  intro toCommit _ _
  apply Meets.branch
  · intro _
    apply Meets.bind
    apply (commitUpTo_replies executed _).imp
    intro _ _ after _ executedAfter _
    apply Meets.bind
    apply Meets.get trivial
    intro _
    exact Meets.require trivial fun _ => executedAfter
  · exact fun _ => Meets.pure trivial executed

/-- What differs from the new log is rolled back. -/
theorem rollbackDiverging_replies (executed : r.Executed hashing answers asked) :
    Replies hashing answers asked (rollbackDiverging entries) r := by
  apply Meets.bind
  apply Meets.get trivial
  intro _
  apply Meets.bind
  apply Meets.demand trivial
  intro firstDiverging _ _
  apply Meets.bind
  apply (rollbackTo_replies executed _).imp
  intro _ _ after _ executedAfter _
  apply Meets.bind
  apply Meets.get trivial
  intro _
  exact Meets.require trivial fun _ => executedAfter

omit [DecidableEq Hash] in
/-- A reply about the log may be sent to a client whose address is known. -/
theorem notifyClient_replies (clientid : Nat) {reply : SpeculativeReplyMessage Hash}
    (backed : reply.Backed hashing answers asked) :
    (replying hashing answers asked).Meets (notifyClient clientid reply) () r fun _ _ r' =>
      r' = r := by
  have valid : ∀ addr : Address, (replying hashing answers asked).Valid ()
      (.send (.one addr) (.reply reply)) := by
    intro addr _ other same
    cases same
    exact backed
  apply Meets.bind
  apply Meets.get trivial
  intro _
  split
  · exact Meets.emit trivial (valid _) rfl
  · exact Meets.pure trivial rfl

/-- An entry of the new log is appended and executed, and its reply is about the log up to it. -/
theorem installEntry_replies (executed : r.Executed hashing app.execute asked)
    (made : ∀ entry ∈ entries, asked entry.request) (start i : Nat) :
    Replies hashing app.execute asked (installEntry setup app entries start i) r := by
  apply Meets.bind
  apply Meets.demand trivial
  intro newEntry there _
  have member : newEntry ∈ entries := by
    unfold entryOf at there
    split at there
    · cases there
    · exact List.mem_of_getElem? there
  apply Meets.bind
  apply Meets.change trivial
  intro _
  apply Meets.bind
  apply (append_owes executed newEntry.viewstamp (made newEntry member)).imp
  intro _ _ appended _ owes _
  apply Meets.bind
  apply (execute_owes owes).imp
  rintro result _ after _ ⟨executedAfter, opnum, answer⟩ _
  apply Meets.bind
  apply Meets.get trivial
  intro _
  have backed : SpeculativeReplyMessage.Backed hashing app.execute asked
      { clientreqid := newEntry.request.clientreqid, replicaidx := setup.replicaIdx,
        view := newEntry.viewstamp.view, opnum := newEntry.viewstamp.opnum,
        loghash := after.log.lastHash, reply := result,
        committed := newEntry.state = .committed } :=
    ⟨after.log.requests, executedAfter.made, opnum, executedAfter.hashed.lastHash, answer⟩
  apply Meets.bind
  apply (notifyClient_replies _ backed).imp
  rintro _ _ _ _ rfl _
  apply Meets.bind
  apply (updateClientTable_replies executedAfter _ _ backed).imp
  rintro _ _ updated _ ⟨executedUpdated, _⟩ _
  exact Meets.require trivial fun _ => executedUpdated

/-- What is missing is appended and executed. -/
theorem installMissing_replies (executed : r.Executed hashing app.execute asked)
    (made : ∀ entry ∈ entries, asked entry.request) :
    Replies hashing app.execute asked (installMissing setup app entries) r := by
  apply Meets.bind
  apply Meets.get trivial
  intro _
  apply Meets.bind
  apply (Meets.forEach (fun _ r' => r'.Executed hashing app.execute asked) ?_ trivial
    executed).imp
  · intro _ _ after _ executedAfter _
    apply Meets.bind
    apply Meets.get trivial
    intro _
    exact Meets.require trivial fun _ => executedAfter
  · exact fun i _ _ _ _ executedNow => installEntry_replies executedNow made _ i

/-- A log whose requests have been made is installed. -/
theorem installLog_replies (executed : r.Executed hashing app.execute asked)
    (made : ∀ entry ∈ entries, asked entry.request) :
    Replies hashing app.execute asked (installLog setup app entries) r := by
  apply Meets.bind
  apply Meets.get trivial
  intro _
  apply Meets.bind
  apply Meets.require trivial
  intro _ _
  apply Meets.bind
  apply Meets.require trivial
  intro _ _
  apply Meets.bind
  apply (commitMatching_replies executed _).imp
  intro _ _ matched _ executedMatched _
  apply Meets.bind
  apply Meets.get trivial
  intro _
  apply Meets.bind
  apply Meets.require trivial
  intro _ _
  apply Meets.bind
  apply (rollbackDiverging_replies executedMatched).imp
  intro _ _ rolled _ executedRolled _
  apply Meets.bind
  apply (installMissing_replies executedRolled made).imp
  intro _ _ whole _ executedWhole _
  apply Meets.bind
  apply (commitUpTo_replies executedWhole _).imp
  intro _ _ after _ executedAfter _
  apply Meets.bind
  apply Meets.get trivial
  intro _
  exact Meets.require trivial fun _ => executedAfter

end Install

end PaxosBus.Spec

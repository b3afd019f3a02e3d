import PaxosBus.Spec.Replying
import PaxosBus.Spec.Syncing

/-!
# What a client compares

A reply speaks of a log, and its hash stands for that log: replies with one hash have
one opnum and one result. The hash does not cover the view, and a client that has
seen a higher view still stores replies of the views before. Where no reply of an
older view comes after one of a newer view, all replies that are stored are of one
view, and `HandleReply` never finds two that should match and do not.
-/

set_option autoImplicit false

namespace PaxosBus.Common

variable {Hash : Type} {hashing : Hashing Hash}

/-- The hash of the empty log is no digest. -/
def Hashing.Fresh (hashing : Hashing Hash) : Prop :=
  ∀ lastHash request, hashing.computeHash lastHash request ≠ hashing.emptyHash

/-- Where no two inputs have one digest, and none has the hash of the empty log, logs with one hash
have the same request ids. -/
theorem Hashing.CollisionFree.map_reqid_of_chain_eq (free : hashing.CollisionFree)
    (fresh : hashing.Fresh) {mine theirs : List Request}
    (same : hashing.chain mine = hashing.chain theirs) :
    mine.map Request.reqid = theirs.map Request.reqid := by
  apply free.map_reqid_of_chain _ same
  induction mine using List.reverseRecOn generalizing theirs with
  | nil =>
      obtain rfl | ⟨before, other, rfl⟩ := List.eq_nil_or_concat theirs
      · rfl
      · rw [List.concat_eq_append, Hashing.chain_concat, Hashing.chain_nil] at same
        exact absurd same.symm (fresh _ _)
  | append_singleton mine last inductionHypothesis =>
      obtain rfl | ⟨before, other, rfl⟩ := List.eq_nil_or_concat theirs
      · rw [Hashing.chain_concat, Hashing.chain_nil] at same
        exact absurd same (fresh _ _)
      · rw [List.concat_eq_append, Hashing.chain_concat, Hashing.chain_concat] at same
        have shorter := inductionHypothesis (free.lastHash same)
        simp [shorter]

end PaxosBus.Common

namespace PaxosBus.Spec

open PaxosBus.Common PaxosBus.Library
open Logic (Meets)
open Std (TreeMap)

variable {Hash : Type} {d : Deployment Hash} {answers : List Request → String}

/-- Replies with one hash have one opnum and one result. -/
theorem SpeculativeReplyMessage.Backed.same (free : d.hashing.CollisionFree)
    (fresh : d.hashing.Fresh) {one other : SpeculativeReplyMessage Hash}
    (backed : one.Backed d.hashing answers d.Made) (backed' : other.Backed d.hashing answers d.Made)
    (loghash : one.loghash = other.loghash) :
    other.opnum = one.opnum ∧ other.reply = one.reply := by
  obtain ⟨mine, made, describes⟩ := backed
  obtain ⟨theirs, made', describes'⟩ := backed'
  have chains : d.hashing.chain mine = d.hashing.chain theirs := by
    rw [← describes.loghash, loghash, describes'.loghash]
  have requests : mine = theirs :=
    Deployment.eq_of_reqids made made' (free.map_reqid_of_chain_eq fresh chains)
  constructor
  · rw [describes.opnum, describes'.opnum, requests]
  · rw [describes.reply, describes'.reply, requests]

namespace Client

variable {c : Client Hash} {msg : SpeculativeReplyMessage Hash}

/-- A reply that `HandleReply` stores: it is speculative, and for the pending request. -/
def Takes (c : Client Hash) (msg : SpeculativeReplyMessage Hash) : Prop :=
  c.pendingRequest = some msg.clientreqid ∧ msg.committed = false

/-- The replies to the pending request once `HandleReply` has stored another one. -/
def stored (c : Client Hash) (msg : SpeculativeReplyMessage Hash) :
    TreeMap Nat (SpeculativeReplyMessage Hash) :=
  ((c.seeView msg.view).speculativeReplyQuorum.add msg.clientreqid msg.replicaidx
    msg).messages msg.clientreqid

/-- A reply that is stored does not come after one of a newer view. -/
def InOrder (c : Client Hash) (msg : SpeculativeReplyMessage Hash) : Prop :=
  c.Takes msg → c.view ≤ msg.view

instance (c : Client Hash) (msg : SpeculativeReplyMessage Hash) : Decidable (c.InOrder msg) :=
  inferInstanceAs (Decidable (c.pendingRequest = some msg.clientreqid ∧ msg.committed = false →
    c.view ≤ msg.view))

/-- The stored replies with one hash are the same in all that `HandleReply` asserts, and it does not
stop the client. -/
structure Compares [DecidableEq Hash] (configuration : Configuration) (c : Client Hash)
    (msg : SpeculativeReplyMessage Hash) : Prop where
  agree : c.Takes msg → ∀ (idx idx' : Nat) one other, (c.stored msg)[idx]? = some one →
    (c.stored msg)[idx']? = some other → one.loghash = other.loghash → one.Agrees other
  running : (c.handleReply configuration msg).1.stopped = c.stopped

/-- What a client has stored: replies that speak of logs, under their own ids, of the highest view it
has seen. -/
structure Consistent (d : Deployment Hash) (answers : List Request → String) (c : Client Hash) :
    Prop where
  backed : c.speculativeReplyQuorum.All fun clientreqid _ reply =>
    reply.clientreqid = clientreqid ∧ reply.Backed d.hashing answers d.Made
  views : c.speculativeReplyQuorum.All fun _ _ reply => reply.view = c.view

/-- A client that has forgotten all replies. -/
theorem Consistent.cleared {quorum : QuorumSet Nat (SpeculativeReplyMessage Hash)}
    (empty : c.speculativeReplyQuorum = quorum.clear) : c.Consistent d answers where
  backed := empty ▸ QuorumSet.all_clear
  views := empty ▸ QuorumSet.all_clear

/-- Seeing a view only forgets. -/
theorem Consistent.seeView (consistent : c.Consistent d answers) (view : Nat) :
    (c.seeView view).Consistent d answers := by
  unfold Client.seeView
  split
  · exact .cleared rfl
  · exact consistent

/-- A reply that does not come after one of a newer view is of the highest view seen. -/
theorem view_seeView (inOrder : c.view ≤ msg.view) : msg.view = (c.seeView msg.view).view := by
  unfold Client.seeView
  split
  · rfl
  · rename_i seen
    exact Nat.le_antisymm (Nat.le_of_not_lt seen) inOrder

/-- A reply of the highest view seen can be stored. -/
theorem Consistent.add (consistent : c.Consistent d answers)
    (backed : msg.Backed d.hashing answers d.Made) (view : msg.view = c.view) :
    ({ c with
       speculativeReplyQuorum := c.speculativeReplyQuorum.add msg.clientreqid msg.replicaidx msg } :
      Client Hash).Consistent d answers where
  backed := consistent.backed.add ⟨rfl, backed⟩
  views := consistent.views.add view

variable [DecidableEq Hash] (configuration : Configuration)

/-- A client that stores a reply is left with it, or with nothing stored. -/
theorem collect_quorum (c : Client Hash) (msg : SpeculativeReplyMessage Hash) :
    (c.collect configuration msg).1.speculativeReplyQuorum =
        c.speculativeReplyQuorum.add msg.clientreqid msg.replicaidx msg ∨
      ∃ quorum : QuorumSet Nat (SpeculativeReplyMessage Hash),
        (c.collect configuration msg).1.speculativeReplyQuorum = quorum.clear := by
  unfold collect
  simp only
  split
  · exact .inl rfl
  · split
    · split
      · exact .inr ⟨_, rfl⟩
      · exact .inl rfl
    · exact .inl rfl

/-- Storing a reply leaves the highest view as it is. -/
theorem collect_view (c : Client Hash) (msg : SpeculativeReplyMessage Hash) :
    (c.collect configuration msg).1.view = c.view := by
  unfold collect
  simp only
  split
  · rfl
  · split
    · split
      · rfl
      · rfl
    · rfl

/-- A client stops at a reply only where it has stored one with the same hash that does not agree. -/
theorem collect_running (c : Client Hash) {msg : SpeculativeReplyMessage Hash}
    (agree : ∀ (idx : Nat) other, ((c.speculativeReplyQuorum.add msg.clientreqid msg.replicaidx
      msg).messages msg.clientreqid)[idx]? = some other → other.loghash = msg.loghash →
        msg.Agrees other) :
    (c.collect configuration msg).1.stopped = c.stopped := by
  unfold collect
  simp only
  split
  · rfl
  next msgs enough =>
      have all : ∀ other ∈ msgs.values.filter (·.loghash = msg.loghash), msg.Agrees other := by
        intro other member
        obtain ⟨inValues, loghash⟩ := List.mem_filter.mp member
        obtain ⟨idx, found⟩ := mem_values.mp inValues
        unfold QuorumSet.addAndCheckForQuorum QuorumSet.checkForQuorum at enough
        simp only at enough
        split at enough
        · rw [← Option.some.inj enough] at found
          exact agree idx other found (of_decide_eq_true loghash)
        · nomatch enough
      rw [if_pos all]
      split
      · rfl
      · rfl

/-- What `HandleReply` compares and leaves behind. -/
theorem Consistent.handleReply (free : d.hashing.CollisionFree) (fresh : d.hashing.Fresh)
    (consistent : c.Consistent d answers) (backed : msg.Backed d.hashing answers d.Made)
    (inOrder : c.InOrder msg) :
    c.Compares configuration msg ∧ (c.handleReply configuration msg).1.Consistent d answers := by
  have seen := consistent.seeView msg.view
  have running : (c.seeView msg.view).stopped = c.stopped := by
    unfold Client.seeView
    split
    · rfl
    · rfl
  have agree : c.Takes msg → ∀ (idx idx' : Nat) one other, (c.stored msg)[idx]? = some one →
      (c.stored msg)[idx']? = some other → one.loghash = other.loghash → one.Agrees other := by
    intro takes idx idx' one other found found' loghash
    have added := seen.add backed (view_seeView (inOrder takes))
    obtain ⟨id, backedOne⟩ := added.backed _ idx one found
    obtain ⟨id', backedOther⟩ := added.backed _ idx' other found'
    obtain ⟨opnum, reply⟩ := backedOne.same free fresh backedOther loghash
    have view : one.view = _ := added.views _ idx one found
    have view' : other.view = _ := added.views _ idx' other found'
    exact ⟨id'.trans id.symm, view'.trans view.symm, opnum, reply⟩
  unfold Client.handleReply
  split
  · rename_i pending
    split
    · rename_i committed
      refine ⟨⟨agree, ?_⟩, .cleared rfl⟩
      unfold Client.handleReply
      rw [if_pos pending, if_pos committed]
      exact running
    · rename_i speculative
      have takes : c.Takes msg := ⟨pending, Bool.eq_false_iff.mpr speculative⟩
      have same : ∀ (idx : Nat) other, (c.stored msg)[idx]? = some other →
          other.loghash = msg.loghash → msg.Agrees other := by
        intro idx other found loghash
        exact agree takes msg.replicaidx idx msg other (QuorumSet.getElem?_add_self _ _ _) found
          loghash.symm
      constructor
      · refine ⟨agree, ?_⟩
        unfold Client.handleReply
        rw [if_pos pending, if_neg speculative, collect_running configuration _ same]
        exact running
      · rcases collect_quorum configuration (c.seeView msg.view) msg with
          kept | ⟨quorum, cleared⟩
        · have added := seen.add backed (view_seeView (inOrder takes))
          constructor
          · exact kept ▸ added.backed
          · rw [collect_view, kept]
            exact added.views
        · exact .cleared cleared
  · rename_i other
    refine ⟨⟨agree, ?_⟩, consistent⟩
    unfold Client.handleReply
    rw [if_neg other]

end Client

namespace System

variable {s next : System Hash}

/-- Every replica has executed its log, every reply in transit speaks of a log, and what the clients
have stored is consistent. -/
structure Truthful (d : Deployment Hash) (answers : List Request → String) (s : System Hash) :
    Prop where
  replicas : ∀ idx, s.stopped idx = false →
    (s.replicas idx).Executed d.hashing answers d.Made
  replies : ∀ packet ∈ s.network, ∀ reply, packet.msg = .reply reply →
    reply.Backed d.hashing answers d.Made
  clients : ∀ clientid, (s.clients clientid).Consistent d answers

/-- The application answers as given. -/
def Answering (answers : List Request → String) (_ : System Hash) : Action → Prop
  | .deliver _ app => app.execute = answers
  | _ => True

/-- The client that a packet brings a reply to, and the reply. -/
def replyTo : Packet Hash → Option (Nat × SpeculativeReplyMessage Hash)
  | ⟨_, .client clientid, .reply msg⟩ => some (clientid, msg)
  | _ => none

/-- The steps at which no client stores a reply that comes after one of a newer view. -/
def StoresInOrder (s : System Hash) : Action → Prop
  | .deliver position _ => ∀ reply ∈ (s.network[position]?).bind replyTo,
    (s.clients reply.1).InOrder reply.2
  | _ => True

instance (s : System Hash) (action : Action) : Decidable (s.StoresInOrder action) :=
  match action with
  | .deliver position _ =>
    inferInstanceAs (Decidable (∀ reply ∈ (s.network[position]?).bind replyTo,
      (s.clients reply.1).InOrder reply.2))
  | .invoke .. | .resend .. | .invokeUnlogged .. | .unloggedTimeout .. | .timer .. => .isTrue trivial

/-- The application answers as given, and no reply is stored after one of a newer view has come. -/
def RepliesInOrder (answers : List Request → String) (s : System Hash) (action : Action) : Prop :=
  s.Answering answers action ∧ s.StoresInOrder action

/-- A handler that replies with logs keeps replies truthful. -/
theorem Truthful.absorb (truthful : s.Truthful d answers) {idx : Nat} {handler : Run Hash Unit}
    (replies : Replies d.hashing answers d.Made handler (s.replicas idx)) :
    (s.absorb d idx (handler (s.replicas idx))).Truthful d answers where
  replicas other going := by
    by_cases here : other = idx
    · subst here
      obtain ⟨_, -, -, -, executed⟩ := replies
      rw [replicas_absorb_self]
      exact executed () (ended_of_absorb going)
    · rw [stopped_absorb_of_ne here] at going
      rw [replicas_absorb_of_ne here]
      exact truthful.replicas other going
  replies packet inNetwork reply same := by
    rcases List.mem_append.mp inNetwork with old | new
    · exact truthful.replies packet old reply same
    · obtain ⟨output, emitted, posted⟩ := List.mem_flatMap.mp new
      obtain ⟨_, -, valid, -, -⟩ := replies
      have sends : ∃ destination, output = .send destination packet.msg := by
        cases output with
        | send destination msg =>
            cases destination with
            | one addr => exact ⟨_, by rw [List.mem_singleton.mp posted]⟩
            | others =>
                obtain ⟨other, -, rfl⟩ := List.mem_map.mp posted
                exact ⟨_, rfl⟩
        | answering replicaIdx msg status view log =>
            rw [List.mem_singleton.mp posted] at same
            nomatch same
        | read _ _ => nomatch posted
        | entering _ _ => nomatch posted
        | committing _ _ _ _ _ => nomatch posted
      obtain ⟨destination, rfl⟩ := sends
      exact valid _ emitted destination reply (by rw [same])
  clients := truthful.clients

/-- A step of a client sends no reply. -/
theorem Truthful.aside (truthful : s.Truthful d answers) (aside : Aside d s next)
    (clients : ∀ clientid, (next.clients clientid).Consistent d answers) :
    next.Truthful d answers where
  replicas idx going := by
    rw [aside.stopped] at going
    rw [aside.replicas]
    exact truthful.replicas idx going
  replies packet inNetwork reply same := by
    obtain ⟨more, grown, ofClient⟩ := aside.network
    rw [grown] at inNetwork
    rcases List.mem_append.mp inNetwork with old | new
    · exact truthful.replies packet old reply same
    · have sent := ofClient packet new
      rw [same] at sent
      exact sent.elim
  clients := clients

/-- One client changes, and is consistent. -/
theorem consistent_update (truthful : s.Truthful d answers) {clientid : Nat} {client : Client Hash}
    (consistent : client.Consistent d answers) (other : Nat) :
    (Function.update s.clients clientid client other).Consistent d answers := by
  by_cases here : other = clientid
  · subst here
    rwa [Function.update_self]
  · rw [Function.update_of_ne here]
    exact truthful.clients other

/-- A packet in transit to a replica brings requests that have been made. -/
theorem brings_of_coherent (coherent : s.Coherent d) {packet : Packet Hash}
    (inNetwork : packet ∈ s.network) : Brings d.Made packet.msg := by
  obtain ⟨src, dst, msg⟩ := packet
  have supports := coherent.packets _ inNetwork
  cases msg with
  | request msg => exact supports
  | doViewChange msg => exact supports.2
  | startView msg =>
      obtain ⟨requests, honest, made, -, -⟩ := supports
      intro entry member
      obtain ⟨skipped, piece⟩ := honest.piece
      have carried := List.mem_map_of_mem (f := LogEntry.request) member
      rw [piece.carries] at carried
      exact made _ (List.mem_of_mem_drop carried)
  | reply msg => trivial
  | unloggedRequest msg => trivial
  | unloggedReply msg => trivial
  | sync msg => trivial
  | syncReply msg => trivial
  | requestViewChange msg => trivial
  | startViewChange msg => trivial
  | inView msg => trivial
  | fillLogGap msg => trivial
  | fillDVCGap msg => trivial

/-- Nothing has been executed, sent or stored before anything has happened. -/
theorem truthful_initial (d : Deployment Hash) : (initial d : System Hash).Truthful d answers where
  replicas idx _ := {
    hashed := .new
    made := fun _ none_ => nomatch none_
    lastSpeculative := rfl
    application := rfl
    replies := fun _ _ none_ => nomatch none_
    pending := fun _ none_ => nomatch none_
    votes := fun _ _ _ none_ => by simp [initial, Replica.constructed] at none_ }
  replies _ none_ := nomatch none_
  clients clientid := Client.Consistent.cleared
    (show (Client.constructed d.configuration).speculativeReplyQuorum =
      QuorumSet.clear { numRequired := d.configuration.fastQuorumSize } from rfl)

variable [LinearOrder Hash]

/-- Every state that such a run reaches is truthful. -/
theorem truthful_invariant (free : d.hashing.CollisionFree) (fresh : d.hashing.Fresh) :
    (system d).Invariant (RepliesInOrder answers) fun s => s.Coherent d ∧ s.Truthful d answers where
  initial state first := first ▸ ⟨coherent_initial d, truthful_initial d⟩
  preserved {s action next} invariant allowed stepped := by
    obtain ⟨coherent, truthful⟩ := invariant
    have onward : next.Coherent d :=
      (coherent_invariant TransitionSystem.unguarded).preserved coherent trivial stepped
    refine ⟨onward, ?_⟩
    cases moves_of_step stepped with
    | @invoke clientid running =>
        apply truthful.aside (aside_invoked _)
        intro other
        have consistent : ((s.clients clientid).invoke).Consistent d answers := by
          have before := truthful.clients clientid
          unfold Client.invoke
          split
          · exact ⟨before.backed, before.views⟩
          · exact ⟨before.backed, before.views⟩
        have changed : (s.invoked d clientid).clients =
            Function.update s.clients clientid (s.clients clientid).invoke := by
          unfold invoked
          simp only
          split
          · rfl
          · rfl
        rw [changed]
        exact consistent_update truthful consistent other
    | resend running pending => exact truthful.aside (aside_requested _ _) truthful.clients
    | @invokeUnlogged clientid idx op running =>
        apply truthful.aside (aside_askedUnlogged _ _ _)
        have consistent : ((s.clients clientid).invokeUnlogged).Consistent d answers := by
          have before := truthful.clients clientid
          unfold Client.invokeUnlogged
          split
          · exact ⟨before.backed, before.views⟩
          · exact ⟨before.backed, before.views⟩
        exact consistent_update truthful consistent
    | @unloggedTimeout clientid running =>
        apply truthful.aside (aside_endedUnlogged _)
        have before := truthful.clients clientid
        exact consistent_update truthful ⟨before.backed, before.views⟩
    | @unloggedReply position app src clientid msg found running =>
        apply truthful.aside (aside_endedUnlogged _)
        have before := truthful.clients clientid
        exact consistent_update truthful ⟨before.backed, before.views⟩
    | @reply position app src clientid msg found running =>
        apply truthful.aside (aside_replied _ _)
        have backed := truthful.replies _ (List.mem_of_getElem? found) msg rfl
        have handled := (truthful.clients clientid).handleReply d.configuration free fresh backed
          (allowed.2 (clientid, msg) (by rw [found]; rfl))
        exact consistent_update truthful handled.2
    | @receive position app src idx msg found inGroup running =>
        obtain rfl : app.execute = answers := allowed.1
        exact truthful.absorb (receiveMessage_replies (truthful.replicas idx running) src
          (brings_of_coherent coherent (List.mem_of_getElem? found)))
    | @fire idx timer active inGroup running =>
        have executed := truthful.replicas idx running
        have replies : Replies d.hashing answers d.Made (fireTimer (d.setup idx) timer)
            (s.replicas idx) := @fireTimer_replies _ _ _ _ { execute := answers } _ executed timer
        exact truthful.absorb replies

/-- A reply that comes to a client is compared with replies that agree. -/
def Compared (d : Deployment Hash) (s : System Hash) (clientid : Nat)
    (msg : SpeculativeReplyMessage Hash) : Prop :=
  (s.clients clientid).Compares d.configuration msg

/-- In every run with an application that answers by what it has executed, in which no client stores
a reply after one of a newer view has come: whatever `HandleReply` compares agrees, and none of its
assertions fails. -/
theorem compares_of_inOrder (free : d.hashing.CollisionFree) (fresh : d.hashing.Fresh)
    (reachable : (system d).Reachable (RepliesInOrder answers) s) {position : Nat} {app : App}
    {src : Address} {clientid : Nat} {msg : SpeculativeReplyMessage Hash}
    (found : s.network[position]? =
      some { src := src, dst := .client clientid, msg := .reply msg })
    (allowed : s.RepliesInOrder answers (.deliver position app)) :
    s.Compared d clientid msg := by
  obtain ⟨-, truthful⟩ := (truthful_invariant free fresh).of_reachable reachable
  have backed := truthful.replies _ (List.mem_of_getElem? found) msg rfl
  exact ((truthful.clients clientid).handleReply d.configuration free fresh backed
    (allowed.2 (clientid, msg) (by rw [found]; rfl))).1

/-- No digest of a log that is spelled out is the empty one. -/
theorem spelling_fresh : spelling.Fresh := by
  intro lastHash request same
  nomatch same

/-- The client holds two replies, and the packet at position 5 is the one that completes its
request. -/
def completesClient (s : System (List Nat)) : Bool :=
  let _ : DecidableEq (List Nat) := LinearOrder.toDecidableEq
  match (s.network[5]? : Option (Packet (List Nat))) with
  | some ⟨.replica 2, .client 0, .reply msg⟩ =>
    ((s.clients 0).speculativeReplyQuorum.messages 1).size = 2 &&
      ((s.clients 0).handleReply trio.configuration msg).2 = some (.completed msg)
  | _ => false

set_option maxRecDepth 20000 in
/-- In a group of three, the replies of two replicas have come to the client, and the one of the
third completes the fast quorum. -/
theorem compares_of_inOrder_trio : ∃ s msg,
    (system trio).Reachable (RepliesInOrder fun _ => "") s ∧ completesClient s = true ∧
      s.network[5]? = some { src := .replica 2, dst := .client 0, msg := .reply msg } ∧
        s.Compared trio 0 msg := by
  let actions : List Action :=
    [.invoke 0, .deliver 0 {}, .deliver 1 {}, .deliver 2 {}, .deliver 3 {}, .deliver 4 {}]
  have executed : ((system trio).run StoresInOrder (initial trio) actions).any
      (fun s => completesClient s && decide (s.StoresInOrder (.deliver 5 {}))) = true := by
    decide +kernel
  obtain ⟨s, final, holds⟩ := (Option.any_eq_true _ _).mp executed
  obtain ⟨completes, inOrder⟩ := Bool.and_eq_true_iff.mp holds
  have reachable : (system trio).Reachable (RepliesInOrder fun _ => "") s := by
    refine ⟨_, actions, rfl, (TransitionSystem.steps_of_run final).of_forall ?_⟩
    simp [actions, RepliesInOrder, Answering]
  have third := completes
  unfold completesClient at third
  split at third
  next msg found =>
      have allowed : s.RepliesInOrder (fun _ => "") (.deliver 5 {}) :=
        ⟨rfl, of_decide_eq_true inOrder⟩
      exact ⟨s, msg, reachable, completes, found,
        compares_of_inOrder spelling_collisionFree spelling_fresh reachable found allowed⟩
  next => cases third

/-- The first client runs, and the packet at position 3 is a reply at which it stops. -/
def stopsClient (s : System (List Nat)) : Bool :=
  let _ : DecidableEq (List Nat) := LinearOrder.toDecidableEq
  match (s.network[3]? : Option (Packet (List Nat))) with
  | some ⟨_, .client 0, .reply msg⟩ =>
    ((s.clients 0).handleReply trio.configuration msg).1.stopped && !(s.clients 0).stopped
  | _ => false

set_option maxRecDepth 20000 in
/-- Replica 0 executes a request in view 0 and the others execute it in view 1, at the same opnum. The
client gets the replies of view 1 and then the late one of view 0, which has the same hash: it
stops. -/
theorem not_compares_trio : ¬ ∀ (s : System (List Nat)) (position : Nat) (src : Address)
    (clientid : Nat) (msg : SpeculativeReplyMessage (List Nat)),
      (system trio).Reachable (Answering fun _ => "") s →
        s.network[position]? = some { src := src, dst := .client clientid, msg := .reply msg } →
          s.Compared trio clientid msg := by
  intro all
  let _ : DecidableEq (List Nat) := LinearOrder.toDecidableEq
  let actions : List Action :=
    [.invoke 0, .deliver 0 {}, .timer 1 .viewChange, .deliver 5 {}, .deliver 7 {}, .deliver 8 {},
      .deliver 10 {}, .deliver 1 {}, .deliver 2 {}, .deliver 12 {}, .deliver 13 {}]
  have executed : ((system trio).run TransitionSystem.unguarded (initial trio) actions).any
      stopsClient = true := by decide +kernel
  obtain ⟨s, final, stopping⟩ := (Option.any_eq_true _ _).mp executed
  have answering : (system trio).Reachable (Answering fun _ => "") s := by
    refine ⟨_, actions, rfl, (TransitionSystem.steps_of_run final).of_forall ?_⟩
    simp [actions, Answering]
  unfold stopsClient at stopping
  split at stopping
  next src msg found =>
      have same := (all s 3 src 0 msg answering found).running
      simp [same] at stopping
  next => cases stopping

end System

end PaxosBus.Spec

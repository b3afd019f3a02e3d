import PaxosBus.Spec.Syncing

/-!
# The commits by `InViewMessage`s

A replica that says it is in a view has entered it, with the log that the leader
had when it sent the view; the replicas may have been sent logs of different
lengths. The leader counts the messages of the view and commits up to what the
last one says, so the quorum holds the log up to there only if the others say as
much. A replica that has committed as far as the log goes does not look at it.
-/

set_option autoImplicit false

namespace PaxosBus.Spec

open PaxosBus.Common PaxosBus.Library
open Logic (Meets)

variable {Hash : Type}

/-! ## Where an `InViewMessage` comes from -/

section Adopt

variable [DecidableEq Hash] {setup : Setup Hash} {terms : Terms Hash} {r : Replica Hash} {app : App}
  {msg : StartViewMessage Hash} {join : InViewMessage} {destination : Destination}

omit [DecidableEq Hash] in
/-- A part of a handler that keeps to terms which admit no `InViewMessage` sends none. -/
theorem not_mem_of_meets {α : Type} {handler : Run Hash α} {w : Standing}
    {Post : α → Standing → Replica Hash → Prop} (forbids : ¬ terms.joins join)
    (meets : (conduct setup terms).Meets handler w r Post) :
    .send destination (.inView join) ∉ (handler r).outputs := by
  intro sent
  obtain ⟨final, -, valid, -⟩ := meets
  obtain ⟨-, -, joins⟩ := valid _ sent
  exact forbids joins

omit [DecidableEq Hash] in
/-- Entering a view is marked first. -/
theorem entering_of_enterView (newview : Nat) :
    .entering newview r.log.entries ∈ (enterView setup app newview r).outputs := by
  have marked : Output.entering newview r.log.entries ∈
      (Handler.emit (.entering newview r.log.entries)
        { r with view := newview, status := .normal }).outputs := List.mem_singleton_self _
  exact Handler.mem_outputs_bind_of_ended rfl
    (Handler.mem_outputs_bind_of_ended rfl (Handler.mem_outputs_bind marked))

/-- The terms as they are, but for `InViewMessage`s, of which none is admitted. -/
def Terms.unjoined (terms : Terms Hash) : Terms Hash := { terms with joins := fun _ => False }

/-- A replica that says it is in a view has adopted the log it was sent, and enters the view with
that, unless an assertion fails in between. -/
structure JoinsBy (setup : Setup Hash) (terms : Terms Hash) (msg : StartViewMessage Hash)
    (join : InViewMessage) (outputs : List (Output Hash)) (r installed adopted : Replica Hash) :
    Prop where
  installs : r.Installs setup terms.unjoined msg.entries installed
  commits : installed.Commits setup terms.unjoined msg.lastcommitted adopted
  view : join.view = msg.view
  lastspeculative : join.lastspeculative = msg.lastspeculative
  replicaidx : join.replicaidx = setup.replicaIdx
  enters : adopted.lastSpeculative = msg.lastspeculative →
    .entering msg.view adopted.log.entries ∈ outputs

omit [DecidableEq Hash] in
/-- Nothing after the `InViewMessage` is one. -/
theorem not_mem_of_finishAdopting (sound : r.Sound setup terms) :
    .send destination (.inView join) ∉ ((do
      let r ← Handler.get
      Handler.require (r.lastSpeculative = msg.lastspeculative)
      Handler.require (msg.lastcommitted ≤ r.lastCommitted)
      enterView setup app msg.view
      let r ← Handler.get
      Handler.require (¬ setup.AmLeader r.view) : Run Hash Unit) r).outputs := by
  have soundHere : r.Sound setup terms.unjoined :=
    sound.imp_terms (fun _ sent => sent) fun _ made => made
  let entered : Standing :=
    { status := .normal, view := msg.view, lastCommitted := r.lastCommitted,
      requests := r.log.requests }
  have meets : (conduct setup terms.unjoined).Meets (do
      let r ← Handler.get
      Handler.require (r.lastSpeculative = msg.lastspeculative)
      Handler.require (msg.lastcommitted ≤ r.lastCommitted)
      enterView setup app msg.view
      let r ← Handler.get
      Handler.require (¬ setup.AmLeader r.view)) entered r fun _ _ _ => True := by
    refine .bind (.get trivial fun _ => .bind (.require trivial fun _ _ => ?_))
    refine .bind (.require trivial fun _ _ => .bind ((enterView_meets soundHere.log
      soundHere.quorate soundHere.pending (.refl entered)).imp ?_))
    exact fun _ _ _ _ _ _ => .bind (.get trivial fun _ => .require trivial fun _ => trivial)
  exact not_mem_of_meets (fun none_ => none_) meets

/-- Where the `InViewMessage` of `HandleStartView` comes from. -/
theorem exists_joinsBy_of_adoptView (sound : r.Sound setup terms)
    (asked : ∀ entry ∈ msg.entries, terms.asked entry.request)
    (sent : .send destination (.inView join) ∈ (adoptView setup app msg r).outputs) :
    ∃ installed adopted, JoinsBy setup terms msg join (adoptView setup app msg r).outputs r
      installed adopted := by
  have soundHere : r.Sound setup terms.unjoined :=
    sound.imp_terms (fun _ sent => sent) fun _ made => made
  have forbids : ¬ terms.unjoined.joins join := fun none_ => none_
  have installing : (conduct setup terms.unjoined).Meets (installLog setup app msg.entries)
      r.standing r _ := installLog_meets soundHere.log asked
  generalize all : (adoptView setup app msg r).outputs = outputs
  unfold adoptView at sent all
  rcases Handler.of_mem_outputs_bind sent with early | ⟨⟨⟩, converted, sent⟩
  · rw [Handler.outputs_require] at early
    nomatch early
  rw [Handler.state_require] at sent
  rcases Handler.of_mem_outputs_bind sent with early | ⟨⟨⟩, ended, sent⟩
  · exact absurd early (not_mem_of_meets forbids installing)
  obtain ⟨_, _, _, _, post⟩ := installing
  obtain ⟨-, installs⟩ := post () ended
  have committing : (conduct setup terms.unjoined).Meets (commitUpTo msg.lastcommitted)
      r.standing (installLog setup app msg.entries r).state _ :=
    commitUpTo_meets installs.sound msg.lastcommitted
  rcases Handler.of_mem_outputs_bind sent with early | ⟨⟨⟩, finished, sent⟩
  · exact absurd early (not_mem_of_meets forbids committing)
  obtain ⟨_, _, _, _, post⟩ := committing
  obtain ⟨-, commits⟩ := post () finished
  have undisturbed := installs.undisturbed.trans commits.undisturbed
  have steady := soundHere.of_undisturbed undisturbed commits.sound (by
    have := installs.lastCommitted
    have := commits.lastCommitted
    omega)
  rcases Handler.of_mem_outputs_bind sent with here | ⟨⟨⟩, -, late⟩
  · obtain ⟨-, same⟩ := Output.send.inj (List.mem_singleton.mp here)
    obtain rfl := Message.inView.inj same
    refine ⟨_, _, installs, commits, rfl, rfl, rfl, fun reached => ?_⟩
    have far := commits.lastCommitted
    rw [← all]
    apply Handler.mem_outputs_bind_of_ended converted
    rw [Handler.state_require]
    apply Handler.mem_outputs_bind_of_ended ended
    apply Handler.mem_outputs_bind_of_ended finished
    apply Handler.mem_outputs_bind_of_ended rfl
    apply Handler.mem_outputs_bind_of_ended rfl
    apply Handler.mem_outputs_bind_of_ended (Handler.value_require reached)
    rw [Handler.state_require]
    apply Handler.mem_outputs_bind_of_ended (Handler.value_require (far ▸ Nat.le_max_right _ _))
    rw [Handler.state_require]
    exact Handler.mem_outputs_bind (entering_of_enterView msg.view)
  · exact absurd late (not_mem_of_finishAdopting steady)

omit [DecidableEq Hash] in
/-- Asking for a longer log is no `InViewMessage`. -/
theorem not_mem_of_fillLogGap {remote : Address} {gap : FillLogGapMessage} :
    .send destination (.inView join) ∉
      ((sendMessage remote (.fillLogGap gap) : Run Hash Unit) r).outputs := by
  intro sent
  obtain ⟨-, same⟩ := Output.send.inj (List.mem_singleton.mp sent)
  nomatch same

/-- A replica that says it is in a view has adopted the log. -/
theorem outputs_handleStartView {remote : Address}
    (sent : .send destination (.inView join) ∈ (handleStartView setup app remote msg r).outputs) :
    (handleStartView setup app remote msg r).outputs = (adoptView setup app msg r).outputs := by
  unfold handleStartView at sent ⊢
  rw [Handler.get_bind] at sent ⊢
  by_cases past : msg.view < r.view
  · rw [if_pos past] at sent
    nomatch sent
  by_cases closed : msg.view = r.view ∧ r.status ≠ .viewChange
  · rw [if_neg past, if_pos closed] at sent
    nomatch sent
  rw [if_neg past, if_neg closed, Handler.require_bind] at sent ⊢
  by_cases follower : ¬ setup.AmLeader msg.view
  · rw [if_pos follower] at sent ⊢
    cases first : msg.entries.head? with
    | none => rfl
    | some entry =>
        simp only [first] at sent ⊢
        by_cases gap : r.lastCommitted + 1 < entry.viewstamp.opnum
        · rw [if_pos gap] at sent ⊢
          by_cases short : r.lastSpeculative < entry.viewstamp.opnum
          · rw [if_pos short] at sent
            exact absurd sent not_mem_of_fillLogGap
          · rw [if_neg short, Handler.demand_bind] at sent ⊢
            cases found : r.log.find entry.viewstamp.opnum with
            | none =>
                rw [found] at sent
                nomatch sent
            | some mine =>
                simp only [found] at sent ⊢
                by_cases differs : entry.hash ≠ mine.hash
                · rw [if_pos differs] at sent
                  exact absurd sent not_mem_of_fillLogGap
                · rw [if_neg differs]
        · rw [if_neg gap]
  · rw [if_neg follower] at sent
    nomatch sent

end Adopt

variable {d : Deployment Hash}

namespace System

/-- What an `InViewMessage` is for: its sender has entered the view with a log that the leader had in
the view, if the leader is still there. -/
def JoinBacked (d : Deployment Hash) (s : System Hash) (join : InViewMessage) : Prop :=
  ∃ entrance ∈ s.entrances, entrance.idx = join.replicaidx ∧ entrance.view = join.view ∧
    ∃ requests, Piece d.hashing requests 0 entrance.log ∧ requests.length = join.lastspeculative ∧
      s.LeaderShowed d join.view requests

/-- A log that a message starts a view with is not installed over a committed log that ends
differently there: it goes beyond what is committed, or has the same hash at its end. -/
def AdoptsSame (s : System Hash) (idx : Nat) (msg : StartViewMessage Hash) :
    Prop :=
  lastOpnumOf msg.entries ≤ (s.replicas idx).lastCommitted →
    ∀ last ∈ msg.entries.getLast?, ∀ mine ∈ (s.replicas idx).log.find last.viewstamp.opnum,
      mine.hash = last.hash

variable {s next : System Hash}

theorem JoinBacked.onward {join : InViewMessage} (backed : s.JoinBacked d join)
    (onward : s.Onward next) : next.JoinBacked d join := by
  obtain ⟨entrance, marked, idx, view, requests, piece, length, showed⟩ := backed
  exact ⟨entrance, onward.entrances entrance marked, idx, view, requests, piece, length,
    onward.leaderShowed showed⟩

/-- A log that is sent ends where it says, with the hash of the whole log. -/
theorem exists_last {requests : List Request} {msg : StartViewMessage Hash}
    (honest : msg.Honest d.hashing requests) (nonempty : msg.entries ≠ []) :
    ∃ last, msg.entries.getLast? = some last ∧ last.hash = d.hashing.chain requests ∧
      last.viewstamp.opnum = requests.length ∧ lastOpnumOf msg.entries = requests.length ∧
        Numbered (firstOpnumOf msg.entries) msg.entries ∧
          entryOf msg.entries (firstOpnumOf msg.entries) requests.length = some last := by
  obtain ⟨skipped, piece⟩ := honest.piece
  obtain ⟨last, ends⟩ := Option.ne_none_iff_exists'.mp (mt List.getLast?_eq_none_iff.mp nonempty)
  obtain ⟨opnum, hash⟩ := piece.last ends
  have some_ := List.length_pos_iff.mpr nonempty
  have first : firstOpnumOf msg.entries = skipped + 1 := by
    rw [firstOpnumOf_eq some_, piece.numbered 0 _ (List.getElem?_eq_getElem some_)]
  have length := piece.length
  refine ⟨last, ends, hash, opnum, ?_, first ▸ piece.numbered, ?_⟩
  · unfold lastOpnumOf
    rw [ends]
    exact opnum
  · unfold entryOf
    rw [first, if_neg (by omega), ← ends, List.getLast?_eq_getElem?]
    congr 1
    omega

/-- A replica that joins a view adopts the very log that it was sent. -/
theorem requests_of_adopting (free : d.hashing.CollisionFree) {idx : Nat} {r : Replica Hash}
    {terms : Terms Hash} (asked : terms.asked = d.Made) (sound : r.LogSound (d.setup idx) terms)
    {msg : StartViewMessage Hash} {requests : List Request}
    (honest : msg.Honest d.hashing requests) (made : ∀ request ∈ requests, d.Made request)
    (empty : msg.entries = [] → requests = [] ∨ 0 < r.lastCommitted) {installed : Replica Hash}
    (installs : r.Installs (d.setup idx) terms msg.entries installed)
    (same : lastOpnumOf msg.entries ≤ r.lastCommitted → ∀ last ∈ msg.entries.getLast?,
      ∀ mine ∈ r.log.find last.viewstamp.opnum, mine.hash = last.hash) :
    installed.log.requests = requests := by
  have length := installs.sound.lastSpeculative
  rw [installs.lastSpeculative] at length
  by_cases nonempty : msg.entries = []
  · rcases empty nonempty with rfl | committed
    · rw [nonempty] at length
      exact List.length_eq_zero_iff.mp length.symm
    · have := installs.empty nonempty
      omega
  obtain ⟨last, ends, hash, opnum, top, numbered, found⟩ := exists_last honest nonempty
  rw [top] at length
  have madeHere : ∀ request ∈ installed.log.requests, d.Made request :=
    fun request member => asked ▸ installs.sound.asked request member
  have chained : d.hashing.chain (installed.log.requests.take requests.length) =
      d.hashing.chain (requests.take requests.length) := by
    rw [List.take_length, ← hash]
    rcases Nat.lt_or_ge r.lastCommitted (lastOpnumOf msg.entries) with beyond | within
    · obtain ⟨newEntry, there, matches_⟩ := installs.ends numbered beyond
      rw [top] at there matches_
      obtain rfl := Option.some.inj (there.symm.trans found)
      exact matches_
    · -- The log ends at what is committed, which is kept.
      have kept := installs.keeps
      have grown := installs.lastCommitted
      have bound := installs.sound.lastCommitted
      rw [installs.lastSpeculative] at bound
      have here : r.lastCommitted = requests.length := by omega
      have some_ : 0 < requests.length := by
        have := opnum
        obtain ⟨skipped, piece⟩ := honest.piece
        have inside := List.length_pos_iff.mpr nonempty
        have := piece.length
        omega
      obtain ⟨mine, there⟩ := sound.exists_find some_ (here ▸ sound.lastCommitted)
      obtain ⟨-, -, -, -, chain⟩ := sound.hashed.of_find there
      have agrees := same within last ends mine (opnum.symm ▸ there)
      rw [here] at kept
      rw [kept, ← agrees, chain]
      rfl
  have taken := Deployment.take_eq_of_chain free madeHere made (Nat.le_of_eq length)
    (Nat.le_refl _) chained
  rwa [List.take_length, List.take_of_length_le (Nat.le_of_eq length.symm)] at taken

/-! ## What the messages of a run are for -/

/-- Under terms that admit no `InViewMessage` every message but a `StartViewMessage` can be handled. -/
theorem admissible_unjoined [LinearOrder Hash] {setup : Setup Hash} {terms : Terms Hash}
    {r : Replica Hash} {src : Address} {msg : Message Hash}
    (admissible : Admissible setup terms r src msg) (other : ∀ start, msg ≠ .startView start) :
    Admissible setup terms.unjoined r src msg := by
  cases msg with
  | syncReply msg => exact ⟨admissible.1, fun quorum => admissible.2 { quorum with }⟩
  | doViewChange msg => exact ⟨{ admissible.1 with }, admissible.2⟩
  | startView msg => exact absurd rfl (other msg)
  | request msg => exact admissible
  | inView msg => exact admissible
  | fillLogGap msg => exact admissible
  | reply msg => trivial
  | unloggedRequest msg => trivial
  | unloggedReply msg => trivial
  | sync msg => trivial
  | requestViewChange msg => trivial
  | startViewChange msg => trivial
  | fillDVCGap msg => trivial

/-- A handler that sends no `InViewMessage` puts none into the network. -/
theorem joinBacked_absorb {idx : Nat} {handler : Run Hash Unit} {join : InViewMessage}
    (backed : ∀ destination,
      .send destination (.inView join) ∈ (handler (s.replicas idx)).outputs →
        (s.absorb d idx (handler (s.replicas idx))).JoinBacked d join)
    {packet : Packet Hash} (same : packet.msg = .inView join)
    (sent : packet ∈ (handler (s.replicas idx)).outputs.flatMap (post d.configuration idx)) :
    (s.absorb d idx (handler (s.replicas idx))).JoinBacked d join := by
  obtain ⟨output, emitted, posted⟩ := List.mem_flatMap.mp sent
  match output with
  | .send (.one addr) msg =>
      obtain rfl := List.mem_singleton.mp posted
      obtain rfl : msg = .inView join := same
      exact backed _ emitted
  | .send .others msg =>
      obtain ⟨other, -, rfl⟩ := List.mem_map.mp posted
      obtain rfl : msg = .inView join := same
      exact backed _ emitted
  | .answering replicaIdx msg status view log =>
      obtain rfl := List.mem_singleton.mp posted
      nomatch same
  | .read _ _ => nomatch posted
  | .entering _ _ => nomatch posted
  | .committing _ _ _ _ _ => nomatch posted

variable [LinearOrder Hash]

/-- What `HandleStartView` sends is for the view that it enters. -/
theorem joinBacked_handleStartView (free : d.hashing.CollisionFree) (coherent : s.Coherent d)
    {src : Address} {idx : Nat} {msg : StartViewMessage Hash} {app : App}
    (inNetwork : { src := src, dst := .replica idx, msg := .startView msg } ∈ s.network)
    (running : s.stopped idx = false) (same : s.AdoptsSame idx msg) (onward : s.Onward next)
    {entrances : List (Output Hash)}
    (outputs : entrances = (handleStartView (d.setup idx) app src msg (s.replicas idx)).outputs)
    (marked : ∀ view log, .entering view log ∈ entrances →
      { idx := idx, view := view, log := log } ∈ next.entrances)
    {join : InViewMessage} {destination : Destination}
    (sent : .send destination (.inView join) ∈ entrances) : next.JoinBacked d join := by
  have sound := coherent.replicas idx running
  obtain ⟨requests, honest, made, empty, showed⟩ := coherent.packets _ inNetwork
  have asked : ∀ entry ∈ msg.entries, (s.anyTerms d).asked entry.request := by
    intro entry member
    obtain ⟨skipped, piece⟩ := honest.piece
    have carried := List.mem_map_of_mem (f := LogEntry.request) member
    rw [piece.carries] at carried
    exact made _ (List.mem_of_mem_drop carried)
  rw [outputs] at sent
  rw [outputs_handleStartView sent] at outputs sent
  obtain ⟨installed, adopted, joins⟩ := exists_joinsBy_of_adoptView sound asked sent
  have adopts : installed.log.requests = requests := by
    have soundHere : (s.replicas idx).LogSound (d.setup idx) (s.anyTerms d).unjoined :=
      { sound.log with }
    refine requests_of_adopting free rfl soundHere honest made (fun none_ => ?_) joins.installs same
    refine (empty none_).imp_right fun ⟨other, here, positive⟩ => ?_
    obtain rfl : idx = other := Address.replica.inj (Destination.one.inj here)
    exact positive running
  have final := joins.commits.requests.trans adopts
  have length := joins.commits.sound.lastSpeculative
  rw [final] at length
  have entered := joins.enters (length.trans honest.lastspeculative.symm)
  refine ⟨_, marked _ _ (outputs ▸ entered), joins.replicaidx.symm, joins.view.symm, requests, ?_, ?_,
    ?_⟩
  · exact final ▸ joins.commits.sound.hashed.piece
  · exact honest.lastspeculative.symm.trans joins.lastspeculative.symm
  · exact joins.view ▸ onward.leaderShowed showed

/-- What holds of the `InViewMessage`s in transit. -/
def JoinsBacked (d : Deployment Hash) (s : System Hash) : Prop :=
  ∀ packet ∈ s.network, ∀ join, packet.msg = .inView join → s.JoinBacked d join

/-- A step of a replica that handles a message keeps what `InViewMessage`s are for. -/
theorem joinsBacked_receive (free : d.hashing.CollisionFree) (coherent : s.Coherent d)
    (joins : s.JoinsBacked d) {src : Address} {idx : Nat} {msg : Message Hash} {app : App}
    (inNetwork : { src := src, dst := .replica idx, msg := msg } ∈ s.network)
    (running : s.stopped idx = false)
    (same : ∀ start, msg = .startView start → s.AdoptsSame idx start)
    (onward : s.Onward
      (s.absorb d idx (receiveMessage (d.setup idx) app src msg (s.replicas idx)))) :
    (s.absorb d idx (receiveMessage (d.setup idx) app src msg (s.replicas idx))).JoinsBacked d := by
  intro packet member join isJoin
  rcases List.mem_append.mp member with old | new
  · exact (joins packet old join isJoin).onward onward
  apply joinBacked_absorb _ isJoin new
  intro destination sent
  by_cases starts : ∃ start, msg = .startView start
  · obtain ⟨start, rfl⟩ := starts
    apply joinBacked_handleStartView free coherent inNetwork running (same start rfl) onward rfl _ sent
    exact fun view log emitted =>
      List.mem_append_right _ (List.mem_filterMap.mpr ⟨_, emitted, rfl⟩)
  · have sound : (s.replicas idx).Sound (d.setup idx) (s.anyTerms d).unjoined :=
      (coherent.replicas idx running).imp_terms (fun _ sent => sent) fun _ made => made
    have handled := admissible_unjoined (admissible coherent inNetwork running grants_any)
      fun start here => starts ⟨start, here⟩
    exact absurd sent (not_mem_of_meets (fun none_ => none_)
      (receiveMessage_meets sound (fun _ _ _ _ => trivial) handled))

omit [LinearOrder Hash] in
/-- A step of a client keeps what `InViewMessage`s are for. -/
theorem joinsBacked_aside (joins : s.JoinsBacked d) (aside : Aside d s next) :
    next.JoinsBacked d := by
  intro packet member join isJoin
  obtain ⟨more, same, ofClient⟩ := aside.network
  rw [same] at member
  rcases List.mem_append.mp member with old | new
  · exact (joins packet old join isJoin).onward aside.onward
  · have other := ofClient packet new
    rw [isJoin] at other
    exact other.elim

omit [LinearOrder Hash] in
/-- A timeout of a replica keeps what `InViewMessage`s are for. -/
theorem joinsBacked_fire (coherent : s.Coherent d) (joins : s.JoinsBacked d) {idx : Nat}
    {timer : Timer} (running : s.stopped idx = false)
    (onward : s.Onward (s.absorb d idx (fireTimer (d.setup idx) timer (s.replicas idx)))) :
    (s.absorb d idx (fireTimer (d.setup idx) timer (s.replicas idx))).JoinsBacked d := by
  intro packet member join isJoin
  rcases List.mem_append.mp member with old | new
  · exact (joins packet old join isJoin).onward onward
  · apply joinBacked_absorb _ isJoin new
    intro destination sent
    have sound : (s.replicas idx).Sound (d.setup idx) (s.anyTerms d).unjoined :=
      (coherent.replicas idx running).imp_terms (fun _ sent => sent) fun _ made => made
    exact absurd sent (not_mem_of_meets (fun none_ => none_) (fireTimer_meets sound timer))

/-! ## The commits -/

/-- The replicas whose `InViewMessage`s for the view, with one that has just come, reach as far as that
one. -/
def supporters (r : Replica Hash) (msg : InViewMessage) : Finset Nat :=
  (Common.senders ((r.inViewQuorum.add msg.view msg.replicaidx msg).messages msg.view)).filter fun idx =>
    ∃ join ∈ ((r.inViewQuorum.add msg.view msg.replicaidx msg).messages msg.view)[idx]?,
      msg.lastspeculative ≤ join.lastspeculative

/-- What a commit by `InViewMessage`s rests on: a quorum of replicas. The leader is one of them, and is
in the view as it commits; the others have entered the view with a log that is the leader's up to the
opnum. -/
structure Joined (d : Deployment Hash) (s : System Hash) (commit : Commit Hash) : Prop where
  leads : d.configuration.getLeaderIndex commit.view = commit.idx
  status : commit.status = .normal
  reaches : commit.opnum ≤ commit.log.length
  quorum : ∃ replicas : Finset Nat, d.configuration.f + 1 ≤ replicas.card ∧
    commit.idx ∈ replicas ∧ (∀ idx ∈ replicas, idx < d.configuration.n) ∧
      ∀ idx ∈ replicas, idx ≠ commit.idx → ∃ entrance ∈ s.entrances, entrance.idx = idx ∧
        entrance.view = commit.view ∧ SameUpTo commit.opnum entrance.log commit.log

omit [LinearOrder Hash] in
/-- Entrances are not taken back. -/
theorem Joined.onward {commit : Commit Hash} (joined : s.Joined d commit) (onward : s.Onward next) :
    next.Joined d commit where
  leads := joined.leads
  status := joined.status
  reaches := joined.reaches
  quorum := by
    obtain ⟨replicas, enough, leader, inGroup, others⟩ := joined.quorum
    refine ⟨replicas, enough, leader, inGroup, fun idx member other => ?_⟩
    obtain ⟨entrance, marked, rest⟩ := others idx member other
    exact ⟨entrance, onward.entrances entrance marked, rest⟩

/-- The steps at which no replica installs a log over a committed one that ends differently, and at
which the leader commits only as far as a quorum of messages reaches. -/
def JoinsReach (d : Deployment Hash) (s : System Hash) : Action → Prop
  | .deliver position _ =>
    match s.network[position]? with
    | some ⟨_, .replica idx, .startView msg⟩ => s.AdoptsSame idx msg
    | some ⟨_, .replica idx, .inView msg⟩ =>
      (s.replicas idx).CommitsJoin (d.setup idx) msg →
        d.configuration.f ≤ (supporters (s.replicas idx) msg).card
    | _ => True
  | _ => True

omit [LinearOrder Hash] in
/-- Enough messages that reach the opnum are enough replicas with the leader's own log up to there. -/
theorem joined_of_commitsJoin (coherent : s.Coherent d) (joins : s.JoinsBacked d) {src : Address}
    {idx : Nat} (inGroup : idx < d.configuration.n) (running : s.stopped idx = false)
    {msg : InViewMessage}
    (inNetwork : { src := src, dst := .replica idx, msg := .inView msg } ∈ s.network)
    (commits : (s.replicas idx).CommitsJoin (d.setup idx) msg)
    (enough : d.configuration.f ≤ (supporters (s.replicas idx) msg).card) :
    s.Joined d
      { idx := idx, route := .inView, status := .normal, view := msg.view,
        opnum := msg.lastspeculative, log := (s.replicas idx).log.entries } := by
  have sound := coherent.replicas idx running
  have leader : d.configuration.getLeaderIndex msg.view = idx := commits.leads
  have reached : msg.lastspeculative ≤ (s.replicas idx).log.requests.length :=
    sound.log.lastSpeculative ▸ commits.reached
  have stored : ((s.replicas idx).inViewQuorum.add msg.view msg.replicaidx msg).All
      fun view other join => (s.anyTerms d).sent (.inView join) ∧ join.replicaidx = other ∧
        join.view = view := sound.joined.add ⟨⟨_, inNetwork, rfl⟩, rfl, rfl⟩
  have entered : ∀ other ∈ supporters (s.replicas idx) msg,
      other < d.configuration.n ∧ other ≠ idx ∧ ∃ entrance ∈ s.entrances, entrance.idx = other ∧
        entrance.view = msg.view ∧
          SameUpTo msg.lastspeculative entrance.log (s.replicas idx).log.entries := by
    intro other member
    obtain ⟨-, join, present, reaches⟩ := Finset.mem_filter.mp member
    obtain ⟨⟨packet, sent, same⟩, sender, view⟩ := stored msg.view other join present
    have supported := coherent.packets packet sent
    rw [same] at supported
    obtain ⟨there, follower⟩ := supported
    obtain ⟨entrance, marked, who, where_, requests, piece, length, showed⟩ :=
      joins packet sent join same
    unfold LeaderShowed at showed
    rw [view, leader] at showed
    have within : requests <+: (s.replicas idx).log.requests := by
      have forward : msg.view < (s.replicas idx).view ∨ msg.view = (s.replicas idx).view ∧
          (s.replicas idx).status = .normal ∧ requests <+: (s.replicas idx).log.requests :=
        showed running
      obtain past | ⟨-, -, within⟩ := forward
      · have := commits.view
        omega
      · exact within
    refine ⟨sender ▸ there, fun leads => follower ?_, entrance, marked, who.trans sender,
      where_.trans view, ?_⟩
    · rw [view, leader, sender, leads]
    · apply sameUpTo_of_take piece sound.log.hashed.piece (length.symm ▸ reaches) reached
      obtain ⟨more, whole⟩ := within
      rw [← whole, List.take_append_of_le_length (length.symm ▸ reaches)]
  refine ⟨leader, rfl, ?_, insert idx (supporters (s.replicas idx) msg), ?_,
    Finset.mem_insert_self _ _, ?_, ?_⟩
  · have length := Log.length_requests (s.replicas idx).log
    simp only
    omega
  · rw [Finset.card_insert_of_notMem fun member => (entered idx member).2.1 rfl]
    omega
  · intro other member
    rcases Finset.mem_insert.mp member with rfl | supports
    · exact inGroup
    · exact (entered other supports).1
  · intro other member elsewhere
    exact (entered other ((Finset.mem_insert.mp member).resolve_left elsewhere)).2.2

/-- Commits by `InViewMessage`s rest on a quorum that has the log, in runs that keep to the guard. -/
theorem joined_invariant (free : d.hashing.CollisionFree) :
    (system d).Invariant (JoinsReach d) fun s => s.Coherent d ∧ s.JoinsBacked d ∧
      ∀ commit ∈ s.commits, commit.route = .inView → s.Joined d commit where
  initial state first := by
    refine ⟨(coherent_invariant (JoinsReach d)).initial state first, ?_⟩
    rw [first]
    exact ⟨fun _ none_ => (nomatch none_), fun _ none_ => nomatch none_⟩
  preserved {s action next} invariant reaching stepped := by
    obtain ⟨coherent, joins, before⟩ := invariant
    have marks : Marks d s (fun _ => True)
        (fun commit => commit.route = .inView → s.Joined d commit) next := by
      refine marks_step coherent stepped (fun _ _ _ _ _ => trivial) ?_
      rintro position app src idx msg rfl found inGroup running
      unfold Grants
      split
      · exact fun _ other => nomatch other
      next msg =>
          unfold JoinsReach at reaching
          simp only [found] at reaching
          exact fun commits _ => joined_of_commitsJoin coherent joins inGroup running
            (List.mem_of_getElem? found) commits (reaching commits)
      · exact fun _ _ _ _ _ _ => .inr fun _ _ => trivial
      · trivial
    refine ⟨marks.coherent, ?_, fun commit marked route => ?_⟩
    · cases moves_of_step stepped with
      | invoke running => exact joinsBacked_aside joins (aside_invoked _)
      | resend running pending => exact joinsBacked_aside joins (aside_requested _ _)
      | invokeUnlogged running => exact joinsBacked_aside joins (aside_askedUnlogged _ _ _)
      | unloggedTimeout running => exact joinsBacked_aside joins (aside_endedUnlogged _)
      | reply found running => exact joinsBacked_aside joins (aside_replied _ _)
      | unloggedReply found running => exact joinsBacked_aside joins (aside_endedUnlogged _)
      | receive found inGroup running =>
          refine joinsBacked_receive free coherent joins (List.mem_of_getElem? found) running ?_
            marks.onward
          rintro start rfl
          unfold JoinsReach at reaching
          simpa only [found] using reaching
      | fire active inGroup running => exact joinsBacked_fire coherent joins running marks.onward
    · rcases marks.commits commit marked with old | new
      · exact (before commit old route).onward marks.onward
      · exact (new route).onward marks.onward

/-- In a run in which no replica installs a log over a committed one that ends differently, and the
leader commits only as far as a quorum of messages reaches, every commit of `HandleInView` rests on a
quorum that has entered the view with the leader's log up to the opnum. -/
theorem quorum_of_inView_commit (free : d.hashing.CollisionFree) {s : System Hash}
    (reachable : (system d).Reachable (JoinsReach d) s) :
    ∀ commit ∈ s.commits, commit.route = .inView → s.Joined d commit :=
  ((joined_invariant free).of_reachable reachable).2.2

instance (setup : Setup Hash) (r : Replica Hash) (msg : InViewMessage) :
    Decidable (r.CommitsJoin setup msg) :=
  decidable_of_iff (r.status = .normal ∧ r.view = msg.view ∧ setup.AmLeader msg.view ∧
      ((r.inViewQuorum.addAndCheckForQuorum msg.view msg.replicaidx msg).2).isSome ∧
        msg.lastspeculative ≤ r.lastSpeculative ∧ ¬ msg.lastspeculative < r.lastCommitted)
    ⟨fun ⟨normal, view, leads, quorum, reached, open_⟩ =>
        ⟨normal, view, leads, quorum, reached, open_⟩,
      fun ⟨normal, view, leads, quorum, reached, open_⟩ =>
        ⟨normal, view, leads, quorum, reached, open_⟩⟩

instance (s : System Hash) (idx : Nat) (msg : StartViewMessage Hash) :
    Decidable (s.AdoptsSame idx msg) := by
  unfold AdoptsSame
  infer_instance

instance (s : System Hash) (action : Action) : Decidable (JoinsReach d s action) :=
  let joins (idx : Nat) (msg : InViewMessage) :
      Decidable ((s.replicas idx).CommitsJoin (d.setup idx) msg →
        d.configuration.f ≤ (supporters (s.replicas idx) msg).card) := inferInstance
  match action with
  | .deliver position _ => by
    change Decidable (match s.network[position]? with
      | some ⟨_, .replica idx, .startView msg⟩ => s.AdoptsSame idx msg
      | some ⟨_, .replica idx, .inView msg⟩ =>
        (s.replicas idx).CommitsJoin (d.setup idx) msg →
          d.configuration.f ≤ (supporters (s.replicas idx) msg).card
      | _ => True)
    exact match s.network[position]? with
      | some ⟨_, .replica idx, .startView msg⟩ => inferInstanceAs (Decidable (s.AdoptsSame idx msg))
      | some ⟨_, .replica idx, .inView msg⟩ => joins idx msg
      | none | some ⟨_, .client _, _⟩ | some ⟨_, .replica _, .request _⟩
      | some ⟨_, .replica _, .reply _⟩ | some ⟨_, .replica _, .unloggedRequest _⟩
      | some ⟨_, .replica _, .unloggedReply _⟩ | some ⟨_, .replica _, .sync _⟩
      | some ⟨_, .replica _, .syncReply _⟩ | some ⟨_, .replica _, .requestViewChange _⟩
      | some ⟨_, .replica _, .startViewChange _⟩ | some ⟨_, .replica _, .doViewChange _⟩
      | some ⟨_, .replica _, .fillLogGap _⟩ | some ⟨_, .replica _, .fillDVCGap _⟩ => .isTrue trivial
  | .invoke .. | .resend .. | .invokeUnlogged .. | .unloggedTimeout .. | .timer .. => .isTrue trivial

set_option maxRecDepth 20000 in
/-- In a group of three, the leader commits once a second replica is in the view. -/
theorem quorum_of_inView_commit_trio : ∃ s, (system trio).Reachable (JoinsReach trio) s ∧
    s.commits.length = 1 ∧
      ∀ commit ∈ s.commits, commit.route = .inView → s.Joined trio commit := by
  obtain ⟨s, reachable, committed⟩ := (system trio).exists_reachable_of_run
    (JoinsReach trio) (fun s => decide (s.commits.length = 1))
    [.invoke 0, .deliver 0 {}, .deliver 1 {}, .timer 1 .viewChange, .timer 0 .failedSync,
      .deliver 5 {}, .deliver 7 {}, .deliver 9 {}, .deliver 10 {}, .deliver 12 {}] rfl
    (by decide +kernel)
  exact ⟨s, reachable, of_decide_eq_true committed,
    quorum_of_inView_commit spelling_collisionFree reachable⟩

/-- Five replicas whose logs are spelled out. -/
def quintet : Deployment (List Nat) where
  configuration := ⟨5, 2⟩
  hashing := spelling
  operation _ _ := ""

set_option maxRecDepth 20000 in
/-- In a group of five, replicas 2 and 3 are sent logs of different lengths for view 1, and the leader
commits the longer one: replica 2 has entered the view without its last request. -/
theorem not_joined_quintet : ¬ ∀ s : System (List Nat),
    (system quintet).Reachable TransitionSystem.unguarded s →
      ∀ commit ∈ s.commits, commit.route = .inView → s.Joined quintet commit := by
  intro all
  obtain ⟨s, reachable, outcome⟩ := (system quintet).exists_reachable_of_run
    TransitionSystem.unguarded
    (fun s => (s.commits.map fun commit => (commit.idx, commit.route, commit.view, commit.opnum)) =
        [(1, Route.inView, 1, 28)] ∧
      (s.entrances.map fun entrance => (entrance.idx, entrance.view, entrance.log.length)) =
        [(1, 1, 27), (2, 1, 27), (3, 1, 28)])
    ((List.range 28).map .invoke ++
      (List.range 27).flatMap (fun c => [.deliver (5 * c + 1) {}, .deliver (5 * c + 2) {}]) ++
      [.timer 1 .viewChange, .timer 0 .failedSync, .timer 2 .viewChange, .deliver 194 {},
        .deliver 202 {}, .deliver 198 {}, .deliver 203 {}, .deliver 195 {}, .deliver 199 {},
        .deliver 206 {}, .deliver 207 {}, .deliver 209 {}, .deliver 210 {}, .deliver 136 {},
        .deliver 213 {}, .deliver 215 {}, .deliver 212 {}, .deliver 216 {}]) rfl
    (by decide +kernel)
  obtain ⟨commits, entrances⟩ := of_decide_eq_true outcome
  have committed : (1, Route.inView, 1, 28) ∈ s.commits.map fun commit =>
      (commit.idx, commit.route, commit.view, commit.opnum) := by
    rw [commits]
    exact List.mem_singleton_self _
  obtain ⟨commit, marked, same⟩ := List.mem_map.mp committed
  obtain ⟨idx, route, view, opnum⟩ : commit.idx = 1 ∧ commit.route = .inView ∧ commit.view = 1 ∧
      commit.opnum = 28 := by simpa using same
  obtain ⟨replicas, enough, -, -, others⟩ := (all s reachable commit marked route).quorum
  -- Only replica 3 has entered the view with 28 requests.
  have few : replicas ⊆ {1, 3} := by
    intro other member
    by_cases leader : other = commit.idx
    · simp [leader, idx]
    · obtain ⟨entrance, there, who, -, upTo⟩ := others other member leader
      have listed := List.mem_map_of_mem (f := fun entrance : Entrance (List Nat) =>
        (entrance.idx, entrance.view, entrance.log.length)) there
      have long := upTo.reaches
      rw [opnum] at long
      rw [entrances] at listed
      simp only [List.mem_cons, Prod.mk.injEq, List.not_mem_nil, or_false] at listed
      rcases listed with ⟨_, _, short⟩ | ⟨_, _, short⟩ | ⟨third, _, _⟩
      · omega
      · omega
      · simp [← who, third]
  have card := Finset.card_le_card few
  have two : ({1, 3} : Finset Nat).card = 2 := rfl
  have needed : quintet.configuration.f = 2 := rfl
  omega

end System

end PaxosBus.Spec

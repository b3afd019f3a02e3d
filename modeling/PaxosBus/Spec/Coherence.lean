import PaxosBus.Spec.Entering
import PaxosBus.Spec.System

/-!
# The messages in transit

In every state that a run reaches, each replica that has not stopped keeps its
invariant, and each message in transit stands for something: a vote for the
window of a log in order, a reply to a `SyncMessage` for an answer of its sender,
a message that starts a view for the log of a leader who has started it. What is
in transit stays so, and what it stands for stays true.
-/

set_option autoImplicit false

namespace PaxosBus.Spec

open PaxosBus.Common PaxosBus.Library
open Logic (Meets)

variable {Hash : Type} (d : Deployment Hash)

/-- A request as its client makes it. -/
def Deployment.Made (request : Request) : Prop :=
  request = d.request request.clientid request.clientreqid

/-- An answer to a `SyncMessage` that a reply stands for. -/
structure Answer.Backs (answer : Answer Hash) (msg : SyncReplyMessage Hash) : Prop where
  idx : answer.idx = msg.replicaidx
  status : answer.status = .normal
  view : answer.view = msg.view
  log : ∃ requests, Piece d.hashing requests 0 answer.log ∧
    (∀ request ∈ requests, d.Made request) ∧
      ∀ hash, msg.lastspeculativehash = some hash → msg.lastspeculative ≤ requests.length ∧
        hash = d.hashing.chain (requests.take msg.lastspeculative)

namespace System

variable (s : System Hash)

/-- What the handlers of a replica may rely on in a state. -/
def terms (reads : DoViewChangeMessage Hash → Nat → Prop)
    (commits : Route → Status → Nat → Nat → List (LogEntry Hash) → Prop) : Terms Hash where
  sent msg := ∃ packet ∈ s.network, packet.msg = msg
  asked := d.Made
  reads := reads
  commits := commits
  gaps gap := ∃ packet ∈ s.network, ∃ msg, packet.msg = .startView msg ∧ msg.view = gap.view
  committed destination := ∃ idx, destination = .one (.replica idx) ∧
    (s.stopped idx = false → 0 < (s.replicas idx).lastCommitted)

/-- The terms of a state that admit every access and every commit. -/
def anyTerms : Terms Hash := s.terms d (fun _ _ => True) fun _ _ _ _ _ => True

/-- The leader of a view, unless it has stopped, had a log when it was in the view. -/
def LeaderShowed (view : Nat) (requests : List Request) : Prop :=
  s.stopped (d.configuration.getLeaderIndex view) = false →
    (s.replicas (d.configuration.getLeaderIndex view)).standing.Showed view requests

/-- What a message in transit stands for. -/
def Supports (src dst : Address) : Message Hash → Prop
  | .request msg => d.Made msg.req
  | .doViewChange msg =>
    msg.WellFormed d.hashing ∧ ∀ entry ∈ msg.entries, d.Made entry.request
  | .startView msg =>
    ∃ requests, msg.Honest d.hashing requests ∧ (∀ request ∈ requests, d.Made request) ∧
      (msg.entries = [] → requests = [] ∨ (s.anyTerms d).committed (.one dst)) ∧
        s.LeaderShowed d msg.view requests
  | .inView msg =>
    msg.replicaidx < d.configuration.n ∧
      d.configuration.getLeaderIndex msg.view ≠ msg.replicaidx
  | .syncReply msg =>
    msg.replicaidx < d.configuration.n ∧
      d.configuration.getLeaderIndex msg.view ≠ msg.replicaidx ∧
        ∃ answer ∈ s.answers, answer.Backs d msg
  | .fillLogGap msg =>
    s.LeaderShowed d msg.view [] ∧
      (0 < msg.lastcommitted → (s.anyTerms d).committed (.one src))
  | _ => True

/-- The invariant of the system. -/
structure Coherent : Prop where
  replicas : ∀ idx, s.stopped idx = false → (s.replicas idx).Sound (d.setup idx) (s.anyTerms d)
  packets : ∀ packet ∈ s.network, s.Supports d packet.src packet.dst packet.msg

/-- What a step does not take back. -/
structure Onward (s next : System Hash) : Prop where
  running : ∀ idx, next.stopped idx = false →
    s.stopped idx = false ∧ (s.replicas idx).standing.Later (next.replicas idx).standing
  network : ∀ packet ∈ s.network, packet ∈ next.network
  entrances : ∀ entrance ∈ s.entrances, entrance ∈ next.entrances
  answers : ∀ answer ∈ s.answers, answer ∈ next.answers

variable {d} {s} {next : System Hash}

/-- What a destination has committed stays committed. -/
theorem Onward.committed (onward : s.Onward next) {destination : Destination}
    (committed : (s.anyTerms d).committed destination) :
    (next.anyTerms d).committed destination := by
  obtain ⟨idx, same, positive⟩ := committed
  refine ⟨idx, same, fun running => ?_⟩
  obtain ⟨before, later⟩ := onward.running idx running
  exact Nat.lt_of_lt_of_le (positive before) later.lastCommitted

/-- What a leader has shown stays shown. -/
theorem Onward.leaderShowed (onward : s.Onward next) {view : Nat} {requests : List Request}
    (showed : s.LeaderShowed d view requests) : next.LeaderShowed d view requests := by
  intro running
  obtain ⟨before, later⟩ := onward.running _ running
  exact (showed before).later later

/-- What a message stands for stays true. -/
theorem Supports.onward {src dst : Address} {msg : Message Hash}
    (supports : s.Supports d src dst msg) (onward : s.Onward next) :
    next.Supports d src dst msg := by
  cases msg with
  | startView msg =>
      obtain ⟨requests, honest, made, empty, showed⟩ := supports
      refine ⟨requests, honest, made, fun none_ => ?_, onward.leaderShowed showed⟩
      exact (empty none_).imp_right onward.committed
  | syncReply msg =>
      obtain ⟨inGroup, follower, answer, given, backs⟩ := supports
      exact ⟨inGroup, follower, answer, onward.answers answer given, backs⟩
  | fillLogGap msg =>
      exact ⟨onward.leaderShowed supports.1, fun some_ => onward.committed (supports.2 some_)⟩
  | request msg => exact supports
  | doViewChange msg => exact supports
  | inView msg => exact supports
  | reply msg => trivial
  | unloggedRequest msg => trivial
  | unloggedReply msg => trivial
  | sync msg => trivial
  | requestViewChange msg => trivial
  | startViewChange msg => trivial
  | fillDVCGap msg => trivial

/-- What a message of an earlier state stands for is so for each replica that goes on. -/
theorem Onward.sound (onward : s.Onward next) {idx : Nat} {r : Replica Hash}
    (sound : r.Sound (d.setup idx) (s.anyTerms d)) : r.Sound (d.setup idx) (next.anyTerms d) :=
  sound.imp_terms (fun _ ⟨packet, sent, same⟩ => ⟨packet, onward.network packet sent, same⟩)
    fun _ made => made

/-! ## Steps of a replica -/

section Absorb

variable {idx : Nat} {reads : DoViewChangeMessage Hash → Nat → Prop}
  {commits : Route → Status → Nat → Nat → List (LogEntry Hash) → Prop} {handler : Run Hash Unit}

/-- A handler that keeps to the conduct of a replica. -/
def Keeps (d : Deployment Hash) (s : System Hash) (idx : Nat) (terms : Terms Hash)
    (handler : Run Hash Unit) : Prop :=
  (conduct (d.setup idx) terms).Meets handler (s.replicas idx).standing (s.replicas idx)
    fun _ => Settled (d.setup idx) terms

/-- The replica is in the state that its handler has left. -/
@[simp] theorem replicas_absorb_self (outcome : Outcome (Replica Hash) (Output Hash) Unit) :
    (s.absorb d idx outcome).replicas idx = outcome.state := by
  simp [absorb]

/-- The other replicas are in the states that they were in. -/
theorem replicas_absorb_of_ne {outcome : Outcome (Replica Hash) (Output Hash) Unit} {other : Nat}
    (elsewhere : other ≠ idx) : (s.absorb d idx outcome).replicas other = s.replicas other := by
  simp [absorb, elsewhere]

/-- No other replica stops. -/
theorem stopped_absorb_of_ne {outcome : Outcome (Replica Hash) (Output Hash) Unit} {other : Nat}
    (elsewhere : other ≠ idx) : (s.absorb d idx outcome).stopped other = s.stopped other := by
  simp [absorb, elsewhere]

/-- A replica that goes on has come to the end of the handler. -/
theorem ended_of_absorb {outcome : Outcome (Replica Hash) (Output Hash) Unit}
    (going : (s.absorb d idx outcome).stopped idx = false) : outcome.value = some () := by
  simp only [absorb, Function.update_self] at going
  cases ended : outcome.value with
  | none => simp [ended] at going
  | some value => rfl

/-- A handler moves the system onward. -/
theorem onward_absorb (running : s.stopped idx = false)
    (keeps : s.Keeps d idx (s.terms d reads commits) handler) :
    s.Onward (s.absorb d idx (handler (s.replicas idx))) where
  running other going := by
    by_cases here : other = idx
    · subst here
      obtain ⟨final, later, -, -, post⟩ := keeps
      obtain ⟨rfl, -⟩ := post () (ended_of_absorb going)
      exact ⟨running, (replicas_absorb_self _).symm ▸ later⟩
    · rw [stopped_absorb_of_ne here] at going
      exact ⟨going, (replicas_absorb_of_ne here).symm ▸ .refl _⟩
  network packet sent := List.mem_append_left _ sent
  entrances entrance marked := List.mem_append_left _ marked
  answers answer given := List.mem_append_left _ given

/-- A message that a handler sends stands for something. -/
theorem supports_absorb (inGroup : idx < d.configuration.n) (coherent : s.Coherent d)
    (running : s.stopped idx = false) (keeps : s.Keeps d idx (s.terms d reads commits) handler)
    {packet : Packet Hash}
    (sent : packet ∈ (handler (s.replicas idx)).outputs.flatMap (post d.configuration idx)) :
    (s.absorb d idx (handler (s.replicas idx))).Supports d packet.src packet.dst packet.msg := by
  have onward := onward_absorb running keeps
  obtain ⟨output, emitted, posted⟩ := List.mem_flatMap.mp sent
  obtain ⟨final, later, valid, -, ends⟩ := keeps
  have validHere := valid output emitted
  -- Where the replica goes on, the last world is where it stands.
  have stands : (s.absorb d idx (handler (s.replicas idx))).stopped idx = false →
      final = ((s.absorb d idx (handler (s.replicas idx))).replicas idx).standing := by
    intro going
    rw [replicas_absorb_self]
    exact (ends () (ended_of_absorb going)).1
  have sends : ∀ (destination : Destination) (msg : Message Hash),
      output = .send destination msg → packet.src = .replica idx ∧ packet.msg = msg ∧
        ((s.anyTerms d).committed destination →
          (s.anyTerms d).committed (.one packet.dst)) := by
    rintro destination msg rfl
    cases destination with
    | one addr =>
        obtain rfl := List.mem_singleton.mp posted
        exact ⟨rfl, rfl, fun committed => committed⟩
    | others =>
        obtain ⟨other, -, rfl⟩ := List.mem_map.mp posted
        exact ⟨rfl, rfl, fun ⟨_, same, _⟩ => nomatch same⟩
  match output with
  | .send destination msg =>
      obtain ⟨src, same, committed⟩ := sends destination msg rfl
      rw [src, same]
      cases msg with
      | startView msg =>
          obtain ⟨leads, requests, honest, made, empty, showed⟩ := validHere
          have leader : d.configuration.getLeaderIndex msg.view = idx := leads
          refine ⟨requests, honest, made, fun none_ => ?_, fun going => ?_⟩
          · exact (empty none_).imp_right fun there => onward.committed (committed there)
          · rw [leader] at going ⊢
            exact stands going ▸ showed
      | fillLogGap msg =>
          obtain ⟨⟨started, inNetwork, start, starts, view⟩, reached⟩ := validHere
          have supported := coherent.packets started inNetwork
          rw [starts] at supported
          obtain ⟨requests, -, -, -, showed⟩ := supported
          refine ⟨fun going => ?_, fun positive => ⟨idx, rfl, fun going => ?_⟩⟩
          · obtain past | ⟨same, normal, -⟩ := onward.leaderShowed showed (view ▸ going)
            · exact .inl (view ▸ past)
            · exact .inr ⟨view ▸ same, view ▸ normal, List.nil_prefix⟩
          · have lastCommitted := stands going ▸ reached
            exact Nat.lt_of_lt_of_le positive lastCommitted
      | inView msg =>
          obtain ⟨sender, follower, -⟩ := validHere
          have same : msg.replicaidx = idx := sender
          exact ⟨same ▸ inGroup, fun leads => follower (leads.trans same)⟩
      | doViewChange msg => exact validHere
      | syncReply msg => exact validHere.elim
      | request msg => exact validHere.elim
      | reply msg => trivial
      | unloggedRequest msg => trivial
      | unloggedReply msg => trivial
      | sync msg => trivial
      | requestViewChange msg => trivial
      | startViewChange msg => trivial
      | fillDVCGap msg => trivial
  | .answering replicaIdx msg status view log =>
      obtain rfl := List.mem_singleton.mp posted
      obtain ⟨sender, follower, normal, sameView, backed⟩ := validHere
      have same : msg.replicaidx = idx := sender
      refine ⟨same ▸ inGroup, fun leads => follower (sameView ▸ leads.trans same),
        { idx := idx, status := status, view := view, log := log }, ?_,
        same.symm, normal, sameView.symm, backed⟩
      exact List.mem_append_right _ (List.mem_filterMap.mpr ⟨_, emitted, rfl⟩)
  | .read _ _ => nomatch posted
  | .entering _ _ => nomatch posted
  | .committing _ _ _ _ _ => nomatch posted

/-- A handler keeps the invariant of the system. -/
theorem coherent_absorb (inGroup : idx < d.configuration.n) (coherent : s.Coherent d)
    (running : s.stopped idx = false)
    (keeps : s.Keeps d idx (s.terms d reads commits) handler) :
    (s.absorb d idx (handler (s.replicas idx))).Coherent d where
  replicas other going := by
    have onward := onward_absorb running keeps
    by_cases here : other = idx
    · subst here
      obtain ⟨final, -, -, -, post⟩ := keeps
      obtain ⟨-, sound⟩ := post () (ended_of_absorb going)
      rw [replicas_absorb_self]
      apply onward.sound
      exact sound.imp_terms (fun _ sent => sent) fun _ made => made
    · rw [replicas_absorb_of_ne here]
      exact onward.sound (coherent.replicas other (onward.running other going).1)
  packets packet inNetwork := by
    rcases List.mem_append.mp inNetwork with old | new
    · exact (coherent.packets packet old).onward (onward_absorb running keeps)
    · exact supports_absorb inGroup coherent running keeps new

end Absorb

/-! ## Steps of the system -/

/-- A message of a client. -/
def OfClient (d : Deployment Hash) : Message Hash → Prop
  | .request msg => d.Made msg.req
  | .unloggedRequest _ | .requestViewChange _ => True
  | _ => False

/-- A message of a client stands for itself. -/
theorem supports_of_ofClient {src dst : Address} {msg : Message Hash} (ofClient : OfClient d msg) :
    s.Supports d src dst msg := by
  cases msg with
  | request msg => exact ofClient
  | unloggedRequest msg => trivial
  | requestViewChange msg => trivial
  | reply msg => exact ofClient.elim
  | unloggedReply msg => exact ofClient.elim
  | sync msg => exact ofClient.elim
  | syncReply msg => exact ofClient.elim
  | startViewChange msg => exact ofClient.elim
  | doViewChange msg => exact ofClient.elim
  | startView msg => exact ofClient.elim
  | inView msg => exact ofClient.elim
  | fillLogGap msg => exact ofClient.elim
  | fillDVCGap msg => exact ofClient.elim

/-- What a step of a client leaves alone, and what it may send. -/
structure Aside (d : Deployment Hash) (s next : System Hash) : Prop where
  replicas : next.replicas = s.replicas
  stopped : next.stopped = s.stopped
  entrances : next.entrances = s.entrances
  answers : next.answers = s.answers
  commits : next.commits = s.commits
  reads : next.reads = s.reads
  network : ∃ more, next.network = s.network ++ more ∧ ∀ packet ∈ more, OfClient d packet.msg

/-- What a client sends to all replicas is one message. -/
theorem ofClient_postAll {clientid : Nat} {msg : Message Hash} (ofClient : OfClient d msg)
    {packet : Packet Hash} (sent : packet ∈ postAll d.configuration clientid msg) :
    OfClient d packet.msg := by
  obtain ⟨idx, -, rfl⟩ := List.mem_map.mp sent
  exact ofClient

/-- A request that a client sends disturbs no replica. -/
theorem aside_requested (clientid clientreqid : Nat) :
    Aside d s (s.requested d clientid clientreqid) where
  replicas := rfl
  stopped := rfl
  entrances := rfl
  answers := rfl
  commits := rfl
  reads := rfl
  network := by
    refine ⟨_, rfl, fun packet sent => ofClient_postAll ?_ sent⟩
    rfl

/-- A request that a client starts disturbs no replica. -/
theorem aside_invoked (clientid : Nat) : Aside d s (s.invoked d clientid) := by
  unfold invoked
  simp only
  split
  · exact ⟨rfl, rfl, rfl, rfl, rfl, rfl, [], (List.append_nil _).symm,
      fun _ none_ => nomatch none_⟩
  · refine ⟨rfl, rfl, rfl, rfl, rfl, rfl, _, rfl, fun packet sent => ofClient_postAll ?_ sent⟩
    rfl

/-- An unlogged request disturbs no replica. -/
theorem aside_askedUnlogged (clientid idx : Nat) (op : String) :
    Aside d s (s.askedUnlogged clientid idx op) := by
  refine ⟨rfl, rfl, rfl, rfl, rfl, rfl, ?_⟩
  unfold askedUnlogged
  simp only
  split
  · exact ⟨[], (List.append_nil _).symm, fun _ none_ => nomatch none_⟩
  · refine ⟨_, rfl, fun packet sent => ?_⟩
    rw [List.mem_singleton.mp sent]
    trivial

/-- The end of an unlogged request disturbs no replica. -/
theorem aside_endedUnlogged (clientid : Nat) : Aside d s (s.endedUnlogged clientid) :=
  ⟨rfl, rfl, rfl, rfl, rfl, rfl, [], (List.append_nil _).symm, fun _ none_ => nomatch none_⟩

/-- A reply that a client handles disturbs no replica. -/
theorem aside_replied [DecidableEq Hash] (clientid : Nat) (msg : SpeculativeReplyMessage Hash) :
    Aside d s (s.replied d clientid msg) := by
  refine ⟨rfl, rfl, rfl, rfl, rfl, rfl, _, rfl, fun packet sent => ?_⟩
  obtain ⟨reaction, -, posted⟩ := List.mem_flatMap.mp sent
  cases reaction with
  | completed reply => nomatch posted
  | requested msg =>
      refine ofClient_postAll ?_ posted
      trivial

/-- A step of a client takes nothing back. -/
theorem Aside.onward (aside : Aside d s next) : s.Onward next where
  running idx going := by
    rw [aside.stopped] at going
    exact ⟨going, aside.replicas ▸ .refl _⟩
  network packet sent := by
    obtain ⟨more, same, -⟩ := aside.network
    exact same ▸ List.mem_append_left _ sent
  entrances _ marked := aside.entrances ▸ marked
  answers _ given := aside.answers ▸ given

/-- A step of a client keeps the invariant. -/
theorem Aside.coherent (aside : Aside d s next) (coherent : s.Coherent d) : next.Coherent d where
  replicas idx going := by
    apply aside.onward.sound
    rw [aside.replicas]
    exact coherent.replicas idx (aside.stopped ▸ going)
  packets packet inNetwork := by
    obtain ⟨more, same, ofClient⟩ := aside.network
    rw [same] at inNetwork
    rcases List.mem_append.mp inNetwork with old | new
    · exact (coherent.packets packet old).onward aside.onward
    · exact supports_of_ofClient (ofClient packet new)

/-- What a message has to grant to be handled under given claims on accesses and commits. -/
def Grants [LinearOrder Hash] (d : Deployment Hash) (s : System Hash) (reads : Read Hash → Prop)
    (commits : Commit Hash → Prop) (idx : Nat) : Message Hash → Prop
  | .syncReply msg =>
    SyncQuorum (d.setup idx) (s.anyTerms d) (s.replicas idx).log.requests msg.view
        msg.lastspeculative →
      commits
        { idx := idx, route := .syncReply, status := .normal, view := msg.view,
          opnum := msg.lastspeculative, log := (s.replicas idx).log.entries }
  | .inView msg =>
    (s.replicas idx).CommitsJoin (d.setup idx) msg →
      commits
        { idx := idx, route := .inView, status := .normal, view := msg.view,
          opnum := msg.lastspeculative, log := (s.replicas idx).log.entries }
  | .doViewChange msg =>
    MergesWhole (d.setup idx)
      (s.terms d (fun vote opnum => reads { idx := idx, msg := vote, opnum := opnum })
        fun _ _ _ _ _ => True) (s.replicas idx) msg
  | _ => True

/-- Every message may be handled where nothing is claimed. -/
theorem grants_any [LinearOrder Hash] {idx : Nat} {msg : Message Hash} :
    s.Grants d (fun _ => True) (fun _ => True) idx msg := by
  unfold Grants
  split
  · exact fun _ => trivial
  · exact fun _ => trivial
  · exact fun _ _ _ _ _ _ => .inr fun _ _ => trivial
  · trivial

/-- What holds of a step: the invariant is kept, nothing is taken back, and what is new among the
accesses and the commits is as claimed. -/
structure Marks (d : Deployment Hash) (s : System Hash) (reads : Read Hash → Prop)
    (commits : Commit Hash → Prop) (next : System Hash) : Prop where
  coherent : next.Coherent d
  onward : s.Onward next
  reads : ∀ access, access ∈ next.reads → access ∈ s.reads ∨ reads access
  commits : ∀ commit, commit ∈ next.commits → commit ∈ s.commits ∨ commits commit

variable {reads : Read Hash → Prop} {commits : Commit Hash → Prop}

/-- A step of a client reads and commits nothing. -/
theorem Aside.marks (aside : Aside d s next) (coherent : s.Coherent d) :
    Marks d s reads commits next where
  coherent := aside.coherent coherent
  onward := aside.onward
  reads _ marked := .inl (aside.reads ▸ marked)
  commits _ marked := .inl (aside.commits ▸ marked)

/-- The terms under which a replica handles a message. -/
def markTerms (d : Deployment Hash) (s : System Hash) (reads : Read Hash → Prop)
    (commits : Commit Hash → Prop) (idx : Nat) : Terms Hash :=
  s.terms d (fun vote opnum => reads { idx := idx, msg := vote, opnum := opnum })
    fun route status view opnum log => commits
      { idx := idx, route := route, status := status, view := view, opnum := opnum, log := log }

/-- A handler marks what it is claimed to mark. -/
theorem marks_absorb {idx : Nat} {handler : Run Hash Unit} (coherent : s.Coherent d)
    (inGroup : idx < d.configuration.n) (running : s.stopped idx = false)
    (keeps : s.Keeps d idx (s.markTerms d reads commits idx) handler) :
    Marks d s reads commits (s.absorb d idx (handler (s.replicas idx))) where
  coherent := coherent_absorb inGroup coherent running keeps
  onward := onward_absorb running keeps
  reads access marked := by
    rcases List.mem_append.mp marked with old | new
    · exact .inl old
    · obtain ⟨output, emitted, same⟩ := List.mem_filterMap.mp new
      obtain ⟨final, -, valid, -⟩ := keeps
      cases output with
      | read msg opnum =>
          obtain rfl := Option.some.inj same
          exact .inr (valid _ emitted)
      | send _ _ => nomatch same
      | answering _ _ _ _ _ => nomatch same
      | entering _ _ => nomatch same
      | committing _ _ _ _ _ => nomatch same
  commits commit marked := by
    rcases List.mem_append.mp marked with old | new
    · exact .inl old
    · obtain ⟨output, emitted, same⟩ := List.mem_filterMap.mp new
      obtain ⟨final, -, valid, -⟩ := keeps
      cases output with
      | committing route status view opnum log =>
          obtain rfl := Option.some.inj same
          exact .inr (valid _ emitted)
      | send _ _ => nomatch same
      | answering _ _ _ _ _ => nomatch same
      | entering _ _ => nomatch same
      | read _ _ => nomatch same

variable [LinearOrder Hash]

/-- A message in transit may be handled, if it grants what is claimed. -/
theorem admissible {src : Address} {idx : Nat} {msg : Message Hash} (coherent : s.Coherent d)
    (inNetwork : { src := src, dst := .replica idx, msg := msg } ∈ s.network)
    (running : s.stopped idx = false) (grants : s.Grants d reads commits idx msg) :
    Admissible (d.setup idx) (s.markTerms d reads commits idx) (s.replicas idx) src msg := by
  have supports := coherent.packets _ inNetwork
  have inTransit : ∀ other, other = msg → ∃ packet ∈ s.network, packet.msg = other :=
    fun _ same => ⟨_, inNetwork, same.symm⟩
  cases msg with
  | request msg => exact supports
  | syncReply msg => exact ⟨inTransit _ rfl, fun quorum => grants { quorum with }⟩
  | inView msg => exact ⟨inTransit _ rfl, grants⟩
  | doViewChange msg => exact ⟨⟨supports.1, supports.2⟩, grants⟩
  | startView msg =>
      obtain ⟨requests, honest, made, -, -⟩ := supports
      refine ⟨fun entry member => ?_, fun _ _ => trivial, fun gap same => ?_⟩
      · obtain ⟨skipped, piece⟩ := honest.piece
        have carried := List.mem_map_of_mem (f := LogEntry.request) member
        rw [piece.carries] at carried
        exact made _ (List.mem_of_mem_drop carried)
      · exact ⟨_, inNetwork, msg, rfl, same.symm⟩
  | fillLogGap msg =>
      obtain ⟨showed, committed⟩ := supports
      refine ⟨fun leads here => ?_, committed⟩
      have leader : d.configuration.getLeaderIndex msg.view = idx := here ▸ leads
      unfold LeaderShowed at showed
      rw [leader] at showed
      have forward : msg.view < (s.replicas idx).view ∨ msg.view = (s.replicas idx).view ∧
          (s.replicas idx).status = .normal ∧ [] <+: (s.replicas idx).log.requests := showed running
      obtain past | ⟨-, normal, -⟩ := forward
      · omega
      · exact normal
  | reply msg => trivial
  | unloggedRequest msg => trivial
  | unloggedReply msg => trivial
  | sync msg => trivial
  | requestViewChange msg => trivial
  | startViewChange msg => trivial
  | fillDVCGap msg => trivial

/-- What is claimed of the accesses and the commits of a step holds of it. -/
theorem marks_step {action : Action} (coherent : s.Coherent d)
    (stepped : s.step d action = some next)
    (readable : ∀ (idx : Nat) (msg : DoViewChangeMessage Hash) (opnum : Nat) (entry : LogEntry Hash),
      msg.entryAt opnum = some entry → reads { idx := idx, msg := msg, opnum := opnum })
    (grants : ∀ position app src idx msg, action = .deliver position app →
      s.network[position]? = some { src := src, dst := .replica idx, msg := msg } →
        idx < d.configuration.n → s.stopped idx = false → s.Grants d reads commits idx msg) :
    Marks d s reads commits next := by
  cases moves_of_step stepped with
  | invoke running => exact (aside_invoked _).marks coherent
  | resend running pending => exact (aside_requested _ _).marks coherent
  | invokeUnlogged running => exact (aside_askedUnlogged _ _ _).marks coherent
  | unloggedTimeout running => exact (aside_endedUnlogged _).marks coherent
  | reply found running => exact (aside_replied _ _).marks coherent
  | unloggedReply found running => exact (aside_endedUnlogged _).marks coherent
  | @receive position app src idx msg found inGroup running =>
      have sound : (s.replicas idx).Sound (d.setup idx) (s.markTerms d reads commits idx) :=
        (coherent.replicas idx running).imp_terms (fun _ sent => sent) fun _ made => made
      exact marks_absorb coherent inGroup running (receiveMessage_meets sound (readable idx)
        (admissible coherent (List.mem_of_getElem? found) running
          (grants position app src idx msg rfl found inGroup running)))
  | @fire idx timer active inGroup running =>
      have sound : (s.replicas idx).Sound (d.setup idx) (s.markTerms d reads commits idx) :=
        (coherent.replicas idx running).imp_terms (fun _ sent => sent) fun _ made => made
      exact marks_absorb coherent inGroup running (fireTimer_meets sound timer)

omit [LinearOrder Hash] in
/-- The state before anything has happened satisfies the invariant. -/
theorem coherent_initial (d : Deployment Hash) : (initial d : System Hash).Coherent d where
  replicas idx _ := {
    log := {
      hashed := .new
      asked := fun _ none_ => nomatch none_
      lastSpeculative := rfl
      lastCommitted := Nat.le_refl _
      states := fun _ _ none_ => by simp [initial, Replica.constructed, Log.new] at none_ }
    quorate := ⟨rfl, rfl, rfl⟩
    replies := fun _ _ _ none_ => by simp [initial, Replica.constructed] at none_
    joined := fun _ _ _ none_ => by simp [initial, Replica.constructed] at none_
    votes := fun _ _ _ none_ => by simp [initial, Replica.constructed] at none_
    pending := fun _ none_ => nomatch none_
    unasked := fun _ _ => rfl
    few := fun _ _ _ => .inl rfl }
  packets _ none_ := nomatch none_

/-- Every state that a run reaches satisfies the invariant. -/
theorem coherent_invariant (guard : System Hash → Action → Prop) :
    (system d).Invariant guard (Coherent d) where
  initial state first := first ▸ coherent_initial d
  preserved {s action next} coherent _ stepped := by
    have marks : Marks d s (fun _ => True) (fun _ => True) next := by
      refine marks_step coherent stepped (fun _ _ _ _ _ => trivial) ?_
      exact fun _ _ _ _ _ _ _ _ _ => grants_any
    exact marks.coherent

end System

end PaxosBus.Spec

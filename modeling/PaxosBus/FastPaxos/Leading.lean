import PaxosBus.FastPaxos.Following

/-!
# The leader

The leader numbers the requests that reach it, and commits a number when enough
followers acknowledge it. An acknowledgement on the slow path speaks for
everything up to its number; one on the fast path speaks for its number only.
-/

set_option autoImplicit false

namespace PaxosBus.FastPaxos

open PaxosBus.Common PaxosBus.Library
open Logic (Meets)

variable {d : Deployment} {strict : Prop} {idx : Nat} {w : Course} {r : Replica} {app : App}

/-- The leader can always repeat its last `Prepare`. -/
theorem resendPrepare_meets (follows : r.core.Follows d w strict idx) :
    (logic d strict idx).Meets (resendPrepare (d.setup idx)) w r fun _ w' r' =>
      w' = w ∧ r'.core = r.core := by
  unfold resendPrepare
  refine .bind (.get follows fun _ => .bind (.require follows fun leader _ => ?_))
  rw [amLeader_iff follows.view] at leader
  refine .branch (fun _ => .pure follows ⟨rfl, rfl⟩) (fun _ => ?_)
  refine .bind (.change follows fun _ => .emit follows (valid_post fun dst => ?_) ⟨rfl, rfl⟩)
  exact (follows.leads leader).prepare

/-! ## Acknowledgements -/

/-- What the leader is after it has counted acknowledgements, where only the replicas in `bound`
can be counted for a number on the fast path. -/
structure Core.Counts (bound : Nat → Finset Nat) (r r' : Core) : Prop where
  settled : r'.Settled
  requests : r'.log.requests = r.log.requests
  committed_le : r.lastCommitted ≤ r'.lastCommitted
  required : r'.fastPrepareOKQuorum.numRequired = r.fastPrepareOKQuorum.numRequired
  bounded : ∀ opnum, senders (r'.fastPrepareOKQuorum.messages ⟨0, opnum⟩) ⊆ bound opnum

theorem Core.Counts.trans {bound : Nat → Finset Nat} {r r' r'' : Core}
    (first : r.Counts bound r') (second : r'.Counts bound r'') : r.Counts bound r'' where
  settled := second.settled
  requests := second.requests.trans first.requests
  committed_le := first.committed_le.trans second.committed_le
  required := second.required.trans first.required
  bounded := second.bounded

/-- A quorum for a number, all of it and everything before being covered, commits the number. -/
theorem commitPrepared_meets {bound : Nat → Finset Nat} {msg : PrepareOKMessage}
    {request : Request} {numRequired : Nat} {msgs : Std.TreeMap Nat PrepareOKMessage}
    (leader : idx = d.leader) (follows : r.core.Follows d w strict idx)
    (settled : r.core.Settled) (new : r.lastCommitted < msg.opnum)
    (here : w.At msg.opnum request)
    (bounded : ∀ opnum, senders (r.fastPrepareOKQuorum.messages ⟨0, opnum⟩) ⊆ bound opnum)
    (covered : strict → ∀ opnum, r.lastCommitted < opnum → opnum ≤ msg.opnum →
      w.Covered d opnum) :
    (logic d strict idx).Meets (commitPrepared app msg request numRequired msgs) w r
      fun _ w' r' => w' = w ∧ r.core.Counts bound r'.core := by
  have le : msg.opnum ≤ w.log.length := by
    have inside := (List.getElem?_eq_some_iff.mp here.2).1
    omega
  have agrees := (follows.leads leader).agrees le
  unfold commitPrepared
  refine .bind ((commitUpTo_meets follows settled.counted agrees fun _ => covered).imp ?_)
  rintro _ w' r' follows' ⟨rfl, settled', undisturbed, committed, -⟩ _
  have counts : r.core.Counts bound r'.core := {
    settled := settled'
    requests := undisturbed.requests
    committed_le := by
      simp only [Replica.core]
      omega
    required := congrArg QuorumSet.numRequired undisturbed.fastPrepareOKQuorum
    bounded := fun opnum => by
      rw [undisturbed.fastPrepareOKQuorum]
      exact bounded opnum }
  refine .branch (fun _ => .pure follows' ⟨rfl, counts⟩) (fun _ => ?_)
  refine .bind (.get follows' fun _ => .emit follows' (valid_post fun dst => ?_) ⟨rfl, counts⟩)
  have number : r'.lastCommitted = msg.opnum := by omega
  exact ⟨follows'.view, number ▸ here⟩

/-- The replicas of a set that has a quorum. -/
theorem le_card_of_checkForQuorum {quorum : QuorumSet Viewstamp PrepareOKMessage} {vs : Viewstamp}
    {msgs : Std.TreeMap Nat PrepareOKMessage} (found : quorum.checkForQuorum vs = some msgs) :
    quorum.numRequired ≤ (senders (quorum.messages vs)).card := by
  unfold QuorumSet.checkForQuorum at found
  split at found
  next enough =>
      rw [card_senders]
      exact enough
  next => simp at found

/-- The senders of a set to which a message is added. -/
theorem senders_add {quorum : QuorumSet Viewstamp PrepareOKMessage} {vs other : Viewstamp}
    {replicaIdx sender : Nat} {msg : PrepareOKMessage}
    (member : sender ∈ senders ((quorum.add vs replicaIdx msg).messages other)) :
    sender ∈ senders (quorum.messages other) ∨ other = vs ∧ sender = replicaIdx := by
  obtain ⟨found, present⟩ := mem_senders.mp member
  by_cases same : other = vs
  · subst same
    simp only [QuorumSet.add, Function.update_self, Std.TreeMap.getElem?_insert] at present
    split at present
    next equal =>
        obtain rfl : replicaIdx = sender := by simpa using equal
        exact .inr ⟨rfl, rfl⟩
    next => exact .inl (mem_senders.mpr ⟨found, present⟩)
  · simp only [QuorumSet.add, Function.update_of_ne same] at present
    exact .inl (mem_senders.mpr ⟨found, present⟩)

/-- What a quorum on the slow path for a number covers: everything up to it. -/
theorem covered_of_slow {quorum : QuorumSet Viewstamp PrepareOKMessage} {vs : Viewstamp}
    (acks : quorum.All fun vs replicaIdx _ =>
      replicaIdx < d.configuration.n ∧ replicaIdx ≠ d.leader ∧ vs.opnum ≤ w.slow replicaIdx)
    (required : d.configuration.f ≤ quorum.numRequired)
    (enough : quorum.numRequired ≤ (senders (quorum.messages vs)).card) {opnum : Nat}
    (le : opnum ≤ vs.opnum) : w.Covered d opnum := by
  refine ⟨senders (quorum.messages vs), required.trans enough, fun replicaIdx member => ?_⟩
  obtain ⟨msg, present⟩ := mem_senders.mp member
  obtain ⟨inGroup, follower, slow⟩ := acks vs replicaIdx msg present
  exact ⟨inGroup, follower, .inl (le.trans slow)⟩

/-- What a quorum on the fast path for a number covers: the number. -/
theorem covered_of_fast {quorum : QuorumSet Viewstamp PrepareOKMessage} {vs : Viewstamp}
    (acks : quorum.All fun vs replicaIdx _ =>
      replicaIdx < d.configuration.n ∧ replicaIdx ≠ d.leader ∧ w.Holds replicaIdx vs.opnum)
    (required : d.configuration.f ≤ quorum.numRequired)
    (enough : quorum.numRequired ≤ (senders (quorum.messages vs)).card) :
    w.Covered d vs.opnum := by
  refine ⟨senders (quorum.messages vs), required.trans enough, fun replicaIdx member => ?_⟩
  obtain ⟨msg, present⟩ := mem_senders.mp member
  exact acks vs replicaIdx msg present

/-- An acknowledgement on the fast path that the leader counts: it is for the leader's request. -/
structure PrepareOKMessage.Matches (requests : List Request) (msg : PrepareOKMessage) : Prop where
  fast : msg.slowpath = 0
  positive : 0 < msg.opnum
  same : requests[msg.opnum - 1]?.map Request.reqid = some msg.req.reqid

instance (requests : List Request) (msg : PrepareOKMessage) : Decidable (msg.Matches requests) :=
  decidable_of_iff (msg.slowpath = 0 ∧ 0 < msg.opnum ∧
      requests[msg.opnum - 1]?.map Request.reqid = some msg.req.reqid)
    ⟨fun ⟨fast, positive, same⟩ => ⟨fast, positive, same⟩,
      fun ⟨fast, positive, same⟩ => ⟨fast, positive, same⟩⟩

/-- A client's request is determined by its number. -/
theorem eq_of_reqid {a b : Request} (numbers : d.Numbers a) (numbers' : d.Numbers b)
    (same : a.reqid = b.reqid) : a = b := by
  have clientid : a.clientid = b.clientid := congrArg Prod.fst same
  have clientreqid : a.clientreqid = b.clientreqid := congrArg Prod.snd same
  unfold Deployment.Numbers at numbers numbers'
  rw [numbers, numbers', clientid, clientreqid]

/-- The leader counts an acknowledgement. Under `strict`, when that makes a quorum on the fast
path, everything between what is committed and the number has to be covered already. -/
theorem countPrepareOK_meets {bound : Nat → Finset Nat} {msg : PrepareOKMessage}
    {request : Request} (leader : idx = d.leader) (follows : r.core.Follows d w strict idx)
    (settled : r.core.Settled) (valid : msg.Valid d w) (new : r.lastCommitted < msg.opnum)
    (here : w.At msg.opnum request)
    (same : msg.slowpath = 0 → request.reqid = msg.req.reqid)
    (bounded : ∀ opnum, senders (r.fastPrepareOKQuorum.messages ⟨0, opnum⟩) ⊆ bound opnum)
    (mine : msg.Matches w.log → msg.replicaIdx ∈ bound msg.opnum)
    (gapless : strict → msg.Matches w.log →
      r.fastPrepareOKQuorum.numRequired ≤ (bound msg.opnum).card →
        ∀ opnum, r.lastCommitted < opnum → opnum < msg.opnum → w.Covered d opnum) :
    (logic d strict idx).Meets (countPrepareOK app msg request) w r
      fun _ w' r' => w' = w ∧ r.core.Counts bound r'.core := by
  have leads := follows.leads leader
  unfold countPrepareOK
  rw [valid.view]
  refine .bind (.get follows fun _ => ?_)
  refine .branch (fun slow => ?_) (fun fast => ?_)
  · have added : (r.slowPrepareOKQuorum.add ⟨0, msg.opnum⟩ msg.replicaIdx msg).All _ :=
      leads.slowAcks.add ⟨valid.sender, valid.follower, valid.slow slow⟩
    have kept : ({ r.core with
        slowPrepareOKQuorum := r.slowPrepareOKQuorum.add ⟨0, msg.opnum⟩ msg.replicaIdx
          msg } : Core).Follows d w strict idx :=
      { follows with leads := fun _ => { leads with slowAcks := added } }
    have rest : r.core.Counts bound { r.core with
        slowPrepareOKQuorum := r.slowPrepareOKQuorum.add ⟨0, msg.opnum⟩ msg.replicaIdx
          msg } :=
      ⟨{ settled with }, rfl, Nat.le_refl _, rfl, bounded⟩
    refine .bind (.change kept fun _ => ?_)
    split
    next => exact .pure kept ⟨rfl, rest⟩
    next msgs found =>
        have enough := le_card_of_checkForQuorum found
        refine (commitPrepared_meets (r := { r with
            slowPrepareOKQuorum := r.slowPrepareOKQuorum.add ⟨0, msg.opnum⟩ msg.replicaIdx msg })
          leader kept rest.settled new here bounded
          fun _ opnum _ le => covered_of_slow added leads.slowRequired enough le).imp ?_
        rintro _ w' r' _ ⟨rfl, counts⟩
        exact ⟨rfl, rest.trans counts⟩
  · have fast : msg.slowpath = 0 := not_not.mp fast
    obtain ⟨numbers, guessed⟩ := valid.fast fast
    have equal : request = msg.req :=
      eq_of_reqid (leads.numbers request (List.mem_of_getElem? here.2)) numbers (same fast)
    have matches_ : msg.Matches w.log := ⟨fast, here.1, by rw [here.2, equal]; rfl⟩
    have holds : w.Holds msg.replicaIdx msg.opnum := .inr ⟨msg.req, equal ▸ here, guessed⟩
    have added : (r.fastPrepareOKQuorum.add ⟨0, msg.opnum⟩ msg.replicaIdx msg).All _ :=
      leads.fastAcks.add ⟨valid.sender, valid.follower, holds⟩
    have kept : ({ r.core with
        fastPrepareOKQuorum := r.fastPrepareOKQuorum.add ⟨0, msg.opnum⟩ msg.replicaIdx
          msg } : Core).Follows d w strict idx :=
      { follows with leads := fun _ => { leads with fastAcks := added } }
    have within : ∀ opnum, senders ((r.fastPrepareOKQuorum.add ⟨0, msg.opnum⟩
        msg.replicaIdx msg).messages ⟨0, opnum⟩) ⊆ bound opnum := by
      intro opnum sender member
      rcases senders_add member with before | ⟨vs, rfl⟩
      · exact bounded opnum before
      · obtain rfl : opnum = msg.opnum := congrArg Viewstamp.opnum vs
        exact mine matches_
    have rest : r.core.Counts bound { r.core with
        fastPrepareOKQuorum := r.fastPrepareOKQuorum.add ⟨0, msg.opnum⟩ msg.replicaIdx
          msg } :=
      ⟨{ settled with }, rfl, Nat.le_refl _, rfl, within⟩
    refine .bind (.change kept fun _ => ?_)
    split
    next => exact .pure kept ⟨rfl, rest⟩
    next msgs found =>
        have enough := le_card_of_checkForQuorum found
        have quorate := enough.trans (Finset.card_le_card (within msg.opnum))
        refine (commitPrepared_meets (r := { r with
            fastPrepareOKQuorum := r.fastPrepareOKQuorum.add ⟨0, msg.opnum⟩ msg.replicaIdx msg })
          leader kept rest.settled new here within ?_).imp ?_
        · intro strict_ opnum above le
          rcases Nat.lt_or_eq_of_le le with before | rfl
          · exact gapless strict_ matches_ quorate opnum above before
          · exact covered_of_fast added leads.fastRequired enough
        · rintro _ w' r' _ ⟨rfl, counts⟩
          exact ⟨rfl, rest.trans counts⟩

/-- The leader handles a `PrepareOK`, under the same conditions. -/
theorem handlePrepareOK_meets {bound : Nat → Finset Nat} {remote : Address}
    {msg : PrepareOKMessage} (leader : idx = d.leader) (follows : r.core.Follows d w strict idx)
    (settled : r.core.Settled) (valid : msg.Valid d w)
    (bounded : ∀ opnum, senders (r.fastPrepareOKQuorum.messages ⟨0, opnum⟩) ⊆ bound opnum)
    (mine : msg.Matches w.log → msg.replicaIdx ∈ bound msg.opnum)
    (gapless : strict → msg.Matches w.log →
      r.fastPrepareOKQuorum.numRequired ≤ (bound msg.opnum).card →
        ∀ opnum, r.lastCommitted < opnum → opnum < msg.opnum → w.Covered d opnum) :
    (logic d strict idx).Meets (handlePrepareOK (d.setup idx) app remote msg) w r
      fun _ w' r' => w' = w ∧ r.core.Counts bound r'.core := by
  have leads := follows.leads leader
  have view : r.view = 0 := follows.view
  have rest : ∀ r' : Core, r' = r.core → r.core.Counts bound r' := by
    rintro r' rfl
    exact ⟨settled, rfl, Nat.le_refl _, rfl, bounded⟩
  unfold handlePrepareOK
  refine .bind (.get follows fun _ => ?_)
  refine .branch (fun _ => .pure follows ⟨rfl, rest _ rfl⟩) (fun _ => ?_)
  refine .branch (fun _ => .pure follows ⟨rfl, rest _ rfl⟩) (fun _ => ?_)
  refine .branch (fun later => absurd later (by rw [valid.view]; omega)) (fun _ => ?_)
  refine .branch (fun _ => .pure follows ⟨rfl, rest _ rfl⟩) (fun _ => ?_)
  refine .branch (fun _ => .pure follows ⟨rfl, rest _ rfl⟩) (fun new => ?_)
  refine .branch (fun _ => ?_) (fun _ => ?_)
  · have deferred : ({ r.core with
        pendingPrepareOKs := r.pendingPrepareOKs ++ [(remote, msg)] } : Core).Follows d w strict
          idx :=
      { follows with
        leads := fun _ =>
          { leads with
            pending := fun entry inPending => by
              rcases List.mem_append.mp inPending with before | added
              · exact leads.pending entry before
              · obtain rfl := List.mem_singleton.mp added
                exact valid } }
    exact .change deferred ⟨rfl, { settled with }, rfl, Nat.le_refl _, rfl, bounded⟩
  · refine .bind (.demand follows fun entry found _ => .bind (.require follows fun _ _ => ?_))
    obtain ⟨positive, has⟩ := follows.request_of_find found
    have here : w.At msg.opnum entry.request := ⟨positive, leads.log ▸ has⟩
    refine .branch (fun _ => ?_) (fun agree => ?_)
    · refine (resendPrepare_meets follows).imp ?_
      rintro _ w' r' _ ⟨rfl, same⟩
      exact ⟨rfl, rest _ same⟩
    · have same : msg.slowpath = 0 → entry.request.reqid = msg.req.reqid := by
        intro fast
        simp only [fast, true_and, not_or, not_not] at agree
        exact Prod.ext agree.1 agree.2
      exact countPrepareOK_meets leader follows settled valid (Nat.not_le.mp new) here same bounded
        mine gapless

/-- A follower ignores a `PrepareOK`. -/
theorem handlePrepareOK_follower_meets {remote : Address} {msg : PrepareOKMessage}
    (follower : idx ≠ d.leader) (follows : r.core.Follows d w strict idx)
    (settled : r.core.Settled) (valid : msg.Valid d w) :
    (logic d strict idx).Meets (handlePrepareOK (d.setup idx) app remote msg) w r
      fun _ w' r' => r'.core.Leaves d idx w w' := by
  have view : r.view = 0 := follows.view
  have rest : r.core.Leaves d idx w w := ⟨.refl w, settled⟩
  unfold handlePrepareOK
  refine .bind (.get follows fun _ => ?_)
  refine .branch (fun _ => .pure follows rest) (fun _ => ?_)
  refine .branch (fun _ => .pure follows rest) (fun _ => ?_)
  refine .branch (fun later => absurd later (by rw [valid.view]; omega)) (fun _ => ?_)
  refine .branch (fun _ => .pure follows rest) (fun leader => ?_)
  rw [not_not, amLeader_iff view] at leader
  exact absurd leader follower

/-! ## Requests -/

/-- The course after the leader has numbered another request. -/
def Course.extend (w : Course) (req : Request) : Course := { w with log := w.log ++ [req] }

theorem Course.later_extend (leader : idx = d.leader) (req : Request) :
    w.Later d idx (w.extend req) where
  log := List.prefix_append _ _
  same follower := absurd leader follower
  slow _ := Nat.le_refl _
  committed _ := Nat.le_refl _
  guessed _ _ _ guessed := guessed
  frame _ _ := ⟨rfl, rfl, rfl⟩

/-- The replicas that can be counted for a number on the fast path while some acknowledgements
are handled, when the leader has some requests. -/
def Core.ackers (r : Core) (requests : List Request) (acks : List PrepareOKMessage)
    (opnum : Nat) : Finset Nat :=
  senders (r.fastPrepareOKQuorum.messages ⟨0, opnum⟩) ∪
    ((acks.filter fun ack => ack.Matches requests ∧ ack.opnum = opnum).map
      (·.replicaIdx)).toFinset

theorem Core.mem_ackers {r : Core} {requests : List Request} {acks : List PrepareOKMessage}
    {ack : PrepareOKMessage} (member : ack ∈ acks) (matches_ : ack.Matches requests) :
    ack.replicaIdx ∈ r.ackers requests acks ack.opnum := by
  refine Finset.mem_union_right _ (List.mem_toFinset.mpr (List.mem_map.mpr ⟨ack, ?_, rfl⟩))
  exact List.mem_filter.mpr ⟨member, by simpa using matches_⟩

/-- While some acknowledgements are handled, the fast path makes a quorum for a number only if
everything between what is committed and the number is covered. -/
def Core.Gapless (d : Deployment) (w : Course) (requests : List Request)
    (acks : List PrepareOKMessage) (r : Core) : Prop :=
  ∀ ack ∈ acks, ack.Matches requests →
    r.fastPrepareOKQuorum.numRequired ≤ (r.ackers requests acks ack.opnum).card →
      ∀ opnum, r.lastCommitted < opnum → opnum < ack.opnum → w.Covered d opnum

/-- The leader's log with another request. -/
theorem Core.Follows.number {r : Core} (leader : idx = d.leader)
    (follows : r.Follows d w strict idx) {req : Request} (numbers : d.Numbers req)
    (known : ∃ entry, r.clientTable req.clientid = some entry ∧ req.clientreqid ≤ entry.lastReqId)
    (fresh : req.reqid ∉ w.log.map Request.reqid) {log : Log Unit} {state : LogEntryState}
    (appended : r.log.append ⟨r.view, r.lastSlowPath + 1⟩ req state = some log) :
    ({ r with
      lastSlowPath := r.lastSlowPath + 1
      lastFastPath := r.lastSlowPath + 1
      log := log
      lastPrepare := { view := r.view, opnum := r.lastSlowPath + 1, req := req } } : Core).Follows
        d (w.extend req) strict idx := by
  have leads := follows.leads leader
  have later := Course.later_extend (w := w) leader req
  obtain ⟨-, start, operations⟩ := Log.of_append appended
  have requests := Log.requests_of_append appended
  have log_eq : (w.extend req).log = log.requests := by
    rw [requests, ← leads.log]
    rfl
  have length : log.requests.length = r.lastSlowPath + 1 := by
    rw [requests, List.length_append, follows.length, leads.paths]
    rfl
  have committed_le : r.lastCommitted ≤ r.lastSlowPath := by
    have known := follows.known_le_fast
    rw [← leads.paths] at known
    exact (Nat.le_max_right _ _).trans known
  have known_eq : max (r.lastSlowPath + 1) r.lastCommitted = r.lastSlowPath + 1 := by omega
  exact { follows with
    start := start.trans follows.start
    views := fun operation member => by
      rw [operations] at member
      rcases List.mem_append.mp member with old | new
      · exact follows.views operation old
      · obtain rfl := List.mem_singleton.mp new
        exact follows.view
    length := length
    slow_le := Nat.le_refl _
    known_le := by
      rw [log_eq, length]
      exact known_eq.le
    agreed := fun index _ => by rw [log_eq]
    executed := follows.executed.trans later.log
    slow := by
      have known := follows.known_le_fast
      rw [← leads.paths] at known
      have slow := follows.slow.trans known
      simp only [Core.known, known_eq]
      exact slow.trans (Nat.le_succ _)
    guessed := fun opnum other guessed => by
      have has : ∀ {other : Request}, r.log.requests[opnum - 1]? = some other →
          log.requests[opnum - 1]? = some other := fun here =>
        getElem?_of_extends ⟨[req], requests.symm⟩ here
      rcases follows.guessed opnum other guessed with own | ⟨mine, here, own⟩
      · exact .inl (has own)
      · exact .inr ⟨mine, getElem?_of_extends later.log here, has own⟩
    prepares := fun entry inPending => (follows.prepares entry inPending).later later.log
    leads := fun _ =>
      { log := log_eq
        paths := rfl
        prepare := by
          refine ⟨follows.view, fun _ => ⟨Nat.succ_pos _, ?_⟩⟩
          change (w.log ++ [req])[r.lastSlowPath]? = some req
          rw [leads.log, leads.paths, ← follows.length,
            List.getElem?_append_right (Nat.le_refl _), Nat.sub_self]
          rfl
        numbers := fun other inLog => by
          rcases List.mem_append.mp inLog with old | new
          · exact leads.numbers other old
          · obtain rfl := List.mem_singleton.mp new
            exact numbers
        table := fun other inLog => by
          rcases List.mem_append.mp inLog with old | new
          · exact leads.table other old
          · obtain rfl := List.mem_singleton.mp new
            exact known
        once := by
          change ((w.log ++ [req]).map Request.reqid).Nodup
          rw [List.map_append]
          refine List.Nodup.append leads.once (List.nodup_singleton _) ?_
          intro reqid before new
          obtain rfl := List.mem_singleton.mp new
          exact fresh before
        pending := fun entry inPending => (leads.pending entry inPending).later later
        slowRequired := leads.slowRequired
        fastRequired := leads.fastRequired
        slowAcks := leads.slowAcks
        fastAcks := leads.fastAcks.imp fun _ _ _ ack => ⟨ack.1, ack.2.1, ack.2.2.later later⟩
        covered := fun strict_ opnum positive le =>
          (leads.covered strict_ opnum positive le).later later } }

/-- The leader adds a new request, and handles the acknowledgements that had to wait for it. -/
theorem acceptRequest_meets {msg : RequestMessage} (leader : idx = d.leader)
    (follows : r.core.Follows d w strict idx) (settled : r.core.Settled)
    (numbers : d.Numbers msg.req)
    (known : ∃ entry, r.clientTable msg.req.clientid = some entry ∧
      msg.req.clientreqid ≤ entry.lastReqId)
    (fresh : msg.req.reqid ∉ w.log.map Request.reqid)
    (gapless : strict →
      r.core.Gapless d w (w.log ++ [msg.req]) (r.pendingPrepareOKs.map Prod.snd)) :
    (logic d strict idx).Meets (acceptRequest (d.setup idx) app msg) w r fun _ w' r' =>
      r'.core.Leaves d idx w w' := by
  have leads := follows.leads leader
  have later := Course.later_extend (w := w) leader msg.req
  unfold acceptRequest
  refine .bind (.get follows fun _ => .bind (.require follows fun _ _ => ?_))
  refine .bind (.demand follows fun log appended _ => ?_)
  have numbered := follows.number leader numbers known fresh appended
  refine .bind (.modify later numbered fun _ => .bind (.get numbered fun _ => ?_))
  have emptied : ({ r.core with
      lastSlowPath := r.lastSlowPath + 1
      lastFastPath := r.lastSlowPath + 1
      log := log
      lastPrepare := { view := r.view, opnum := r.lastSlowPath + 1, req := msg.req }
      pendingPrepareOKs := [] } : Core).Follows d (w.extend msg.req) strict idx :=
    { numbered with
      leads := fun _ =>
        { numbered.leads leader with pending := fun _ none_ => nomatch none_ } }
  have settled' : ({ r.core with
      lastSlowPath := r.lastSlowPath + 1
      lastFastPath := r.lastSlowPath + 1
      log := log
      lastPrepare := { view := r.view, opnum := r.lastSlowPath + 1, req := msg.req }
      pendingPrepareOKs := [] } : Core).Settled :=
    ⟨settled.counted, settled.committed_le.trans (Nat.le_succ _)⟩
  refine .bind (.change emptied fun _ => ?_)
  -- each acknowledgement can be counted only for a replica that is among the ackers
  refine (Meets.forEach (fun w' (r' : Replica) => w' = w.extend msg.req ∧
    Core.Counts (r.core.ackers (w.log ++ [msg.req]) (r.pendingPrepareOKs.map Prod.snd))
      { r.core with log := log } r'.core) ?_ emptied ?_).imp ?_
  · rintro ⟨remote, ack⟩ inPending w' r' follows' ⟨rfl, counts⟩
    have valid := (leads.pending _ inPending).later later
    have inAcks : ack ∈ r.pendingPrepareOKs.map Prod.snd :=
      List.mem_map.mpr ⟨(remote, ack), inPending, rfl⟩
    refine (handlePrepareOK_meets leader follows' counts.settled valid counts.bounded
      (Core.mem_ackers inAcks) ?_).imp ?_
    · intro strict_ matches_ enough opnum above below
      have required : r'.fastPrepareOKQuorum.numRequired = _ := counts.required
      rw [required] at enough
      have covered := gapless strict_ ack inAcks matches_ enough opnum
        (counts.committed_le.trans_lt above) below
      exact covered.later later
    · rintro _ w'' r'' _ ⟨rfl, more⟩
      exact ⟨rfl, counts.trans more⟩
  · exact ⟨rfl, settled', rfl, Nat.le_refl _, rfl, fun opnum => Finset.subset_union_left⟩
  · rintro _ w' r' _ ⟨rfl, counts⟩
    exact ⟨later, counts.settled⟩

/-- The client table knows a request that it has noted. -/
theorem known_updateClientTable (r : Replica) (req : Request) :
    ∃ entry, (r.updateClientTable req).clientTable req.clientid = some entry ∧
      req.clientreqid ≤ entry.lastReqId := by
  unfold Replica.updateClientTable
  dsimp only
  split
  next le => exact ⟨r.tableEntry req.clientid, by simp [Replica.setTableEntry], le⟩
  next => exact ⟨{ lastReqId := req.clientreqid }, by simp [Replica.setTableEntry], Nat.le_refl _⟩

/-- Any replica handles a request that is not a duplicate. -/
theorem newRequest_meets {msg : RequestMessage} (inGroup : idx < d.configuration.n)
    (follows : r.core.Follows d w strict idx) (settled : r.core.Settled)
    (numbers : d.Numbers msg.req)
    (fresh : idx = d.leader → msg.req.reqid ∉ w.log.map Request.reqid)
    (gapless : idx = d.leader → strict →
      r.core.Gapless d w (w.log ++ [msg.req]) (r.pendingPrepareOKs.map Prod.snd)) :
    (logic d strict idx).Meets (newRequest (d.setup idx) app msg) w r fun _ w' r' =>
      r'.core.Leaves d idx w w' := by
  have noted := updateClientTable_keeps follows msg.req
  have core := core_updateClientTable (r := r) msg.req
  have settled' : (r.updateClientTable msg.req).core.Settled := by
    rw [core]
    exact { settled with }
  have pending : (r.updateClientTable msg.req).pendingPrepareOKs = r.pendingPrepareOKs :=
    congrArg Core.pendingPrepareOKs core
  unfold newRequest
  refine .bind (.change noted fun _ => .bind (.get noted fun _ => ?_))
  refine .branch (fun leads => ?_) (fun follower => ?_)
  · rw [amLeader_iff noted.view] at leads
    refine acceptRequest_meets leads noted settled' numbers (known_updateClientTable r msg.req)
      (fresh leads) fun strict_ => ?_
    rw [core, pending]
    exact gapless leads strict_
  · rw [amLeader_iff noted.view] at follower
    exact guessRequest_meets inGroup follower noted settled' numbers

/-- The leader's client table does not know the request. -/
def Replica.Accepts (r : Replica) (req : Request) : Prop :=
  ∀ entry ∈ r.clientTable req.clientid, entry.lastReqId < req.clientreqid

instance (r : Replica) (req : Request) : Decidable (r.Accepts req) := by
  unfold Replica.Accepts
  cases r.clientTable req.clientid with
  | none => exact .isTrue (by simp)
  | some entry => exact decidable_of_iff (entry.lastReqId < req.clientreqid) (by simp)

/-- A request that the leader's client table does not know is not in the leader's log. -/
theorem Core.Leads.fresh (leads : r.core.Leads d w strict) {req : Request}
    (accepts : r.Accepts req) : req.reqid ∉ w.log.map Request.reqid := by
  intro member
  obtain ⟨other, inLog, same⟩ := List.mem_map.mp member
  obtain ⟨entry, known, le⟩ := leads.table other inLog
  have clientid : other.clientid = req.clientid := congrArg Prod.fst same
  have clientreqid : other.clientreqid = req.clientreqid := congrArg Prod.snd same
  rw [clientid] at known
  have less := accepts entry known
  omega

/-- Any replica handles a request. -/
theorem handleRequest_meets {remote : Address} {msg : RequestMessage}
    (inGroup : idx < d.configuration.n) (follows : r.core.Follows d w strict idx)
    (settled : r.core.Settled) (numbers : d.Numbers msg.req)
    (gapless : idx = d.leader → strict → r.Accepts msg.req →
      r.core.Gapless d w (w.log ++ [msg.req]) (r.pendingPrepareOKs.map Prod.snd)) :
    (logic d strict idx).Meets (handleRequest (d.setup idx) app remote msg) w r fun _ w' r' =>
      r'.core.Leaves d idx w w' := by
  have accept : ∀ r' : Replica, r'.core = r.core → r.Accepts msg.req →
      (logic d strict idx).Meets (newRequest (d.setup idx) app msg) w r' fun _ w' r'' =>
        r''.core.Leaves d idx w w' := by
    intro r' same accepts
    have pending : r'.pendingPrepareOKs = r.pendingPrepareOKs :=
      congrArg Core.pendingPrepareOKs same
    refine newRequest_meets inGroup (same ▸ follows) (same ▸ settled) numbers
      (fun leader => (follows.leads leader).fresh accepts) fun leader strict_ => ?_
    rw [same, pending]
    exact gapless leader strict_ accepts
  have rest : r.core.Leaves d idx w w := ⟨.refl w, settled⟩
  unfold handleRequest
  refine .bind (.get follows fun _ => .branch (fun _ => .pure follows rest) fun _ => ?_)
  refine .bind (.change follows fun _ => ?_)
  split
  next unknown => exact accept _ rfl (by simp [Replica.Accepts, unknown])
  next entry known =>
      refine .branch (fun _ => .pure follows rest) (fun old => ?_)
      refine .branch (fun _ => ?_) (fun other => ?_)
      · refine .branch (fun _ => ?_) (fun _ => .pure follows rest)
        exact .emit follows (valid_post fun dst => trivial) rest
      · have less : entry.lastReqId < msg.req.clientreqid := by omega
        exact accept _ rfl (by simpa [Replica.Accepts, known] using less)

/-! ## State transfer -/

/-- A dump of a log from one view. -/
theorem Core.Follows.piece_dump {r : Core} (leader : idx = d.leader)
    (follows : r.Follows d w strict idx) (opnum : Nat) : Piece w opnum (r.log.dump (opnum + 1)) := by
  intro index entry here
  have start := follows.start
  unfold Log.dump at here
  have from_ : max (opnum + 1) r.log.start - r.log.start = opnum := by omega
  rw [from_, List.getElem?_drop] at here
  have number := r.log.numbered _ entry here
  have view : entry.viewstamp.view = 0 :=
    follows.views entry.operation (List.mem_map.mpr ⟨entry, List.mem_of_getElem? here, rfl⟩)
  have request : r.log.requests[opnum + index]? = some entry.request := by
    unfold Log.requests
    rw [List.getElem?_map, here, Option.map_some]
  refine ⟨?_, Nat.succ_le_of_lt (by omega), ?_⟩
  · rw [start] at number
    cases stamp : entry.viewstamp with
    | mk v o =>
        rw [stamp] at number view
        simp only at number view
        rw [view, number]
        congr 1
        omega
  · rw [(follows.leads leader).log, show opnum + 1 + index - 1 = opnum + index by omega]
    exact request

/-- Any replica handles a `RequestStateTransfer`; the leader answers it. -/
theorem handleRequestStateTransfer_meets {src : Nat} {msg : RequestStateTransferMessage}
    (follows : r.core.Follows d w strict idx) (settled : r.core.Settled)
    (valid : msg.Valid d w src) :
    (logic d strict idx).Meets (handleRequestStateTransfer (d.setup idx) (.replica src) msg) w r
      fun _ w' r' => r'.core.Leaves d idx w w' := by
  have view : r.view = 0 := follows.view
  have rest : r.core.Leaves d idx w w := ⟨.refl w, settled⟩
  unfold handleRequestStateTransfer
  refine .bind (.get follows fun _ => ?_)
  refine .branch (fun _ => .pure follows rest) (fun _ => ?_)
  refine .branch (fun later => absurd later (by rw [valid.1]; omega)) (fun _ => ?_)
  refine .branch (fun _ => .pure follows rest) (fun leader => ?_)
  rw [not_not, amLeader_iff view] at leader
  refine .bind (.require follows fun _ _ => .emit follows ?_ rest)
  rintro ⟨from_, dst, content⟩ posted
  obtain ⟨-, rfl, addressed⟩ := of_mem_post posted
  have to_ : dst = .replica src := addressed _ rfl
  rintro other same
  obtain rfl : src = other := Address.replica.inj (to_.symm.trans same)
  exact ⟨view, valid.2.1, msg.opnum, valid.2.2, follows.piece_dump leader msg.opnum⟩

end PaxosBus.FastPaxos

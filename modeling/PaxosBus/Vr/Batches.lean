import PaxosBus.Library.Returning
import PaxosBus.Library.Tiling
import PaxosBus.Vr.Leading
import PaxosBus.Vr.Safety

/-!
# The batches of a leader

A leader hands out the operation numbers after the log that its view started
with in consecutive ranges, and what is not handed out yet was assigned in its
view, so that the next batch can be closed. This holds along the runs of defined
steps in which no replica takes the lead with an operation number that is not
that of its log, and none leads a view twice; a leader that has lagged behind
loses it.
-/

set_option autoImplicit false

namespace PaxosBus.Vr

open PaxosBus.Common PaxosBus.Library

variable {d : Deployment} {s : System} {setup : Setup} {app : App} {idx : Nat}

/-! ## What has been sent -/

/-- The batch of a view that a packet of a replica brings. -/
def Packet.batch (src view : Nat) : Packet → Option PrepareMessage
  | ⟨.replica idx, _, .prepare p⟩ => if idx = src ∧ p.view = view then some p else none
  | _ => none

/-- The batches of a view that a replica has handed to the transport, in this order, one for each
packet. -/
def System.batches (s : System) (src view : Nat) : List PrepareMessage :=
  s.network.filterMap (Packet.batch src view)

/-- A view has a leader: it is the first one, or it has been started. -/
def Led (started : List (Nat × List Entry)) (view : Nat) : Prop :=
  view = 0 ∨ ∃ mark ∈ started, mark.1 = view

instance (started : List (Nat × List Entry)) : DecidablePred (Led started) :=
  fun _ => inferInstanceAs (Decidable (_ ∨ _))

/-- The length of the log that a view has started with. -/
def startLength (started : List (Nat × List Entry)) (view : Nat) : Nat :=
  ((started.find? fun mark => mark.1 = view).map fun mark => mark.2.length).getD 0

section Marks

variable {started : List (Nat × List Entry)} {view other : Nat} {entries : List Entry}

/-- A view that is started has a leader from then on. -/
theorem Led.mono (led : Led started other) : Led (started ++ [(view, entries)]) other := by
  rcases led with first | ⟨mark, member, same⟩
  · exact .inl first
  · exact .inr ⟨mark, List.mem_append_left _ member, same⟩

/-- The view that has been started last is led. -/
theorem Led.self : Led (started ++ [(view, entries)]) view :=
  .inr ⟨(view, entries), by simp, rfl⟩

/-- The start of a view says nothing about the other views. -/
theorem startLength_other (different : other ≠ view) :
    startLength (started ++ [(view, entries)]) other = startLength started other := by
  unfold startLength
  rw [List.find?_append, List.find?_singleton]
  simp [different.symm]

/-- The first start of a view says how many operations it starts with. -/
theorem startLength_self (fresh : ¬ Led started view) :
    startLength (started ++ [(view, entries)]) view = entries.length := by
  have missing : started.find? (fun mark => mark.1 = view) = none := by
    apply List.find?_eq_none.mpr
    intro mark member same
    exact fresh (.inr ⟨mark, member, of_decide_eq_true same⟩)
  unfold startLength
  rw [List.find?_append, missing, List.find?_singleton]
  simp

end Marks

/-- The batches of a view among what a handler puts out. -/
def posted (configuration : Configuration) (src view : Nat) (outputs : List Output) :
    List PrepareMessage :=
  (outputs.flatMap (post configuration src)).filterMap (Packet.batch src view)

section Posted

variable {configuration : Configuration} {src view : Nat}

/-- Nothing is posted by no output. -/
@[simp] theorem posted_nil : posted configuration src view [] = [] := rfl

/-- What is posted by outputs is posted one after the other. -/
@[simp] theorem posted_append (outputs more : List Output) :
    posted configuration src view (outputs ++ more) =
      posted configuration src view outputs ++ posted configuration src view more := by
  unfold posted
  rw [List.flatMap_append, List.filterMap_append]

/-- Other outputs bring no batch. -/
theorem posted_plain {output : Output} (plain : output.Plain) :
    posted configuration src view [output] = [] := by
  unfold posted
  apply List.filterMap_eq_nil_iff.mpr
  intro packet member
  obtain ⟨_, inOutputs, posted⟩ := List.mem_flatMap.mp member
  rw [List.mem_singleton.mp inOutputs] at posted
  cases output with
  | send dst msg =>
      cases msg with
      | prepare p => cases plain
      | _ =>
          cases dst with
          | one addr =>
              obtain rfl := List.mem_singleton.mp posted
              rfl
          | others =>
              obtain ⟨_, _, rfl⟩ := List.mem_map.mp posted
              rfl
  | _ => cases posted

/-- A batch goes to every other replica. -/
theorem posted_prepare (p : PrepareMessage) :
    posted configuration src view [.send .others (.prepare p)] =
      if p.view = view then List.replicate (others configuration src).length p else [] := by
  have packets : [Output.send .others (.prepare p)].flatMap (post configuration src) =
      (others configuration src).map fun idx =>
        ⟨.replica src, .replica idx, .prepare p⟩ := by
    simp [post, others]
  unfold posted
  rw [packets, List.filterMap_map]
  split
  next same =>
      rw [← List.map_const', ← List.filterMap_eq_map]
      apply List.filterMap_congr
      intro _ _
      simp [Packet.batch, same]
  next different =>
      apply List.filterMap_eq_nil_iff.mpr
      intro _ _
      simp [Packet.batch, different]

/-- What another replica puts out is no batch of this one. -/
theorem posted_of_other {other : Nat} (different : other ≠ src) (outputs : List Output) :
    (outputs.flatMap (post configuration other)).filterMap (Packet.batch src view) = [] := by
  apply List.filterMap_eq_nil_iff.mpr
  intro packet member
  obtain ⟨output, _, posted⟩ := List.mem_flatMap.mp member
  have from_ : packet.src = .replica other := by
    cases output with
    | send dst msg =>
        cases dst with
        | one addr => rw [List.mem_singleton.mp posted]
        | others =>
            obtain ⟨_, _, rfl⟩ := List.mem_map.mp posted
            rfl
    | _ => cases posted
  obtain ⟨_, dst, msg⟩ := packet
  obtain rfl := from_
  cases msg with
  | prepare p => simp [Packet.batch, different]
  | _ => rfl

end Posted

/-! ## The invariant -/

/-- The batches that a replica has sent in each view are laid end to end, from the log on that the
view started with. -/
structure Laid (setup : Setup) (sent : Nat → List PrepareMessage)
    (started : List (Nat × List Entry)) : Prop where
  tiled : ∀ view, ∃ stop, Tiles PrepareMessage.batchstart PrepareMessage.opnum
    (startLength started view) (sent view) stop
  sized : ∀ view, ∀ p ∈ sent view,
    p.request.length + p.batchstart = p.opnum + 1 ∧ p.request.length ≤ max 1 setup.batchSize
  led : ∀ view, sent view ≠ [] → Led started view

/-- Where a leader stands with its batches: either it has done nothing yet since it entered the
view, or its log ends with its last operation, and its batches reach up to `lastBatchEnd`. -/
structure Tenure (setup : Setup) (sent : List PrepareMessage) (length : Nat) (c : Batching) :
    Prop where
  within : c.lastBatchEnd ≤ c.lastOp
  room : c.lastOp - c.lastBatchEnd < max 1 setup.batchSize
  assigned : ∀ op, c.lastBatchEnd < op → op ≤ c.lastOp →
    c.stamps[op - 1]? = some { view := c.view, opnum := op }
  pending : c.closeBatchTimeout = true → c.lastBatchEnd < c.lastOp
  resend : c.resendPrepareTimeout = true → c.lastPrepare.view = c.view ∧
    (others setup.configuration setup.replicaIdx ≠ [] → sent.getLast? = some c.lastPrepare)
  reached : (sent = [] ∧ c.lastBatchEnd = c.lastOp ∧ c.stamps.length = length) ∨
    (c.stamps.length = c.lastOp ∧ (others setup.configuration setup.replicaIdx ≠ [] →
      Tiles PrepareMessage.batchstart PrepareMessage.opnum length sent c.lastBatchEnd))

/-- What batching depends on in a replica that has not stopped. -/
structure Tidy (setup : Setup) (sent : Nat → List PrepareMessage)
    (started : List (Nat × List Entry)) (c : Batching) : Prop where
  start : c.start = 1
  idle : ¬ c.Leads setup → c.closeBatchTimeout = false ∧ c.resendPrepareTimeout = false
  led : c.Leads setup → Led started c.view
  tenure : c.Leads setup → Tenure setup (sent c.view) (startLength started c.view) c

section Marks

variable {sent : Nat → List PrepareMessage} {started : List (Nat × List Entry)} {c : Batching}
  {view : Nat} {entries : List Entry}

/-- The start of a view that nobody has led changes nothing about the batches of the others. -/
theorem Laid.start (laid : Laid setup sent started) (fresh : ¬ Led started view) :
    Laid setup sent (started ++ [(view, entries)]) where
  tiled other := by
    by_cases same : other = view
    · subst same
      have unsent : sent other = [] := by
        by_contra some_
        exact fresh (laid.led other some_)
      rw [unsent]
      exact ⟨_, .nil⟩
    · rw [startLength_other same]
      exact laid.tiled other
  sized := laid.sized
  led other some_ := (laid.led other some_).mono

/-- The start of another view leaves what has been sent in order. -/
theorem Tidy.start' (tidy : Tidy setup sent started c) (fresh : ¬ Led started view) :
    Tidy setup sent (started ++ [(view, entries)]) c where
  start := tidy.start
  idle := tidy.idle
  led leads := (tidy.led leads).mono
  tenure leads := by
    have different : c.view ≠ view := by
      rintro rfl
      exact fresh (tidy.led leads)
    rw [startLength_other different]
    exact tidy.tenure leads

end Marks

/-! ## Closing a batch -/

/-- A leader can close its batch. -/
structure Ready (setup : Setup) (sent : List PrepareMessage) (length : Nat) (c : Batching) :
    Prop where
  whole : c.stamps.length = c.lastOp
  pending : c.lastBatchEnd < c.lastOp
  room : c.lastOp - c.lastBatchEnd ≤ max 1 setup.batchSize
  tiles : others setup.configuration setup.replicaIdx ≠ [] →
    Tiles PrepareMessage.batchstart PrepareMessage.opnum length sent c.lastBatchEnd

section Closing

variable {sent : List PrepareMessage} {length : Nat} {c : Batching} {p : PrepareMessage}

/-- What is left of a batch makes the next one. -/
theorem Tenure.ready (tenure : Tenure setup sent length c) (pending : c.lastBatchEnd < c.lastOp) :
    Ready setup sent length c := by
  rcases tenure.reached with ⟨-, nothing, -⟩ | ⟨whole, tiles⟩
  · omega
  · exact ⟨whole, pending, tenure.room.le, tiles⟩

/-- So does one operation more, where the log ends with the last operation. -/
theorem Tenure.ready_accepted (tenure : Tenure setup sent length c)
    (whole : c.stamps.length = c.lastOp) : Ready setup sent length c.accepted where
  whole := by
    change (c.stamps ++ [_]).length = c.lastOp + 1
    rw [List.length_append, whole, List.length_singleton]
  pending := Nat.lt_succ_of_le tenure.within
  room := by
    have within := tenure.within
    have room := tenure.room
    change c.lastOp + 1 - c.lastBatchEnd ≤ _
    omega
  tiles some_ := by
    rcases tenure.reached with ⟨unsent, nothing, long⟩ | ⟨-, tiles⟩
    · change Tiles _ _ length sent c.lastBatchEnd
      rw [unsent, nothing, ← whole, long]
      exact .nil
    · exact tiles some_

/-- An operation more is from the leader's view too. -/
theorem Tenure.assigned_accepted (tenure : Tenure setup sent length c)
    (whole : c.stamps.length = c.lastOp) {op : Nat} (after : c.lastBatchEnd < op)
    (upTo : op ≤ c.lastOp + 1) :
    c.accepted.stamps[op - 1]? = some { view := c.view, opnum := op } := by
  change (c.stamps ++ [_])[op - 1]? = _
  rcases Nat.lt_or_eq_of_le upTo with before | rfl
  · rw [List.getElem?_append_left (by omega)]
    exact tenure.assigned op after (by omega)
  · rw [Nat.add_sub_cancel, ← whole, List.getElem?_concat_length]

/-- The request may wait for more. -/
theorem Tenure.keep (tenure : Tenure setup sent length c) (bounded : setup.batchSize < 2 ^ 32)
    (whole : c.stamps.length = c.lastOp)
    (room : (c.lastOp + 1 + 2 ^ 64 - c.lastBatchEnd) % 2 ^ 64 + 1 ≤ setup.batchSize) :
    Tenure setup sent length { c.accepted with closeBatchTimeout := true } where
  within := Nat.le_succ_of_le tenure.within
  room := by
    have within := tenure.within
    have before := tenure.room
    change c.lastOp + 1 - c.lastBatchEnd < _
    -- The difference is too small to wrap around.
    omega
  assigned _ after upTo := tenure.assigned_accepted whole after upTo
  pending _ := Nat.lt_succ_of_le tenure.within
  resend := tenure.resend
  reached := .inr ⟨(tenure.ready_accepted whole).whole, (tenure.ready_accepted whole).tiles⟩

/-- The batch is of the size it says, and not too large. -/
theorem Ready.sized (ready : Ready setup sent length c) (closes : c.Closes p) :
    p.request.length + p.batchstart = p.opnum + 1 ∧ p.request.length ≤ max 1 setup.batchSize := by
  have pending := ready.pending
  have room := ready.room
  rw [closes.request, closes.batchstart, closes.opnum]
  omega

/-- The batch is laid right after those before it. -/
theorem Ready.laid (ready : Ready setup sent length c) (closes : c.Closes p)
    (some_ : others setup.configuration setup.replicaIdx ≠ []) :
    Tiles PrepareMessage.batchstart PrepareMessage.opnum length
      (sent ++ List.replicate (others setup.configuration setup.replicaIdx).length p) c.lastOp := by
  obtain ⟨count, positive⟩ := Nat.exists_eq_succ_of_ne_zero
    (fun none_ => some_ (List.length_eq_zero_iff.mp none_))
  rw [positive, ← closes.opnum]
  apply (ready.tiles some_).append_next closes.batchstart
  rw [closes.opnum]
  exact ready.pending

/-- The last batch may go out again. -/
theorem Tenure.resent (tenure : Tenure setup sent length c) (running : c.resendPrepareTimeout = true) :
    Tenure setup
      (sent ++ List.replicate (others setup.configuration setup.replicaIdx).length c.lastPrepare)
      length c := by
  obtain ⟨view, latest⟩ := tenure.resend running
  by_cases alone : others setup.configuration setup.replicaIdx = []
  · rw [alone, List.length_nil, List.replicate_zero, List.append_nil]
    exact tenure
  · obtain ⟨count, positive⟩ := Nat.exists_eq_succ_of_ne_zero
      (fun none_ => alone (List.length_eq_zero_iff.mp none_))
    have sentLast := latest alone
    obtain ⟨whole, tiles⟩ := tenure.reached.resolve_left fun ⟨unsent, _⟩ => by
      rw [unsent] at sentLast
      cases sentLast
    have again : Tiles PrepareMessage.batchstart PrepareMessage.opnum length
        (sent ++ List.replicate count.succ c.lastPrepare) c.lastBatchEnd :=
      (tiles alone).append_again sentLast
    rw [positive]
    exact { tenure with
      resend := fun _ => ⟨view, fun _ => by
        rw [List.replicate_succ', ← List.append_assoc]
        exact List.getLast?_concat⟩
      reached := .inr ⟨whole, fun _ => again⟩ }

/-- After the batch nothing is left. -/
theorem Ready.closed (ready : Ready setup sent length c) (closes : c.Closes p) :
    Tenure setup
      (sent ++ List.replicate (others setup.configuration setup.replicaIdx).length p) length
      (c.closed p) where
  within := Nat.le_refl _
  room := by
    change c.lastOp - c.lastOp < _
    omega
  assigned op after upTo := absurd upTo (Nat.not_le.mpr after)
  pending := nofun
  resend _ := by
    refine ⟨closes.view, fun some_ => ?_⟩
    obtain ⟨count, positive⟩ := Nat.exists_eq_succ_of_ne_zero
      (fun none_ => some_ (List.length_eq_zero_iff.mp none_))
    rw [positive, List.replicate_succ', ← List.append_assoc]
    exact List.getLast?_concat
  reached := .inr ⟨ready.whole, ready.laid closes⟩

end Closing

/-- The batches of each view, with those that a handler has put out. -/
def extended (setup : Setup) (sent : Nat → List PrepareMessage) (outputs : List Output) :
    Nat → List PrepareMessage :=
  fun view => sent view ++ posted setup.configuration setup.replicaIdx view outputs

section Extending

variable {sent : Nat → List PrepareMessage} {started : List (Nat × List Entry)} {c : Batching}
  {p : PrepareMessage}

/-- No output extends nothing. -/
@[simp] theorem extended_nil : extended setup sent [] = sent := by
  ext view : 1
  exact List.append_nil _

/-- Outputs extend what has been sent one after the other. -/
theorem extended_append (outputs more : List Output) :
    extended setup sent (outputs ++ more) = extended setup (extended setup sent outputs) more := by
  ext view : 1
  unfold extended
  rw [posted_append, List.append_assoc]

/-- A message that is no batch extends nothing. -/
theorem extended_plain {output : Output} (plain : output.Plain) :
    extended setup sent [output] = sent := by
  ext view : 1
  unfold extended
  rw [posted_plain plain, List.append_nil]

/-- The start of a view is no batch. -/
theorem extended_started {view : Nat} {entries : List Entry} :
    extended setup sent [.started view entries] = sent := by
  ext other : 1
  exact List.append_nil _

/-- A batch is sent once to each of the others. -/
theorem extended_self :
    extended setup sent [.send .others (.prepare p)] p.view =
      sent p.view ++ List.replicate (others setup.configuration setup.replicaIdx).length p := by
  unfold extended
  rw [posted_prepare, if_pos rfl]

/-- A batch of another view extends nothing here. -/
theorem extended_other {view : Nat} (different : p.view ≠ view) :
    extended setup sent [.send .others (.prepare p)] view = sent view := by
  unfold extended
  rw [posted_prepare, if_neg different, List.append_nil]

/-- A batch more, or the last one once more. -/
theorem Laid.send (laid : Laid setup sent started) (led : Led started p.view)
    (sized : others setup.configuration setup.replicaIdx ≠ [] →
      p.request.length + p.batchstart = p.opnum + 1 ∧ p.request.length ≤ max 1 setup.batchSize)
    (tiles : others setup.configuration setup.replicaIdx ≠ [] →
      ∃ stop, Tiles PrepareMessage.batchstart PrepareMessage.opnum (startLength started p.view)
        (sent p.view ++
          List.replicate (others setup.configuration setup.replicaIdx).length p) stop) :
    Laid setup (extended setup sent [.send .others (.prepare p)]) started where
  tiled view := by
    by_cases same : p.view = view
    · subst same
      rw [extended_self]
      by_cases alone : others setup.configuration setup.replicaIdx = []
      · rw [alone, List.length_nil, List.replicate_zero, List.append_nil]
        exact laid.tiled p.view
      · exact tiles alone
    · rw [extended_other same]
      exact laid.tiled view
  sized view q member := by
    by_cases same : p.view = view
    · subst same
      rw [extended_self] at member
      rcases List.mem_append.mp member with before | new
      · exact laid.sized p.view q before
      · obtain ⟨copies, rfl⟩ := List.mem_replicate.mp new
        exact sized fun none_ => copies (List.length_eq_zero_iff.mpr none_)
    · rw [extended_other same] at member
      exact laid.sized view q member
  led view some_ := by
    by_cases same : p.view = view
    · exact same ▸ led
    · rw [extended_other same] at some_
      exact laid.led view some_

/-- A leader closes its batch. -/
theorem Ready.close (laid : Laid setup sent started) (leads : c.Leads setup) (start : c.start = 1)
    (led : Led started c.view)
    (ready : Ready setup (sent c.view) (startLength started c.view) c) (closes : c.Closes p) :
    Laid setup (extended setup sent [.send .others (.prepare p)]) started ∧
      Tidy setup (extended setup sent [.send .others (.prepare p)]) started (c.closed p) := by
  have view := closes.view
  rw [← view] at led ready
  refine ⟨laid.send led (fun _ => ready.sized closes) fun some_ => ⟨_, ready.laid closes some_⟩, ?_⟩
  exact {
    start := start
    idle := fun follows => absurd leads follows
    led := fun _ => view ▸ led
    tenure := fun _ => by
      change Tenure setup (extended setup sent _ c.view) (startLength started c.view) _
      rw [← view, extended_self]
      exact ready.closed closes }

end Extending

/-! ## What each move keeps -/

section Moving

variable {sent : Nat → List PrepareMessage} {started : List (Nat × List Entry)} {c c' : Batching}
  {fresh : Nat → Prop} {more : List Output}

/-- Only the lead starts a view. -/
theorem start_plain {output : Output} (plain : output.Plain) :
    [output].filterMap Output.start = [] := by
  cases output with
  | started view entries => cases plain
  | _ => rfl

/-- Taking the lead of a view that nobody has led, with nothing to batch yet. -/
theorem Tidy.lead (laid : Laid setup sent started) (tidy : Tidy setup sent started c)
    {entries : List Entry} (changing : c.status = .viewChange) (fresh : ¬ Led started c.view) :
    Tidy setup sent (started ++ [(c.view, entries)])
      { c with
        status := .normal
        lastBatchEnd := c.lastOp
        batchComplete := true
        stamps := entries.map LogEntry.viewstamp } := by
  have follows : ¬ c.Leads setup := by
    rintro ⟨normal, -⟩
    cases changing.symm.trans normal
  obtain ⟨closeOff, resendOff⟩ := tidy.idle follows
  have unsent : sent c.view = [] := by
    by_contra some_
    exact fresh (laid.led c.view some_)
  exact {
    start := tidy.start
    idle := fun _ => ⟨closeOff, resendOff⟩
    led := fun _ => .self
    tenure := fun _ => {
      within := Nat.le_refl _
      room := by
        change c.lastOp - c.lastOp < _
        omega
      assigned := fun op after upTo => absurd upTo (Nat.not_le.mpr after)
      pending := fun running => by cases closeOff.symm.trans running
      resend := fun running => by cases resendOff.symm.trans running
      reached := by
        change _ ∧ _ ∧ (entries.map LogEntry.viewstamp).length = _ ∨ _
        rw [startLength_self fresh, List.length_map]
        exact .inl ⟨unsent, rfl, rfl⟩ } }

/-- Every move keeps the batches laid end to end, and the replica tidy. -/
theorem tidy_move (bounded : setup.batchSize < 2 ^ 32) (laid : Laid setup sent started)
    (tidy : Tidy setup sent started c) (moved : BatchMove setup fresh c more c')
    (first : c.status = .viewChange → fresh c.view → ¬ Led started c.view) :
    Laid setup (extended setup sent more) (started ++ more.filterMap Output.start) ∧
      Tidy setup (extended setup sent more) (started ++ more.filterMap Output.start) c' := by
  have whole : c.start + c.stamps.length = c.lastOp + 1 → c.stamps.length = c.lastOp := by
    have start := tidy.start
    omega
  cases moved with
  | plain plain =>
      rw [extended_plain plain, start_plain plain, List.append_nil]
      exact ⟨laid, tidy⟩
  | follow start follows close resend _ =>
      rw [extended_nil]
      refine ⟨by simpa using laid, ?_⟩
      simp only [List.filterMap_nil, List.append_nil]
      have stops : c'.closeBatchTimeout = false := by
        by_contra running
        obtain ⟨before, followed⟩ := close (Bool.not_eq_false _ ▸ running)
        cases (tidy.idle followed).1.symm.trans before
      have stopsToo : c'.resendPrepareTimeout = false := by
        by_contra running
        obtain ⟨before, followed⟩ := resend (Bool.not_eq_false _ ▸ running)
        cases (tidy.idle followed).2.symm.trans before
      exact ⟨start.trans tidy.start, fun _ => ⟨stops, stopsToo⟩, fun leads => absurd leads follows,
        fun leads => absurd leads follows⟩
  | keep leads next _ room =>
      rw [extended_nil]
      refine ⟨by simpa using laid, ?_⟩
      simp only [List.filterMap_nil, List.append_nil]
      exact ⟨tidy.start, fun follows => absurd leads follows, fun _ => tidy.led leads,
        fun _ => (tidy.tenure leads).keep bounded (whole next) room⟩
  | accept leads next closes =>
      simp only [List.filterMap_cons, Output.start, List.filterMap_nil, List.append_nil]
      exact ((tidy.tenure leads).ready_accepted (whole next)).close laid leads tidy.start
        (tidy.led leads) closes
  | complete leads =>
      rw [extended_nil]
      refine ⟨by simpa using laid, ?_⟩
      simp only [List.filterMap_nil, List.append_nil]
      obtain ⟨within, room, assigned, pending, resend, reached⟩ := tidy.tenure leads
      exact ⟨tidy.start, tidy.idle, tidy.led,
        fun _ => ⟨within, room, assigned, pending, resend, reached⟩⟩
  | close leads pending closes =>
      simp only [List.filterMap_cons, Output.start, List.filterMap_nil, List.append_nil]
      have leadsNow : c.Leads setup := by
        by_contra follows
        cases (tidy.idle follows).1.symm.trans (leads.resolve_left follows)
      exact ((tidy.tenure leadsNow).ready pending).close laid leadsNow tidy.start
        (tidy.led leadsNow) closes
  | resend running =>
      simp only [List.filterMap_cons, Output.start, List.filterMap_nil, List.append_nil]
      have leads : c.Leads setup := by
        by_contra follows
        cases (tidy.idle follows).2.symm.trans running
      have tenure := tidy.tenure leads
      obtain ⟨view, latest⟩ := tenure.resend running
      have again := tenure.resent running
      rw [← view] at again latest
      constructor
      · apply laid.send
        · exact view ▸ tidy.led leads
        · intro some_
          exact laid.sized _ _ (List.mem_of_getLast? (latest some_))
        · intro some_
          have sentLast := latest some_
          obtain ⟨-, tiles⟩ := again.reached.resolve_left fun ⟨unsent, _⟩ => by
            rw [(List.append_eq_nil_iff.mp unsent).1] at sentLast
            cases sentLast
          exact ⟨_, tiles some_⟩
      · refine ⟨tidy.start, tidy.idle, tidy.led, fun _ => ?_⟩
        rw [← view, extended_self]
        exact again
  | lead changing _ isFresh =>
      have fresh := first changing isFresh
      rw [extended_started]
      exact ⟨laid.start fresh, tidy.lead laid changing fresh⟩

end Moving

/-! ## Runs -/

/-- The replica has been the leader of a view, and leads it still or is in a later one. -/
def Batching.Passed (c : Batching) (view : Nat) : Prop :=
  c.status ≠ .recovering ∧ (view < c.view ∨ view = c.view ∧ c.status = .normal)

section Passing

variable {c c' : Batching} {fresh : Nat → Prop} {more : List Output} {view : Nat}

/-- What goes onward does not come back. -/
theorem Batching.Passed.onward (passed : c.Passed view) (onward : c.Onward c') : c'.Passed view := by
  obtain ⟨awake, after⟩ := passed
  obtain ⟨awake', rest⟩ := onward.resolve_left awake
  refine ⟨awake', ?_⟩
  rcases after with later | ⟨rfl, normal⟩ <;> rcases rest with further | ⟨same, stays⟩
  · exact .inl (later.trans further)
  · exact .inl (same ▸ later)
  · exact .inl further
  · exact .inr ⟨same, stays normal⟩

/-- A view that has been passed is not come back to. -/
theorem passed_move (moved : BatchMove setup fresh c more c') (passed : c.Passed view) :
    c'.Passed view := by
  cases moved with
  | plain _ => exact passed
  | follow _ _ _ _ onward => exact passed.onward onward
  | keep _ _ _ _ => exact passed
  | accept _ _ _ => exact passed
  | complete _ => exact passed
  | close _ _ _ => exact passed
  | resend _ => exact passed
  | lead changing _ _ =>
      obtain ⟨-, later | ⟨rfl, normal⟩⟩ := passed
      · exact ⟨nofun, .inl later⟩
      · exact ⟨nofun, .inr ⟨rfl, rfl⟩⟩

/-- A view that is started is the replica's own. -/
theorem passed_start (moved : BatchMove setup fresh c more c') {mark : Nat × List Entry}
    (member : mark ∈ more.filterMap Output.start) :
    c'.Passed mark.1 ∧ more.filterMap Output.start = [mark] ∧ c.status = .viewChange ∧
      fresh c.view ∧ mark.1 = c.view := by
  cases moved with
  | plain plain =>
      rw [start_plain plain] at member
      cases member
  | follow _ _ _ _ _ => cases member
  | keep _ _ _ _ => cases member
  | accept _ _ _ => cases member
  | complete _ => cases member
  | close _ _ _ => cases member
  | resend _ => cases member
  | lead changing _ first =>
      obtain rfl := List.mem_singleton.mp member
      exact ⟨⟨nofun, .inr ⟨rfl, rfl⟩⟩, rfl, changing, first, rfl⟩

end Passing

namespace System

/-- The batches of a replica are laid end to end, and unless it has stopped it is tidy. -/
def Arranged (d : Deployment) (s : System) (started : List (Nat × List Entry)) (idx : Nat) : Prop :=
  Laid (d.setup idx) (s.batches idx) started ∧
    (s.stopped idx = false → Tidy (d.setup idx) (s.batches idx) started (s.replicas idx).batching)

/-- The start of a view that nobody has led does not disarrange the others. -/
theorem Arranged.start {started : List (Nat × List Entry)} {view : Nat} {entries : List Entry}
    (arranged : s.Arranged d started idx) (fresh : ¬ Led started view) :
    s.Arranged d (started ++ [(view, entries)]) idx :=
  ⟨arranged.1.start fresh, fun running => (arranged.2 running).start' fresh⟩

/-- Where a replica and the others are in the middle of a handler, after some outputs. -/
structure Amid (d : Deployment) (s : System) (idx : Nat) (before : List Output) (c : Batching) :
    Prop where
  laid : Laid (d.setup idx) (extended (d.setup idx) (s.batches idx) before)
    (s.started ++ before.filterMap Output.start)
  tidy : Tidy (d.setup idx) (extended (d.setup idx) (s.batches idx) before)
    (s.started ++ before.filterMap Output.start) c
  passed : ∀ mark ∈ before.filterMap Output.start, c.Passed mark.1
  apart : ∀ other, other ≠ idx → s.Arranged d (s.started ++ before.filterMap Output.start) other

/-- Each move keeps this. A view that has been started in this handler is not started again, as the
replica has not gone back since. -/
theorem Amid.step (bounded : d.batchSize < 2 ^ 32) {before more : List Output} {c c' : Batching}
    (amid : s.Amid d idx before c)
    (moved : BatchMove (d.setup idx) (fun view => ¬ Led s.started view) c more c') :
    s.Amid d idx (before ++ more) c' := by
  have first : c.status = .viewChange → ¬ Led s.started c.view →
      ¬ Led (s.started ++ before.filterMap Output.start) c.view := by
    rintro changing fresh (zero | ⟨mark, member, same⟩)
    · exact fresh (.inl zero)
    rcases List.mem_append.mp member with old | new
    · exact fresh (.inr ⟨mark, old, same⟩)
    · obtain ⟨-, later | ⟨-, normal⟩⟩ := amid.passed mark new
      · omega
      · cases changing.symm.trans normal
  obtain ⟨laid, tidy⟩ := tidy_move bounded amid.laid amid.tidy moved first
  rw [List.append_assoc, ← List.filterMap_append, ← extended_append] at laid tidy
  refine ⟨laid, tidy, ?_, ?_⟩
  · intro mark member
    rw [List.filterMap_append] at member
    rcases List.mem_append.mp member with old | new
    · exact passed_move moved (amid.passed mark old)
    · exact (passed_start moved new).1
  · intro other different
    rw [List.filterMap_append, ← List.append_assoc]
    rcases List.eq_nil_or_concat' (more.filterMap Output.start) with none_ | ⟨_, mark, some_⟩
    · rw [none_, List.append_nil]
      exact amid.apart other different
    · have member : mark ∈ more.filterMap Output.start := by
        rw [some_]
        exact List.mem_append_right _ (List.mem_singleton_self mark)
      obtain ⟨-, single, changing, fresh, view⟩ := passed_start moved member
      rw [single]
      apply (amid.apart other different).start
      rw [view]
      exact first changing fresh

/-- The batches of a replica after its handler. -/
theorem batches_absorb_self (outcome : Outcome Replica Output Unit) :
    (s.absorb d idx outcome).batches idx =
      extended (d.setup idx) (s.batches idx) outcome.outputs := by
  ext view : 1
  exact List.filterMap_append

/-- The batches that another replica has sent are the same as before. -/
theorem batches_absorb_other {other : Nat} (different : other ≠ idx)
    (outcome : Outcome Replica Output Unit) :
    (s.absorb d idx outcome).batches other = s.batches other := by
  ext view : 1
  have unsent : (outcome.outputs.flatMap (post d.configuration idx)).filterMap
      (Packet.batch other view) = [] := posted_of_other different.symm outcome.outputs
  unfold batches absorb
  rw [List.filterMap_append, unsent, List.append_nil]

/-- A handler that makes moves leaves every replica arranged. -/
theorem arranged_absorb (bounded : d.batchSize < 2 ^ 32)
    (arranged : ∀ other, s.Arranged d s.started other) {handler : Run Unit} {r : Replica}
    (tidy : Tidy (d.setup idx) (s.batches idx) s.started r.batching)
    (traces : BatchTraces (d.setup idx) (fun view => ¬ Led s.started view) handler r
      fun _ _ => True) (other : Nat) :
    (s.absorb d idx (handler r)).Arranged d (s.absorb d idx (handler r)).started other := by
  obtain ⟨last, moves, ends⟩ := traces
  have start : s.Amid d idx [] r.batching := by
    refine ⟨?_, ?_, nofun, fun other _ => ?_⟩
    · simpa using (arranged idx).1
    · simpa using tidy
    · simpa using arranged other
  have final : s.Amid d idx ((handler r).outputs) last :=
    moves.preserves (fun amid moved => amid.step bounded moved) start
  by_cases who : other = idx
  · subst who
    unfold Arranged
    rw [batches_absorb_self]
    refine ⟨final.laid, fun running => ?_⟩
    simp only [absorb, Function.update_self] at running ⊢
    obtain ⟨value, ended⟩ := Option.isSome_iff_exists.mp (Option.isNone_eq_false_iff.mp running)
    have same : last = (handler r).state.batching := (ends value ended).1
    rw [← same]
    exact final.tidy
  · unfold Arranged
    rw [batches_absorb_other who]
    refine ⟨(final.apart other who).1, fun running => ?_⟩
    simp only [absorb, Function.update_of_ne who] at running ⊢
    exact (final.apart other who).2 running

/-- The delivery of a packet takes one of the branches on which batches go wrong. -/
def Disorders (d : Deployment) (s : System) (packet : Packet) : Prop :=
  match packet with
  | ⟨_, .replica idx, msg⟩ => (s.replicas idx).Disorders (d.setup idx) (Led s.started) msg
  | ⟨_, .client _, _⟩ => False

instance (d : Deployment) (s : System) : ∀ packet, Decidable (s.Disorders d packet)
  | ⟨_, .replica idx, msg⟩ =>
    inferInstanceAs (Decidable ((s.replicas idx).Disorders (d.setup idx) (Led s.started) msg))
  | ⟨_, .client _, _⟩ => inferInstanceAs (Decidable False)

/-- The step is defined, and takes none of the branches on which batches go wrong. -/
def Orderly (d : Deployment) (s : System) : Action → Prop
  | .deliver position _ _ =>
    ∀ packet ∈ s.network[position]?.toList, ¬ s.Dangles d packet ∧ ¬ s.Disorders d packet
  | _ => True

instance (d : Deployment) (s : System) (action : Action) : Decidable (s.Orderly d action) :=
  match action with
  | .deliver position _ _ => inferInstanceAs (Decidable (∀ packet ∈ s.network[position]?.toList,
      ¬ s.Dangles d packet ∧ ¬ s.Disorders d packet))
  | .request .. | .unloggedRequest .. | .timer .. | .crash .. => .isTrue trivial

/-- An orderly step is defined. -/
theorem Orderly.defined {action : Action} (orderly : s.Orderly d action) : s.Defined d action := by
  cases action with
  | deliver position app undefined => exact fun packet found => (orderly packet found).1
  | _ => trivial

/-- A client's packet is no batch. -/
theorem arranged_post_client (arranged : ∀ other, s.Arranged d s.started other) {client : Nat}
    {msg : Message} (other : Nat) :
    ({ s with network := s.network ++ [⟨.client client, .replica idx, msg⟩] } : System).Arranged d
      s.started other := by
  have same : ({ s with network := s.network ++ [⟨.client client, .replica idx, msg⟩] } :
      System).batches other = s.batches other := by
    ext view : 1
    unfold batches
    rw [List.filterMap_append]
    exact List.append_nil _
  unfold Arranged
  rw [same]
  exact arranged other

/-- A replica that has crashed has nothing to batch. -/
theorem tidy_restarted (sent : Nat → List PrepareMessage) (started : List (Nat × List Entry))
    (before : Replica) (nonce : Nat) :
    Tidy setup sent started (before.restarted setup nonce).batching where
  start := rfl
  idle _ := ⟨rfl, rfl⟩
  led leads := nomatch leads.1
  tenure leads := nomatch leads.1

/-- An orderly step leaves every replica arranged. -/
theorem arranged_step (bounded : d.batchSize < 2 ^ 32)
    (arranged : ∀ other, s.Arranged d s.started other) {action : Action}
    (orderly : s.Orderly d action) {next : System} (stepped : s.step d action = some next)
    (other : Nat) : next.Arranged d next.started other := by
  cases action with
  | request client idx msg =>
      obtain rfl := Option.some.inj stepped
      exact arranged_post_client arranged other
  | unloggedRequest client idx msg =>
      obtain rfl := Option.some.inj stepped
      exact arranged_post_client arranged other
  | deliver position app undefined =>
      rw [step_of_defined orderly.defined] at stepped
      simp only [System.step] at stepped
      split at stepped
      next src idx msg found =>
          unfold System.runAt at stepped
          split at stepped
          next enabled =>
              obtain rfl := Option.some.inj stepped
              apply arranged_absorb bounded arranged ((arranged idx).2 enabled.2)
              apply receiveMessage_traces
              exact (orderly _ (Option.mem_toList.mpr found)).2
          next => cases stepped
      next => cases stepped
  | timer idx timer =>
      simp only [System.step] at stepped
      split at stepped
      next running =>
          unfold System.runAt at stepped
          split at stepped
          next enabled =>
              obtain rfl := Option.some.inj stepped
              apply arranged_absorb bounded arranged ((arranged idx).2 enabled.2)
              exact fireTimer_traces running
          next => cases stepped
      next => cases stepped
  | crash idx nonce =>
      simp only [System.step, System.crash] at stepped
      split at stepped
      next =>
          obtain rfl := Option.some.inj stepped
          apply arranged_absorb bounded arranged (tidy_restarted _ _ _ _)
          apply Matching.Traces.get_bind
          exact .imp (idles_plain (by trivial)) fun _ _ _ _ => trivial
      next => cases stepped

/-- At the start nothing has been sent, and the leader of the first view has nothing to batch. -/
theorem arranged_initial (idx : Nat) :
    (System.initial d).Arranged d (System.initial d).started idx := by
  refine ⟨⟨fun _ => ⟨_, .nil⟩, nofun, fun _ some_ => absurd rfl some_⟩, fun _ => ?_⟩
  exact {
    start := rfl
    idle := fun _ => ⟨rfl, rfl⟩
    led := fun _ => .inl rfl
    tenure := fun _ => {
      within := Nat.le_refl _
      room := Nat.lt_of_lt_of_le Nat.zero_lt_one (Nat.le_max_left ..)
      assigned := fun op after upTo => absurd upTo (Nat.not_le.mpr after)
      pending := nofun
      resend := nofun
      reached := .inl ⟨rfl, rfl, rfl⟩ } }

/-- In every run whose steps are orderly, the batches of every replica are arranged. -/
theorem invariant_arranged (bounded : d.batchSize < 2 ^ 32) :
    (system d).Invariant (Orderly d) fun s => ∀ idx, s.Arranged d s.started idx where
  initial state initial := by
    obtain rfl := initial
    exact arranged_initial
  preserved arranged orderly stepped := arranged_step bounded arranged orderly stepped

end System

end PaxosBus.Vr

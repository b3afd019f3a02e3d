import PaxosBus.Common.Client

/-!
# The client of the unreplicated service

`UnreplicatedClient` talks to replica 0 only, and sends a request again until a
reply with its number arrives. A `Panic` and a call through an empty pointer
stop it. A timeout is a flag that says whether it is running; it stays running
when it fires.
-/

set_option autoImplicit false

namespace PaxosBus.Unreplicated

open PaxosBus.Common PaxosBus.Library

/-- `PendingRequest`. -/
structure PendingRequest where
  request : String
  clientreqid : Nat
deriving DecidableEq, Repr

/-- The request as the replica gets it. -/
def PendingRequest.req (pending : PendingRequest) (clientid : Nat) : Request where
  op := pending.request
  clientid := clientid
  clientreqid := pending.clientreqid

/-- The state of an `UnreplicatedClient`. -/
structure UnreplicatedClient where
  lastReqId : Nat := 0
  pendingRequest : Option PendingRequest := none
  pendingUnloggedRequest : Option PendingRequest := none
  requestTimeout : Bool := false
deriving DecidableEq, Repr

namespace UnreplicatedClient

open Handler

variable (clientid : Nat)

/-- `UnreplicatedClient::SendRequest`, which takes the number that was used last. -/
def sendRequest : ClientRun UnreplicatedClient Unit := do
  let c ← get
  let pending ← demand c.pendingRequest
  emit (.sendToReplica 0
    { op := pending.request, clientid := clientid, clientreqid := c.lastReqId })
  modify fun c => { c with requestTimeout := true }

/-- `UnreplicatedClient::Invoke`. -/
def invoke (request : String) : ClientRun UnreplicatedClient Unit := do
  let c ← get
  require (c.pendingRequest = none)
  let pending : PendingRequest := { request := request, clientreqid := c.lastReqId + 1 }
  modify fun c => { c with lastReqId := c.lastReqId + 1, pendingRequest := some pending }
  emit (.invoked (pending.req clientid))
  sendRequest clientid

/-- `UnreplicatedClient::ResendRequest`. -/
def resendRequest : ClientRun UnreplicatedClient Unit := sendRequest clientid

/-- `UnreplicatedClient::InvokeUnlogged`, which keeps no timeout. -/
def invokeUnlogged (replicaIdx : Nat) (request : String) : ClientRun UnreplicatedClient Unit := do
  let c ← get
  require (c.pendingUnloggedRequest = none)
  let pending : PendingRequest := { request := request, clientreqid := 0 }
  modify fun c => { c with pendingUnloggedRequest := some pending }
  require (replicaIdx = 0)
  emit (.sendUnlogged 0 (pending.req clientid))

/-- `UnreplicatedClient::HandleReply`. -/
def handleReply (clientreqid : Nat) (reply : String) : ClientRun UnreplicatedClient Unit := do
  let c ← get
  match c.pendingRequest with
  | none => pure ()
  | some pending =>
    if clientreqid ≠ pending.clientreqid then
      pure ()
    else
      modify fun c => { c with requestTimeout := false, pendingRequest := none }
      emit (.continuation (pending.req clientid) reply)

/-- `UnreplicatedClient::HandleUnloggedReply`, which goes on after the warning that no request is
pending. -/
def handleUnloggedReply (reply : String) : ClientRun UnreplicatedClient Unit := do
  let c ← get
  modify fun c => { c with pendingUnloggedRequest := none }
  let pending ← demand c.pendingUnloggedRequest
  emit (.unloggedContinuation pending.request reply)

/-- The methods, `UnreplicatedClient::ReceiveMessage`, and the callback that the constructor gives
the timeout. -/
def handle : ClientCall → ClientRun UnreplicatedClient Unit
  | .invoke request => invoke clientid request
  | .invokeUnlogged replicaIdx request _ => invokeUnlogged clientid replicaIdx request
  | .reply clientreqid reply => handleReply clientid clientreqid reply
  | .unloggedReply reply => handleUnloggedReply reply
  | .unexpected => stop
  | .timer .request => resendRequest clientid
  | .timer .unloggedRequest => stop

/-- `Timeout::Active`. There is no timeout for unlogged requests. -/
def active (c : UnreplicatedClient) : ClientTimer → Bool
  | .request => c.requestTimeout
  | .unloggedRequest => false

/-- The client. -/
def program : ClientProgram UnreplicatedClient where
  constructed := {}
  lastReqId := UnreplicatedClient.lastReqId
  pending clientid c := c.pendingRequest.map (·.req clientid)
  active := active
  handle := handle

/-- The pending request has the number that was used last, and the timeout runs exactly while
there is one. -/
structure Tidy (c : UnreplicatedClient) : Prop where
  request : c.requestTimeout = c.pendingRequest.isSome
  pending : ∀ pending ∈ c.pendingRequest, pending.clientreqid = c.lastReqId

/-! ## What each handler does -/

variable {clientid} {c : UnreplicatedClient}

/-- The pending request is sent under the number that was used last. -/
theorem sendRequest_of_pending {pending : PendingRequest} (tidy : c.Tidy)
    (here : c.pendingRequest = some pending) :
    sendRequest clientid c =
      ⟨{ c with requestTimeout := true }, [.sendToReplica 0 (pending.req clientid)], some ()⟩ := by
  have number := tidy.pending pending here
  obtain ⟨lastReqId, request, unlogged, requestTimeout⟩ := c
  obtain rfl : request = some pending := here
  obtain rfl : pending.clientreqid = lastReqId := number
  rfl

/-- There is no request to send, and the code reads through an empty pointer. -/
theorem sendRequest_of_idle (idle : c.pendingRequest = none) :
    sendRequest clientid c = ⟨c, [], none⟩ := by
  unfold sendRequest
  rw [get_bind, idle]
  rfl

/-- A request becomes the pending one and is sent. -/
theorem invoke_of_idle {request : String} (idle : c.pendingRequest = none) :
    invoke clientid request c =
      ⟨{ c with
          lastReqId := c.lastReqId + 1
          pendingRequest := some { request := request, clientreqid := c.lastReqId + 1 }
          requestTimeout := true },
        [.invoked ⟨request, clientid, c.lastReqId + 1⟩,
          .sendToReplica 0 ⟨request, clientid, c.lastReqId + 1⟩], some ()⟩ := by
  unfold invoke
  rw [get_bind, require_bind, if_pos idle]
  rfl

/-- A client that waits panics at another request. -/
theorem invoke_of_pending {request : String} (busy : c.pendingRequest ≠ none) :
    invoke clientid request c = ⟨c, [], none⟩ := by
  unfold invoke
  rw [get_bind, require_bind, if_neg busy]

/-- The reply completes the pending request. -/
theorem handleReply_of_pending {pending : PendingRequest} {reply : String}
    (here : c.pendingRequest = some pending) :
    handleReply clientid pending.clientreqid reply c =
      ⟨{ c with requestTimeout := false, pendingRequest := none },
        [.continuation (pending.req clientid) reply], some ()⟩ := by
  unfold handleReply
  rw [get_bind, here]
  simp only [ne_eq, not_true_eq_false, if_false]
  rfl

/-- A reply to another request is dropped. -/
theorem handleReply_of_other {clientreqid : Nat} {reply : String}
    (other : ∀ pending, c.pendingRequest = some pending → clientreqid ≠ pending.clientreqid) :
    handleReply clientid clientreqid reply c = ⟨c, [], some ()⟩ := by
  unfold handleReply
  rw [get_bind]
  cases here : c.pendingRequest with
  | none => rfl
  | some pending =>
      simp only [if_pos (other pending here)]
      rfl

/-- A handler that only touches unlogged requests. -/
structure Unlogged (c c' : UnreplicatedClient) (outputs : List ClientOutput) : Prop where
  number : c'.lastReqId = c.lastReqId
  pending : c'.pendingRequest = c.pendingRequest
  requestTimeout : c'.requestTimeout = c.requestTimeout
  quiet : ∀ output ∈ outputs, ∀ pending, output.Quiet pending

/-- An unlogged request leaves the pending one and its number alone. -/
theorem unlogged_invokeUnlogged (replicaIdx : Nat) (request : String) :
    Unlogged c (invokeUnlogged clientid replicaIdx request c).state
      (invokeUnlogged clientid replicaIdx request c).outputs := by
  have silent : ∀ output ∈ ([] : List ClientOutput), ∀ pending, output.Quiet pending :=
    fun _ none_ => by cases none_
  unfold invokeUnlogged
  rw [get_bind, require_bind]
  split
  next =>
      show Unlogged c ((require (replicaIdx = 0) >>= _) _).state
        ((require (replicaIdx = 0) >>= _) _).outputs
      rw [require_bind]
      split
      next =>
          refine ⟨rfl, rfl, rfl, ?_⟩
          intro output member pending
          obtain rfl := List.mem_singleton.mp member
          trivial
      next => exact ⟨rfl, rfl, rfl, silent⟩
  next => exact ⟨rfl, rfl, rfl, silent⟩

/-- An unlogged reply leaves the pending request and its number alone. -/
theorem unlogged_handleUnloggedReply (reply : String) :
    Unlogged c (handleUnloggedReply reply c).state (handleUnloggedReply reply c).outputs := by
  unfold handleUnloggedReply
  rw [get_bind]
  cases here : c.pendingUnloggedRequest with
  | none =>
      refine ⟨rfl, rfl, rfl, ?_⟩
      intro output none_
      cases none_
  | some pending =>
      refine ⟨rfl, rfl, rfl, ?_⟩
      intro output member pending
      obtain rfl := List.mem_singleton.mp member
      trivial

/-! ## The client conducts itself -/

/-- A client stays tidy when its request is left alone. -/
theorem Tidy.unlogged (tidy : c.Tidy) {c' : UnreplicatedClient} {outputs : List ClientOutput}
    (unlogged : Unlogged c c' outputs) : c'.Tidy where
  request := by rw [unlogged.requestTimeout, unlogged.pending, tidy.request]
  pending := by
    rw [unlogged.pending, unlogged.number]
    exact tidy.pending

/-- Whatever happens to a tidy client, it is tidy afterwards, also if it has stopped. -/
theorem Tidy.handle (tidy : c.Tidy) (call : ClientCall) :
    (handle clientid call c).state.Tidy := by
  cases call with
  | invoke request =>
      show (UnreplicatedClient.invoke clientid request c).state.Tidy
      by_cases idle : c.pendingRequest = none
      · rw [invoke_of_idle idle]
        constructor
        · rfl
        · intro pending here
          cases here
          rfl
      · rw [invoke_of_pending idle]
        exact tidy
  | invokeUnlogged replicaIdx request _ =>
      exact tidy.unlogged (unlogged_invokeUnlogged replicaIdx request)
  | reply clientreqid reply =>
      show (handleReply clientid clientreqid reply c).state.Tidy
      by_cases mine : ∃ pending, c.pendingRequest = some pending ∧ clientreqid = pending.clientreqid
      · obtain ⟨pending, here, rfl⟩ := mine
        rw [handleReply_of_pending here]
        constructor
        · rfl
        · intro pending none_
          cases none_
      · rw [handleReply_of_other fun pending here same => mine ⟨pending, here, same⟩]
        exact tidy
  | unloggedReply reply => exact tidy.unlogged (unlogged_handleUnloggedReply reply)
  | unexpected => exact tidy
  | timer timer =>
      cases timer with
      | request =>
          show (sendRequest clientid c).state.Tidy
          cases here : c.pendingRequest with
          | none =>
              rw [sendRequest_of_idle here]
              exact tidy
          | some pending =>
              rw [sendRequest_of_pending tidy here]
              exact { tidy with request := by rw [here]; rfl }
      | unloggedRequest => exact tidy

/-- The view of a client with a pending request. -/
theorem view_of_pending {pending : PendingRequest} (here : c.pendingRequest = some pending) :
    program.view clientid c = ⟨c.lastReqId, some (pending.req clientid)⟩ := by
  show ClientView.mk c.lastReqId (c.pendingRequest.map _) = _
  rw [here]
  rfl

/-- The view of a client without one. -/
theorem view_of_idle (idle : c.pendingRequest = none) :
    program.view clientid c = ⟨c.lastReqId, none⟩ := by
  show ClientView.mk c.lastReqId (c.pendingRequest.map _) = _
  rw [idle]
  rfl

/-- A handler that leaves the number and the pending request alone, and asks for no other one, is
quiet. -/
theorem conduct_quiet {call : ClientCall} {c' : UnreplicatedClient} {outputs : List ClientOutput}
    (number : c'.lastReqId = c.lastReqId) (same : c'.pendingRequest = c.pendingRequest)
    (quiet : ∀ output ∈ outputs, output.Quiet (program.view clientid c).pending) :
    Conduct clientid (program.view clientid c) call outputs (program.view clientid c') := by
  have after : program.view clientid c' = ⟨c.lastReqId, (program.view clientid c).pending⟩ := by
    show ClientView.mk c'.lastReqId (c'.pendingRequest.map _) = _
    rw [same, number]
    rfl
  rw [after]
  exact .quiet (Nat.le_refl _) quiet

/-- A client conducts itself as a service relies on. -/
theorem conduct (tidy : c.Tidy) (call : ClientCall) :
    Conduct clientid (program.view clientid c) call
      (UnreplicatedClient.handle clientid call c).outputs
      (program.view clientid (UnreplicatedClient.handle clientid call c).state) := by
  have silent : ∀ {pending : Option Request}, ∀ output ∈ ([] : List ClientOutput),
      output.Quiet pending := fun _ none_ => by cases none_
  cases call with
  | invoke request =>
      show Conduct _ _ _ (UnreplicatedClient.invoke clientid request c).outputs
        (program.view clientid (UnreplicatedClient.invoke clientid request c).state)
      by_cases idle : c.pendingRequest = none
      · rw [invoke_of_idle idle, view_of_idle idle, view_of_pending rfl]
        apply Conduct.invoke
        intro output member
        obtain rfl := List.mem_singleton.mp member
        rfl
      · rw [invoke_of_pending idle]
        exact conduct_quiet rfl rfl silent
  | invokeUnlogged replicaIdx request _ =>
      have unlogged := @unlogged_invokeUnlogged clientid c replicaIdx request
      exact conduct_quiet unlogged.number unlogged.pending fun output member =>
        unlogged.quiet output member _
  | reply clientreqid reply =>
      show Conduct _ _ _ (handleReply clientid clientreqid reply c).outputs
        (program.view clientid (handleReply clientid clientreqid reply c).state)
      by_cases mine : ∃ pending, c.pendingRequest = some pending ∧ clientreqid = pending.clientreqid
      · obtain ⟨pending, here, rfl⟩ := mine
        rw [handleReply_of_pending here, view_of_pending here, view_of_idle rfl]
        exact @Conduct.complete clientid c.lastReqId (pending.req clientid) reply
      · rw [handleReply_of_other fun pending here same => mine ⟨pending, here, same⟩]
        exact conduct_quiet rfl rfl silent
  | unloggedReply reply =>
      have unlogged := unlogged_handleUnloggedReply (c := c) reply
      exact conduct_quiet unlogged.number unlogged.pending fun output member =>
        unlogged.quiet output member _
  | unexpected => exact conduct_quiet rfl rfl silent
  | timer timer =>
      cases timer with
      | request =>
          show Conduct _ _ _ (sendRequest clientid c).outputs
            (program.view clientid (sendRequest clientid c).state)
          cases here : c.pendingRequest with
          | none =>
              rw [sendRequest_of_idle here]
              exact conduct_quiet rfl rfl silent
          | some pending =>
              rw [sendRequest_of_pending tidy here]
              apply conduct_quiet rfl rfl
              intro output member
              obtain rfl := List.mem_singleton.mp member
              rw [view_of_pending here]
              rfl
      | unloggedRequest => exact conduct_quiet rfl rfl silent

/-- A service can rely on the client. -/
theorem orderly : program.Orderly Tidy where
  sane := by
    constructor
    · rfl
    · intro pending none_
      cases none_
  fresh _ := rfl
  mine clientid c req here := by
    obtain ⟨pending, -, rfl⟩ := Option.map_eq_some_iff.mp here
    rfl
  keeps _ call _ tidy := tidy.handle call
  conduct _ call _ tidy := conduct tidy call

end UnreplicatedClient

end PaxosBus.Unreplicated

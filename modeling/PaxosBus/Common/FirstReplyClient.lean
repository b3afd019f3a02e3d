import PaxosBus.Common.Client
import PaxosBus.Library.Transition

/-!
# A client that takes the first reply

`VRClient` and `FastPaxosClient`, which are the same program: a request goes to
all replicas until the first reply with its number arrives. A `Panic`, a failed
`ASSERT`, and a call through an empty pointer or continuation stop the client. A
timeout is a flag that says whether it is running; it stays running when it
fires.
-/

set_option autoImplicit false

namespace PaxosBus.Common

open PaxosBus.Library

/-- `PendingRequest`. A timeout continuation may be missing. -/
structure PendingRequest where
  request : String
  clientReqId : Nat
  timeoutContinuation : Bool := false
deriving DecidableEq, Repr

/-- The request as the replicas get it. -/
def PendingRequest.req (pending : PendingRequest) (clientid : Nat) : Request where
  op := pending.request
  clientid := clientid
  clientreqid := pending.clientReqId

/-- The state of a `VRClient` or a `FastPaxosClient`. -/
structure FirstReplyClient where
  lastReqId : Nat := 0
  pendingRequest : Option PendingRequest := none
  pendingUnloggedRequest : Option PendingRequest := none
  requestTimeout : Bool := false
  unloggedRequestTimeout : Bool := false
deriving DecidableEq, Repr

namespace FirstReplyClient

open Handler

variable (clientid : Nat)

/-- `SendRequest`. -/
def sendRequest : ClientRun FirstReplyClient Unit := do
  let c ← get
  let pending ← demand c.pendingRequest
  emit (.sendToAll (pending.req clientid))
  modify fun c => { c with requestTimeout := true }

/-- `Invoke`. -/
def invoke (request : String) : ClientRun FirstReplyClient Unit := do
  let c ← get
  require (c.pendingRequest = none)
  let pending : PendingRequest := { request := request, clientReqId := c.lastReqId + 1 }
  modify fun c => { c with lastReqId := c.lastReqId + 1, pendingRequest := some pending }
  emit (.invoked (pending.req clientid))
  sendRequest clientid

/-- `InvokeUnlogged`. -/
def invokeUnlogged (replicaIdx : Nat) (request : String) (timeoutContinuation : Bool) :
    ClientRun FirstReplyClient Unit := do
  let c ← get
  require (c.pendingUnloggedRequest = none)
  let pending : PendingRequest :=
    { request := request, clientReqId := c.lastReqId + 1,
      timeoutContinuation := timeoutContinuation }
  modify fun c => { c with lastReqId := c.lastReqId + 1, pendingUnloggedRequest := some pending }
  require (c.unloggedRequestTimeout = false)
  modify fun c => { c with unloggedRequestTimeout := true }
  emit (.sendUnlogged replicaIdx (pending.req clientid))

/-- `ResendRequest`. -/
def resendRequest : ClientRun FirstReplyClient Unit := sendRequest clientid

/-- `HandleReply`. -/
def handleReply (clientreqid : Nat) (reply : String) : ClientRun FirstReplyClient Unit := do
  let c ← get
  match c.pendingRequest with
  | none => pure ()
  | some pending =>
    if clientreqid ≠ pending.clientReqId then
      pure ()
    else
      modify fun c => { c with requestTimeout := false, pendingRequest := none }
      emit (.continuation (pending.req clientid) reply)

/-- `HandleUnloggedReply`. -/
def handleUnloggedReply (reply : String) : ClientRun FirstReplyClient Unit := do
  let c ← get
  match c.pendingUnloggedRequest with
  | none => pure ()
  | some pending =>
    modify fun c => { c with unloggedRequestTimeout := false, pendingUnloggedRequest := none }
    emit (.unloggedContinuation pending.request reply)

/-- `UnloggedRequestTimeoutCallback`. -/
def unloggedRequestTimeoutCallback : ClientRun FirstReplyClient Unit := do
  let c ← get
  modify fun c => { c with pendingUnloggedRequest := none, unloggedRequestTimeout := false }
  let pending ← demand c.pendingUnloggedRequest
  require (pending.timeoutContinuation = true)
  emit (.timeoutContinuation pending.request)

/-- The methods, `ReceiveMessage`, and the callbacks that the constructor gives the timeouts. -/
def handle : ClientCall → ClientRun FirstReplyClient Unit
  | .invoke request => invoke clientid request
  | .invokeUnlogged replicaIdx request timeoutContinuation =>
    invokeUnlogged clientid replicaIdx request timeoutContinuation
  | .reply clientreqid reply => handleReply clientid clientreqid reply
  | .unloggedReply reply => handleUnloggedReply reply
  | .unexpected => stop
  | .timer .request => resendRequest clientid
  | .timer .unloggedRequest => unloggedRequestTimeoutCallback

/-- `Timeout::Active`. -/
def active (c : FirstReplyClient) : ClientTimer → Bool
  | .request => c.requestTimeout
  | .unloggedRequest => c.unloggedRequestTimeout

/-- A timeout that fires is running. -/
def admits (c : FirstReplyClient) : ClientCall → Bool
  | .timer timer => c.active timer
  | _ => true

/-- The client. -/
def program : ClientProgram FirstReplyClient where
  constructed := {}
  lastReqId := FirstReplyClient.lastReqId
  pending clientid c := c.pendingRequest.map (·.req clientid)
  active := active
  handle := handle

/-! ## What a client can be in -/

/-- A timeout runs exactly while the request that it is for is pending, and no pending request has
a number that is yet to come. -/
structure Tidy (c : FirstReplyClient) : Prop where
  request : c.requestTimeout = c.pendingRequest.isSome
  unloggedRequest : c.unloggedRequestTimeout = c.pendingUnloggedRequest.isSome
  pending : ∀ pending ∈ c.pendingRequest, pending.clientReqId ≤ c.lastReqId
  unloggedPending : ∀ pending ∈ c.pendingUnloggedRequest, pending.clientReqId ≤ c.lastReqId

/-- A client can cope with what happens to it: the application makes no second request of a kind
while one is pending, a timeout that comes has a continuation, and no other message than a reply
arrives. -/
def Fair (c : FirstReplyClient) : ClientCall → Prop
  | .invoke _ => c.pendingRequest = none
  | .invokeUnlogged .. => c.pendingUnloggedRequest = none
  | .reply .. => True
  | .unloggedReply _ => True
  | .unexpected => False
  | .timer .request => True
  | .timer .unloggedRequest =>
    ∀ pending ∈ c.pendingUnloggedRequest, pending.timeoutContinuation = true

/-! ## What each handler does -/

variable {clientid} {c : FirstReplyClient}

/-- The pending request is sent to all replicas, and the timer runs. -/
theorem sendRequest_of_pending {pending : PendingRequest} (here : c.pendingRequest = some pending) :
    sendRequest clientid c =
      ⟨{ c with requestTimeout := true }, [.sendToAll (pending.req clientid)], some ()⟩ := by
  obtain ⟨lastReqId, request, unlogged, requestTimeout, unloggedTimeout⟩ := c
  obtain rfl : request = some pending := here
  rfl

/-- There is no request to send, and the code reads through a null pointer. -/
theorem sendRequest_of_idle (idle : c.pendingRequest = none) :
    sendRequest clientid c = ⟨c, [], none⟩ := by
  unfold sendRequest
  rw [get_bind, idle]
  rfl

/-- A request becomes the pending one and is sent. -/
theorem invoke_of_idle {request : String} (idle : c.pendingRequest = none) :
    invoke clientid request c =
      ⟨{ c with
          lastReqId := c.lastReqId + 1
          pendingRequest := some { request := request, clientReqId := c.lastReqId + 1 }
          requestTimeout := true },
        [.invoked ⟨request, clientid, c.lastReqId + 1⟩,
          .sendToAll ⟨request, clientid, c.lastReqId + 1⟩], some ()⟩ := by
  unfold invoke
  rw [get_bind, require_bind, if_pos idle]
  rfl

/-- A client that waits panics at another request. -/
theorem invoke_of_pending {request : String} (busy : c.pendingRequest ≠ none) :
    invoke clientid request c = ⟨c, [], none⟩ := by
  unfold invoke
  rw [get_bind, require_bind, if_neg busy]

/-- An unlogged request becomes the pending one and is sent. -/
theorem invokeUnlogged_of_idle {replicaIdx : Nat} {request : String} {timeoutContinuation : Bool}
    (idle : c.pendingUnloggedRequest = none) (quiet : c.unloggedRequestTimeout = false) :
    invokeUnlogged clientid replicaIdx request timeoutContinuation c =
      ⟨{ c with
          lastReqId := c.lastReqId + 1
          pendingUnloggedRequest := some ⟨request, c.lastReqId + 1, timeoutContinuation⟩
          unloggedRequestTimeout := true },
        [.sendUnlogged replicaIdx ⟨request, clientid, c.lastReqId + 1⟩], some ()⟩ := by
  obtain ⟨lastReqId, request, unlogged, requestTimeout, unloggedTimeout⟩ := c
  obtain rfl : unlogged = none := idle
  obtain rfl : unloggedTimeout = false := quiet
  rfl

/-- A client that waits for an unlogged reply panics at another unlogged request. -/
theorem invokeUnlogged_of_pending {replicaIdx : Nat} {request : String}
    {timeoutContinuation : Bool} (busy : c.pendingUnloggedRequest ≠ none) :
    invokeUnlogged clientid replicaIdx request timeoutContinuation c = ⟨c, [], none⟩ := by
  unfold invokeUnlogged
  rw [get_bind, require_bind, if_neg busy]

/-- The reply completes the pending request. -/
theorem handleReply_of_pending {pending : PendingRequest} {reply : String}
    (here : c.pendingRequest = some pending) :
    handleReply clientid pending.clientReqId reply c =
      ⟨{ c with requestTimeout := false, pendingRequest := none },
        [.continuation (pending.req clientid) reply], some ()⟩ := by
  unfold handleReply
  rw [get_bind, here]
  simp only [ne_eq, not_true_eq_false, if_false]
  rfl

/-- A reply to another request is dropped. -/
theorem handleReply_of_other {clientreqid : Nat} {reply : String}
    (other : ∀ pending, c.pendingRequest = some pending → clientreqid ≠ pending.clientReqId) :
    handleReply clientid clientreqid reply c = ⟨c, [], some ()⟩ := by
  unfold handleReply
  rw [get_bind]
  cases here : c.pendingRequest with
  | none => rfl
  | some pending =>
      simp only [if_pos (other pending here)]
      rfl

/-- The reply completes the pending unlogged request. -/
theorem handleUnloggedReply_of_pending {pending : PendingRequest} {reply : String}
    (here : c.pendingUnloggedRequest = some pending) :
    handleUnloggedReply reply c =
      ⟨{ c with unloggedRequestTimeout := false, pendingUnloggedRequest := none },
        [.unloggedContinuation pending.request reply], some ()⟩ := by
  unfold handleUnloggedReply
  rw [get_bind, here]
  rfl

/-- An unlogged reply that nobody waits for is dropped. -/
theorem handleUnloggedReply_of_idle {reply : String} (idle : c.pendingUnloggedRequest = none) :
    handleUnloggedReply reply c = ⟨c, [], some ()⟩ := by
  unfold handleUnloggedReply
  rw [get_bind, idle]
  rfl

/-- The timeout ends the unlogged request. -/
theorem unloggedRequestTimeoutCallback_of_pending {pending : PendingRequest}
    (here : c.pendingUnloggedRequest = some pending)
    (continues : pending.timeoutContinuation = true) :
    unloggedRequestTimeoutCallback c =
      ⟨{ c with pendingUnloggedRequest := none, unloggedRequestTimeout := false },
        [.timeoutContinuation pending.request], some ()⟩ := by
  unfold unloggedRequestTimeoutCallback
  rw [get_bind, here]
  show (require _ >>= _) _ = _
  rw [require_bind, if_pos continues]
  rfl

/-- Without a request, or without a continuation for it, the callback stops the client after it
has let go of the request. -/
theorem unloggedRequestTimeoutCallback_of_missing
    (missing : ∀ pending, c.pendingUnloggedRequest = some pending →
      pending.timeoutContinuation ≠ true) :
    unloggedRequestTimeoutCallback c =
      ⟨{ c with pendingUnloggedRequest := none, unloggedRequestTimeout := false }, [], none⟩ := by
  unfold unloggedRequestTimeoutCallback
  rw [get_bind]
  cases here : c.pendingUnloggedRequest with
  | none => rfl
  | some pending =>
      show (require _ >>= _) _ = _
      rw [require_bind, if_neg (missing pending here)]

/-! ## The client conducts itself -/

/-- No request is one with a number in range. -/
theorem none_pending {bound : Nat} :
    ∀ pending ∈ (none : Option PendingRequest), pending.clientReqId ≤ bound := by
  intro pending here
  cases here

/-- A client that has just been constructed is tidy. -/
theorem tidy_constructed : Tidy {} where
  request := rfl
  unloggedRequest := rfl
  pending := none_pending
  unloggedPending := none_pending

/-- Whatever happens to a tidy client, it is tidy afterwards, also if it has stopped. -/
theorem Tidy.handle (tidy : c.Tidy) (call : ClientCall) :
    (handle clientid call c).state.Tidy := by
  cases call with
  | invoke request =>
      show (FirstReplyClient.invoke clientid request c).state.Tidy
      by_cases idle : c.pendingRequest = none
      · rw [invoke_of_idle idle]
        constructor
        · rfl
        · exact tidy.unloggedRequest
        · intro pending here
          cases here
          exact Nat.le_refl _
        · intro pending here
          exact Nat.le_succ_of_le (tidy.unloggedPending pending here)
      · rw [invoke_of_pending idle]
        exact tidy
  | invokeUnlogged replicaIdx request timeoutContinuation =>
      show (FirstReplyClient.invokeUnlogged clientid replicaIdx request
        timeoutContinuation c).state.Tidy
      by_cases idle : c.pendingUnloggedRequest = none
      · have quiet : c.unloggedRequestTimeout = false := by rw [tidy.unloggedRequest, idle]; rfl
        rw [invokeUnlogged_of_idle idle quiet]
        constructor
        · exact tidy.request
        · rfl
        · intro pending here
          exact Nat.le_succ_of_le (tidy.pending pending here)
        · intro pending here
          cases here
          exact Nat.le_refl _
      · rw [invokeUnlogged_of_pending idle]
        exact tidy
  | reply clientreqid reply =>
      show (handleReply clientid clientreqid reply c).state.Tidy
      by_cases mine : ∃ pending, c.pendingRequest = some pending ∧ clientreqid = pending.clientReqId
      · obtain ⟨pending, here, rfl⟩ := mine
        rw [handleReply_of_pending here]
        exact { tidy with request := rfl, pending := none_pending }
      · rw [handleReply_of_other fun pending here same => mine ⟨pending, here, same⟩]
        exact tidy
  | unloggedReply reply =>
      show (handleUnloggedReply reply c).state.Tidy
      cases here : c.pendingUnloggedRequest with
      | none =>
          rw [handleUnloggedReply_of_idle here]
          exact tidy
      | some pending =>
          rw [handleUnloggedReply_of_pending here]
          exact { tidy with unloggedRequest := rfl, unloggedPending := none_pending }
  | unexpected => exact tidy
  | timer timer =>
      cases timer with
      | request =>
          show (sendRequest clientid c).state.Tidy
          cases here : c.pendingRequest with
          | none =>
              rw [sendRequest_of_idle here]
              exact tidy
          | some pending =>
              rw [sendRequest_of_pending here]
              exact { tidy with request := by rw [here]; rfl }
      | unloggedRequest =>
          show (unloggedRequestTimeoutCallback c).state.Tidy
          by_cases continues : ∃ pending, c.pendingUnloggedRequest = some pending ∧
              pending.timeoutContinuation = true
          · obtain ⟨pending, here, continues⟩ := continues
            rw [unloggedRequestTimeoutCallback_of_pending here continues]
            exact { tidy with unloggedRequest := rfl, unloggedPending := none_pending }
          · rw [unloggedRequestTimeoutCallback_of_missing fun pending here is =>
              continues ⟨pending, here, is⟩]
            exact { tidy with unloggedRequest := rfl, unloggedPending := none_pending }

/-- A tidy client goes on exactly if it can cope with what happens to it. -/
theorem Tidy.ends_iff (tidy : c.Tidy) (call : ClientCall)
    (running : c.admits call = true) :
    (FirstReplyClient.handle clientid call c).value.isSome = true ↔ c.Fair call := by
  cases call with
  | invoke request =>
      show (FirstReplyClient.invoke clientid request c).value.isSome = true ↔
        c.pendingRequest = none
      by_cases idle : c.pendingRequest = none
      · rw [invoke_of_idle idle]
        exact iff_of_true rfl idle
      · rw [invoke_of_pending idle]
        exact iff_of_false Bool.false_ne_true idle
  | invokeUnlogged replicaIdx request timeoutContinuation =>
      show (FirstReplyClient.invokeUnlogged clientid replicaIdx request
        timeoutContinuation c).value.isSome = true ↔ c.pendingUnloggedRequest = none
      by_cases idle : c.pendingUnloggedRequest = none
      · have quiet : c.unloggedRequestTimeout = false := by rw [tidy.unloggedRequest, idle]; rfl
        rw [invokeUnlogged_of_idle idle quiet]
        exact iff_of_true rfl idle
      · rw [invokeUnlogged_of_pending idle]
        exact iff_of_false Bool.false_ne_true idle
  | reply clientreqid reply =>
      show (handleReply clientid clientreqid reply c).value.isSome = true ↔ True
      by_cases mine : ∃ pending, c.pendingRequest = some pending ∧ clientreqid = pending.clientReqId
      · obtain ⟨pending, here, rfl⟩ := mine
        rw [handleReply_of_pending here]
        exact iff_of_true rfl trivial
      · rw [handleReply_of_other fun pending here same => mine ⟨pending, here, same⟩]
        exact iff_of_true rfl trivial
  | unloggedReply reply =>
      show (handleUnloggedReply reply c).value.isSome = true ↔ True
      cases here : c.pendingUnloggedRequest with
      | none =>
          rw [handleUnloggedReply_of_idle here]
          exact iff_of_true rfl trivial
      | some pending =>
          rw [handleUnloggedReply_of_pending here]
          exact iff_of_true rfl trivial
  | unexpected => exact iff_of_false Bool.false_ne_true id
  | timer timer =>
      cases timer with
      | request =>
          show (sendRequest clientid c).value.isSome = true ↔ True
          have there : c.pendingRequest.isSome = true := tidy.request.symm.trans running
          obtain ⟨pending, here⟩ := Option.isSome_iff_exists.mp there
          rw [sendRequest_of_pending here]
          exact iff_of_true rfl trivial
      | unloggedRequest =>
          show (unloggedRequestTimeoutCallback c).value.isSome = true ↔
            ∀ pending ∈ c.pendingUnloggedRequest, pending.timeoutContinuation = true
          have there : c.pendingUnloggedRequest.isSome = true :=
            tidy.unloggedRequest.symm.trans running
          obtain ⟨pending, here⟩ := Option.isSome_iff_exists.mp there
          by_cases continues : pending.timeoutContinuation = true
          · rw [unloggedRequestTimeoutCallback_of_pending here continues, here]
            apply iff_of_true rfl
            intro other same
            cases same
            exact continues
          · rw [unloggedRequestTimeoutCallback_of_missing, here]
            · apply iff_of_false Bool.false_ne_true
              exact fun all => continues (all pending rfl)
            · intro other same
              cases here.symm.trans same
              exact continues

/-- The view of a client with a pending request. -/
theorem view_of_pending {pending : PendingRequest} (here : c.pendingRequest = some pending) :
    program.view clientid c = ⟨c.lastReqId, some (pending.req clientid)⟩ := by
  show ClientView.mk c.lastReqId (c.pendingRequest.map _) = _
  rw [here]
  rfl

/-- The view of a client without one. -/
theorem view_of_idle (idle : c.pendingRequest = none) :
    program.view clientid c = ⟨c.lastReqId, none⟩ := by
  show ClientView.mk c.lastReqId (c.pendingRequest.map _) = _
  rw [idle]
  rfl

/-- A handler that leaves the pending request alone, and asks for no other one, is quiet. -/
theorem conduct_quiet {call : ClientCall} {c' : FirstReplyClient} {outputs : List ClientOutput}
    (number : c.lastReqId ≤ c'.lastReqId) (same : c'.pendingRequest = c.pendingRequest)
    (quiet : ∀ output ∈ outputs, output.Quiet (program.view clientid c).pending) :
    Conduct clientid (program.view clientid c) call outputs (program.view clientid c') := by
  have after : program.view clientid c' = ⟨c'.lastReqId, (program.view clientid c).pending⟩ := by
    show ClientView.mk c'.lastReqId (c'.pendingRequest.map _) = _
    rw [same]
    rfl
  rw [after]
  exact .quiet number quiet

/-- A client conducts itself as a service relies on. -/
theorem conduct (tidy : c.Tidy) (call : ClientCall) :
    Conduct clientid (program.view clientid c) call
      (FirstReplyClient.handle clientid call c).outputs
      (program.view clientid (FirstReplyClient.handle clientid call c).state) := by
  have silent : ∀ {pending : Option Request}, ∀ output ∈ ([] : List ClientOutput),
      output.Quiet pending := fun _ none_ => by cases none_
  cases call with
  | invoke request =>
      show Conduct _ _ _ (FirstReplyClient.invoke clientid request c).outputs
        (program.view clientid (FirstReplyClient.invoke clientid request c).state)
      by_cases idle : c.pendingRequest = none
      · rw [invoke_of_idle idle, view_of_idle idle, view_of_pending rfl]
        apply Conduct.invoke
        intro output member
        obtain rfl := List.mem_singleton.mp member
        rfl
      · rw [invoke_of_pending idle]
        exact conduct_quiet (Nat.le_refl _) rfl silent
  | invokeUnlogged replicaIdx request timeoutContinuation =>
      show Conduct _ _ _
        (FirstReplyClient.invokeUnlogged clientid replicaIdx request timeoutContinuation c).outputs
        (program.view clientid (FirstReplyClient.invokeUnlogged clientid replicaIdx request
          timeoutContinuation c).state)
      by_cases idle : c.pendingUnloggedRequest = none
      · have off : c.unloggedRequestTimeout = false := by rw [tidy.unloggedRequest, idle]; rfl
        rw [invokeUnlogged_of_idle idle off]
        have unlogged : ∀ output ∈ [ClientOutput.sendUnlogged replicaIdx
            ⟨request, clientid, c.lastReqId + 1⟩],
            output.Quiet (program.view clientid c).pending := by
          intro output member
          obtain rfl := List.mem_singleton.mp member
          trivial
        exact conduct_quiet (Nat.le_succ _) rfl unlogged
      · rw [invokeUnlogged_of_pending idle]
        exact conduct_quiet (Nat.le_refl _) rfl silent
  | reply clientreqid reply =>
      show Conduct _ _ _ (handleReply clientid clientreqid reply c).outputs
        (program.view clientid (handleReply clientid clientreqid reply c).state)
      by_cases mine : ∃ pending, c.pendingRequest = some pending ∧ clientreqid = pending.clientReqId
      · obtain ⟨pending, here, rfl⟩ := mine
        rw [handleReply_of_pending here, view_of_pending here, view_of_idle rfl]
        exact @Conduct.complete clientid c.lastReqId (pending.req clientid) reply
      · rw [handleReply_of_other fun pending here same => mine ⟨pending, here, same⟩]
        exact conduct_quiet (Nat.le_refl _) rfl silent
  | unloggedReply reply =>
      show Conduct _ _ _ (handleUnloggedReply reply c).outputs
        (program.view clientid (handleUnloggedReply reply c).state)
      cases here : c.pendingUnloggedRequest with
      | none =>
          rw [handleUnloggedReply_of_idle here]
          exact conduct_quiet (Nat.le_refl _) rfl silent
      | some pending =>
          rw [handleUnloggedReply_of_pending here]
          apply conduct_quiet (Nat.le_refl _) rfl
          intro output member
          obtain rfl := List.mem_singleton.mp member
          trivial
  | unexpected => exact conduct_quiet (Nat.le_refl _) rfl silent
  | timer timer =>
      cases timer with
      | request =>
          show Conduct _ _ _ (sendRequest clientid c).outputs
            (program.view clientid (sendRequest clientid c).state)
          cases here : c.pendingRequest with
          | none =>
              rw [sendRequest_of_idle here]
              exact conduct_quiet (Nat.le_refl _) rfl silent
          | some pending =>
              rw [sendRequest_of_pending here]
              apply conduct_quiet (Nat.le_refl _) rfl
              intro output member
              obtain rfl := List.mem_singleton.mp member
              rw [view_of_pending here]
              rfl
      | unloggedRequest =>
          show Conduct _ _ _ (unloggedRequestTimeoutCallback c).outputs
            (program.view clientid (unloggedRequestTimeoutCallback c).state)
          by_cases continues : ∃ pending, c.pendingUnloggedRequest = some pending ∧
              pending.timeoutContinuation = true
          · obtain ⟨pending, here, continues⟩ := continues
            rw [unloggedRequestTimeoutCallback_of_pending here continues]
            apply conduct_quiet (Nat.le_refl _) rfl
            intro output member
            obtain rfl := List.mem_singleton.mp member
            trivial
          · rw [unloggedRequestTimeoutCallback_of_missing fun pending here is =>
              continues ⟨pending, here, is⟩]
            exact conduct_quiet (Nat.le_refl _) rfl silent

/-- A service can rely on the client. -/
theorem orderly : program.Orderly Tidy where
  sane := tidy_constructed
  fresh _ := rfl
  mine clientid c req here := by
    obtain ⟨pending, -, rfl⟩ := Option.map_eq_some_iff.mp here
    rfl
  keeps _ call _ tidy := tidy.handle call
  conduct _ call _ tidy := conduct tidy call

/-! ## Any run of a client -/

/-- A client to which one thing happens after another; it takes no step after it has stopped. -/
def system (clientid : Nat) : TransitionSystem FirstReplyClient ClientCall where
  Initial c := c = {}
  step c call :=
    if c.admits call then
      (handle clientid call c).value.map fun _ => (handle clientid call c).state
    else
      none

/-- Whatever has happened to a client, it is tidy. -/
theorem invariant_tidy (clientid : Nat) :
    (system clientid).Invariant TransitionSystem.unguarded Tidy where
  initial c initial := by
    obtain rfl : c = {} := initial
    exact tidy_constructed
  preserved {c call next} tidy _ stepped := by
    simp only [system] at stepped
    split at stepped
    next =>
        obtain ⟨_, -, rfl⟩ := Option.map_eq_some_iff.mp stepped
        exact tidy.handle call
    next => cases stepped

/-- Whatever has happened to a client: what happens next stops it exactly if it cannot cope with
it. A timeout of the request never finds the request gone, and no timeout is running when it is to
be started. -/
theorem stops_iff {clientid : Nat} {c : FirstReplyClient}
    (reachable : (system clientid).Reachable TransitionSystem.unguarded c) (call : ClientCall)
    (running : c.admits call = true) :
    (handle clientid call c).value = none ↔ ¬ c.Fair call := by
  have tidy := (invariant_tidy clientid).of_reachable reachable
  rw [← tidy.ends_iff call running, Bool.not_eq_true, Option.isSome_eq_false_iff,
    Option.isNone_iff_eq_none]

/-- A request and an unlogged one without a continuation for its timeout. -/
def hastyRun : List ClientCall := [.invoke "put", .invokeUnlogged 0 "get" false]

/-- The client resends its request when the timeout fires, but the timeout of the unlogged request
stops it. -/
theorem stops_hastyRun : ∃ c : FirstReplyClient,
    (handle 4 (.timer .request) c).value ≠ none ∧
      (handle 4 (.timer .unloggedRequest) c).value = none := by
  obtain ⟨c, reachable, running⟩ :=
    (system 4).exists_reachable_of_run TransitionSystem.unguarded
      (fun c => decide (c.requestTimeout = true ∧ c.unloggedRequestTimeout = true ∧
        c.pendingUnloggedRequest = some ⟨"get", 2, false⟩)) hastyRun rfl (by decide)
  obtain ⟨request, unlogged, pending⟩ := of_decide_eq_true running
  refine ⟨c, ?_, ?_⟩
  · intro stopped
    exact (stops_iff reachable (.timer .request) request).mp stopped trivial
  · apply (stops_iff reachable (.timer .unloggedRequest) unlogged).mpr
    intro fair
    cases fair _ pending

end FirstReplyClient

end PaxosBus.Common

import PaxosBus.Common.Log
import PaxosBus.Library.Handler

/-!
# Clients

What can happen to a `Client`, and what it can do. The protocols have clients of
their own; what a service relies on is the same for all of them: a client has
one request pending at a time, under a number it has not used, and is done with
it when a reply for that number reaches it.
-/

set_option autoImplicit false

namespace PaxosBus.Common

open PaxosBus.Library

/-- The timeouts of a client. -/
inductive ClientTimer where
  | request
  | unloggedRequest
deriving DecidableEq, Repr

/-- What can happen to a client: the application calls it, possibly without a continuation for a
timeout, a message reaches it, or a timeout fires. -/
inductive ClientCall where
  | invoke (request : String)
  | invokeUnlogged (replicaIdx : Nat) (request : String) (timeoutContinuation : Bool)
  | reply (clientreqid : Nat) (reply : String)
  | unloggedReply (reply : String)
  | unexpected
  | timer (timer : ClientTimer)
deriving DecidableEq, Repr

/-- What a client puts out: requests, calls of the application's continuations, and a mark for a
request that the application has made. -/
inductive ClientOutput where
  | invoked (req : Request)
  | sendToAll (req : Request)
  | sendToReplica (replicaIdx : Nat) (req : Request)
  | sendUnlogged (replicaIdx : Nat) (req : Request)
  | continuation (req : Request) (reply : String)
  | unloggedContinuation (request reply : String)
  | timeoutContinuation (request : String)
deriving DecidableEq, Repr

/-- A piece of a client's program. -/
abbrev ClientRun (C α : Type) := Handler C ClientOutput α

/-- A client: how it is constructed, which number it has used last, which request is pending, and
how it handles what happens to it. -/
structure ClientProgram (C : Type) where
  constructed : C
  lastReqId : C → Nat
  pending : Nat → C → Option Request
  active : C → ClientTimer → Bool
  handle : Nat → ClientCall → ClientRun C Unit

/-- What is seen of a client: the number it has used last, and the pending request. -/
structure ClientView where
  lastReqId : Nat
  pending : Option Request

/-- The output asks replicas to execute the request. -/
def ClientOutput.Asks (req : Request) : ClientOutput → Prop
  | .sendToAll asked => asked = req
  | .sendToReplica _ asked => asked = req
  | .invoked _ => False
  | .continuation _ _ => False
  | _ => True

/-- The output begins or ends no request, and asks for none but the pending one. -/
def ClientOutput.Quiet (pending : Option Request) : ClientOutput → Prop
  | .sendToAll asked => pending = some asked
  | .sendToReplica _ asked => pending = some asked
  | .invoked _ => False
  | .continuation _ _ => False
  | _ => True

/-- What a client makes of what happens to it. -/
inductive Conduct (clientid : Nat) :
    ClientView → ClientCall → List ClientOutput → ClientView → Prop where
  | invoke {lastReqId : Nat} {request : String} {outputs : List ClientOutput} :
      (∀ output ∈ outputs, output.Asks ⟨request, clientid, lastReqId + 1⟩) →
      Conduct clientid ⟨lastReqId, none⟩ (.invoke request)
        (.invoked ⟨request, clientid, lastReqId + 1⟩ :: outputs)
        ⟨lastReqId + 1, some ⟨request, clientid, lastReqId + 1⟩⟩
  | complete {lastReqId : Nat} {req : Request} {reply : String} :
      Conduct clientid ⟨lastReqId, some req⟩ (.reply req.clientreqid reply)
        [.continuation req reply] ⟨lastReqId, none⟩
  | quiet {view : ClientView} {call : ClientCall} {outputs : List ClientOutput} {lastReqId : Nat} :
      view.lastReqId ≤ lastReqId → (∀ output ∈ outputs, output.Quiet view.pending) →
      Conduct clientid view call outputs ⟨lastReqId, view.pending⟩

namespace ClientProgram

variable {C : Type}

/-- What is seen of a client in a state. -/
def view (program : ClientProgram C) (clientid : Nat) (c : C) : ClientView where
  lastReqId := program.lastReqId c
  pending := program.pending clientid c

/-- A client conducts itself as a service relies on, in the states that it can be in. -/
structure Orderly (program : ClientProgram C) (Sane : C → Prop) : Prop where
  sane : Sane program.constructed
  fresh : ∀ clientid, program.view clientid program.constructed = ⟨0, none⟩
  mine : ∀ clientid c req, program.pending clientid c = some req → req.clientid = clientid
  keeps : ∀ clientid call c, Sane c → Sane (program.handle clientid call c).state
  conduct : ∀ clientid call c, Sane c → Conduct clientid (program.view clientid c) call
    (program.handle clientid call c).outputs
    (program.view clientid (program.handle clientid call c).state)

end ClientProgram

end PaxosBus.Common

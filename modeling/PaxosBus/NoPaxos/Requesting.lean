import PaxosBus.NoPaxos.Framing

/-!
# The state transfers that are asked for

What a handler asks for are the state transfer requests among its outputs, with
their destinations. Only `SendStateTransferRequest` puts one out, and it comes
last where the log of a view is merged or adopted, so a handler asks for what
its last part asks for.
-/

set_option autoImplicit false

namespace PaxosBus.NoPaxos

open PaxosBus.Common PaxosBus.Library
open Trace (Covers)

/-- The state transfer request that an output is, and where it goes. -/
def Output.stateTransferRequest : Output → Option (Destination × StateTransferRequestMessage)
  | .send destination (.stateTransferRequest msg) => some (destination, msg)
  | _ => none

/-- The state transfers that a handler asks for. -/
def asked {α : Type} (handler : Run α) (r : Replica) :
    List (Destination × StateTransferRequestMessage) :=
  (handler r).outputs.filterMap Output.stateTransferRequest

/-- No state transfer is asked for. -/
def unasking : Trace Replica Output where
  Rel _ outputs _ := outputs.filterMap Output.stateTransferRequest = []
  refl _ := rfl
  trans before after := by
    rw [List.filterMap_append, before, after]
    rfl

variable {setup : Setup} {app : App} {r : Replica} {α β : Type}

/-- An output that is no such request adds nothing. -/
theorem indifferent_unasking : Indifferent unasking where
  change _ := rfl
  emit r output quiet := by
    have none_ : output.stateTransferRequest = none := by
      unfold Output.stateTransferRequest
      split
      · exact absurd quiet id
      · rfl
    exact List.filterMap_cons_none none_

theorem framed_unasking : Framed setup app unasking := indifferent_unasking.framed

/-! ## Sequences -/

section Sequences

variable {first : Run β} {next : β → Run α} {handler : Run α}

/-- What puts out no request asks for nothing. -/
theorem asked_eq_nil (covers : unasking.Covers handler) : asked handler r = [] := covers r

/-- After a part that asks for nothing, the rest asks. -/
theorem asked_bind {value : β} (covers : unasking.Covers first)
    (ended : (first r).value = some value) :
    asked (first >>= next) r = asked (next value) (first r).state := by
  have before := covers r
  unfold asked
  rcases result : first r with ⟨middle, outputs, found⟩
  rw [result] at ended before
  obtain rfl : found = some value := ended
  rw [Handler.bind_of_ended result, List.filterMap_append]
  exact congrArg (· ++ _) before

/-- Nothing more is asked for after a part that stops. -/
theorem asked_require_bind {condition : Prop} [Decidable condition] {next : Unit → Run α} :
    asked (Handler.require condition >>= next) r = if condition then asked (next ()) r else [] := by
  unfold asked
  rw [Handler.require_bind]
  split <;> rfl

theorem asked_get_bind {next : Replica → Run α} :
    asked (Handler.get >>= next) r = asked (next r) r := rfl

theorem asked_modify_bind {change : Replica → Replica} {next : Unit → Run α} :
    asked (Handler.modify change >>= next) r = asked (next ()) (change r) := rfl

theorem asked_emit_bind {output : Output} {next : Unit → Run α} (quiet : output.Unasking) :
    asked (Handler.emit output >>= next) r = asked (next ()) r :=
  asked_bind (.emit fun r => indifferent_unasking.emit r quiet) rfl

end Sequences

/-! ## The ends of the handlers -/

/-- The request for the rest of a log. -/
def Replica.restRequest (r : Replica) (lastop : Nat) : StateTransferRequestMessage where
  sessnum := r.sessnum
  view := r.view
  begin_ := r.lastOp + 1
  end_ := lastop + 1

/-- A replica that starts a view asks its leader for what it lacks. -/
theorem completeStartView_asks {msg : StartViewMessage} :
    asked (completeStartView setup app msg) r =
      if r.lastOp < msg.lastop then
        [(.one (.replica (setup.configuration.getLeaderIndex msg.view)),
          { r with sessnum := msg.sessnum, view := msg.view }.restRequest msg.lastop)]
      else [] := by
  unfold completeStartView
  rw [asked_get_bind]
  split
  next =>
      rw [asked_modify_bind, asked_emit_bind]
      · rfl
      · trivial
  next => exact asked_eq_nil (framed_unasking.enterView _ _)

end PaxosBus.NoPaxos

import Std.Data.TreeMap.Lemmas

/-!
# Timers of a transport

The timer half of `Transport`: a process asks for a one-shot callback and gets
an id by which it can cancel it. Which pending timer fires next, and when, is
the environment's choice.
-/

set_option autoImplicit false

namespace PaxosBus.Common

open Std

/-- A one-shot timer that has been requested and has neither fired nor been cancelled. -/
structure PendingTimer (Callback : Type) where
  ms : Nat
  callback : Callback
deriving DecidableEq, Repr

/-- The timers a process has outstanding at its transport. -/
structure Timers (Callback : Type) where
  lastTimerId : Nat := 0
  pending : TreeMap Nat (PendingTimer Callback) := {}

namespace Timers

variable {Callback : Type}

/-- `Transport::Timer`: ids count up from one, so zero can stand for "no timer". -/
def timer (timers : Timers Callback) (ms : Nat) (callback : Callback) : Timers Callback × Nat :=
  let id := timers.lastTimerId + 1
  ({ lastTimerId := id, pending := timers.pending.insert id { ms, callback } }, id)

/-- `Transport::CancelTimer`. -/
def cancelTimer (timers : Timers Callback) (id : Nat) : Timers Callback :=
  { timers with pending := timers.pending.erase id }

end Timers

end PaxosBus.Common

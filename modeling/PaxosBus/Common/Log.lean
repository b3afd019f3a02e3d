import Mathlib.Data.Nat.Basic

/-!
# Log entries

The data that replica logs, and the messages that carry pieces of them, are made
of. The hash of an entry chains it to the entry before it; SHA-1 itself is a
parameter.
-/

set_option autoImplicit false

namespace PaxosBus.Common

/-- `specpaxos::Request`, without the operations for other shards. -/
structure Request where
  op : String
  clientid : Nat
  clientreqid : Nat
deriving DecidableEq, Repr

/-- The pair by which the replicas recognise a request. -/
def Request.reqid (request : Request) : Nat × Nat := (request.clientid, request.clientreqid)

/-- `viewstamp_t`, without the session fields. -/
@[ext] structure Viewstamp where
  view : Nat
  opnum : Nat
deriving DecidableEq, Repr

/-- `LogEntryState`. -/
inductive LogEntryState where
  | committed
  | prepared
  | speculative
  | fastPrepared
  | received
  | noop
  | executed
deriving DecidableEq, Repr

/-- `Log::LogEntry`, and the `MsgLogEntry` that carries one in a message. -/
structure LogEntry (Hash : Type) where
  viewstamp : Viewstamp
  state : LogEntryState
  request : Request
  hash : Hash
deriving DecidableEq, Repr

/-- The parameters of `Log::ComputeHash`: what the digest of a previous hash, a client id
and a request id is, and `Log::EMPTY_HASH`. -/
structure Hashing (Hash : Type) where
  digest : Hash → Nat → Nat → Hash
  emptyHash : Hash

namespace Hashing

variable {Hash : Type} (hashing : Hashing Hash)

/-- `Log::ComputeHash`, which reads nothing but the ids of the entry's request. -/
def computeHash (lastHash : Hash) (request : Request) : Hash :=
  hashing.digest lastHash request.clientid request.clientreqid

/-- No two different inputs have the same digest. -/
structure CollisionFree : Prop where
  lastHash : ∀ {a b : Hash} {p q : Request},
    hashing.computeHash a p = hashing.computeHash b q → a = b
  reqid : ∀ {a b : Hash} {p q : Request},
    hashing.computeHash a p = hashing.computeHash b q → p.reqid = q.reqid

end Hashing

/-- A hash that spells out what it is computed from. -/
def spelling : Hashing (List Nat) where
  digest lastHash clientid clientreqid := clientid :: clientreqid :: lastHash
  emptyHash := []

theorem spelling_collisionFree : spelling.CollisionFree where
  lastHash same := by
    simp only [Hashing.computeHash, spelling, List.cons.injEq] at same
    exact same.2.2
  reqid same := by
    simp only [Hashing.computeHash, spelling, List.cons.injEq] at same
    simp only [Request.reqid, same]

end PaxosBus.Common

import Mathlib.Data.Finset.Card
import Mathlib.Data.Finset.Dedup
import Mathlib.Logic.Function.Basic
import Std.Data.TreeMap.Lemmas

/-!
# Quorum sets

`QuorumSet` collects, under an id, the latest message from each replica, and
says when enough replicas have sent one.
-/

set_option autoImplicit false

namespace PaxosBus.Common

open Std (TreeMap)

/-- `QuorumSet`. An id under which nothing was added has no messages. -/
structure QuorumSet (Id Msg : Type) where
  numRequired : Nat
  messages : Id → TreeMap Nat Msg := fun _ => {}

/-- The replicas whose messages are in a set. -/
def senders {Msg : Type} (messages : TreeMap Nat Msg) : Finset Nat := messages.keys.toFinset

/-- One sender a message. -/
theorem card_senders {Msg : Type} (messages : TreeMap Nat Msg) :
    (senders messages).card = messages.size := by
  unfold senders
  rw [List.toFinset_card_of_nodup, TreeMap.length_keys]
  exact TreeMap.nodup_keys

/-- A sender has a message. -/
theorem mem_senders {Msg : Type} {messages : TreeMap Nat Msg} {replicaIdx : Nat} :
    replicaIdx ∈ senders messages ↔ ∃ msg, messages[replicaIdx]? = some msg := by
  unfold senders
  rw [List.mem_toFinset, TreeMap.mem_keys, ← TreeMap.isSome_getElem?_iff_mem,
    Option.isSome_iff_exists]

theorem values_eq_map {Msg : Type} (messages : TreeMap Nat Msg) :
    messages.values = messages.toList.map Prod.snd := by
  have folded : messages.values = messages.foldr (fun _ msg rest => msg :: rest) [] := rfl
  rw [folded, TreeMap.foldr_eq_foldr_toList]
  induction messages.toList with
  | nil => rfl
  | cons entry rest inductionHypothesis =>
      rw [List.foldr_cons, inductionHypothesis, List.map_cons]

/-- The messages in a set are those that some replica has sent. -/
theorem mem_values {Msg : Type} {messages : TreeMap Nat Msg} {msg : Msg} :
    msg ∈ messages.values ↔ ∃ replicaIdx : Nat, messages[replicaIdx]? = some msg := by
  rw [values_eq_map, List.mem_map]
  constructor
  · rintro ⟨⟨replicaIdx, _⟩, inList, rfl⟩
    exact ⟨replicaIdx, TreeMap.mem_toList_iff_getElem?_eq_some.mp inList⟩
  · rintro ⟨replicaIdx, found⟩
    exact ⟨(replicaIdx, msg), TreeMap.mem_toList_iff_getElem?_eq_some.mpr found, rfl⟩

namespace QuorumSet

variable {Id Msg : Type} [DecidableEq Id]

/-- `QuorumSet::Clear`. -/
def clear (quorum : QuorumSet Id Msg) : QuorumSet Id Msg where
  numRequired := quorum.numRequired

/-- `QuorumSet::GetMessages`. -/
def getMessages (quorum : QuorumSet Id Msg) (vs : Id) : TreeMap Nat Msg := quorum.messages vs

/-- `QuorumSet::CheckForQuorum`. -/
def checkForQuorum (quorum : QuorumSet Id Msg) (vs : Id) : Option (TreeMap Nat Msg) :=
  if quorum.numRequired ≤ (quorum.messages vs).size then some (quorum.messages vs) else none

/-- `QuorumSet::Add`. A later message from the same replica replaces the earlier one. -/
def add (quorum : QuorumSet Id Msg) (vs : Id) (replicaIdx : Nat) (msg : Msg) : QuorumSet Id Msg :=
  { quorum with
    messages :=
      Function.update quorum.messages vs ((quorum.messages vs).insert replicaIdx msg) }

/-- `QuorumSet::AddAndCheckForQuorum`. -/
def addAndCheckForQuorum (quorum : QuorumSet Id Msg) (vs : Id) (replicaIdx : Nat) (msg : Msg) :
    QuorumSet Id Msg × Option (TreeMap Nat Msg) :=
  let added := quorum.add vs replicaIdx msg
  (added, added.checkForQuorum vs)

/-- Every message of a set has a property. -/
def All (quorum : QuorumSet Id Msg) (Property : Id → Nat → Msg → Prop) : Prop :=
  ∀ vs replicaIdx msg, (quorum.messages vs)[replicaIdx]? = some msg → Property vs replicaIdx msg

variable {quorum : QuorumSet Id Msg} {Property : Id → Nat → Msg → Prop}

omit [DecidableEq Id] in
/-- A cleared set has no messages to speak of. -/
theorem all_clear : (quorum.clear).All Property := by
  intro vs replicaIdx msg found
  simp [clear] at found

omit [DecidableEq Id] in
/-- A weaker property holds of every message too. -/
theorem All.imp {Weaker : Id → Nat → Msg → Prop} (all : quorum.All Property)
    (weaker : ∀ vs replicaIdx msg, Property vs replicaIdx msg → Weaker vs replicaIdx msg) :
    quorum.All Weaker :=
  fun vs replicaIdx msg found => weaker vs replicaIdx msg (all vs replicaIdx msg found)

/-- Adding a message with the property keeps it. -/
theorem All.add (all : quorum.All Property) {vs : Id} {replicaIdx : Nat} {msg : Msg}
    (holds : Property vs replicaIdx msg) : (quorum.add vs replicaIdx msg).All Property := by
  intro other sender found present
  by_cases here : other = vs
  · subst here
    simp only [QuorumSet.add, Function.update_self, TreeMap.getElem?_insert] at present
    split at present
    next same =>
        obtain rfl : replicaIdx = sender := by simpa using same
        obtain rfl := Option.some.inj present
        exact holds
    next => exact all other sender found present
  · simp only [QuorumSet.add, Function.update_of_ne here] at present
    exact all other sender found present

omit [DecidableEq Id] in
/-- The messages of a quorum are those of the set, and there are enough of them. -/
theorem of_checkForQuorum {vs : Id} {msgs : TreeMap Nat Msg}
    (found : quorum.checkForQuorum vs = some msgs) :
    msgs = quorum.messages vs ∧ quorum.numRequired ≤ msgs.size := by
  unfold checkForQuorum at found
  split at found
  next enough =>
      obtain rfl := Option.some.inj found
      exact ⟨rfl, enough⟩
  next => simp at found

/-- The message that was added is there. -/
theorem getElem?_add_self (vs : Id) (replicaIdx : Nat) (msg : Msg) :
    ((quorum.add vs replicaIdx msg).messages vs)[replicaIdx]? = some msg := by
  simp [add]

/-- A quorum that is complete stays so with a message more. -/
theorem isSome_checkForQuorum_add {id vs : Id} {replicaIdx : Nat} {msg : Msg}
    (complete : (quorum.checkForQuorum vs).isSome) :
    ((quorum.add id replicaIdx msg).checkForQuorum vs).isSome := by
  have enough : quorum.numRequired ≤ (quorum.messages vs).size := by
    by_contra few
    rw [checkForQuorum, if_neg few] at complete
    nomatch complete
  have grows : (quorum.messages vs).size ≤ ((quorum.add id replicaIdx msg).messages vs).size := by
    by_cases same : vs = id
    · subst same
      simp only [add, Function.update_self]
      exact TreeMap.size_le_size_insert
    · simp [add, Function.update_of_ne same]
  have enough' : (quorum.add id replicaIdx msg).numRequired ≤
      ((quorum.add id replicaIdx msg).messages vs).size := enough.trans grows
  rw [checkForQuorum, if_pos enough']
  rfl

end QuorumSet

end PaxosBus.Common

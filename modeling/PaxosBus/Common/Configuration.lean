import Mathlib.Data.Nat.Basic

/-!
# Replica group configuration

The part of `Configuration` that the protocols consult: the group size, the
number of tolerated failures, the quorum sizes and the leader of a view.
-/

set_option autoImplicit false

namespace PaxosBus.Common

/-- The group size `n` and the tolerated failures `f` read from the configuration file. -/
structure Configuration where
  n : Nat
  f : Nat
deriving DecidableEq, Repr

namespace Configuration

/-- `Configuration::QuorumSize`. -/
def quorumSize (config : Configuration) : Nat := config.f + 1

/-- `Configuration::FastQuorumSize`. -/
def fastQuorumSize (config : Configuration) : Nat := config.f + (config.f + 1) / 2 + 1

/-- `Configuration::GetLeaderIndex`: leadership rotates with the view number. -/
def getLeaderIndex (config : Configuration) (view : Nat) : Nat := view % config.n

/-- The group sizes for which every protocol of the repository is designed. -/
def Balanced (config : Configuration) : Prop := config.n = 2 * config.f + 1

instance (config : Configuration) : Decidable config.Balanced :=
  inferInstanceAs (Decidable (config.n = 2 * config.f + 1))

/-- A balanced group has at least one replica. -/
theorem Balanced.pos {config : Configuration} (balanced : config.Balanced) : 0 < config.n := by
  unfold Balanced at balanced
  omega

/-- The leader of a view is a replica of the group. -/
theorem getLeaderIndex_lt {config : Configuration} (nonempty : 0 < config.n) (view : Nat) :
    config.getLeaderIndex view < config.n :=
  Nat.mod_lt view nonempty

end Configuration

end PaxosBus.Common

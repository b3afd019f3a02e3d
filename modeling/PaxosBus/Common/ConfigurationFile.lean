import PaxosBus.Library.CString
import Std.Data.TreeMap.Lemmas

/-!
# The configuration file

The constructor of `Configuration` that reads a file. It goes through the lines,
cuts each into a directive and its argument with `strtok`, and looks at the whole
only after the last line.
-/

set_option autoImplicit false

namespace PaxosBus.Common

open Std PaxosBus.Library

/-- How the constructor can stop: with a `Panic`, with a null token in `strcasecmp`, or with an
`int` that overflows, which is undefined. -/
inductive Stop where
  | panic (message : String)
  | nullToken
  | overflow
deriving DecidableEq, Repr

/-- `ReplicaAddress`. -/
structure ReplicaAddress where
  host : Text
  port : Text
deriving DecidableEq, Repr

/-- The host and the port in an argument, if both are there. -/
def hostPort (arg : Text) : Option ReplicaAddress :=
  match strtok [':'] arg with
  | none => none
  | some (host, saved) =>
    match strtok [] saved with
    | none => none
    | some (port, _) => some { host, port }

/-- The argument of a line that gives an address. -/
structure Argument where
  text : Text
  address : ReplicaAddress
  read : hostPort text = some address
deriving DecidableEq

/-- What a line says. -/
inductive Directive where
  | f (value : Int)
  | group
  | replica (arg : Argument)
  | multicast (arg : Argument)
  | fc (arg : Argument)
deriving DecidableEq

/-- The delimiters `" \t"`. -/
def blanks : Text := [' ', '\t']

/-- The branch of a line that gives an address, with its two messages. -/
def readArgument (missing format : String) (saved : Text) : Except Stop Argument :=
  match strtok blanks saved with
  | none => .error (.panic missing)
  | some (arg, _) =>
    match read : hostPort arg with
    | none => .error (.panic format)
    | some address => .ok { text := arg, address, read }

/-- The branch of a `f` line. -/
def readF (saved : Text) : Except Stop Int :=
  match strtok blanks saved with
  | none => .error (.panic "'f' configuration line requires an argument")
  | some (arg, _) =>
    let (value, rest) := strtoul arg
    if arg = [] ∨ rest ≠ [] then .error (.panic "Invalid argument to 'f' configuration line")
    else .ok (toInt value)

/-- The body of the loop up to the members that it changes; empty lines and comments say
nothing. -/
def readLine (line : Text) : Except Stop (Option Directive) :=
  if line = [] ∨ line.head? = some '#' then .ok none
  else
    match strtok blanks (cString line) with
    | none => .error .nullToken
    | some (cmd, saved) =>
      if strcasecmp cmd ['f'] then
        (readF saved).map fun value => some (.f value)
      else if strcasecmp cmd "group".toList then
        .ok (some .group)
      else if strcasecmp cmd "replica".toList then
        (readArgument "'replica' configuration line requires an argument"
          "Configuration line format: 'replica group host:port'" saved).map fun arg =>
            some (.replica arg)
      else if strcasecmp cmd "multicast".toList then
        (readArgument "'multicast' configuration line requires an argument"
          "Configuration line format: 'multicast host:port'" saved).map fun arg =>
            some (.multicast arg)
      else if strcasecmp cmd "fc".toList then
        (readArgument "'fc' configuration line requires an argument"
          "Configuration line format: 'fc host:port'" saved).map fun arg => some (.fc arg)
      else .error (.panic ("Unknown configuration directive: " ++ String.ofList cmd))

/-- What the loop has gathered: the members, and the number of the group. -/
structure Reading where
  f : Int := -1
  group : Int := -1
  replicas : TreeMap Int (List ReplicaAddress) := {}
  multicast : Option ReplicaAddress := none
  fc : Option ReplicaAddress := none

/-- What a directive does. -/
def Reading.apply (r : Reading) : Directive → Except Stop Reading
  | .f value => .ok { r with f := value }
  | .group => if r.group + 1 = 2 ^ 31 then .error .overflow else .ok { r with group := r.group + 1 }
  | .replica arg =>
    let group := if r.group < 0 then 0 else r.group
    .ok { r with
      group
      replicas := r.replicas.insert group (r.replicas.getD group [] ++ [arg.address]) }
  | .multicast arg => .ok { r with multicast := some arg.address }
  | .fc arg => .ok { r with fc := some arg.address }

/-- The loop over the lines. -/
def Reading.readLines (r : Reading) : List Text → Except Stop Reading
  | [] => .ok r
  | line :: lines => do
    match ← readLine line with
    | none => r.readLines lines
    | some directive =>
      let r ← r.apply directive
      r.readLines lines

/-- The members of a `Configuration`. -/
structure FileConfiguration where
  g : Int
  n : Int
  f : Int
  replicas : TreeMap Int (List ReplicaAddress)
  multicast : Option ReplicaAddress
  fc : Option ReplicaAddress

/-- The checks after the loop. The number of the group and the sizes are cut to an `int`, and
`replicas[0]` makes a group zero if there is none. -/
def Reading.finish (r : Reading) : Except Stop FileConfiguration :=
  let g := toInt r.replicas.size
  if g = 0 then .error (.panic "Configuration did not specify any groups")
  else
    let replicas := if 0 ∈ r.replicas then r.replicas else r.replicas.insert 0 []
    let n := toInt (replicas.getD 0 []).length
    if replicas.toList.any fun kv => (kv.2.length : Int) ≠ n % 2 ^ 64 then
      .error (.panic "All groups must contain the same number of replicas.")
    else if n = 0 then .error (.panic "Configuration did not specify any replicas")
    else if r.f = -1 then .error (.panic "Configuration did not specify a 'f' parameter")
    else .ok { g, n, f := r.f, replicas, multicast := r.multicast, fc := r.fc }

/-- `Configuration::Configuration`, on the text of the file. -/
def FileConfiguration.read (text : Text) : Except Stop FileConfiguration := do
  let r ← Reading.readLines {} (text.splitOn '\n')
  r.finish

end PaxosBus.Common

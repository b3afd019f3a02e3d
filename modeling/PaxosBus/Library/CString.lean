import Mathlib.Algebra.Group.Int.Defs
import Mathlib.Algebra.Group.Nat.Defs
import Mathlib.Data.List.TakeWhile

/-!
# Strings of C

The functions of `string.h` and `stdlib.h` that cut strings into tokens, compare
them and read numbers. A text is the list of its bytes, each a character; a C
string ends before the first null character.
-/

set_option autoImplicit false

namespace PaxosBus.Library

/-- A text, one character for each of its bytes. -/
abbrev Text := List Char

/-- What a text is as a C string. -/
def cString (text : Text) : Text := text.takeWhile (· ≠ Char.ofNat 0)

/-- `strtok`: skip the delimiters in front and return the token and the position after the
delimiter that ends it, or a null pointer if there are only delimiters. -/
def strtok (delimiters text : Text) : Option (Text × Text) :=
  let start := text.dropWhile (· ∈ delimiters)
  if start = [] then none
  else some (start.takeWhile (· ∉ delimiters), (start.dropWhile (· ∉ delimiters)).drop 1)

/-- `strcasecmp` finds no difference. -/
def strcasecmp (text other : Text) : Bool := text.map Char.toLower == other.map Char.toLower

/-- `isspace`. -/
def isspace (c : Char) : Bool := c = ' ' || (9 ≤ c.toNat && c.toNat ≤ 13)

/-- The value of a digit in some base. -/
def digitValue (base : Nat) (c : Char) : Option Nat :=
  let value :=
    if c.isDigit then c.toNat - 48
    else if c.toLower.isLower then c.toLower.toNat - 87
    else base
  if value < base then some value else none

/-- The base that a number announces, and its digits. -/
def announcedBase : Text → Nat × Text
  | '0' :: x :: digit :: rest =>
    if x.toLower = 'x' ∧ (digitValue 16 digit).isSome then (16, digit :: rest)
    else (8, '0' :: x :: digit :: rest)
  | '0' :: rest => (8, '0' :: rest)
  | digits => (10, digits)

/-- `strtoul` with base zero, for an `unsigned long` of 64 bits: the number, and what follows
it. A number that is too large is the largest one, and a sign is subtraction from zero. -/
def strtoul (text : Text) : Nat × Text :=
  let (negative, digits) :=
    match text.dropWhile isspace with
    | '-' :: rest => (true, rest)
    | '+' :: rest => (false, rest)
    | rest => (false, rest)
  let (base, digits) := announcedBase digits
  let number := digits.takeWhile fun c => (digitValue base c).isSome
  if number = [] then (0, text)
  else
    let value := number.foldl (fun value c => base * value + (digitValue base c).getD 0) 0
    let value :=
      if 2 ^ 64 ≤ value then 2 ^ 64 - 1
      else if negative then (2 ^ 64 - value) % 2 ^ 64
      else value
    (value, digits.drop number.length)

/-- The conversion to an `int` of 32 bits. -/
def toInt (value : Nat) : Int := (BitVec.ofNat 32 value).toInt

example : strtoul ['-', '0', 'x', '1', 'f', ' '] = (2 ^ 64 - 31, [' ']) := by decide +kernel

/-- A small number is kept. -/
theorem toInt_of_lt {value : Nat} (small : value < 2 ^ 31) : toInt value = value := by
  have kept : (BitVec.ofNat 32 value).toNat = value := by
    rw [BitVec.toNat_ofNat]
    omega
  rw [toInt, BitVec.toInt_eq_toNat_of_lt (by omega), kept]

/-- An `int` has 31 bits and a sign. -/
theorem toInt_lt (value : Nat) : toInt value < 2 ^ 31 := by
  have bounded := BitVec.two_mul_toInt_lt (x := BitVec.ofNat 32 value)
  unfold toInt
  omega

/-- A token is not empty. -/
theorem token_ne_nil {delimiters text token rest : Text}
    (found : strtok delimiters text = some (token, rest)) : token ≠ [] := by
  unfold strtok at found
  dsimp only at found
  split at found
  · cases found
  · rename_i more
    obtain ⟨rfl, -⟩ := Prod.mk.inj (Option.some.inj found)
    intro empty
    cases start : text.dropWhile (· ∈ delimiters) with
    | nil => exact more start
    | cons c rest' =>
        rw [start, List.takeWhile_cons] at empty
        have head := List.head?_dropWhile_not (· ∈ delimiters) text
        rw [start] at head
        have outside : c ∉ delimiters := by simpa using head
        simp [outside] at empty

/-- Without delimiters the token is the whole text. -/
theorem strtok_nil (text : Text) : strtok [] text = if text = [] then none else some (text, []) := by
  have start : text.dropWhile (· ∈ ([] : Text)) = text := by
    cases text <;> simp
  have token : text.takeWhile (· ∉ ([] : Text)) = text :=
    List.takeWhile_eq_self_iff.mpr (by simp)
  have rest : text.dropWhile (· ∉ ([] : Text)) = [] :=
    List.dropWhile_eq_nil_iff.mpr (by simp)
  simp only [strtok, start, token, rest, List.drop_nil]

end PaxosBus.Library

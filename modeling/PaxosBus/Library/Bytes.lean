import Mathlib.Algebra.Group.Nat.Defs
import Mathlib.Data.List.Basic
import Mathlib.Data.Nat.Basic

/-!
# Fixed-width fields in byte sequences

Numbers stored in the least significant byte first, and the reading of a field
or of a run of bytes from the front of a buffer. A read past the end of the
buffer is `none`.
-/

set_option autoImplicit false

namespace PaxosBus.Library

/-- A finite sequence of bytes. -/
abbrev Bytes := List UInt8

/-- The `width` low bytes of a number, least significant first. -/
def encodeLE : Nat → Nat → Bytes
  | 0, _ => []
  | width + 1, value => UInt8.ofNat value :: encodeLE width (value / 256)

/-- The number that a sequence of bytes stands for. -/
def decodeLE : Bytes → Nat
  | [] => 0
  | byte :: rest => byte.toNat + 256 * decodeLE rest

@[simp] theorem length_encodeLE (width value : Nat) : (encodeLE width value).length = width := by
  induction width generalizing value with
  | zero => rfl
  | succ width inductionHypothesis => simp [encodeLE, inductionHypothesis]

/-- Encoding keeps a number up to the width. -/
theorem decodeLE_encodeLE_mod (width value : Nat) :
    decodeLE (encodeLE width value) = value % 256 ^ width := by
  induction width generalizing value with
  | zero => simp [encodeLE, decodeLE, Nat.mod_one]
  | succ width inductionHypothesis =>
      have low : (UInt8.ofNat value).toNat = value % 256 := by simp
      rw [encodeLE, decodeLE, inductionHypothesis, low, Nat.pow_succ, Nat.mul_comm (256 ^ width),
        Nat.mod_mul]

/-- A number that fits is decoded exactly. -/
theorem decodeLE_encodeLE {width value : Nat} (fits : value < 256 ^ width) :
    decodeLE (encodeLE width value) = value := by
  rw [decodeLE_encodeLE_mod, Nat.mod_eq_of_lt fits]

/-- The first `count` bytes of a buffer and the rest. -/
def readBytes (count : Nat) (buffer : Bytes) : Option (Bytes × Bytes) :=
  if count ≤ buffer.length then some (buffer.take count, buffer.drop count) else none

/-- The number in the first `width` bytes of a buffer and the rest. -/
def readLE (width : Nat) (buffer : Bytes) : Option (Nat × Bytes) :=
  (readBytes width buffer).map fun (field, rest) => (decodeLE field, rest)

/-- What was put in front is read back. -/
theorem readBytes_append {count : Nat} {field : Bytes} (rest : Bytes)
    (length : field.length = count) : readBytes count (field ++ rest) = some (field, rest) := by
  subst length
  simp [readBytes]

/-- A field is read back, whatever follows it. -/
theorem readLE_append {width : Nat} {field : Bytes} (rest : Bytes)
    (length : field.length = width) :
    readLE width (field ++ rest) = some (decodeLE field, rest) := by
  simp [readLE, readBytes_append rest length]

/-- A number that fits its field is read back. -/
theorem readLE_encodeLE (width value : Nat) (rest : Bytes) (fits : value < 256 ^ width) :
    readLE width (encodeLE width value ++ rest) = some (value, rest) := by
  rw [readLE_append rest (length_encodeLE width value), decodeLE_encodeLE fits]

/-- What a run of bytes stands for fits as many bytes. -/
theorem decodeLE_lt (field : Bytes) : decodeLE field < 256 ^ field.length := by
  induction field with
  | nil => simp [decodeLE]
  | cons byte rest inductionHypothesis =>
      have small := byte.toNat_lt
      rw [decodeLE, List.length_cons, Nat.pow_succ]
      omega

/-- A field is the encoding of what it stands for. -/
theorem encodeLE_decodeLE (field : Bytes) : encodeLE field.length (decodeLE field) = field := by
  induction field with
  | nil => rfl
  | cons byte rest inductionHypothesis =>
      have small := byte.toNat_lt
      have low : UInt8.ofNat (byte.toNat + 256 * decodeLE rest) = byte := by
        apply UInt8.toNat.inj
        rw [UInt8.toNat_ofNat']
        omega
      have high : (byte.toNat + 256 * decodeLE rest) / 256 = decodeLE rest := by omega
      rw [decodeLE, List.length_cons, encodeLE, low, high, inductionHypothesis]

/-- Two numbers that agree in the width have one encoding. -/
theorem encodeLE_mod (width value : Nat) : encodeLE width (value % 256 ^ width) = encodeLE width value := by
  have decoded := encodeLE_decodeLE (encodeLE width value)
  rwa [length_encodeLE, decodeLE_encodeLE_mod] at decoded

/-- A read returns exactly what stands in front. -/
theorem readBytes_eq_some_iff {count : Nat} {buffer field rest : Bytes} :
    readBytes count buffer = some (field, rest) ↔ buffer = field ++ rest ∧ field.length = count := by
  constructor
  · intro read
    unfold readBytes at read
    split at read
    · rename_i enough
      obtain ⟨rfl, rfl⟩ := Prod.mk.inj (Option.some.inj read)
      exact ⟨(List.take_append_drop count buffer).symm, List.length_take_of_le enough⟩
    · cases read
  · rintro ⟨rfl, length⟩
    exact readBytes_append rest length

/-- A number is read exactly where its encoding stands in front. -/
theorem readLE_eq_some_iff {width value : Nat} {buffer rest : Bytes} :
    readLE width buffer = some (value, rest) ↔
      buffer = encodeLE width value ++ rest ∧ value < 256 ^ width := by
  constructor
  · intro read
    obtain ⟨⟨field, left⟩, taken, same⟩ := Option.map_eq_some_iff.mp read
    obtain ⟨rfl, rfl⟩ := Prod.mk.inj same
    obtain ⟨rfl, rfl⟩ := readBytes_eq_some_iff.mp taken
    rw [encodeLE_decodeLE]
    exact ⟨rfl, decodeLE_lt field⟩
  · rintro ⟨rfl, fits⟩
    exact readLE_encodeLE width value rest fits

/-- A number and what follows it are told apart. -/
theorem encodeLE_append_inj {width value other : Nat} {rest rest' : Bytes}
    (fits : value < 256 ^ width) (fits' : other < 256 ^ width)
    (same : encodeLE width value ++ rest = encodeLE width other ++ rest') :
    value = other ∧ rest = rest' := by
  have read := readLE_encodeLE width value rest fits
  rw [same, readLE_encodeLE width other rest' fits'] at read
  obtain ⟨equal, left⟩ := Prod.mk.inj (Option.some.inj read)
  exact ⟨equal.symm, left.symm⟩

end PaxosBus.Library

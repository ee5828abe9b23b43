import Mathlib.Data.List.Basic
import Mathlib.Tactic.Ring

/-!
# Byte strings

`std::string`, `std::vector<uint8_t>` and the buffers handed around by the
sources are finite byte sequences.
-/

namespace Libnei

abbrev Bytes := List UInt8

/-- The bytes of an ASCII literal of the source. -/
def ascii (text : String) : Bytes :=
  text.toList.map fun character => character.toNat.toUInt8

/-- `SIZE_MAX` of the 64-bit targets. -/
def sizeMax : Nat := 2 ^ 64 - 1

namespace Bytes

/-- `std::vector<uint8_t>::resize`: cut off, or fill up with zero bytes. -/
def resize (bytes : Bytes) (size : Nat) : Bytes :=
  bytes.take size ++ List.replicate (size - bytes.length) 0

@[simp] theorem resize_length (bytes : Bytes) (size : Nat) :
    (bytes.resize size).length = size := by
  simp only [resize, List.length_append, List.length_take,
    List.length_replicate]
  omega

/-- `memcpy(bytes.data() + start, source, size)` inside the bounds of the
destination. -/
def overwrite (bytes : Bytes) (start : Nat) (source : Bytes) : Bytes :=
  bytes.take start ++ source ++ bytes.drop (start + source.length)

theorem overwrite_length (bytes source : Bytes) (start : Nat)
    (inside : start + source.length ≤ bytes.length) :
    (bytes.overwrite start source).length = bytes.length := by
  simp only [overwrite, List.length_append, List.length_take, List.length_drop]
  omega

/-- Two adjacent copies are one copy of both sources. -/
theorem overwrite_overwrite (bytes first second : Bytes) (start : Nat)
    (inside : start + first.length ≤ bytes.length) :
    (bytes.overwrite start first).overwrite (start + first.length) second =
      bytes.overwrite start (first ++ second) := by
  have prefixLength :
      (bytes.take start ++ first).length = start + first.length := by
    simp only [List.length_append, List.length_take]
    omega
  have dropped : (bytes.take start ++ first).drop
        (start + first.length + second.length) = [] :=
    List.drop_eq_nil_of_le (by omega)
  have remaining : start + first.length +
          (start + first.length + second.length - (start + first.length)) =
        start + (first.length + second.length) := by omega
  simp only [overwrite]
  rw [List.take_left' prefixLength, List.drop_append, dropped, prefixLength,
    List.nil_append, List.drop_drop, List.length_append, remaining,
    List.append_assoc (bytes.take start)]

end Bytes

end Libnei

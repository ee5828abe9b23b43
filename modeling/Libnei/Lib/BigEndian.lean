import Mathlib.Data.List.Induction
import Mathlib.Data.Nat.Bitwise
import Mathlib.Tactic.Ring

/-!
# Big-endian byte numerals

Wire formats write an unsigned integer as a fixed number of bytes, the most
significant one first.  `decodeBE` reads such a numeral with the usual
shift-and-or loop; `encodeBE` writes it with shifts and masks.
-/

namespace Libnei.Lib

/-- One round of the reading loop: `acc = (acc << 8) | byte`. -/
def shiftIn (acc : Nat) (byte : UInt8) : Nat :=
  (acc <<< 8) ||| byte.toNat

def decodeBE (bytes : List UInt8) : Nat :=
  bytes.foldl shiftIn 0

/-- The byte of `value` found `shift` bits from its low end. -/
def byteAt (value shift : Nat) : UInt8 :=
  ((value >>> shift) &&& 0xFF).toUInt8

def encodeBE (width value : Nat) : List UInt8 :=
  (List.range width).map fun index =>
    byteAt value (8 * (width - 1 - index))

theorem byteAt_toNat (value shift : Nat) :
    (byteAt value shift).toNat = value / 2 ^ shift % 256 := by
  have masked : (value >>> shift) &&& 0xFF = value / 2 ^ shift % 256 := by
    have mask := Nat.and_two_pow_sub_one_eq_mod (value >>> shift) 8
    simpa [Nat.shiftRight_eq_div_pow] using mask
  rw [byteAt, masked]
  simp

theorem shiftIn_eq (acc : Nat) (byte : UInt8) :
    shiftIn acc byte = acc * 256 + byte.toNat := by
  have small : byte.toNat < 2 ^ 8 := byte.toNat_lt
  rw [shiftIn, ← Nat.shiftLeft_add_eq_or_of_lt small, Nat.shiftLeft_eq]

@[simp] theorem encodeBE_length (width value : Nat) :
    (encodeBE width value).length = width := by
  simp [encodeBE]

theorem encodeBE_succ (width value : Nat) : encodeBE (width + 1) value =
      encodeBE width (value / 256) ++ [byteAt value 0] := by
  rw [encodeBE, List.range_succ, List.map_append]
  congr 1
  · refine List.map_congr_left ?_
    intro index member
    have below : index < width := List.mem_range.mp member
    have shift : 8 * (width + 1 - 1 - index) =
        8 + 8 * (width - 1 - index) := by omega
    simp only [byteAt, shift, Nat.shiftRight_add]
    rw [Nat.shiftRight_eq_div_pow value 8]
  · simp

theorem decodeBE_encodeBE {width value : Nat} (fits : value < 256 ^ width) :
    decodeBE (encodeBE width value) = value := by
  induction width generalizing value with
  | zero =>
    have zero : value = 0 := by simpa using fits
    simp [zero, encodeBE, decodeBE]
  | succ width ih =>
    have high : value / 256 < 256 ^ width := by
      rw [Nat.div_lt_iff_lt_mul (by decide)]
      simpa [Nat.pow_succ] using fits
    rw [encodeBE_succ, decodeBE, List.foldl_append, List.foldl_cons,
      List.foldl_nil, shiftIn_eq, byteAt_toNat]
    have front := ih high
    rw [decodeBE] at front
    rw [front]
    simp only [Nat.pow_zero, Nat.div_one]
    omega

theorem decodeBE_lt (bytes : List UInt8) :
    decodeBE bytes < 256 ^ bytes.length := by
  induction bytes using List.reverseRecOn with
  | nil => simp [decodeBE]
  | append_singleton bytes byte ih =>
    rw [decodeBE, List.foldl_append, List.foldl_cons, List.foldl_nil,
      shiftIn_eq]
    rw [decodeBE] at ih
    have small : byte.toNat < 256 := byte.toNat_lt
    simp only [List.length_append, List.length_singleton, Nat.pow_succ]
    omega

end Libnei.Lib

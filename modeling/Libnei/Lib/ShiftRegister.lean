import Mathlib.Data.BitVec
import Mathlib.Data.List.OfFn

/-!
# Reflected shift registers

A register that divides a stream of bits by a polynomial, the lowest bit
first.  The division is linear in exclusive or, so several bits can be taken
in one go: what the low bits of the register contribute can be looked up, and
the high bits only move down.
-/

namespace Libnei.Lib.ShiftRegister

variable {w : Nat} (polynomial : BitVec w)

def shift (register : BitVec w) : BitVec w :=
  if register.getLsbD 0 then register >>> 1 ^^^ polynomial
  else register >>> 1

def bitOf (bit : Bool) : BitVec w :=
  (BitVec.ofBool bit).setWidth w

/-- The register after one more bit of the stream. -/
def feed (register : BitVec w) (bit : Bool) : BitVec w :=
  shift polynomial (register ^^^ bitOf bit)

/-- A short stream as a number, its first bit lowest. -/
def packed : List Bool → BitVec w
  | [] => 0
  | bit :: bits => bitOf bit ^^^ packed bits <<< 1

/-! ## Linearity -/

theorem xor_xor_cancel (first second third : BitVec w) :
    first ^^^ third ^^^ (second ^^^ third) = first ^^^ second := by
  rw [BitVec.xor_comm second, BitVec.xor_assoc, ← BitVec.xor_assoc third,
    BitVec.xor_self, BitVec.zero_xor]

theorem shift_xor (first second : BitVec w) :
    shift polynomial (first ^^^ second) =
      shift polynomial first ^^^ shift polynomial second := by
  simp only [shift, BitVec.getLsbD_xor, BitVec.ushiftRight_xor_distrib]
  cases first.getLsbD 0 <;> cases second.getLsbD 0
  · simp
  · simp [BitVec.xor_assoc]
  · simp only [Bool.bne_false, if_true, Bool.false_eq_true, if_false]
    rw [BitVec.xor_assoc, BitVec.xor_assoc, BitVec.xor_comm polynomial]
  · simp [xor_xor_cancel]

theorem shifts_xor (count : Nat) (first second : BitVec w) :
    (shift polynomial)^[count] (first ^^^ second) =
      (shift polynomial)^[count] first ^^^
        (shift polynomial)^[count] second := by
  induction count generalizing first second with
  | zero => rfl
  | succ count ih =>
    simp only [Function.iterate_succ, Function.comp_apply, shift_xor, ih]

/-! ## Several bits at once -/

/-- Bits that are clear leave no trace. -/
theorem shifts_of_clear (register : BitVec w) (count : Nat)
    (clear : ∀ index < count, register.getLsbD index = false) :
    (shift polynomial)^[count] register = register >>> count := by
  induction count with
  | zero => simp
  | succ count ih =>
    have moved := ih fun index small =>
      clear index (Nat.lt_succ_of_lt small)
    have low : (register >>> count).getLsbD 0 = false := by
      simpa using clear count (Nat.lt_succ_self count)
    rw [Function.iterate_succ_apply', moved, shift, low,
      if_neg Bool.false_ne_true, BitVec.shiftRight_add]

theorem shifts_split (register low high : BitVec w) (count : Nat)
    (parts : register = low ^^^ high)
    (clear : ∀ index < count, high.getLsbD index = false) :
    (shift polynomial)^[count] register =
      (shift polynomial)^[count] low ^^^ high >>> count := by
  rw [parts, shifts_xor, shifts_of_clear polynomial high count clear]

theorem getElem_packed (bits : List Bool) (index : Nat) (small : index < w) :
    (packed bits : BitVec w)[index] = bits.getD index false := by
  induction bits generalizing index with
  | nil => simp [packed]
  | cons bit bits ih =>
    cases index with
    | zero => simp [packed, bitOf]
    | succ index =>
      have rest := ih index (by omega)
      simpa [packed, bitOf, small] using rest

theorem shift_packed (bits : List Bool) (short : bits.length < w) :
    shift polynomial (packed bits <<< 1) = packed bits := by
  have low : (packed bits <<< 1 : BitVec w).getLsbD 0 = false := by simp
  rw [shift, low, if_neg Bool.false_ne_true]
  apply BitVec.eq_of_getElem_eq
  intro index small
  by_cases last : index + 1 < w
  · simp [Nat.add_comm 1 index, last]
  · have beyond : bits.length ≤ index := by omega
    simp [Nat.add_comm 1 index, last, getElem_packed, beyond]

/-- A short stream can be added to the register before the shifts. -/
theorem foldl_feed (bits : List Bool) (register : BitVec w)
    (short : bits.length ≤ w) :
    bits.foldl (feed polynomial) register =
      (shift polynomial)^[bits.length] (register ^^^ packed bits) := by
  induction bits generalizing register with
  | nil => simp [packed]
  | cons bit bits ih =>
    have rest : bits.length < w := short
    calc (bit :: bits).foldl (feed polynomial) register
      _ = (shift polynomial)^[bits.length]
            (feed polynomial register bit ^^^ packed bits) :=
          ih _ (Nat.le_of_lt rest)
      _ = (shift polynomial)^[bits.length]
            (shift polynomial
              (register ^^^ bitOf bit ^^^ packed bits <<< 1)) := by
          rw [shift_xor, shift_packed polynomial bits rest, feed]
      _ = _ := by
          rw [List.length_cons, Function.iterate_succ_apply, packed,
            BitVec.xor_assoc]

theorem packed_injective {first second : List Bool}
    (sameLength : first.length = second.length) (short : first.length ≤ w)
    (same : (packed first : BitVec w) = packed second) : first = second := by
  apply List.ext_getElem sameLength
  intro index small _
  have inside : index < w := by omega
  have bit := congrArg (BitVec.getLsbD · index) same
  simpa [BitVec.getLsbD_eq_getElem inside, getElem_packed, small,
    sameLength ▸ small] using bit

/-! ## Errors

A polynomial with its top bit set loses nothing: the top bit behind a shift
is the low bit before it. -/

section Errors

variable {polynomial} (top : polynomial.msb = true)

include top

theorem msb_shift (register : BitVec w) :
    (shift polynomial register).msb = register.getLsbD 0 := by
  have clear : (register >>> 1).msb = false := by
    simp [BitVec.msb_ushiftRight]
  rw [shift]
  split
  · case isTrue low => simp [BitVec.msb_xor, clear, top, low]
  · case isFalse low => simp [clear, low]

theorem shift_injective : Function.Injective (shift polynomial) := by
  intro first second same
  have low : first.getLsbD 0 = second.getLsbD 0 := by
    rw [← msb_shift top first, same, msb_shift top second]
  have high : first >>> 1 = second >>> 1 := by
    simp only [shift, low] at same
    split at same
    · exact (BitVec.xor_left_inj _).mp same
    · exact same
  apply BitVec.eq_of_getLsbD_eq
  intro index small
  cases index with
  | zero => exact low
  | succ index =>
    have moved := congrArg (BitVec.getLsbD · index) high
    simpa [Nat.add_comm 1 index] using moved

theorem foldl_feed_injective (bits : List Bool) :
    Function.Injective (bits.foldl (feed polynomial)) := by
  induction bits with
  | nil => exact fun _ _ same => same
  | cons bit bits ih =>
    intro first second same
    have fed := shift_injective top (ih same)
    exact (BitVec.xor_left_inj _).mp fed

/-- A burst of errors that is no longer than the register is noticed. -/
theorem foldl_feed_burst (register : BitVec w)
    {front sent received back : List Bool}
    (sameLength : received.length = sent.length) (short : sent.length ≤ w)
    (differ : received ≠ sent) :
    (front ++ received ++ back).foldl (feed polynomial) register ≠
      (front ++ sent ++ back).foldl (feed polynomial) register := by
  intro same
  simp only [List.foldl_append] at same
  have burst := foldl_feed_injective top back same
  rw [foldl_feed polynomial received _ (sameLength ▸ short),
    foldl_feed polynomial sent _ short, sameLength] at burst
  have added := (shift_injective top).iterate _ burst
  exact differ (packed_injective sameLength (sameLength ▸ short)
    ((BitVec.xor_right_inj _).mp added))

end Errors

end Libnei.Lib.ShiftRegister

import Mathlib.Data.List.Basic
import Mathlib.Tactic.Common

/-!
# Unicode encodings

UTF-16 beside the UTF-8 encoder of the core library.  A text is a list of
scalar values; an encoded text is well formed if it is the encoding of one.
-/

namespace Libnei.Lib

def encodeUTF8 (text : List Char) : List UInt8 :=
  text.flatMap String.utf8EncodeChar

def utf16EncodeChar (char : Char) : List UInt16 :=
  if char.toNat ≤ 0xFFFF then [UInt16.ofNat char.toNat]
  else
    [UInt16.ofNat (0xD800 + (char.toNat - 0x10000) / 1024),
      UInt16.ofNat (0xDC00 + (char.toNat - 0x10000) % 1024)]

def encodeUTF16 (text : List Char) : List UInt16 :=
  text.flatMap utf16EncodeChar

theorem encodeUTF8_cons (char : Char) (text : List Char) :
    encodeUTF8 (char :: text) = String.utf8EncodeChar char ++ encodeUTF8 text :=
  List.flatMap_cons

theorem encodeUTF16_cons (char : Char) (text : List Char) :
    encodeUTF16 (char :: text) = utf16EncodeChar char ++ encodeUTF16 text :=
  List.flatMap_cons

def isHighSurrogate (unit : UInt16) : Bool :=
  0xD800 ≤ unit && unit ≤ 0xDBFF

def isLowSurrogate (unit : UInt16) : Bool :=
  0xDC00 ≤ unit && unit ≤ 0xDFFF

/-- No surrogate is unpaired. -/
def paired : List UInt16 → Bool
  | [] => true
  | unit :: rest =>
      if isHighSurrogate unit then
        match rest with
        | [] => false
        | low :: rest => isLowSurrogate low && paired rest
      else !isLowSurrogate unit && paired rest

variable {unit : UInt16}

theorem isHighSurrogate_iff : isHighSurrogate unit = true ↔
      0xD800 ≤ unit.toNat ∧ unit.toNat ≤ 0xDBFF := by
  rw [isHighSurrogate, Bool.and_eq_true, decide_eq_true_eq,
    decide_eq_true_eq, UInt16.le_iff_toNat_le, UInt16.le_iff_toNat_le]
  exact Iff.rfl

theorem isLowSurrogate_iff : isLowSurrogate unit = true ↔
      0xDC00 ≤ unit.toNat ∧ unit.toNat ≤ 0xDFFF := by
  rw [isLowSurrogate, Bool.and_eq_true, decide_eq_true_eq,
    decide_eq_true_eq, UInt16.le_iff_toNat_le, UInt16.le_iff_toNat_le]
  exact Iff.rfl

/-! ## Scalar values -/

theorem exists_char (value : Nat) (valid : value.isValidChar) :
    ∃ char : Char, char.toNat = value := by
  refine ⟨Char.ofNat value, ?_⟩
  rw [Char.ofNat, dif_pos valid]
  rfl

theorem char_valid (char : Char) : char.toNat.isValidChar :=
  char.valid

/-! ## UTF-16 -/

theorem paired_unit (high : ¬isHighSurrogate unit = true) (rest : List UInt16) :
    paired (unit :: rest) = (!isLowSurrogate unit && paired rest) := by
  cases rest <;> simp [paired, high]

theorem paired_pair (high : isHighSurrogate unit = true) (low : UInt16)
    (rest : List UInt16) :
    paired (unit :: low :: rest) = (isLowSurrogate low && paired rest) := by
  rw [paired, if_pos high]

theorem paired_append_encode (char : Char) (rest : List UInt16) :
    paired (utf16EncodeChar char ++ rest) = paired rest := by
  have valid := char_valid char
  unfold Nat.isValidChar at valid
  rw [utf16EncodeChar]
  split
  case isTrue small =>
    have value : (UInt16.ofNat char.toNat).toNat = char.toNat :=
      Nat.mod_eq_of_lt (by omega)
    have high : ¬isHighSurrogate (UInt16.ofNat char.toNat) = true := by
      rw [isHighSurrogate_iff, value]
      omega
    have low : ¬isLowSurrogate (UInt16.ofNat char.toNat) = true := by
      rw [isLowSurrogate_iff, value]
      omega
    rw [List.singleton_append, paired_unit high,
      Bool.eq_false_iff.mpr low, Bool.not_false, Bool.true_and]
  case isFalse large =>
    have high : isHighSurrogate (UInt16.ofNat
        (0xD800 + (char.toNat - 0x10000) / 1024)) = true := by
      rw [isHighSurrogate_iff, UInt16.toNat_ofNat']
      omega
    have low : isLowSurrogate (UInt16.ofNat
        (0xDC00 + (char.toNat - 0x10000) % 1024)) = true := by
      rw [isLowSurrogate_iff, UInt16.toNat_ofNat']
      omega
    rw [List.cons_append, List.cons_append, List.nil_append,
      paired_pair high, low, Bool.true_and]

theorem exists_char_of_unit (high : ¬isHighSurrogate unit = true)
    (low : ¬isLowSurrogate unit = true) :
    ∃ char : Char, char.toNat = unit.toNat ∧ utf16EncodeChar char = [unit] := by
  rw [isHighSurrogate_iff] at high
  rw [isLowSurrogate_iff] at low
  have bound := unit.toNat_lt
  obtain ⟨char, same⟩ := exists_char unit.toNat (by
    unfold Nat.isValidChar
    omega)
  refine ⟨char, same, ?_⟩
  rw [utf16EncodeChar, if_pos (by omega), same, UInt16.ofNat_toNat]

theorem exists_char_of_pair {high low : UInt16}
    (isHigh : isHighSurrogate high = true)
    (isLow : isLowSurrogate low = true) :
    ∃ char : Char, char.toNat = 0x10000 + ((high.toNat - 0xD800) * 1024 +
        (low.toNat - 0xDC00)) ∧
      utf16EncodeChar char = [high, low] := by
  rw [isHighSurrogate_iff] at isHigh
  rw [isLowSurrogate_iff] at isLow
  obtain ⟨char, same⟩ := exists_char (0x10000 +
    ((high.toNat - 0xD800) * 1024 + (low.toNat - 0xDC00))) (by
      unfold Nat.isValidChar
      omega)
  refine ⟨char, same, ?_⟩
  rw [utf16EncodeChar, if_neg (by omega), same]
  have first : 0xD800 + (0x10000 + ((high.toNat - 0xD800) * 1024 +
      (low.toNat - 0xDC00)) - 0x10000) / 1024 = high.toNat := by
    omega
  have second : 0xDC00 + (0x10000 + ((high.toNat - 0xD800) * 1024 +
      (low.toNat - 0xDC00)) - 0x10000) % 1024 = low.toNat := by
    omega
  rw [first, second, UInt16.ofNat_toNat, UInt16.ofNat_toNat]

/-- The texts without unpaired surrogates are the encoded ones. -/
theorem paired_iff {units : List UInt16} :
    paired units = true ↔ ∃ text, units = encodeUTF16 text := by
  constructor
  · intro holds
    fun_induction paired units with
    | case1 => exact ⟨[], rfl⟩
    | case2 => cases holds
    | case3 high isHigh low rest ih =>
      obtain ⟨isLow, holds⟩ := Bool.and_eq_true_iff.mp holds
      obtain ⟨char, -, spelled⟩ := exists_char_of_pair isHigh isLow
      obtain ⟨text, rfl⟩ := ih holds
      refine ⟨char :: text, ?_⟩
      rw [encodeUTF16_cons, spelled]
      rfl
    | case4 unit rest isHigh ih =>
      obtain ⟨isLow, holds⟩ := Bool.and_eq_true_iff.mp holds
      obtain ⟨char, -, spelled⟩ := exists_char_of_unit isHigh
        (by simpa using isLow)
      obtain ⟨text, rfl⟩ := ih holds
      refine ⟨char :: text, ?_⟩
      rw [encodeUTF16_cons, spelled]
      rfl
  · rintro ⟨text, rfl⟩
    induction text with
    | nil => rfl
    | cons char text ih =>
      rw [encodeUTF16_cons, paired_append_encode]
      exact ih

/-! ## UTF-8 -/

/-- A byte behind the first one of a sequence. -/
def Tail (byte : UInt8) : Prop :=
  0x80 ≤ byte.toNat ∧ byte.toNat < 0xC0

/-- The sequences of RFC 3629, with the scalar values that they stand for. -/
inductive Sequence : List UInt8 → Nat → Prop
  | one {b0 : UInt8} {value : Nat} (lead : b0.toNat < 0x80)
      (same : value = b0.toNat) : Sequence [b0] value
  | two {b0 b1 : UInt8} {value : Nat}
      (lead : 0xC2 ≤ b0.toNat ∧ b0.toNat < 0xE0) (next : Tail b1)
      (same : value = b0.toNat % 32 * 64 + b1.toNat % 64) :
      Sequence [b0, b1] value
  | three {b0 b1 b2 : UInt8} {value : Nat}
      (lead : 0xE0 ≤ b0.toNat ∧ b0.toNat < 0xF0) (next : Tail b1)
      (last : Tail b2) (long : b0.toNat = 0xE0 → 0xA0 ≤ b1.toNat)
      (scalar : b0.toNat = 0xED → b1.toNat < 0xA0)
      (same : value = b0.toNat % 16 * 4096 + b1.toNat % 64 * 64 +
        b2.toNat % 64) :
      Sequence [b0, b1, b2] value
  | four {b0 b1 b2 b3 : UInt8} {value : Nat}
      (lead : 0xF0 ≤ b0.toNat ∧ b0.toNat ≤ 0xF4) (next : Tail b1)
      (third : Tail b2) (last : Tail b3)
      (long : b0.toNat = 0xF0 → 0x90 ≤ b1.toNat)
      (scalar : b0.toNat = 0xF4 → b1.toNat ≤ 0x8F)
      (same : value = b0.toNat % 8 * 262144 + b1.toNat % 64 * 4096 +
        b2.toNat % 64 * 64 + b3.toNat % 64) :
      Sequence [b0, b1, b2, b3] value

section

variable {char : Char}

theorem utf8_one (small : char.toNat ≤ 0x7F) :
    String.utf8EncodeChar char = [UInt8.ofNat char.toNat] :=
  if_pos small

theorem utf8_two (low : 0x7F < char.toNat) (high : char.toNat ≤ 0x7FF) :
    String.utf8EncodeChar char = [UInt8.ofNat (char.toNat / 64 % 32 + 192),
        UInt8.ofNat (char.toNat % 64 + 128)] :=
  (if_neg (Nat.not_le.mpr low)).trans (if_pos high)

theorem utf8_three (low : 0x7FF < char.toNat) (high : char.toNat ≤ 0xFFFF) :
    String.utf8EncodeChar char = [UInt8.ofNat (char.toNat / 4096 % 16 + 224),
        UInt8.ofNat (char.toNat / 64 % 64 + 128),
        UInt8.ofNat (char.toNat % 64 + 128)] :=
  (if_neg (by rw [← Char.toNat]; omega)).trans
    ((if_neg (Nat.not_le.mpr low)).trans (if_pos high))

theorem utf8_four (low : 0xFFFF < char.toNat) : String.utf8EncodeChar char =
      [UInt8.ofNat (char.toNat / 262144 % 8 + 240),
        UInt8.ofNat (char.toNat / 4096 % 64 + 128),
        UInt8.ofNat (char.toNat / 64 % 64 + 128),
        UInt8.ofNat (char.toNat % 64 + 128)] :=
  (if_neg (by rw [← Char.toNat]; omega)).trans
    ((if_neg (by rw [← Char.toNat]; omega)).trans (if_neg (Nat.not_le.mpr low)))

end

theorem ofNat_eq {value : Nat} (byte : UInt8) (same : value = byte.toNat) :
    UInt8.ofNat value = byte := by
  rw [same, UInt8.ofNat_toNat]

theorem Sequence.exists_char {bytes : List UInt8} {value : Nat}
    (sequence : Sequence bytes value) :
    ∃ char : Char, char.toNat = value ∧ String.utf8EncodeChar char = bytes := by
  have valid : value.isValidChar := by
    unfold Nat.isValidChar
    cases sequence with
    | one | two => omega
    | three lead next last long scalar same =>
      unfold Tail at next
      omega
    | four lead next third last long scalar same =>
      unfold Tail at next
      omega
  obtain ⟨char, rfl⟩ := Lib.exists_char value valid
  refine ⟨char, rfl, ?_⟩
  cases sequence with
  | one lead same => rw [utf8_one (by omega), ofNat_eq _ same]
  | @two b0 b1 _ lead next =>
    unfold Tail at next
    rw [utf8_two (by omega) (by omega), ofNat_eq b0 (by omega),
      ofNat_eq b1 (by omega)]
  | @three b0 b1 b2 _ lead next last long scalar =>
    unfold Tail at next last
    rw [utf8_three (by omega) (by omega), ofNat_eq b0 (by omega),
      ofNat_eq b1 (by omega), ofNat_eq b2 (by omega)]
  | @four b0 b1 b2 b3 _ lead next third last long scalar =>
    unfold Tail at next third last
    rw [utf8_four (by omega), ofNat_eq b0 (by omega),
      ofNat_eq b1 (by omega), ofNat_eq b2 (by omega),
      ofNat_eq b3 (by omega)]

theorem sequence_encode (char : Char) :
    Sequence (String.utf8EncodeChar char) char.toNat := by
  have valid := char_valid char
  unfold Nat.isValidChar at valid
  have byte : ∀ value, value < 256 → (UInt8.ofNat value).toNat = value :=
    fun value bound => Nat.mod_eq_of_lt bound
  have tail : ∀ value, Tail (UInt8.ofNat (value % 64 + 128)) := by
    intro value
    rw [Tail, byte _ (by omega)]
    omega
  by_cases one : char.toNat ≤ 0x7F
  · rw [utf8_one one]
    have lead := byte char.toNat (by omega)
    exact .one (by omega) lead.symm
  by_cases two : char.toNat ≤ 0x7FF
  · rw [utf8_two (by omega) two]
    have lead := byte (char.toNat / 64 % 32 + 192) (by omega)
    have next := byte (char.toNat % 64 + 128) (by omega)
    exact .two (by omega) (tail _) (by omega)
  by_cases three : char.toNat ≤ 0xFFFF
  · rw [utf8_three (by omega) three]
    have lead := byte (char.toNat / 4096 % 16 + 224) (by omega)
    have next := byte (char.toNat / 64 % 64 + 128) (by omega)
    have last := byte (char.toNat % 64 + 128) (by omega)
    exact .three (by omega) (tail _) (tail _) (by omega) (by omega)
      (by omega)
  · rw [utf8_four (by omega)]
    have lead := byte (char.toNat / 262144 % 8 + 240) (by omega)
    have next := byte (char.toNat / 4096 % 64 + 128) (by omega)
    have third := byte (char.toNat / 64 % 64 + 128) (by omega)
    have last := byte (char.toNat % 64 + 128) (by omega)
    exact .four (by omega) (tail _) (tail _) (tail _) (by omega) (by omega)
      (by omega)

end Libnei.Lib

import Libnei.Lib.Unicode
import Libnei.Strings.Conversions

/-!
# Round trips between UTF-8 and UTF-16

The conversions on encoded texts, and what they make of everything else: the
encoding of some text.  The validator accepts exactly the encoded texts.
-/

namespace Libnei.Strings

open Lib

/-! ## Bits -/

theorem isContinuation_iff (byte : UInt8) : isContinuation byte = true ↔
    0x80 ≤ byte.toNat ∧ byte.toNat < 0xC0 := by
  have all : ∀ value : Fin 256, isContinuation (UInt8.ofFin value) = true ↔
      0x80 ≤ value.val ∧ value.val < 0xC0 := by
    decide +kernel
  exact all byte.toFin

/-- The three tests for the first byte of a sequence. -/
theorem lead_iff (byte : UInt8) : ((byte &&& 0xE0 == 0xC0) = true ↔
      0xC0 ≤ byte.toNat ∧ byte.toNat < 0xE0) ∧
    ((byte &&& 0xF0 == 0xE0) = true ↔ 0xE0 ≤ byte.toNat ∧ byte.toNat < 0xF0) ∧
    ((byte &&& 0xF8 == 0xF0) = true ↔
      0xF0 ≤ byte.toNat ∧ byte.toNat < 0xF8) := by
  have all : ∀ value : Fin 256, ((UInt8.ofFin value &&& 0xE0 == 0xC0) = true ↔
        0xC0 ≤ value.val ∧ value.val < 0xE0) ∧
      ((UInt8.ofFin value &&& 0xF0 == 0xE0) = true ↔
        0xE0 ≤ value.val ∧ value.val < 0xF0) ∧
      ((UInt8.ofFin value &&& 0xF8 == 0xF0) = true ↔
        0xF0 ≤ value.val ∧ value.val < 0xF8) := by
    decide +kernel
  exact all byte.toFin

theorem toNat_mask (byte : UInt8) : (byte &&& 0x1F).toNat = byte.toNat % 32 ∧
    (byte &&& 0x0F).toNat = byte.toNat % 16 ∧
    (byte &&& 0x07).toNat = byte.toNat % 8 ∧
    (byte &&& 0x3F).toNat = byte.toNat % 64 := by
  simp only [UInt8.toNat_and]
  exact ⟨Nat.and_two_pow_sub_one_eq_mod _ 5, Nat.and_two_pow_sub_one_eq_mod _ 4,
    Nat.and_two_pow_sub_one_eq_mod _ 3, Nat.and_two_pow_sub_one_eq_mod _ 6⟩

theorem shift_or {high low : Nat} (width : Nat) (bound : low < 2 ^ width) :
    high <<< width ||| low = high * 2 ^ width + low := by
  rw [← Nat.shiftLeft_add_eq_or_of_lt bound, Nat.shiftLeft_eq]

theorem or_bits {low : Nat} (high width : Nat) (bound : low < 2 ^ width) :
    2 ^ width * high ||| low = low + 2 ^ width * high := by
  rw [← Nat.two_pow_add_eq_or_of_lt bound, Nat.add_comm]

theorem codePoint2_eq (b0 b1 : UInt8) :
    codePoint2 b0 b1 = b0.toNat % 32 * 64 + b1.toNat % 64 := by
  rw [codePoint2, (toNat_mask b0).1, (toNat_mask b1).2.2.2,
    shift_or 6 (by omega)]
  rfl

theorem codePoint3_eq (b0 b1 b2 : UInt8) : codePoint3 b0 b1 b2 =
      b0.toNat % 16 * 4096 + b1.toNat % 64 * 64 + b2.toNat % 64 := by
  rw [codePoint3, (toNat_mask b0).2.1, (toNat_mask b1).2.2.2,
    (toNat_mask b2).2.2.2]
  have upper : (b0.toNat % 16) <<< 12 ||| (b1.toNat % 64) <<< 6 =
      (b0.toNat % 16 * 64 + b1.toNat % 64) <<< 6 := by
    rw [shift_or 12 (by rw [Nat.shiftLeft_eq]; omega), Nat.shiftLeft_eq,
      Nat.shiftLeft_eq]
    omega
  rw [upper, shift_or 6 (by omega)]
  omega

theorem codePoint4_eq (b0 b1 b2 b3 : UInt8) : codePoint4 b0 b1 b2 b3 =
      b0.toNat % 8 * 262144 + b1.toNat % 64 * 4096 + b2.toNat % 64 * 64 +
        b3.toNat % 64 := by
  rw [codePoint4, (toNat_mask b0).2.2.1, (toNat_mask b1).2.2.2,
    (toNat_mask b2).2.2.2, (toNat_mask b3).2.2.2]
  have first : (b0.toNat % 8) <<< 18 ||| (b1.toNat % 64) <<< 12 =
      (b0.toNat % 8 * 64 + b1.toNat % 64) <<< 12 := by
    rw [shift_or 18 (by rw [Nat.shiftLeft_eq]; omega), Nat.shiftLeft_eq,
      Nat.shiftLeft_eq]
    omega
  have second : (b0.toNat % 8 * 64 + b1.toNat % 64) <<< 12 |||
      (b2.toNat % 64) <<< 6 =
        ((b0.toNat % 8 * 64 + b1.toNat % 64) * 64 + b2.toNat % 64) <<< 6 := by
    rw [shift_or 12 (by rw [Nat.shiftLeft_eq]; omega), Nat.shiftLeft_eq,
      Nat.shiftLeft_eq]
    omega
  rw [first, second, shift_or 6 (by omega)]
  omega

/-! ## Code points -/

theorem replaceInvalid_valid (cp : Nat) : (replaceInvalid cp).isValidChar := by
  unfold replaceInvalid Nat.isValidChar
  split
  · exact .inr (by decide)
  · omega

theorem replaceInvalid_char (char : Char) :
    replaceInvalid char.toNat = char.toNat := by
  have valid := char_valid char
  unfold Nat.isValidChar at valid
  rw [replaceInvalid, if_neg (by omega)]

variable {cp value : Nat} {char : Char} {byte c : UInt8} {bytes rest : Bytes}

/-- What is appended to a UTF-16 string is the encoding of a scalar value. -/
theorem utf16FromCodePoint_eq (same : char.toNat = replaceInvalid cp) :
    utf16FromCodePoint cp = utf16EncodeChar char := by
  have valid := char_valid char
  unfold Nat.isValidChar at valid
  unfold utf16FromCodePoint utf16EncodeChar
  dsimp only
  rw [← same]
  split
  · rfl
  · have high : (char.toNat - 0x10000) >>> 10 &&& 0x3FF =
        (char.toNat - 0x10000) / 1024 := by
      rw [Nat.shiftRight_eq_div_pow]
      refine (Nat.and_two_pow_sub_one_eq_mod _ 10).trans ?_
      omega
    have low : (char.toNat - 0x10000) &&& 0x3FF =
        (char.toNat - 0x10000) % 1024 :=
      Nat.and_two_pow_sub_one_eq_mod _ 10
    rw [high, low]

theorem exists_utf16FromCodePoint (cp : Nat) :
    ∃ char, utf16FromCodePoint cp = utf16EncodeChar char := by
  obtain ⟨char, same⟩ := exists_char _ (replaceInvalid_valid cp)
  exact ⟨char, utf16FromCodePoint_eq same⟩

/-- What is appended to a UTF-8 string is the encoding of a scalar value. -/
theorem utf8FromCodePoint_eq (same : char.toNat = replaceInvalid cp) :
    utf8FromCodePoint cp = String.utf8EncodeChar char := by
  have valid := char_valid char
  unfold Nat.isValidChar at valid
  have tail : ∀ value, 0x80 ||| (value &&& 0x3F) = value % 64 + 128 := by
    intro value
    rw [show value &&& 0x3F = value % 64 from
      Nat.and_two_pow_sub_one_eq_mod value 6]
    exact or_bits 2 6 (by omega)
  unfold utf8FromCodePoint
  simp only [← same, tail, Nat.shiftRight_eq_div_pow]
  split
  case isTrue one => rw [utf8_one one]
  case isFalse one =>
    split
    case isTrue two =>
      have lead : 0xC0 ||| char.toNat / 2 ^ 6 = char.toNat / 64 % 32 + 192 := by
        refine (or_bits 6 5 ?_).trans ?_ <;> omega
      rw [utf8_two (by omega) two, lead]
    case isFalse two =>
      split
      case isTrue three =>
        have lead : 0xE0 ||| char.toNat / 2 ^ 12 =
            char.toNat / 4096 % 16 + 224 := by
          refine (or_bits 14 4 ?_).trans ?_ <;> omega
        rw [utf8_three (by omega) three, lead]
      case isFalse three =>
        have lead : 0xF0 ||| char.toNat / 2 ^ 18 =
            char.toNat / 262144 % 8 + 240 := by
          refine (or_bits 30 3 ?_).trans ?_ <;> omega
        rw [utf8_four (by omega), lead]

theorem exists_utf8FromCodePoint (cp : Nat) :
    ∃ char, utf8FromCodePoint cp = String.utf8EncodeChar char := by
  obtain ⟨char, same⟩ := exists_char _ (replaceInvalid_valid cp)
  exact ⟨char, utf8FromCodePoint_eq same⟩

/-! ## From UTF-8 to UTF-16 -/

theorem continuation (tail : Tail byte) : (!isContinuation byte) = false := by
  rw [(isContinuation_iff byte).mpr tail]
  rfl

theorem not_le_of_lead (lead : 0x80 ≤ byte.toNat) : ¬byte ≤ 0x7F := by
  rw [UInt8.le_iff_toNat_le]
  exact Nat.not_le.mpr lead

theorem utf16FromCodePoint_byte (small : byte.toNat < 0x80) :
    utf16FromCodePoint byte.toNat = [byte.toUInt16] := by
  have unit : byte.toNat.toUInt16 = byte.toUInt16 := by
    rw [← UInt16.toNat_inj, UInt8.toNat_toUInt16, Nat.toUInt16,
      UInt16.toNat_ofNat']
    omega
  have same : replaceInvalid byte.toNat = byte.toNat := if_neg (by omega)
  simp only [utf16FromCodePoint, same]
  rw [if_pos (by omega), unit]

theorem utf8ToUTF16_sequence (sequence : Sequence bytes value) (rest : Bytes) :
    utf8ToUTF16 (bytes ++ rest) =
      utf16FromCodePoint value ++ utf8ToUTF16 rest := by
  obtain ⟨char, scalar, -⟩ := sequence.exists_char
  have valid := char_valid char
  rw [scalar] at valid
  unfold Nat.isValidChar at valid
  cases sequence with
  | @one b0 _ lead same =>
    have small : b0 ≤ 0x7F :=
      UInt8.le_iff_toNat_le.mpr (Nat.le_of_lt_succ lead)
    rw [same, utf16FromCodePoint_byte lead, List.singleton_append,
      utf8ToUTF16.eq_def]
    exact if_pos small
  | @two b0 b1 _ lead next same =>
    have isTwo := (lead_iff b0).1.mpr (by omega)
    unfold Tail at next
    rw [List.cons_append, List.cons_append, List.nil_append, utf8ToUTF16,
      if_neg (not_le_of_lead (by omega)), if_pos isTwo]
    dsimp only
    rw [continuation next, if_neg nofun, codePoint2_eq, ← same,
      if_neg (by omega)]
  | @three b0 b1 b2 _ lead next last long scalar same =>
    have notTwo := mt (lead_iff b0).1.mp (by omega)
    have isThree := (lead_iff b0).2.1.mpr lead
    unfold Tail at next last
    rw [List.cons_append, List.cons_append, List.cons_append,
      List.nil_append, utf8ToUTF16, if_neg (not_le_of_lead (by omega)),
      if_neg notTwo, if_pos isThree]
    dsimp only
    rw [continuation next, continuation last, if_neg nofun, codePoint3_eq,
      ← same, if_neg (by omega)]
  | @four b0 b1 b2 b3 _ lead next third last long scalar same =>
    have notTwo := mt (lead_iff b0).1.mp (by omega)
    have notThree := mt (lead_iff b0).2.1.mp (by omega)
    have isFour := (lead_iff b0).2.2.mpr (by omega)
    unfold Tail at next third last
    rw [List.cons_append, List.cons_append, List.cons_append,
      List.cons_append, List.nil_append, utf8ToUTF16,
      if_neg (not_le_of_lead (by omega)), if_neg notTwo, if_neg notThree,
      if_pos isFour]
    dsimp only
    rw [continuation next, continuation third, continuation last,
      if_neg nofun, codePoint4_eq, ← same, if_neg (by omega)]

theorem utf8ToUTF16_encodeUTF8 (text : List Char) :
    utf8ToUTF16 (encodeUTF8 text) = encodeUTF16 text := by
  induction text with
  | nil => rfl
  | cons char text ih =>
    rw [encodeUTF8_cons, encodeUTF16_cons,
      utf8ToUTF16_sequence (sequence_encode char),
      utf16FromCodePoint_eq (replaceInvalid_char char).symm, ih]

theorem exists_utf8ToUTF16 (input : Bytes) :
    ∃ text, utf8ToUTF16 input = encodeUTF16 text := by
  have prepend : ∀ cp rest, (∃ text, rest = encodeUTF16 text) →
      ∃ text, utf16FromCodePoint cp ++ rest = encodeUTF16 text := by
    rintro cp rest ⟨text, rfl⟩
    obtain ⟨char, spelled⟩ := exists_utf16FromCodePoint cp
    exact ⟨char :: text, by rw [spelled, encodeUTF16_cons]⟩
  have final : ∀ cp, ∃ text, utf16FromCodePoint cp = encodeUTF16 text := by
    intro cp
    obtain ⟨text, same⟩ := prepend cp [] ⟨[], rfl⟩
    exact ⟨text, by rw [← same, List.append_nil]⟩
  fun_induction utf8ToUTF16 input with
  | case1 => exact ⟨[], rfl⟩
  | case2 b0 rest small ih =>
    have small : b0.toNat < 0x80 :=
      Nat.lt_succ_of_le (UInt8.le_iff_toNat_le.mp small)
    have converted := prepend b0.toNat _ ih
    rwa [utf16FromCodePoint_byte small] at converted
  | case5 | case8 | case11 => exact final _
  | _ => exact prepend _ _ ‹_›

/-! ## From UTF-16 to UTF-8 -/

theorem surrogate_iff (unit : UInt16) :
    (0xD800 ≤ unit ∧ unit ≤ 0xDBFF ↔ isHighSurrogate unit = true) ∧
      (0xDC00 ≤ unit ∧ unit ≤ 0xDFFF ↔ isLowSurrogate unit = true) := by
  simp [isHighSurrogate, isLowSurrogate]

theorem utf16ToUTF8_char (char : Char) (rest : Units) :
    utf16ToUTF8 (utf16EncodeChar char ++ rest) =
      String.utf8EncodeChar char ++ utf16ToUTF8 rest := by
  have valid := char_valid char
  unfold Nat.isValidChar at valid
  have encoded := utf8FromCodePoint_eq (replaceInvalid_char char).symm
  rw [utf16EncodeChar]
  split
  case isTrue small =>
    have value : (UInt16.ofNat char.toNat).toNat = char.toNat :=
      Nat.mod_eq_of_lt (by omega)
    have high := mt (surrogate_iff (UInt16.ofNat char.toNat)).1.mp (by
      rw [isHighSurrogate_iff, value]
      omega)
    have low := mt (surrogate_iff (UInt16.ofNat char.toNat)).2.mp (by
      rw [isLowSurrogate_iff, value]
      omega)
    rw [List.singleton_append, utf16ToUTF8.eq_def]
    dsimp only
    rw [if_neg high, if_neg low, value, encoded]
  case isFalse large =>
    have first : (UInt16.ofNat (0xD800 + (char.toNat - 0x10000) / 1024)).toNat =
          0xD800 + (char.toNat - 0x10000) / 1024 :=
      UInt16.toNat_ofNat_of_lt (by rw [UInt16.size]; omega)
    have second : (UInt16.ofNat
        (0xDC00 + (char.toNat - 0x10000) % 1024)).toNat =
          0xDC00 + (char.toNat - 0x10000) % 1024 :=
      UInt16.toNat_ofNat_of_lt (by rw [UInt16.size]; omega)
    have high := (surrogate_iff (UInt16.ofNat
        (0xD800 + (char.toNat - 0x10000) / 1024))).1.mpr (by
      rw [isHighSurrogate_iff, first]
      omega)
    have low := (surrogate_iff (UInt16.ofNat
        (0xDC00 + (char.toNat - 0x10000) % 1024))).2.mpr (by
      rw [isLowSurrogate_iff, second]
      omega)
    have value : 0x10000 + ((0xD800 + (char.toNat - 0x10000) / 1024 -
        0xD800) <<< 10 ||| (0xDC00 + (char.toNat - 0x10000) % 1024 -
          0xDC00)) = char.toNat := by
      rw [Nat.add_sub_cancel_left, Nat.add_sub_cancel_left,
        shift_or 10 (by omega)]
      omega
    rw [List.cons_append, List.singleton_append, utf16ToUTF8, if_pos high,
      if_pos low, first, second, value, encoded]

theorem utf16ToUTF8_encodeUTF16 (text : List Char) :
    utf16ToUTF8 (encodeUTF16 text) = encodeUTF8 text := by
  induction text with
  | nil => rfl
  | cons char text ih =>
    rw [encodeUTF8_cons, encodeUTF16_cons, utf16ToUTF8_char, ih]

theorem exists_utf16ToUTF8 (input : Units) :
    ∃ text, utf16ToUTF8 input = encodeUTF8 text := by
  have prepend : ∀ cp rest, (∃ text, rest = encodeUTF8 text) →
      ∃ text, utf8FromCodePoint cp ++ rest = encodeUTF8 text := by
    rintro cp rest ⟨text, rfl⟩
    obtain ⟨char, spelled⟩ := exists_utf8FromCodePoint cp
    exact ⟨char :: text, by rw [spelled, encodeUTF8_cons]⟩
  fun_induction utf16ToUTF8 input with
  | case1 => exact ⟨[], rfl⟩
  | case4 =>
    obtain ⟨text, same⟩ := prepend replacementCodePoint [] ⟨[], rfl⟩
    exact ⟨text, by rw [← same, List.append_nil]⟩
  | _ => exact prepend _ _ ‹_›

/-! ## Validation -/

theorem validateUTF8Sequence_eq (c : UInt8) (rest : Bytes) :
    validateUTF8Sequence c rest =
      if c.toNat < 0x80 then (true, 1)
      else if c.toNat < 0xC2 then (false, 1)
      else if c.toNat < 0xE0 then validateUTF8Tail c rest 2
      else if c.toNat < 0xF0 then validateUTF8Tail c rest 3
      else if c.toNat ≤ 0xF4 then validateUTF8Tail c rest 4
      else (false, 1) := by
  simp only [validateUTF8Sequence, UInt8.lt_iff_toNat_lt, UInt8.le_iff_toNat_le]
  rfl

theorem validateUTF8Tail_eq (c b1 : UInt8) (rest : Bytes) (seqLen : Nat) :
    validateUTF8Tail c (b1 :: rest) seqLen =
      if (c :: b1 :: rest).length < seqLen then (false, 1)
      else if !((b1 :: rest).take (seqLen - 1)).all isContinuation then
        (false, 1)
      else if seqLen = 3 ∧ (c.toNat = 0xE0 ∧ b1.toNat < 0xA0 ∨
          c.toNat = 0xED ∧ 0xA0 ≤ b1.toNat) then (false, 1)
      else if seqLen = 4 ∧ (c.toNat = 0xF0 ∧ b1.toNat < 0x90 ∨
          c.toNat = 0xF4 ∧ 0x8F < b1.toNat) then (false, 1)
      else (true, seqLen) := by
  simp only [validateUTF8Tail, List.headI_cons, UInt8.lt_iff_toNat_lt,
    UInt8.le_iff_toNat_le, ← UInt8.toNat_inj]
  rfl

theorem validateUTF8Sequence_sequence {tail : Bytes}
    (sequence : Sequence (c :: tail) value) (rest : Bytes) :
    validateUTF8Sequence c (tail ++ rest) = (true, tail.length + 1) := by
  rw [validateUTF8Sequence_eq]
  cases sequence with
  | one lead => exact if_pos lead
  | two lead next =>
    rw [if_neg (by omega), if_neg (by omega), if_pos (by omega),
      List.singleton_append, validateUTF8Tail_eq, if_neg (by simp)]
    simp [(isContinuation_iff _).mpr next]
  | three lead next last long scalar =>
    rw [if_neg (by omega), if_neg (by omega), if_neg (by omega),
      if_pos (by omega), List.cons_append, validateUTF8Tail_eq,
      if_neg (by simp)]
    simp [(isContinuation_iff _).mpr next, (isContinuation_iff _).mpr last]
    omega
  | four lead next third last long scalar =>
    rw [if_neg (by omega), if_neg (by omega), if_neg (by omega),
      if_neg (by omega), if_pos (by omega), List.cons_append,
      validateUTF8Tail_eq, if_neg (by simp)]
    simp [(isContinuation_iff _).mpr next, (isContinuation_iff _).mpr third,
      (isContinuation_iff _).mpr last]
    omega

theorem isValidUTF8_sequence (sequence : Sequence bytes value) (rest : Bytes) :
    isValidUTF8 (bytes ++ rest) = isValidUTF8 rest := by
  have split : ∃ c tail, bytes = c :: tail := by
    cases sequence <;> exact ⟨_, _, rfl⟩
  obtain ⟨c, tail, rfl⟩ := split
  rw [List.cons_append, isValidUTF8,
    validateUTF8Sequence_sequence sequence rest]
  simp

theorem validateUTF8Tail_valid {seqLen : Nat} (several : 2 ≤ seqLen)
    (valid : (validateUTF8Tail c rest seqLen).1 = true) :
    (validateUTF8Tail c rest seqLen).2 = seqLen ∧
      ∃ b1 more, rest = b1 :: more ∧ seqLen ≤ more.length + 2 ∧
        (∀ byte ∈ rest.take (seqLen - 1), Tail byte) ∧
        ¬(seqLen = 3 ∧ (c.toNat = 0xE0 ∧ b1.toNat < 0xA0 ∨
          c.toNat = 0xED ∧ 0xA0 ≤ b1.toNat)) ∧
        ¬(seqLen = 4 ∧ (c.toNat = 0xF0 ∧ b1.toNat < 0x90 ∨
          c.toNat = 0xF4 ∧ 0x8F < b1.toNat)) := by
  cases rest with
  | nil =>
    rw [validateUTF8Tail, if_pos] at valid
    · cases valid
    · exact several
  | cons b1 more =>
    rw [validateUTF8Tail_eq] at valid ⊢
    split at valid
    · cases valid
    case isFalse enough =>
      split at valid
      · cases valid
      case isFalse tails =>
        split at valid
        · cases valid
        case isFalse three =>
          split at valid
          · cases valid
          case isFalse four =>
            rw [if_neg enough, if_neg tails, if_neg three, if_neg four]
            refine ⟨rfl, b1, more, rfl, Nat.not_lt.mp enough, ?_, three, four⟩
            simp only [Bool.not_eq_true, Bool.not_eq_false',
              List.all_eq_true] at tails
            exact fun byte member =>
              (isContinuation_iff byte).mp (tails byte member)

theorem sequence_of_validate (valid : (validateUTF8Sequence c rest).1 = true) :
    ∃ bytes value, Sequence bytes value ∧ c :: rest =
      bytes ++ rest.drop ((validateUTF8Sequence c rest).2 - 1) := by
  rw [validateUTF8Sequence_eq] at valid ⊢
  split at valid
  case isTrue one =>
    rw [if_pos one]
    exact ⟨[c], _, .one one rfl, rfl⟩
  case isFalse one =>
    rw [if_neg one]
    split at valid
    · cases valid
    case isFalse lead =>
      rw [if_neg lead]
      split at valid
      case isTrue two =>
        rw [if_pos two]
        obtain ⟨length, b1, more, rfl, -, tails, -, -⟩ :=
          validateUTF8Tail_valid le_rfl valid
        rw [length]
        exact ⟨[c, b1], _, .two ⟨Nat.not_lt.mp lead, two⟩
          (tails b1 List.mem_cons_self) rfl, rfl⟩
      case isFalse two =>
        rw [if_neg two]
        split at valid
        case isTrue three =>
          rw [if_pos three]
          obtain ⟨length, b1, more, rfl, enough, tails, checks, -⟩ :=
            validateUTF8Tail_valid (by decide) valid
          obtain ⟨b2, more, rfl⟩ :=
            List.exists_cons_of_length_pos (by omega : 0 < more.length)
          rw [length]
          refine ⟨[c, b1, b2], _, .three ⟨Nat.not_lt.mp two, three⟩
            (tails b1 (by simp)) (tails b2 (by simp)) ?_ ?_ rfl, rfl⟩
          · intro same
            by_contra small
            exact checks ⟨rfl, .inl ⟨same, Nat.not_le.mp small⟩⟩
          · intro same
            by_contra large
            exact checks ⟨rfl, .inr ⟨same, Nat.not_lt.mp large⟩⟩
        case isFalse three =>
          rw [if_neg three]
          split at valid
          case isTrue four =>
            rw [if_pos four]
            obtain ⟨length, b1, more, rfl, enough, tails, -,
              checks⟩ := validateUTF8Tail_valid (by decide) valid
            obtain ⟨b2, more, rfl⟩ := List.exists_cons_of_length_pos
              (by omega : 0 < more.length)
            rw [List.length_cons] at enough
            obtain ⟨b3, more, rfl⟩ := List.exists_cons_of_length_pos
              (by omega : 0 < more.length)
            rw [length]
            refine ⟨[c, b1, b2, b3], _, .four
              ⟨Nat.not_lt.mp three, four⟩ (tails b1 (by simp))
              (tails b2 (by simp)) (tails b3 (by simp)) ?_ ?_ rfl,
              rfl⟩
            · intro same
              by_contra small
              exact checks ⟨rfl, .inl ⟨same, Nat.not_le.mp small⟩⟩
            · intro same
              by_contra large
              exact checks ⟨rfl, .inr ⟨same, Nat.not_le.mp large⟩⟩
          · cases valid

/-- The validator accepts the encoded texts. -/
theorem isValidUTF8_iff {input : Bytes} :
    isValidUTF8 input = true ↔ ∃ text, input = encodeUTF8 text := by
  constructor
  · intro valid
    fun_induction isValidUTF8 input with
    | case1 => exact ⟨[], rfl⟩
    | case2 c rest ih =>
      obtain ⟨front, behind⟩ := Bool.and_eq_true_iff.mp valid
      obtain ⟨bytes, value, sequence, spelled⟩ := sequence_of_validate front
      obtain ⟨char, -, rfl⟩ := sequence.exists_char
      obtain ⟨text, same⟩ := ih behind
      exact ⟨char :: text, by rw [spelled, same, encodeUTF8_cons]⟩
  · rintro ⟨text, rfl⟩
    induction text with
    | nil => rw [show encodeUTF8 [] = [] from rfl, isValidUTF8]
    | cons char text ih =>
      rw [encodeUTF8_cons, isValidUTF8_sequence (sequence_encode char)]
      exact ih

/-- The conversions invert each other on well-formed text and nowhere else,
and their results are well formed. -/
theorem conversions_round_trip (utf8 : Bytes) (utf16 : Units) :
    (utf16ToUTF8 (utf8ToUTF16 utf8) = utf8 ↔ isValidUTF8 utf8 = true) ∧
    (utf8ToUTF16 (utf16ToUTF8 utf16) = utf16 ↔ paired utf16 = true) ∧
    paired (utf8ToUTF16 utf8) = true ∧
    isValidUTF8 (utf16ToUTF8 utf16) = true := by
  refine ⟨⟨fun same => ?_, fun valid => ?_⟩, ⟨fun same => ?_,
    fun valid => ?_⟩, paired_iff.mpr (exists_utf8ToUTF16 utf8),
      isValidUTF8_iff.mpr (exists_utf16ToUTF8 utf16)⟩
  · rw [← same]
    exact isValidUTF8_iff.mpr (exists_utf16ToUTF8 _)
  · obtain ⟨text, rfl⟩ := isValidUTF8_iff.mp valid
    rw [utf8ToUTF16_encodeUTF8, utf16ToUTF8_encodeUTF16]
  · rw [← same]
    exact paired_iff.mpr (exists_utf8ToUTF16 _)
  · obtain ⟨text, rfl⟩ := paired_iff.mp valid
    rw [utf16ToUTF8_encodeUTF16, utf8ToUTF16_encodeUTF8]

end Libnei.Strings

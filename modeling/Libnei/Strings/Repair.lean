import Libnei.Strings.RoundTrip

/-!
# Damaged UTF-8

`FixInvalidUTF8` (`text_normalization.cpp`), what the portable conversion
makes of damaged text in comparison, and `TruncateUTF8` (`string_util.cpp`).
-/

namespace Libnei.Strings

open Lib

/-- U+FFFD. -/
def kReplacementUTF8 : Bytes := [0xEF, 0xBF, 0xBD]

def fixInvalidUTF8 : Bytes → Bytes
  | [] => []
  | c :: rest =>
      if (validateUTF8Sequence c rest).1 then
        (c :: rest).take (validateUTF8Sequence c rest).2 ++
          fixInvalidUTF8 (rest.drop ((validateUTF8Sequence c rest).2 - 1))
      else kReplacementUTF8 ++ fixInvalidUTF8 rest
termination_by input => input.length
decreasing_by
  · simp only [List.length_drop, List.length_cons]
    omega
  · exact Nat.lt_succ_self _

/-! ## The repair -/

section

variable {bytes : Bytes} {value : Nat} (sequence : Sequence bytes value)

include sequence

theorem exists_cons_of_sequence : ∃ c tail, bytes = c :: tail := by
  cases sequence <;> exact ⟨_, _, rfl⟩

theorem fixInvalidUTF8_sequence (rest : Bytes) :
    fixInvalidUTF8 (bytes ++ rest) = bytes ++ fixInvalidUTF8 rest := by
  obtain ⟨c, tail, rfl⟩ := exists_cons_of_sequence sequence
  rw [List.cons_append, fixInvalidUTF8,
    validateUTF8Sequence_sequence sequence rest]
  simp

end

theorem fixInvalidUTF8_invalid {c : UInt8} {rest : Bytes}
    (invalid : (validateUTF8Sequence c rest).1 = false) :
    fixInvalidUTF8 (c :: rest) = kReplacementUTF8 ++ fixInvalidUTF8 rest := by
  rw [fixInvalidUTF8, invalid]
  rfl

/-- The order in which the repair goes over a string: a sequence, or a byte
that no sequence starts with. -/
theorem repair_induction {motive : Bytes → Prop} (input : Bytes)
    (nil : motive [])
    (sequence : ∀ bytes value rest, Sequence bytes value → motive rest →
      motive (bytes ++ rest))
    (invalid : ∀ c rest, (validateUTF8Sequence c rest).1 = false →
      motive rest → motive (c :: rest)) : motive input := by
  fun_induction fixInvalidUTF8 input with
  | case1 => exact nil
  | case2 c rest valid ih =>
    obtain ⟨bytes, value, isSequence, spelled⟩ := sequence_of_validate valid
    rw [spelled]
    exact sequence bytes value _ isSequence ih
  | case3 c rest valid ih =>
    exact invalid c rest (Bool.eq_false_iff.mpr valid) ih

theorem fixInvalidUTF8_encodeUTF8 (text : List Char) :
    fixInvalidUTF8 (encodeUTF8 text) = encodeUTF8 text := by
  induction text with
  | nil => exact fixInvalidUTF8.eq_def []
  | cons char text ih =>
    rw [encodeUTF8_cons, fixInvalidUTF8_sequence (sequence_encode char), ih]

theorem exists_fixInvalidUTF8 (input : Bytes) :
    ∃ text, fixInvalidUTF8 input = encodeUTF8 text := by
  induction input using repair_induction with
  | nil => exact ⟨[], fixInvalidUTF8.eq_def []⟩
  | sequence bytes value rest sequence ih =>
    obtain ⟨text, repaired⟩ := ih
    obtain ⟨char, -, rfl⟩ := sequence.exists_char
    exact ⟨char :: text, by
      rw [fixInvalidUTF8_sequence sequence, repaired, encodeUTF8_cons]⟩
  | invalid c rest invalid ih =>
    obtain ⟨text, repaired⟩ := ih
    have spelled : String.utf8EncodeChar '\uFFFD' = kReplacementUTF8 := by
      decide
    exact ⟨'\uFFFD' :: text, by
      rw [fixInvalidUTF8_invalid invalid, repaired, encodeUTF8_cons, spelled]⟩

/-- The repair is a projection onto the encoded texts, which are the strings
that the validator accepts. -/
theorem repair_projects (input : Bytes) :
    (isValidUTF8 input = true ↔ ∃ text, input = encodeUTF8 text) ∧
    (∃ text, fixInvalidUTF8 input = encodeUTF8 text) ∧
    ((∃ text, input = encodeUTF8 text) → fixInvalidUTF8 input = input) ∧
    fixInvalidUTF8 (fixInvalidUTF8 input) = fixInvalidUTF8 input := by
  refine ⟨isValidUTF8_iff, exists_fixInvalidUTF8 input, ?_, ?_⟩
  · rintro ⟨text, rfl⟩
    exact fixInvalidUTF8_encodeUTF8 text
  · obtain ⟨text, repaired⟩ := exists_fixInvalidUTF8 input
    rw [repaired, fixInvalidUTF8_encodeUTF8]

/-! ## The conversion of damaged text -/

def withoutReplacement (units : Units) : Units :=
  units.filter (· ≠ 0xFFFD)

/-- The number of bytes that the conversion expects a sequence to have. -/
def announcedLength (b0 : UInt8) : Nat :=
  if b0 &&& 0xE0 == 0xC0 then 2
  else if b0 &&& 0xF0 == 0xE0 then 3
  else if b0 &&& 0xF8 == 0xF0 then 4
  else 1

/-- A sequence starts somewhere. -/
def hasCharacter : Bytes → Bool
  | [] => false
  | c :: rest => (validateUTF8Sequence c rest).1 || hasCharacter rest

/-- There is a character behind a byte that announces more bytes than there
are. -/
def cutsCharacter : Bytes → Bool
  | [] => false
  | c :: rest =>
      decide (rest.length + 1 < announcedLength c) && hasCharacter rest ||
        cutsCharacter rest

section

variable {c : UInt8} {rest bytes tails : Bytes} {value : Nat}

theorem withoutReplacement_append (front back : Units) :
    withoutReplacement (front ++ back) =
      withoutReplacement front ++ withoutReplacement back :=
  List.filter_append ..

theorem withoutReplacement_replacement (units : Units) :
    withoutReplacement (utf16FromCodePoint replacementCodePoint ++ units) =
      withoutReplacement units := by
  rw [withoutReplacement_append]
  rfl

/-- What the conversion finds in a string. -/
abbrev converted (input : Bytes) : Units :=
  withoutReplacement (utf8ToUTF16 input)

/-- What it finds in the repaired string. -/
abbrev intact (input : Bytes) : Units :=
  converted (fixInvalidUTF8 input)

theorem converted_sequence (sequence : Sequence bytes value) (rest : Bytes) :
    converted (bytes ++ rest) =
      withoutReplacement (utf16FromCodePoint value) ++ converted rest := by
  rw [converted, utf8ToUTF16_sequence sequence, withoutReplacement_append]

theorem intact_sequence (sequence : Sequence bytes value) (rest : Bytes) :
    intact (bytes ++ rest) =
      withoutReplacement (utf16FromCodePoint value) ++ intact rest := by
  rw [intact, fixInvalidUTF8_sequence sequence, converted_sequence sequence]

theorem intact_invalid (invalid : (validateUTF8Sequence c rest).1 = false) :
    intact (c :: rest) = intact rest := by
  have replacement : Sequence kReplacementUTF8 0xFFFD :=
    .three (by decide) (by unfold Tail; decide) (by unfold Tail; decide)
      (by decide) (by decide) rfl
  rw [intact, fixInvalidUTF8_invalid invalid, converted_sequence replacement]
  rfl

theorem validateUTF8Sequence_tail (tail : Tail c) (rest : Bytes) :
    (validateUTF8Sequence c rest).1 = false := by
  unfold Tail at tail
  rw [validateUTF8Sequence_eq, if_neg (by omega), if_pos (by omega)]

theorem announcedLength_eq (byte : UInt8) : announcedLength byte =
    if byte.toNat < 0xC0 then 1 else if byte.toNat < 0xE0 then 2
    else if byte.toNat < 0xF0 then 3 else if byte.toNat < 0xF8 then 4
    else 1 := by
  have all : ∀ value : Fin 256, announcedLength (UInt8.ofFin value) =
      if value.val < 0xC0 then 1 else if value.val < 0xE0 then 2
      else if value.val < 0xF0 then 3 else if value.val < 0xF8 then 4
      else 1 := by
    decide +kernel
  exact all byte.toFin

/-- The bytes behind the first one of a sequence are no characters. -/
theorem intact_tails (all : ∀ byte ∈ tails, Tail byte) (rest : Bytes) :
    intact (tails ++ rest) = intact rest := by
  induction tails with
  | nil => rfl
  | cons byte tails ih =>
    rw [List.forall_mem_cons] at all
    rw [List.cons_append,
      intact_invalid (validateUTF8Sequence_tail all.1 _), ih all.2]

theorem cutsCharacter_tails (all : ∀ byte ∈ tails, Tail byte)
    (rest : Bytes) : cutsCharacter (tails ++ rest) = cutsCharacter rest := by
  induction tails with
  | nil => rfl
  | cons byte tails ih =>
    rw [List.forall_mem_cons] at all
    rw [List.cons_append, cutsCharacter, ih all.2,
      announcedLength_eq, if_pos all.1.2]
    simp

theorem cutsCharacter_complete
    (complete : announcedLength c ≤ rest.length + 1) :
    cutsCharacter (c :: rest) = cutsCharacter rest := by
  rw [cutsCharacter, decide_eq_false (Nat.not_lt.mpr complete)]
  rfl

theorem sequence_parts (sequence : Sequence bytes value) :
    ∃ c tails, bytes = c :: tails ∧ announcedLength c = tails.length + 1 ∧
      ∀ byte ∈ tails, Tail byte := by
  cases sequence with
  | one lead =>
    refine ⟨_, [], rfl, ?_, by simp⟩
    rw [announcedLength_eq, if_pos (by omega)]
    rfl
  | two lead next =>
    refine ⟨_, [_], rfl, ?_, by simpa using next⟩
    rw [announcedLength_eq, if_neg (by omega), if_pos (by omega)]
    rfl
  | three lead next last =>
    refine ⟨_, [_, _], rfl, ?_, by simpa using ⟨next, last⟩⟩
    rw [announcedLength_eq, if_neg (by omega), if_neg (by omega),
      if_pos (by omega)]
    rfl
  | four lead next third last =>
    refine ⟨_, [_, _, _], rfl, ?_, by simpa using ⟨next, third, last⟩⟩
    rw [announcedLength_eq, if_neg (by omega), if_neg (by omega),
      if_neg (by omega), if_pos (by omega)]
    rfl

theorem cutsCharacter_sequence (sequence : Sequence bytes value)
    (rest : Bytes) : cutsCharacter (bytes ++ rest) = cutsCharacter rest := by
  obtain ⟨c, tails, rfl, announced, all⟩ := sequence_parts sequence
  rw [List.cons_append, cutsCharacter_complete, cutsCharacter_tails all]
  rw [announced, List.length_append]
  omega

theorem hasCharacter_of_cutsCharacter {input : Bytes}
    (cuts : cutsCharacter input = true) : hasCharacter input = true := by
  induction input with
  | nil => cases cuts
  | cons c rest ih =>
    rw [cutsCharacter, Bool.or_eq_true, Bool.and_eq_true] at cuts
    rw [hasCharacter, Bool.or_eq_true]
    exact .inr (cuts.elim And.right ih)

theorem intact_eq_nil_iff {input : Bytes} (short : input.length ≤ 2) :
    intact input = [] ↔ hasCharacter input = false := by
  induction input using repair_induction with
  | nil => simp [intact, converted, fixInvalidUTF8, utf8ToUTF16, hasCharacter,
      withoutReplacement]
  | sequence bytes value rest sequence =>
    have small : value < 0x800 := by
      cases sequence with
      | one | two => omega
      | three | four =>
        simp only [List.cons_append, List.length_cons] at short
        omega
    have unit : utf16FromCodePoint value = [value.toUInt16] := by
      have same : replaceInvalid value = value := if_neg (by omega)
      simp only [utf16FromCodePoint, same]
      exact if_pos (by omega)
    have other : value.toUInt16 ≠ 0xFFFD := by
      intro same
      have equal := congrArg UInt16.toNat same
      rw [Nat.toUInt16, UInt16.toNat_ofNat', Nat.mod_eq_of_lt (by omega)]
        at equal
      exact absurd equal (by
        rw [show (0xFFFD : UInt16).toNat = 0xFFFD from rfl]
        omega)
    obtain ⟨c, tail, rfl⟩ := exists_cons_of_sequence sequence
    rw [intact_sequence sequence, unit, List.cons_append, hasCharacter,
      validateUTF8Sequence_sequence sequence]
    simp [withoutReplacement, other]
  | invalid c rest invalid ih =>
    rw [intact_invalid invalid, hasCharacter, invalid, Bool.false_or]
    rw [List.length_cons] at short
    exact ih (by omega)

end

/-- The conversion at a byte that no sequence starts with: it stops, or it
goes on behind the bytes that cannot start one either. -/
theorem converted_invalid {c : UInt8} {rest : Bytes}
    (invalid : (validateUTF8Sequence c rest).1 = false) :
    rest.length + 1 < announcedLength c ∧ converted (c :: rest) = [] ∨
    announcedLength c ≤ rest.length + 1 ∧ ∃ tails behind,
      rest = tails ++ behind ∧ (∀ byte ∈ tails, Tail byte) ∧
        converted (c :: rest) = converted behind := by
  have small : ¬c ≤ 0x7F := by
    intro small
    rw [validateUTF8Sequence, if_pos (UInt8.lt_iff_toNat_lt.mpr
      (Nat.lt_succ_of_le (UInt8.le_iff_toNat_le.mp small)))] at invalid
    cases invalid
  have none : ∀ {tails behind value}, rest = tails ++ behind →
      ¬Sequence (c :: tails) value := by
    rintro tails behind value rfl sequence
    rw [validateUTF8Sequence_sequence sequence] at invalid
    cases invalid
  -- Where the checks of the conversion find nothing, neither do the other ones.
  rw [announcedLength, converted, utf8ToUTF16.eq_def]
  dsimp only
  rw [if_neg small]
  split
  case isTrue two =>
    have lead := (lead_iff c).1.mp two
    split
    case h_1 b1 behind =>
      refine .inr ⟨by simp, ?_⟩
      split
      · exact ⟨[], _, rfl, by simp, withoutReplacement_replacement _⟩
      · case isFalse next =>
        have next := (isContinuation_iff b1).mp (by simpa using next)
        refine ⟨[b1], _, rfl, by simpa [Tail] using next, ?_⟩
        rw [codePoint2_eq]
        split
        · exact withoutReplacement_replacement _
        · exact absurd (.two (by omega) next rfl) (none rfl)
    case h_2 other =>
      refine .inl ⟨?_, rfl⟩
      rcases rest with _ | ⟨b1, behind⟩
      · simp
      · exact absurd rfl (other b1 behind)
  case isFalse two =>
    split
    case isTrue three =>
      have lead := (lead_iff c).2.1.mp three
      split
      case h_1 b1 b2 behind =>
        refine .inr ⟨by simp, ?_⟩
        split
        · exact ⟨[], _, rfl, by simp, withoutReplacement_replacement _⟩
        · case isFalse tails =>
          simp only [Bool.or_eq_true, Bool.not_eq_true', not_or,
            Bool.not_eq_false, isContinuation_iff] at tails
          refine ⟨[b1, b2], _, rfl, by simpa [Tail] using tails, ?_⟩
          rw [codePoint3_eq]
          split
          · exact withoutReplacement_replacement _
          · exact absurd (.three lead tails.1 tails.2 (by omega)
              (by omega) rfl) (none rfl)
      case h_2 other =>
        refine .inl ⟨?_, rfl⟩
        rcases rest with _ | ⟨b1, _ | ⟨b2, behind⟩⟩
        · simp
        · simp
        · exact absurd rfl (other b1 b2 behind)
    case isFalse three =>
      split
      case isTrue four =>
        have lead := (lead_iff c).2.2.mp four
        split
        case h_1 b1 b2 b3 behind =>
          refine .inr ⟨by simp, ?_⟩
          split
          · exact ⟨[], _, rfl, by simp, withoutReplacement_replacement _⟩
          · case isFalse tails =>
            simp only [Bool.or_eq_true, Bool.not_eq_true', not_or,
              Bool.not_eq_false, isContinuation_iff] at tails
            obtain ⟨⟨next, third⟩, last⟩ := tails
            refine ⟨[b1, b2, b3], _, rfl,
              by simpa [Tail] using ⟨next, third, last⟩, ?_⟩
            rw [codePoint4_eq]
            split
            · exact withoutReplacement_replacement _
            · exact absurd (.four (by omega) next third last
                (by omega) (by omega) rfl) (none rfl)
        case h_2 other =>
          refine .inl ⟨?_, rfl⟩
          rcases rest with _ | ⟨b1, _ | ⟨b2, _ | ⟨b3, behind⟩⟩⟩
          · simp
          · simp
          · simp
          · exact absurd rfl (other b1 b2 b3 behind)
      case isFalse four =>
        exact .inr ⟨by simp, [], _, rfl, by simp,
          withoutReplacement_replacement _⟩

/-- The characters that the repair leaves appear in the converted text if and
only if none stands behind a byte that announces more bytes than there
are. -/
theorem conversion_keeps_characters_iff (input : Bytes) :
    withoutReplacement (utf8ToUTF16 input) =
        withoutReplacement (utf8ToUTF16 (fixInvalidUTF8 input)) ↔
      cutsCharacter input = false := by
  change converted input = intact input ↔ _
  induction length : input.length using Nat.strong_induction_on
    generalizing input with
  | _ size ih =>
      subst length
      rcases input with _ | ⟨c, rest⟩
      · simp [intact, converted, fixInvalidUTF8, cutsCharacter]
      cases valid : (validateUTF8Sequence c rest).1 with
      | true =>
          obtain ⟨bytes, value, sequence, spelled⟩ :=
            sequence_of_validate valid
          rw [spelled, converted_sequence sequence, intact_sequence sequence,
            cutsCharacter_sequence sequence, List.append_right_inj]
          refine ih _ ?_ _ rfl
          rw [List.length_drop, List.length_cons]
          omega
      | false =>
          rw [intact_invalid valid]
          obtain ⟨short, stops⟩ | ⟨complete, tails, behind, rfl, all, goes⟩ :=
            converted_invalid valid
          · have few : rest.length ≤ 2 := by
              rw [announcedLength_eq] at short
              split_ifs at short <;> omega
            rw [stops, eq_comm, intact_eq_nil_iff few, cutsCharacter,
              decide_eq_true short, Bool.true_and]
            constructor
            · intro none
              rw [none, Bool.false_or, Bool.eq_false_iff]
              exact fun cuts =>
                nomatch none.symm.trans (hasCharacter_of_cutsCharacter cuts)
            · intro none
              exact (Bool.or_eq_false_iff.mp none).1
          · rw [goes, intact_tails all, cutsCharacter_complete complete,
              cutsCharacter_tails all]
            refine ih _ ?_ _ rfl
            simp only [List.length_cons, List.length_append]
            omega

/-- The conversion of E2 41 loses the letter. -/
theorem conversion_loses_letter :
    withoutReplacement (utf8ToUTF16 [0xE2, 0x41]) = [] ∧
      withoutReplacement (utf8ToUTF16 (fixInvalidUTF8 [0xE2, 0x41])) =
        [0x41] := by
  have repaired : fixInvalidUTF8 [0xE2, 0x41] = [0xEF, 0xBF, 0xBD, 0x41] := by
    rw [fixInvalidUTF8_invalid (by decide)]
    simp [fixInvalidUTF8, validateUTF8Sequence, kReplacementUTF8]
  rw [repaired]
  decide +kernel

/-! ## Truncation -/

def utf8SequenceLength (lead : UInt8) : Nat :=
  if lead < 0x80 then 1
  else if 0xC2 ≤ lead ∧ lead ≤ 0xDF then 2
  else if 0xE0 ≤ lead ∧ lead ≤ 0xEF then 3
  else if 0xF0 ≤ lead ∧ lead ≤ 0xF4 then 4
  else 1

/-- How far the loop of `TruncateUTF8` goes on. -/
def truncateStep (lead : UInt8) (rest : Bytes) : Nat :=
  let seqLen := utf8SequenceLength lead
  let valid := seqLen ≤ 1 ∨ seqLen ≤ rest.length + 1 ∧
    (rest.take (seqLen - 1)).all isContinuation
  if valid then seqLen else 1

/-- The loop of `TruncateUTF8`: what is left of the string in front of the
last boundary. -/
def truncateLoop (byteLimit : Nat) : Bytes → Bytes
  | [] => []
  | lead :: rest =>
      if byteLimit = 0 then []
      else
        let step := truncateStep lead rest
        if byteLimit < step then []
        else (lead :: rest).take step ++
          truncateLoop (byteLimit - step) (rest.drop (step - 1))
termination_by input => input.length
decreasing_by
  simp only [List.length_drop, List.length_cons]
  omega

def truncateUTF8 (input : Bytes) (byteLimit : Nat) : Bytes :=
  if input.length ≤ byteLimit then input else truncateLoop byteLimit input

theorem utf8SequenceLength_eq (lead : UInt8) : utf8SequenceLength lead =
    if lead.toNat < 0xC2 then 1 else if lead.toNat < 0xE0 then 2
    else if lead.toNat < 0xF0 then 3 else if lead.toNat ≤ 0xF4 then 4
    else 1 := by
  have all : ∀ value : Fin 256, utf8SequenceLength (UInt8.ofFin value) =
      if value.val < 0xC2 then 1 else if value.val < 0xE0 then 2
      else if value.val < 0xF0 then 3 else if value.val ≤ 0xF4 then 4
      else 1 := by
    decide +kernel
  exact all lead.toFin

theorem truncateStep_sequence {c : UInt8} {tails : Bytes} {value : Nat}
    (sequence : Sequence (c :: tails) value) (rest : Bytes) :
    truncateStep c (tails ++ rest) = tails.length + 1 := by
  have length : utf8SequenceLength c = tails.length + 1 := by
    rw [utf8SequenceLength_eq]
    cases sequence with
    | one | two | three | four =>
      simp only [List.length_cons, List.length_nil]
      split_ifs <;> omega
  obtain ⟨_, _, ⟨⟩, -, all⟩ := sequence_parts sequence
  simp only [truncateStep, length]
  refine if_pos (.inr ⟨by simp, ?_⟩)
  rw [Nat.add_sub_cancel, List.take_left, List.all_eq_true]
  exact fun byte member => (isContinuation_iff byte).mpr (all byte member)

theorem truncateLoop_sequence {bytes : Bytes} {value : Nat}
    (sequence : Sequence bytes value) (byteLimit : Nat) (rest : Bytes) :
    truncateLoop byteLimit (bytes ++ rest) =
      if byteLimit < bytes.length then []
      else bytes ++ truncateLoop (byteLimit - bytes.length) rest := by
  obtain ⟨c, tails, rfl⟩ := exists_cons_of_sequence sequence
  rw [List.cons_append, truncateLoop]
  simp only [truncateStep_sequence sequence, List.length_cons]
  by_cases zero : byteLimit = 0
  · rw [if_pos zero, if_pos (by omega)]
  · rw [if_neg zero]
    split
    · rfl
    · simp

theorem sequence_unique {bytes other rest more : Bytes} {value number : Nat}
    (sequence : Sequence bytes value) (second : Sequence other number)
    (same : bytes ++ rest = other ++ more) :
    bytes = other ∧ rest = more := by
  obtain ⟨c, tails, rfl⟩ := exists_cons_of_sequence sequence
  obtain ⟨d, others, rfl⟩ := exists_cons_of_sequence second
  obtain ⟨rfl, -⟩ := List.cons.inj same
  have behind : tails ++ rest = others ++ more :=
    List.tail_eq_of_cons_eq same
  have first := validateUTF8Sequence_sequence sequence rest
  have length := validateUTF8Sequence_sequence second more
  rw [← behind, first] at length
  exact List.append_inj same (Prod.mk.inj length).2

theorem prefix_encodeUTF8_cons {char : Char} {text piece : List Char}
    (front : encodeUTF8 piece <+: encodeUTF8 (char :: text)) :
    piece = [] ∨ ∃ behind, encodeUTF8 piece =
      String.utf8EncodeChar char ++ encodeUTF8 behind ∧
        encodeUTF8 behind <+: encodeUTF8 text := by
  rcases piece with _ | ⟨first, behind⟩
  · exact .inl rfl
  · obtain ⟨more, whole⟩ := front
    rw [encodeUTF8_cons, encodeUTF8_cons, List.append_assoc] at whole
    obtain ⟨same, rest⟩ := sequence_unique (sequence_encode first)
      (sequence_encode char) whole
    exact .inr ⟨behind, by rw [encodeUTF8_cons, same], more, rest⟩

theorem truncateLoop_longest (text : List Char) (byteLimit : Nat) :
    (∃ front, truncateLoop byteLimit (encodeUTF8 text) = encodeUTF8 front) ∧
    truncateLoop byteLimit (encodeUTF8 text) <+: encodeUTF8 text ∧
    (truncateLoop byteLimit (encodeUTF8 text)).length ≤ byteLimit ∧
    ∀ piece, encodeUTF8 piece <+: encodeUTF8 text →
      (encodeUTF8 piece).length ≤ byteLimit →
        encodeUTF8 piece <+: truncateLoop byteLimit (encodeUTF8 text) := by
  induction text generalizing byteLimit with
  | nil =>
    rw [show encodeUTF8 [] = [] from rfl, truncateLoop]
    exact ⟨⟨[], rfl⟩, List.prefix_rfl, Nat.zero_le _,
      fun piece front _ => front⟩
  | cons char text ih =>
    rw [encodeUTF8_cons, truncateLoop_sequence (sequence_encode char),
      ← encodeUTF8_cons]
    split
    case isTrue full =>
      refine ⟨⟨[], rfl⟩, List.nil_prefix, Nat.zero_le _, ?_⟩
      intro piece front fits
      obtain rfl | ⟨behind, spelled, -⟩ := prefix_encodeUTF8_cons front
      · exact List.nil_prefix
      · rw [spelled, List.length_append] at fits
        omega
    case isFalse room =>
      obtain ⟨⟨kept, encoded⟩, isPrefix, short, longest⟩ := ih
        (byteLimit - (String.utf8EncodeChar char).length)
      refine ⟨⟨char :: kept, by rw [encoded, encodeUTF8_cons]⟩, ?_, ?_, ?_⟩
      · rw [encodeUTF8_cons]
        exact List.prefix_append_right_inj _ |>.mpr isPrefix
      · rw [List.length_append]
        omega
      · intro piece front fits
        obtain rfl | ⟨behind, spelled, inside⟩ :=
          prefix_encodeUTF8_cons front
        · exact List.nil_prefix
        · rw [spelled, List.length_append] at fits
          rw [spelled]
          exact (List.prefix_append_right_inj _).mpr
            (longest behind inside (by omega))

/-- The truncated text is the longest well-formed front that is not longer
than the limit. -/
theorem truncateUTF8_longest (text : List Char) (byteLimit : Nat) :
    (∃ front, truncateUTF8 (encodeUTF8 text) byteLimit = encodeUTF8 front) ∧
    truncateUTF8 (encodeUTF8 text) byteLimit <+: encodeUTF8 text ∧
    (truncateUTF8 (encodeUTF8 text) byteLimit).length ≤ byteLimit ∧
    ∀ piece, encodeUTF8 piece <+: encodeUTF8 text →
      (encodeUTF8 piece).length ≤ byteLimit →
        encodeUTF8 piece <+: truncateUTF8 (encodeUTF8 text) byteLimit := by
  rw [truncateUTF8]
  split
  case isTrue whole =>
      exact ⟨⟨text, rfl⟩, List.prefix_rfl, whole, fun piece front _ => front⟩
  case isFalse long => exact truncateLoop_longest text byteLimit

end Libnei.Strings

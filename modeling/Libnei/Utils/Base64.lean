import Libnei.Text

/-!
# Base64

`base64.c`.  Lengths are natural numbers: no object has 2^63 bytes, so none of
the sums and products of the sources wraps.  A null pointer to data that is
not empty is `none`, and so is a null pointer to the output, which otherwise
is the room there.
-/

namespace Libnei.Utils.Base64

inductive Status
  | ok
  | invalidArg
  | outputTooSmall
  | invalidInput
  deriving DecidableEq

/-- What a call returns and what it has written to the output by then; with
`ok` the number of these bytes is `*out_len`. -/
structure Outcome where
  status : Status
  written : Bytes
  deriving DecidableEq

def Outcome.after (outcome : Outcome) (bytes : Bytes) : Outcome :=
  { outcome with written := bytes ++ outcome.written }

def pad : UInt8 := '='.toUInt8

/-- `nei_base64_value`, where `none` is a negative value. -/
def value (char : UInt8) : Option Nat :=
  if 'A'.toUInt8 ≤ char ∧ char ≤ 'Z'.toUInt8 then
    some (char.toNat - 'A'.toNat)
  else if 'a'.toUInt8 ≤ char ∧ char ≤ 'z'.toUInt8 then
    some (char.toNat - 'a'.toNat + 26)
  else if '0'.toUInt8 ≤ char ∧ char ≤ '9'.toUInt8 then
    some (char.toNat - '0'.toNat + 52)
  else if char = '+'.toUInt8 then some 62
  else if char = '/'.toUInt8 then some 63
  else none

def encodedLength (inputLength : Nat) : Nat :=
  (inputLength + 2) / 3 * 4

def decodedMaxLength (inputLength : Nat) : Nat :=
  inputLength / 4 * 3

/-! ## Encoding -/

def encTable : Bytes :=
  ascii "ABCDEFGHIJKLMNOPQRSTUVWXYZabcdefghijklmnopqrstuvwxyz0123456789+/"

/-- `s_enc_table[(v >> shift) & 0x3FU]`. -/
def encChar (word shift : Nat) : UInt8 :=
  encTable.getD (word >>> shift &&& 0x3F) 0

def packed (first second third : UInt8) : Nat :=
  first.toNat <<< 16 ||| second.toNat <<< 8 ||| third.toNat

/-- The loop of `nei_base64_encode` and the tail behind it. -/
def encodeGroups : Bytes → Bytes
  | first :: second :: third :: input =>
      let word := packed first second third
      encChar word 18 :: encChar word 12 :: encChar word 6 ::
        encChar word 0 :: encodeGroups input
  | [first, second] =>
      let word := packed first second 0
      [encChar word 18, encChar word 12, encChar word 6, pad]
  | [first] =>
      let word := packed first 0 0
      [encChar word 18, encChar word 12, pad, pad]
  | [] => []

def encode (input : Option Bytes) (out : Option Nat) : Outcome :=
  match input with
  | none => ⟨.invalidArg, []⟩
  | some input =>
      let need := encodedLength input.length
      if out = none ∧ need > 0 then ⟨.invalidArg, []⟩
      else if out.getD 0 < need then ⟨.outputTooSmall, []⟩
      else ⟨.ok, encodeGroups input⟩

/-! ## Decoding -/

def firstByte (v0 v1 : Nat) : UInt8 :=
  (v0 <<< 2 ||| v1 >>> 4).toUInt8

def secondByte (v1 v2 : Nat) : UInt8 :=
  ((v1 &&& 0x0F) <<< 4 ||| v2 >>> 2).toUInt8

def thirdByte (v2 v3 : Nat) : UInt8 :=
  ((v2 &&& 0x03) <<< 6 ||| v3).toUInt8

/-- The loop of `nei_base64_decode`. -/
def decodeGroups : Bytes → Outcome
  | c0 :: c1 :: c2 :: c3 :: input =>
      match value c0, value c1 with
      | some v0, some v1 =>
          if c2 = pad then
            if input ≠ [] ∨ c3 ≠ pad then ⟨.invalidInput, []⟩
            else ⟨.ok, [firstByte v0 v1]⟩
          else
            match value c2 with
            | none => ⟨.invalidInput, []⟩
            | some v2 =>
                if c3 = pad then
                  if input ≠ [] then ⟨.invalidInput, []⟩
                  else ⟨.ok, [firstByte v0 v1, secondByte v1 v2]⟩
                else
                  match value c3 with
                  | none => ⟨.invalidInput, []⟩
                  | some v3 =>
                      (decodeGroups input).after
                        [firstByte v0 v1, secondByte v1 v2, thirdByte v2 v3]
      | _, _ => ⟨.invalidInput, []⟩
  | _ => ⟨.ok, []⟩

/-- The variable `pad` of the source. -/
def padCount (input : Bytes) : Nat :=
  if input[input.length - 1]? = some pad then
    if 1 < input.length ∧ input[input.length - 2]? = some pad then 2 else 1
  else 0

def decode (input : Option Bytes) (out : Option Nat) : Outcome :=
  match input with
  | none => ⟨.invalidArg, []⟩
  | some input =>
      if out = none ∧ input.length > 0 then ⟨.invalidArg, []⟩
      else if input.length % 4 ≠ 0 then ⟨.invalidInput, []⟩
      else if out.getD 0 < decodedMaxLength input.length - padCount input then
        ⟨.outputTooSmall, []⟩
      else decodeGroups input

/-! ## Characters and their values -/

def sextetChar (sextet : Nat) : UInt8 :=
  encTable.getD sextet 0

variable {sextet room : Nat}

theorem value_sextetChar (small : sextet < 64) :
    value (sextetChar sextet) = some sextet ∧ sextetChar sextet ≠ pad := by
  have all : ∀ sextet < 64, value (sextetChar sextet) = some sextet ∧
      sextetChar sextet ≠ pad := by
    decide +kernel
  exact all sextet small

theorem sextetChar_of_value {char : UInt8} (valid : value char = some sextet) :
    sextet < 64 ∧ sextetChar sextet = char := by
  have all : ∀ code : Fin 256, ∀ sextet ∈ value (UInt8.ofFin code),
      sextet < 64 ∧ sextetChar sextet = UInt8.ofFin code := by
    decide +kernel
  exact all char.toFin sextet valid

theorem sextetChar_inj {left right : Nat} (leftSmall : left < 64)
    (rightSmall : right < 64) :
    sextetChar left = sextetChar right ↔ left = right := by
  constructor
  · intro same
    have values := (value_sextetChar leftSmall).1
    rw [same, (value_sextetChar rightSmall).1] at values
    exact (Option.some.inj values).symm
  · exact congrArg sextetChar

/-! ## Groups of bits -/

theorem packed_eq (first second third : UInt8) : packed first second third =
      first.toNat * 65536 + second.toNat * 256 + third.toNat := by
  have secondSmall : second.toNat < 256 := second.toNat_lt
  have thirdSmall : third.toNat < 2 ^ 8 := third.toNat_lt
  have middle : first.toNat <<< 16 ||| second.toNat <<< 8 =
      (first.toNat * 256 + second.toNat) <<< 8 := by
    rw [← Nat.shiftLeft_add_eq_or_of_lt (by rw [Nat.shiftLeft_eq]; omega)]
    simp only [Nat.shiftLeft_eq]
    omega
  rw [packed, middle, ← Nat.shiftLeft_add_eq_or_of_lt thirdSmall,
    Nat.shiftLeft_eq]
  omega

theorem encChar_eq (word shift : Nat) :
    encChar word shift = sextetChar (word / 2 ^ shift % 64) := by
  rw [encChar, sextetChar, Nat.shiftRight_eq_div_pow]
  exact congrArg (encTable.getD · 0) (Nat.and_two_pow_sub_one_eq_mod _ 6)

theorem encChars_packed (first second third : UInt8) :
    encChar (packed first second third) 18 = sextetChar (first.toNat / 4) ∧
      encChar (packed first second third) 12 =
        sextetChar (first.toNat % 4 * 16 + second.toNat / 16) ∧
      encChar (packed first second third) 6 =
        sextetChar (second.toNat % 16 * 4 + third.toNat / 64) ∧
      encChar (packed first second third) 0 =
        sextetChar (third.toNat % 64) := by
  have firstSmall : first.toNat < 256 := first.toNat_lt
  have secondSmall : second.toNat < 256 := second.toNat_lt
  have thirdSmall : third.toNat < 256 := third.toNat_lt
  simp only [encChar_eq, packed_eq]
  refine ⟨?_, ?_, ?_, ?_⟩ <;> congr 1 <;> omega

theorem toNat_or_shiftLeft {high low : Nat} (shift : Nat)
    (lowSmall : low < 2 ^ shift) (small : high * 2 ^ shift + low < 256) :
    (high <<< shift ||| low).toUInt8.toNat = high * 2 ^ shift + low := by
  rw [← Nat.shiftLeft_add_eq_or_of_lt lowSmall, Nat.shiftLeft_eq]
  exact Nat.mod_eq_of_lt small

variable {v0 v1 v2 v3 : Nat}

theorem firstByte_toNat (small0 : v0 < 64) (small1 : v1 < 64) :
    (firstByte v0 v1).toNat = v0 * 4 + v1 / 16 := by
  rw [firstByte, Nat.shiftRight_eq_div_pow]
  exact toNat_or_shiftLeft 2 (by omega) (by omega)

theorem secondByte_toNat (small2 : v2 < 64) :
    (secondByte v1 v2).toNat = v1 % 16 * 16 + v2 / 4 := by
  have mask : v1 &&& 0x0F = v1 % 16 := Nat.and_two_pow_sub_one_eq_mod v1 4
  rw [secondByte, mask, Nat.shiftRight_eq_div_pow]
  exact toNat_or_shiftLeft 4 (by omega) (by omega)

theorem thirdByte_toNat (small3 : v3 < 64) :
    (thirdByte v2 v3).toNat = v2 % 4 * 64 + v3 := by
  have mask : v2 &&& 0x03 = v2 % 4 := Nat.and_two_pow_sub_one_eq_mod v2 2
  rw [thirdByte, mask]
  exact toNat_or_shiftLeft 6 (by omega) (by omega)

/-! ## What the decoder accepts -/

/-- The texts that the loop goes through without an error, with the bytes it
writes. -/
inductive Accepted : Bytes → Bytes → Prop
  | empty : Accepted [] []
  | one {v0 v1 : Nat} (small0 : v0 < 64) (small1 : v1 < 64) :
      Accepted [sextetChar v0, sextetChar v1, pad, pad] [firstByte v0 v1]
  | two {v0 v1 v2 : Nat} (small0 : v0 < 64) (small1 : v1 < 64)
      (small2 : v2 < 64) :
      Accepted [sextetChar v0, sextetChar v1, sextetChar v2, pad]
        [firstByte v0 v1, secondByte v1 v2]
  | group {v0 v1 v2 v3 : Nat} {text bytes : Bytes} (small0 : v0 < 64)
      (small1 : v1 < 64) (small2 : v2 < 64) (small3 : v3 < 64)
      (rest : Accepted text bytes) :
      Accepted
        (sextetChar v0 :: sextetChar v1 :: sextetChar v2 :: sextetChar v3 ::
          text)
        (firstByte v0 v1 :: secondByte v1 v2 :: thirdByte v2 v3 :: bytes)

variable {text bytes : Bytes}

theorem Accepted.decodeGroups_eq (accepted : Accepted text bytes) :
    decodeGroups text = ⟨.ok, bytes⟩ := by
  induction accepted with
  | empty => rfl
  | one small0 small1 =>
    simp [decodeGroups, value_sextetChar small0, value_sextetChar small1]
  | two small0 small1 small2 =>
    simp [decodeGroups, value_sextetChar small0, value_sextetChar small1,
      value_sextetChar small2]
  | group small0 small1 small2 small3 rest ih =>
    simp [decodeGroups, value_sextetChar small0, value_sextetChar small1,
      value_sextetChar small2, value_sextetChar small3, ih,
      Outcome.after]

theorem accepted_of_decodeGroups : ∀ (text : Bytes) {bytes : Bytes},
    text.length % 4 = 0 → decodeGroups text = ⟨.ok, bytes⟩ → Accepted text bytes
  | [], _, _, decoded => by
      cases decoded
      exact .empty
  | c0 :: c1 :: c2 :: c3 :: text, bytes, whole, decoded => by
      simp only [decodeGroups] at decoded
      split at decoded
      case h_2 => simp at decoded
      case h_1 v0 v1 valid0 valid1 =>
        obtain ⟨small0, rfl⟩ := sextetChar_of_value valid0
        obtain ⟨small1, rfl⟩ := sextetChar_of_value valid1
        by_cases padded : c2 = pad
        · by_cases last : text ≠ [] ∨ c3 ≠ pad
          · simp [padded, last] at decoded
          · obtain ⟨rfl, rfl⟩ : text = [] ∧ c3 = pad := by
              simpa [not_or] using last
            subst padded
            simp only [ne_eq, not_true_eq_false, or_self, if_true,
              if_false] at decoded
            cases decoded
            exact .one small0 small1
        · rw [if_neg padded] at decoded
          split at decoded
          case h_1 => simp at decoded
          case h_2 v2 valid2 =>
            obtain ⟨small2, rfl⟩ := sextetChar_of_value valid2
            by_cases padded3 : c3 = pad
            · by_cases last : text ≠ []
              · simp [padded3, last] at decoded
              · obtain rfl := not_not.mp last
                subst padded3
                simp only [ne_eq, not_true_eq_false, if_true,
                  if_false] at decoded
                cases decoded
                exact .two small0 small1 small2
            · rw [if_neg padded3] at decoded
              split at decoded
              case h_1 => simp at decoded
              case h_2 v3 valid3 =>
                obtain ⟨small3, rfl⟩ := sextetChar_of_value valid3
                have whole' : text.length % 4 = 0 := by
                  simp only [List.length_cons] at whole
                  omega
                rcases equal : decodeGroups text with ⟨status, written⟩
                rw [equal] at decoded
                simp only [Outcome.after, Outcome.mk.injEq] at decoded
                obtain ⟨rfl, rfl⟩ := decoded
                exact .group small0 small1 small2 small3
                  (accepted_of_decodeGroups text whole' equal)
  | [_], _, whole, _ => by simp at whole
  | [_, _], _, whole, _ => by simp at whole
  | [_, _, _], _, whole, _ => by simp at whole

theorem sextets_lt (first second : UInt8) : first.toNat / 4 < 64 ∧
      first.toNat % 4 * 16 + second.toNat / 16 < 64 ∧
      first.toNat % 16 * 4 + second.toNat / 64 < 64 := by
  have firstSmall : first.toNat < 256 := first.toNat_lt
  have secondSmall : second.toNat < 256 := second.toNat_lt
  omega

theorem firstByte_sextets (first second : UInt8) : firstByte (first.toNat / 4)
      (first.toNat % 4 * 16 + second.toNat / 16) = first := by
  obtain ⟨small0, small1, _⟩ := sextets_lt first second
  have secondSmall : second.toNat < 256 := second.toNat_lt
  apply UInt8.toNat_inj.mp
  rw [firstByte_toNat small0 small1]
  omega

theorem secondByte_sextets (first second third : UInt8) :
    secondByte (first.toNat % 4 * 16 + second.toNat / 16)
      (second.toNat % 16 * 4 + third.toNat / 64) = second := by
  have secondSmall : second.toNat < 256 := second.toNat_lt
  have thirdSmall : third.toNat < 256 := third.toNat_lt
  apply UInt8.toNat_inj.mp
  rw [secondByte_toNat (sextets_lt second third).2.2]
  omega

theorem thirdByte_sextets (second third : UInt8) :
    thirdByte (second.toNat % 16 * 4 + third.toNat / 64)
      (third.toNat % 64) = third := by
  have thirdSmall : third.toNat < 256 := third.toNat_lt
  apply UInt8.toNat_inj.mp
  rw [thirdByte_toNat (Nat.mod_lt _ (by decide))]
  omega

theorem accepted_encodeGroups (input : Bytes) :
    Accepted (encodeGroups input) input := by
  induction input using encodeGroups.induct with
  | case1 first second third input ih =>
    obtain ⟨char0, char1, char2, char3⟩ :=
      encChars_packed first second third
    obtain ⟨small0, small1, _⟩ := sextets_lt first second
    have small3 : third.toNat % 64 < 64 := Nat.mod_lt _ (by decide)
    have group := Accepted.group small0 small1 (sextets_lt second third).2.2
      small3 ih
    rw [firstByte_sextets, secondByte_sextets, thirdByte_sextets] at group
    rwa [encodeGroups, char0, char1, char2, char3]
  | case2 first second =>
    obtain ⟨char0, char1, char2, _⟩ := encChars_packed first second 0
    obtain ⟨small0, small1, _⟩ := sextets_lt first second
    have group := Accepted.two small0 small1 (sextets_lt second 0).2.2
    rw [firstByte_sextets, secondByte_sextets] at group
    rwa [encodeGroups, char0, char1, char2]
  | case3 first =>
    obtain ⟨char0, char1, _, _⟩ := encChars_packed first 0 0
    obtain ⟨small0, small1, _⟩ := sextets_lt first 0
    have group := Accepted.one small0 small1
    rw [firstByte_sextets] at group
    rwa [encodeGroups, char0, char1]
  | case4 => exact .empty

/-! ## Lengths -/

theorem padCount_of_long (c0 c1 c2 c3 : UInt8) (long : 2 ≤ text.length) :
    padCount (c0 :: c1 :: c2 :: c3 :: text) = padCount text := by
  obtain ⟨count, length⟩ := Nat.exists_eq_add_of_le' long
  simp [padCount, length]

theorem Accepted.length_mod (accepted : Accepted text bytes) :
    text.length % 4 = 0 := by
  induction accepted with
  | empty => rfl
  | one | two => simp
  | group _ _ _ _ _ ih =>
    simp only [List.length_cons]
    omega

theorem padCount_le (text : Bytes) : padCount text ≤ 2 := by
  rw [padCount]
  split
  · split <;> decide
  · decide

/-- The room that `nei_base64_decode` asks for is what it fills. -/
theorem Accepted.need_eq (accepted : Accepted text bytes) :
    decodedMaxLength text.length - padCount text = bytes.length := by
  induction accepted with
  | empty => rfl
  | one _ small1 =>
    simp [decodedMaxLength, padCount]
  | two _ _ small2 =>
    simp [decodedMaxLength, padCount, (value_sextetChar small2).2]
  | @group v0 v1 v2 v3 text bytes small0 small1 small2 small3 rest
      ih =>
      have whole := rest.length_mod
      have atMost := padCount_le text
      by_cases short : text.length < 2
      · obtain rfl : text = [] := List.eq_nil_of_length_eq_zero (by omega)
        cases rest
        simp [decodedMaxLength, padCount, (value_sextetChar small3).2]
      · rw [padCount_of_long _ _ _ _ (Nat.le_of_not_lt short)]
        simp only [decodedMaxLength, List.length_cons] at ih ⊢
        omega

theorem encodeGroups_length (input : Bytes) :
    (encodeGroups input).length = encodedLength input.length := by
  induction input using encodeGroups.induct with
  | case1 first second third input ih =>
    simp only [encodeGroups, List.length_cons, ih, encodedLength]
    omega
  | case2 | case3 => simp [encodeGroups, encodedLength]
  | case4 => rfl

/-! ## Unused bits -/

/-- The bits that the padding leaves unused are zero. -/
def tailClear (text : Bytes) : Bool :=
  match text.drop (text.length - 4) with
  | [_, c1, c2, c3] =>
      if c2 = pad then (value c1).any (· % 16 == 0)
      else if c3 = pad then (value c2).any (· % 4 == 0)
      else true
  | _ => true

theorem tailClear_of_long (c0 c1 c2 c3 : UInt8) (long : 4 ≤ text.length) :
    tailClear (c0 :: c1 :: c2 :: c3 :: text) = tailClear text := by
  obtain ⟨count, length⟩ := Nat.exists_eq_add_of_le' long
  simp [tailClear, length]

theorem firstByte_high (small0 : v0 < 64) (small1 : v1 < 64) :
    (firstByte v0 v1).toNat / 4 = v0 := by
  rw [firstByte_toNat small0 small1]
  omega

theorem firstByte_low (small0 : v0 < 64) (small1 : v1 < 64) :
    (firstByte v0 v1).toNat % 4 = v1 / 16 := by
  rw [firstByte_toNat small0 small1]
  omega

theorem secondByte_high (small2 : v2 < 64) :
    (secondByte v1 v2).toNat / 16 = v1 % 16 := by
  rw [secondByte_toNat small2]
  omega

theorem secondByte_low (small2 : v2 < 64) :
    (secondByte v1 v2).toNat % 16 = v2 / 4 := by
  rw [secondByte_toNat small2]
  omega

theorem thirdByte_high (small3 : v3 < 64) :
    (thirdByte v2 v3).toNat / 64 = v2 % 4 := by
  rw [thirdByte_toNat small3]
  omega

theorem thirdByte_low (small3 : v3 < 64) :
    (thirdByte v2 v3).toNat % 64 = v3 := by
  rw [thirdByte_toNat small3]
  omega

/-- An accepted text is the one that the encoder gives exactly when its unused
bits are zero. -/
theorem Accepted.encodeGroups_eq_iff (accepted : Accepted text bytes) :
    encodeGroups bytes = text ↔ tailClear text := by
  induction accepted with
  | empty => simp [encodeGroups, tailClear]
  | @one v0 v1 small0 small1 =>
    obtain ⟨char0, char1, _, _⟩ := encChars_packed (firstByte v0 v1) 0 0
    have low : v1 / 16 * 16 + 0 / 16 = v1 / 16 * 16 := by omega
    rw [firstByte_high small0 small1] at char0
    rw [firstByte_low small0 small1, UInt8.toNat_zero, low] at char1
    have inj := sextetChar_inj (show v1 / 16 * 16 < 64 by omega) small1
    simp only [encodeGroups, char0, char1, List.cons.injEq, true_and,
      and_true, inj]
    simp only [tailClear, List.length_cons, List.length_nil, Nat.reduceAdd,
      Nat.sub_self, List.drop_zero, if_true, value_sextetChar small1,
      Option.any_some, beq_iff_eq]
    omega
  | @two v0 v1 v2 small0 small1 small2 =>
    obtain ⟨char0, char1, char2, _⟩ :=
      encChars_packed (firstByte v0 v1) (secondByte v1 v2) 0
    have low : v2 / 4 * 4 + 0 / 64 = v2 / 4 * 4 := by omega
    rw [firstByte_high small0 small1] at char0
    rw [firstByte_low small0 small1, secondByte_high small2,
      Nat.div_add_mod'] at char1
    rw [secondByte_low small2, UInt8.toNat_zero, low] at char2
    have inj := sextetChar_inj (show v2 / 4 * 4 < 64 by omega) small2
    simp only [encodeGroups, char0, char1, char2, List.cons.injEq, true_and,
      and_true, inj]
    simp only [tailClear, List.length_cons, List.length_nil, Nat.reduceAdd,
      Nat.sub_self, List.drop_zero, if_true, value_sextetChar small2,
      if_false, Option.any_some, beq_iff_eq]
    omega
  | @group v0 v1 v2 v3 text bytes small0 small1 small2 small3 rest
      ih =>
      obtain ⟨char0, char1, char2, char3⟩ :=
        encChars_packed (firstByte v0 v1) (secondByte v1 v2) (thirdByte v2 v3)
      rw [firstByte_high small0 small1] at char0
      rw [firstByte_low small0 small1, secondByte_high small2,
        Nat.div_add_mod'] at char1
      rw [secondByte_low small2, thirdByte_high small3,
        Nat.div_add_mod'] at char2
      rw [thirdByte_low small3] at char3
      simp only [encodeGroups, char0, char1, char2, char3, List.cons.injEq,
        true_and, ih]
      have whole := rest.length_mod
      by_cases short : text.length < 4
      · obtain rfl : text = [] := List.eq_nil_of_length_eq_zero (by omega)
        simp [tailClear, value_sextetChar small2, value_sextetChar small3]
      · rw [tailClear_of_long _ _ _ _ (Nat.le_of_not_lt short)]

/-! ## The two functions -/

theorem encode_eq {input : Bytes} (enough : encodedLength input.length ≤ room) :
    encode (some input) (some room) = ⟨.ok, encodeGroups input⟩ := by
  simp [encode, Nat.not_lt.mpr enough]

theorem accepted_of_decode {out : Option Nat}
    (decoded : decode (some text) out = ⟨.ok, bytes⟩) :
    Accepted text bytes := by
  simp only [decode] at decoded
  split at decoded
  · simp at decoded
  · split at decoded
    · simp at decoded
    case isFalse whole =>
      split at decoded
      · simp at decoded
      · exact accepted_of_decodeGroups text (not_not.mp whole) decoded

theorem Accepted.decode_eq (accepted : Accepted text bytes)
    (enough : bytes.length ≤ room) :
    decode (some text) (some room) = ⟨.ok, bytes⟩ := by
  simp [decode, accepted.length_mod, accepted.need_eq,
    Nat.not_lt.mpr enough, accepted.decodeGroups_eq]

/-- Encoding loses nothing.  Decoding loses the bits that the padding leaves
unused and nothing else. -/
theorem base64_bijective (bytes text : Bytes) :
    (∀ room, encodedLength bytes.length ≤ room →
      ∃ text : Bytes, encode (some bytes) (some room) = ⟨.ok, text⟩ ∧
        text.length = encodedLength bytes.length ∧
        ∀ space, bytes.length ≤ space →
          decode (some text) (some space) = ⟨.ok, bytes⟩) ∧
    (∀ out, decode (some text) out = ⟨.ok, bytes⟩ →
      ((∀ room, encodedLength bytes.length ≤ room →
        encode (some bytes) (some room) = ⟨.ok, text⟩) ↔
          tailClear text)) ∧
    (∀ out other, tailClear text → tailClear other →
      decode (some text) out = ⟨.ok, bytes⟩ →
      decode (some other) out = ⟨.ok, bytes⟩ → text = other) := by
  refine ⟨?_, ?_, ?_⟩
  · intro room enough
    exact ⟨encodeGroups bytes, encode_eq enough, encodeGroups_length bytes,
      fun space large => (accepted_encodeGroups bytes).decode_eq large⟩
  · intro out decoded
    rw [← (accepted_of_decode decoded).encodeGroups_eq_iff]
    constructor
    · intro encoded
      have written := encoded _ (Nat.le_refl _)
      rw [encode_eq (Nat.le_refl _)] at written
      exact congrArg Outcome.written written
    · intro same room enough
      rw [encode_eq enough, same]
  · intro out other textClear otherClear textOk otherOk
    rw [← (accepted_of_decode textOk).encodeGroups_eq_iff.mpr textClear,
      (accepted_of_decode otherOk).encodeGroups_eq_iff.mpr otherClear]

/-- Both `QQ==` and `QR==` are accepted, and both are the letter `A`. -/
theorem base64_unused_bits :
    decode (some (ascii "QR==")) (some 1) = ⟨.ok, ascii "A"⟩ ∧
      decode (some (ascii "QQ==")) (some 1) = ⟨.ok, ascii "A"⟩ ∧
      encode (some (ascii "A")) (some 4) = ⟨.ok, ascii "QQ=="⟩ := by
  decide +kernel

end Libnei.Utils.Base64

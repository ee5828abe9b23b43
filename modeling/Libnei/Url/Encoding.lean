import Libnei.Text

/-!
# Percent-encoding

`url_encoding.cpp`.  The loop of the decoder looks two bytes ahead of a `%`
only where the text has them.
-/

namespace Libnei

namespace UrlEncoding

/-- `HexValue`, with `none` for `-1`. -/
def hexValue (char : UInt8) : Option UInt8 :=
  if isDigit char then some (char - '0'.toUInt8)
  else if isUpper char && char ≤ 'F'.toUInt8 then
    some (char - 'A'.toUInt8 + 10)
  else if 'a'.toUInt8 ≤ char && char ≤ 'f'.toUInt8 then
    some (char - 'a'.toUInt8 + 10)
  else none

def isUnreserved (char : UInt8) : Bool :=
  isAlpha char || isDigit char || char == '-'.toUInt8 ||
    char == '.'.toUInt8 || char == '_'.toUInt8 || char == '~'.toUInt8

/-- A digit that `std::uppercase << std::hex` prints. -/
def hexDigit (value : UInt8) : UInt8 :=
  if value < 10 then '0'.toUInt8 + value else 'A'.toUInt8 + (value - 10)

/-- What the loop of `EncodeImpl` appends for a byte. -/
def encodeByte (spaceToPlus : Bool) (char : UInt8) : Bytes :=
  if isUnreserved char then [char]
  else if char == ' '.toUInt8 && spaceToPlus then ['+'.toUInt8]
  else ['%'.toUInt8, hexDigit (char >>> 4), hexDigit (char &&& 15)]

def encodeImpl (raw : Bytes) (spaceToPlus : Bool) : Bytes :=
  raw.flatMap (encodeByte spaceToPlus)

def urlEncode (raw : Bytes) : Bytes := encodeImpl raw false

def urlEncodeQuery (raw : Bytes) : Bytes := encodeImpl raw true

def escaped (first high low : UInt8) : Option UInt8 :=
  if first = '%'.toUInt8 then do
    let high ← hexValue high
    let low ← hexValue low
    return high <<< 4 ||| low
  else none

def plain (char : UInt8) : UInt8 :=
  if char = '+'.toUInt8 then ' '.toUInt8 else char

def urlDecode : Bytes → Bytes
  | first :: high :: low :: rest =>
      match escaped first high low with
      | some byte => byte :: urlDecode rest
      | none => plain first :: urlDecode (high :: low :: rest)
  | first :: rest => plain first :: urlDecode rest
  | [] => []

def isUpperHex (char : UInt8) : Bool :=
  isDigit char || (isUpper char && char ≤ 'F'.toUInt8)

/-- Unreserved characters, escapes and, in a query, `+` for spaces. -/
inductive Encoded (query : Bool) : Bytes → Prop
  | nil : Encoded query []
  | unreserved {char : UInt8} {rest : Bytes} (valid : isUnreserved char) :
      Encoded query rest → Encoded query (char :: rest)
  | escape {high low : UInt8} {rest : Bytes} (first : isUpperHex high)
      (second : isUpperHex low) :
      Encoded query rest → Encoded query ('%'.toUInt8 :: high :: low :: rest)
  | plus {rest : Bytes} (inQuery : query = true) :
      Encoded query rest → Encoded query ('+'.toUInt8 :: rest)

theorem urlDecode_plain {char : UInt8} (other : char ≠ '%'.toUInt8)
    (rest : Bytes) :
    urlDecode (char :: rest) = plain char :: urlDecode rest := by
  match rest with
  | [] => rfl
  | [_] => rfl
  | high :: low :: rest =>
    have none : escaped char high low = none := if_neg other
    rw [urlDecode, none]

theorem urlDecode_escape {high low byte : UInt8}
    (value : escaped '%'.toUInt8 high low = some byte) (rest : Bytes) :
    urlDecode ('%'.toUInt8 :: high :: low :: rest) =
      byte :: urlDecode rest := by
  rw [urlDecode, value]

theorem escaped_hexDigits (char : UInt8) :
    escaped '%'.toUInt8 (hexDigit (char >>> 4)) (hexDigit (char &&& 15)) =
        some char ∧
      isUpperHex (hexDigit (char >>> 4)) = true ∧
      isUpperHex (hexDigit (char &&& 15)) = true := by
  have all : ∀ value : Fin 256,
      escaped '%'.toUInt8 (hexDigit (UInt8.ofFin value >>> 4))
          (hexDigit (UInt8.ofFin value &&& 15)) = some (UInt8.ofFin value) ∧
        isUpperHex (hexDigit (UInt8.ofFin value >>> 4)) = true ∧
        isUpperHex (hexDigit (UInt8.ofFin value &&& 15)) = true := by
    decide +kernel
  exact all char.toFin

theorem ne_of_isUnreserved {char : UInt8} (valid : isUnreserved char = true) :
    char ≠ '%'.toUInt8 ∧ char ≠ '+'.toUInt8 := by
  constructor
  · intro same
    rw [same] at valid
    exact absurd valid (by decide)
  · intro same
    rw [same] at valid
    exact absurd valid (by decide)

theorem urlDecode_encodeByte (spaceToPlus : Bool) (char : UInt8)
    (rest : Bytes) :
    urlDecode (encodeByte spaceToPlus char ++ rest) =
      char :: urlDecode rest := by
  unfold encodeByte
  split_ifs with unreserved space
  · obtain ⟨escape, plus⟩ := ne_of_isUnreserved unreserved
    have same : plain char = char := if_neg plus
    rw [List.singleton_append, urlDecode_plain escape, same]
  · have same : char = ' '.toUInt8 := by
      simpa using (Bool.and_eq_true_iff.mp space).1
    have decoded : plain '+'.toUInt8 = char := by
      rw [same]
      rfl
    rw [List.singleton_append, urlDecode_plain (by decide), decoded]
  · apply urlDecode_escape
    exact (escaped_hexDigits char).1

theorem urlDecode_encodeImpl (raw : Bytes) (spaceToPlus : Bool) :
    urlDecode (encodeImpl raw spaceToPlus) = raw := by
  induction raw with
  | nil => rfl
  | cons char rest ih =>
    rw [encodeImpl, List.flatMap_cons, urlDecode_encodeByte]
    exact congrArg (char :: ·) ih

theorem encoded_encodeImpl (raw : Bytes) (spaceToPlus : Bool) :
    Encoded spaceToPlus (encodeImpl raw spaceToPlus) := by
  induction raw with
  | nil => exact .nil
  | cons char rest ih =>
    rw [encodeImpl, List.flatMap_cons, encodeByte]
    split_ifs with unreserved space
    · exact .unreserved unreserved ih
    · apply Encoded.plus
      · exact (Bool.and_eq_true_iff.mp space).2
      · exact ih
    · obtain ⟨-, first, second⟩ := escaped_hexDigits char
      exact .escape first second ih

/-- Both encodings are undone by the decoder and use only the characters that
a URL component, or a query, may have. -/
theorem urlDecode_undoes_encoding (raw : Bytes) :
    urlDecode (urlEncode raw) = raw ∧
      urlDecode (urlEncodeQuery raw) = raw ∧
      Encoded false (urlEncode raw) ∧ Encoded true (urlEncodeQuery raw) :=
  ⟨urlDecode_encodeImpl raw false, urlDecode_encodeImpl raw true,
    encoded_encodeImpl raw false, encoded_encodeImpl raw true⟩

-- An escape at the end of the text is read, one that is cut off is not.
example : urlDecode (ascii "a%2B") = ascii "a+" := by decide

example : urlDecode (ascii "a%2") = ascii "a%2" := by decide

end UrlEncoding

end Libnei

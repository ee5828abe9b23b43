import Libnei.Bytes

/-!
# UTF-8 and UTF-16

The portable conversions (`utf_string_conversions_fallback.h`) and the
validator (`text_normalization.cpp`).  A loop over a string is a recursion on
what is left of it; a code point is a number.
-/

namespace Libnei.Strings

abbrev Units := List UInt16

def replacementCodePoint : Nat := 0xFFFD

def isContinuation (byte : UInt8) : Bool :=
  byte &&& 0xC0 == 0x80

/-- The code point that is encoded in place of one out of range. -/
def replaceInvalid (cp : Nat) : Nat :=
  if 0x10FFFF < cp ∨ 0xD800 ≤ cp ∧ cp ≤ 0xDFFF then replacementCodePoint
  else cp

/-- What `AppendUTF16FromCodePoint` appends. -/
def utf16FromCodePoint (cp : Nat) : Units :=
  let cp := replaceInvalid cp
  if cp ≤ 0xFFFF then [cp.toUInt16]
  else
    let cp := cp - 0x10000
    [(0xD800 + ((cp >>> 10) &&& 0x3FF)).toUInt16,
      (0xDC00 + (cp &&& 0x3FF)).toUInt16]

/-- What `AppendUTF8FromCodePoint` appends. -/
def utf8FromCodePoint (cp : Nat) : Bytes :=
  let cp := replaceInvalid cp
  if cp ≤ 0x7F then [cp.toUInt8]
  else if cp ≤ 0x7FF then
    [(0xC0 ||| (cp >>> 6)).toUInt8, (0x80 ||| (cp &&& 0x3F)).toUInt8]
  else if cp ≤ 0xFFFF then
    [(0xE0 ||| (cp >>> 12)).toUInt8, (0x80 ||| ((cp >>> 6) &&& 0x3F)).toUInt8,
      (0x80 ||| (cp &&& 0x3F)).toUInt8]
  else
    [(0xF0 ||| (cp >>> 18)).toUInt8, (0x80 ||| ((cp >>> 12) &&& 0x3F)).toUInt8,
      (0x80 ||| ((cp >>> 6) &&& 0x3F)).toUInt8,
      (0x80 ||| (cp &&& 0x3F)).toUInt8]

/-- The bits of a sequence of two, three or four bytes. -/
def codePoint2 (b0 b1 : UInt8) : Nat :=
  ((b0 &&& 0x1F).toNat <<< 6) ||| (b1 &&& 0x3F).toNat

def codePoint3 (b0 b1 b2 : UInt8) : Nat :=
  ((b0 &&& 0x0F).toNat <<< 12) ||| ((b1 &&& 0x3F).toNat <<< 6) |||
    (b2 &&& 0x3F).toNat

def codePoint4 (b0 b1 b2 b3 : UInt8) : Nat :=
  ((b0 &&& 0x07).toNat <<< 18) ||| ((b1 &&& 0x3F).toNat <<< 12) |||
    ((b2 &&& 0x3F).toNat <<< 6) ||| (b3 &&& 0x3F).toNat

/-- `UTF8ToUTF16Fallback`.  A sequence that is cut off ends the loop. -/
def utf8ToUTF16 : Bytes → Units
  | [] => []
  | b0 :: rest =>
      if b0 ≤ 0x7F then b0.toUInt16 :: utf8ToUTF16 rest
      else if b0 &&& 0xE0 == 0xC0 then
        match rest with
        | b1 :: behind =>
            if !isContinuation b1 then
              utf16FromCodePoint replacementCodePoint ++
                utf8ToUTF16 (b1 :: behind)
            else
              let cp := codePoint2 b0 b1
              utf16FromCodePoint
                  (if cp < 0x80 then replacementCodePoint else cp) ++
                utf8ToUTF16 behind
        | _ => utf16FromCodePoint replacementCodePoint
      else if b0 &&& 0xF0 == 0xE0 then
        match rest with
        | b1 :: b2 :: behind =>
            if !isContinuation b1 || !isContinuation b2 then
              utf16FromCodePoint replacementCodePoint ++
                utf8ToUTF16 (b1 :: b2 :: behind)
            else
              let cp := codePoint3 b0 b1 b2
              utf16FromCodePoint
                  (if cp < 0x800 ∨ 0xD800 ≤ cp ∧ cp ≤ 0xDFFF then
                    replacementCodePoint
                  else cp) ++
                utf8ToUTF16 behind
        | _ => utf16FromCodePoint replacementCodePoint
      else if b0 &&& 0xF8 == 0xF0 then
        match rest with
        | b1 :: b2 :: b3 :: behind =>
            if !isContinuation b1 || !isContinuation b2 ||
                !isContinuation b3 then
              utf16FromCodePoint replacementCodePoint ++
                utf8ToUTF16 (b1 :: b2 :: b3 :: behind)
            else
              let cp := codePoint4 b0 b1 b2 b3
              utf16FromCodePoint
                  (if cp < 0x10000 ∨ 0x10FFFF < cp then replacementCodePoint
                  else cp) ++
                utf8ToUTF16 behind
        | _ => utf16FromCodePoint replacementCodePoint
      else utf16FromCodePoint replacementCodePoint ++ utf8ToUTF16 rest

/-- `UTF16ToUTF8Fallback`. -/
def utf16ToUTF8 : Units → Bytes
  | [] => []
  | unit :: rest =>
      if 0xD800 ≤ unit ∧ unit ≤ 0xDBFF then
        match rest with
        | low :: behind =>
            if 0xDC00 ≤ low ∧ low ≤ 0xDFFF then
              utf8FromCodePoint (0x10000 +
                (((unit.toNat - 0xD800) <<< 10) ||| (low.toNat - 0xDC00))) ++
                utf16ToUTF8 behind
            else
              utf8FromCodePoint replacementCodePoint ++
                utf16ToUTF8 (low :: behind)
        | [] => utf8FromCodePoint replacementCodePoint
      else if 0xDC00 ≤ unit ∧ unit ≤ 0xDFFF then
        utf8FromCodePoint replacementCodePoint ++ utf16ToUTF8 rest
      else utf8FromCodePoint unit.toNat ++ utf16ToUTF8 rest

/-- `ValidateUTF8Sequence` behind the choice of the length. -/
def validateUTF8Tail (c : UInt8) (rest : Bytes) (seqLen : Nat) : Bool × Nat :=
  if (c :: rest).length < seqLen then (false, 1)
  else if !(rest.take (seqLen - 1)).all isContinuation then (false, 1)
  else if seqLen = 3 ∧ (c = 0xE0 ∧ rest.headI < 0xA0 ∨
      c = 0xED ∧ 0xA0 ≤ rest.headI) then (false, 1)
  else if seqLen = 4 ∧ (c = 0xF0 ∧ rest.headI < 0x90 ∨
      c = 0xF4 ∧ 0x8F < rest.headI) then (false, 1)
  else (true, seqLen)

/-- `ValidateUTF8Sequence` at the front of what is left: whether there is a
sequence, and its length. -/
def validateUTF8Sequence (c : UInt8) (rest : Bytes) : Bool × Nat :=
  if c < 0x80 then (true, 1)
  else if c < 0xC2 then (false, 1)
  else if c < 0xE0 then validateUTF8Tail c rest 2
  else if c < 0xF0 then validateUTF8Tail c rest 3
  else if c ≤ 0xF4 then validateUTF8Tail c rest 4
  else (false, 1)

/-- `IsValidUTF8`; a sequence is not empty. -/
def isValidUTF8 : Bytes → Bool
  | [] => true
  | c :: rest =>
      (validateUTF8Sequence c rest).1 &&
        isValidUTF8 (rest.drop ((validateUTF8Sequence c rest).2 - 1))
termination_by input => input.length
decreasing_by
  simp only [List.length_drop, List.length_cons]
  omega

end Libnei.Strings

import Libnei.Lib.BigEndian

/-!
# Little-endian byte numerals

An unsigned integer in memory, the least significant byte first.
-/

namespace Libnei.Lib

def encodeLE (width value : Nat) : List UInt8 :=
  (encodeBE width value).reverse

def decodeLE (bytes : List UInt8) : Nat :=
  decodeBE bytes.reverse

@[simp] theorem encodeLE_length (width value : Nat) :
    (encodeLE width value).length = width := by
  simp [encodeLE]

theorem decodeLE_encodeLE {width value : Nat} (bounded : value < 256 ^ width) :
    decodeLE (encodeLE width value) = value := by
  rw [decodeLE, encodeLE, List.reverse_reverse]
  exact decodeBE_encodeBE bounded

end Libnei.Lib

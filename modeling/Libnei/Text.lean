import Libnei.Bytes

/-!
# ASCII text

The character classes and `std::string_view` searches that the URL and HTTP
sources use.  `std::string_view::npos` is `none`.
-/

namespace Libnei

def isUpper (char : UInt8) : Bool :=
  'A'.toUInt8 ≤ char && char ≤ 'Z'.toUInt8

def isAlpha (char : UInt8) : Bool :=
  isUpper char || ('a'.toUInt8 ≤ char && char ≤ 'z'.toUInt8)

def isDigit (char : UInt8) : Bool :=
  '0'.toUInt8 ≤ char && char ≤ '9'.toUInt8

/-- `std::tolower` in the C locale. -/
def toLower (char : UInt8) : UInt8 :=
  if isUpper char then char + 32 else char

theorem toLower_toLower (char : UInt8) :
    toLower (toLower char) = toLower char := by
  have all : ∀ value : Fin 256, toLower (toLower (UInt8.ofFin value)) =
      toLower (UInt8.ofFin value) := by
    decide +kernel
  exact all char.toFin

theorem map_toLower_twice (text : Bytes) :
    (text.map toLower).map toLower = text.map toLower := by
  rw [List.map_map]
  exact List.map_congr_left fun char _ => toLower_toLower char

def equalsCaseInsensitiveASCII (left right : Bytes) : Bool :=
  left.map toLower == right.map toLower

/-- The digits printed by `%d`, `%zu` and
`std::to_string` (base 10) and by `%zx` (base 16). -/
def digits (base number : Nat) : Bytes :=
  (Nat.toDigits base number).map fun digit => digit.toNat.toUInt8

theorem toNat_of_isDigit {digit : Char} (valid : digit.isDigit = true) :
    48 ≤ digit.toNat ∧ digit.toNat ≤ 57 := by
  rw [Char.isDigit, Bool.and_eq_true, decide_eq_true_eq,
    decide_eq_true_eq] at valid
  exact ⟨UInt32.le_iff_toNat_le.mp valid.1, UInt32.le_iff_toNat_le.mp valid.2⟩

theorem toUInt8_of_isDigit {digit : Char} (valid : digit.isDigit = true) :
    isDigit digit.toNat.toUInt8 = true ∧
      digit.toNat.toUInt8.toNat = digit.toNat := by
  obtain ⟨lower, upper⟩ := toNat_of_isDigit valid
  have same : digit.toNat.toUInt8.toNat = digit.toNat := by
    rw [Nat.toUInt8, UInt8.toNat_ofNat']
    omega
  refine ⟨?_, same⟩
  rw [isDigit, Bool.and_eq_true, decide_eq_true_eq, decide_eq_true_eq,
    UInt8.le_iff_toNat_le, UInt8.le_iff_toNat_le, same]
  exact ⟨lower, upper⟩

theorem map_digits (number : Nat) :
    (digits 10 number).map (fun byte => Char.ofNat byte.toNat) =
      Nat.toDigits 10 number := by
  rw [digits, List.map_map]
  refine (List.map_congr_left fun digit member => ?_).trans (List.map_id _)
  have valid := Nat.isDigit_of_mem_toDigits (by decide) (by decide) member
  rw [Function.comp, (toUInt8_of_isDigit valid).2]
  exact Char.ofNat_toNat digit

theorem digits_injective : Function.Injective (digits 10) := by
  intro first second same
  rw [← @Nat.ofDigitChars_ten_toDigits first, ← map_digits, same, map_digits,
    Nat.ofDigitChars_ten_toDigits]

namespace Bytes

/-- The position of the first byte at or after `position` that satisfies
`test`: `find` and `find_first_of`. -/
def find (text : Bytes) (test : UInt8 → Bool) (position : Nat) : Option Nat :=
  ((text.drop position).findIdx? test).map (position + ·)

/-- `rfind`: the position of the last byte that satisfies `test`. -/
def findLast (text : Bytes) (test : UInt8 → Bool) : Option Nat :=
  (text.reverse.findIdx? test).map (text.length - 1 - ·)

/-- `substr(first, last - first)`. -/
def slice (text : Bytes) (first last : Nat) : Bytes :=
  (text.drop first).take (last - first)

/-- `text.find(pattern) != npos`. -/
def contains (text pattern : Bytes) : Bool :=
  text.tails.any pattern.isPrefixOf

variable {text : Bytes} {char : UInt8} {test : UInt8 → Bool}

theorem beq_eq_false_of_notMem (absent : char ∉ text) :
    ∀ other ∈ text, (other == char) = false := by
  intro other member
  have different : other ≠ char := by
    rintro rfl
    exact absent member
  simpa using different

theorem find_eq_none (absent : ∀ char ∈ text, test char = false) :
    find text test 0 = none := by
  simpa [find] using absent

theorem find_first {front : Bytes} {rest : Bytes}
    (absent : ∀ char ∈ front, test char = false) (found : test char = true) :
    find (front ++ char :: rest) test 0 = some front.length := by
  have skipped : front.findIdx? test = none := by simpa using absent
  simp [find, List.findIdx?_append, skipped, List.findIdx?_cons, found]

end Bytes

end Libnei

import Libnei.Http.Cookie
import Libnei.Lib.Search
import Mathlib.Tactic.IntervalCases
import Mathlib.Tactic.Linarith

/-!
# HTTP dates

What `ParseHttpDate` makes of a date in one of the two forms of RFC 9110
§5.6.7 that it knows, against the calendar: days counted year by year and
month by month with the Gregorian leap rule.
-/

namespace Libnei.Http

/-! ## `std::sscanf` -/

/-- The directives of the two formats. -/
inductive Directive
  /-- White space. -/
  | blank
  /-- `%*s` -/
  | skipWord
  /-- `%d` -/
  | number
  /-- `%3s` -/
  | word (width : Nat)
  | literal (char : UInt8)

inductive DateField
  | number (value : Int)
  | word (text : Bytes)

/-- The fields that are assigned before a directive fails.  `%d` reads as
`std::strtol` does. -/
def sscanf : List Directive → Bytes → List DateField
  | [], _ => []
  | .blank :: format, text => sscanf format (text.dropWhile isSpace)
  | .skipWord :: format, text =>
      let word := (text.dropWhile isSpace).takeWhile (!isSpace ·)
      if word = [] then []
      else sscanf format ((text.dropWhile isSpace).drop word.length)
  | .number :: format, text =>
      let (value, size) := strtol text
      if size = 0 then [] else .number value :: sscanf format (text.drop size)
  | .word width :: format, text =>
      let word :=
        ((text.dropWhile isSpace).takeWhile (!isSpace ·)).take width
      if word = [] then []
      else
        .word word :: sscanf format ((text.dropWhile isSpace).drop word.length)
  | .literal char :: format, text =>
      if text.head? = some char then sscanf format text.tail else []

/-- `%d:%d:%d` -/
def clockFormat : List Directive :=
  [.number, .literal ':'.toUInt8, .number, .literal ':'.toUInt8, .number]

/-- `%*s %d %3s %d %d:%d:%d %*s` -/
def fixdateFormat : List Directive :=
  [.skipWord, .blank, .number, .blank, .word 3, .blank, .number, .blank] ++
    clockFormat ++ [.blank, .skipWord]

/-- `%*s %3s %d %d:%d:%d %d` -/
def asctimeFormat : List Directive :=
  [.skipWord, .blank, .word 3, .blank, .number, .blank] ++ clockFormat ++
    [.blank, .number]

def dateScanner : DateScanner where
  fixdate text :=
    match sscanf fixdateFormat text with
    | [.number day, .word month, .number year, .number hour, .number minute,
        .number second] => some { day, month, year, hour, minute, second }
    | _ => none
  asctime text :=
    match sscanf asctimeFormat text with
    | [.word month, .number day, .number hour, .number minute,
        .number second, .number year] =>
        some { day, month, year, hour, minute, second }
    | _ => none

/-! ## The calendar -/

def isLeap (year : Nat) : Bool :=
  year % 4 = 0 && (year % 100 ≠ 0 || year % 400 = 0)

def daysInYear (year : Nat) : Nat := if isLeap year then 366 else 365

/-- The months count from 0. -/
def daysInMonth (year month : Nat) : Nat :=
  if month = 1 then if isLeap year then 29 else 28
  else if month = 3 ∨ month = 5 ∨ month = 8 ∨ month = 10 then 30
  else 31

def daysBeforeYear : Nat → Nat
  | 0 => 0
  | year + 1 => daysBeforeYear year + daysInYear year

def daysBeforeMonth (year : Nat) : Nat → Nat
  | 0 => 0
  | month + 1 => daysBeforeMonth year month + daysInMonth year month

/-- A date and a time of day.  Both forms have four digits for the year. -/
structure HttpDate where
  year : Nat
  month : Nat
  day : Nat
  hour : Nat
  minute : Nat
  second : Nat
  fourDigits : year < 10000
  inYear : month < 12
  positive : 1 ≤ day
  inMonth : day ≤ daysInMonth year month
  inDay : hour < 24
  inHour : minute < 60
  inMinute : second < 60

namespace HttpDate

variable (date : HttpDate)

/-- The days before this one, from the first of January of the year 0. -/
def dayNumber (year month day : Nat) : Nat :=
  daysBeforeYear year + daysBeforeMonth year month + (day - 1)

/-- The seconds from 1970-01-01T00:00:00 to this instant. -/
def unixSeconds : Int :=
  ((dayNumber date.year date.month date.day : Int) - dayNumber 1970 0 1) *
      86400 + date.hour * 3600 + date.minute * 60 + date.second

def padded : Nat → Nat → Bytes
  | 0, _ => []
  | width + 1, number =>
      padded width (number / 10) ++ [(48 + number % 10).toUInt8]

def monthName : Bytes := kMonths.getD date.month []

def clock : Bytes :=
  padded 2 date.hour ++ ':'.toUInt8 ::
    (padded 2 date.minute ++ ':'.toUInt8 :: padded 2 date.second)

def space : UInt8 := ' '.toUInt8

/-- `Sun, 06 Nov 1994 08:49:37 GMT` -/
def imfFixdate (weekday : Bytes) : Bytes :=
  (weekday ++ [','.toUInt8]) ++ space :: (padded 2 date.day ++ space ::
    (date.monthName ++ space :: (padded 4 date.year ++ space ::
      (date.clock ++ space :: ascii "GMT"))))

/-- `Sun Nov  6 08:49:37 1994` -/
def asctime (weekday : Bytes) : Bytes :=
  weekday ++ space :: (date.monthName ++ space ::
    ((if date.day < 10 then space :: padded 1 date.day
      else padded 2 date.day) ++ space ::
      (date.clock ++ space :: padded 4 date.year)))

end HttpDate

def kWeekdays : List Bytes :=
  [ascii "Sun", ascii "Mon", ascii "Tue", ascii "Wed", ascii "Thu",
    ascii "Fri", ascii "Sat"]

/-! ## Reading the fields -/

open HttpDate

theorem isDigit_spec {char : UInt8} (valid : isDigit char = true) :
    isSpace char = false ∧ char ≠ '+'.toUInt8 ∧ char ≠ '-'.toUInt8 := by
  have all : ∀ value : Fin 256, isDigit (UInt8.ofFin value) = true →
      isSpace (UInt8.ofFin value) = false ∧ UInt8.ofFin value ≠ '+'.toUInt8 ∧
        UInt8.ofFin value ≠ '-'.toUInt8 := by
    decide +kernel
  exact all char.toFin valid

theorem padded_digit (number : Nat) :
    isDigit (48 + number % 10).toUInt8 = true ∧
      (48 + number % 10).toUInt8.toNat = 48 + number % 10 := by
  have all : ∀ value : Fin 10, isDigit (48 + value.1).toUInt8 = true ∧
      (48 + value.1).toUInt8.toNat = 48 + value.1 := by
    decide
  exact all ⟨number % 10, Nat.mod_lt _ (by decide)⟩

theorem isDigit_padded {width number : Nat} {char : UInt8}
    (member : char ∈ padded width number) : isDigit char = true := by
  induction width generalizing number with
  | zero => exact absurd member List.not_mem_nil
  | succ width ih =>
    rcases List.mem_append.mp member with before | last
    · exact ih before
    · rw [List.mem_singleton.mp last]
      exact (padded_digit number).1

theorem length_padded (width number : Nat) :
    (padded width number).length = width := by
  induction width generalizing number with
  | zero => rfl
  | succ width ih =>
    simp [padded, ih]

theorem value_padded (width number : Nat) :
    (padded width number).foldl (fun (value : Int) digit => value * 10 +
      (digit.toNat - 48)) 0 = (number % 10 ^ width : Nat) := by
  induction width generalizing number with
  | zero => simp [padded, Nat.mod_one]
  | succ width ih =>
    have split := Nat.mod_mul (x := number) (a := 10) (b := 10 ^ width)
    rw [padded, List.foldl_append, ih, List.foldl_cons,
      List.foldl_nil, (padded_digit number).2, Nat.pow_succ',
      split]
    omega

variable {rest word weekday : Bytes} {width year : Nat}

theorem sscanf_number {number : Nat} (format : List Directive)
    (fits : number < 10 ^ (width + 1)) (small : number < 2 ^ 63)
    (stops : ∀ char ∈ rest.head?, isDigit char = false) :
    sscanf (.number :: format) (padded (width + 1) number ++ rest) =
      .number number :: sscanf format rest := by
  have digits : ∀ char ∈ padded (width + 1) number, isDigit char = true :=
    fun char => isDigit_padded
  have size := length_padded (width + 1) number
  obtain ⟨first, more, spelled⟩ :
      ∃ first more, padded (width + 1) number = first :: more :=
    List.exists_cons_of_length_eq_add_one size
  obtain ⟨notSpace, notPlus, notMinus⟩ :=
    isDigit_spec (digits first (by rw [spelled]; exact List.mem_cons_self))
  have head : (padded (width + 1) number ++ rest).head? = some first := by
    rw [spelled]
    rfl
  have blanks : (padded (width + 1) number ++ rest).takeWhile isSpace = [] := by
    rw [spelled]
    exact List.takeWhile_cons_of_neg (by simp [notSpace])
  have taken : (padded (width + 1) number ++ rest).takeWhile isDigit =
      padded (width + 1) number :=
    Lib.takeWhile_front digits stops
  have value := value_padded (width + 1) number
  rw [Nat.mod_eq_of_lt fits] at value
  have nonempty : (padded (width + 1) number).isEmpty = false := by
    rw [spelled]
    rfl
  have read : strtol (padded (width + 1) number ++ rest) =
      ((number : Int), width + 1) := by
    simp [strtol, blanks, head, notPlus, notMinus, taken, nonempty, value, size]
    omega
  rw [sscanf, read]
  simp [List.drop_left' size]

theorem sscanf_blank {blanks text : Bytes} (format : List Directive)
    (spaces : ∀ char ∈ blanks, isSpace char = true)
    (starts : ∀ char ∈ text.head?, isSpace char = false) :
    sscanf (.blank :: format) (blanks ++ text) = sscanf format text := by
  have dropped : (blanks ++ text).dropWhile isSpace = text := by
    rw [List.dropWhile_append_of_pos spaces]
    cases text with
    | nil => rfl
    | cons char text =>
      exact List.dropWhile_cons_of_neg (by simp [starts char rfl])
  rw [sscanf, dropped]

section

variable (nonempty : word ≠ []) (solid : ∀ char ∈ word, isSpace char = false)
  (stops : ∀ char ∈ rest.head?, isSpace char = true)

include nonempty solid stops

theorem word_front :
    (word ++ rest).dropWhile isSpace = word ++ rest ∧
      (word ++ rest).takeWhile (!isSpace ·) = word := by
  constructor
  · obtain ⟨first, more, rfl⟩ := List.exists_cons_of_ne_nil nonempty
    exact List.dropWhile_cons_of_neg
      (by simp [solid first List.mem_cons_self])
  · apply Lib.takeWhile_front
    · intro char member
      simp [solid char member]
    · intro char isHead
      simp [stops char isHead]

theorem sscanf_skipWord (format : List Directive) :
    sscanf (.skipWord :: format) (word ++ rest) = sscanf format rest := by
  obtain ⟨front, taken⟩ := word_front nonempty solid stops
  rw [sscanf]
  simp [front, taken, nonempty]

theorem sscanf_word (format : List Directive) (size : word.length = width) :
    sscanf (.word width :: format) (word ++ rest) =
      .word word :: sscanf format rest := by
  obtain ⟨front, taken⟩ := word_front nonempty solid stops
  rw [sscanf, ← size]
  simp [front, taken, nonempty]

end

section

variable (format : List Directive)

theorem sscanf_literal (char : UInt8) (rest : Bytes) :
    sscanf (.literal char :: format) (char :: rest) = sscanf format rest := by
  simp [sscanf]

theorem sscanf_number_fails {first : UInt8} (letter : isAlpha first = true) :
    sscanf (.number :: format) (first :: rest) = [] := by
  have all : ∀ value : Fin 256, isAlpha (UInt8.ofFin value) = true →
      isSpace (UInt8.ofFin value) = false ∧
        isDigit (UInt8.ofFin value) = false ∧
        UInt8.ofFin value ≠ '+'.toUInt8 ∧
        UInt8.ofFin value ≠ '-'.toUInt8 := by
    decide +kernel
  obtain ⟨notSpace, notDigit, notPlus, notMinus⟩ := all first.toFin letter
  have read : strtol (first :: rest) = (0, 0) := by
    have others : isSpace first = false ∧ isDigit first = false ∧
        first ≠ '+'.toUInt8 ∧ first ≠ '-'.toUInt8 :=
      ⟨notSpace, notDigit, notPlus, notMinus⟩
    simp [strtol, others]
  rw [sscanf, read]
  rfl

end

theorem monthName_spec (date : HttpDate) :
    (∃ first more, date.monthName = first :: more ∧ isAlpha first = true) ∧
      date.monthName.length = 3 ∧
      (∀ char ∈ date.monthName, isSpace char = false) ∧
      kMonths.findIdx? (· == date.monthName) = some date.month := by
  have all : ∀ month : Fin 12,
      (kMonths.getD month []).head?.any isAlpha = true ∧
      (kMonths.getD month []).length = 3 ∧
      (∀ char ∈ kMonths.getD month [], isSpace char = false) ∧
      kMonths.findIdx? (· == kMonths.getD month []) = some month.1 := by
    decide +kernel
  have letter : date.monthName.head?.any isAlpha = true :=
    (all ⟨date.month, date.inYear⟩).1
  refine ⟨?_, (all ⟨date.month, date.inYear⟩).2⟩
  cases name : date.monthName with
  | nil => simp [name] at letter
  | cons first more =>
    exact ⟨first, more, rfl, by simpa [name] using letter⟩

/-! ## Reading the forms -/

theorem isSpace_space : isSpace space = true := rfl

theorem sscanf_space {text : Bytes} (format : List Directive)
    (starts : ∀ char ∈ text.head?, isSpace char = false) :
    sscanf (.blank :: format) (space :: text) = sscanf format text := by
  apply @sscanf_blank [space] text format
  · intro char member
    rw [List.mem_singleton.mp member]
    exact isSpace_space
  · exact starts

theorem head_padded (width number : Nat) (rest : Bytes) :
    ∀ char ∈ (padded (width + 1) number ++ rest).head?,
      isSpace char = false := by
  intro char isHead
  obtain ⟨first, more, spelled⟩ :
      ∃ first more, padded (width + 1) number = first :: more :=
    List.exists_cons_of_length_eq_add_one (length_padded _ _)
  have digit : isDigit first = true := by
    refine @isDigit_padded (width + 1) number first ?_
    rw [spelled]
    exact List.mem_cons_self
  rw [spelled] at isHead
  obtain rfl := Option.some.inj isHead
  exact (isDigit_spec digit).1

variable (date : HttpDate)

theorem day_le : date.day ≤ 31 := by
  have most : daysInMonth date.year date.month ≤ 31 := by
    unfold daysInMonth
    split_ifs <;> omega
  exact date.inMonth.trans most

theorem sscanf_clock (format : List Directive)
    (stops : ∀ char ∈ rest.head?, isDigit char = false) :
    sscanf (clockFormat ++ format) (date.clock ++ rest) =
      .number date.hour :: .number date.minute :: .number date.second ::
        sscanf format rest := by
  have inDay := date.inDay
  have inHour := date.inHour
  have inMinute := date.inMinute
  have colon : isDigit ':'.toUInt8 = false := rfl
  simp only [clockFormat, clock, List.cons_append, List.nil_append,
    List.append_assoc]
  rw [sscanf_number _ (by omega) (by omega) (by simp [colon]),
    sscanf_literal, sscanf_number _ (by omega) (by omega) (by simp [colon]),
    sscanf_literal, sscanf_number _ (by omega) (by omega) stops]

theorem head_clock (rest : Bytes) :
    ∀ char ∈ (date.clock ++ rest).head?, isSpace char = false := by
  rw [clock, List.append_assoc]
  exact head_padded 1 date.hour _

theorem head_monthName (rest : Bytes) :
    ∀ char ∈ (date.monthName ++ rest).head?, isSpace char = false := by
  obtain ⟨⟨first, more, spelled, -⟩, -, solid, -⟩ := monthName_spec date
  intro char isHead
  rw [spelled] at isHead solid
  obtain rfl := Option.some.inj isHead
  exact solid _ List.mem_cons_self

theorem head_space (rest : Bytes) :
    (∀ char ∈ (space :: rest).head?, isSpace char = true) ∧
      ∀ char ∈ (space :: rest).head?, isDigit char = false := by
  constructor
  · rintro char ⟨⟩
    rfl
  · rintro char ⟨⟩
    rfl

def HttpDate.fields : DateFields where
  day := date.day
  month := date.monthName
  year := date.year
  hour := date.hour
  minute := date.minute
  second := date.second

theorem fixdate_imfFixdate (named : weekday ∈ kWeekdays) :
    dateScanner.fixdate (date.imfFixdate weekday) = some date.fields := by
  have solid : ∀ weekday ∈ kWeekdays, ∀ char ∈ weekday ++ [','.toUInt8],
      isSpace char = false := by
    decide +kernel
  have inMonth := day_le date
  have fourDigits := date.fourDigits
  obtain ⟨⟨first, more, spelled, -⟩, size, letters, -⟩ := monthName_spec date
  have read : sscanf fixdateFormat (date.imfFixdate weekday) =
      [.number date.day, .word date.monthName, .number date.year,
        .number date.hour, .number date.minute, .number date.second] := by
    simp only [fixdateFormat, imfFixdate, List.cons_append, List.nil_append]
    rw [sscanf_skipWord (by simp) (solid weekday named) (head_space _).1,
      sscanf_space _ (head_padded 1 date.day _),
      sscanf_number _ (by omega) (by omega) (head_space _).2,
      sscanf_space _ (head_monthName date _),
      sscanf_word (by simp [spelled]) letters (head_space _).1 _ size,
      sscanf_space _ (head_padded 3 date.year _),
      sscanf_number _ (by omega) (by omega) (head_space _).2,
      sscanf_space _ (head_clock date _),
      sscanf_clock date _ (head_space _).2]
    rfl
  simp only [dateScanner, read]
  rfl

theorem asctime_asctime (named : weekday ∈ kWeekdays) :
    dateScanner.fixdate (date.asctime weekday) = none ∧
      dateScanner.asctime (date.asctime weekday) = some date.fields := by
  have solid : ∀ weekday ∈ kWeekdays, weekday ≠ [] ∧
      ∀ char ∈ weekday, isSpace char = false := by
    decide +kernel
  obtain ⟨nonempty, letters⟩ := solid weekday named
  obtain ⟨⟨first, more, spelled, letter⟩, size, month, -⟩ :=
    monthName_spec date
  constructor
  · have fails : sscanf fixdateFormat (date.asctime weekday) = [] := by
      simp only [fixdateFormat, HttpDate.asctime, List.cons_append,
        List.nil_append]
      rw [sscanf_skipWord nonempty letters (head_space _).1,
        sscanf_space _ (head_monthName date _), spelled, List.cons_append,
        sscanf_number_fails _ letter]
    simp only [dateScanner, fails]
  · have inMonth := day_le date
    have fourDigits := date.fourDigits
    -- The day has one digit behind a second space, or two digits.
    have day (format : List Directive) (rest : Bytes) :
        sscanf (.blank :: .number :: format)
          (space :: ((if date.day < 10 then space :: padded 1 date.day
            else padded 2 date.day) ++ space :: rest)) =
          .number date.day :: sscanf format (space :: rest) := by
      split_ifs with short
      · rw [List.cons_append,
          show space :: space :: (padded 1 date.day ++ space :: rest) =
            [space, space] ++ (padded 1 date.day ++ space :: rest) from rfl,
          sscanf_blank _ (by simp [isSpace_space])
            (head_padded 0 date.day _),
          sscanf_number _ (by omega) (by omega) (head_space _).2]
      · rw [sscanf_space _ (head_padded 1 date.day _),
          sscanf_number _ (by omega) (by omega) (head_space _).2]
    have year : sscanf [.blank, .number] (space :: padded 4 date.year) =
        [.number date.year] := by
      rw [← List.append_nil (padded 4 date.year),
        sscanf_space _ (head_padded 3 date.year []),
        sscanf_number _ (by omega) (by omega) (by simp)]
      rfl
    have read : sscanf asctimeFormat (date.asctime weekday) =
        [.word date.monthName, .number date.day, .number date.hour,
          .number date.minute, .number date.second, .number date.year] := by
      simp only [asctimeFormat, HttpDate.asctime, List.cons_append,
        List.nil_append]
      rw [sscanf_skipWord nonempty letters (head_space _).1,
        sscanf_space _ (head_monthName date _),
        sscanf_word (by simp [spelled]) month (head_space _).1 _ size,
        day, sscanf_space _ (head_clock date _),
        sscanf_clock date _ (head_space _).2, year]
    simp only [dateScanner, read]
    rfl

/-! ## The days -/

theorem isLeap_iff : isLeap year = true ↔
    4 ∣ year ∧ (¬100 ∣ year ∨ 400 ∣ year) := by
  simp [isLeap, Nat.dvd_iff_mod_eq_zero]

/-- A fourth year has a day more, a hundredth year loses it, and a four
hundredth year gets it back. -/
theorem daysInYear_add (year : Nat) :
    daysInYear year + (if 100 ∣ year then 1 else 0) =
      365 + (if 4 ∣ year then 1 else 0) + (if 400 ∣ year then 1 else 0) := by
  have fours : 100 ∣ year → 4 ∣ year := Nat.dvd_trans (by decide)
  have hundreds : 400 ∣ year → 100 ∣ year := Nat.dvd_trans (by decide)
  simp only [daysInYear, isLeap_iff]
  by_cases four : 4 ∣ year
  · by_cases hundred : 100 ∣ year
    · by_cases fourHundred : 400 ∣ year
      · simp [four, hundred, fourHundred]
      · simp [four, hundred, fourHundred]
    · simp [four, hundred, mt hundreds hundred]
  · simp [four, mt fours four, mt (fours ∘ hundreds) four]

theorem daysBeforeYear_succ (year : Nat) :
    daysBeforeYear (year + 1) + year / 100 =
      365 * (year + 1) + year / 4 + year / 400 + 1 := by
  induction year with
  | zero => rfl
  | succ year ih =>
    have days := daysInYear_add (year + 1)
    rw [daysBeforeYear, Nat.succ_div, Nat.succ_div, Nat.succ_div]
    linarith

/-- From March on the months have 153 days in each five of them. -/
theorem daysBeforeMonth_eq {month : Nat} (march : 2 ≤ month)
    (inYear : month < 12) :
    daysBeforeMonth year month = (153 * (month - 2) + 2) / 5 + 59 +
      (if isLeap year then 1 else 0) := by
  have february : daysBeforeMonth year 2 =
      59 + (if isLeap year then 1 else 0) := by
    simp only [daysBeforeMonth, daysInMonth]
    split_ifs <;> simp_all
  interval_cases month <;>
    simp [daysBeforeMonth, daysInMonth] at february ⊢ <;> omega

/-- The formula of `ParseHttpDate`; `y` and `m` are the year and the month of
a calendar whose years start in March. -/
theorem era_formula {y m day : Nat} (inYear : m < 12)
    (positive : 1 ≤ day) (inMonth : day ≤ 31) :
    (y : Int) / 400 * 146097 +
        Int.bmod ((((y : Int) - y / 400 * 400) % 2 ^ 32 * 365 +
          ((y : Int) - y / 400 * 400) % 2 ^ 32 / 4 -
          ((y : Int) - y / 400 * 400) % 2 ^ 32 / 100 +
          ((153 * (m : Int) + 2) / 5 + day - 1) % 2 ^ 32) % 2 ^ 32)
          (2 ^ 32) - 719468 =
      365 * y + y / 4 - y / 100 + y / 400 + (153 * m + 2) / 5 + day -
        719469 := by
  have bounds (r : Nat) (below : r < 400) :
      0 ≤ (r : Int) * 365 + r / 4 - r / 100 +
          ((153 * (m : Int) + 2) / 5 + day - 1) ∧
        (r : Int) * 365 + r / 4 - r / 100 +
          ((153 * (m : Int) + 2) / 5 + day - 1) < 2 ^ 31 := by
    omega
  have below : y % 400 < 400 := Nat.mod_lt _ (by decide)
  -- The conversions to `unsigned` and back change nothing.
  have yoe : ((y : Int) - y / 400 * 400) % 2 ^ 32 = (y % 400 : Nat) := by
    omega
  have doy : ((153 * (m : Int) + 2) / 5 + day - 1) % 2 ^ 32 =
      (153 * m + 2) / 5 + day - 1 := by
    omega
  have doe (value : Int) (atLeast : 0 ≤ value) (atMost : value < 2 ^ 31) :
      Int.bmod (value % 2 ^ 32) (2 ^ 32) = value := by
    rw [Int.bmod_def]
    split_ifs <;> omega
  have whole : (y : Int) = 400 * (y / 400) + (y % 400 : Nat) := by omega
  have fourths : (y : Int) / 4 = 100 * (y / 400) + (y % 400 : Nat) / 4 := by
    omega
  have hundredths :
      (y : Int) / 100 = 4 * (y / 400) + (y % 400 : Nat) / 100 := by
    omega
  rw [yoe, doy, doe _ (bounds _ below).1 (bounds _ below).2]
  linarith

/-- The formula of `ParseHttpDate` is the number of days since the epoch. -/
theorem daysFromCivil_eq {month day : Nat} (recent : 1 ≤ year)
    (inYear : month < 12) (positive : 1 ≤ day) (inMonth : day ≤ 31) :
    daysFromCivil year month day =
      (dayNumber year month day : Int) - dayNumber 1970 0 1 := by
  have start : dayNumber 1970 0 1 = 719528 := by
    have years : daysBeforeYear 1970 + 1969 / 100 = _ :=
      daysBeforeYear_succ 1969
    simp only [dayNumber, daysBeforeMonth]
    omega
  -- The months of `year` in the calendar whose years start in March.
  have formula (y m : Nat) (yearThere : (year : Int) -
        (if (month : Int) ≤ 1 then 1 else 0) = y)
      (monthThere : (month : Int) + (if 1 < (month : Int) then -2 else 10) =
        m) (bound : m < 12) :
      daysFromCivil year month day =
        365 * y + y / 4 - y / 100 + y / 400 + (153 * m + 2) / 5 + day -
          719469 := by
    have positiveYear : (0 : Int) ≤ y := by omega
    have positiveMonth : (0 : Int) ≤ 153 * (m : Int) + 2 := by omega
    simp only [daysFromCivil, yearThere, monthThere, positiveYear, if_true,
      Int.tdiv_eq_ediv_of_nonneg positiveYear,
      Int.tdiv_eq_ediv_of_nonneg positiveMonth]
    exact era_formula bound positive inMonth
  rw [start, dayNumber]
  by_cases early : month ≤ 1
  · obtain ⟨before, rfl⟩ := Nat.exists_eq_add_of_le' recent
    have years := daysBeforeYear_succ before
    have months : daysBeforeMonth (before + 1) month = 31 * month := by
      interval_cases month
      · rfl
      · simp [daysBeforeMonth, daysInMonth]
    rw [formula before (month + 10) (by split_ifs <;> omega)
      (by split_ifs <;> omega) (by omega), months]
    omega
  · have years := daysBeforeYear_succ year
    have months := @daysBeforeMonth_eq year month (by omega) inYear
    rw [formula year (month - 2) (by split_ifs <;> omega)
      (by split_ifs <;> omega) (by omega), months]
    rw [daysBeforeYear, daysInYear] at years
    split_ifs at years ⊢ with leap
    · omega
    · omega

/-- `ParseHttpDate` gives the seconds since the epoch, for a date in either
form. -/
theorem parseHttpDate_exact (date : HttpDate) (century : 100 ≤ date.year)
    {weekday : Bytes} (named : weekday ∈ kWeekdays) :
    parseHttpDate dateScanner (date.imfFixdate weekday) =
        some date.unixSeconds ∧
      parseHttpDate dateScanner (date.asctime weekday) =
        some date.unixSeconds := by
  have fourDigits := date.fourDigits
  have atMost : date.day ≤ 31 := day_le date
  have days : daysFromCivil date.year date.month date.day =
      (dayNumber date.year date.month date.day : Int) -
        dayNumber 1970 0 1 :=
    daysFromCivil_eq (by omega) date.inYear date.positive atMost
  have month := (monthName_spec date).2.2.2
  have late : ¬(date.year : Int) < 70 ∧ ¬(date.year : Int) < 100 := by
    omega
  have seconds (text : Bytes)
      (read : (dateScanner.fixdate text <|> dateScanner.asctime text) =
        some date.fields) :
      parseHttpDate dateScanner text = some date.unixSeconds := by
    simp only [parseHttpDate, read, HttpDate.fields, month, late, if_false,
      days, unixSeconds]
  constructor
  · apply seconds
    rw [fixdate_imfFixdate date named]
    rfl
  · obtain ⟨fails, read⟩ := asctime_asctime date named
    apply seconds
    rw [fails, read]
    rfl

/-- The example of RFC 9110. -/
def rfc9110Date : HttpDate :=
  { year := 1994, month := 10, day := 6, hour := 8, minute := 49,
    second := 37, fourDigits := by decide, inYear := by decide,
    positive := by decide, inMonth := by decide, inDay := by decide,
    inHour := by decide, inMinute := by decide }

theorem parseHttpDate_exact_rfc9110 :
    parseHttpDate dateScanner (ascii "Sun, 06 Nov 1994 08:49:37 GMT") =
        some rfc9110Date.unixSeconds ∧
      parseHttpDate dateScanner (ascii "Sun Nov  6 08:49:37 1994") =
        some rfc9110Date.unixSeconds :=
  @parseHttpDate_exact rfc9110Date (by decide) (ascii "Sun") (by decide)

end Libnei.Http

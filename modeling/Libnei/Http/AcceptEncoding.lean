import Libnei.Http.ResponseWriter
import Libnei.Lib.Search

/-!
# Negotiation of gzip

`WantsGzip` against the lists of codings of RFC 9110: optional whitespace,
and weights from `0` to `1` with at most three decimals.
-/

namespace Libnei.Http

open Lib

/-! ## Lists of codings -/

/-- `tchar` of RFC 9110 §5.6.2. -/
def isTokenByte (char : UInt8) : Bool :=
  isAlpha char || isDigit char ||
    List.elem char (ascii "!#$%&'*+-.^_\x60|~")

def isToken (text : Bytes) : Bool := !text.isEmpty && text.all isTokenByte

theorem isTokenByte_of_isToken {text : Bytes} (token : isToken text = true) :
    ∀ char ∈ text, isTokenByte char = true := by
  simp only [isToken, Bool.and_eq_true, List.all_eq_true] at token
  exact token.2

inductive Blank
  | space
  | tab
deriving DecidableEq

def Blank.byte : Blank → UInt8
  | .space => ' '.toUInt8
  | .tab => 9

def blanks (whitespace : List Blank) : Bytes :=
  whitespace.map Blank.byte

/-- A qvalue: `0` with up to three decimals, or `1` with up to three
zeros. -/
structure QValue where
  one : Bool
  decimals : Option (List (Fin 10))
  short : ∀ digits ∈ decimals, digits.length ≤ 3
  bounded : one = true → ∀ digits ∈ decimals, ∀ digit ∈ digits, digit = 0

def digitByte (digit : Fin 10) : UInt8 :=
  (48 + digit.val).toUInt8

namespace QValue

def text (value : QValue) : Bytes :=
  (if value.one then '1'.toUInt8 else '0'.toUInt8) ::
    match value.decimals with
    | none => []
    | some digits => '.'.toUInt8 :: digits.map digitByte

def Positive (value : QValue) : Prop :=
  value.one = true ∨ ∃ digits ∈ value.decimals, ∃ digit ∈ digits, digit ≠ 0

end QValue

/-- A weight with the whitespace around its semicolon. -/
structure Weight where
  before : List Blank
  behind : List Blank
  upper : Bool
  value : QValue

def Weight.text (weight : Weight) : Bytes :=
  blanks weight.before ++ ';'.toUInt8 :: blanks weight.behind ++
    (if weight.upper then 'Q'.toUInt8 else 'q'.toUInt8) :: '='.toUInt8 ::
      weight.value.text

/-- An element of the list, with the whitespace around it. -/
structure Coding where
  lead : List Blank
  name : Bytes
  token : isToken name = true
  weight : Option Weight
  trail : List Blank

namespace Coding

def text (coding : Coding) : Bytes :=
  blanks coding.lead ++ coding.name ++ (match coding.weight with
      | none => []
      | some weight => weight.text) ++ blanks coding.trail

def IsGzip (coding : Coding) : Prop :=
  equalsCaseInsensitiveASCII coding.name (ascii "gzip") = true

/-- The weight is absent or greater than zero. -/
def Acceptable (coding : Coding) : Prop :=
  ∀ weight ∈ coding.weight, weight.value.Positive

/-- Only spaces stand in front of the coding, and its name has no whitespace
behind it. -/
def plain (coding : Coding) : Bool :=
  equalsCaseInsensitiveASCII coding.name (ascii "gzip") &&
    coding.lead.all (· == .space) &&
      match coding.weight with
      | none => coding.trail.isEmpty
      | some weight => weight.before.isEmpty

/-- The weight is absent or starts with a one. -/
def whole (coding : Coding) : Bool :=
  coding.weight.all (·.value.one)

end Coding

/-- The value of `Accept-Encoding`. -/
def acceptEncodingText (codings : List Coding) : Bytes :=
  [','.toUInt8].intercalate (codings.map Coding.text)

def AcceptsGzip (codings : List Coding) : Prop :=
  ∃ coding ∈ codings, coding.IsGzip ∧ coding.Acceptable

/-! ## Bytes -/

theorem toLower_blank (blank : Blank) : toLower blank.byte = blank.byte := by
  cases blank <;> rfl

theorem map_toLower_blanks (whitespace : List Blank) :
    (blanks whitespace).map toLower = blanks whitespace := by
  rw [blanks, List.map_map]
  exact List.map_congr_left fun blank _ => toLower_blank blank

theorem toLower_digit : ∀ digit, toLower (digitByte digit) =
    digitByte digit := by
  decide

theorem map_toLower_value (value : QValue) :
    value.text.map toLower = value.text := by
  unfold QValue.text
  rw [List.map_cons]
  congr 1
  · split <;> rfl
  · split
    · rfl
    · rw [List.map_cons, List.map_map]
      exact congrArg (List.cons _)
        (List.map_congr_left fun digit _ => toLower_digit digit)

theorem map_toLower_weight (weight : Weight) : weight.text.map toLower =
      blanks weight.before ++ ';'.toUInt8 :: blanks weight.behind ++
        'q'.toUInt8 :: '='.toUInt8 :: weight.value.text := by
  have letter : toLower (if weight.upper = true then 'Q'.toUInt8
      else 'q'.toUInt8) = 'q'.toUInt8 := by
    split <;> rfl
  simp only [Weight.text, List.map_append, List.map_cons, letter,
    map_toLower_blanks, map_toLower_value]
  rfl

variable {name : Bytes} {char : UInt8} {whitespace : List Blank}

theorem token_lower (token : isToken name = true) :
    ∀ char ∈ name.map toLower, char ≠ ','.toUInt8 ∧ char ≠ ';'.toUInt8 ∧
      char ≠ ' '.toUInt8 ∧ char ≠ 9 := by
  have all : ∀ char : Fin 256, isTokenByte (UInt8.ofFin char) = true →
      toLower (UInt8.ofFin char) ≠ ','.toUInt8 ∧
      toLower (UInt8.ofFin char) ≠ ';'.toUInt8 ∧
      toLower (UInt8.ofFin char) ≠ ' '.toUInt8 ∧
      toLower (UInt8.ofFin char) ≠ 9 := by
    decide +kernel
  intro char member
  obtain ⟨original, inside, rfl⟩ := List.mem_map.mp member
  exact all original.toFin (isTokenByte_of_isToken token original inside)

/-! ## Tokens -/

theorem mem_blanks (member : char ∈ blanks whitespace) :
    char = ' '.toUInt8 ∨ char = 9 := by
  obtain ⟨blank, -, rfl⟩ := List.mem_map.mp member
  cases blank
  · exact .inl rfl
  · exact .inr rfl

theorem mem_value {value : QValue} (member : char ∈ value.text) :
    char ≠ ','.toUInt8 := by
  have digits : ∀ digit, digitByte digit ≠ ','.toUInt8 := by
    decide
  unfold QValue.text at member
  obtain rfl | member := List.mem_cons.mp member
  · split <;> decide
  · split at member
    · cases member
    · obtain rfl | member := List.mem_cons.mp member
      · decide
      · obtain ⟨digit, -, rfl⟩ := List.mem_map.mp member
        exact digits digit

namespace Coding

variable (coding : Coding)

/-- What stands behind the name, in lower case. -/
def lowerWeight : Bytes :=
  match coding.weight with
  | none => []
  | some weight =>
      blanks weight.before ++ ';'.toUInt8 :: blanks weight.behind ++
        'q'.toUInt8 :: '='.toUInt8 :: weight.value.text

/-- The token that the loop looks at. -/
def lowerToken : Bytes :=
  blanks (coding.lead.dropWhile (· == .space)) ++ coding.name.map toLower ++
    coding.lowerWeight ++ blanks coding.trail

theorem map_toLower_text : coding.text.map toLower =
      blanks coding.lead ++ coding.name.map toLower ++ coding.lowerWeight ++
        blanks coding.trail := by
  unfold text lowerWeight
  simp only [List.map_append, map_toLower_blanks]
  congr 2
  split
  · rfl
  · rw [map_toLower_weight]

theorem comma_notMem : ','.toUInt8 ∉ coding.lowerToken := by
  have blank : ∀ whitespace, ','.toUInt8 ∉ blanks whitespace := by
    intro whitespace member
    obtain same | same := mem_blanks member <;> cases same
  have weight : ','.toUInt8 ∉ coding.lowerWeight := by
    unfold lowerWeight
    split
    · exact List.not_mem_nil
    · intro member
      simp only [List.mem_append, List.mem_cons] at member
      obtain (member | same | member) | same | same | member := member
      · exact blank _ member
      · cases same
      · exact blank _ member
      · cases same
      · cases same
      · exact mem_value member rfl
  intro member
  simp only [lowerToken, List.mem_append] at member
  obtain ((member | member) | member) | member := member
  · exact blank _ member
  · exact (token_lower coding.token _ member).1 rfl
  · exact weight member
  · exact blank _ member

theorem name_lower : ∃ first more, coding.name.map toLower = first :: more ∧
    isSeparator first = false := by
  cases name : coding.name with
  | nil =>
    have token := coding.token
    rw [name] at token
    cases token
  | cons first more =>
    refine ⟨toLower first, more.map toLower, rfl, ?_⟩
    have outside := token_lower coding.token (toLower first)
      (by rw [name]; exact List.mem_cons_self)
    simp only [isSeparator, Bool.or_eq_false_iff, beq_eq_false_iff_ne]
    exact ⟨outside.1, outside.2.2.1⟩

theorem dropWhile_blanks {rest : Bytes}
    (stops : ∀ first ∈ rest.head?, isSeparator first = false)
    (whitespace : List Blank) :
    (blanks whitespace ++ rest).dropWhile isSeparator =
      blanks (whitespace.dropWhile (· == .space)) ++ rest := by
  induction whitespace with
  | nil =>
    cases rest with
    | nil => rfl
    | cons first rest =>
      exact List.dropWhile_cons_of_neg (by rw [stops first rfl]; nofun)
  | cons blank whitespace ih =>
    cases blank with
    | space => exact ih
    | tab => rfl

theorem dropWhile_text :
    (coding.text.map toLower).dropWhile isSeparator = coding.lowerToken := by
  obtain ⟨first, more, name, stops⟩ := coding.name_lower
  rw [map_toLower_text, lowerToken, List.append_assoc, List.append_assoc,
    List.append_assoc, List.append_assoc]
  refine dropWhile_blanks (fun head found => ?_) coding.lead
  rw [name] at found
  obtain rfl := Option.some.inj found
  exact stops

theorem lowerToken_ne_nil : coding.lowerToken ≠ [] := by
  obtain ⟨first, more, name, -⟩ := coding.name_lower
  simp [lowerToken, name]

theorem eq_gzip_iff (front back : List Blank) :
    blanks front ++ name ++ blanks back = ascii "gzip" ↔
      front = [] ∧ name = ascii "gzip" ∧ back = [] := by
  have empty : ∀ whitespace, (∀ char ∈ blanks whitespace, char ∈ ascii "gzip") →
        whitespace = [] := by
    intro whitespace inside
    cases whitespace with
    | nil => rfl
    | cons blank whitespace =>
      have member := inside blank.byte List.mem_cons_self
      have outside : ∀ blank : Blank, blank.byte ∉ ascii "gzip" := by
        rintro (_ | _) <;> decide
      exact absurd member (outside blank)
  constructor
  · intro spelled
    obtain rfl : front = [] := empty front fun char member => by
      rw [← spelled]
      exact List.mem_append_left _ (List.mem_append_left _ member)
    obtain rfl : back = [] := empty back fun char member => by
      rw [← spelled]
      exact List.mem_append_right _ member
    exact ⟨rfl, by simpa [blanks] using spelled, rfl⟩
  · rintro ⟨rfl, rfl, rfl⟩
    rfl

theorem find_weight {front rest : Bytes} (absent : 'q'.toUInt8 ∉ front) :
    (front ++ 'q'.toUInt8 :: '='.toUInt8 :: rest).tails.find?
        (ascii "q=").isPrefixOf =
      some ('q'.toUInt8 :: '='.toUInt8 :: rest) := by
  induction front with
  | nil => exact List.find?_cons_of_pos rfl
  | cons first front ih =>
    rw [List.mem_cons, not_or] at absent
    rw [List.cons_append, List.tails, List.find?_cons_of_neg, ih absent.2]
    have other : ('q'.toUInt8 == first) = false := beq_false_of_ne absent.1
    show ¬('q'.toUInt8 == first && _) = true
    rw [other]
    nofun

theorem gzipToken_bare {token : Bytes} (bare : ';'.toUInt8 ∉ token) :
    gzipToken token =
      if token = ascii "gzip" then some true else none := by
  rw [gzipToken, Bytes.find_eq_none (Bytes.beq_eq_false_of_notMem bare)]
  simp only [Option.getD_none, List.take_length]

theorem gzipToken_weighted {behind rest : Bytes} {digit : UInt8}
    (bare : ';'.toUInt8 ∉ name) (absent : 'q'.toUInt8 ∉ behind) :
    gzipToken (name ++ ';'.toUInt8 ::
        (behind ++ 'q'.toUInt8 :: '='.toUInt8 :: digit :: rest)) =
      if name = ascii "gzip" then some (digit != '0'.toUInt8) else none := by
  have found : ('q'.toUInt8) ∉ ';'.toUInt8 :: behind := by
    rw [List.mem_cons, not_or]
    exact ⟨by decide, absent⟩
  have weight := @find_weight _ (digit :: rest) found
  rw [List.cons_append] at weight
  rw [gzipToken, Bytes.find_first (Bytes.beq_eq_false_of_notMem bare) rfl]
  simp only [Option.getD_some, List.take_left, List.drop_left, weight]

theorem blanks_solid (solid : char ≠ ' '.toUInt8 ∧ char ≠ 9) :
    char ∉ blanks whitespace := by
  intro member
  obtain same | same := mem_blanks member
  · exact solid.1 same
  · exact solid.2 same

theorem plain_iff (back : List Blank) (behind : coding.plain = true ↔
      equalsCaseInsensitiveASCII coding.name (ascii "gzip") = true ∧
        coding.lead.all (· == .space) = true ∧ back = []) :
    coding.plain = true ↔ blanks (coding.lead.dropWhile (· == .space)) ++
        coding.name.map toLower ++ blanks back = ascii "gzip" := by
  rw [behind, eq_gzip_iff, List.dropWhile_eq_nil_iff, List.all_eq_true,
    equalsCaseInsensitiveASCII, beq_iff_eq,
    show (ascii "gzip").map toLower = ascii "gzip" from rfl]
  tauto

theorem gzipToken_lowerToken : gzipToken coding.lowerToken =
      if coding.plain then some coding.whole else none := by
  have bare : ∀ back,
      ';'.toUInt8 ∉ blanks (coding.lead.dropWhile (· == .space)) ++
        coding.name.map toLower ++ blanks back := by
    intro back
    simp only [List.mem_append, not_or]
    exact ⟨⟨blanks_solid (by decide), fun member =>
      (token_lower coding.token _ member).2.1 rfl⟩,
      blanks_solid (by decide)⟩
  cases weighted : coding.weight with
  | none =>
    have token : coding.lowerToken =
        blanks (coding.lead.dropWhile (· == .space)) ++
          coding.name.map toLower ++ blanks coding.trail := by
      rw [lowerToken, lowerWeight, weighted, List.append_nil]
    have plain := coding.plain_iff coding.trail (by
      rw [Coding.plain, weighted, Bool.and_eq_true, Bool.and_eq_true,
        List.isEmpty_iff, and_assoc])
    rw [token, gzipToken_bare (bare _), whole, weighted]
    exact if_congr plain.symm rfl rfl
  | some weight =>
    obtain ⟨digit, rest, value, lead⟩ : ∃ digit rest,
        weight.value.text = digit :: rest ∧
          (digit != '0'.toUInt8) = weight.value.one := by
      refine ⟨_, _, rfl, ?_⟩
      cases weight.value.one <;> rfl
    have token : coding.lowerToken =
        (blanks (coding.lead.dropWhile (· == .space)) ++
          coding.name.map toLower ++ blanks weight.before) ++
        ';'.toUInt8 :: (blanks weight.behind ++ 'q'.toUInt8 ::
          '='.toUInt8 :: digit :: (rest ++ blanks coding.trail)) := by
      simp only [lowerToken, lowerWeight, weighted, value,
        List.append_assoc, List.cons_append]
    have plain := coding.plain_iff weight.before (by
      rw [Coding.plain, weighted, Bool.and_eq_true, Bool.and_eq_true,
        List.isEmpty_iff, and_assoc])
    rw [token, gzipToken_weighted (bare _) (blanks_solid (by decide)),
      whole, weighted, lead]
    exact if_congr plain.symm rfl rfl

end Coding

/-! ## The loop -/

theorem wantsGzipLoop_nil : wantsGzipLoop [] = false := by
  rw [wantsGzipLoop, dif_pos rfl]

theorem wantsGzipLoop_next {text : Bytes} (nonempty : text ≠ []) :
    wantsGzipLoop text = (gzipToken (nextToken text).2).getD
      (wantsGzipLoop (nextToken text).1) := by
  rw [wantsGzipLoop, dif_neg nonempty]
  split
  case h_1 found => rw [found, Option.getD_some]
  case h_2 found => rw [found, Option.getD_none]

theorem wantsGzipLoop_comma (text : Bytes) :
    wantsGzipLoop (','.toUInt8 :: text) = wantsGzipLoop text := by
  rw [wantsGzipLoop_next (List.cons_ne_nil _ _)]
  cases text with
  | nil =>
    rw [wantsGzipLoop_nil]
    exact wantsGzipLoop_nil
  | cons char text =>
    rw [wantsGzipLoop_next (List.cons_ne_nil char text)]
    rfl

theorem wantsGzipLoop_element (coding : Coding) {rest : Bytes}
    (stops : ∀ char ∈ rest.head?, char = ','.toUInt8) :
    wantsGzipLoop (coding.text.map toLower ++ rest) =
      if coding.plain then coding.whole else wantsGzipLoop rest := by
  have dropped := coding.dropWhile_text
  have nonempty := coding.lowerToken_ne_nil
  have start : (coding.text.map toLower ++ rest).dropWhile isSeparator =
      coding.lowerToken ++ rest := by
    rw [List.dropWhile_append, dropped, if_neg (by simpa using nonempty)]
  have inside : ∀ char ∈ coding.lowerToken, (char != ','.toUInt8) = true := by
    intro char member
    rw [bne_iff_ne]
    rintro rfl
    exact coding.comma_notMem member
  have behind : rest.dropWhile (· != ','.toUInt8) = rest ∧
      (coding.lowerToken ++ rest).takeWhile (· != ','.toUInt8) =
        coding.lowerToken := by
    refine ⟨?_, takeWhile_front inside fun char found => ?_⟩
    · cases rest with
      | nil => rfl
      | cons char rest =>
        rw [stops char rfl]
        rfl
    · rw [stops char found]
      rfl
  have next : nextToken (coding.text.map toLower ++ rest) =
      (rest, coding.lowerToken) := by
    rw [nextToken, start, behind.2, List.dropWhile_append_of_pos inside,
      behind.1]
  have some : coding.text.map toLower ++ rest ≠ [] := by
    intro none
    rw [none] at start
    exact nonempty (List.append_eq_nil_iff.mp start.symm).1
  rw [wantsGzipLoop_next some, next, coding.gzipToken_lowerToken]
  split <;> rfl

/-- The first gzip that is written plainly decides. -/
theorem wantsGzip_text (codings : List Coding) :
    wantsGzip (acceptEncodingText codings) =
      (codings.find? (·.plain)).any (·.whole) := by
  rw [wantsGzip]
  induction codings with
  | nil => exact wantsGzipLoop_nil
  | cons coding codings ih =>
    obtain ⟨rest, spelled, stops, others⟩ : ∃ rest,
        (acceptEncodingText (coding :: codings)).map toLower =
          coding.text.map toLower ++ rest ∧
        (∀ char ∈ rest.head?, char = ','.toUInt8) ∧
        wantsGzipLoop rest =
          wantsGzipLoop ((acceptEncodingText codings).map toLower) := by
      cases codings with
      | nil =>
        refine ⟨[], ?_, nofun, rfl⟩
        simp [acceptEncodingText, List.intercalate]
      | cons next codings =>
        refine ⟨','.toUInt8 ::
          (acceptEncodingText (next :: codings)).map toLower, ?_, ?_, ?_⟩
        · simp [acceptEncodingText, List.intercalate]
          rfl
        · intro char found
          exact (Option.some.inj found).symm
        · exact wantsGzipLoop_comma _
    rw [spelled, wantsGzipLoop_element coding stops, others, ih,
      List.find?_cons]
    cases coding.plain <;> rfl

theorem Coding.acceptable_of_whole {coding : Coding}
    (whole : coding.whole = true) : coding.Acceptable := by
  intro weight weighted
  rw [Coding.whole, weighted] at whole
  exact .inl whole

theorem Coding.isGzip_of_plain {coding : Coding}
    (plain : coding.plain = true) : coding.IsGzip := by
  simp only [Coding.plain, Bool.and_eq_true] at plain
  exact plain.1.1

/-- The negotiation is right exactly if a list that accepts gzip has it
written plainly, and the first time without a weight or with one that starts
with a one. -/
theorem wantsGzip_iff_acceptsGzip (codings : List Coding) :
    (wantsGzip (acceptEncodingText codings) = true ↔ AcceptsGzip codings) ↔
      (AcceptsGzip codings → ∃ coding,
        codings.find? (·.plain) = some coding ∧ coding.whole = true) := by
  rw [wantsGzip_text, Option.any_eq_true]
  have sound : (∃ coding, codings.find? (·.plain) = some coding ∧
      coding.whole = true) → AcceptsGzip codings := by
    rintro ⟨coding, found, whole⟩
    exact ⟨coding, List.mem_of_find?_eq_some found,
      Coding.isGzip_of_plain (List.find?_some found),
      Coding.acceptable_of_whole whole⟩
  exact ⟨fun same => same.mpr, fun complete => ⟨sound, complete⟩⟩

def halfGzip : Coding where
  lead := []
  name := ascii "gzip"
  token := by decide
  weight := some
    { before := []
      behind := []
      upper := false
      value :=
        { one := false
          decimals := some [5]
          short := by decide
          bounded := nofun } }
  trail := []

def spacedGzip : Coding where
  lead := []
  name := ascii "gzip"
  token := by decide
  weight := none
  trail := [.space]

/-- `gzip;q=0.5` and `gzip ` are taken for a refusal. -/
theorem wantsGzip_refuses_half :
    (acceptEncodingText [halfGzip] = ascii "gzip;q=0.5" ∧
      wantsGzip (ascii "gzip;q=0.5") = false ∧ AcceptsGzip [halfGzip]) ∧
    (acceptEncodingText [spacedGzip] = ascii "gzip " ∧
      wantsGzip (ascii "gzip ") = false ∧ AcceptsGzip [spacedGzip]) := by
  have half : acceptEncodingText [halfGzip] = ascii "gzip;q=0.5" := by decide
  have spaced : acceptEncodingText [spacedGzip] = ascii "gzip " := by decide
  refine ⟨⟨half, ?_, ?_⟩, spaced, ?_, ?_⟩
  · rw [← half, wantsGzip_text]
    decide
  · refine ⟨halfGzip, List.mem_singleton_self _, rfl, fun weight same => ?_⟩
    obtain rfl := Option.some.inj same
    exact .inr ⟨[5], rfl, 5, by decide⟩
  · rw [← spaced, wantsGzip_text]
    decide
  · exact ⟨spacedGzip, List.mem_singleton_self _, rfl, nofun⟩

end Libnei.Http

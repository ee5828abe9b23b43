import Libnei.Http.Multipart

/-!
# The round trip of multipart form data

The blocks of a body are found again, since the delimiter has no line end and
does not occur elsewhere, and so are the headers and the payload of a block.
Only the parameters of `Content-Disposition` may be lost: they are separated
at every semicolon, also at one between quotes.
-/

namespace Libnei.Http

open Libnei.Lib

namespace AddCall

def name : AddCall → Bytes
  | .field name _ => name
  | .file name _ _ _ => name

def filename : AddCall → Bytes
  | .field _ _ => []
  | .file _ filename _ _ => filename

def contentType : AddCall → Bytes
  | .field _ _ => []
  | .file _ _ contentType _ => contentType

def part (call : AddCall) : MultipartPart :=
  ⟨call.name, call.filename, call.contentType, call.payload⟩

end AddCall

def OneLine (text : Bytes) : Prop :=
  carriageReturn ∉ text ∧ lineFeed ∉ text

/-- A call whose texts do not interfere with the form around them. -/
structure Regular (delimiter : Bytes) (call : AddCall) : Prop where
  oneLine : OneLine (call.name ++ call.filename ++ call.contentType)
  unquoted : quote ∉ call.name ++ call.filename ++ call.contentType
  unspaced : call.contentType.head? ≠ some ' '.toUInt8
  headers_free : ¬delimiter <:+: call.headers
  payload_free : ¬delimiter <:+: call.payload

theorem OneLine.subset {text text' : Bytes} (line : OneLine text')
    (inside : text ⊆ text') : OneLine text :=
  ⟨fun member => line.1 (inside member),
    fun member => line.2 (inside member)⟩

theorem OneLine.append {text text' : Bytes} (line : OneLine text)
    (line' : OneLine text') : OneLine (text ++ text') := by
  constructor
  · rw [List.mem_append]
    exact fun member => member.elim line.1 line'.1
  · rw [List.mem_append]
    exact fun member => member.elim line.2 line'.2

/-! ## The parameters -/

theorem parseDisposition_nil (parameters : Bytes × Bytes) :
    parseDisposition [] parameters = parameters := by
  rw [parseDisposition, dif_pos rfl]

theorem parseDisposition_token {char : UInt8} {token rest : Bytes}
    (starts : char ≠ ';'.toUInt8 ∧ isBlank char = false)
    (unbroken : ';'.toUInt8 ∉ token)
    (stops : rest = [] ∨ rest.head? = some ';'.toUInt8)
    (parameters : Bytes × Bytes) :
    parseDisposition (' '.toUInt8 :: char :: token ++ rest) parameters =
      parseDisposition (rest.drop 1)
        (setParameter ((char :: token).rdropWhile isBlank) parameters) := by
  have skipped : (' '.toUInt8 :: char :: token ++ rest).dropWhile
      (fun char => char == ';'.toUInt8 || isBlank char) =
        char :: token ++ rest := by
    simp [isBlank, starts.1]
    simpa [isBlank] using starts.2
  have whole : (char :: token ++ rest).takeWhile (· != ';'.toUInt8) =
      char :: token := by
    refine takeWhile_front ?_ ?_
    · intro other member
      have different : other ≠ ';'.toUInt8 := by
        rintro rfl
        rcases List.mem_cons.mp member with same | inside
        · exact starts.1 same.symm
        · exact unbroken inside
      simpa using different
    · intro other isHead
      rcases stops with rfl | stops
      · cases isHead
      · obtain rfl : ';'.toUInt8 = other :=
          Option.some.inj (stops.symm.trans isHead)
        rfl
  rw [parseDisposition, dif_neg (by simp)]
  simp only [skipped, whole]
  congr 1
  rw [← List.drop_drop, List.drop_left]

theorem setParameter_quoted {key : Bytes} (value : Bytes)
    (known : key = ascii "name" ∨ key = ascii "filename")
    (parameters : Bytes × Bytes) :
    setParameter ((key ++ '='.toUInt8 :: quote :: value ++
        [quote]).rdropWhile isBlank) parameters =
      if key = ascii "name" then (value, parameters.2)
      else (parameters.1, value) := by
  have kept : (key ++ '='.toUInt8 :: quote :: value ++
      [quote]).rdropWhile isBlank =
        key ++ '='.toUInt8 :: (quote :: value ++ [quote]) := by
    rw [List.rdropWhile_concat_neg _ _ _ (by decide)]
    simp
  have absent : '='.toUInt8 ∉ key := by
    rcases known with rfl | rfl <;> decide
  have inner : unquoted (quote :: value ++ [quote]) = value := by
    rw [unquoted, if_pos ⟨by simp, rfl, List.getLast?_concat⟩]
    simp
  have behind : (key ++ '='.toUInt8 :: (quote :: value ++ [quote])).drop
      (key.length + 1) = quote :: value ++ [quote] := by
    rw [← List.drop_drop, List.drop_left]
    rfl
  rw [kept, setParameter,
    Bytes.find_first (Bytes.beq_eq_false_of_notMem absent) (by simp)]
  simp only [behind, inner, List.take_left]
  rcases known with rfl | rfl
  · rfl
  · rfl

theorem setParameter_unbroken {token : Bytes} {parameters : Bytes × Bytes}
    (unbroken : ';'.toUInt8 ∉ token)
    (earlier : ';'.toUInt8 ∉ parameters.1 ∧ ';'.toUInt8 ∉ parameters.2) :
    ';'.toUInt8 ∉ (setParameter token parameters).1 ∧
      ';'.toUInt8 ∉ (setParameter token parameters).2 := by
  have inside (value : Bytes) : unquoted value ⊆ value := by
    unfold unquoted
    split
    · exact fun char member =>
        List.mem_of_mem_drop (List.mem_of_mem_dropLast member)
    · exact fun _ member => member
  unfold setParameter
  split
  · exact earlier
  · rename_i equals _
    have value : ';'.toUInt8 ∉ unquoted (token.drop (equals + 1)) :=
      fun member => unbroken (List.mem_of_mem_drop (inside _ member))
    dsimp only
    split
    · exact ⟨value, earlier.2⟩
    · split
      · exact ⟨earlier.1, value⟩
      · exact earlier

theorem parseDisposition_unbroken (value : Bytes) (parameters : Bytes × Bytes)
    (earlier : ';'.toUInt8 ∉ parameters.1 ∧ ';'.toUInt8 ∉ parameters.2) :
    ';'.toUInt8 ∉ (parseDisposition value parameters).1 ∧
      ';'.toUInt8 ∉ (parseDisposition value parameters).2 := by
  induction value, parameters using parseDisposition.induct with
  | case1 parameters =>
    rw [parseDisposition_nil]
    exact earlier
  | case2 value parameters nonempty value' token ih =>
    rw [parseDisposition, dif_neg nonempty]
    refine ih (setParameter_unbroken ?_ earlier)
    intro member
    have inToken := (List.rdropWhile_prefix _ _).subset member
    simpa using List.mem_takeWhile_imp inToken

/-! ## The headers -/

/-- The value of the line `Content-Disposition`. -/
def AddCall.dispositionValue : AddCall → Bytes
  | .field name _ => ascii " form-data; name=\"" ++ name ++ [quote]
  | .file name filename _ _ =>
      ascii " form-data; name=\"" ++ name ++ ascii "\"; filename=\"" ++
        filename ++ [quote]

theorem AddCall.disposition_eq (call : AddCall) : call.disposition =
      ascii "Content-Disposition:" ++ call.dispositionValue := by
  have split : ascii "Content-Disposition: form-data; name=\"" =
      ascii "Content-Disposition:" ++ ascii " form-data; name=\"" := rfl
  cases call with
  | field name value =>
    simp only [disposition, dispositionValue, split, List.append_assoc]
  | file name filename contentType data =>
    simp only [disposition, dispositionValue, split, List.append_assoc]

/-- What the parser makes of a call. -/
def AddCall.received (call : AddCall) : MultipartPart :=
  let (name, filename) := parseContentDisposition call.dispositionValue
  ⟨name, filename, call.contentType, call.payload⟩

variable (part : MultipartPart)

theorem readHeader_disposition (call : AddCall) :
    part.readHeader call.disposition =
      { part with
        name := (parseContentDisposition call.dispositionValue).1
        filename := (parseContentDisposition call.dispositionValue).2 } := by
  have starts : (ascii "Content-Disposition:").isPrefixOf
      call.disposition = true := by
    rw [List.isPrefixOf_iff_prefix, call.disposition_eq]
    exact List.prefix_append _ _
  have value : valueOf (ascii "Content-Disposition:") call.disposition =
      some call.dispositionValue := by
    rw [valueOf, if_pos starts, call.disposition_eq, List.drop_left]
  rw [MultipartPart.readHeader, value]

theorem readHeader_contentType {contentType : Bytes}
    (unspaced : contentType.head? ≠ some ' '.toUInt8) :
    part.readHeader (ascii "Content-Type: " ++ contentType) =
      { part with contentType := contentType } := by
  have other : valueOf (ascii "Content-Disposition:")
      (ascii "Content-Type: " ++ contentType) = none := rfl
  have value : valueOf (ascii "Content-Type:")
      (ascii "Content-Type: " ++ contentType) =
        some (' '.toUInt8 :: contentType) := rfl
  have trimmed : (' '.toUInt8 :: contentType).dropWhile
      (· == ' '.toUInt8) = contentType := by
    cases contentType with
    | nil => rfl
    | cons head tail =>
      have different : head ≠ ' '.toUInt8 := by simpa using unspaced
      simp [different]
  rw [MultipartPart.readHeader, other]
  simp only [value, trimmed]

variable {line delimiter boundary : Bytes} {call : AddCall}

theorem readHeaders_oneLine (oneLine : OneLine line) (nonempty : line ≠ []) :
    part.readHeaders line = part.readHeader line := by
  rw [MultipartPart.readHeaders, dif_neg nonempty]
  simp only [Bytes.find_eq_none (Bytes.beq_eq_false_of_notMem oneLine.2)]

theorem readHeaders_crLf (oneLine : OneLine line) (rest : Bytes) :
    part.readHeaders (line ++ crLf ++ rest) =
      (part.readHeader line).readHeaders rest := by
  have spelled : line ++ crLf ++ rest =
      (line ++ [carriageReturn]) ++ lineFeed :: rest := by
    simp [crLf]
  have absent : lineFeed ∉ line ++ [carriageReturn] := by
    rw [List.mem_append, not_or]
    exact ⟨oneLine.2, by decide⟩
  have behind : ((line ++ [carriageReturn]) ++ lineFeed :: rest).drop
      ((line ++ [carriageReturn]).length + 1) = rest := by
    rw [← List.drop_drop, List.drop_left]
    rfl
  rw [spelled, MultipartPart.readHeaders, dif_neg (by simp),
    Bytes.find_first (Bytes.beq_eq_false_of_notMem absent) (by simp)]
  simp only [List.take_left, List.getLast?_concat, if_true,
    List.dropLast_concat, behind]

theorem disposition_oneLine (regular : Regular delimiter call) :
    OneLine call.disposition := by
  have plain := regular.oneLine
  have quoted : OneLine [quote] := by constructor <;> decide
  cases call with
  | field name value =>
    refine .append (.append ?_ (plain.subset ?_)) quoted
    · constructor <;> decide
    · simp [AddCall.name]
  | file name filename contentType data =>
    refine .append (.append (.append (.append ?_ (plain.subset ?_)) ?_)
      (plain.subset ?_)) quoted
    · constructor <;> decide
    · simp [AddCall.name]
    · constructor <;> decide
    · simp [AddCall.filename]

theorem AddCall.headers_cases (call : AddCall) :
    (call.contentType = [] ∧ call.headers = call.disposition) ∨
      call.headers = call.disposition ++ crLf ++
        (ascii "Content-Type: " ++ call.contentType) := by
  cases call with
  | field name value => exact .inl ⟨rfl, rfl⟩
  | file name filename contentType data =>
    by_cases untyped : contentType = []
    · left
      exact ⟨untyped, by rw [headers, if_pos untyped]⟩
    · right
      rw [headers, if_neg untyped, List.append_assoc]
      rfl

theorem disposition_ne_nil (call : AddCall) : call.disposition ≠ [] := by
  rw [call.disposition_eq]
  simp [ascii]

theorem contentType_oneLine (regular : Regular delimiter call) :
    OneLine (ascii "Content-Type: " ++ call.contentType) := by
  refine .append ?_ (regular.oneLine.subset ?_)
  · constructor <;> decide
  · exact List.subset_append_right _ _

theorem readHeaders_headers (regular : Regular delimiter call) :
    MultipartPart.readHeaders {} call.headers =
      { call.received with data := [] } := by
  have line := disposition_oneLine regular
  rcases call.headers_cases with ⟨untyped, spelled⟩ | spelled
  · rw [spelled, readHeaders_oneLine {} line (disposition_ne_nil call),
      readHeader_disposition, AddCall.received, untyped]
  · rw [spelled, readHeaders_crLf {} line,
      readHeaders_oneLine _ (contentType_oneLine regular)
        (by simp [ascii]),
      readHeader_contentType _ regular.unspaced, readHeader_disposition,
      AddCall.received]

/-! ## The blocks -/

/-- The text between two delimiters. -/
def AddCall.block (call : AddCall) : Bytes :=
  call.headers ++ (crLf ++ crLf ++ (call.payload ++ crLf))

theorem search_line (oneLine : OneLine line) (text : Bytes) :
    search (crLf ++ crLf) (line ++ text) =
      (search (crLf ++ crLf) text).map (line.length + ·) :=
  search_skip [lineFeed, carriageReturn, lineFeed] text oneLine.1

theorem search_headers (regular : Regular delimiter call) (rest : Bytes) :
    search (crLf ++ crLf) (call.headers ++ (crLf ++ crLf ++ rest)) =
      some call.headers.length := by
  have line := disposition_oneLine regular
  rcases call.headers_cases with ⟨_, spelled⟩ | spelled
  · rw [spelled, search_line line, search_append_self]
    rfl
  · -- The first line end is not followed by another one.
    have typed := contentType_oneLine regular
    have notHere (text : Bytes) : ¬(crLf ++ crLf) <+:
        carriageReturn :: lineFeed :: (ascii "Content-Type: " ++ text) := by
      intro starts
      have second := (List.cons_prefix_cons.mp
        (List.cons_prefix_cons.mp starts).2).2
      exact absurd (List.cons_prefix_cons.mp second).1 (by decide)
    have notBehind (text : Bytes) : ¬(crLf ++ crLf) <+: lineFeed :: text := by
      intro starts
      exact absurd (List.cons_prefix_cons.mp starts).1 (by decide)
    have unfolded : call.headers ++ (crLf ++ crLf ++ rest) =
        call.disposition ++ carriageReturn :: lineFeed ::
          (ascii "Content-Type: " ++ (call.contentType ++
            (crLf ++ crLf ++ rest))) := by
      rw [spelled]
      simp [crLf]
    rw [unfolded, search_line line, search_cons (notHere _),
      search_cons (notBehind _), ← List.append_assoc, search_line typed,
      search_append_self, spelled]
    simp [crLf]

theorem stripLineEnd_crLf (payload : Bytes) :
    stripLineEnd (payload ++ crLf) = payload := by
  have ends : crLf.isSuffixOf (payload ++ crLf) = true := by
    rw [List.isSuffixOf_iff_suffix]
    exact List.suffix_append payload crLf
  have size : (payload ++ crLf).length - 2 = payload.length := by
    simp [crLf]
  rw [stripLineEnd, if_pos ends, size, List.take_left]

theorem parsePart_block (regular : Regular delimiter call) :
    parsePart call.block = call.received := by
  have behind : call.block.drop (call.headers.length + 4) =
      call.payload ++ crLf := by
    rw [← List.drop_drop, AddCall.block, List.drop_left]
    rfl
  have found : search (crLf ++ crLf) call.block =
      some call.headers.length := search_headers regular _
  have front : call.block.take call.headers.length = call.headers :=
    List.take_left
  simp only [parsePart, splitBlock, found, front, behind,
    readHeaders_headers regular, stripLineEnd_crLf]
  rfl

/-- A block ends with a line feed, and the delimiter does not occur in
front of it. -/
theorem block_spec (oneLine : OneLine delimiter)
    (regular : Regular delimiter call) :
    ∃ front, call.block = front ++ [lineFeed] ∧ ¬delimiter <:+: front := by
  refine ⟨call.headers ++ carriageReturn :: ([] ++ lineFeed ::
    ([] ++ carriageReturn :: ([] ++ lineFeed :: (call.payload ++
      carriageReturn :: [])))), by simp [AddCall.block, crLf], ?_⟩
  have nonempty : ¬delimiter <:+: [] := by
    intro occurs
    rw [List.infix_nil] at occurs
    rw [occurs] at regular
    exact regular.payload_free List.nil_infix
  simp only [infix_append_cons oneLine.1, infix_append_cons oneLine.2, not_or]
  exact ⟨regular.headers_free, nonempty, nonempty, nonempty,
    regular.payload_free, nonempty⟩

/-! ## The body -/

/-- What follows the delimiter in front of the parts of some calls. -/
def remainder (delimiter : Bytes) : List AddCall → Bytes
  | [] => ascii "--" ++ crLf
  | call :: calls =>
      crLf ++ (call.block ++ (delimiter ++ remainder delimiter calls))

theorem build_eq (boundary : Bytes) (calls : List AddCall) :
    MultipartFormData.build boundary calls =
      ⟨boundary, calls.map AddCall.headers, calls.map AddCall.payload⟩ := by
  have general (form : MultipartFormData) :
      calls.foldl MultipartFormData.add form =
        { form with
          pendingHeaders := form.pendingHeaders ++ calls.map AddCall.headers
          pendingPayloads :=
            form.pendingPayloads ++ calls.map AddCall.payload } := by
    induction calls generalizing form with
    | nil => simp
    | cons call calls ih =>
      rw [List.foldl_cons, ih]
      simp [MultipartFormData.add]
  exact general { boundary := boundary }

theorem getBody_build (boundary : Bytes) (calls : List AddCall) :
    (MultipartFormData.build boundary calls).getBody =
      (ascii "--" ++ boundary) ++
        remainder (ascii "--" ++ boundary) calls := by
  rw [build_eq]
  induction calls with
  | nil => simp [MultipartFormData.getBody, remainder]
  | cons call calls ih =>
    simp only [MultipartFormData.getBody, List.map_cons,
      List.zipWith_cons_cons, List.flatten_cons, List.append_assoc]
      at ih ⊢
    rw [ih]
    simp [MultipartFormData.partText, remainder, AddCall.block]

section

variable (oneLine : OneLine (ascii "--" ++ boundary))

include oneLine

/-- The first block is read, and what follows its delimiter is left. -/
theorem parseBlocks_block (regular : Regular (ascii "--" ++ boundary) call)
    (rest : Bytes) (parts : List MultipartPart) :
    parseBlocks boundary
        (call.block ++ ((ascii "--" ++ boundary) ++ rest)) parts =
      if (ascii "--").isPrefixOf rest then
        (true, parts ++ [call.received])
      else
        parseBlocks boundary (skipLineEnd rest)
          (parts ++ [call.received]) := by
  obtain ⟨front, spelled, elsewhere⟩ := block_spec oneLine regular
  have size : call.block.length = front.length + 1 := by simp [spelled]
  have found : search (ascii "--" ++ boundary)
      (call.block ++ ((ascii "--" ++ boundary) ++ rest)) =
        some call.block.length := by
    rw [size, spelled, List.append_assoc]
    exact search_behind rest oneLine.2 elsewhere
  have nonempty : call.block ++ ((ascii "--" ++ boundary) ++ rest) ≠ [] := by
    simp [spelled]
  rw [parseBlocks, dif_neg nonempty]
  simp only [found, List.take_left, ← List.drop_drop, List.drop_left,
    parsePart_block regular]

theorem parseBlocks_remainder (call : AddCall) (calls : List AddCall)
    (parts : List MultipartPart)
    (regular : ∀ other ∈ call :: calls,
      Regular (ascii "--" ++ boundary) other) :
    parseBlocks boundary (call.block ++ ((ascii "--" ++ boundary) ++
        remainder (ascii "--" ++ boundary) calls)) parts =
      (true, parts ++ (call :: calls).map AddCall.received) := by
  induction calls generalizing call parts with
  | nil =>
    rw [parseBlocks_block oneLine (regular call List.mem_cons_self)]
    rfl
  | cons later calls ih =>
    have next := ih later (parts ++ [call.received])
      fun other member => regular other (List.mem_cons_of_mem _ member)
    rw [parseBlocks_block oneLine (regular call List.mem_cons_self),
      if_neg (by simp [remainder, crLf, ascii, carriageReturn])]
    refine next.trans ?_
    simp

/-- Every part is received, whatever its parameters are. -/
theorem parseMultipartBody_getBody (calls : List AddCall)
    (parts : List MultipartPart)
    (regular : ∀ call ∈ calls, Regular (ascii "--" ++ boundary) call) :
    parseMultipartBody (MultipartFormData.build boundary calls).getBody
        boundary (some parts) =
      (true, some (parts ++ calls.map AddCall.received)) := by
  rw [getBody_build, parseMultipartBody, search_append_self]
  simp only [Nat.zero_add, List.drop_left]
  cases calls with
  | nil => simp [remainder, ascii]
  | cons call calls =>
    have blocks := parseBlocks_remainder oneLine call calls parts regular
    have next : skipLineEnd (remainder (ascii "--" ++ boundary)
        (call :: calls)) = call.block ++ ((ascii "--" ++ boundary) ++
          remainder (ascii "--" ++ boundary) calls) := rfl
    rw [if_neg (by simp [remainder, crLf, ascii, carriageReturn]), next, blocks]

end

/-! ## The parts -/

theorem parseDisposition_formData (rest : Bytes) (parameters : Bytes × Bytes) :
    parseDisposition (ascii " form-data;" ++ rest) parameters =
      parseDisposition rest parameters :=
  parseDisposition_token (show 'f'.toUInt8 ≠ ';'.toUInt8 ∧
      isBlank 'f'.toUInt8 = false by decide)
    (show ';'.toUInt8 ∉ ascii "orm-data" by decide)
    (.inr (show (';'.toUInt8 :: rest).head? = some ';'.toUInt8 from rfl))
    parameters

theorem parseDisposition_name {name : Bytes} (unbroken : ';'.toUInt8 ∉ name)
    {rest : Bytes} (stops : rest = [] ∨ rest.head? = some ';'.toUInt8)
    (parameters : Bytes × Bytes) :
    parseDisposition (ascii " name=\"" ++ name ++ [quote] ++ rest)
        parameters =
      parseDisposition (rest.drop 1) (name, parameters.2) := by
  have token := parseDisposition_token (show 'n'.toUInt8 ≠ ';'.toUInt8 ∧
      isBlank 'n'.toUInt8 = false by decide)
    (show ';'.toUInt8 ∉ ascii "ame=\"" ++ name ++ [quote] by
      simp only [List.mem_append, not_or]
      exact ⟨⟨by decide, unbroken⟩, by decide⟩) stops parameters
  refine token.trans (congrArg _ ?_)
  exact setParameter_quoted name (.inl rfl) parameters

theorem parseDisposition_filename {filename : Bytes}
    (unbroken : ';'.toUInt8 ∉ filename) (parameters : Bytes × Bytes) :
    parseDisposition (ascii " filename=\"" ++ filename ++ [quote])
        parameters = (parameters.1, filename) := by
  have token := parseDisposition_token (show 'f'.toUInt8 ≠ ';'.toUInt8 ∧
      isBlank 'f'.toUInt8 = false by decide)
    (show ';'.toUInt8 ∉ ascii "ilename=\"" ++ filename ++ [quote] by
      simp only [List.mem_append, not_or]
      exact ⟨⟨by decide, unbroken⟩, by decide⟩) (.inl rfl) parameters
  rw [List.append_nil, List.drop_nil, parseDisposition_nil] at token
  exact token.trans (setParameter_quoted filename (.inr rfl) parameters)

theorem received_eq_part_iff (call : AddCall) : call.received = call.part ↔
      ';'.toUInt8 ∉ call.name ∧ ';'.toUInt8 ∉ call.filename := by
  constructor
  · intro same
    have name := congrArg MultipartPart.name same
    have filename := congrArg MultipartPart.filename same
    have unbroken := parseDisposition_unbroken call.dispositionValue
      ([], []) (by simp)
    rw [show call.name = _ from name.symm,
      show call.filename = _ from filename.symm]
    exact unbroken
  · rintro ⟨name, filename⟩
    have parameters : parseContentDisposition call.dispositionValue =
        (call.name, call.filename) := by
      have start : ascii " form-data; name=\"" =
          ascii " form-data;" ++ ascii " name=\"" := rfl
      have middle : ascii "\"; filename=\"" =
          [quote] ++ ';'.toUInt8 :: ascii " filename=\"" := rfl
      cases call with
      | field text value =>
        have spelled : (AddCall.field text value).dispositionValue =
            ascii " form-data;" ++
              (ascii " name=\"" ++ text ++ [quote] ++ []) := by
          simp [AddCall.dispositionValue, start]
        have named : ';'.toUInt8 ∉ text := name
        rw [parseContentDisposition, spelled, parseDisposition_formData,
          parseDisposition_name named (.inl rfl), List.drop_nil,
          parseDisposition_nil]
        rfl
      | file text other contentType data =>
        have spelled : (AddCall.file text other contentType
            data).dispositionValue = ascii " form-data;" ++
              (ascii " name=\"" ++ text ++ [quote] ++ ';'.toUInt8 ::
                (ascii " filename=\"" ++ other ++ [quote])) := by
          simp [AddCall.dispositionValue, start, middle]
        have named : ';'.toUInt8 ∉ text := name
        have filed : ';'.toUInt8 ∉ other := filename
        rw [parseContentDisposition, spelled, parseDisposition_formData,
          parseDisposition_name named (.inr List.head?_cons),
          List.drop_one, List.tail_cons, parseDisposition_filename filed]
        rfl
    rw [AddCall.received, parameters]
    rfl

theorem generateBoundary_oneLine (first second : UInt64) :
    OneLine (ascii "--" ++ generateBoundary first second) := by
  have digits (value : UInt64) : OneLine (hex16 value) := by
    have digit (value : Fin 16) : hexDigit value ≠ carriageReturn ∧
        hexDigit value ≠ lineFeed := by
      revert value
      decide
    constructor
    · intro member
      obtain ⟨index, _, same⟩ := List.mem_map.mp member
      exact (digit ⟨_, Nat.mod_lt _ (by decide)⟩).1 same
    · intro member
      obtain ⟨index, _, same⟩ := List.mem_map.mp member
      exact (digit ⟨_, Nat.mod_lt _ (by decide)⟩).2 same
  have whole : OneLine (ascii "----libneiFormBoundary" ++ hex16 first ++
      hex16 second) := by
    refine .append (.append ?_ (digits first)) (digits second)
    constructor <;> decide
  refine .append (by constructor <;> decide) ?_
  exact whole.subset (List.take_subset _ _)

/-- The parts of a form are parsed back exactly if no name and no file name
holds a semicolon. -/
theorem parseMultipartBody_getBody_iff (first second : UInt64)
    (calls : List AddCall) (parts : List MultipartPart)
    (regular : ∀ call ∈ calls,
      Regular (ascii "--" ++ generateBoundary first second) call) :
    parseMultipartBody
        (MultipartFormData.build (generateBoundary first second)
          calls).getBody
        (MultipartFormData.build (generateBoundary first second)
          calls).boundary (some parts) =
        (true, some (parts ++ calls.map AddCall.part)) ↔
      ∀ call ∈ calls,
        ';'.toUInt8 ∉ call.name ∧ ';'.toUInt8 ∉ call.filename := by
  have boundary : (MultipartFormData.build (generateBoundary first second)
      calls).boundary = generateBoundary first second := by
    rw [build_eq]
  rw [boundary, parseMultipartBody_getBody
    (generateBoundary_oneLine first second) calls parts regular,
    Prod.mk.injEq, Option.some.injEq, List.append_cancel_left_eq,
    List.map_inj_left]
  simp only [true_and, received_eq_part_iff]

/-- A form with two fields, one of which has no value, and a file whose content
has line ends. -/
def plainForm : List AddCall :=
  [.field (ascii "a") (ascii "1"), .field (ascii "b") [],
    .file (ascii "c") (ascii "d.txt") (ascii "text/plain")
      (ascii "x\r\n\r\ny")]

theorem plainForm_regular (call : AddCall) (member : call ∈ plainForm) :
    Regular (ascii "--" ++ generateBoundary 0 0) call := by
  simp only [plainForm, List.mem_cons, List.not_mem_nil, or_false] at member
  rcases member with rfl | rfl | rfl <;>
    exact ⟨⟨by decide, by decide⟩, by decide, by decide, by decide +kernel,
      by decide⟩

theorem plainForm_parsed :
    parseMultipartBody
        (MultipartFormData.build (generateBoundary 0 0) plainForm).getBody
        (MultipartFormData.build (generateBoundary 0 0) plainForm).boundary
        (some []) =
      (true, some ([] ++ plainForm.map AddCall.part)) :=
  (parseMultipartBody_getBody_iff 0 0 plainForm [] plainForm_regular).mpr
    (by decide)

/-- The form with the field `a;b` and the value `1`. -/
def brokenField : List AddCall := [.field (ascii "a;b") (ascii "1")]

/-- The field does not arrive under its name. -/
theorem brokenField_not_parsed :
    (∀ call ∈ brokenField,
        Regular (ascii "--" ++ generateBoundary 0 0) call) ∧
      parseMultipartBody
          (MultipartFormData.build (generateBoundary 0 0)
            brokenField).getBody
          (MultipartFormData.build (generateBoundary 0 0)
            brokenField).boundary (some []) ≠
        (true, some ([] ++ brokenField.map AddCall.part)) := by
  have regular : ∀ call ∈ brokenField,
      Regular (ascii "--" ++ generateBoundary 0 0) call := by
    intro call member
    obtain rfl := List.mem_singleton.mp member
    exact ⟨⟨by decide, by decide⟩, by decide, by decide, by decide,
    by decide⟩
  refine ⟨regular, fun parsed => ?_⟩
  have received := parseMultipartBody_getBody
    (generateBoundary_oneLine 0 0) brokenField [] regular
  have same := received.symm.trans parsed
  simp only [brokenField, List.map_cons, List.map_nil, List.nil_append,
    Prod.mk.injEq, Option.some.injEq, List.cons.injEq, and_true, true_and,
    received_eq_part_iff] at same
  exact absurd same.1 (by decide)

end Libnei.Http

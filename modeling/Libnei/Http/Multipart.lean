import Libnei.Lib.Search
import Libnei.Text

/-!
# Multipart form data

`MultipartFormData` builds a body and `ParseMultipartBody` takes one apart
(`multipart.cpp`).  A position in a text is the text from there on.
-/

namespace Libnei.Http

open Libnei.Lib

def carriageReturn : UInt8 := 13
def lineFeed : UInt8 := 10
def quote : UInt8 := '"'.toUInt8

/-- `kCrLf`. -/
def crLf : Bytes := [carriageReturn, lineFeed]

/-! ## Building -/

def hexDigit (digit : Nat) : UInt8 :=
  (if digit < 10 then 48 + digit else 87 + digit).toUInt8

/-- `%016llx`. -/
def hex16 (value : UInt64) : Bytes :=
  (List.range 16).map fun index =>
    hexDigit (value.toNat / 16 ^ (15 - index) % 16)

/-- `GenerateBoundary`, from the two random numbers it draws.  `snprintf`
cuts the text off at the size of its buffer. -/
def generateBoundary (first second : UInt64) : Bytes :=
  (ascii "----libneiFormBoundary" ++ hex16 first ++ hex16 second).take 39

structure MultipartFormData where
  boundary : Bytes
  pendingHeaders : List Bytes := []
  pendingPayloads : List Bytes := []

inductive AddCall
  | field (name value : Bytes)
  | file (name filename contentType data : Bytes)
deriving DecidableEq

namespace AddCall

/-- The line `Content-Disposition` that both calls write. -/
def disposition : AddCall → Bytes
  | .field name _ =>
      ascii "Content-Disposition: form-data; name=\"" ++ name ++ [quote]
  | .file name filename _ _ =>
      ascii "Content-Disposition: form-data; name=\"" ++ name ++
        ascii "\"; filename=\"" ++ filename ++ [quote]

def headers : AddCall → Bytes
  | .field name value => disposition (.field name value)
  | .file name filename contentType data =>
      if contentType = [] then
        disposition (.file name filename contentType data)
      else
        disposition (.file name filename contentType data) ++ crLf ++
          ascii "Content-Type: " ++ contentType

def payload : AddCall → Bytes
  | .field _ value => value
  | .file _ _ _ data => data

end AddCall

namespace MultipartFormData

/-- `AddField` and `AddFile`. -/
def add (form : MultipartFormData) (call : AddCall) : MultipartFormData :=
  { form with
    pendingHeaders := form.pendingHeaders ++ [call.headers]
    pendingPayloads := form.pendingPayloads ++ [call.payload] }

def build (boundary : Bytes) (calls : List AddCall) : MultipartFormData :=
  calls.foldl add { boundary := boundary }

/-- One round of the loop of `GetBody`. -/
def partText (boundary headers payload : Bytes) : Bytes :=
  ascii "--" ++ boundary ++ crLf ++ headers ++ crLf ++ crLf ++ payload ++
    crLf

def getBody (form : MultipartFormData) : Bytes :=
  (List.zipWith (partText form.boundary) form.pendingHeaders
      form.pendingPayloads).flatten ++
    ascii "--" ++ form.boundary ++ ascii "--" ++ crLf

end MultipartFormData

/-! ## Parsing -/

structure MultipartPart where
  name : Bytes := []
  filename : Bytes := []
  contentType : Bytes := []
  data : Bytes := []
deriving DecidableEq

def isBlank (char : UInt8) : Bool :=
  char == ' '.toUInt8 || char == '\t'.toUInt8

def unquoted (value : Bytes) : Bytes :=
  if 2 ≤ value.length ∧ value.head? = some quote ∧
      value.getLast? = some quote then
    (value.drop 1).dropLast
  else value

/-- What a token of the header sets: `name`, `filename` or nothing. -/
def setParameter (token : Bytes) (parameters : Bytes × Bytes) : Bytes × Bytes :=
  match token.find (· == '='.toUInt8) 0 with
  | none => parameters
  | some equals =>
      let key := token.take equals
      let value := unquoted (token.drop (equals + 1))
      if key = ascii "name" then (value, parameters.2)
      else if key = ascii "filename" then (parameters.1, value)
      else parameters

/-- The loop of `ParseContentDisposition`; `parameters` is what `name` and
`filename` point to. -/
def parseDisposition (value : Bytes) (parameters : Bytes × Bytes) :
    Bytes × Bytes :=
  if _ : value = [] then parameters
  else
    let value' := value.dropWhile fun char =>
      char == ';'.toUInt8 || isBlank char
    let token := value'.takeWhile (· != ';'.toUInt8)
    parseDisposition (value'.drop (token.length + 1))
      (setParameter (token.rdropWhile isBlank) parameters)
termination_by value.length
decreasing_by
  have shorter := (List.dropWhile_suffix (l := value) fun char =>
    char == ';'.toUInt8 || isBlank char).length_le
  have nonempty : 0 < value.length := List.length_pos_of_ne_nil ‹_›
  simp only [List.length_drop]
  omega

def parseContentDisposition (value : Bytes) : Bytes × Bytes :=
  parseDisposition value ([], [])

/-- `line.compare(0, name.size(), name) == 0`, and what follows. -/
def valueOf (name line : Bytes) : Option Bytes :=
  if name.isPrefixOf line then some (line.drop name.length) else none

/-- One line of the headers of a part. -/
def MultipartPart.readHeader (part : MultipartPart) (line : Bytes) :
    MultipartPart :=
  match valueOf (ascii "Content-Disposition:") line with
  | some value =>
      let (name, filename) := parseContentDisposition value
      { part with name := name, filename := filename }
  | none =>
      match valueOf (ascii "Content-Type:") line with
      | some value =>
          { part with contentType := value.dropWhile (· == ' '.toUInt8) }
      | none => part

/-- The loop over the lines of the headers; the last line keeps its carriage
return. -/
def MultipartPart.readHeaders (part : MultipartPart) (headers : Bytes) :
    MultipartPart :=
  if _ : headers = [] then part
  else
    match headers.find (· == lineFeed) 0 with
    | some newline =>
        let line := headers.take newline
        let line :=
          if line.getLast? = some carriageReturn then line.dropLast
          else line
        (part.readHeader line).readHeaders (headers.drop (newline + 1))
    | none => part.readHeader headers
termination_by headers.length
decreasing_by
  have nonempty : 0 < headers.length := List.length_pos_of_ne_nil ‹_›
  simp only [List.length_drop]
  omega

def splitBlock (block : Bytes) : Bytes × Bytes :=
  match search (crLf ++ crLf) block with
  | some position => (block.take position, block.drop (position + 4))
  | none =>
      match search [lineFeed, lineFeed] block with
      | some position => (block.take position, block.drop (position + 2))
      | none => (block, block)

/-- The line end in front of the next delimiter. -/
def stripLineEnd (payload : Bytes) : Bytes :=
  if crLf.isSuffixOf payload then payload.take (payload.length - 2)
  else if payload.getLast? = some lineFeed then payload.dropLast
  else payload

def parsePart (block : Bytes) : MultipartPart :=
  let (headers, payload) := splitBlock block
  { MultipartPart.readHeaders {} headers with data := stripLineEnd payload }

/-- The line end behind a delimiter. -/
def skipLineEnd (rest : Bytes) : Bytes :=
  if crLf.isPrefixOf rest then rest.drop 2
  else if rest.head? = some lineFeed then rest.drop 1
  else rest

theorem length_skipLineEnd (rest : Bytes) :
    (skipLineEnd rest).length ≤ rest.length := by
  unfold skipLineEnd
  split
  · simp
  · split
    · simp
    · exact Nat.le_refl _

/-- The loop over the blocks, from behind a delimiter on. -/
def parseBlocks (boundary rest : Bytes) (parts : List MultipartPart) :
    Bool × List MultipartPart :=
  if _ : rest = [] then (false, parts)
  else
    match search (ascii "--" ++ boundary) rest with
    | none => (false, parts)
    | some next =>
        let parts := parts ++ [parsePart (rest.take next)]
        let after := rest.drop (next + (ascii "--" ++ boundary).length)
        if (ascii "--").isPrefixOf after then (true, parts)
        else parseBlocks boundary (skipLineEnd after) parts
termination_by rest.length
decreasing_by
  have nonempty : 0 < rest.length := List.length_pos_of_ne_nil ‹_›
  have marks : 0 < (ascii "--" ++ boundary).length := by simp [ascii]
  refine Nat.lt_of_le_of_lt (length_skipLineEnd _) ?_
  rw [List.length_drop]
  omega

/-- `ParseMultipartBody`: the result and what `parts` points to. -/
def parseMultipartBody (body boundary : Bytes)
    (parts : Option (List MultipartPart)) :
    Bool × Option (List MultipartPart) :=
  match parts with
  | none => (false, none)
  | some parts =>
      match search (ascii "--" ++ boundary) body with
      | none => (false, some parts)
      | some position =>
          let rest := body.drop (position + (ascii "--" ++ boundary).length)
          if (ascii "--").isPrefixOf rest then (true, some parts)
          else
            let (ok, parts) := parseBlocks boundary (skipLineEnd rest) parts
            (ok, some parts)

end Libnei.Http

import Libnei.Lib.LittleEndian
import Libnei.Text

/-!
# Serialization of log events

The producer's side of a log call, `log_serialize.c`, on the 64-bit Linux
targets: numbers are stored little-endian, `long`, `long long`, `intmax_t`,
`size_t` and `ptrdiff_t` have 64 bits and a `long double` fills its 16 bytes.
A string in memory is a list of bytes; a string of C ends at its first zero.
An address is a number, and what stands there is handed over beside it.
-/

namespace Libnei.Log.Events

open Lib

def maxStringCopy : Nat := 4096
def maxFileCopy : Nat := 128
def maxFuncCopy : Nat := 160
def maxFmtCopy : Nat := 112
def fmtPlanMaxOps : Nat := 64

/-- `sizeof(nei_log_event_header_st)`. -/
def headerSize : Nat := 464

/-- The string of C that starts at the memory. -/
def cstr (memory : Bytes) : Bytes :=
  memory.takeWhile (· != 0)

def oneOf (chars : List Char) (char : UInt8) : Bool :=
  chars.any fun other => other.toUInt8 == char

def isFlagChar (char : UInt8) : Bool :=
  oneOf ['-', '+', ' ', '#', '0'] char

/-! ## Records -/

/-- `_nei_log_payload_type_e`, without the tag of literal messages. -/
inductive PayloadType
  | i32
  | u32
  | i64
  | u64
  | double
  | char
  | ptr
  | cstr
  | longDouble
  deriving DecidableEq

namespace PayloadType

def tag : PayloadType → UInt8
  | i32 => 1
  | u32 => 2
  | i64 => 3
  | u64 => 4
  | double => 5
  | char => 6
  | ptr => 7
  | cstr => 8
  | longDouble => 9

end PayloadType

/-- The values of `conv_lm`. -/
inductive LengthModifier
  | plain
  | hh
  | h
  | l
  | ll
  | j
  | z
  | t
  | L
  deriving DecidableEq

namespace LengthModifier

/-- `conv_lm <= 2U`. -/
def isShort : LengthModifier → Bool
  | plain | hh | h => true
  | _ => false

/-- A letter that may stand twice. -/
def once (letter : Char) (single double : LengthModifier) (p : Bytes) :
    LengthModifier × Bytes :=
  match p with
  | [] => (single, [])
  | char :: rest =>
      if char = letter.toUInt8 then (double, rest) else (single, p)

/-- The length modifier in front of the text. -/
def scan (p : Bytes) : LengthModifier × Bytes :=
  match p with
  | [] => (plain, [])
  | char :: rest =>
      if char = 'h'.toUInt8 then once 'h' h hh rest
      else if char = 'l'.toUInt8 then once 'l' l ll rest
      else if char = 'j'.toUInt8 then (j, rest)
      else if char = 'z'.toUInt8 then (z, rest)
      else if char = 't'.toUInt8 then (t, rest)
      else if char = 'L'.toUInt8 then (L, rest)
      else (plain, p)

end LengthModifier

/-- An argument of a variadic call.  A wide string is its code units in front
of the first zero. -/
inductive Argument
  | word32 (bits : BitVec 32)
  | word64 (bits : BitVec 64)
  | double (bits : BitVec 64)
  | longDouble (bits : BitVec 128)
  | pointer (address : BitVec 64)
  | string (memory : Option Bytes)
  | wide (units : Option (List Nat))
  deriving DecidableEq

/-- One round of `iconv` from `WCHAR_T` to `UTF-8`, `none` for `EILSEQ`. -/
def utf8OfUnit (unit : Nat) : Option Bytes :=
  if unit.isValidChar then
    some (String.utf8EncodeChar (Char.ofNat unit))
  else none

/-- The loop of `iconv`, which stops at the first code unit without room. -/
def iconv (room : Nat) : List Nat → Option Bytes
  | [] => some []
  | unit :: units =>
      match utf8OfUnit unit with
      | none => none
      | some bytes =>
          if bytes.length ≤ room then
            (iconv (room - bytes.length) units).map (bytes ++ ·)
          else some []

def wstrToMbsOrPlaceholder : Option (List Nat) → Bytes
  | none => ascii "(null)"
  | some units => (iconv maxStringCopy units).getD (ascii "[encoding error]")

/-- A string with its length in front, cut off at the limit. -/
def lengthPrefixed (text : Bytes) : Bytes :=
  encodeLE 2 (text.take maxStringCopy).length ++ text.take maxStringCopy

/-- What `_nei_log_payload_emit_arg` writes behind the type.  It takes the
argument with `va_arg`, which has no meaning for an argument of another type;
that is `none` here. -/
def recordBody (type : PayloadType) (modifier : LengthModifier) :
    Argument → Option Bytes
  | .word32 bits =>
      match type with
      | .i32 | .u32 => some (encodeLE 4 bits.toNat)
      | .char => some [UInt8.ofBitVec (bits.setWidth 8)]
      | _ => none
  | .word64 bits =>
      match type with
      | .i64 | .u64 => some (encodeLE 8 bits.toNat)
      | _ => none
  | .double bits =>
      if type = .double then some (encodeLE 8 bits.toNat) else none
  | .longDouble bits =>
      if type = .longDouble then some (encodeLE 16 bits.toNat) else none
  | .pointer address =>
      if type = .ptr then some (encodeLE 8 address.toNat) else none
  | .string memory =>
      if type = .cstr ∧ modifier ≠ .l then
        some (lengthPrefixed (cstr (memory.getD (ascii "(null)"))))
      else none
  | .wide units =>
      if type = .cstr ∧ modifier = .l then
        some (lengthPrefixed (cstr (wstrToMbsOrPlaceholder units)))
      else none

/-- What the payload has so far, and the arguments that are left. -/
structure Emission where
  payload : Bytes := []
  arguments : List Argument
  deriving DecidableEq

/-- `_nei_log_payload_emit_arg`: the writes of one record.  When one of them
has no room, the call fails as a whole. -/
def payloadEmitArg (cap : Nat) (emission : Emission) (type : PayloadType)
    (modifier : LengthModifier) : Option Emission :=
  match emission.arguments with
  | [] => none
  | argument :: arguments =>
      match recordBody type modifier argument with
      | none => none
      | some body =>
          if headerSize + emission.payload.length + body.length + 1 > cap then
            none
          else some ⟨emission.payload ++ type.tag :: body, arguments⟩

/-! ## The scanner -/

def payloadTypeFromSpec (spec : UInt8) (modifier : LengthModifier) :
    Option PayloadType :=
  if oneOf ['f', 'F', 'e', 'E', 'g', 'G', 'a', 'A'] spec then
    some (if modifier = .L then .longDouble else .double)
  else if oneOf ['d', 'i'] spec then
    some (if modifier.isShort then .i32 else .i64)
  else if oneOf ['u', 'x', 'X', 'o'] spec then
    some (if modifier.isShort then .u32 else .u64)
  else if spec = 'c'.toUInt8 then some .char
  else if spec = 's'.toUInt8 then some .cstr
  else if spec = 'p'.toUInt8 then some .ptr
  else none

/-- The callback has aborted the scan, or there is a `%n`. -/
inductive ScanFailure
  | aborted
  | rejected
  deriving DecidableEq

section Scan

variable {σ : Type} (emit : σ → PayloadType → LengthModifier → Option σ)

/-- A width or a precision. -/
def scanField (state : σ) : Bytes → Option (σ × Bytes)
  | [] => some (state, [])
  | char :: p =>
      if char = '*'.toUInt8 then (emit state .i32 .plain).map (·, p)
      else some (state, (char :: p).dropWhile isDigit)

def scanPrecision (state : σ) : Bytes → Option (σ × Bytes)
  | [] => some (state, [])
  | char :: p =>
      if char = '.'.toUInt8 then scanField emit state p
      else some (state, char :: p)

/-- What stands between the percent sign and the length modifier. -/
def scanFields (state : σ) (p : Bytes) : Option (σ × Bytes) :=
  (scanField emit state (p.dropWhile isFlagChar)).bind fun (state, p) =>
    scanPrecision emit state p

/-- `_nei_log_scan_fmt_emit_ops`.  A round of the loop takes at least one
character, so the length of the format is enough fuel. -/
def scanFmtEmitOps : Nat → Bytes → σ → Except ScanFailure σ
  | 0, _, state | _ + 1, [], state => .ok state
  | fuel + 1, char :: p, state =>
      if char ≠ '%'.toUInt8 then scanFmtEmitOps fuel p state
      else if p.head? = some '%'.toUInt8 then
        scanFmtEmitOps fuel p.tail state
      else
        match scanFields emit state p with
        | none => .error .aborted
        | some (state, p) =>
            match LengthModifier.scan p with
            | (_, []) => .ok state
            | (modifier, spec :: p) =>
                if spec = 'n'.toUInt8 then .error .rejected
                else
                  match payloadTypeFromSpec spec modifier with
                  | none => scanFmtEmitOps fuel p state
                  | some type =>
                      match emit state type modifier with
                      | none => .error .aborted
                      | some state => scanFmtEmitOps fuel p state

end Scan

/-! ## The plan of a format -/

abbrev PlanOp := PayloadType × LengthModifier

/-- `_nei_log_fmt_plan_cache_st`; `fmt` is an address. -/
structure FmtPlanCache where
  fmt : Option Nat := none
  ops : List PlanOp := []
  ready : Bool := false
  reject : Bool := false
  deriving DecidableEq

def fmtPlanEmit (ops : List PlanOp) (type : PayloadType)
    (modifier : LengthModifier) : Option (List PlanOp) :=
  if ops.length ≥ fmtPlanMaxOps then none else some (ops ++ [(type, modifier)])

/-- `_nei_log_build_fmt_plan`.  The operations of a plan that is not ready are
not used and are left out. -/
def buildFmtPlan (address : Nat) (fmt : Bytes) : FmtPlanCache :=
  match scanFmtEmitOps fmtPlanEmit fmt.length fmt [] with
  | .ok ops => { fmt := some address, ops, ready := true }
  | .error .aborted => { fmt := some address }
  | .error .rejected => { fmt := some address, reject := true }

def emitOps (cap : Nat) : Emission → List PlanOp → Option Emission
  | emission, [] => some emission
  | emission, (type, modifier) :: ops =>
      match payloadEmitArg cap emission type modifier with
      | none => none
      | some emission => emitOps cap emission ops

/-! ## Events -/

/-- What a log call knows of its place. -/
structure Site where
  configHandle : Nat
  level : Int
  file : Option Bytes
  line : Int
  func : Option Bytes
  verbose : Int
  timestampNs : Nat
  threadId : Bytes
  deriving DecidableEq

/-- A pointer with what stands there at the time of the call. -/
structure Format where
  address : Nat
  memory : Bytes
  deriving DecidableEq

structure LogCall where
  site : Site
  fmt : Option Format
  arguments : List Argument
  deriving DecidableEq

structure EventHeader where
  timestampNs : Nat
  configHandle : Nat
  level : Int
  line : Int
  verbose : Int
  threadId : Bytes
  file : Bytes
  func : Bytes
  fmt : Bytes
  deriving DecidableEq

/-- The header fills its space behind `total_size` with these fields and
zeros. -/
structure Event where
  totalSize : Nat
  header : EventHeader
  payload : Bytes
  deriving DecidableEq

def strcpyTrunc (cap : Nat) : Option Bytes → Bytes
  | none => []
  | some source => (cstr source).take (cap - 1)

def Site.header (site : Site) (fmt : Bytes) : EventHeader where
  timestampNs := site.timestampNs
  configHandle := site.configHandle
  level := site.level
  line := site.line
  verbose := site.verbose
  threadId := site.threadId
  file := strcpyTrunc maxFileCopy site.file
  func := strcpyTrunc maxFuncCopy site.func
  fmt := strcpyTrunc maxFmtCopy (some fmt)

def alignUp8 (size : Nat) : Nat :=
  (size + 7) / 8 * 8

/-- `_nei_log_payload_write_padded_zero` up to the aligned size. -/
def padPayload (cap : Nat) (payload : Bytes) : Option Bytes :=
  let used := headerSize + payload.length
  if alignUp8 used > cap then none
  else some (payload ++ List.replicate (alignUp8 used - used) 0)

/-- The end of both paths. -/
def closeEvent (cap : Nat) (site : Site) (fmt : Format)
    (emission : Emission) : Option Event :=
  (padPayload cap emission.payload).map fun payload =>
    { totalSize := headerSize + payload.length
      header := site.header fmt.memory
      payload }

/-- The records of a format as the scanner meets its conversions. -/
def scanRecords (cap : Nat) (fmt : Bytes) (arguments : List Argument) :
    Option Emission :=
  match scanFmtEmitOps (payloadEmitArg cap) fmt.length fmt { arguments } with
  | .ok emission => some emission
  | .error _ => none

/-- `_nei_log_serialize_event`, with the plan that the thread keeps. -/
def serializeEvent (cap : Nat) (cache : FmtPlanCache) (call : LogCall) :
    FmtPlanCache × Option Event :=
  match call.fmt with
  | none => (cache, none)
  | some fmt =>
      if cap < headerSize then (cache, none)
      else
        let plan := if cache.fmt ≠ some fmt.address then
          buildFmtPlan fmt.address (cstr fmt.memory) else cache
        if cache.fmt ≠ some fmt.address ∧ plan.reject then (plan, none)
        else if plan.ready ∧ ¬plan.reject then
          (plan, (emitOps cap { arguments := call.arguments } plan.ops).bind
            (closeEvent cap call.site fmt))
        else
          (plan, (scanRecords cap (cstr fmt.memory) call.arguments).bind
            (closeEvent cap call.site fmt))

def serializeEvents (cap : Nat) : FmtPlanCache → List LogCall →
    List (Option Event)
  | _, [] => []
  | cache, call :: calls =>
      (serializeEvent cap cache call).2 ::
        serializeEvents cap (serializeEvent cap cache call).1 calls

end Libnei.Log.Events

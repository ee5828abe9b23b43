import Libnei.Bytes
import Libnei.Lib.BigEndian

/-!
# WebSocket data framing

`WebSocketFrameParser` reads frames from the wire and
`WebSocketFrameBuilder` writes them.  Memory is taken to be unbounded:
growing a payload never fails.
-/

namespace Libnei.WebSocket

open Libnei.Lib

/-- `enum class WebSocketOpcode`, the 4-bit frame type.  Opcodes that have no
enumerator are values of the type as well. -/
structure WebSocketOpcode where
  code : Fin 16
deriving DecidableEq

namespace WebSocketOpcode

def continuation : WebSocketOpcode := ⟨0x0⟩
def text : WebSocketOpcode := ⟨0x1⟩
def binary : WebSocketOpcode := ⟨0x2⟩
def close : WebSocketOpcode := ⟨0x8⟩
def ping : WebSocketOpcode := ⟨0x9⟩
def pong : WebSocketOpcode := ⟨0xA⟩

/-- `static_cast<uint8_t>(opcode)`. -/
def toByte (opcode : WebSocketOpcode) : UInt8 :=
  opcode.code.val.toUInt8

/-- `static_cast<WebSocketOpcode>(byte & 0x0F)`. -/
def ofByte (byte : UInt8) : WebSocketOpcode :=
  ⟨Fin.ofNat 16 (byte &&& 0x0F).toNat⟩

end WebSocketOpcode

/-- `struct WebSocketFrame` with its default member initializers. -/
structure WebSocketFrame where
  fin : Bool := true
  opcode : WebSocketOpcode := .text
  masked : Bool := false
  maskingKey : Bytes := []
  payload : Bytes := []
deriving DecidableEq

/-- `WebSocketFrameBuilder::ApplyMask`. -/
def applyMask (maskingKey data : Bytes) : Bytes :=
  data.mapIdx fun index byte => byte ^^^ maskingKey.getD (index % 4) 0

/-! ## Parser -/

/-- `WebSocketFrameParser::State`. -/
inductive State where
  | header
  | extendedLen16
  | extendedLen64
  | maskingKey
  | payload
  | complete
  | error
deriving DecidableEq

/-- The members of `WebSocketFrameParser`.  No more payload bytes are counted
as read than the payload has. -/
@[ext] structure WebSocketFrameParser where
  state : State := .header
  frame : WebSocketFrame := {}
  payloadRead : Nat := 0
  payloadRead_le : payloadRead ≤ frame.payload.length := by exact Nat.zero_le _
deriving DecidableEq

namespace WebSocketFrameParser

def isFrameComplete (parser : WebSocketFrameParser) : Bool :=
  parser.state == .complete

/-- `Reset`, whatever the parser was doing. -/
def reset : WebSocketFrameParser := {}

/-- The state entered once the payload length is known. -/
def afterLength (masked : Bool) : State :=
  if masked then .maskingKey else .payload

/-- `frame_.payload.resize(size); payload_read_ = 0;` and the change of state
that follows it. -/
def sized (frame : WebSocketFrame) (size : Nat) : WebSocketFrameParser :=
  { state := afterLength frame.masked
    frame := { frame with payload := frame.payload.resize size }
    payloadRead := 0
    payloadRead_le := Nat.zero_le _ }

/-- What one round of the loop in `Parse` comes to. -/
inductive Round where
  /-- The field is incomplete: `return consumed`. -/
  | incomplete
  /-- A field, or a part of the payload, was read. -/
  | read (parser : WebSocketFrameParser) (rest : Bytes)
  /-- `return -1`. -/
  | failed (parser : WebSocketFrameParser)

/-- `case State::kHeader`. -/
def readHeader (parser : WebSocketFrameParser) : Bytes → Round
  | byte0 :: byte1 :: rest =>
      let frame := { parser.frame with
        fin := (byte0 &&& 0x80) != 0
        opcode := .ofByte byte0
        masked := (byte1 &&& 0x80) != 0 }
      let payloadLen7 := byte1 &&& 0x7F
      if payloadLen7 < 126 then
        .read (sized frame payloadLen7.toNat) rest
      else if payloadLen7 == 126 then
        .read { state := .extendedLen16, frame := frame
                payloadRead := parser.payloadRead
                payloadRead_le := parser.payloadRead_le } rest
      else
        .read { state := .extendedLen64, frame := frame
                payloadRead := parser.payloadRead
                payloadRead_le := parser.payloadRead_le } rest
  | _ => .incomplete

/-- `case State::kExtendedLen16`. -/
def readExtendedLen16 (parser : WebSocketFrameParser) : Bytes → Round
  | byte0 :: byte1 :: rest =>
      .read (sized parser.frame (decodeBE [byte0, byte1])) rest
  | _ => .incomplete

/-- `case State::kExtendedLen64`. -/
def readExtendedLen64 (parser : WebSocketFrameParser) (input : Bytes) : Round :=
  if input.length < 8 then .incomplete
  else
    let extLen := decodeBE (input.take 8)
    -- Only a narrower `size_t` makes this test succeed.
    if extLen > sizeMax then .failed { parser with state := .error }
    else .read (sized parser.frame extLen) (input.drop 8)

/-- `case State::kMaskingKey`. -/
def readMaskingKey (parser : WebSocketFrameParser) (input : Bytes) : Round :=
  if input.length < 4 then .incomplete
  else
    .read { state := .payload
            frame := { parser.frame with maskingKey := input.take 4 }
            payloadRead := parser.payloadRead
            payloadRead_le := parser.payloadRead_le } (input.drop 4)

/-- The bytes copied by one round of `case State::kPayload`. -/
def toCopy (parser : WebSocketFrameParser) (input : Bytes) : Bytes :=
  input.take (parser.frame.payload.length - parser.payloadRead)

theorem toCopy_inside (parser : WebSocketFrameParser) (input : Bytes) :
    parser.payloadRead + (parser.toCopy input).length ≤
      parser.frame.payload.length := by
  have read := parser.payloadRead_le
  simp only [toCopy, List.length_take]
  omega

/-- `memcpy(frame_.payload.data() + payload_read_, p, to_copy)` and
`payload_read_ += to_copy`. -/
def copied (parser : WebSocketFrameParser) (input : Bytes) :
    WebSocketFrameParser :=
  { state := parser.state
    frame := { parser.frame with
      payload :=
        parser.frame.payload.overwrite parser.payloadRead
          (parser.toCopy input) }
    payloadRead := parser.payloadRead + (parser.toCopy input).length
    payloadRead_le := by
      rw [Bytes.overwrite_length _ _ _ (parser.toCopy_inside input)]
      exact parser.toCopy_inside input }

/-- Unmasking and completing a frame whose payload is all there. -/
def completed (parser : WebSocketFrameParser) : WebSocketFrameParser :=
  { state := .complete
    frame := { parser.frame with
      payload :=
        if parser.frame.masked && !parser.frame.maskingKey.isEmpty then
          applyMask parser.frame.maskingKey parser.frame.payload
        else parser.frame.payload }
    payloadRead := parser.payloadRead
    payloadRead_le := by
      have read := parser.payloadRead_le
      split <;> simpa [applyMask] using read }

/-- `case State::kPayload`. -/
def readPayload (parser : WebSocketFrameParser) (input : Bytes) : Round :=
  let parser' := parser.copied input
  let rest := input.drop (parser.toCopy input).length
  if parser'.payloadRead = parser'.frame.payload.length then
    .read parser'.completed rest
  else .read parser' rest

/-- One round of the loop in `Parse`. -/
def round (parser : WebSocketFrameParser) (input : Bytes) : Round :=
  match parser.state with
  | .header => parser.readHeader input
  | .extendedLen16 => parser.readExtendedLen16 input
  | .extendedLen64 => parser.readExtendedLen64 input
  | .maskingKey => parser.readMaskingKey input
  | .payload => parser.readPayload input
  | .complete | .error => .incomplete

/-- The guard of the loop in `Parse`. -/
def continues (parser : WebSocketFrameParser) (input : Bytes) : Bool :=
  !input.isEmpty && parser.state != .complete && parser.state != .error

/-- The loop in `Parse`: the returned count and the parser it leaves. -/
def parseLoop : Nat → WebSocketFrameParser → Bytes → Nat →
    Int × WebSocketFrameParser
  | 0, parser, _, consumed => (consumed, parser)
  | fuel + 1, parser, input, consumed =>
      if parser.continues input then
        match parser.round input with
        | .incomplete => (consumed, parser)
        | .read parser' rest =>
            parseLoop fuel parser' rest
              (consumed + (input.length - rest.length))
        | .failed parser' => (-1, parser')
      else (consumed, parser)

/-- `WebSocketFrameParser::Parse`.  Every round reads a byte or completes the
frame, so the fuel is never used up. -/
def parse (parser : WebSocketFrameParser) (data : Bytes) :
    Int × WebSocketFrameParser :=
  match parser.state with
  | .error => (-1, parser)
  | .complete => (0, parser)
  | _ => parseLoop (data.length + 1) parser data 0

end WebSocketFrameParser

/-! ## Builder -/

namespace WebSocketFrameBuilder

/-- The opcodes whose payload `Build` limits to 125 bytes. -/
def isControl (opcode : WebSocketOpcode) : Bool :=
  opcode == .close || opcode == .ping || opcode == .pong

/-- `seed = seed * 31 + payload[i]` over the first 32 bytes, in 32 bits. -/
def seed (payload : Bytes) : Nat :=
  (payload.take 32).foldl
    (fun seed byte => (seed * 31 + byte.toNat) % 2 ^ 32) 0

/-- The masking key derived from the payload. -/
def maskingKey (payload : Bytes) : Bytes :=
  [byteAt (seed payload) 24, byteAt (seed payload) 16,
    byteAt (seed payload) 8, byteAt (seed payload) 0]

/-- Byte 0: FIN and opcode. -/
def byte0 (fin : Bool) (opcode : WebSocketOpcode) : UInt8 :=
  if fin then opcode.toByte ||| 0x80 else opcode.toByte

/-- Byte 1 before the MASK bit is set, and the extended length. -/
def lengthField (payloadLen : Nat) : UInt8 × Bytes :=
  if payloadLen < 126 then (payloadLen.toUInt8, [])
  else if payloadLen ≤ 0xFFFF then
    (126, [byteAt payloadLen 8, byteAt payloadLen 0])
  else
    (127, (List.range 8).map fun index => byteAt payloadLen (56 - index * 8))

/-- `WebSocketFrameBuilder::Build`. -/
def build (fin : Bool) (opcode : WebSocketOpcode) (masked : Bool)
    (payload : Bytes) : Bytes :=
  let payload :=
    if isControl opcode && payload.length > 125 then payload.take 125
    else payload
  let (byte1, extended) := lengthField payload.length
  if masked then
    byte0 fin opcode :: (byte1 ||| 0x80) :: extended ++ maskingKey payload ++
      applyMask (maskingKey payload) payload
  else
    byte0 fin opcode :: byte1 :: extended ++ payload

/-- `WebSocketFrameBuilder::BuildClose`. -/
def buildClose (code : UInt16) (reason : Bytes) : Bytes :=
  build true .close false
    (byteAt code.toNat 8 :: byteAt code.toNat 0 :: reason.take 123)

/-- `WebSocketFrameBuilder::BuildText`. -/
def buildText (text : Bytes) : Bytes :=
  build true .text false text

/-- `WebSocketFrameBuilder::BuildPing`. -/
def buildPing (payload : Bytes) : Bytes :=
  build true .ping false (payload.take 125)

/-- `WebSocketFrameBuilder::BuildPong`. -/
def buildPong (payload : Bytes) : Bytes :=
  build true .pong false (payload.take 125)

end WebSocketFrameBuilder

end Libnei.WebSocket

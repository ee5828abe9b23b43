import Libnei.WebSocket.FrameStream

/-!
# Built frames read back

The bytes of `WebSocketFrameBuilder::Build` are given to a fresh
`WebSocketFrameParser`.  The loop of `Parse` runs only while input is left,
and the round that completes a frame is the payload round.  A frame without
payload has no byte left for that round.
-/

namespace Libnei.WebSocket

open Libnei.Lib WebSocketFrameParser WebSocketFrameBuilder

/-! ## Rounds without fuel -/

variable {parser : WebSocketFrameParser} {lengthByte : Nat} {payload : Bytes}

namespace WebSocketFrameParser

theorem parseLoop_fuel {fuel fuel' : Nat} {input : Bytes}
    (enough : input.length < fuel) (enough' : input.length < fuel')
    (consumed : Nat) :
    parseLoop fuel parser input consumed =
      parseLoop fuel' parser input consumed := by
  induction fuel generalizing fuel' parser input consumed with
  | zero => omega
  | succ fuel ih =>
    cases fuel' with
    | zero => omega
    | succ fuel' =>
      by_cases goes : parser.continues input = true
      · rcases round_spec goes with incomplete |
          ⟨front, rest, parser', rfl, read, _, progress⟩
        · simp [parseLoop, goes, incomplete]
        · simp only [parseLoop, goes, read, if_true]
          by_cases empty : front = []
          · have finished := (progress empty).2
            rw [parseLoop_of_complete finished, parseLoop_of_complete finished]
          · have some := List.length_pos_of_ne_nil empty
            simp only [List.length_append] at enough enough'
            exact ih (by omega) (by omega) _
      · simp [parseLoop, goes]

/-- The loop of `Parse` with the fuel that its input needs. -/
def loop (parser : WebSocketFrameParser) (input : Bytes) (consumed : Nat) :
    Int × WebSocketFrameParser :=
  parseLoop (input.length + 1) parser input consumed

theorem loop_read {parser' : WebSocketFrameParser} {input front rest : Bytes}
    (splits : input = front ++ rest) (goes : parser.continues input = true)
    (read : parser.round input = .read parser' rest) (consumed : Nat) :
    parser.loop input consumed =
      parser'.loop rest (consumed + front.length) := by
  have count : input.length - rest.length = front.length := by
    simp [splits]
  have unfold : parser.loop input consumed =
      parseLoop input.length parser' rest (consumed + front.length) := by
    simp only [loop, parseLoop, goes, read, if_true, count]
  rw [unfold]
  cases finished : parser'.isFrameComplete with
  | true =>
    rw [loop, parseLoop_of_complete finished, parseLoop_of_complete finished]
  | false =>
    rcases round_spec goes with incomplete |
      ⟨front', rest', parser'', splits', read', _, progress⟩
    · simp [incomplete] at read
    · obtain ⟨rfl, rfl⟩ : parser'' = parser' ∧ rest' = rest := by
        simpa [read] using read'.symm
      have nonempty : front' ≠ [] := fun empty => by
        simp [(progress empty).2] at finished
      have some := List.length_pos_of_ne_nil nonempty
      refine parseLoop_fuel ?_ (Nat.lt_succ_self _) _
      rw [splits', List.length_append]
      omega

theorem loop_nil (parser : WebSocketFrameParser) (consumed : Nat) :
    parser.loop [] consumed = (↑consumed, parser) := by
  simp [loop, parseLoop, continues]

theorem loop_of_complete (finished : parser.isFrameComplete = true)
    (input : Bytes) (consumed : Nat) :
    parser.loop input consumed = (↑consumed, parser) :=
  parseLoop_of_complete finished _ _ _

theorem parse_fresh (data : Bytes) : parse reset data = loop reset data 0 := rfl

end WebSocketFrameParser

/-! ## The header bytes -/

variable (fin : Bool)

variable (opcode : WebSocketOpcode)

theorem byte0_fin : ((byte0 fin opcode &&& 0x80) != 0) = fin := by
  obtain ⟨code⟩ := opcode
  cases fin <;> revert code <;> decide

theorem byte0_opcode : WebSocketOpcode.ofByte (byte0 fin opcode) = opcode := by
  obtain ⟨code⟩ := opcode
  cases fin <;> revert code <;> decide

/-- Byte 1 with the MASK bit set when the frame is masked. -/
def byte1 (masked : Bool) (lengthByte : UInt8) : UInt8 :=
  if masked then lengthByte ||| 0x80 else lengthByte

variable (masked : Bool)

theorem byte1_fields (small : lengthByte < 128) :
    ((byte1 masked lengthByte.toUInt8 &&& 0x80) != 0) = masked ∧
      byte1 masked lengthByte.toUInt8 &&& 0x7F = lengthByte.toUInt8 := by
  have all : ∀ value : Fin 128,
      ((byte1 masked value.val.toUInt8 &&& 0x80) != 0) = masked ∧
        byte1 masked value.val.toUInt8 &&& 0x7F = value.val.toUInt8 := by
    cases masked <;> decide +kernel
  exact all ⟨lengthByte, small⟩

theorem lengthField16 (length : Nat) :
    [byteAt length 8, byteAt length 0] = encodeBE 2 length := rfl

theorem lengthField64 (length : Nat) :
    ((List.range 8).map fun index => byteAt length (56 - index * 8)) =
      encodeBE 8 length := by
  refine List.map_congr_left ?_
  intro index member
  have below : index < 8 := List.mem_range.mp member
  have shift : 56 - index * 8 = 8 * (8 - 1 - index) := by omega
  rw [shift]

/-- The frame as the parser knows it when the length has been read. -/
def announced (fin : Bool) (opcode : WebSocketOpcode) (masked : Bool) :
    WebSocketFrame :=
  { fin := fin, opcode := opcode, masked := masked }

theorem header_round (small : lengthByte < 128) (rest : Bytes) :
    WebSocketFrameParser.round reset
        (byte0 fin opcode :: byte1 masked lengthByte.toUInt8 :: rest) =
      if lengthByte < 126 then
        .read (sized (announced fin opcode masked) lengthByte) rest
      else if lengthByte = 126 then
        .read { state := .extendedLen16
                frame := announced fin opcode masked } rest
      else
        .read { state := .extendedLen64
                frame := announced fin opcode masked } rest := by
  obtain ⟨masked1, length1⟩ := byte1_fields masked small
  have toNat : lengthByte.toUInt8.toNat = lengthByte := by
    simp only [Nat.toUInt8, UInt8.toNat_ofNat']
    omega
  have below : lengthByte.toUInt8 < 126 ↔ lengthByte < 126 := by
    rw [UInt8.lt_iff_toNat_lt, toNat]
    rfl
  have isTwo : lengthByte.toUInt8 = 126 ↔ lengthByte = 126 := by
    rw [← UInt8.toNat_inj, toNat]
    rfl
  simp only [WebSocketFrameParser.round, reset, readHeader, byte0_fin,
    byte0_opcode, masked1, length1, below, toNat, beq_iff_eq, isTwo,
    announced]

theorem loop_lengthField {length : Nat} (fits : length < 2 ^ 64)
    (tail : Bytes) :
    loop reset (byte0 fin opcode :: byte1 masked (lengthField length).1 ::
        ((lengthField length).2 ++ tail)) 0 =
      (sized (announced fin opcode masked) length).loop tail
        (2 + (lengthField length).2.length) := by
  have header {lengthByte : Nat} (small : lengthByte < 128)
      {parser' : WebSocketFrameParser} {rest : Bytes}
      (read : WebSocketFrameParser.round reset (byte0 fin opcode ::
        byte1 masked lengthByte.toUInt8 :: rest) = .read parser' rest) :
      loop reset (byte0 fin opcode :: byte1 masked lengthByte.toUInt8 :: rest)
          0 = parser'.loop rest 2 :=
    loop_read (List.append_cons
      [byte0 fin opcode] (byte1 masked lengthByte.toUInt8) rest)
      (by simp [continues, reset]) read 0
  by_cases short : length < 126
  · have small : length < 128 := by omega
    have read := header_round fin opcode masked small tail
    rw [if_pos short] at read
    simpa [lengthField, short] using header small read
  · by_cases medium : length ≤ 0xFFFF
    · have read := header_round fin opcode masked
        (show 126 < 128 by decide) (encodeBE 2 length ++ tail)
      rw [if_neg (by decide), if_pos rfl] at read
      have extended : WebSocketFrameParser.round
          { state := .extendedLen16, frame := announced fin opcode masked }
          (encodeBE 2 length ++ tail) =
          .read (sized (announced fin opcode masked) length) tail := by
        have value : decodeBE [byteAt length 8, byteAt length 0] = length :=
          decodeBE_encodeBE (show length < 256 ^ 2 by omega)
        rw [← lengthField16]
        simp only [WebSocketFrameParser.round, readExtendedLen16,
          List.cons_append, List.nil_append, value]
      simp only [lengthField, short, medium, if_true, if_false, lengthField16]
      exact (header (by decide) read).trans
        (loop_read rfl (by simp [continues, ← lengthField16]) extended 2)
    · have read := header_round fin opcode masked
        (show 127 < 128 by decide) (encodeBE 8 length ++ tail)
      rw [if_neg (by decide), if_neg (by decide)] at read
      have extended : WebSocketFrameParser.round
          { state := .extendedLen64, frame := announced fin opcode masked }
          (encodeBE 8 length ++ tail) =
          .read (sized (announced fin opcode masked) length) tail := by
        have value : decodeBE (encodeBE 8 length) = length :=
          decodeBE_encodeBE (by omega)
        have accepted : ¬length > sizeMax := by
          simp only [sizeMax]
          omega
        have width := encodeBE_length 8 length
        have enough : ¬(encodeBE 8 length ++ tail).length < 8 := by
          simp
        simp only [WebSocketFrameParser.round, readExtendedLen64]
        rw [if_neg enough, List.take_left' width, List.drop_left' width,
          value, if_neg accepted]
      have nonempty : encodeBE 8 length ≠ [] := by
        refine List.ne_nil_of_length_pos ?_
        simp
      simp only [lengthField, short, medium, if_false, lengthField64]
      exact (header (by decide) read).trans
        (loop_read rfl (by simp [continues, nonempty]) extended 2)

/-! ## Masking key and payload -/

theorem applyMask_applyMask (key payload : Bytes) :
    applyMask key (applyMask key payload) = payload := by
  apply List.ext_getElem
  · simp [applyMask]
  · intro index _ _
    simp only [applyMask, List.getElem_mapIdx, UInt8.xor_assoc,
      UInt8.xor_self, UInt8.xor_zero]

@[simp] theorem applyMask_length (key payload : Bytes) :
    (applyMask key payload).length = payload.length := by
  simp [applyMask]

theorem loop_payload {body : Bytes} (state : parser.state = .payload)
    (start : parser.payloadRead = 0)
    (size : parser.frame.payload.length = body.length) (nonempty : body ≠ [])
    (consumed : Nat) :
    ∃ parser', parser.loop body consumed =
        (↑(consumed + body.length), parser') ∧
      parser'.isFrameComplete = true ∧
      parser'.frame = { parser.frame with
        payload :=
          if parser.frame.masked && !parser.frame.maskingKey.isEmpty then
            applyMask parser.frame.maskingKey body
          else body } := by
  have copy : parser.toCopy body = body := by
    simp [toCopy, start, size]
  have filled : (parser.copied body).frame =
      { parser.frame with payload := body } := by
    have written : parser.frame.payload.overwrite 0 body = body := by
      simp [Bytes.overwrite, ← size]
    simp only [copied, copy, start, written]
  have whole : (parser.copied body).payloadRead =
      (parser.copied body).frame.payload.length := by
    rw [filled]
    simp [copied, copy, start]
  have read : parser.round body = .read (parser.copied body).completed [] := by
    simp [WebSocketFrameParser.round, state, readPayload, whole, copy]
  have finished : (parser.copied body).completed.isFrameComplete = true := by
    simp [isFrameComplete, completed]
  refine ⟨(parser.copied body).completed, ?_, finished, ?_⟩
  · rw [loop_read (List.append_nil body).symm
      (by simp [continues, nonempty, state]) read,
      loop_of_complete finished]
  · simp only [completed, filled]

theorem sized_announced_length (size : Nat) :
    (sized (announced fin opcode masked) size).frame.payload.length = size := by
  simp [sized]

/-- The parser that waits for the payload of a masked frame. -/
def keyed (fin : Bool) (opcode : WebSocketOpcode) (size : Nat)
    (key : Bytes) : WebSocketFrameParser :=
  { state := .payload
    frame :=
      { (sized (announced fin opcode true) size).frame with
        maskingKey := key }
    payloadRead := 0
    payloadRead_le := Nat.zero_le _ }

theorem loop_maskingKey (size : Nat) {key : Bytes} (width : key.length = 4)
    (body : Bytes) (consumed : Nat) :
    (sized (announced fin opcode true) size).loop (key ++ body) consumed =
      (keyed fin opcode size key).loop body (consumed + 4) := by
  have nonempty : key ≠ [] := by
    refine List.ne_nil_of_length_pos ?_
    omega
  have enough : ¬(key ++ body).length < 4 := by
    simp only [List.length_append]
    omega
  have read : (sized (announced fin opcode true) size).round (key ++ body) =
      .read (keyed fin opcode size key) body := by
    have taken : (key ++ body).take 4 = key := List.take_left' width
    have dropped : (key ++ body).drop 4 = body := List.drop_left' width
    simp only [WebSocketFrameParser.round, sized, announced, afterLength,
      if_true, readMaskingKey]
    rw [if_neg enough]
    simp only [taken, dropped]
    rfl
  have goes : (sized (announced fin opcode true) size).continues
      (key ++ body) = true := by
    simp [continues, nonempty, sized, announced, afterLength]
  rw [← width]
  exact loop_read rfl goes read consumed

/-! ## The round trip -/

/-- A fresh parser given exactly the bytes of `Build` consumes them all, is
complete, and holds the frame that was built. -/
abbrev RoundTrips (fin : Bool) (opcode : WebSocketOpcode) (masked : Bool)
    (payload : Bytes) : Prop :=
  let bytes := build fin opcode masked payload
  let result := parse reset bytes
  result.1 = bytes.length ∧ result.2.isFrameComplete = true ∧
    result.2.frame.fin = fin ∧ result.2.frame.opcode = opcode ∧
    result.2.frame.masked = masked ∧ result.2.frame.payload = payload

theorem build_eq (control : isControl opcode = true → payload.length ≤ 125) :
    build fin opcode masked payload =
      byte0 fin opcode :: byte1 masked (lengthField payload.length).1 ::
        ((lengthField payload.length).2 ++
          if masked then
            maskingKey payload ++ applyMask (maskingKey payload) payload
          else payload) := by
  have kept : ¬(isControl opcode && decide (payload.length > 125)) = true := by
    intro cut
    simp only [Bool.and_eq_true, decide_eq_true_eq] at cut
    have bound := control cut.1
    omega
  simp only [build, if_neg kept]
  cases masked <;> simp [byte1]

/-- What the parser makes of the bytes of `Build`. -/
theorem parse_build (fits : payload.length < 2 ^ 64)
    (control : isControl opcode = true → payload.length ≤ 125) :
    parse reset (build fin opcode masked payload) =
      if masked then
        (keyed fin opcode payload.length (maskingKey payload)).loop
          (applyMask (maskingKey payload) payload)
          (2 + (lengthField payload.length).2.length + 4)
      else
        (sized (announced fin opcode false) payload.length).loop payload
          (2 + (lengthField payload.length).2.length) := by
  rw [build_eq fin opcode masked control, parse_fresh,
    loop_lengthField fin opcode masked fits]
  cases masked with
  | false => rfl
  | true => exact loop_maskingKey fin opcode payload.length rfl _ _

theorem roundTrips_of_nonempty (fits : payload.length < 2 ^ 64)
    (control : isControl opcode = true → payload.length ≤ 125)
    (nonempty : payload ≠ []) : RoundTrips fin opcode masked payload := by
  simp only [RoundTrips]
  rw [parse_build fin opcode masked fits control]
  have length := congrArg List.length (build_eq fin opcode masked control)
  cases masked with
  | false =>
    have waits : (sized (announced fin opcode false)
        payload.length).state = .payload := by
      simp [sized, announced, afterLength]
    obtain ⟨parser', looped, finished, frame⟩ :=
      loop_payload waits rfl (sized_announced_length _ _ _ _) nonempty
        (2 + (lengthField payload.length).2.length)
    simp only [Bool.false_eq_true, if_false, looped, finished, frame]
    simp only [List.length_cons, List.length_append, Bool.false_eq_true,
      if_false] at length
    refine ⟨by omega, trivial, rfl, rfl, rfl, ?_⟩
    simp [sized, announced]
  | true =>
    have maskedNonempty : applyMask (maskingKey payload) payload ≠ [] := by
      refine List.ne_nil_of_length_pos ?_
      rw [applyMask_length]
      exact List.length_pos_of_ne_nil nonempty
    have waits : (keyed fin opcode payload.length
        (maskingKey payload)).state = .payload := rfl
    obtain ⟨parser', looped, finished, frame⟩ :=
      loop_payload waits rfl (by simp [keyed, sized_announced_length])
        maskedNonempty (2 + (lengthField payload.length).2.length + 4)
    simp only [if_true, looped, finished, frame]
    simp only [List.length_cons, List.length_append, if_true,
      applyMask_length] at length ⊢
    have width : (maskingKey payload).length = 4 := rfl
    refine ⟨by omega, trivial, rfl, rfl, rfl, ?_⟩
    simp [keyed, sized, announced, maskingKey, applyMask_applyMask]

/-- Without payload the bytes end before the round that completes a
frame. -/
theorem not_roundTrips_nil : ¬RoundTrips fin opcode masked [] := by
  simp only [RoundTrips]
  rw [parse_build fin opcode masked (by simp) (by simp)]
  cases masked with
  | false =>
    simp only [Bool.false_eq_true, if_false, loop_nil]
    simp [isFrameComplete, sized, announced, afterLength]
  | true =>
    simp only [if_true, applyMask, List.mapIdx_nil, loop_nil]
    simp [isFrameComplete, keyed]

/-- A built frame reads back exactly when it carries a payload. -/
theorem roundTrips_iff_nonempty (fin : Bool) (opcode : WebSocketOpcode)
    (masked : Bool) (payload : Bytes) (fits : payload.length < 2 ^ 64)
    (control : isControl opcode = true → payload.length ≤ 125) :
    RoundTrips fin opcode masked payload ↔ payload ≠ [] := by
  constructor
  · rintro trips rfl
    exact not_roundTrips_nil fin opcode masked trips
  · exact roundTrips_of_nonempty fin opcode masked fits control

theorem roundTrips_iff_nonempty_maskedPing :
    RoundTrips true .ping true (ascii "hi") ↔ ascii "hi" ≠ [] :=
  roundTrips_iff_nonempty true .ping true (ascii "hi") (by decide)
    (by decide)

/-- The default `BuildPing()` is not read back. -/
theorem emptyPing_not_roundTrips : ¬RoundTrips true .ping false [] := by
  decide

end Libnei.WebSocket

import Libnei.WebSocket.ReadBoundaries
import Libnei.WebSocket.RoundTrip

/-!
# Sequences of frames

Frames are built one after the other and read in pieces of any size.  A frame
without payload is complete only when a byte of the next frame is there.
-/

namespace Libnei.WebSocket

open Libnei.Lib WebSocketFrameParser WebSocketFrameBuilder

/-- The arguments of a call of `Build`. -/
structure BuildCall where
  fin : Bool
  opcode : WebSocketOpcode
  masked : Bool
  payload : Bytes
  deriving DecidableEq

variable {left : Bytes} {frames : List WebSocketFrame}
  {final : WebSocketFrameParser}

namespace BuildCall

def bytes (call : BuildCall) : Bytes :=
  build call.fin call.opcode call.masked call.payload

/-- A call whose payload is not cut off. -/
def Regular (call : BuildCall) : Prop :=
  call.payload.length < 2 ^ 64 ∧
    (isControl call.opcode = true → call.payload.length ≤ 125)

def ofFrame (frame : WebSocketFrame) : BuildCall :=
  ⟨frame.fin, frame.opcode, frame.masked, frame.payload⟩

/-- All calls, but for a last one without payload. -/
def delivered : List BuildCall → List BuildCall
  | [] => []
  | [call] => if call.payload = [] then [] else [call]
  | call :: next :: calls => call :: delivered (next :: calls)

theorem drains_nil : frameReader.Drains reset [] [] reset [] := by
  apply Consumer.Drains.stop
  simp [frameReader, reset, isFrameComplete, continues]

theorem bytes_ne_nil (call : BuildCall) : call.bytes ≠ [] := by
  simp only [bytes, build]
  split <;> simp

variable {parser : WebSocketFrameParser} {call : BuildCall} {tail : Bytes}

theorem parsed_of_parse {data : Bytes}
    (result : parse reset data = (↑data.length, parser)) :
    Parsed reset data data [] parser := by
  obtain ⟨front, rest, parser', parsed, result'⟩ :=
    parse_spec reset data (by simp [reset])
  rw [result] at result'
  obtain ⟨count, rfl⟩ := Prod.mk.inj result'
  have splits := parsed.splits
  have lengths := congrArg List.length splits
  rw [List.length_append] at lengths
  obtain rfl : rest = [] := List.eq_nil_of_length_eq_zero (by omega)
  rw [List.append_nil] at splits
  subst splits
  exact parsed

theorem drains_of_payload (regular : call.Regular)
    (nonempty : call.payload ≠ []) :
    ∃ frame, ofFrame frame = call ∧
      frameReader.Drains reset call.bytes [frame] reset [] := by
  obtain ⟨length, finished, rest⟩ := roundTrips_of_nonempty call.fin
    call.opcode call.masked regular.1 regular.2 nonempty
  refine ⟨(parse reset call.bytes).2.frame, ?_, ?_⟩
  · obtain ⟨sameFin, sameOpcode, sameMasked, samePayload⟩ := rest
    simp only [ofFrame, bytes, sameFin, sameOpcode, sameMasked, samePayload]
  · exact (parsed_of_parse (Prod.ext length rfl)).of_complete finished
      drains_nil

/-- A parser that has read all of a frame without payload. -/
structure Waits (parser : WebSocketFrameParser) (call : BuildCall) : Prop where
  state : parser.state = .payload
  start : parser.payloadRead = 0
  frame : ofFrame parser.frame = call

theorem drains_of_nil (empty : call.payload = []) :
    ∃ parser, Waits parser call ∧
      frameReader.Drains reset call.bytes [] parser [] := by
  obtain ⟨fin, opcode, masked, payload⟩ := call
  subst empty
  have result := @parse_build [] fin opcode masked (by simp) (by simp)
  cases masked with
  | false =>
    have length : (build fin opcode false []).length = 2 := by
      simp [build, lengthField]
    rw [if_neg Bool.false_ne_true, loop_nil] at result
    rw [bytes]
    exact ⟨_, ⟨rfl, rfl, rfl⟩, (parsed_of_parse
      (result.trans (by rw [length]; rfl))).of_incomplete rfl⟩
  | true =>
    have length : (build fin opcode true []).length = 6 := by
      simp [build, lengthField, maskingKey, applyMask]
    rw [if_pos rfl, applyMask, List.mapIdx_nil, loop_nil] at result
    exact ⟨_, ⟨rfl, rfl, rfl⟩, (parsed_of_parse
      (result.trans (by rw [length]; rfl))).of_incomplete rfl⟩

/-- The next byte completes the frame, whatever it is. -/
theorem Waits.step (waits : Waits parser call) (empty : call.payload = [])
    (more : tail ≠ []) :
    ∃ frame, ofFrame frame = call ∧
      frameReader.step parser tail = some (reset, tail, [frame]) := by
  have nothing : parser.frame.payload = [] := by
    rw [← empty, ← waits.frame]
    rfl
  have copy : parser.toCopy tail = [] := by
    simp [toCopy, nothing]
  have copied : (parser.copied tail).frame = parser.frame := by
    simp [WebSocketFrameParser.copied, copy, Bytes.overwrite]
  have whole : (parser.copied tail).payloadRead =
      (parser.copied tail).frame.payload.length := by
    rw [copied, nothing]
    simp [WebSocketFrameParser.copied, copy, waits.start]
  have read : parser.round tail =
      .read (parser.copied tail).completed tail := by
    simp [WebSocketFrameParser.round, waits.state, readPayload, whole, copy]
  refine ⟨(parser.copied tail).completed.frame, ?_, ?_⟩
  · simp [completed, copied, ofFrame, nothing, applyMask, ← waits.frame]
  · exact (frameReader_step_of_read
      (by simp [continues, more, waits.state]) read).trans (if_pos rfl)

theorem drains_append (regular : call.Regular) (more : tail ≠ [])
    (drains : frameReader.Drains reset tail frames final left) :
    ∃ frame, ofFrame frame = call ∧
      frameReader.Drains reset (call.bytes ++ tail) (frame :: frames) final
        left := by
  by_cases empty : call.payload = []
  · obtain ⟨parser, waits, drained⟩ := drains_of_nil empty
    obtain ⟨frame, same, step⟩ := waits.step empty more
    exact ⟨frame, same, Consumer.Drains.append frameReader_absorbing drained
      (.next step drains)⟩
  · obtain ⟨frame, same, drained⟩ := drains_of_payload regular empty
    exact ⟨frame, same, Consumer.Drains.append frameReader_absorbing drained
      drains⟩

theorem drains_delivered (calls : List BuildCall)
    (regular : ∀ call ∈ calls, call.Regular) :
    ∃ frames final, frames.map ofFrame = delivered calls ∧
      frameReader.Drains reset (calls.flatMap bytes) frames final [] := by
  induction calls using delivered.induct with
  | case1 => exact ⟨[], reset, rfl, drains_nil⟩
  | case2 call empty =>
    obtain ⟨parser, -, drained⟩ := drains_of_nil empty
    exact ⟨[], parser, by simp [delivered, empty], by simpa using drained⟩
  | case3 call nonempty =>
    obtain ⟨frame, same, drained⟩ :=
      drains_of_payload (regular call List.mem_cons_self) nonempty
    exact ⟨[frame], reset, by simp [delivered, nonempty, same],
      by simpa using drained⟩
  | case4 call next calls ih =>
    obtain ⟨frames, final, same, drains⟩ := ih fun other member =>
      regular other (List.mem_cons_of_mem _ member)
    obtain ⟨frame, here, whole⟩ := drains_append
      (regular call List.mem_cons_self) (by simp [bytes_ne_nil]) drains
    exact ⟨frame :: frames, final, by simp [delivered, same, here], whole⟩

/-- With any byte behind them, all frames are complete. -/
theorem drains_calls {calls : List BuildCall}
    (regular : ∀ call ∈ calls, call.Regular) (more : tail ≠ [])
    (drains : frameReader.Drains reset tail frames final left) :
    ∃ front, front.map ofFrame = calls ∧
      frameReader.Drains reset (calls.flatMap bytes ++ tail) (front ++ frames)
        final left := by
  induction calls with
  | nil => exact ⟨[], rfl, drains⟩
  | cons call calls ih =>
    obtain ⟨front, same, rest⟩ := ih fun other member =>
      regular other (List.mem_cons_of_mem _ member)
    obtain ⟨frame, here, whole⟩ := drains_append
      (regular call List.mem_cons_self) (by simp [more]) rest
    exact ⟨frame :: front, by rw [List.map_cons, same, here],
      by simpa using whole⟩

end BuildCall

theorem Receiver.foldl_read_eq {pieces : List Bytes}
    (drains : frameReader.Drains reset pieces.flatten frames final left) :
    pieces.foldl Receiver.read {} = ⟨final, left, frames⟩ := by
  have fresh : (reset : WebSocketFrameParser).state ≠ .error := by
    simp [reset]
  have idle : Receiver.read {} [] = {} :=
    Receiver.drain_eq fresh BuildCall.drains_nil
  have whole := Receiver.foldl_read {} fresh pieces []
  rw [idle, List.nil_append] at whole
  exact whole.trans (Receiver.drain_eq fresh drains)

/-- Whatever frames are built and however their bytes are cut into reads, the
receiver hands out these frames in order and keeps no byte; only a last frame
without payload is held back.  With the next byte, whatever it is, the
receiver has handed out all of them. -/
theorem built_frames_arrive (calls : List BuildCall)
    (regular : ∀ call ∈ calls, call.Regular) (pieces : List Bytes)
    (cut : pieces.flatten = calls.flatMap BuildCall.bytes) :
    (pieces.foldl Receiver.read {}).frames.map BuildCall.ofFrame =
        BuildCall.delivered calls ∧
      (pieces.foldl Receiver.read {}).buffer = [] ∧
      ∀ more ≠ [], calls <+: ((pieces ++ [more]).foldl Receiver.read
        {}).frames.map BuildCall.ofFrame := by
  obtain ⟨frames, final, same, drains⟩ :=
    BuildCall.drains_delivered calls regular
  rw [Receiver.foldl_read_eq (cut ▸ drains)]
  refine ⟨same, rfl, fun more some => ?_⟩
  obtain ⟨-, later, -, drained⟩ := Receiver.drain_drains
    { buffer := more } (by simp [reset])
  obtain ⟨front, all, whole⟩ := BuildCall.drains_calls regular some drained
  have ends : (pieces ++ [more]).flatten =
      calls.flatMap BuildCall.bytes ++ more := by
    rw [List.flatten_append, cut]
    simp
  rw [Receiver.foldl_read_eq (ends ▸ whole), List.map_append, all]
  exact List.prefix_append ..

/-- A ping without payload, a masked text, and another ping. -/
def pingAndText : List BuildCall :=
  [⟨true, .ping, false, []⟩, ⟨true, .text, true, ascii "hi"⟩,
    ⟨true, .ping, true, []⟩]

/-- The second ping is handed out when a further byte comes. -/
theorem built_frames_arrive_pingAndText :
    let bytes := pingAndText.flatMap BuildCall.bytes
    let pieces := [bytes.take 3, [], bytes.drop 3]
    (pieces.foldl Receiver.read {}).frames.map BuildCall.ofFrame =
        pingAndText.take 2 ∧
      pingAndText <+: ((pieces ++ [[0x81]]).foldl Receiver.read
        {}).frames.map BuildCall.ofFrame := by
  obtain ⟨frames, -, more⟩ := built_frames_arrive pingAndText
    (by simp [pingAndText, BuildCall.Regular, ascii]) _
      (show [(pingAndText.flatMap BuildCall.bytes).take 3, [],
        (pingAndText.flatMap BuildCall.bytes).drop 3].flatten = _ by simp)
  exact ⟨frames, more [0x81] (by simp)⟩

end Libnei.WebSocket

import Libnei.WebSocket.FrameStream

/-!
# Read boundaries cannot be observed in the frame stream

A receiver appends every read to its buffer and calls `Parse` on what is
pending for as long as that makes progress.  Whatever the reads were cut
into, it ends up as if all bytes had arrived in one read.
-/

namespace Libnei.WebSocket

open Libnei.Lib WebSocketFrameParser

/-- A user of the parser: what it has buffered and which frames it has
handed out. -/
@[ext] structure Receiver where
  parser : WebSocketFrameParser := .reset
  buffer : Bytes := []
  frames : List WebSocketFrame := []

namespace Receiver

/-- Twice the pending bytes, and one for a parser inside a frame: a frame
without payload is completed without reading. -/
def pending (parser : WebSocketFrameParser) (buffer : Bytes) : Nat :=
  2 * buffer.length + if parser.state = .header then 0 else 1

variable {parser : WebSocketFrameParser} {consumed : Int} {receiver : Receiver}

theorem pending_decreases {parser' : WebSocketFrameParser} {buffer : Bytes}
    (parsed : parser.parse buffer = (consumed, parser'))
    (accepted : ¬consumed < 0) :
    (parser'.isFrameComplete = true →
        pending reset (buffer.drop consumed.toNat) < pending parser buffer) ∧
      (consumed ≠ 0 → pending parser' (buffer.drop consumed.toNat) <
          pending parser buffer) := by
  have state : parser.state ≠ .error := by
    intro failed
    simp only [parse, failed, Prod.mk.injEq] at parsed
    omega
  obtain ⟨front, rest, final, spec, result⟩ := parse_spec parser buffer state
  rw [result] at parsed
  obtain ⟨rfl, rfl⟩ : (↑front.length : Int) = consumed ∧ final = parser' := by
    simpa using parsed
  have dropped : buffer.drop (front.length : Int).toNat = rest := by
    rw [spec.splits]
    simp
  have total : buffer.length = front.length + rest.length := by
    rw [spec.splits, List.length_append]
  rw [dropped]
  simp only [pending, reset]
  constructor
  · intro finished
    by_cases empty : front = []
    · have started := spec.progress empty finished
      simp only [if_true, if_neg started, total]
      omega
    · have some := List.length_pos_of_ne_nil empty
      simp only [if_true]
      omega
  · intro some
    split <;> split <;> omega

/-- The loop over the buffer: call `Parse`, drop what it consumed, hand out
and reset on completion, and stop when it makes no progress. -/
def drain (receiver : Receiver) : Receiver :=
  match _ : receiver.parser.parse receiver.buffer with
  | (consumed, parser) =>
      if _ : consumed < 0 then { receiver with parser := parser }
      else if _ : parser.isFrameComplete = true then
        drain
          { parser := reset
            buffer := receiver.buffer.drop consumed.toNat
            frames := receiver.frames ++ [parser.frame] }
      else if _ : consumed = 0 then { receiver with parser := parser }
      else
        drain
          { receiver with
            parser := parser
            buffer := receiver.buffer.drop consumed.toNat }
termination_by pending receiver.parser receiver.buffer
decreasing_by
  · exact (pending_decreases ‹_› ‹_›).1 ‹_›
  · exact (pending_decreases ‹_› ‹_›).2 ‹_›

def read (receiver : Receiver) (data : Bytes) : Receiver :=
  drain { receiver with buffer := receiver.buffer ++ data }

theorem drain_of_parse
    (parsed : receiver.parser.parse receiver.buffer = (consumed, parser)) :
    receiver.drain =
      if consumed < 0 then { receiver with parser := parser }
      else if parser.isFrameComplete = true then
        drain
          { parser := reset
            buffer := receiver.buffer.drop consumed.toNat
            frames := receiver.frames ++ [parser.frame] }
      else if consumed = 0 then { receiver with parser := parser }
      else
        drain
          { receiver with
            parser := parser
            buffer := receiver.buffer.drop consumed.toNat } := by
  rw [drain]
  simp only [parsed, dite_eq_ite]

/-- The loop hands out what the reader of the byte stream finishes and stops
where that reader stops. -/
theorem drain_drains (receiver : Receiver)
    (state : receiver.parser.state ≠ .error) :
    receiver.drain.parser.state ≠ .error ∧ ∃ frames,
      receiver.drain.frames = receiver.frames ++ frames ∧
      frameReader.Drains receiver.parser receiver.buffer frames
        receiver.drain.parser receiver.drain.buffer := by
  generalize size : pending receiver.parser receiver.buffer = bound
  induction bound using Nat.strongRecOn generalizing receiver with
  | _ bound ih =>
    obtain ⟨front, rest, final, spec, parsed⟩ :=
      parse_spec receiver.parser receiver.buffer state
    have dropped : receiver.buffer.drop (front.length : Int).toNat = rest := by
      rw [spec.splits]
      simp
    have accepted : ¬(↑front.length : Int) < 0 := by omega
    obtain ⟨smaller, smaller'⟩ := pending_decreases parsed accepted
    rw [size, dropped] at smaller smaller'
    rw [drain_of_parse parsed, if_neg accepted, dropped]
    cases finished : final.isFrameComplete with
    | true =>
      rw [if_pos rfl]
      obtain ⟨state', frames, handed, drained⟩ :=
        ih _ (smaller finished)
          { parser := reset
            buffer := rest
            frames := receiver.frames ++ [final.frame] }
          (by simp [reset]) rfl
      refine ⟨state', final.frame :: frames, ?_,
        spec.of_complete finished drained⟩
      rw [handed, List.append_assoc, List.singleton_append]
    | false =>
      rw [if_neg (by simp)]
      have drained := spec.of_incomplete finished
      by_cases stalled : (↑front.length : Int) = 0
      · have empty : front = [] := by simpa using stalled
        rw [if_pos stalled]
        refine ⟨spec.state_ne_error, [], by simp, ?_⟩
        have unread : receiver.buffer = rest := by
          rw [spec.splits, empty, List.nil_append]
        rw [← unread] at drained
        exact drained
      · rw [if_neg stalled]
        obtain ⟨state', frames, handed, drained'⟩ :=
          ih _ (smaller' stalled)
            { receiver with parser := final, buffer := rest }
            spec.state_ne_error rfl
        obtain ⟨rfl, sameParser, sameBuffer⟩ :=
          Consumer.Drains.of_step_none drained.stuck drained'
        refine ⟨state', [], handed, ?_⟩
        rw [sameParser, sameBuffer]
        exact drained

theorem drain_eq {final : WebSocketFrameParser} {left : Bytes}
    {frames : List WebSocketFrame} (state : receiver.parser.state ≠ .error)
    (drains : frameReader.Drains receiver.parser receiver.buffer frames
      final left) :
    receiver.drain = ⟨final, left, receiver.frames ++ frames⟩ := by
  obtain ⟨_, frames', handed, drains'⟩ := drain_drains receiver state
  obtain ⟨rfl, sameParser, sameBuffer⟩ := drains'.functional drains
  exact Receiver.ext sameParser sameBuffer handed

theorem read_read (receiver : Receiver)
    (state : receiver.parser.state ≠ .error) (first second : Bytes) :
    (receiver.read first).read second = receiver.read (first ++ second) := by
  let loaded : Receiver :=
    { receiver with buffer := receiver.buffer ++ first }
  obtain ⟨state', frames, handed, drained⟩ := drain_drains loaded state
  let reloaded : Receiver :=
    { loaded.drain with buffer := loaded.drain.buffer ++ second }
  obtain ⟨_, frames', handed', drained'⟩ := drain_drains reloaded state'
  have whole := Consumer.Drains.append frameReader_absorbing drained drained'
  let both : Receiver :=
    { receiver with buffer := receiver.buffer ++ (first ++ second) }
  have joined : both.drain = ⟨reloaded.drain.parser, reloaded.drain.buffer,
        receiver.frames ++ (frames ++ frames')⟩ := by
    refine drain_eq state ?_
    simpa [loaded, both] using whole
  change reloaded.drain = both.drain
  rw [joined]
  refine Receiver.ext rfl rfl ?_
  calc
    reloaded.drain.frames = loaded.drain.frames ++ frames' := handed'
    _ = receiver.frames ++ (frames ++ frames') := by
      rw [handed, List.append_assoc]

theorem foldl_read (receiver : Receiver)
    (state : receiver.parser.state ≠ .error) (pieces : List Bytes)
    (earlier : Bytes) :
    pieces.foldl read (receiver.read earlier) =
      receiver.read (earlier ++ pieces.flatten) := by
  induction pieces generalizing earlier with
  | nil => simp
  | cons piece pieces ih =>
    rw [List.foldl_cons, read_read receiver state,
      ih (earlier ++ piece), List.flatten_cons,
      List.append_assoc]

/-- However a byte string is cut into reads, a fresh receiver hands out the
same frames and ends with the same parser and the same unconsumed suffix as
when the string arrives in one read. -/
theorem reads_eq_read_flatten (pieces : List Bytes) :
    pieces.foldl read {} = read {} pieces.flatten := by
  have fresh : (reset : WebSocketFrameParser).state ≠ .error := by
    simp [reset]
  have idle : read {} [] = {} := by
    have stopped : frameReader.Drains reset [] [] reset [] := by
      refine .stop ?_
      simp [frameReader, reset, isFrameComplete, continues]
    exact drain_eq fresh stopped
  have fromStart := foldl_read {} fresh pieces []
  rw [idle, List.nil_append] at fromStart
  exact fromStart

end Receiver

end Libnei.WebSocket

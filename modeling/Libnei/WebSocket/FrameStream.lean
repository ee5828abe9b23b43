import Libnei.Lib.Incremental
import Libnei.WebSocket.Frame

/-!
# Frames of a byte stream

`frameReader` is the parser seen as a reader of a byte stream: one step is
one round of the loop in `Parse`, and the step that completes a frame hands
it out and resets the parser.  `parse_spec` relates a whole call of `Parse`
to it.  The receive loops of the server and of the client are compared with
this reader.
-/

namespace Libnei.WebSocket

open Libnei.Lib

namespace WebSocketFrameParser

variable {parser : WebSocketFrameParser} {input rest : Bytes} {size : Nat}

/-! ## One round -/

theorem decodeBE_le_sizeMax {bytes : Bytes} (short : bytes.length ≤ 8) :
    decodeBE bytes ≤ sizeMax := by
  have bound := decodeBE_lt bytes
  have grow : 256 ^ bytes.length ≤ 256 ^ 8 :=
    Nat.pow_le_pow_right (by decide) short
  have width : (256 : Nat) ^ 8 = sizeMax + 1 := by decide
  omega

/-- The size of the field that a state waits for; the payload has none. -/
def fieldSize : State → Option Nat
  | .header => some 2
  | .extendedLen16 => some 2
  | .extendedLen64 => some 8
  | .maskingKey => some 4
  | .payload | .complete | .error => none

theorem sized_open (frame : WebSocketFrame) (size : Nat) :
    (sized frame size).state ≠ .error ∧
      (sized frame size).isFrameComplete = false := by
  simp only [sized, isFrameComplete, afterLength]
  cases frame.masked <;> simp

/-- A state that waits for a field reads exactly that field, whatever comes
behind it. -/
theorem round_of_field {field : Bytes}
    (size : fieldSize parser.state = some field.length) :
    ∃ parser', parser'.state ≠ .error ∧ parser'.isFrameComplete = false ∧
      ∀ tail, parser.round (field ++ tail) = .read parser' tail := by
  cases state : parser.state with
  | header =>
    rw [state] at size
    match field, size with
    | [byte0, byte1], _ =>
      simp only [round, state, readHeader, List.cons_append, List.nil_append]
      split
      · obtain ⟨noError, unfinished⟩ := sized_open _ _
        exact ⟨_, noError, unfinished, fun _ => rfl⟩
      · split
        · exact ⟨_, by simp, by simp [isFrameComplete], fun _ => rfl⟩
        · exact ⟨_, by simp, by simp [isFrameComplete], fun _ => rfl⟩
  | extendedLen16 =>
    rw [state] at size
    match field, size with
    | [byte0, byte1], _ =>
      simp only [round, state, readExtendedLen16, List.cons_append,
        List.nil_append]
      obtain ⟨noError, unfinished⟩ := sized_open _ _
      exact ⟨_, noError, unfinished, fun _ => rfl⟩
  | extendedLen64 =>
    rw [state] at size
    have length : field.length = 8 := by simpa [fieldSize] using size.symm
    have accepted : ¬decodeBE field > sizeMax := by
      have bound : decodeBE field ≤ sizeMax :=
        decodeBE_le_sizeMax (by omega)
      omega
    refine ⟨sized parser.frame (decodeBE field), (sized_open _ _).1,
      (sized_open _ _).2, ?_⟩
    intro tail
    have enough : ¬(field ++ tail).length < 8 := by
      simp only [List.length_append]
      omega
    simp only [round, state, readExtendedLen64]
    rw [if_neg enough, List.take_left' length, List.drop_left' length,
      if_neg accepted]
  | maskingKey =>
    rw [state] at size
    have length : field.length = 4 := by simpa [fieldSize] using size.symm
    refine ⟨{ state := .payload
              frame := { parser.frame with maskingKey := field }
              payloadRead := parser.payloadRead
              payloadRead_le := parser.payloadRead_le },
      by simp, by simp [isFrameComplete], ?_⟩
    intro tail
    have enough : ¬(field ++ tail).length < 4 := by
      simp only [List.length_append]
      omega
    simp only [round, state, readMaskingKey]
    rw [if_neg enough]
    simp only [List.take_left' length, List.drop_left' length]
  | payload => simp [fieldSize, state] at size
  | complete => simp [fieldSize, state] at size
  | error => simp [fieldSize, state] at size

theorem round_of_short (waits : fieldSize parser.state = some size)
    (short : input.length < size) : parser.round input = .incomplete := by
  cases state : parser.state with
  | header =>
    obtain rfl : 2 = size := by simpa [fieldSize, state] using waits
    match input, short with
    | [], _ => simp [round, state, readHeader]
    | [_], _ => simp [round, state, readHeader]
  | extendedLen16 =>
    obtain rfl : 2 = size := by simpa [fieldSize, state] using waits
    match input, short with
    | [], _ => simp [round, state, readExtendedLen16]
    | [_], _ => simp [round, state, readExtendedLen16]
  | extendedLen64 =>
    obtain rfl : 8 = size := by simpa [fieldSize, state] using waits
    simp [round, state, readExtendedLen64, short]
  | maskingKey =>
    obtain rfl : 4 = size := by simpa [fieldSize, state] using waits
    simp [round, state, readMaskingKey, short]
  | payload => simp [fieldSize, state] at waits
  | complete => simp [fieldSize, state] at waits
  | error => simp [fieldSize, state] at waits

/-- Either the field is there, at the front of the input, or the round is
incomplete. -/
theorem round_cases (waits : fieldSize parser.state = some size)
    (input : Bytes) :
    (input.length < size ∧ parser.round input = .incomplete) ∨
      ∃ field rest parser', input = field ++ rest ∧ field.length = size ∧
        parser'.state ≠ .error ∧ parser'.isFrameComplete = false ∧
        ∀ tail, parser.round (field ++ tail) = .read parser' tail := by
  by_cases short : input.length < size
  · exact .inl ⟨short, round_of_short waits short⟩
  · have length : (input.take size).length = size := by
      simp only [List.length_take]
      omega
    rw [← length] at waits
    obtain ⟨parser', noError, unfinished, reads⟩ := round_of_field waits
    exact .inr ⟨input.take size, input.drop size, parser',
      (List.take_append_drop size input).symm, length, noError, unfinished,
      reads⟩

theorem fieldSize_pos {state : State} (waits : fieldSize state = some size) :
    0 < size := by
  cases state <;> simp [fieldSize] at waits <;> omega

/-- The states in which the loop of `Parse` goes on. -/
theorem waits_or_payload (goes : parser.continues input = true) :
    (∃ size, fieldSize parser.state = some size) ∨ parser.state = .payload := by
  cases state : parser.state <;>
    simp [fieldSize, continues, state] at goes ⊢

/-! ## The payload -/

theorem copied_frame_length (parser : WebSocketFrameParser) (input : Bytes) :
    (parser.copied input).frame.payload.length = parser.frame.payload.length :=
  Bytes.overwrite_length _ _ _ (parser.toCopy_inside input)

/-- The payload round stops short of the end of the payload only when it has
copied all of the input. -/
theorem toCopy_eq_self (partly : (parser.copied input).payloadRead ≠
      (parser.copied input).frame.payload.length) :
    parser.toCopy input = input ∧
      parser.payloadRead + input.length < parser.frame.payload.length := by
  rw [copied_frame_length] at partly
  have read := parser.payloadRead_le
  simp only [copied, toCopy, List.length_take] at partly
  have short : input.length <
      parser.frame.payload.length - parser.payloadRead := by omega
  refine ⟨List.take_of_length_le (by omega), by omega⟩

theorem toCopy_append (all : parser.toCopy input = input)
    (short : parser.payloadRead + input.length <
      parser.frame.payload.length) (extra : Bytes) :
    parser.toCopy (input ++ extra) =
      input ++ (parser.copied input).toCopy extra := by
  have remaining :
      parser.frame.payload.length - parser.payloadRead - input.length =
        (parser.copied input).frame.payload.length -
          (parser.copied input).payloadRead := by
    rw [copied_frame_length]
    simp only [copied, all]
    omega
  rw [toCopy, List.take_append, toCopy, remaining,
    List.take_of_length_le (by omega)]

/-- Copying the payload in two parts is copying it at once. -/
theorem copied_copied (all : parser.toCopy input = input)
    (short : parser.payloadRead + input.length <
      parser.frame.payload.length) (extra : Bytes) :
    (parser.copied input).copied extra = parser.copied (input ++ extra) := by
  have joined := toCopy_append all short extra
  have inside : parser.payloadRead + input.length ≤
      parser.frame.payload.length := by omega
  have copiedPayload : (parser.copied input).frame.payload =
      parser.frame.payload.overwrite parser.payloadRead input := by
    simp only [copied, all]
  have copiedRead : (parser.copied input).payloadRead =
      parser.payloadRead + input.length := by
    simp only [copied, all]
  have payloads : ((parser.copied input).copied extra).frame.payload =
      (parser.copied (input ++ extra)).frame.payload := by
    calc
      ((parser.copied input).copied extra).frame.payload
          = (parser.copied input).frame.payload.overwrite
              (parser.copied input).payloadRead
              ((parser.copied input).toCopy extra) := rfl
      _ = parser.frame.payload.overwrite parser.payloadRead
            (input ++ (parser.copied input).toCopy extra) := by
          rw [copiedPayload, copiedRead,
            Bytes.overwrite_overwrite _ _ _ _ inside]
      _ = (parser.copied (input ++ extra)).frame.payload := by
          rw [← joined]
          rfl
  refine WebSocketFrameParser.ext rfl ?_ ?_
  · calc
      ((parser.copied input).copied extra).frame
          = { parser.frame with payload :=
              ((parser.copied input).copied extra).frame.payload } := rfl
      _ = (parser.copied (input ++ extra)).frame := by
          rw [payloads]
          rfl
  · calc
      ((parser.copied input).copied extra).payloadRead
          = (parser.copied input).payloadRead +
              ((parser.copied input).toCopy extra).length := rfl
      _ = parser.payloadRead + (parser.toCopy (input ++ extra)).length := by
          rw [copiedRead, joined, List.length_append, Nat.add_assoc]

theorem readPayload_read (parser : WebSocketFrameParser) (input : Bytes) :
    ∃ parser' rest, parser.readPayload input = .read parser' rest := by
  simp only [readPayload]
  split <;> exact ⟨_, _, rfl⟩

theorem readPayload_append_of_completed
    (whole : (parser.copied input).payloadRead =
      (parser.copied input).frame.payload.length) (extra : Bytes) :
    parser.readPayload (input ++ extra) = .read (parser.copied input).completed
        (input.drop (parser.toCopy input).length ++ extra) := by
  have enough :
      parser.frame.payload.length - parser.payloadRead ≤ input.length := by
    rw [copied_frame_length] at whole
    simp only [copied, toCopy, List.length_take] at whole
    omega
  have sameCopy : parser.toCopy (input ++ extra) = parser.toCopy input :=
    List.take_append_of_le_length enough
  have sameParser : parser.copied (input ++ extra) = parser.copied input := by
    simp only [copied, sameCopy]
  have copyLength : (parser.toCopy input).length ≤ input.length := by
    simp [toCopy]
  simp only [readPayload, sameParser, sameCopy]
  rw [if_pos whole, List.drop_append_of_le_length copyLength]

theorem readPayload_append_of_partly
    (partly : (parser.copied input).payloadRead ≠
      (parser.copied input).frame.payload.length) (extra : Bytes) :
    parser.readPayload (input ++ extra) =
      (parser.copied input).readPayload extra := by
  obtain ⟨all, short⟩ := toCopy_eq_self partly
  have sameRest :
      (input ++ extra).drop (parser.toCopy (input ++ extra)).length =
        extra.drop ((parser.copied input).toCopy extra).length := by
    rw [toCopy_append all short, List.length_append, List.drop_append]
    simp
  simp only [readPayload, ← copied_copied all short, sameRest]

/-! ## The reader -/

/-- The parser as a reader of the byte stream. -/
def frameReader : Consumer WebSocketFrameParser UInt8 WebSocketFrame where
  step parser input :=
    if parser.isFrameComplete then some (reset, input, [parser.frame])
    else if parser.continues input then
      match parser.round input with
      | .read parser' rest =>
          if parser'.isFrameComplete then
            some (reset, rest, [parser'.frame])
          else some (parser', rest, [])
      | _ => none
    else none

theorem continues_append (continues : parser.continues input = true)
    (extra : Bytes) :
    parser.continues (input ++ extra) = true := by
  cases input with
  | nil => simp [WebSocketFrameParser.continues] at continues
  | cons byte input =>
    simpa [WebSocketFrameParser.continues] using continues

theorem frameReader_step_of_read {parser' : WebSocketFrameParser}
    (continues : parser.continues input = true)
    (moved : parser.round input = .read parser' rest) :
    frameReader.step parser input =
      if parser'.isFrameComplete then some (reset, rest, [parser'.frame])
      else some (parser', rest, []) := by
  have unfinished : parser.isFrameComplete = false := by
    simp only [WebSocketFrameParser.continues, Bool.and_eq_true,
      bne_iff_ne] at continues
    simp [isFrameComplete, continues.1.2]
  simp [frameReader, unfinished, continues, moved]

/-- Everything a step of the reader can be. -/
theorem frameReader_step_cases {middle : WebSocketFrameParser}
    {frames : List WebSocketFrame}
    (moved : frameReader.step parser input = some (middle, rest, frames)) :
    (parser.isFrameComplete = true ∧ middle = reset ∧ rest = input ∧
        frames = [parser.frame]) ∨
      (parser.continues input = true ∧ ∃ parser',
        parser.round input = .read parser' rest ∧
        ((parser'.isFrameComplete = true ∧ middle = reset ∧
            frames = [parser'.frame]) ∨
          (parser'.isFrameComplete = false ∧ middle = parser' ∧
            frames = []))) := by
  simp only [frameReader] at moved
  split at moved
  · rename_i finished
    cases moved
    exact .inl ⟨finished, rfl, rfl, rfl⟩
  · split at moved
    · rename_i continues
      split at moved
      · rename_i parser' rest' read
        split at moved
        · rename_i finished
          cases moved
          exact .inr ⟨continues, parser', read, .inl ⟨finished, rfl, rfl⟩⟩
        · rename_i unfinished
          cases moved
          exact .inr ⟨continues, _, read,
            .inr ⟨by simpa using unfinished, rfl, rfl⟩⟩
      · cases moved
    · cases moved

theorem isFrameComplete_copied (state : parser.state = .payload)
    (input : Bytes) :
    (parser.copied input).isFrameComplete = false := by
  simp [isFrameComplete, copied, state]

theorem frameReader_step_partly (state : parser.state = .payload)
    (extra : Bytes) :
    (extra = [] → frameReader.step parser extra = none) ∧
      (extra ≠ [] → (frameReader.step parser extra).isSome) := by
  have unfinished : parser.isFrameComplete = false := by
    simp [isFrameComplete, state]
  constructor
  · rintro rfl
    simp [frameReader, unfinished, continues]
  · intro some
    have goes : parser.continues extra = true := by
      simp [continues, some, state]
    obtain ⟨parser', rest, read⟩ := parser.readPayload_read extra
    rw [frameReader_step_of_read goes (by simpa [round, state] using read)]
    split <;> rfl

theorem frameReader_absorbing : frameReader.Absorbing := by
  intro parser middle input rest frames moved extra
  rcases frameReader_step_cases moved with
    ⟨finished, rfl, rfl, rfl⟩ | ⟨goes, parser', read, outcome⟩
  · left
    simp [frameReader, finished]
  rcases waits_or_payload goes with ⟨size, waits⟩ | isPayload
  · left
    rcases round_cases waits input with ⟨_, incomplete⟩ | found
    · simp [incomplete] at read
    obtain ⟨field, rest', _, rfl, _, _, _, reads⟩ := found
    obtain ⟨rfl, rfl⟩ : _ = parser' ∧ rest' = rest := by
      simpa [reads rest'] using read
    have read' := reads (rest' ++ extra)
    rw [← List.append_assoc] at read'
    rw [frameReader_step_of_read (continues_append goes extra) read']
    rcases outcome with ⟨finished, rfl, rfl⟩ | ⟨unfinished, rfl, rfl⟩
    · rw [if_pos finished]
    · rw [if_neg (by simp [unfinished])]
  · simp only [round, isPayload, readPayload] at read
    split at read
    · rename_i whole
      left
      cases read
      have read' : parser.round (input ++ extra) =
          .read (parser.copied input).completed
            (input.drop (parser.toCopy input).length ++ extra) := by
        simp only [round, isPayload]
        exact readPayload_append_of_completed whole extra
      rw [frameReader_step_of_read (continues_append goes extra) read']
      rcases outcome with ⟨finished, rfl, rfl⟩ | ⟨unfinished, rfl, rfl⟩
      · rw [if_pos finished]
      · rw [if_neg (by simp [unfinished])]
    · rename_i partly
      right
      cases read
      obtain ⟨all, short⟩ := toCopy_eq_self partly
      have unfinished := isFrameComplete_copied isPayload input
      rcases outcome with ⟨finished, _, _⟩ | ⟨_, rfl, rfl⟩
      · simp [unfinished] at finished
      have stillPayload : (parser.copied input).state = .payload := isPayload
      obtain ⟨quiet, moves⟩ :=
        frameReader_step_partly stillPayload extra
      refine ⟨by rw [all]; simp, rfl,
        (frameReader_step_partly stillPayload []).1 rfl, ?_⟩
      intro nonempty
      refine ⟨moves nonempty, ?_⟩
      have goes' : (parser.copied input).continues extra = true := by
        simp [WebSocketFrameParser.continues, nonempty, stillPayload]
      have sameRound : parser.round (input ++ extra) =
          (parser.copied input).round extra := by
        simp only [round, isPayload, stillPayload]
        exact readPayload_append_of_partly partly extra
      simp [frameReader, continues_append goes extra, goes', sameRound,
        isFrameComplete, isPayload, stillPayload]

/-! ## A call of `Parse` -/

/-- A round of the loop either needs more input or reads a front part of
it; only the round that completes the payload may read nothing. -/
theorem round_spec (goes : parser.continues input = true) :
    parser.round input = .incomplete ∨
      ∃ front rest parser', input = front ++ rest ∧
        parser.round input = .read parser' rest ∧
        parser'.state ≠ .error ∧
        (front = [] →
          parser.state = .payload ∧ parser'.isFrameComplete = true) := by
  have nonempty : input ≠ [] := by
    rintro rfl
    simp [continues] at goes
  rcases waits_or_payload goes with ⟨size, waits⟩ | state
  · rcases round_cases waits input with ⟨_, incomplete⟩ | found
    · exact .inl incomplete
    · obtain ⟨field, rest, parser', rfl, length, noError, _, reads⟩ := found
      refine .inr ⟨field, rest, parser', rfl, reads rest, noError, ?_⟩
      intro empty
      have positive := fieldSize_pos waits
      simp [empty] at length
      omega
  · right
    have splits : input = parser.toCopy input ++
        input.drop (parser.toCopy input).length :=
      (List.prefix_iff_eq_append.mp (List.take_prefix _ _)).symm
    by_cases whole : (parser.copied input).payloadRead =
        (parser.copied input).frame.payload.length
    · refine ⟨_, _, (parser.copied input).completed, splits, ?_, ?_, ?_⟩
      · simp [round, state, readPayload, whole]
      · simp [completed]
      · exact fun _ => ⟨state, by simp [isFrameComplete, completed]⟩
    · refine ⟨_, _, parser.copied input, splits, ?_, ?_, ?_⟩
      · simp [round, state, readPayload, whole]
      · simp [copied, state]
      · intro empty
        rw [(toCopy_eq_self whole).1] at empty
        exact (nonempty empty).elim

/-- What a call of `Parse` on `data` has done when it returns: it consumed
`front`, and either a frame is complete or the reader needs more input. -/
structure Parsed (parser : WebSocketFrameParser) (data front rest : Bytes)
    (parser' : WebSocketFrameParser) : Prop where
  splits : data = front ++ rest
  state_ne_error : parser'.state ≠ .error
  progress : front = [] → parser'.isFrameComplete = true →
    parser.state ≠ .header
  of_complete : parser'.isFrameComplete = true →
    ∀ {frames final left}, frameReader.Drains reset rest frames final left →
      frameReader.Drains parser data (parser'.frame :: frames) final left
  of_incomplete : parser'.isFrameComplete = false →
    frameReader.Drains parser data [] parser' rest

theorem parseLoop_of_complete (finished : parser.isFrameComplete = true)
    (fuel : Nat) (input : Bytes) (consumed : Nat) :
    parseLoop fuel parser input consumed = (↑consumed, parser) := by
  have state : parser.state = .complete := by
    simpa [isFrameComplete] using finished
  cases fuel with
  | zero => rfl
  | succ fuel => simp [parseLoop, continues, state]

theorem parsed_of_stuck (state : parser.state ≠ .error)
    (unfinished : parser.isFrameComplete = false)
    (stuck : frameReader.step parser input = none) :
    Parsed parser input [] input parser where
  splits := rfl
  state_ne_error := state
  progress := by simp [unfinished]
  of_complete := by simp [unfinished]
  of_incomplete := fun _ => .stop stuck

theorem parseLoop_parsed {fuel : Nat} (enough : input.length < fuel)
    (consumed : Nat) (state : parser.state ≠ .error)
    (unfinished : parser.isFrameComplete = false) :
    ∃ front rest parser', Parsed parser input front rest parser' ∧
      parseLoop fuel parser input consumed =
        (↑(consumed + front.length), parser') := by
  -- One round is one step of the reader; the fuel bounds the input left.
  induction fuel generalizing parser input consumed with
  | zero => omega
  | succ fuel ih =>
    by_cases goes : parser.continues input = true
    · rcases round_spec goes with incomplete |
        ⟨front, rest, parser', rfl, read, state', progress⟩
      · refine ⟨[], input, parser, parsed_of_stuck state unfinished ?_, ?_⟩
        · simp [frameReader, unfinished, goes, incomplete]
        · simp [parseLoop, goes, incomplete]
      have step := frameReader_step_of_read goes read
      have count : (front ++ rest).length - rest.length = front.length := by
        simp
      cases finished : parser'.isFrameComplete with
      | true =>
        rw [if_pos finished] at step
        refine ⟨front, rest, parser', ?_, ?_⟩
        · exact
            { splits := rfl
              state_ne_error := state'
              progress := fun empty _ => by simp [progress empty]
              of_complete := fun _ _ _ _ tail => .next step tail
              of_incomplete := by simp [finished] }
        · simp only [parseLoop, goes, read, if_true, count]
          exact parseLoop_of_complete finished _ _ _
      | false =>
        rw [if_neg (by simp [finished])] at step
        have shorter : rest.length < fuel := by
          have some : 0 < front.length := by
            refine List.length_pos_of_ne_nil fun empty => ?_
            simp [finished] at progress
            exact progress empty
          simp only [List.length_append] at enough
          omega
        obtain ⟨front', rest', final, parsed, looped⟩ :=
          ih shorter (consumed + front.length) state' finished
        refine ⟨front ++ front', rest', final, ?_, ?_⟩
        · exact
            { splits := by rw [parsed.splits, List.append_assoc]
              state_ne_error := parsed.state_ne_error
              progress := fun empty _ => by
                simp [progress (List.append_eq_nil_iff.mp empty).1]
              of_complete := fun finished' _ _ _ tail =>
                .next step (parsed.of_complete finished' tail)
              of_incomplete := fun unfinished' =>
                .next step (parsed.of_incomplete unfinished') }
        · simp only [parseLoop, goes, read, if_true, count, looped]
          simp [Nat.add_assoc]
    · refine ⟨[], input, parser, parsed_of_stuck state unfinished ?_, ?_⟩
      · simp [frameReader, unfinished, goes]
      · simp [parseLoop, goes]

/-- `Parse` reads as far as the reader does, up to the end of the frame. -/
theorem parse_spec (parser : WebSocketFrameParser) (data : Bytes)
    (state : parser.state ≠ .error) :
    ∃ front rest parser', Parsed parser data front rest parser' ∧
      parser.parse data = (↑front.length, parser') := by
  cases finished : parser.isFrameComplete with
  | true =>
    have complete : parser.state = .complete := by
      simpa [isFrameComplete] using finished
    have step : frameReader.step parser data =
        some (reset, data, [parser.frame]) := by
      simp [frameReader, finished]
    refine ⟨[], data, parser, ?_, by simp [parse, complete]⟩
    exact
      { splits := rfl
        state_ne_error := state
        progress := by simp [complete]
        of_complete := fun _ _ _ _ tail => .next step tail
        of_incomplete := by simp [finished] }
  | false =>
    obtain ⟨front, rest, parser', parsed, looped⟩ :=
      parseLoop_parsed (Nat.lt_succ_self data.length) 0 state finished
    refine ⟨front, rest, parser', parsed, ?_⟩
    rw [Nat.zero_add] at looped
    have incomplete : parser.state ≠ .complete := by
      simpa [isFrameComplete] using finished
    rw [← looped]
    unfold parse
    split <;> simp_all

end WebSocketFrameParser

end Libnei.WebSocket

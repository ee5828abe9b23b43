import Libnei.Ipc.MessageChannel
import Libnei.Lib.Frames

/-!
# What the parser of the channel reads

The stream of a channel is one of frames with a header of eight bytes.
`TryParseFrames` takes the complete frames off what it has not handed out,
however the stream was cut, and says whether the rest is corrupt.
-/

namespace Libnei.Ipc

open Lib

/-! ## The stream -/

def framing : Framing UInt8 where
  headerSize := kHeaderSize
  headerSize_pos := by decide
  payloadSize := fun bytes =>
    if readUint32LE bytes > kMaxMessageSize ∨
        readUint32LE (bytes.drop 4) ≠ kMagicWord then none
    else some (readUint32LE bytes)

theorem writeUint32LE_length (value : Nat) : (writeUint32LE value).length = 4 :=
  encodeLE_length ..

theorem readUint32LE_writeUint32LE {value : Nat} (small : value < 2 ^ 32)
    (rest : Bytes) :
    readUint32LE (writeUint32LE value ++ rest) = value := by
  rw [readUint32LE, List.take_left' (writeUint32LE_length value),
    writeUint32LE, Nat.mod_eq_of_lt small]
  exact decodeLE_encodeLE (by simpa using small)

theorem header_length (length : Nat) :
    (header length).length = framing.headerSize := by
  simp [header, writeUint32LE_length, framing, kHeaderSize]

theorem payloadSize_header {length : Nat} (fits : length ≤ kMaxMessageSize) :
    framing.payloadSize (header length) = some length := by
  have small : length < 2 ^ 32 :=
    Nat.lt_of_le_of_lt fits (by decide)
  have magic := readUint32LE_writeUint32LE (show kMagicWord < 2 ^ 32 by decide)
    []
  rw [List.append_nil] at magic
  have size := readUint32LE_writeUint32LE small (writeUint32LE kMagicWord)
  simp only [framing, header]
  rw [size, List.drop_left' (writeUint32LE_length length), magic,
    if_neg (by omega)]

theorem readFrames_sent {payloads : List Bytes}
    (fit : ∀ payload ∈ payloads, payload.length ≤ kMaxMessageSize)
    (rest : Bytes) :
    framing.readFrames ((payloads.map frame).flatten ++ rest) =
      (payloads ++ (framing.readFrames rest).1, (framing.readFrames rest).2) :=
  Framing.readFrames_frames (fun _ _ => header_length _)
    (fun payload member => payloadSize_header (fit payload member)) rest

theorem readFrames_nil : framing.readFrames [] = ([], []) :=
  Framing.readFrames_of_none rfl

/-! ## The parser -/

/-- What the parser has not handed out: a header that it has read is part of
it until the payload is complete. -/
def Unread (receiver : Receiver) (rest : Bytes) : Prop :=
  receiver.consumeOffset ≤ receiver.receiveBuffer.length ∧
    match receiver.readState with
    | .readingHeader => rest = receiver.available
    | .readingPayload => ∃ first, first.length = framing.headerSize ∧
        framing.payloadSize first = some receiver.currentMessageSize ∧
        rest = first ++ receiver.available

theorem unread_initially : Unread {} [] :=
  ⟨Nat.le_refl 0, rfl⟩

variable {receiver : Receiver} {rest : Bytes}

theorem Unread.append (unread : Unread receiver rest) (bytes : Bytes) :
    Unread { receiver with
      receiveBuffer := receiver.receiveBuffer ++ bytes } (rest ++ bytes) := by
  have available : { receiver with
      receiveBuffer := receiver.receiveBuffer ++ bytes }.available =
        receiver.available ++ bytes :=
    List.drop_append_of_le_length unread.1
  refine ⟨Nat.le_trans unread.1 (by simp), ?_⟩
  have there := unread.2
  dsimp only
  split
  case h_1 reading =>
    rw [reading] at there
    rw [available, there]
  case h_2 reading =>
    rw [reading] at there
    obtain ⟨first, whole, announced, rfl⟩ := there
    exact ⟨first, whole, announced, by rw [available, List.append_assoc]⟩

/-- How a round ends, in terms of the stream. -/
def Reads (rest : Bytes) : Round → Prop
  | .waits next => framing.readFrame rest = none ∧
      framing.corrupt rest = false ∧ Unread next rest
  | .corrupt => framing.readFrame rest = none ∧ framing.corrupt rest = true
  | .completes message next => ∃ behind,
      framing.readFrame rest = some (message, behind) ∧ Unread next behind

theorem reads_readPayload {first : Bytes}
    (inside : receiver.consumeOffset ≤ receiver.receiveBuffer.length)
    (whole : first.length = framing.headerSize)
    (announced : framing.payloadSize first = some receiver.currentMessageSize)
    (reading : receiver.readState = .readingPayload) :
    Reads (first ++ receiver.available) receiver.readPayload := by
  have read := framing.readFrame_header whole announced receiver.available
  unfold Receiver.readPayload
  split
  case isTrue short =>
    refine ⟨read.trans (if_pos short),
      framing.corrupt_header whole announced _, inside, ?_⟩
    rw [reading]
    exact ⟨first, whole, announced, rfl⟩
  case isFalse enough =>
    refine ⟨_, read.trans (if_neg enough), ?_, ?_⟩
    · simp only [Receiver.available, List.length_drop] at enough ⊢
      omega
    · simp [Receiver.available]

theorem payloadSize_take (bytes : Bytes) :
    framing.payloadSize (bytes.take kHeaderSize) =
      framing.payloadSize bytes := by
  have length : readUint32LE (bytes.take kHeaderSize) = readUint32LE bytes := by
    simp [readUint32LE, kHeaderSize, List.take_take]
  have magic : readUint32LE ((bytes.take kHeaderSize).drop 4) =
      readUint32LE (bytes.drop 4) := by
    simp [readUint32LE, kHeaderSize, List.drop_take, List.take_take]
  simp only [framing, length, magic]

theorem reads_round (unread : Unread receiver rest) :
    Reads rest receiver.round := by
  obtain ⟨inside, there⟩ := unread
  unfold Receiver.round
  split
  case h_1 reading =>
    rw [reading] at there
    obtain ⟨first, whole, announced, rfl⟩ := there
    exact reads_readPayload inside whole announced reading
  case h_2 reading =>
    rw [reading] at there
    subst there
    split
    case isTrue short =>
      have read : framing.readFrame receiver.available = none :=
        if_pos short
      refine ⟨read, ?_, inside, ?_⟩
      · simp [Framing.corrupt, framing, short]
      · rw [reading]
    case isFalse enough =>
      have size := payloadSize_take receiver.available
      dsimp only
      split
      case isTrue bad =>
        have none : framing.payloadSize receiver.available = none :=
          if_pos bad
        have corrupt : framing.corrupt receiver.available = true := by
          simp only [Framing.corrupt, decide_eq_true_eq]
          exact ⟨Nat.not_lt.mp enough, size.trans none⟩
        exact ⟨Framing.readFrame_of_corrupt corrupt, corrupt⟩
      case isFalse good =>
        rw [show framing.payloadSize receiver.available = _ from
          if_neg good] at size
        have joined := List.take_append_drop kHeaderSize
          receiver.available
        have whole : (receiver.available.take kHeaderSize).length =
            framing.headerSize :=
          List.length_take_of_le (Nat.not_lt.mp enough)
        have next : { receiver with
            currentMessageSize := readUint32LE receiver.available
            consumeOffset := receiver.consumeOffset + kHeaderSize
            readState := .readingPayload }.available =
              receiver.available.drop kHeaderSize := by
          simp [Receiver.available, List.drop_drop]
        have inside' : receiver.consumeOffset + kHeaderSize ≤
            receiver.receiveBuffer.length := by
          simp only [Receiver.available, List.length_drop] at enough
          omega
        have reads : Reads (receiver.available.take kHeaderSize ++
            Receiver.available
              { receiver with
                currentMessageSize := readUint32LE receiver.available
                consumeOffset := receiver.consumeOffset + kHeaderSize
                readState := .readingPayload })
            (Receiver.readPayload _) :=
          reads_readPayload inside' whole size rfl
        rw [next, joined] at reads
        exact reads

theorem tryParseFrames_spec (unread : Unread receiver rest) :
    receiver.tryParseFrames.1 = (framing.readFrames rest).1 ∧
      Unread receiver.tryParseFrames.2.1 (framing.readFrames rest).2 ∧
      receiver.tryParseFrames.2.2 =
        framing.corrupt (framing.readFrames rest).2 := by
  induction size : receiver.pending using Nat.strongRecOn
      generalizing receiver rest with
  | _ size ih =>
    have reads := reads_round unread
    rw [Receiver.tryParseFrames]
    split
    case h_1 next waits =>
      rw [waits] at reads
      obtain ⟨none, intact, unread⟩ := reads
      rw [Framing.readFrames_of_none none]
      exact ⟨rfl, unread, intact.symm⟩
    case h_2 corrupt =>
      rw [corrupt] at reads
      rw [Framing.readFrames_of_none reads.1]
      exact ⟨rfl, unread, reads.2.symm⟩
    case h_3 message next completes =>
      rw [completes] at reads
      obtain ⟨behind, read, unread⟩ := reads
      rw [Framing.readFrames_of_some read]
      obtain ⟨messages, later, failed⟩ := ih _
        (size ▸ receiver.round_pending completes) unread rfl
      exact ⟨congrArg _ messages, later, failed⟩

theorem available_compactReceiveBuffer (receiver : Receiver) :
    receiver.compactReceiveBuffer.available = receiver.available := by
  unfold Receiver.compactReceiveBuffer
  split
  case isTrue => rfl
  case isFalse =>
    split
    case isTrue consumed =>
      exact (List.drop_eq_nil_of_le consumed).symm
    case isFalse =>
      split
      · rfl
      · rfl

theorem Unread.compact (unread : Unread receiver rest) :
    Unread receiver.compactReceiveBuffer rest := by
  have available := available_compactReceiveBuffer receiver
  obtain ⟨inside, there⟩ := unread
  unfold Unread
  rw [available]
  unfold Receiver.compactReceiveBuffer
  split
  case isTrue => exact ⟨inside, there⟩
  case isFalse =>
    split
    case isTrue => exact ⟨Nat.le_refl 0, there⟩
    case isFalse =>
      split
      · exact ⟨Nat.zero_le _, there⟩
      · exact ⟨inside, there⟩

end Libnei.Ipc

import Libnei.Xdr.Codec
import Mathlib.Data.List.Forall2

/-!
# Messages that are read as they were written

Each field has an encoding, whose length is a multiple of four.  A write that
succeeds appends the encoding of its field to what is written; a read that
asks for this field and finds its encoding ahead returns the field and leaves
what follows ahead.
-/

namespace Libnei.Bytes

theorem take_overwrite (bytes source : Bytes) {start : Nat}
    (inside : start ≤ bytes.length) :
    (bytes.overwrite start source).take (start + source.length) =
      bytes.take start ++ source := by
  have length : (bytes.take start ++ source).length =
      start + source.length := by
    rw [List.length_append, List.length_take, Nat.min_eq_left inside]
  exact List.take_left' length

theorem take_overwrite_zero (bytes source : Bytes) :
    (bytes.overwrite 0 source).take source.length = source := by
  have taken := take_overwrite bytes source (Nat.zero_le bytes.length)
  rw [Nat.zero_add] at taken
  exact taken

end Libnei.Bytes

namespace Libnei.Xdr

open Lib

/-! ## Words -/

theorem wordOf_lt (bytes : Bytes) : wordOf bytes < 2 ^ (8 * bytes.length) := by
  induction bytes with
  | nil => exact Nat.one_pos
  | cons byte bytes ih =>
    have small : byte.toNat < 2 ^ 8 := byte.toNat_lt
    have width : 8 * (byte :: bytes).length = 8 + 8 * bytes.length := by
      rw [List.length_cons]
      omega
    rw [wordOf, ← Nat.shiftLeft_add_eq_or_of_lt ih,
      Nat.shiftLeft_eq, width, Nat.pow_add]
    calc byte.toNat * 2 ^ (8 * bytes.length) + wordOf bytes
        < byte.toNat * 2 ^ (8 * bytes.length) +
            1 * 2 ^ (8 * bytes.length) := by omega
      _ = (byte.toNat + 1) * 2 ^ (8 * bytes.length) :=
          (Nat.add_mul ..).symm
      _ ≤ 2 ^ 8 * 2 ^ (8 * bytes.length) :=
          Nat.mul_le_mul_right _ small

theorem foldl_shiftIn (bytes : Bytes) (acc : Nat) : bytes.foldl shiftIn acc =
      acc * 2 ^ (8 * bytes.length) + wordOf bytes := by
  induction bytes generalizing acc with
  | nil => simp [wordOf]
  | cons byte bytes ih =>
    have width : 2 ^ (8 * (byte :: bytes).length) =
        256 * 2 ^ (8 * bytes.length) := by
      rw [List.length_cons, Nat.mul_add, Nat.add_comm, Nat.pow_add]
    rw [List.foldl_cons, ih, shiftIn_eq, wordOf,
      ← Nat.shiftLeft_add_eq_or_of_lt (wordOf_lt bytes),
      Nat.shiftLeft_eq, width]
    ring

theorem wordOf_encodeBE {width value : Nat} (fits : value < 256 ^ width) :
    wordOf (encodeBE width value) = value := by
  have folded := foldl_shiftIn (encodeBE width value) 0
  rw [Nat.zero_mul, Nat.zero_add] at folded
  rw [← folded]
  exact decodeBE_encodeBE fits

theorem padding_toNat (length : UInt32) :
    (padding length).toNat = (4 - length.toNat % 4) % 4 := by
  have low : (length &&& 3).toNat = length.toNat % 4 :=
    Nat.and_two_pow_sub_one_eq_mod length.toNat 2
  have below : length &&& 3 ≤ 4 := by
    rw [UInt32.le_iff_toNat_le, low]
    have := Nat.mod_lt length.toNat (show 0 < 4 by decide)
    exact Nat.le_of_lt this
  have rest : (4 - (length &&& 3)).toNat = 4 - length.toNat % 4 := by
    rw [UInt32.toNat_sub_of_le _ _ below, low]
    rfl
  rw [padding, UInt32.toNat_and, rest]
  exact Nat.and_two_pow_sub_one_eq_mod (4 - length.toNat % 4) 2

theorem four_dvd_padded (length : UInt32) : 4 ∣ padded length := by
  unfold padded
  rw [padding_toNat]
  omega

/-! ## Encodings -/

def Data.block (data : Data) : Bytes :=
  data.content ++ List.replicate (padding data.length).toNat 0

def Field.encode : Field → Bytes
  | .u32 value => encodeBE 4 value.toNat
  | .i32 value => encodeBE 4 value.toUInt32.toNat
  | .u64 value => encodeBE 8 value.toNat
  | .i64 value => encodeBE 8 value.toUInt64.toNat
  | .fixed data => data.block
  | .bytes data | .string data =>
      encodeBE 4 data.length.toNat ++ data.block

def Field.data? : Field → Option Data
  | .fixed data | .bytes data | .string data => some data
  | .u32 _ | .i32 _ | .u64 _ | .i64 _ => none

/-- No field has a length but no bytes. -/
def Field.Present (field : Field) : Prop :=
  ∀ data ∈ field.data?, data.isMissing = false

variable {data : Data}

theorem Data.length_content (present : data.isMissing = false) :
    data.content.length = data.length.toNat := by
  obtain ⟨pointer, length, backed⟩ := data
  cases pointer with
  | some bytes => exact List.length_take_of_le (backed bytes rfl)
  | none =>
    have none : ¬length > 0 := by simpa [Data.isMissing] using present
    have zero : length.toNat = 0 := Nat.eq_zero_of_not_pos none
    simp [Data.content, zero]

theorem Data.length_block (present : data.isMissing = false) :
    data.block.length = padded data.length := by
  rw [Data.block, List.length_append, List.length_replicate,
    Data.length_content present]
  rfl

theorem Field.four_dvd_encode {field : Field} (present : field.Present) :
    4 ∣ field.encode.length := by
  have block : ∀ data ∈ field.data?, 4 ∣ data.block.length := by
    intro data member
    rw [Data.length_block (present data member)]
    exact four_dvd_padded data.length
  cases field with
  | u32 value | i32 value => exact ⟨1, encodeBE_length 4 _⟩
  | u64 value | i64 value => exact ⟨2, encodeBE_length 8 _⟩
  | fixed data => exact block data rfl
  | bytes data | string data =>
    have word := encodeBE_length 4 data.length.toNat
    rw [Field.encode, List.length_append, word]
    exact Nat.dvd_add ⟨1, rfl⟩ (block data rfl)

/-! ## Writing -/

/-- The writer has its buffer of `size` bytes and `written` in front. -/
structure Writer.Holds (writer : Writer) (buffer written : Bytes) : Prop where
  buffer_eq : writer.buffer = some buffer
  take_eq : buffer.take writer.offset = written
  within : writer.offset ≤ writer.size
  room : writer.size ≤ buffer.length

namespace Writer.Holds

variable {writer next : Writer} {buffer written : Bytes}

variable (holds : writer.Holds buffer written)

include holds

theorem offset_eq : writer.offset = written.length := by
  have inside := holds.within.trans holds.room
  rw [← holds.take_eq, List.length_take, Nat.min_eq_left inside]

theorem append {bytes : Bytes}
    (space : writer.offset + bytes.length ≤ writer.size) :
    Writer.Holds ⟨some (buffer.overwrite writer.offset bytes), writer.size,
      writer.offset + bytes.length⟩
      (buffer.overwrite writer.offset bytes) (written ++ bytes) := by
  have inside := holds.within.trans holds.room
  refine ⟨rfl, ?_, space, ?_⟩
  · show (buffer.overwrite writer.offset bytes).take
      (writer.offset + bytes.length) = written ++ bytes
    rw [Bytes.take_overwrite buffer bytes inside, holds.take_eq]
  · show writer.size ≤ (buffer.overwrite writer.offset bytes).length
    rw [Bytes.overwrite_length _ _ _ (space.trans holds.room)]
    exact holds.room

theorem writeWord {width value : Nat}
    (wrote : writer.writeWord width value = (.ok, next)) :
    ∃ buffer', next.Holds buffer' (written ++ encodeBE width value) := by
  unfold Writer.writeWord at wrote
  rw [holds.buffer_eq] at wrote
  dsimp only at wrote
  split at wrote
  case isFalse => cases wrote
  case isTrue space =>
    cases wrote
    have fits := hasSpace_iff.mp space
    have length := encodeBE_length width value
    rw [← length] at fits
    have appended := holds.append fits
    rw [length] at appended
    exact ⟨_, appended⟩

theorem writeOpaque (wrote : writer.writeOpaque data = (.ok, next)) :
    data.isMissing = false ∧
      ∃ buffer', next.Holds buffer' (written ++ data.block) := by
  unfold Writer.writeOpaque at wrote
  rw [holds.buffer_eq] at wrote
  dsimp only at wrote
  split at wrote
  case isTrue => cases wrote
  case isFalse notMissing =>
    have present := eq_false_of_ne_true notMissing
    refine ⟨present, ?_⟩
    split at wrote
    case isFalse => cases wrote
    case isTrue space =>
      cases wrote
      have length := Data.length_content present
      have fits := hasSpace_iff.mp space
      have blockFits : writer.offset + data.block.length ≤ writer.size := by
        rw [Data.length_block present]
        exact fits
      -- The two copies are one copy of the block.
      have inside : writer.offset + data.content.length ≤ buffer.length := by
        refine le_trans ?_ (fits.trans holds.room)
        rw [length]
        exact Nat.add_le_add_left (Nat.le_add_right _ _) _
      have once := Bytes.overwrite_overwrite buffer data.content
        (List.replicate (padding data.length).toNat 0) writer.offset inside
      rw [length] at once
      have appended := holds.append blockFits
      rw [Data.length_block present] at appended
      rw [once, Nat.add_assoc]
      exact ⟨_, appended⟩

theorem writeBytes (wrote : writer.writeBytes data = (.ok, next)) :
    data.isMissing = false ∧ ∃ buffer', next.Holds buffer'
      (written ++ (encodeBE 4 data.length.toNat ++ data.block)) := by
  unfold Writer.writeBytes at wrote
  split at wrote
  case h_1 middle counted =>
    obtain ⟨counting, holdsCount⟩ := holds.writeWord counted
    obtain ⟨present, final, holdsBlock⟩ := holdsCount.writeOpaque wrote
    rw [List.append_assoc] at holdsBlock
    exact ⟨present, final, holdsBlock⟩
  case h_2 status middle failed counted =>
    cases wrote
    exact absurd rfl failed

theorem write {field : Field} (wrote : field.write writer = (.ok, next)) :
    field.Present ∧
      ∃ buffer', next.Holds buffer' (written ++ field.encode) := by
  have present : ∀ data, data.isMissing = false →
      field.data? = some data → field.Present := by
    intro data found named other member
    obtain rfl := Option.some.inj (named.symm.trans member)
    exact found
  cases field with
  | u32 value | i32 value | u64 value | i64 value =>
    exact ⟨nofun, holds.writeWord wrote⟩
  | fixed data =>
    obtain ⟨found, later⟩ := holds.writeOpaque wrote
    exact ⟨present data found rfl, later⟩
  | bytes data | string data =>
    obtain ⟨found, later⟩ := holds.writeBytes wrote
    exact ⟨present data found rfl, later⟩

end Writer.Holds

theorem Writer.holds_init {buffer : Bytes} {size : Nat}
    (room : size ≤ buffer.length) :
    (Writer.init (some buffer) size).Holds buffer [] :=
  ⟨rfl, rfl, Nat.zero_le _, room⟩

def encodeAll (fields : List Field) : Bytes :=
  fields.flatMap Field.encode

theorem encodeAll_cons (field : Field) (fields : List Field) :
    encodeAll (field :: fields) = field.encode ++ encodeAll fields :=
  List.flatMap_cons

theorem encodeAll_append (before after : List Field) :
    encodeAll (before ++ after) = encodeAll before ++ encodeAll after :=
  List.flatMap_append

variable {field : Field} {fields : List Field} {writer final : Writer}

theorem writeAll_cons
    (wrote : writeAll (field :: fields) writer = (.ok, final)) :
    ∃ next, field.write writer = (.ok, next) ∧
      writeAll fields next = (.ok, final) := by
  unfold writeAll at wrote
  split at wrote
  case h_1 next first => exact ⟨next, first, wrote⟩
  case h_2 status next failed first =>
    cases wrote
    exact absurd rfl failed

theorem writeAll_append {before after : List Field}
    (wrote : writeAll (before ++ after) writer = (.ok, final)) :
    ∃ next, writeAll before writer = (.ok, next) ∧
      writeAll after next = (.ok, final) := by
  induction before generalizing writer with
  | nil => exact ⟨writer, rfl, wrote⟩
  | cons field fields ih =>
    obtain ⟨middle, first, rest⟩ := writeAll_cons wrote
    obtain ⟨next, wroteRest, wroteAfter⟩ := ih rest
    refine ⟨next, ?_, wroteAfter⟩
    rw [writeAll, first]
    exact wroteRest

theorem Writer.Holds.writeAll {buffer written : Bytes}
    (holds : writer.Holds buffer written)
    (wrote : Xdr.writeAll fields writer = (.ok, final)) :
    (∀ field ∈ fields, field.Present) ∧
      ∃ buffer', final.Holds buffer' (written ++ encodeAll fields) := by
  induction fields generalizing writer buffer written with
  | nil =>
    cases wrote
    rw [encodeAll, List.flatMap_nil, List.append_nil]
    exact ⟨nofun, buffer, holds⟩
  | cons field fields ih =>
    obtain ⟨next, first, rest⟩ := writeAll_cons wrote
    obtain ⟨present, middle, holdsNext⟩ := holds.write first
    obtain ⟨others, buffer', holdsFinal⟩ := ih holdsNext rest
    rw [List.append_assoc] at holdsFinal
    exact ⟨List.forall_mem_cons.mpr ⟨present, others⟩, buffer', holdsFinal⟩

theorem four_dvd_encodeAll (present : ∀ field ∈ fields, field.Present) :
    4 ∣ (encodeAll fields).length := by
  induction fields with
  | nil => exact Nat.dvd_zero 4
  | cons field fields ih =>
    obtain ⟨first, others⟩ := List.forall_mem_cons.mp present
    rw [encodeAll_cons, List.length_append]
    exact Nat.dvd_add (field.four_dvd_encode first) (ih others)

/-! ## Reading -/

/-- The reader has `ahead` between its offset and its end. -/
structure Reader.Faces (reader : Reader) (buffer ahead : Bytes) : Prop where
  buffer_eq : reader.buffer = some buffer
  drop_eq : (buffer.take reader.size).drop reader.offset = ahead
  within : reader.offset ≤ reader.size
  room : reader.size ≤ buffer.length

def Reader.advance (reader : Reader) (count : Nat) : Reader :=
  { reader with offset := reader.offset + count }

variable {out : Option Bytes}

namespace Reader.Faces

variable {reader : Reader} {buffer bytes rest : Bytes}

theorem length_eq (faces : reader.Faces buffer rest) :
    reader.offset + rest.length = reader.size := by
  have within := faces.within
  have room := faces.room
  rw [← faces.drop_eq, List.length_drop, List.length_take, Nat.min_eq_left room]
  omega

section

variable (faces : reader.Faces buffer (bytes ++ rest))

include faces

theorem space : hasSpace reader.size reader.offset bytes.length = true := by
  have length := faces.length_eq
  rw [List.length_append] at length
  exact hasSpace_iff.mpr (by omega)

theorem advance : (reader.advance bytes.length).Faces buffer rest := by
  have within : reader.offset + bytes.length ≤ reader.size :=
    hasSpace_iff.mp faces.space
  refine ⟨faces.buffer_eq, ?_, within, faces.room⟩
  show (buffer.take reader.size).drop (reader.offset + bytes.length) = rest
  rw [← List.drop_drop, faces.drop_eq]
  exact List.drop_left

theorem peek : reader.peek buffer bytes.length = bytes := by
  have within : reader.offset + bytes.length ≤ reader.size :=
    hasSpace_iff.mp faces.space
  have seen := faces.drop_eq
  rw [List.drop_take] at seen
  have shorter := congrArg (List.take bytes.length) seen
  rw [List.take_take, Nat.min_eq_left (by omega), List.take_left] at shorter
  exact shorter

end

theorem readWord {width value : Nat} (fits : value < 256 ^ width)
    (faces : reader.Faces buffer (encodeBE width value ++ rest)) :
    reader.readWord width = (.ok, reader.advance width, value) := by
  have space := faces.space
  have peeked := faces.peek
  rw [encodeBE_length] at space peeked
  unfold Reader.readWord
  rw [faces.buffer_eq]
  dsimp only
  rw [if_pos space, peeked, wordOf_encodeBE fits, Reader.advance,
    faces.buffer_eq]

theorem readU32 {value : UInt32}
    (faces : reader.Faces buffer (encodeBE 4 value.toNat ++ rest)) :
    reader.readU32 = (.ok, reader.advance 4, value) := by
  have word := faces.readWord value.toNat_lt
  unfold Reader.readU32
  rw [word]
  simp

theorem readU64 {value : UInt64}
    (faces : reader.Faces buffer (encodeBE 8 value.toNat ++ rest)) :
    reader.readU64 = (.ok, reader.advance 8, value) := by
  have word := faces.readWord value.toNat_lt
  unfold Reader.readU64
  rw [word]
  simp

theorem skipOpaque {length : UInt32} (width : padded length = bytes.length)
    (faces : reader.Faces buffer (bytes ++ rest)) :
    reader.skipOpaque length = (.ok, reader.advance bytes.length) := by
  have space := faces.space
  unfold Reader.skipOpaque
  rw [faces.buffer_eq]
  dsimp only
  rw [width, if_pos space, Reader.advance, faces.buffer_eq]

theorem readOpaque (present : data.isMissing = false)
    (large : data.length.toNat ≤ (out.getD []).length)
    (faces : reader.Faces buffer (data.block ++ rest)) :
    reader.readOpaque out data.length = (.ok, reader.advance data.block.length,
        out.map fun out => out.overwrite 0 data.content) := by
  have space := faces.space
  rw [Data.length_block present] at space
  have content : reader.peek buffer data.length.toNat = data.content := by
    rw [Data.block, List.append_assoc] at faces
    have peeked := faces.peek
    rw [Data.length_content present] at peeked
    exact peeked
  have given : ¬(data.length > 0 && out.isNone) = true := by
    intro missing
    obtain ⟨some, none⟩ := (Bool.and_eq_true ..).mp missing
    rw [Option.isNone_iff_eq_none.mp none] at large
    have positive : 0 < data.length.toNat := of_decide_eq_true some
    exact absurd large (Nat.not_le.mpr positive)
  unfold Reader.readOpaque
  rw [faces.buffer_eq]
  dsimp only
  rw [if_neg given, if_pos space, content, Data.length_block present,
    Reader.advance, faces.buffer_eq]

end Reader.Faces

/-- What a field can be read with: a read of its type with large enough
outputs, or a call that skips as many bytes. -/
def Field.Asks : Field → Request → Prop
  | .u32 _, .u32 | .i32 _, .i32 | .u64 _, .u64 | .i64 _, .i64 => True
  | .fixed data, .fixed out length =>
      length = data.length ∧ length.toNat ≤ (out.getD []).length
  | .bytes data, .bytes out outCapacity =>
      data.length ≤ outCapacity ∧ data.length.toNat ≤ (out.getD []).length
  | .string data, .string out outCapacity =>
      data.length + 1 ≤ outCapacity ∧
        data.length.toNat + 1 ≤ (out.getD []).length
  | .bytes _, .skipBytes | .string _, .skipBytes => True
  | field, .skipOpaque length => padded length = field.encode.length
  | _, _ => False

/-- The outputs hold the value of the field. -/
def Field.Answers : Field → Request → Reply → Prop
  | .u32 value, .u32, reply => reply = .u32 value
  | .i32 value, .i32, reply => reply = .i32 value
  | .u64 value, .u64, reply => reply = .u64 value
  | .i64 value, .i64, reply => reply = .i64 value
  | .fixed data, .fixed _ _, .fixed out =>
      (out.getD []).take data.length.toNat = data.content
  | .bytes data, .bytes _ _, .bytes out outLength =>
      outLength = some data.length ∧
        (out.getD []).take data.length.toNat = data.content
  | .string data, .string _ _, .bytes out outLength =>
      outLength = some data.length ∧
        (out.getD []).take (data.length.toNat + 1) = data.content ++ [0]
  | .bytes data, .skipBytes, reply | .string data, .skipBytes, reply =>
      reply = .skipped (some data.length)
  | _, .skipOpaque _, reply => reply = .skipped none
  | _, _, _ => False

theorem Reader.advance_advance (reader : Reader) (first second : Nat) :
    (reader.advance first).advance second =
      reader.advance (first + second) := by
  unfold Reader.advance
  rw [Nat.add_assoc]

theorem Reader.advance_block (reader : Reader) :
    (reader.advance 4).advance data.block.length = reader.advance
        (encodeBE 4 data.length.toNat ++ data.block).length := by
  rw [Reader.advance_advance, List.length_append, encodeBE_length]

theorem Data.delivered (data : Data) (present : data.isMissing = false)
    (out : Option Bytes) (large : data.length.toNat ≤ (out.getD []).length) :
    ((out.map fun out => out.overwrite 0 data.content).getD []).take
      data.length.toNat = data.content := by
  cases out with
  | some out =>
    have taken := out.take_overwrite_zero data.content
    rw [Data.length_content present] at taken
    exact taken
  | none =>
    have zero : data.length.toNat = 0 := Nat.le_zero.mp large
    rw [Data.content, zero]
    rfl

namespace Reader.Faces

variable {reader : Reader} {buffer rest : Bytes}

theorem readLength (faces : reader.Faces buffer
      (encodeBE 4 data.length.toNat ++ data.block ++ rest)) :
    reader.readU32 = (.ok, reader.advance 4, data.length) ∧
      (reader.advance 4).Faces buffer (data.block ++ rest) := by
  rw [List.append_assoc] at faces
  have behind := faces.advance
  rw [encodeBE_length] at behind
  exact ⟨faces.readU32, behind⟩

variable {outCapacity : UInt32}

section

variable (present : data.isMissing = false)

include present

theorem readBytes (capacity : data.length ≤ outCapacity)
    (large : data.length.toNat ≤ (out.getD []).length)
    (faces : reader.Faces buffer
      (encodeBE 4 data.length.toNat ++ data.block ++ rest)) :
    reader.readBytes out outCapacity =
      (.ok, (reader.advance 4).advance data.block.length,
        out.map (fun out => out.overwrite 0 data.content),
        some data.length) := by
  obtain ⟨counted, behind⟩ := faces.readLength
  have opened := behind.readOpaque present large
  unfold Reader.readBytes
  rw [counted]
  dsimp only
  rw [if_neg (UInt32.not_lt.mpr capacity), opened]

theorem readString {out : Bytes} (capacity : data.length + 1 ≤ outCapacity)
    (large : data.length.toNat + 1 ≤ out.length)
    (faces : reader.Faces buffer
      (encodeBE 4 data.length.toNat ++ data.block ++ rest)) :
    reader.readString (some out) outCapacity =
      (.ok, (reader.advance 4).advance data.block.length,
        some (out.overwrite 0 (data.content ++ [0])),
        some data.length) := by
  obtain ⟨counted, behind⟩ := faces.readLength
  have opened := behind.readOpaque present
    (show data.length.toNat ≤ ((some out).getD []).length from
      Nat.le_of_succ_le large)
  have length := Data.length_content present
  -- The terminator lands right behind the bytes.
  have once := Bytes.overwrite_overwrite out data.content [0] 0 (by omega)
  rw [Nat.zero_add, length] at once
  have forward : ¬((reader.advance 4).advance data.block.length).offset <
      (reader.advance 4).offset :=
    Nat.not_lt.mpr (Nat.le_add_right _ _)
  unfold Reader.readString
  rw [counted]
  dsimp only
  rw [if_neg (UInt32.not_lt.mpr capacity), opened]
  dsimp only [Option.map_some]
  rw [if_neg forward, once]

theorem skipBytes (faces : reader.Faces buffer
      (encodeBE 4 data.length.toNat ++ data.block ++ rest)) :
    reader.skipBytes = (.ok, (reader.advance 4).advance data.block.length,
        some data.length) := by
  obtain ⟨counted, behind⟩ := faces.readLength
  have skipped := behind.skipOpaque (Data.length_block present).symm
  unfold Reader.skipBytes
  rw [counted]
  dsimp only
  rw [skipped]

end

/-- Whatever it is read with, a field is behind the reader afterwards. -/
theorem read {field : Field} {request : Request} (present : field.Present)
    (asks : field.Asks request)
    (faces : reader.Faces buffer (field.encode ++ rest)) :
    ∃ reply, request.read reader =
        (.ok, reader.advance field.encode.length, reply) ∧
      field.Answers request reply := by
  cases request with
  | skipOpaque length =>
    have width : padded length = field.encode.length := by
      cases field <;> exact asks
    refine ⟨.skipped none, ?_, by cases field <;> rfl⟩
    rw [Request.read, faces.skipOpaque width]
  | u32 =>
    cases field with
    | u32 value =>
      have word := faces.readU32
      refine ⟨.u32 value, ?_, rfl⟩
      rw [Request.read, word]
      rfl
    | _ => cases asks
  | i32 =>
    cases field with
    | i32 value =>
      have word := faces.readU32
      refine ⟨.i32 value, ?_, rfl⟩
      rw [Request.read, Reader.readI32, word]
      rfl
    | _ => cases asks
  | u64 =>
    cases field with
    | u64 value =>
      have word := faces.readU64
      refine ⟨.u64 value, ?_, rfl⟩
      rw [Request.read, word]
      rfl
    | _ => cases asks
  | i64 =>
    cases field with
    | i64 value =>
      have word := faces.readU64
      refine ⟨.i64 value, ?_, rfl⟩
      rw [Request.read, Reader.readI64, word]
      rfl
    | _ => cases asks
  | fixed out length =>
    cases field with
    | fixed data =>
      obtain ⟨rfl, large⟩ := asks
      have found := present data rfl
      refine ⟨.fixed _, ?_, data.delivered found out large⟩
      rw [Request.read, faces.readOpaque found large]
      rfl
    | _ => cases asks
  | bytes out outCapacity =>
    cases field with
    | bytes data =>
      obtain ⟨capacity, large⟩ := asks
      have found := present data rfl
      refine ⟨.bytes _ _, ?_, rfl, data.delivered found out large⟩
      rw [Request.read, faces.readBytes found capacity large,
        reader.advance_block]
      rfl
    | _ => cases asks
  | string out outCapacity =>
    cases field with
    | string data =>
      obtain ⟨capacity, large⟩ := asks
      have found := present data rfl
      cases out with
      | none => cases large
      | some out =>
        have taken := out.take_overwrite_zero (data.content ++ [0])
        rw [List.length_append, Data.length_content found] at taken
        have written := faces.readString found capacity
          (show data.length.toNat + 1 ≤ out.length from large)
        refine ⟨.bytes (some (out.overwrite 0 (data.content ++ [0])))
          (some data.length), ?_, rfl, taken⟩
        rw [Request.read, written, reader.advance_block]
        rfl
    | _ => cases asks
  | skipBytes =>
    cases field with
    | bytes data | string data =>
      have found := present data rfl
      refine ⟨.skipped (some data.length), ?_, rfl⟩
      rw [Request.read, faces.skipBytes found, reader.advance_block]
      rfl
    | _ => cases asks

end Reader.Faces

/-- Each field of a message has its answer. -/
inductive Answered : List Field → List Request → List Reply → Prop
  | nil : Answered [] [] []
  | cons {field : Field} {fields : List Field} {request : Request}
      {requests : List Request} {reply : Reply} {replies : List Reply} :
      field.Answers request reply → Answered fields requests replies →
      Answered (field :: fields) (request :: requests) (reply :: replies)

theorem Reader.Faces.readAll {reader : Reader} {buffer rest : Bytes}
    {requests : List Request} (present : ∀ field ∈ fields, field.Present)
    (asked : List.Forall₂ Field.Asks fields requests)
    (faces : reader.Faces buffer (encodeAll fields ++ rest)) :
    ∃ replies, Xdr.readAll requests reader =
        (.ok, reader.advance (encodeAll fields).length, replies) ∧
      Answered fields requests replies := by
  induction asked generalizing reader with
  | nil => exact ⟨[], rfl, .nil⟩
  | @cons field request fields requests asks asked ih =>
    obtain ⟨first, others⟩ := List.forall_mem_cons.mp present
    rw [encodeAll_cons, List.append_assoc] at faces
    obtain ⟨reply, read, answers⟩ := faces.read first asks
    obtain ⟨replies, readRest, answered⟩ := ih others faces.advance
    refine ⟨reply :: replies, ?_, .cons answers answered⟩
    rw [Xdr.readAll, read]
    dsimp only
    rw [readRest, encodeAll_cons, List.length_append, Reader.advance_advance]

theorem Writer.Holds.faces {buffer written : Bytes}
    (holds : writer.Holds buffer written) :
    (Reader.init writer.buffer writer.offset).Faces buffer written :=
  ⟨holds.buffer_eq, holds.take_eq, Nat.zero_le _, holds.within.trans holds.room⟩

/-- A message that was written can be read back: every read returns what was
written or skips it, the reader ends where the writer ended, and both keep to
multiples of four all the way. -/
theorem message_roundTrip {buffer : Bytes} {size : Nat}
    (room : size ≤ buffer.length) {fields : List Field} {writer : Writer}
    (wrote : writeAll fields (.init (some buffer) size) = (.ok, writer))
    {requests : List Request}
    (asked : List.Forall₂ Field.Asks fields requests) :
    (∃ reader replies,
      readAll requests (.init writer.buffer writer.offset) =
        (.ok, reader, replies) ∧
      Answered fields requests replies ∧
      reader.offset = writer.offset) ∧
    ∀ count, ∃ writer' reader' replies',
      writeAll (fields.take count) (.init (some buffer) size) =
        (.ok, writer') ∧
      readAll (requests.take count) (.init writer.buffer writer.offset) =
        (.ok, reader', replies') ∧
      reader'.offset = writer'.offset ∧ 4 ∣ writer'.offset := by
  have holdsInit := Writer.holds_init room
  obtain ⟨present, final, holds⟩ := holdsInit.writeAll wrote
  rw [List.nil_append] at holds
  have faces := holds.faces
  constructor
  · rw [← List.append_nil (encodeAll fields)] at faces
    obtain ⟨replies, read, answered⟩ := faces.readAll present asked
    refine ⟨_, replies, read, answered, ?_⟩
    rw [holds.offset_eq]
    exact Nat.zero_add _
  · intro count
    have split : fields = fields.take count ++ fields.drop count :=
      (List.take_append_drop count fields).symm
    have presentFront : ∀ field ∈ fields.take count, field.Present :=
      fun field member => present field (List.mem_of_mem_take member)
    rw [split] at wrote
    obtain ⟨middle, wroteFront, -⟩ := writeAll_append wrote
    obtain ⟨-, half, holdsMiddle⟩ := holdsInit.writeAll wroteFront
    have ahead : encodeAll fields =
        encodeAll (fields.take count) ++ encodeAll (fields.drop count) := by
      rw [← encodeAll_append, ← split]
    rw [ahead] at faces
    obtain ⟨replies, read, -⟩ := faces.readAll presentFront
      (List.forall₂_take count asked)
    refine ⟨middle, _, replies, wroteFront, read, ?_, ?_⟩
    · rw [holdsMiddle.offset_eq]
      exact Nat.zero_add _
    · rw [holdsMiddle.offset_eq]
      exact four_dvd_encodeAll presentFront

def greeting : List Field :=
  [.string ⟨some (ascii "hey"), 3, by decide⟩, .i32 (-1)]

theorem message_roundTrip_greeting :
    ∃ writer,
      writeAll greeting (.init (some (List.replicate 12 0)) 12) =
        (.ok, writer) ∧
      ∃ reader replies,
        readAll [.skipBytes, .i32] (.init writer.buffer writer.offset) =
          (.ok, reader, replies) ∧
        Answered greeting [.skipBytes, .i32] replies ∧
        reader.offset = writer.offset := by
  have asked : List.Forall₂ Field.Asks greeting [.skipBytes, .i32] :=
    .cons trivial (.cons trivial .nil)
  have wrote : writeAll greeting (.init (some (List.replicate 12 0)) 12) =
      (.ok, ⟨some [0, 0, 0, 3, 104, 101, 121, 0, 255, 255, 255, 255], 12,
        12⟩) := by decide
  exact ⟨_, wrote, (message_roundTrip (by decide) wrote asked).1⟩

end Libnei.Xdr

import Libnei.Bytes
import Libnei.Lib.BigEndian

/-!
# External data representation

The writer and the reader of `xdr.c`.  Every write and read checks the bounds
of its buffer before it touches it; a call that fails half-way keeps what its
first part has done.  `float` and `double` are written as the words of their
bits and are not a case of their own.
-/

namespace Libnei.Xdr

open Lib

/-- `nei_xdr_status_e`. -/
inductive Status
  | ok
  | einval
  | ebounds
  deriving DecidableEq

/-- A null buffer is `none`. -/
structure Writer where
  buffer : Option Bytes
  size : Nat
  offset : Nat
  deriving DecidableEq

structure Reader where
  buffer : Option Bytes
  size : Nat
  offset : Nat
  deriving DecidableEq

def Writer.init (buffer : Option Bytes) (size : Nat) : Writer :=
  ⟨buffer, size, 0⟩

def Reader.init (buffer : Option Bytes) (size : Nat) : Reader :=
  ⟨buffer, size, 0⟩

def hasSpace (size offset need : Nat) : Bool :=
  if offset > size then false else need ≤ size - offset

theorem hasSpace_iff {size offset need : Nat} :
    hasSpace size offset need = true ↔ offset + need ≤ size := by
  unfold hasSpace
  split
  · simp
    omega
  · simp
    omega

def padding (length : UInt32) : UInt32 :=
  (4 - (length &&& 3)) &&& 3

/-- The space that `length` bytes take with their padding. -/
def padded (length : UInt32) : Nat :=
  length.toNat + (padding length).toNat

/-- The bytes at an address, `none` for a null pointer, and how many of them
are meant. -/
structure Data where
  pointer : Option Bytes
  length : UInt32
  backed : ∀ bytes ∈ pointer, length.toNat ≤ bytes.length
  deriving DecidableEq

namespace Data

def content (data : Data) : Bytes :=
  (data.pointer.getD []).take data.length.toNat

/-- `length > 0U && data == NULL`. -/
def isMissing (data : Data) : Bool :=
  decide (data.length > 0) && data.pointer.isNone

end Data

/-! ## Writing -/

namespace Writer

def writeWord (width value : Nat) (writer : Writer) : Status × Writer :=
  match writer.buffer with
  | none => (.einval, writer)
  | some buffer =>
      if hasSpace writer.size writer.offset width then
        (.ok, { writer with
          buffer := some (buffer.overwrite writer.offset (encodeBE width value))
          offset := writer.offset + width })
      else (.ebounds, writer)

def writeU32 (value : UInt32) : Writer → Status × Writer :=
  writeWord 4 value.toNat

def writeI32 (value : Int32) : Writer → Status × Writer :=
  writeU32 value.toUInt32

def writeU64 (value : UInt64) : Writer → Status × Writer :=
  writeWord 8 value.toNat

def writeI64 (value : Int64) : Writer → Status × Writer :=
  writeU64 value.toUInt64

def writeOpaque (data : Data) (writer : Writer) : Status × Writer :=
  match writer.buffer with
  | none => (.einval, writer)
  | some buffer =>
      if data.isMissing then (.einval, writer)
      else if hasSpace writer.size writer.offset (padded data.length) then
        let buffer := buffer.overwrite writer.offset data.content
        let offset := writer.offset + data.length.toNat
        let pad := List.replicate (padding data.length).toNat 0
        (.ok, { writer with
          buffer := some (buffer.overwrite offset pad)
          offset := offset + (padding data.length).toNat })
      else (.ebounds, writer)

def writeBytes (data : Data) (writer : Writer) : Status × Writer :=
  match writer.writeU32 data.length with
  | (.ok, writer) => writer.writeOpaque data
  | (status, writer) => (status, writer)

def writeString (data : Data) : Writer → Status × Writer :=
  writeBytes data

end Writer

/-! ## Reading -/

/-- The bytes of a word put together by shifts, the first one highest. -/
def wordOf : Bytes → Nat
  | [] => 0
  | byte :: bytes => byte.toNat <<< (8 * bytes.length) ||| wordOf bytes

namespace Reader

/-- The bytes from the offset on. -/
def peek (reader : Reader) (buffer : Bytes) (length : Nat) : Bytes :=
  (buffer.drop reader.offset).take length

def readWord (width : Nat) (reader : Reader) : Status × Reader × Nat :=
  match reader.buffer with
  | none => (.einval, reader, 0)
  | some buffer =>
      if hasSpace reader.size reader.offset width then
        (.ok, { reader with offset := reader.offset + width },
          wordOf (reader.peek buffer width))
      else (.ebounds, reader, 0)

def readU32 (reader : Reader) : Status × Reader × UInt32 :=
  let (status, reader, word) := reader.readWord 4
  (status, reader, word.toUInt32)

def readI32 (reader : Reader) : Status × Reader × Int32 :=
  let (status, reader, raw) := reader.readU32
  (status, reader, raw.toInt32)

def readU64 (reader : Reader) : Status × Reader × UInt64 :=
  let (status, reader, word) := reader.readWord 8
  (status, reader, word.toUInt64)

def readI64 (reader : Reader) : Status × Reader × Int64 :=
  let (status, reader, raw) := reader.readU64
  (status, reader, raw.toInt64)

def skipOpaque (length : UInt32) (reader : Reader) : Status × Reader :=
  match reader.buffer with
  | none => (.einval, reader)
  | some _ =>
      if hasSpace reader.size reader.offset (padded length) then
        (.ok, { reader with offset := reader.offset + padded length })
      else (.ebounds, reader)

/-- `out` is the memory at the output address, `none` for a null pointer; it
is returned as the call leaves it. -/
def readOpaque (out : Option Bytes) (length : UInt32) (reader : Reader) :
    Status × Reader × Option Bytes :=
  match reader.buffer with
  | none => (.einval, reader, out)
  | some buffer =>
      if length > 0 && out.isNone then (.einval, reader, out)
      else if hasSpace reader.size reader.offset (padded length) then
        (.ok, { reader with offset := reader.offset + padded length },
          out.map fun out =>
            out.overwrite 0 (reader.peek buffer length.toNat))
      else (.ebounds, reader, out)

/-- The last component is what the call stores at `out_length`. -/
def readBytes (out : Option Bytes) (outCapacity : UInt32) (reader : Reader) :
    Status × Reader × Option Bytes × Option UInt32 :=
  match reader.readU32 with
  | (.ok, reader, length) =>
      if length > outCapacity then (.ebounds, reader, out, some length)
      else
        let (status, reader, out) := reader.readOpaque out length
        (status, reader, out, some length)
  | (status, reader, _) => (status, reader, out, none)

def readString (out : Option Bytes) (outCapacity : UInt32) (reader : Reader) :
    Status × Reader × Option Bytes × Option UInt32 :=
  match out with
  | none => (.einval, reader, out, none)
  | some _ =>
      match reader.readU32 with
      | (.ok, reader, length) =>
          if length + 1 > outCapacity then
            (.ebounds, reader, out, some length)
          else
            match reader.readOpaque out length with
            | (.ok, next, out) =>
                let out := out.map fun out =>
                  out.overwrite length.toNat [0]
                if next.offset < reader.offset then
                  (.ebounds, next, out, some length)
                else (.ok, next, out, some length)
            | (status, next, out) => (status, next, out, some length)
      | (status, reader, _) => (status, reader, out, none)

def skipBytes (reader : Reader) : Status × Reader × Option UInt32 :=
  match reader.readU32 with
  | (.ok, reader, length) =>
      let (status, reader) := reader.skipOpaque length
      (status, reader, some length)
  | (status, reader, _) => (status, reader, none)

end Reader

/-! ## Messages -/

/-- One typed write. -/
inductive Field
  | u32 (value : UInt32)
  | i32 (value : Int32)
  | u64 (value : UInt64)
  | i64 (value : Int64)
  | fixed (data : Data)
  | bytes (data : Data)
  | string (data : Data)
  deriving DecidableEq

def Field.write : Field → Writer → Status × Writer
  | .u32 value => Writer.writeU32 value
  | .i32 value => Writer.writeI32 value
  | .u64 value => Writer.writeU64 value
  | .i64 value => Writer.writeI64 value
  | .fixed data => Writer.writeOpaque data
  | .bytes data => Writer.writeBytes data
  | .string data => Writer.writeString data

def writeAll : List Field → Writer → Status × Writer
  | [], writer => (.ok, writer)
  | field :: fields, writer =>
      match field.write writer with
      | (.ok, writer) => writeAll fields writer
      | (status, writer) => (status, writer)

/-- One typed read with its outputs, or a call that skips. -/
inductive Request
  | u32
  | i32
  | u64
  | i64
  | fixed (out : Option Bytes) (length : UInt32)
  | bytes (out : Option Bytes) (outCapacity : UInt32)
  | string (out : Option Bytes) (outCapacity : UInt32)
  | skipOpaque (length : UInt32)
  | skipBytes
  deriving DecidableEq

/-- What a call leaves in its outputs. -/
inductive Reply
  | u32 (value : UInt32)
  | i32 (value : Int32)
  | u64 (value : UInt64)
  | i64 (value : Int64)
  | fixed (out : Option Bytes)
  | bytes (out : Option Bytes) (outLength : Option UInt32)
  | skipped (outLength : Option UInt32)
  deriving DecidableEq

def Request.read : Request → Reader → Status × Reader × Reply
  | .u32, reader =>
      let (status, reader, value) := reader.readU32
      (status, reader, .u32 value)
  | .i32, reader =>
      let (status, reader, value) := reader.readI32
      (status, reader, .i32 value)
  | .u64, reader =>
      let (status, reader, value) := reader.readU64
      (status, reader, .u64 value)
  | .i64, reader =>
      let (status, reader, value) := reader.readI64
      (status, reader, .i64 value)
  | .fixed out length, reader =>
      let (status, reader, out) := reader.readOpaque out length
      (status, reader, .fixed out)
  | .bytes out outCapacity, reader =>
      let (status, reader, out, length) := reader.readBytes out outCapacity
      (status, reader, .bytes out length)
  | .string out outCapacity, reader =>
      let (status, reader, out, length) := reader.readString out outCapacity
      (status, reader, .bytes out length)
  | .skipOpaque length, reader =>
      let (status, reader) := reader.skipOpaque length
      (status, reader, .skipped none)
  | .skipBytes, reader =>
      let (status, reader, length) := reader.skipBytes
      (status, reader, .skipped length)

def readAll : List Request → Reader → Status × Reader × List Reply
  | [], reader => (.ok, reader, [])
  | request :: requests, reader =>
      match request.read reader with
      | (.ok, reader, reply) =>
          let (status, reader, replies) := readAll requests reader
          (status, reader, reply :: replies)
      | (status, reader, _) => (status, reader, [])

end Libnei.Xdr

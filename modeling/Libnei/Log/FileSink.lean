import Libnei.Lib.Files
import Libnei.Text

/-!
# The file sink of the log

The built-in file sink of `log_sink.c` with its batch buffer and the rotation
by size.  Opening, removing, renaming and writing succeed; bytes that were
handed to the stream count as bytes of the file.  Sizes do not wrap.
-/

namespace Libnei.Log

open Lib

structure FileSinkOptions where
  maxFileBytes : Nat
  maxBackupFiles : UInt32
  flushInterval : Nat
  writeBatchBytes : Nat

/-- `_nei_log_default_file_sink_ctx_st` and the disk.  `writeBatch` has the
used bytes of the batch buffer, and `writeBatchCap` is 0 without a buffer.
`closed` has the content of the current file at every rotation. -/
structure FileSink where
  filename : Bytes
  flushCounter : Nat
  flushInterval : Nat
  maxBackupFiles : UInt32
  maxFileBytes : Nat
  writeBatchCap : Nat
  writeBatch : Bytes
  currentSize : Nat
  files : Files Bytes Bytes
  closed : List Bytes

def terminated (message : Bytes) : Bytes := message ++ ascii "\n"

/-- The text that `"%s.%u"` prints. -/
def rotatedPath (filename : Bytes) (index : Nat) : Bytes :=
  filename ++ ascii "." ++ digits 10 index

/-- `_nei_log_file_sink_build_rotated_path`. -/
def buildRotatedPath (filename : Bytes) (index outCap : Nat) : Option Bytes :=
  let path := rotatedPath filename index
  if path.length ≥ outCap then none else some path

/-- `fopen` with the mode `"ab"`. -/
def openFile (files : Files Bytes Bytes) (path : Bytes) : Files Bytes Bytes :=
  match files path with
  | none => files.write path []
  | some _ => files

/-- The rename cascade of `_nei_log_file_sink_rotate`. -/
def shiftBackups (filename : Bytes) (pathCap : Nat) :
    Nat → Files Bytes Bytes → Files Bytes Bytes
  | index + 2, files =>
      shiftBackups filename pathCap (index + 1)
        (match buildRotatedPath filename (index + 1) pathCap,
            buildRotatedPath filename (index + 2) pathCap with
        | some source, some target =>
            (files.remove target).rename source target
        | _, _ => files)
  | _, files => files

/-- The work of `_nei_log_file_sink_rotate` on the disk. -/
def rotateFiles (filename : Bytes) (maxBackupFiles : Nat)
    (files : Files Bytes Bytes) : Files Bytes Bytes :=
  let pathCap := filename.length + 16
  let files := match buildRotatedPath filename maxBackupFiles pathCap with
    | some target => files.remove target
    | none => files
  let files := shiftBackups filename pathCap maxBackupFiles files
  let files := match buildRotatedPath filename 1 pathCap with
    | some target => (files.remove target).rename filename target
    | none => files
  openFile files filename

namespace FileSink

variable (sink : FileSink)

def content : Bytes := (sink.files sink.filename).getD []

/-- `_nei_log_file_write_all_fd` on the stream of the current file. -/
def writeAll (bytes : Bytes) : FileSink :=
  { sink with
    files := sink.files.write sink.filename (sink.content ++ bytes) }

/-- `_nei_log_file_write_line`. -/
def writeLine (message : Bytes) : FileSink :=
  sink.writeAll (terminated message)

/-- `_nei_log_file_sink_flush_pending`. -/
def flushPending : FileSink :=
  if sink.writeBatch.length > 0 then
    { sink.writeAll sink.writeBatch with writeBatch := [] }
  else sink

/-- `_nei_log_file_sink_rotate`. -/
def rotate : FileSink :=
  if sink.maxBackupFiles = 0 then sink
  else
    let flushed := sink.flushPending
    let rotated := { flushed with
      writeBatch := []
      flushCounter := 0
      files := rotateFiles flushed.filename flushed.maxBackupFiles.toNat
        flushed.files
      closed := flushed.closed ++ [flushed.content] }
    { rotated with currentSize := rotated.content.length }

/-- `_nei_log_file_sink_prepare_write`. -/
def prepareWrite (lineSize : Nat) : FileSink :=
  if sink.maxFileBytes = 0 ∨ sink.maxBackupFiles = 0 then sink
  else if sink.currentSize = 0 then sink
  else if sink.currentSize + lineSize ≤ sink.maxFileBytes then sink
  else sink.rotate

/-- `_nei_log_file_sink_is_immediate_flush`. -/
def isImmediateFlush : Bool :=
  sink.flushInterval ≤ 1 && sink.writeBatchCap = 0

/-- The line is in the file and counted. -/
def writeCounted (message : Bytes) : FileSink :=
  { sink.writeLine message with
    currentSize := sink.currentSize + (message.length + 1) }

/-- `_nei_log_file_sink_write_line_and_flush`. -/
def writeLineAndFlush (message : Bytes) : FileSink :=
  (sink.prepareWrite (message.length + 1)).writeCounted message

/-- The line is in the batch buffer and counted. -/
def batchCounted (message : Bytes) : FileSink :=
  { sink with
    writeBatch := sink.writeBatch ++ terminated message
    currentSize := sink.currentSize + (message.length + 1) }

/-- `_nei_log_file_sink_append_line`. -/
def appendLine (message : Bytes) : FileSink :=
  let lineSize := message.length + 1
  let ready := sink.prepareWrite lineSize
  if ready.writeBatchCap = 0 then ready.writeCounted message
  else if lineSize > ready.writeBatchCap then
    ready.flushPending.writeCounted message
  else if ready.writeBatch.length + lineSize > ready.writeBatchCap then
    ready.flushPending.batchCounted message
  else ready.batchCounted message

/-- What the two callbacks do behind `_nei_log_file_sink_append_line`. -/
def countFlush : FileSink :=
  if sink.flushInterval > 0 then
    let counted := { sink with flushCounter := sink.flushCounter + 1 }
    if counted.flushCounter ≥ counted.flushInterval then
      { counted with flushCounter := 0 }.flushPending
    else counted
  else sink.flushPending

def logLine (message : Bytes) : FileSink :=
  if sink.isImmediateFlush then sink.writeLineAndFlush message
  else (sink.appendLine message).countFlush

/-- `_nei_log_default_file_llog`. -/
def llog (_level : Int) (message : Bytes) : FileSink := sink.logLine message

/-- `_nei_log_default_file_vlog`. -/
def vlog (_verbose : Int) (message : Bytes) : FileSink :=
  sink.logLine message

end FileSink

/-- `nei_log_create_default_file_sink`; `allocated` says whether there was
memory for the batch buffer. -/
def createDefaultFileSink (filename : Bytes) (options : FileSinkOptions)
    (allocated : Bool) (disk : Files Bytes Bytes) : FileSink :=
  let files := openFile disk filename
  { filename
    flushCounter := 0
    flushInterval := options.flushInterval
    maxBackupFiles := options.maxBackupFiles
    maxFileBytes := options.maxFileBytes
    writeBatchCap := if options.writeBatchBytes > 0 ∧ allocated then
      options.writeBatchBytes else 0
    writeBatch := []
    currentSize := ((files filename).getD []).length
    files
    closed := [] }

inductive SinkCall
  | llog (level : Int) (message : Bytes)
  | vlog (verbose : Int) (message : Bytes)
  | autoFlush

def SinkCall.message : SinkCall → Option Bytes
  | .llog _ message | .vlog _ message => some message
  | .autoFlush => none

/-- `autoFlush` is the work of `_nei_log_auto_flush_file_sinks` on this
sink. -/
def FileSink.call (sink : FileSink) : SinkCall → FileSink
  | .llog level message => sink.llog level message
  | .vlog verbose message => sink.vlog verbose message
  | .autoFlush => sink.flushPending

/-- The backups `N` to `1`. -/
def FileSink.backups (sink : FileSink) : List Bytes :=
  sink.files.numbered (rotatedPath sink.filename) sink.maxBackupFiles.toNat

end Libnei.Log

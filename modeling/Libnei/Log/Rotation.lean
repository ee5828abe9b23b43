import Libnei.Log.FileSink

/-!
# Rotation of the log file

The backups are always the newest of the closed files, with those that the
sink has found behind them, and every byte that was logged is in a closed
file, in the current file or in the batch buffer.
-/

namespace Libnei.Log

open Lib

section Paths

variable (filename : Bytes)

theorem rotatedPath_injective :
    Function.Injective (rotatedPath filename) := fun _ _ same =>
  digits_injective (List.append_cancel_left same)

theorem rotatedPath_ne (index : Nat) :
    filename ≠ rotatedPath filename index := by
  intro same
  have lengths := congrArg List.length same
  simp [rotatedPath, ascii] at lengths

/-- The capacity of the path buffers is enough for every index. -/
theorem buildRotatedPath_eq {index : Nat} (word : index < 2 ^ 32) :
    buildRotatedPath filename index (filename.length + 16) =
      some (rotatedPath filename index) := by
  have short : (digits 10 index).length ≤ 10 := by
    rw [digits, List.length_map]
    exact (Nat.length_toDigits_le_iff (by decide) (by decide)).mpr (by omega)
  have fits : ¬(rotatedPath filename index).length ≥ filename.length + 16 := by
    simp only [rotatedPath, List.length_append, ascii, List.length_map]
    have dot : ".".toList.length = 1 := rfl
    omega
  exact if_neg fits

theorem shiftBackups_eq {last : Nat} (word : last < 2 ^ 32)
    (files : Files Bytes Bytes) :
    shiftBackups filename (filename.length + 16) last files =
      Files.shift (rotatedPath filename) last files := by
  induction last using Nat.twoStepInduction generalizing files with
  | zero => rfl
  | one => rfl
  | more last _ ih =>
    rw [shiftBackups, ih (Nat.lt_of_succ_lt word), Files.shift,
      buildRotatedPath_eq filename (Nat.lt_of_succ_lt word),
      buildRotatedPath_eq filename word]
    rfl

end Paths

/-- The disk behind a rotation. -/
structure Rotated (filename : Bytes) (last : Nat) (content : Bytes)
    (before after : Files Bytes Bytes) : Prop where
  current : after filename = some []
  newest : after (rotatedPath filename 1) = some content
  older : ∀ {index}, 0 < index → index < last →
    after (rotatedPath filename (index + 1)) =
      before (rotatedPath filename index)
  others : ∀ {index}, last < index →
    after (rotatedPath filename index) = before (rotatedPath filename index)

theorem rotateFiles_spec {filename content : Bytes} {last : Nat}
    {files : Files Bytes Bytes} (positive : 0 < last) (word : last < 2 ^ 32)
    (found : files filename = some content) :
    Rotated filename last content files (rotateFiles filename last files) := by
  have distinct := rotatedPath_injective filename
  have apart := rotatedPath_ne filename
  generalize result : rotateFiles filename last files = after
  rw [rotateFiles, buildRotatedPath_eq filename word,
    shiftBackups_eq filename word,
    buildRotatedPath_eq filename (by decide)] at result
  dsimp only at result
  generalize removed : files.remove (rotatedPath filename last) = cleared
    at result
  have cleared_of_ne : ∀ {path}, path ≠ rotatedPath filename last →
      cleared path = files path := by
    intro path different
    rw [← removed]
    exact Function.update_of_ne different ..
  generalize moved : Files.shift (rotatedPath filename) last cleared = shifted
    at result
  have kept : shifted filename = some content := by
    rw [← moved, Files.shift_of_ne distinct fun _ _ _ => apart _,
      cleared_of_ne (apart last), found]
  change openFile (shifted.replace filename (rotatedPath filename 1))
    filename = after at result
  rw [openFile, Files.replace_source (apart 1)] at result
  dsimp only at result
  have behind : ∀ index, after (rotatedPath filename index) =
      shifted.replace filename (rotatedPath filename 1)
        (rotatedPath filename index) := by
    intro index
    rw [← result]
    exact Function.update_of_ne (apart index).symm ..
  constructor
  · rw [← result]
    exact Function.update_self ..
  · rw [behind, Files.replace_target (apart 1), kept]
  · intro index low high
    rw [behind, Files.replace_of_ne (apart 1) (apart _).symm
      (distinct.ne (by omega)), ← moved, Files.shift_succ distinct low high,
      cleared_of_ne (distinct.ne (Nat.ne_of_lt high))]
  · intro index above
    rw [behind, Files.replace_of_ne (apart 1) (apart _).symm
      (distinct.ne (by omega)), ← moved,
      Files.shift_of_ne distinct fun other _ le => distinct.ne (by omega),
      cleared_of_ne (distinct.ne (Nat.ne_of_gt above))]

theorem length_terminated (message : Bytes) :
    (terminated message).length = message.length + 1 :=
  List.length_append

/-- At most `limit` bytes, one of the logged lines or a file as it was
found. -/
abbrev Fits (limit : Nat) (found messages : List Bytes) (file : Bytes) : Prop :=
  file.length ≤ limit ∨ (∃ message ∈ messages, file = terminated message) ∨
    file ∈ found

theorem Fits.more {limit : Nat} {found messages : List Bytes} {file : Bytes}
    (fits : Fits limit found messages file) (message : Bytes) :
    Fits limit found (messages ++ [message]) file :=
  fits.imp_right <| .imp_left fun ⟨line, member, same⟩ =>
    ⟨line, List.mem_append_left _ member, same⟩

namespace FileSink

/-- The bytes that are not in a closed file. -/
def live (sink : FileSink) : Bytes := sink.content ++ sink.writeBatch

/-- The current file and the backups. -/
def found (sink : FileSink) : List Bytes := sink.content :: sink.backups

def backup (sink : FileSink) (index : Nat) : Option Bytes :=
  sink.files (rotatedPath sink.filename (index + 1))

/-- The sink has logged `messages` since the start. -/
structure Sound (sink start : FileSink) (messages : List Bytes) : Prop where
  opened : sink.files sink.filename = some sink.content
  logged : sink.closed.flatten ++ sink.live =
    start.content ++ (messages.map terminated).flatten
  size : sink.currentSize = sink.live.length
  unbuffered : sink.writeBatchCap = 0 → sink.writeBatch = []
  row : ∀ index, sink.backup index =
    if index < sink.maxBackupFiles.toNat then
      Files.shelf start.backup sink.closed.reverse index
    else start.backup index

/-- The files of a sink that rotates keep to the limit. -/
structure Bounded (sink start : FileSink) (messages : List Bytes) : Prop where
  closed : ∀ file ∈ sink.closed,
    Fits sink.maxFileBytes start.found messages file
  live : Fits sink.maxFileBytes start.found messages sink.live
  apart : sink.live.length ≤ sink.maxFileBytes ∨ sink.content = [] ∨
    sink.writeBatch = []

variable {start sink : FileSink} {messages : List Bytes}

theorem content_writeAll (sink : FileSink) (bytes : Bytes) :
    (sink.writeAll bytes).content = sink.content ++ bytes := by
  have written : (sink.writeAll bytes).files sink.filename =
      some (sink.content ++ bytes) := Function.update_self ..
  exact congrArg (·.getD []) written

variable {next : FileSink} {message : Bytes}

/-- A write to the current file, whatever else it changes. -/
theorem Sound.write (sound : sink.Sound start messages) {bytes : Bytes}
    {messages' : List Bytes} (files : next.files = (sink.writeAll bytes).files)
    (filename : next.filename = sink.filename)
    (maxBackupFiles : next.maxBackupFiles = sink.maxBackupFiles)
    (closed : next.closed = sink.closed) (unbuffered : next.writeBatch = [])
    (logged : sink.closed.flatten ++ (sink.content ++ bytes) =
      start.content ++ (messages'.map terminated).flatten)
    (size : next.currentSize = (sink.content ++ bytes).length) :
    next.Sound start messages' := by
  have content : next.content = sink.content ++ bytes := by
    rw [FileSink.content, files, filename]
    exact content_writeAll sink bytes
  have live : next.live = sink.content ++ bytes := by
    rw [FileSink.live, content, unbuffered, List.append_nil]
  constructor
  · rw [content, files, filename]
    exact Function.update_self ..
  · rw [live, closed, logged]
  · rw [live, size]
  · exact fun _ => unbuffered
  · intro index
    rw [backup, files, filename, closed, maxBackupFiles, ← sound.row]
    exact Function.update_of_ne (rotatedPath_ne _ _).symm ..

/-! ## The pending bytes -/

theorem writeBatch_flushPending : sink.flushPending.writeBatch = [] := by
  unfold flushPending
  split
  case isTrue _ => rfl
  case isFalse empty =>
    exact List.eq_nil_of_length_eq_zero (Nat.eq_zero_of_not_pos empty)

theorem content_flushPending : sink.flushPending.content = sink.live := by
  unfold flushPending
  split
  case isTrue _ => exact content_writeAll sink sink.writeBatch
  case isFalse empty =>
    rw [live, List.eq_nil_of_length_eq_zero (Nat.eq_zero_of_not_pos empty),
      List.append_nil]

theorem live_flushPending : sink.flushPending.live = sink.live := by
  rw [live, writeBatch_flushPending, List.append_nil, content_flushPending]

section

variable (sound : sink.Sound start messages)

include sound

theorem Sound.flushPending :
    sink.flushPending.Sound start messages := by
  unfold FileSink.flushPending
  split
  case isTrue _ =>
    exact sound.write rfl rfl rfl rfl rfl sound.logged sound.size
  case isFalse _ => exact sound

/-! ## A rotation -/

/-- The disk that `rotateFiles` leaves, as a disk of a sink. -/
theorem Sound.renew (flushed : sink.writeBatch = [])
    (positive : 0 < sink.maxBackupFiles.toNat)
    (disk : Rotated sink.filename sink.maxBackupFiles.toNat sink.content
      sink.files next.files) (filename : next.filename = sink.filename)
    (maxBackupFiles : next.maxBackupFiles = sink.maxBackupFiles)
    (closed : next.closed = sink.closed ++ [sink.content])
    (writeBatch : next.writeBatch = [])
    (size : next.currentSize = next.content.length) :
    next.Sound start messages ∧ next.live = [] := by
  have content : next.content = [] := by
    rw [FileSink.content, filename, disk.current]
    rfl
  have live : next.live = [] := by
    rw [FileSink.live, content, writeBatch]
    rfl
  refine ⟨⟨?_, ?_, ?_, fun _ => writeBatch, ?_⟩, live⟩
  · rw [content, filename, disk.current]
  · have logged := sound.logged
    rw [FileSink.live, flushed, List.append_nil] at logged
    rw [live, closed, ← logged]
    simp
  · rw [size, content, live]
  · intro index
    rw [backup, filename, maxBackupFiles, closed, List.reverse_concat]
    cases index with
    | zero =>
      rw [if_pos positive, disk.newest]
      rfl
    | succ index =>
      by_cases inside : index + 1 < sink.maxBackupFiles.toNat
      · have row := sound.row index
        rw [if_pos (Nat.lt_of_succ_lt inside)] at row
        rw [if_pos inside, disk.older (Nat.succ_pos index) inside]
        exact row
      · have row := sound.row (index + 1)
        rw [if_neg inside] at row
        rw [if_neg inside, disk.others (by omega)]
        exact row

theorem Sound.rotate (enabled : sink.maxBackupFiles ≠ 0) :
    sink.rotate.Sound start messages ∧ sink.rotate.live = [] := by
  have flushed := sound.flushPending
  have same : sink.flushPending.maxBackupFiles = sink.maxBackupFiles := by
    unfold FileSink.flushPending
    split <;> rfl
  have positive : 0 < sink.flushPending.maxBackupFiles.toNat := by
    rw [same, Nat.pos_iff_ne_zero]
    exact fun zero => enabled (UInt32.toNat_inj.mp zero)
  have disk := rotateFiles_spec positive (UInt32.toNat_lt _) flushed.opened
  rw [FileSink.rotate, if_neg enabled]
  exact flushed.renew writeBatch_flushPending positive disk rfl rfl rfl rfl rfl

end

/-- What the calls never change. -/
structure Keeps (sink next : FileSink) : Prop where
  filename : next.filename = sink.filename
  maxBackupFiles : next.maxBackupFiles = sink.maxBackupFiles
  maxFileBytes : next.maxFileBytes = sink.maxFileBytes
  writeBatchCap : next.writeBatchCap = sink.writeBatchCap

theorem Keeps.trans {first second third : FileSink}
    (left : Keeps first second) (right : Keeps second third) :
    Keeps first third :=
  ⟨right.filename.trans left.filename,
    right.maxBackupFiles.trans left.maxBackupFiles,
    right.maxFileBytes.trans left.maxFileBytes,
    right.writeBatchCap.trans left.writeBatchCap⟩

theorem keeps_flushPending : Keeps sink sink.flushPending := by
  unfold FileSink.flushPending
  split <;> exact ⟨rfl, rfl, rfl, rfl⟩

theorem keeps_rotate : Keeps sink sink.rotate := by
  unfold FileSink.rotate
  split
  · exact ⟨rfl, rfl, rfl, rfl⟩
  · obtain ⟨filename, maxBackupFiles, maxFileBytes, writeBatchCap⟩ :=
      @keeps_flushPending sink
    exact ⟨filename, maxBackupFiles, maxFileBytes, writeBatchCap⟩

theorem closed_flushPending : sink.flushPending.closed = sink.closed := by
  unfold FileSink.flushPending
  split <;> rfl

theorem closed_rotate (enabled : sink.maxBackupFiles ≠ 0) :
    sink.rotate.closed = sink.closed ++ [sink.live] := by
  rw [FileSink.rotate, if_neg enabled]
  show sink.flushPending.closed ++ [sink.flushPending.content] = _
  rw [closed_flushPending, content_flushPending]

/-! ## The whole invariant -/

def Rotates (sink : FileSink) : Prop :=
  sink.maxFileBytes ≠ 0 ∧ sink.maxBackupFiles ≠ 0

structure Holds (sink start : FileSink) (messages : List Bytes) : Prop where
  sound : sink.Sound start messages
  bounded : sink.Rotates → sink.Bounded start messages

theorem Holds.flushPending (holds : sink.Holds start messages) :
    sink.flushPending.Holds start messages := by
  refine ⟨holds.sound.flushPending, fun rotates => ?_⟩
  rw [Rotates, keeps_flushPending.maxFileBytes,
    keeps_flushPending.maxBackupFiles] at rotates
  have bounded := holds.bounded rotates
  constructor
  · rw [closed_flushPending, keeps_flushPending.maxFileBytes]
    exact bounded.closed
  · rw [live_flushPending, keeps_flushPending.maxFileBytes]
    exact bounded.live
  · exact .inr (.inr writeBatch_flushPending)

theorem Holds.rotate (holds : sink.Holds start messages)
    (rotates : sink.Rotates) :
    sink.rotate.Holds start messages ∧ sink.rotate.live = [] := by
  obtain ⟨sound, empty⟩ := holds.sound.rotate rotates.2
  have bounded := holds.bounded rotates
  refine ⟨⟨sound, fun _ => ⟨?_, ?_, ?_⟩⟩, empty⟩
  · rw [closed_rotate rotates.2, keeps_rotate.maxFileBytes]
    intro file member
    rcases List.mem_append.mp member with old | new
    · exact bounded.closed file old
    · rw [List.mem_singleton.mp new]
      exact bounded.live
  · rw [empty]
    exact .inl (Nat.zero_le _)
  · rw [empty]
    exact .inl (Nat.zero_le _)

/-- There is room for a line of `lineSize` bytes. -/
def Ready (sink : FileSink) (lineSize : Nat) : Prop :=
  sink.Rotates → sink.live = [] ∨
    sink.live.length + lineSize ≤ sink.maxFileBytes

theorem Holds.prepareWrite (holds : sink.Holds start messages)
    (lineSize : Nat) :
    (sink.prepareWrite lineSize).Holds start messages ∧
      (sink.prepareWrite lineSize).Ready lineSize := by
  have size := holds.sound.size
  unfold FileSink.prepareWrite
  split
  case isTrue disabled =>
    exact ⟨holds, fun rotates =>
      disabled.elim (absurd · rotates.1) (absurd · rotates.2)⟩
  case isFalse enabled =>
    split
    case isTrue empty =>
      rw [size] at empty
      exact ⟨holds, fun _ => .inl (List.eq_nil_of_length_eq_zero empty)⟩
    case isFalse _ =>
      split
      case isTrue fits =>
        rw [size] at fits
        exact ⟨holds, fun _ => .inr fits⟩
      case isFalse _ =>
        obtain ⟨rotated, empty⟩ := holds.rotate (not_or.mp enabled)
        exact ⟨rotated, fun _ => .inl empty⟩

theorem Bounded.append (bounded : sink.Bounded start messages)
    (room : sink.live = [] ∨
      sink.live.length + (message.length + 1) ≤ sink.maxFileBytes)
    (maxFileBytes : next.maxFileBytes = sink.maxFileBytes)
    (closed : next.closed = sink.closed)
    (live : next.live = sink.live ++ terminated message)
    (apart : next.writeBatch = [] ∨ next.content = sink.content) :
    next.Bounded start (messages ++ [message]) := by
  constructor
  · rw [closed, maxFileBytes]
    exact fun file member => (bounded.closed file member).more message
  · rw [live, maxFileBytes]
    rcases room with empty | fits
    · rw [empty, List.nil_append]
      exact .inr (.inl ⟨message,
        List.mem_append_right _ List.mem_cons_self, rfl⟩)
    · refine .inl ?_
      rw [List.length_append, length_terminated]
      exact fits
  · rcases room with empty | fits
    · refine .inr (apart.symm.imp_left fun same => ?_)
      rw [same]
      exact (List.append_eq_nil_iff.mp empty).1
    · refine .inl ?_
      rw [live, maxFileBytes, List.length_append, length_terminated]
      exact fits

theorem flatten_terminated (messages : List Bytes) (message : Bytes) :
    ((messages ++ [message]).map terminated).flatten =
      (messages.map terminated).flatten ++ terminated message := by
  simp

theorem Holds.writeCounted (holds : sink.Holds start messages)
    (flushed : sink.writeBatch = []) (ready : sink.Ready (message.length + 1)) :
    (sink.writeCounted message).Holds start (messages ++ [message]) := by
  have content : (sink.writeCounted message).content =
      sink.content ++ terminated message :=
    content_writeAll sink (terminated message)
  have whole : sink.live = sink.content := by
    rw [live, flushed, List.append_nil]
  refine ⟨?_, fun rotates => ?_⟩
  · refine holds.sound.write rfl rfl rfl rfl flushed ?_ ?_
    · rw [flatten_terminated, ← List.append_assoc start.content,
        ← holds.sound.logged, whole, List.append_assoc]
    · show sink.currentSize + (message.length + 1) = _
      rw [holds.sound.size, whole, List.length_append, length_terminated]
  · refine (holds.bounded rotates).append (ready rotates) rfl rfl ?_ ?_
    · rw [live, content, whole]
      show _ ++ sink.writeBatch = _
      rw [flushed, List.append_nil]
    · exact .inl flushed

theorem Holds.batchCounted (holds : sink.Holds start messages)
    (buffered : sink.writeBatchCap ≠ 0)
    (ready : sink.Ready (message.length + 1)) :
    (sink.batchCounted message).Holds start (messages ++ [message]) := by
  have live : (sink.batchCounted message).live =
      sink.live ++ terminated message :=
    (List.append_assoc ..).symm
  refine ⟨⟨holds.sound.opened, ?_, ?_, fun none => absurd none buffered,
    holds.sound.row⟩, fun rotates => ?_⟩
  · rw [live, flatten_terminated, ← List.append_assoc start.content,
      ← holds.sound.logged, List.append_assoc]
    rfl
  · show sink.currentSize + (message.length + 1) = _
    rw [live, holds.sound.size, List.length_append, length_terminated]
  · exact (holds.bounded rotates).append (ready rotates) rfl rfl live
      (.inr rfl)

theorem keeps_prepareWrite (lineSize : Nat) :
    Keeps sink (sink.prepareWrite lineSize) := by
  unfold FileSink.prepareWrite
  split
  · exact ⟨rfl, rfl, rfl, rfl⟩
  split
  · exact ⟨rfl, rfl, rfl, rfl⟩
  split
  · exact ⟨rfl, rfl, rfl, rfl⟩
  · exact keeps_rotate

theorem keeps_writeCounted (message : Bytes) :
    Keeps sink (sink.writeCounted message) := ⟨rfl, rfl, rfl, rfl⟩

theorem keeps_batchCounted (message : Bytes) :
    Keeps sink (sink.batchCounted message) := ⟨rfl, rfl, rfl, rfl⟩

theorem Ready.flushPending {lineSize : Nat} (ready : sink.Ready lineSize) :
    sink.flushPending.Ready lineSize := by
  rw [Ready, Rotates, live_flushPending, keeps_flushPending.maxFileBytes,
    keeps_flushPending.maxBackupFiles]
  exact ready

theorem Holds.appendLine (holds : sink.Holds start messages) (message : Bytes) :
    (sink.appendLine message).Holds start (messages ++ [message]) := by
  obtain ⟨prepared, ready⟩ := holds.prepareWrite (message.length + 1)
  unfold FileSink.appendLine
  dsimp only
  generalize sink.prepareWrite (message.length + 1) = sink at prepared ready
  split
  case isTrue none =>
    exact prepared.writeCounted (prepared.sound.unbuffered none) ready
  case isFalse buffered =>
    split
    case isTrue _ =>
      exact prepared.flushPending.writeCounted writeBatch_flushPending
        ready.flushPending
    case isFalse _ =>
      split
      case isTrue _ =>
        rw [← keeps_flushPending.writeBatchCap] at buffered
        exact prepared.flushPending.batchCounted buffered
          ready.flushPending
      case isFalse _ => exact prepared.batchCounted buffered ready

theorem keeps_appendLine (message : Bytes) :
    Keeps sink (sink.appendLine message) := by
  refine (keeps_prepareWrite (message.length + 1)).trans ?_
  unfold FileSink.appendLine
  dsimp only
  generalize sink.prepareWrite (message.length + 1) = sink
  split
  · exact keeps_writeCounted message
  split
  · exact keeps_flushPending.trans (keeps_writeCounted message)
  split
  · exact keeps_flushPending.trans (keeps_batchCounted message)
  · exact keeps_batchCounted message

theorem Holds.counter (holds : sink.Holds start messages) (flushCounter : Nat) :
    ({ sink with flushCounter } : FileSink).Holds start messages := by
  obtain ⟨⟨opened, logged, size, unbuffered, row⟩, bounded⟩ := holds
  refine ⟨⟨opened, logged, size, unbuffered, row⟩, fun rotates => ?_⟩
  obtain ⟨closed, live, apart⟩ := bounded rotates
  exact ⟨closed, live, apart⟩

theorem Holds.countFlush (holds : sink.Holds start messages) :
    sink.countFlush.Holds start messages := by
  unfold FileSink.countFlush
  split
  case isTrue _ =>
    dsimp only
    split
    case isTrue _ => exact (holds.counter 0).flushPending
    case isFalse _ => exact holds.counter _
  case isFalse _ => exact holds.flushPending

theorem keeps_countFlush : Keeps sink sink.countFlush := by
  unfold FileSink.countFlush
  split
  · dsimp only
    split
    · obtain ⟨filename, maxBackupFiles, maxFileBytes, writeBatchCap⟩ :=
        @keeps_flushPending { sink with flushCounter := 0 }
      exact ⟨filename, maxBackupFiles, maxFileBytes, writeBatchCap⟩
    · exact ⟨rfl, rfl, rfl, rfl⟩
  · exact keeps_flushPending

theorem Holds.logLine (holds : sink.Holds start messages) (message : Bytes) :
    (sink.logLine message).Holds start (messages ++ [message]) := by
  unfold FileSink.logLine
  split
  case isTrue immediate =>
    obtain ⟨prepared, ready⟩ := holds.prepareWrite (message.length + 1)
    refine prepared.writeCounted (prepared.sound.unbuffered ?_) ready
    rw [(keeps_prepareWrite _).writeBatchCap]
    exact of_decide_eq_true (Bool.and_eq_true_iff.mp immediate).2
  case isFalse _ => exact (holds.appendLine message).countFlush

theorem keeps_logLine (message : Bytes) :
    Keeps sink (sink.logLine message) := by
  unfold FileSink.logLine
  split
  · exact (keeps_prepareWrite _).trans (keeps_writeCounted message)
  · exact (keeps_appendLine message).trans keeps_countFlush

theorem Holds.call (holds : sink.Holds start messages) (call : SinkCall) :
    (sink.call call).Holds start (messages ++ call.message.toList) := by
  cases call with
  | llog level message => exact holds.logLine message
  | vlog verbose message => exact holds.logLine message
  | autoFlush =>
    rw [show messages ++ SinkCall.autoFlush.message.toList = messages from
      List.append_nil messages]
    exact holds.flushPending

theorem keeps_call (call : SinkCall) : Keeps sink (sink.call call) := by
  cases call with
  | llog level message => exact keeps_logLine message
  | vlog verbose message => exact keeps_logLine message
  | autoFlush => exact keeps_flushPending

theorem Holds.run (holds : sink.Holds start messages) (calls : List SinkCall) :
    (calls.foldl FileSink.call sink).Holds start
      (messages ++ calls.filterMap SinkCall.message) := by
  induction calls generalizing sink messages with
  | nil =>
    rw [List.filterMap_nil, List.append_nil]
    exact holds
  | cons call calls ih =>
    have called := ih (holds.call call)
    rw [List.append_assoc] at called
    rw [List.foldl_cons, List.filterMap_cons]
    cases logged : call.message with
    | none => simpa [logged] using called
    | some message => simpa [logged] using called

theorem keeps_run (calls : List SinkCall) :
    Keeps sink (calls.foldl FileSink.call sink) := by
  induction calls generalizing sink with
  | nil => exact ⟨rfl, rfl, rfl, rfl⟩
  | cons call calls ih => exact (keeps_call call).trans ih

theorem Sound.backups_suffix (sound : sink.Sound start messages)
    (filename : sink.filename = start.filename)
    (maxBackupFiles : sink.maxBackupFiles = start.maxBackupFiles) :
    sink.backups <:+ start.backups ++ sink.closed := by
  unfold FileSink.backups
  rw [← maxBackupFiles, filename]
  refine Files.numbered_shelf fun index less => ?_
  have row := sound.row index
  rw [if_pos less, backup, filename] at row
  exact row

theorem Bounded.content (bounded : sink.Bounded start messages) :
    Fits sink.maxFileBytes start.found messages sink.content := by
  rcases bounded.apart with small | none | flushed
  · rw [FileSink.live, List.length_append] at small
    exact .inl (Nat.le_trans (Nat.le_add_right ..) small)
  · rw [none]
    exact .inl (Nat.zero_le _)
  · have fits := bounded.live
    rw [FileSink.live, flushed, List.append_nil] at fits
    exact fits

end FileSink

theorem created_holds (filename : Bytes) (disk : Files Bytes Bytes)
    (options : FileSinkOptions) (allocated : Bool) :
    let start := createDefaultFileSink filename options allocated disk
    start.Holds start [] := by
  intro start
  have opened : start.files filename = some start.content := by
    show openFile disk filename filename =
      some ((openFile disk filename filename).getD [])
    unfold openFile
    cases found : disk filename with
    | none => simp [Files.write]
    | some content => simp [found]
  have live : start.live = start.content := List.append_nil _
  refine ⟨⟨opened, ?_, ?_, fun _ => rfl, ?_⟩, fun _ => ⟨nofun, ?_, ?_⟩⟩
  · rw [live]
    exact (List.append_nil _).symm
  · rw [live]
    rfl
  · intro index
    split <;> rfl
  · rw [live]
    exact .inr (.inr List.mem_cons_self)
  · exact .inr (.inr rfl)

/-- At every moment the backups, the current file and the batch buffer hold
the end of what the sink has found and of the lines behind it; what is lost
are the oldest of the files.  Where rotation is enabled no file exceeds the
limit but for a single line and what the sink has found. -/
theorem rotation_loses_oldest_files (filename : Bytes)
    (disk : Files Bytes Bytes) (options : FileSinkOptions) (allocated : Bool)
    (calls : List SinkCall) :
    let start := createDefaultFileSink filename options allocated disk
    let sink := calls.foldl FileSink.call start
    let messages := calls.filterMap SinkCall.message
    (∃ lost, lost ++ sink.backups = start.backups ++ sink.closed ∧
      lost.flatten ++ (sink.backups.flatten ++ sink.content ++
        sink.writeBatch) = start.backups.flatten ++ start.content ++
          (messages.map terminated).flatten) ∧
    sink.backups.length ≤ options.maxBackupFiles.toNat ∧
    (∀ index, options.maxBackupFiles.toNat < index →
      sink.files (rotatedPath filename index) =
        disk (rotatedPath filename index)) ∧
    (options.maxFileBytes ≠ 0 → options.maxBackupFiles ≠ 0 →
      ∀ file ∈ sink.content :: sink.backups,
        Fits options.maxFileBytes (start.content :: start.backups) messages
          file) ∧
    sink.currentSize = sink.content.length + sink.writeBatch.length := by
  intro start sink messages
  have holds : sink.Holds start messages :=
    (created_holds filename disk options allocated).run calls
  have keeps : start.Keeps sink := FileSink.keeps_run calls
  have named : sink.filename = filename := keeps.filename
  have counted : sink.maxBackupFiles = options.maxBackupFiles :=
    keeps.maxBackupFiles
  have limited : sink.maxFileBytes = options.maxFileBytes :=
    keeps.maxFileBytes
  obtain ⟨lost, files⟩ := holds.sound.backups_suffix named counted
  refine ⟨⟨lost, files, ?_⟩, ?_, ?_, ?_, ?_⟩
  · have logged := holds.sound.logged
    have contents := congrArg List.flatten files
    rw [List.flatten_append, List.flatten_append] at contents
    rw [FileSink.live] at logged
    rw [List.append_assoc, List.append_assoc, ← logged, ← List.append_assoc,
      contents, List.append_assoc]
  · rw [FileSink.backups, counted, Files.numbered]
    refine (List.length_filterMap_le ..).trans (Nat.le_of_eq ?_)
    rw [List.length_reverse, List.length_range]
  · intro index above
    cases index with
    | zero => exact absurd above (Nat.not_lt_zero _)
    | succ index =>
      have row := holds.sound.row index
      rw [counted, if_neg (Nat.not_lt_of_le (Nat.le_of_lt_succ above)),
        FileSink.backup, named] at row
      rw [row]
      show openFile disk filename _ = _
      unfold openFile
      cases disk filename with
      | none => exact Function.update_of_ne (rotatedPath_ne _ _).symm ..
      | some _ => rfl
  · intro limit count file member
    rw [← limited] at limit ⊢
    rw [← counted] at count
    have bounded := holds.bounded ⟨limit, count⟩
    rcases List.mem_cons.mp member with rfl | backup
    · exact bounded.content
    · have inside : file ∈ start.backups ++ sink.closed := by
        rw [← files]
        exact List.mem_append_right _ backup
      rcases List.mem_append.mp inside with old | new
      · exact .inr (.inr (List.mem_cons_of_mem _ old))
      · exact bounded.closed file new
  · rw [holds.sound.size, FileSink.live, List.length_append]

/-- A limit of five bytes, one backup and a batch buffer of three bytes. -/
def smallFiles : FileSinkOptions := ⟨5, 1, 2, 3⟩

def fourLines : List SinkCall :=
  [.llog 1 (ascii "abc"), .llog 1 (ascii "de"), .vlog 0 (ascii "f"),
    .llog 1 (ascii "ghi")]

/-- The log of an earlier run, which is longer than the limit. -/
def earlierLog : Files Bytes Bytes := fun path =>
  if path = ascii "log" then some (ascii "earlier") else none

theorem rotation_loses_oldest_files_fourLines :
    let start := createDefaultFileSink (ascii "log") smallFiles true earlierLog
    let sink := fourLines.foldl FileSink.call start
    sink.closed = [ascii "earlier", ascii "abc\n", ascii "de\nf\n"] ∧
      sink.backups = [ascii "de\nf\n"] ∧
      sink.currentSize =
        sink.content.length + sink.writeBatch.length := by
  obtain ⟨-, -, -, -, size⟩ := rotation_loses_oldest_files (ascii "log")
    earlierLog smallFiles true fourLines
  exact ⟨by decide +kernel, by decide +kernel, size⟩

/-- A limit without backups. -/
def noBackupFiles : FileSinkOptions := ⟨1, 0, 256, 0⟩

def twoLines : List SinkCall := [.llog 1 (ascii "a"), .llog 1 (ascii "b")]

theorem unrotated_file_exceeds_limit :
    ¬Fits noBackupFiles.maxFileBytes [[]]
      (twoLines.filterMap SinkCall.message)
      (twoLines.foldl FileSink.call (createDefaultFileSink (ascii "log")
        noBackupFiles true fun _ => none)).content := by
  decide

end Libnei.Log

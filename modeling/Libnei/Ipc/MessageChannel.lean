import Libnei.Bytes
import Libnei.Lib.Actions
import Libnei.Lib.LittleEndian

/-!
# The message channel

`MessageChannel::Impl` (`message_channel.cpp`).  `StartReading`, `Send` and
`Close` are called on any thread; everything else is a task of the I/O
thread.  One step is what a thread does in one section of the lock, or
between two of them: `io` says where the I/O thread is, and the counters
`toBegin`, `toIssue` and `toReport` have the other threads that have left the
lock and still have to post something.

`posted` is what was posted to the client.  `sent` has the payloads that
`Send` has queued, `written` the bytes that the stream has taken and
`ingested` those that were appended to the receive buffer.
-/

namespace Libnei.Ipc

open Lib

/-! ## Frames -/

def kHeaderSize : Nat := 8

def kMagicWord : Nat := 0x4E454958

def kMaxMessageSize : Nat := 128 * 1024 * 1024

def kReadChunkSize : Nat := 65536

def kReceiveBufferCompactThreshold : Nat := 65536

def writeUint32LE (value : Nat) : Bytes :=
  encodeLE 4 (value % 2 ^ 32)

def readUint32LE (bytes : Bytes) : Nat :=
  decodeLE (bytes.take 4)

def header (length : Nat) : Bytes :=
  writeUint32LE length ++ writeUint32LE kMagicWord

def frame (payload : Bytes) : Bytes :=
  header payload.length ++ payload

/-! ## Parsing -/

inductive ReadState
  | readingHeader
  | readingPayload
  deriving DecidableEq

/-- The state of the parser, which only the I/O thread uses. -/
structure Receiver where
  receiveBuffer : Bytes := []
  consumeOffset : Nat := 0
  readState : ReadState := .readingHeader
  currentMessageSize : Nat := 0
  deriving DecidableEq

/-- The end of a round of the loop in `TryParseFrames`. -/
inductive Round
  | waits (receiver : Receiver)
  | corrupt
  | completes (message : Bytes) (receiver : Receiver)

namespace Receiver

variable (receiver : Receiver)

def available : Bytes :=
  receiver.receiveBuffer.drop receiver.consumeOffset

def readPayload : Round :=
  if receiver.available.length < receiver.currentMessageSize then
    .waits receiver
  else
    .completes (receiver.available.take receiver.currentMessageSize)
      { receiver with
        consumeOffset := receiver.consumeOffset + receiver.currentMessageSize
        currentMessageSize := 0
        readState := .readingHeader }

def round : Round :=
  match receiver.readState with
  | .readingPayload => receiver.readPayload
  | .readingHeader =>
      if receiver.available.length < kHeaderSize then .waits receiver
      else
        let payloadLen := readUint32LE receiver.available
        let magic := readUint32LE (receiver.available.drop 4)
        if payloadLen > kMaxMessageSize ∨ magic ≠ kMagicWord then .corrupt
        else
          { receiver with
            currentMessageSize := payloadLen
            consumeOffset := receiver.consumeOffset + kHeaderSize
            readState := .readingPayload }.readPayload

/-- What the rounds use up. -/
def pending : Nat :=
  2 * receiver.available.length +
    if receiver.readState = .readingPayload then 1 else 0

variable {message : Bytes} {next : Receiver}

theorem readPayload_pending
    (completes : receiver.readPayload = .completes message next) :
    next.readState = .readingHeader ∧
      next.available.length ≤ receiver.available.length := by
  unfold readPayload at completes
  split at completes
  case isTrue => cases completes
  case isFalse =>
    obtain ⟨-, rfl⟩ := Round.completes.inj completes
    refine ⟨rfl, ?_⟩
    simp only [available, List.length_drop]
    omega

theorem round_pending (completes : receiver.round = .completes message next) :
    next.pending < receiver.pending := by
  unfold round at completes
  split at completes
  case h_1 reading =>
    obtain ⟨again, fewer⟩ := receiver.readPayload_pending completes
    simp only [pending, reading, again, reduceCtorEq, if_true, if_false]
    omega
  case h_2 reading =>
    split at completes
    case isTrue => cases completes
    case isFalse enough =>
      dsimp only at completes
      split at completes
      case isTrue => cases completes
      case isFalse =>
        obtain ⟨again, fewer⟩ := readPayload_pending _ completes
        simp only [pending, reading, again, reduceCtorEq, if_false]
        simp only [available, List.length_drop, kHeaderSize] at *
        omega

/-- The messages, the parser behind them and whether the stream is
corrupt. -/
def tryParseFrames (receiver : Receiver) : List Bytes × Receiver × Bool :=
  match completes : receiver.round with
  | .waits receiver => ([], receiver, false)
  | .corrupt => ([], receiver, true)
  | .completes message next =>
      have := receiver.round_pending completes
      let (messages, receiver, failed) := next.tryParseFrames
      (message :: messages, receiver, failed)
termination_by receiver.pending

def compactReceiveBuffer : Receiver :=
  if receiver.consumeOffset = 0 then receiver
  else if receiver.consumeOffset ≥ receiver.receiveBuffer.length then
    { receiver with receiveBuffer := [], consumeOffset := 0 }
  else if receiver.consumeOffset ≥ kReceiveBufferCompactThreshold then
    { receiver with
      receiveBuffer := receiver.available
      consumeOffset := 0 }
  else receiver

end Receiver

/-! ## The channel -/

inductive Task
  | beginRead
  | issueNextWrite
  | onDataReceived (success : Bool) (bytes : Bytes)
  | onWriteComplete (success : Bool) (count : Nat)
  deriving DecidableEq

/-- Where the I/O thread is.  `beginRead` and `issueRead` say whether they
were called by `OnDataReceived`. -/
inductive Control
  | idle
  | beginRead (again : Bool)
  | issueRead (again : Bool)
  | ingest (success : Bool) (bytes : Bytes)
  | deliver (messages : List Bytes) (failed : Bool)
  | post (messages : List Bytes) (failed : Bool)
  | proceed
  | lastCheck
  | takeError
  | postError
  | issueNextWrite
  | write (slice : Bytes)
  | writeComplete (success : Bool) (count : Nat)
  deriving DecidableEq

inductive Post
  | message (payload : Bytes)
  | error
  deriving DecidableEq

structure Channel where
  onMessage : Bool := false
  onError : Bool := false
  pendingWrites : List Bytes := []
  writeInFlight : Bool := false
  started : Bool := false
  closing : Bool := false
  errorSignaled : Bool := false
  receiver : Receiver := {}
  readInFlight : Bool := false
  currentWriteBuf : Option Bytes := none
  currentWriteOffset : Nat := 0
  io : Control := .idle
  tasks : List Task := []
  toBegin : Nat := 0
  toIssue : Nat := 0
  toReport : Nat := 0
  reads : Nat := 0
  writes : List Bytes := []
  posted : List Post := []
  sent : List Bytes := []
  written : Bytes := []
  ingested : Bytes := []
  deriving DecidableEq

namespace Channel

variable (channel : Channel)

def signalErrorLocked : Channel :=
  if channel.errorSignaled then channel
  else { channel with errorSignaled := true, onMessage := false }

/-! ## Reading -/

/-- Behind `BeginRead`. -/
def afterBegin (again : Bool) : Control :=
  if again then .lastCheck else .idle

def beginRead (again : Bool) : Channel :=
  { channel with
    io :=
      if channel.errorSignaled || channel.closing then afterBegin again
      else .issueRead again }

def issueRead (again : Bool) : Channel :=
  if channel.readInFlight then { channel with io := afterBegin again }
  else
    { channel with
      readInFlight := true
      reads := channel.reads + 1
      io := afterBegin again }

/-- The first section of `OnDataReceived`. -/
def ingest (success : Bool) (bytes : Bytes) : Channel :=
  let channel := { channel with readInFlight := false }
  if channel.errorSignaled then { channel with io := .idle }
  else if !success || bytes.isEmpty then
    { channel.signalErrorLocked with io := .deliver [] true }
  else
    let (messages, receiver, failed) :=
      { channel.receiver with
        receiveBuffer := channel.receiver.receiveBuffer ++ bytes
        }.tryParseFrames
    let channel :=
      { channel with
        ingested := channel.ingested ++ bytes
        receiver :=
          if failed then receiver else receiver.compactReceiveBuffer }
    { (if failed then channel.signalErrorLocked else channel) with
      io := .deliver messages failed }

/-- Behind the delivery of the messages. -/
def afterMessages (failed : Bool) : Control :=
  if failed then .takeError else .proceed

def deliver (messages : List Bytes) (failed : Bool) : Channel :=
  { channel with
    io :=
      if messages.isEmpty then afterMessages failed
      else if channel.errorSignaled then .idle
      else if channel.onMessage then .post messages failed
      else afterMessages failed }

def post (messages : List Bytes) (failed : Bool) : Channel :=
  { channel with
    posted := channel.posted ++ messages.map .message
    io := afterMessages failed }

/-- The third section of `OnDataReceived`. -/
def proceed : Channel :=
  if !channel.errorSignaled && !channel.closing then
    { channel with io := .beginRead true }
  else if channel.closing && !channel.errorSignaled then
    { channel.signalErrorLocked with io := .lastCheck }
  else { channel with io := .lastCheck }

/-- `on_error_` is moved out of the channel. -/
def takeError : Channel :=
  if channel.onError then { channel with onError := false, io := .postError }
  else { channel with io := .idle }

def lastCheck : Channel :=
  if channel.errorSignaled then channel.takeError
  else { channel with io := .idle }

def postError : Channel :=
  { channel with posted := channel.posted ++ [.error], io := .idle }

/-! ## Writing -/

def issueNextWrite : Channel :=
  if channel.errorSignaled then { channel with io := .idle }
  else
    match channel.currentWriteBuf with
    | some buffer =>
        { channel with io := .write (buffer.drop channel.currentWriteOffset) }
    | none =>
        match channel.pendingWrites with
        | [] =>
            let channel := { channel with writeInFlight := false }
            if channel.closing then
              { channel.signalErrorLocked with io := .takeError }
            else { channel with io := .idle }
        | front :: _ =>
            { channel with
              currentWriteBuf := some front
              currentWriteOffset := 0
              io := .write front }

def write (slice : Bytes) : Channel :=
  { channel with writes := channel.writes ++ [slice], io := .idle }

def popWrite : Channel :=
  { channel with
    pendingWrites := channel.pendingWrites.tail
    currentWriteBuf := none
    currentWriteOffset := 0 }

def onWriteComplete (success : Bool) (count : Nat) : Channel :=
  if channel.errorSignaled then { channel with io := .idle }
  else if !success || count == 0 then
    let popped :=
      if channel.currentWriteBuf.isSome then channel.popWrite else channel
    { popped.signalErrorLocked with io := .takeError }
  else
    let offset := channel.currentWriteOffset + count
    if offset ≥ (channel.currentWriteBuf.getD []).length then
      let popped := channel.popWrite
      if popped.pendingWrites.isEmpty && popped.closing then
        { popped.signalErrorLocked with io := .takeError }
      else if !popped.pendingWrites.isEmpty then
        { popped with io := .issueNextWrite }
      else { popped with writeInFlight := false, io := .idle }
    else
      { channel with currentWriteOffset := offset, io := .issueNextWrite }

/-! ## The I/O thread -/

/-- The first section of a task. -/
def enter : Task → Control
  | .beginRead => .beginRead false
  | .issueNextWrite => .issueNextWrite
  | .onDataReceived success bytes => .ingest success bytes
  | .onWriteComplete success count => .writeComplete success count

/-- The next step of the I/O thread. -/
def run : Option Channel :=
  match channel.io with
  | .idle =>
      match channel.tasks with
      | [] => none
      | task :: tasks => some { channel with tasks, io := enter task }
  | .beginRead again => some (channel.beginRead again)
  | .issueRead again => some (channel.issueRead again)
  | .ingest success bytes => some (channel.ingest success bytes)
  | .deliver messages failed => some (channel.deliver messages failed)
  | .post messages failed => some (channel.post messages failed)
  | .proceed => some channel.proceed
  | .lastCheck => some channel.lastCheck
  | .takeError => some channel.takeError
  | .postError => some channel.postError
  | .issueNextWrite => some channel.issueNextWrite
  | .write slice => some (channel.write slice)
  | .writeComplete success count =>
      some (channel.onWriteComplete success count)

/-- The steps of the I/O thread, by its control. -/
inductive Runs : Channel → Prop
  | enter {task : Task} {tasks : List Task} (here : channel.io = .idle)
      (first : channel.tasks = task :: tasks) :
      Runs { channel with tasks, io := enter task }
  | beginRead {again : Bool} (here : channel.io = .beginRead again) :
      Runs (channel.beginRead again)
  | issueRead {again : Bool} (here : channel.io = .issueRead again) :
      Runs (channel.issueRead again)
  | ingest {success : Bool} {bytes : Bytes}
      (here : channel.io = .ingest success bytes) :
      Runs (channel.ingest success bytes)
  | deliver {messages : List Bytes} {failed : Bool}
      (here : channel.io = .deliver messages failed) :
      Runs (channel.deliver messages failed)
  | post {messages : List Bytes} {failed : Bool}
      (here : channel.io = .post messages failed) :
      Runs (channel.post messages failed)
  | proceed (here : channel.io = .proceed) : Runs channel.proceed
  | lastCheck (here : channel.io = .lastCheck) : Runs channel.lastCheck
  | takeError (here : channel.io = .takeError) : Runs channel.takeError
  | postError (here : channel.io = .postError) : Runs channel.postError
  | issueNextWrite (here : channel.io = .issueNextWrite) :
      Runs channel.issueNextWrite
  | write {slice : Bytes} (here : channel.io = .write slice) :
      Runs (channel.write slice)
  | onWriteComplete {success : Bool} {count : Nat}
      (here : channel.io = .writeComplete success count) :
      Runs (channel.onWriteComplete success count)

variable {channel} in
theorem runs_of_run {next : Channel} (ran : channel.run = some next) :
    channel.Runs next := by
  unfold run at ran
  split at ran
  case h_1 here =>
    split at ran
    case h_1 => cases ran
    case h_2 first => cases ran; exact .enter here first
  case h_2 here => cases ran; exact .beginRead here
  case h_3 here => cases ran; exact .issueRead here
  case h_4 here => cases ran; exact .ingest here
  case h_5 here => cases ran; exact .deliver here
  case h_6 here => cases ran; exact .post here
  case h_7 here => cases ran; exact .proceed here
  case h_8 here => cases ran; exact .lastCheck here
  case h_9 here => cases ran; exact .takeError here
  case h_10 here => cases ran; exact .postError here
  case h_11 here => cases ran; exact .issueNextWrite here
  case h_12 here => cases ran; exact .write here
  case h_13 here => cases ran; exact .onWriteComplete here

/-! ## Other threads -/

def startReading : Channel :=
  if channel.started || channel.errorSignaled then channel
  else
    { channel with
      started := true
      onMessage := true
      onError := true
      toBegin := channel.toBegin + 1 }

def send (payload : Bytes) : Channel :=
  if channel.errorSignaled || channel.closing then channel
  else
    let queued :=
      { channel with
        pendingWrites := channel.pendingWrites ++ [frame payload]
        sent := channel.sent ++ [payload] }
    if channel.writeInFlight then queued
    else { queued with writeInFlight := true, toIssue := channel.toIssue + 1 }

/-- `Close` takes `on_error_` if there is nothing to write. -/
def close : Channel :=
  if channel.errorSignaled then channel
  else if !channel.writeInFlight && channel.pendingWrites.isEmpty then
    { channel with
      closing := true
      errorSignaled := true
      onMessage := false
      onError := false
      toReport := channel.toReport + if channel.onError then 1 else 0 }
  else { channel with closing := true }

end Channel

/-! ## Steps -/

/-- `posted…` is the end of a call on another thread; `readDone` and
`writeDone` are answers of the streams. -/
inductive Action
  | startReading
  | postBegin
  | send (payload : Bytes)
  | postIssue
  | close
  | postReport
  | readDone (success : Bool) (bytes : Bytes)
  | writeDone (success : Bool) (count : Nat)
  | io
  deriving DecidableEq

def step (channel : Channel) : Action → Option Channel
  | .startReading => some channel.startReading
  | .postBegin =>
      if channel.toBegin = 0 then none
      else some { channel with
        toBegin := channel.toBegin - 1
        tasks := channel.tasks ++ [.beginRead] }
  | .send payload => some (channel.send payload)
  | .postIssue =>
      if channel.toIssue = 0 then none
      else some { channel with
        toIssue := channel.toIssue - 1
        tasks := channel.tasks ++ [.issueNextWrite] }
  | .close => some channel.close
  | .postReport =>
      if channel.toReport = 0 then none
      else some { channel with
        toReport := channel.toReport - 1
        posted := channel.posted ++ [.error] }
  | .readDone success bytes =>
      if channel.reads = 0 ∨ kReadChunkSize < bytes.length then none
      else some { channel with
        reads := channel.reads - 1
        tasks := channel.tasks ++ [.onDataReceived success bytes] }
  | .writeDone success count =>
      match channel.writes with
      | [] => none
      | slice :: writes =>
          if slice.length < count then none
          else some { channel with
            writes
            written := channel.written ++
              if success then slice.take count else []
            tasks := channel.tasks ++ [.onWriteComplete success count] }
  | .io => channel.run

end Libnei.Ipc

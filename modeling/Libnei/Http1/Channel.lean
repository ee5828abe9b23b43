import Libnei.Http.ResponseWriter
import Libnei.Http1.Delegates

/-!
# What handlers do with an HTTP/1 server connection

`Http1Connection` (`http_server.cpp`) apart from its parse loop: the write
queue, closing, the streaming responses and the pull queue of
streaming-request bodies, and the programs of the user that drive them.

Everything runs on the I/O thread of the connection, save `Close`, which any
thread may call.  Of the transport only the calls that are made on it are
modelled: a read or a write that is in flight completes, later, with whatever
the transport says.
-/

namespace Libnei.Http1

open Libnei.Http

/-- `kStreamingRequestHighWater` and `kStreamingRequestLowWater`. -/
def highWater : Nat := 256 * 1024

def lowWater : Nat := 64 * 1024

/-- What a handler does with the callbacks and the handle that it was given.
The functions of a `WebSocketConnection` all build a frame and send it. -/
inductive Program (World : Type)
  | done
  | touch (effect : World → World) (next : World → Program World)
  | respond (headers : HttpResponse) (next : Program World)
  | write (chunk : Bytes) (next : Program World)
  | closeStreaming (next : Program World)
  | cancel (generation : Nat) (next : Program World)
  | readBody (callback : Bytes → Bool → Program World)
      (next : Program World)
  | sendRaw (data : Bytes) (next : Program World)
  | close (next : Program World)

/-- A `BodyChunkCallback`: the chunk, and whether the body is done. -/
abbrev BodyChunkCallback (World : Type) := Bytes → Bool → Program World

/-- A call on the socket, other than the reads. -/
inductive SocketCall
  | write (data : Bytes)
  | shutdownWrite
  | close
deriving DecidableEq

/-- The side of a connection that the handlers reach.  `writes` are the
buffers queued so far, sent or not; `socket` are the calls made so far;
`pulls` are the chunks that `BodyChunkCallback`s got, `none` for the end. -/
structure Channel (World : Type) where
  tls : Bool
  world : World
  httpDelegate : ConnectionDelegate := {}
  streamingChunked : Bool := false
  closed : Bool := false
  /-- `Close` was called on another thread, which posted `DoClose`. -/
  closePosted : Bool := false
  writeQueue : List Bytes := []
  writeInFlight : Bool := false
  pendingWrites : Nat := 0
  closeAfterWrites : Bool := false
  drainAfterClose : Bool := false
  readInFlight : Bool := false
  srChunks : List Bytes := []
  srBufferedBytes : Nat := 0
  srReadPaused : Bool := false
  srPendingRead : Option (BodyChunkCallback World) := none
  srBodyDone : Bool := false
  activeGeneration : Nat := 0
  writes : List Bytes := []
  socket : List SocketCall := []
  pulls : List (Option Bytes) := []

namespace Channel

variable {World : Type}

/-! ## Reads and writes -/

def startRead (channel : Channel World) : Channel World :=
  if channel.closed && !channel.drainAfterClose then channel
  else if channel.readInFlight then channel
  else { channel with readInFlight := true }

theorem startRead_eq (channel : Channel World) :
    ∃ reading, channel.startRead =
      { channel with readInFlight := reading } := by
  unfold startRead
  split
  · exact ⟨channel.readInFlight, rfl⟩
  · split
    · exact ⟨channel.readInFlight, rfl⟩
    · exact ⟨true, rfl⟩

theorem startRead_readInFlight (channel : Channel World)
    (isOpen : channel.closed = false) :
    channel.startRead.readInFlight = true := by
  unfold startRead
  rw [isOpen, Bool.false_and, if_neg Bool.false_ne_true]
  split
  · assumption
  · rfl

/-- One write is in flight at a time. -/
def pumpWrites (channel : Channel World) : Channel World :=
  if channel.writeInFlight then channel
  else
    match channel.writeQueue with
    | [] => channel
    | data :: queue =>
        { channel with
          writeInFlight := true
          writeQueue := queue
          socket := channel.socket ++ [.write data] }

theorem pumpWrites_eq (channel : Channel World) :
    ∃ inFlight queue calls, channel.pumpWrites =
      { channel with
        writeInFlight := inFlight
        writeQueue := queue
        socket := calls } := by
  unfold pumpWrites
  split
  · exact ⟨channel.writeInFlight, channel.writeQueue, channel.socket, rfl⟩
  · split
    · exact ⟨channel.writeInFlight, channel.writeQueue, channel.socket, rfl⟩
    · exact ⟨true, _, _, rfl⟩

def queueWrite (channel : Channel World) (data : Bytes) : Channel World :=
  if channel.closed ∨ data = [] then channel
  else
    { channel with
      pendingWrites := channel.pendingWrites + 1
      writeQueue := channel.writeQueue ++ [data]
      writes := channel.writes ++ [data] }.pumpWrites

def writeResponse (channel : Channel World) (wireData : Bytes) :
    Channel World :=
  if channel.closed then channel else channel.queueWrite wireData

variable {channel : Channel World}

theorem writeResponse_eq {wireData : Bytes} (isOpen : channel.closed = false)
    (some : wireData ≠ []) :
    ∃ inFlight queue calls, channel.writeResponse wireData =
      { channel with
        pendingWrites := channel.pendingWrites + 1
        writeInFlight := inFlight
        writeQueue := queue
        writes := channel.writes ++ [wireData]
        socket := calls } := by
  obtain ⟨inFlight, queue, calls, pumped⟩ := pumpWrites_eq
    { channel with
      pendingWrites := channel.pendingWrites + 1
      writeQueue := channel.writeQueue ++ [wireData]
      writes := channel.writes ++ [wireData] }
  refine ⟨inFlight, queue, calls, ?_⟩
  rw [writeResponse, if_neg (by simp [isOpen]), queueWrite,
    if_neg (by simp [isOpen, some]), pumped]

def writeRaw (channel : Channel World) (data : Bytes) : Channel World :=
  if channel.closed ∨ data = [] then channel else channel.queueWrite data

/-! ## Closing -/

/-- `DoClose`.  A TLS connection goes on reading until the peer closes. -/
def doClose (channel : Channel World) : Channel World :=
  let channel := { channel with httpDelegate := .reset }
  if 0 < channel.pendingWrites then { channel with closeAfterWrites := true }
  else if channel.tls then
    startRead
      { channel with
        drainAfterClose := true
        socket := channel.socket ++ [.shutdownWrite] }
  else { channel with socket := channel.socket ++ [.close] }

theorem doClose_eq (channel : Channel World) :
    ∃ deferred draining reading calls, channel.doClose =
      { channel with
        httpDelegate := .reset
        closeAfterWrites := deferred
        drainAfterClose := draining
        readInFlight := reading
        socket := calls } := by
  unfold doClose
  dsimp only
  split
  · exact ⟨true, channel.drainAfterClose, channel.readInFlight,
      channel.socket, rfl⟩
  · split
    · obtain ⟨reading, started⟩ := startRead_eq
        { channel with
          httpDelegate := .reset
          drainAfterClose := true
          socket := channel.socket ++ [.shutdownWrite] }
      exact ⟨channel.closeAfterWrites, true, reading, _, started⟩
    · exact ⟨channel.closeAfterWrites, channel.drainAfterClose,
        channel.readInFlight, _, rfl⟩

/-- `Close` on the I/O thread. -/
def close (channel : Channel World) : Channel World :=
  if channel.closed then channel else doClose { channel with closed := true }

/-- `Close` on another thread. -/
def closeElsewhere (channel : Channel World) : Channel World :=
  if channel.closed then channel
  else { channel with closed := true, closePosted := true }

/-- The posted `DoClose` runs. -/
def closeHere (channel : Channel World) : Channel World :=
  doClose { channel with closePosted := false }

def finalTeardown (channel : Channel World) : Channel World :=
  if channel.drainAfterClose then
    { channel with
      drainAfterClose := false
      socket := channel.socket ++ [.close] }
  else channel

theorem finalTeardown_eq (channel : Channel World) :
    ∃ draining calls, channel.finalTeardown =
      { channel with drainAfterClose := draining, socket := calls } := by
  unfold finalTeardown
  split
  · exact ⟨false, _, rfl⟩
  · exact ⟨channel.drainAfterClose, channel.socket, rfl⟩

def onWriteComplete (channel : Channel World) (success : Bool) :
    Channel World :=
  if success then
    let channel := { channel with pendingWrites := channel.pendingWrites - 1 }
    if channel.closeAfterWrites ∧ channel.pendingWrites = 0 then
      doClose { channel with closeAfterWrites := false }
    else channel
  else
    -- Only the socket is closed; `closed` is left as it is.
    doClose { channel with pendingWrites := 0, closeAfterWrites := false }

/-- The completion of the write that is in flight. -/
def onWritten (channel : Channel World) (success : Bool) : Channel World :=
  let channel := onWriteComplete { channel with writeInFlight := false } success
  if success then channel.pumpWrites else channel

theorem onWritten_true_eq (deferred : channel.closeAfterWrites = false) :
    ∃ inFlight queue calls, channel.onWritten true =
      { channel with
        pendingWrites := channel.pendingWrites - 1
        writeInFlight := inFlight
        writeQueue := queue
        socket := calls } := by
  obtain ⟨inFlight, queue, calls, pumped⟩ := pumpWrites_eq
    { channel with
      pendingWrites := channel.pendingWrites - 1
      writeInFlight := false }
  refine ⟨inFlight, queue, calls, ?_⟩
  rw [onWritten, onWriteComplete, if_pos rfl, if_pos rfl,
    if_neg (by simp [deferred]), pumped]

theorem onWritten_false_eq (channel : Channel World) :
    ∃ draining reading calls,
      (channel.tls = false → reading = channel.readInFlight) ∧
      channel.onWritten false =
        { channel with
          httpDelegate := .reset
          pendingWrites := 0
          writeInFlight := false
          closeAfterWrites := false
          drainAfterClose := draining
          readInFlight := reading
          socket := calls } := by
  rw [onWritten, onWriteComplete, if_neg Bool.false_ne_true,
    if_neg Bool.false_ne_true, doClose]
  dsimp only
  rw [if_neg (Nat.lt_irrefl 0)]
  split
  · rename_i secure
    obtain ⟨reading, started⟩ := startRead_eq
      { channel with
        httpDelegate := .reset
        pendingWrites := 0
        writeInFlight := false
        closeAfterWrites := false
        drainAfterClose := true
        socket := channel.socket ++ [.shutdownWrite] }
    refine ⟨true, reading, _, ?_, started⟩
    rw [secure]
    intro impossible
    contradiction
  · exact ⟨channel.drainAfterClose, channel.readInFlight, _, fun _ => rfl, rfl⟩

/-! ## Streaming responses -/

def respond (channel : Channel World) (headers : HttpResponse) :
    Channel World :=
  if channel.closed then channel
  else
    let chunked : Bool :=
      getHeaderValue headers.headers (ascii "Content-Length") = [] ∧
        getHeaderValue headers.headers (ascii "Transfer-Encoding") = []
    let response :=
      if chunked then headers.pushHeader "Transfer-Encoding" "chunked"
      else headers
    writeResponse { channel with streamingChunked := chunked }
      (HttpResponseWriter.serializeHeaders response)

def writeStreamChunkRaw (channel : Channel World) (chunk : Bytes) :
    Channel World :=
  if channel.closed ∨ chunk = [] then channel else channel.queueWrite chunk

def writeStreamChunk (channel : Channel World) (chunk : Bytes) :
    Channel World :=
  if channel.closed ∨ chunk = [] then channel
  else if channel.streamingChunked then
    let header := HttpResponseWriter.serializeChunkHeader chunk.length
    ((channel.writeStreamChunkRaw header).writeStreamChunkRaw
      chunk).writeStreamChunkRaw (ascii "\r\n")
  else channel.writeStreamChunkRaw chunk

def closeStreaming (channel : Channel World) : Channel World :=
  if channel.streamingChunked then
    (channel.writeStreamChunkRaw HttpResponseWriter.serializeLastChunk).close
  else channel.close

/-- `CancelRequest`.  A handle is invalidated only by `Close`. -/
def cancelRequest (channel : Channel World) (generation : Nat) :
    Channel World :=
  if channel.closed then channel
  else if channel.activeGeneration ≠ generation then channel
  else channel.close

/-! ## Streaming-request bodies -/

def resumeReadingIfDrained (channel : Channel World) : Channel World :=
  if channel.srReadPaused && !channel.srBodyDone &&
      channel.srBufferedBytes ≤ lowWater then
    startRead { channel with srReadPaused := false }
  else channel

def resumeReading (channel : Channel World) : Channel World :=
  if channel.srReadPaused && !channel.srBodyDone then
    startRead { channel with srReadPaused := false }
  else channel

/-- A `BodyChunkCallback` is about to be called. -/
def answerPull (channel : Channel World) (answer : Option Bytes) :
    Channel World :=
  { channel with pulls := channel.pulls ++ [answer] }

/-- The effect of a handler's program; the case of `readBody` is `ReadBody`,
which may run the callback at once. -/
def run : Program World → Channel World → Channel World
  | .done, channel => channel
  | .touch effect next, channel =>
      run (next (effect channel.world))
        { channel with world := effect channel.world }
  | .respond headers next, channel => run next (channel.respond headers)
  | .write chunk next, channel => run next (channel.writeStreamChunk chunk)
  | .closeStreaming next, channel => run next channel.closeStreaming
  | .cancel generation next, channel =>
      run next (channel.cancelRequest generation)
  | .readBody callback next, channel =>
      run next <|
        if channel.closed then run (callback [] true) (channel.answerPull none)
        else
          match channel.srChunks with
          | chunk :: chunks =>
              (run (callback chunk false) ({ channel with
                  srChunks := chunks
                  srBufferedBytes :=
                    channel.srBufferedBytes - chunk.length }.answerPull
                      chunk)).resumeReadingIfDrained
          | [] =>
              if channel.srBodyDone then
                run (callback [] true) (channel.answerPull none)
              else
                resumeReading { channel with srPendingRead := some callback }
  | .sendRaw data next, channel => run next (channel.writeRaw data)
  | .close next, channel => run next channel.close

def deliverBodyChunk (channel : Channel World) (data : Bytes) : Channel World :=
  if channel.closed then channel
  else
    match channel.srPendingRead with
    | some callback =>
        run (callback data false)
          ({ channel with srPendingRead := none }.answerPull data)
    | none =>
        { channel with
          srBufferedBytes := channel.srBufferedBytes + data.length
          srChunks := channel.srChunks ++ [data] }

def deliverBodyDone (channel : Channel World) : Channel World :=
  if channel.closed then channel
  else
    let channel := { channel with srBodyDone := true }
    match channel.srPendingRead with
    | some callback =>
        run (callback [] true)
          ({ channel with srPendingRead := none }.answerPull none)
    | none => channel

/-- A callback of the parser: it goes to the delegate, which forwards the
body of a streaming request to the connection. -/
def onCallback (channel : Channel World) (callback : Callback) :
    Channel World :=
  let forwarding := channel.httpDelegate.forwardingBody
  let channel := { channel with
    httpDelegate := channel.httpDelegate.on callback }
  match callback with
  | .span .body data =>
      if forwarding then channel.deliverBodyChunk data else channel
  | _ => channel

end Channel

end Libnei.Http1

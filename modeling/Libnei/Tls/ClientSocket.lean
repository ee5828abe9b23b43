import Libnei.Bytes
import Libnei.Lib.Actions

/-!
# The TLS client socket

`TLSClientSocket::Impl` (`tls_client_socket.cpp`) on its I/O thread.  What
mbedtls returns and which records it hands to `BioSend` comes with each step;
what it reads through `BioRecv` is not looked at and left out.  The transport
answers later, and the callbacks of the user are posted.

`records` are the bytes handed to `BioSend` and `sent` those that the
transport has sent.  `ended` has both for each time that the transport was
shut down or closed.  A call of the user has a number; `answered` has the
calls whose callback was posted.
-/

namespace Libnei.Tls

open Lib

/-! ## The socket -/

inductive State
  | idle
  | handshaking
  | connected
  | closing
  | closed
  deriving DecidableEq

/-- `TlsBioCtx::SendRecord`. -/
structure SendRecord where
  buf : Bytes
  len : Nat
  offset : Nat
  deriving DecidableEq

/-- The `on_flushed` argument of `FlushBio`: nothing, `RunHandshakeLoop` or
the one of `FlushBioThenNotify`. -/
inductive Continuation
  | none
  | handshake
  | notify
  deriving DecidableEq

/-- A write of the transport that has not completed: the buffer, how much of
it is to be written, and what to do behind it. -/
structure TransportWrite where
  buf : Bytes
  len : Nat
  onFlushed : Continuation
  deriving DecidableEq

inductive Transport
  | isOpen
  | shut
  | closed
  deriving DecidableEq

/-- A callback that was posted: the number of its call, and its arguments. -/
structure Answer where
  call : Nat
  success : Bool
  count : Nat := 0
  deriving DecidableEq

/-- `usedReleased` says that a buffer of the user was used behind its
release. -/
structure Socket where
  hasRunner : Bool := false
  state : State := .idle
  handshakeDone : Bool := false
  handshakeCompleted : Bool := false
  writeInFlight : Bool := false
  shutdownWritePending : Bool := false
  sendQueue : List SendRecord := []
  connectCb : Option Nat := none
  readBuf : Bool := false
  readCb : Option Nat := none
  writeBuf : Bool := false
  writeLen : Nat := 0
  writeOffset : Nat := 0
  writeCb : Option Nat := none
  transport : Transport := .isOpen
  transportConnects : Nat := 0
  handshakeReads : Nat := 0
  transportReads : Nat := 0
  transportWrites : List TransportWrite := []
  retries : Nat := 0
  calls : Nat := 0
  answered : List Answer := []
  records : Bytes := []
  sent : Bytes := []
  ended : List (Bytes × Bytes) := []
  closeCalled : Bool := false
  usedReleased : Bool := false
  deriving DecidableEq

/-- The result of a call of mbedtls: a number that is not negative, or an
error. -/
inductive Result
  | count (number : Nat)
  | wantRead
  | wantWrite
  | failed
  deriving DecidableEq

/-- What mbedtls does if it is called: its result, and the records that it
hands to `BioSend` before it returns. -/
structure Mbedtls where
  result : Result
  records : List Bytes
  deriving DecidableEq

namespace Socket

variable (socket : Socket)

def isClosed : Bool :=
  socket.state = .closed ∨ socket.state = .closing

def bioSend (records : List Bytes) : Socket :=
  { socket with
    sendQueue := socket.sendQueue ++
      records.map fun record => ⟨record, record.length, 0⟩
    records := socket.records ++ records.flatten }

/-! ## Callbacks -/

def answer (call : Nat) (success : Bool) (count : Nat) : Socket :=
  { socket with answered := socket.answered ++ [⟨call, success, count⟩] }

def notifyConnect (success : Bool) : Socket :=
  match socket.connectCb with
  | none => socket
  | some call =>
      { socket with connectCb := none }.answer call success 0

def notifyReadError : Socket :=
  match socket.readCb with
  | none => socket
  | some call =>
      { socket with readCb := none, readBuf := false }.answer call false 0

def notifyWriteError : Socket :=
  match socket.writeCb with
  | none => socket
  | some call =>
      { socket with writeCb := none, writeBuf := false }.answer call false 0

def clearPending : Socket :=
  socket.notifyReadError.notifyWriteError.notifyConnect false

/-! ## Flushing and closing -/

/-- `FlushBio`, and what of `on_flushed` is to be called at once.  The
transport gets the buffer of the record, not the rest of it. -/
def flushBio (onFlushed : Continuation) : Socket × Continuation :=
  if socket.writeInFlight then (socket, .none)
  else
    match socket.sendQueue with
    | [] => (socket, onFlushed)
    | front :: _ =>
        ({ socket with
            writeInFlight := true
            transportWrites := socket.transportWrites ++
              [⟨front.buf, front.len - front.offset, onFlushed⟩] },
          .none)

/-- `FlushBio` if there is something to flush and nothing in flight. -/
def flushRest : Socket :=
  if !socket.writeInFlight && !socket.sendQueue.isEmpty then
    (socket.flushBio .none).1
  else socket

/-- The transport is shut down or closed. -/
def endTransport (transport : Transport) : Socket :=
  { socket with
    transport
    ended := socket.ended ++ [(socket.records, socket.sent)] }

def shutdownWriteAfterFlush : Socket :=
  if !socket.sendQueue.isEmpty || socket.writeInFlight then socket.flushRest
  else if !socket.shutdownWritePending then socket
  else { socket with shutdownWritePending := false }.endTransport .shut

def finalClose : Socket :=
  ({ socket with state := .closed }.endTransport .closed).clearPending

def closeAfterFlush : Socket :=
  if !socket.sendQueue.isEmpty || socket.writeInFlight then socket.flushRest
  else socket.finalClose

/-! ## The handshake -/

def becomeConnected : Socket :=
  { socket with state := .connected, handshakeDone := true }.notifyConnect
    true

def flushBioThenNotify : Socket :=
  if socket.sendQueue.isEmpty then socket.becomeConnected
  else (socket.flushBio .notify).1

/-- `RunHandshakeLoop`.  The loop returns in its first round; `FlushBioAsync`
is called with records to flush. -/
def runHandshakeLoop (mbedtls : Mbedtls) : Socket :=
  if socket.handshakeCompleted || socket.isClosed then socket
  else
    let called := socket.bioSend mbedtls.records
    match mbedtls.result with
    | .count _ => { called with handshakeCompleted := true }.flushBioThenNotify
    | result =>
        if !called.sendQueue.isEmpty then (called.flushBio .handshake).1
        else if result = .wantRead then
          { called with handshakeReads := called.handshakeReads + 1 }
        else called.notifyConnect false

/-- What `on_flushed` does. -/
def continueWith (mbedtls : Mbedtls) : Continuation → Socket
  | .none => socket
  | .handshake => socket.runHandshakeLoop mbedtls
  | .notify => socket.becomeConnected

/-! ## Reading and writing -/

def tryReadDecrypt (mbedtls : Mbedtls) : Socket :=
  if !socket.readBuf then { socket with usedReleased := true }
  else
    let called := socket.bioSend mbedtls.records
    match mbedtls.result with
    | .count (number + 1) =>
        match called.readCb with
        | none => { called with readBuf := false }
        | some call =>
            { called with readCb := none, readBuf := false }.answer call true
              (number + 1)
    | .wantRead => { called with transportReads := called.transportReads + 1 }
    | _ => called.notifyReadError

/-- The ciphertext is flushed, and the encryption goes on in a posted
task. -/
def retryLater : Socket :=
  let flushed := (socket.flushBio .none).1
  { flushed with retries := flushed.retries + 1 }

def tryWriteEncrypt (mbedtls : Mbedtls) : Socket :=
  if !socket.writeBuf then { socket with usedReleased := true }
  else
    let called := socket.bioSend mbedtls.records
    match mbedtls.result with
    | .count (number + 1) =>
        let offset := called.writeOffset + (number + 1)
        if offset < called.writeLen then
          { called with writeOffset := offset }.retryLater
        else
          let flushed := (called.flushBio .none).1
          let released :=
            { flushed with
              writeCb := none, writeBuf := false, writeLen := 0
              writeOffset := 0 }
          match flushed.writeCb with
          | none => released
          | some call => released.answer call true flushed.writeLen
    | .wantWrite => called.retryLater
    | _ => called.notifyWriteError

end Socket

/-! ## The state -/

namespace Socket

variable (socket : Socket)

@[simp] theorem state_bioSend (records : List Bytes) :
    (socket.bioSend records).state = socket.state := rfl

@[simp] theorem state_answer (call : Nat) (success : Bool) (count : Nat) :
    (socket.answer call success count).state = socket.state := rfl

@[simp] theorem state_notifyConnect (success : Bool) :
    (socket.notifyConnect success).state = socket.state := by
  unfold notifyConnect
  split <;> rfl

@[simp] theorem state_notifyReadError :
    socket.notifyReadError.state = socket.state := by
  unfold notifyReadError
  split <;> rfl

@[simp] theorem state_notifyWriteError :
    socket.notifyWriteError.state = socket.state := by
  unfold notifyWriteError
  split <;> rfl

@[simp] theorem state_flushBio (onFlushed : Continuation) :
    (socket.flushBio onFlushed).1.state = socket.state := by
  unfold flushBio
  split
  · rfl
  · split <;> rfl

@[simp] theorem state_flushRest : socket.flushRest.state = socket.state := by
  unfold flushRest
  split
  · exact socket.state_flushBio _
  · rfl

@[simp] theorem state_shutdownWriteAfterFlush :
    socket.shutdownWriteAfterFlush.state = socket.state := by
  unfold shutdownWriteAfterFlush
  split
  · exact socket.state_flushRest
  · split <;> rfl

@[simp] theorem state_becomeConnected :
    socket.becomeConnected.state = .connected := by
  simp [becomeConnected]

theorem state_flushBioThenNotify :
    socket.flushBioThenNotify.state = .connected ∨
      socket.flushBioThenNotify.state = socket.state := by
  unfold flushBioThenNotify
  split
  · exact .inl (state_becomeConnected _)
  · exact .inr (state_flushBio _ _)

variable (mbedtls : Mbedtls)

theorem state_runHandshakeLoop :
    (socket.runHandshakeLoop mbedtls).state = .connected ∨
      (socket.runHandshakeLoop mbedtls).state = socket.state := by
  unfold runHandshakeLoop
  split
  case isTrue => exact .inr rfl
  case isFalse =>
    dsimp only
    split
    · exact state_flushBioThenNotify _
    · right
      split
      · simp
      · split <;> simp

@[simp] theorem state_tryReadDecrypt :
    (socket.tryReadDecrypt mbedtls).state = socket.state := by
  unfold tryReadDecrypt
  split
  · rfl
  · dsimp only
    split
    · split <;> rfl
    · rfl
    · simp

@[simp] theorem state_retryLater : socket.retryLater.state = socket.state :=
  socket.state_flushBio _

@[simp] theorem state_tryWriteEncrypt :
    (socket.tryWriteEncrypt mbedtls).state = socket.state := by
  unfold tryWriteEncrypt
  split
  · rfl
  · dsimp only
    split
    · split
      · simp
      · split <;> simp
    · simp
    · simp

end Socket

/-! ## No callback is left -/

namespace Socket

variable (socket : Socket)

/-- What `ClearPending` leaves. -/
structure Cleared (cleared : Socket) : Prop where
  connectCb : cleared.connectCb = none
  readCb : cleared.readCb = none
  writeCb : cleared.writeCb = none
  transport : cleared.transport = socket.transport
  transportWrites : cleared.transportWrites = socket.transportWrites
  writeInFlight : cleared.writeInFlight = socket.writeInFlight
  retries : cleared.retries = socket.retries

theorem cleared : socket.Cleared socket.clearPending := by
  unfold clearPending notifyConnect notifyWriteError notifyReadError
  split <;> split <;> split <;> constructor <;> simp_all [answer]

theorem writeBuf_clearPending
    (held : socket.writeBuf = true → socket.writeCb.isSome) :
    socket.clearPending.writeBuf = false := by
  unfold clearPending notifyConnect notifyWriteError notifyReadError
  split <;> split <;> split <;> simp_all [answer]

end Socket

/-! ## Steps -/

/-- A call of the user, an answer of the transport, or a posted task. -/
inductive Action
  | connect
  | startHandshake (mbedtls : Mbedtls)
  | tcpConnected (success : Bool) (mbedtls : Mbedtls)
  | handshakeRead (success : Bool) (count : Nat) (mbedtls : Mbedtls)
  | read (mbedtls : Mbedtls)
  | transportRead (success : Bool) (count : Nat) (mbedtls : Mbedtls)
  | write (length : Nat) (mbedtls : Mbedtls)
  | retry (mbedtls : Mbedtls)
  | transportWrite (success : Bool) (count : Nat) (mbedtls : Mbedtls)
  | shutdownWrite
  | close (notify : List Bytes)

namespace Socket

variable (socket : Socket)

def connect : Socket :=
  { socket with
    calls := socket.calls + 1
    hasRunner := true
    connectCb := some socket.calls
    transportConnects := socket.transportConnects + 1 }

def startHandshake (mbedtls : Mbedtls) : Socket :=
  { socket with
    calls := socket.calls + 1
    hasRunner := true
    connectCb := some socket.calls
    state := .handshaking }.runHandshakeLoop mbedtls

def onTcpConnect (success : Bool) (mbedtls : Mbedtls) : Socket :=
  if socket.isClosed then socket
  else if !success then socket.notifyConnect false
  else { socket with state := .handshaking }.runHandshakeLoop mbedtls

/-- The callback of `ReadAsync` in `ReadTransportForHandshake`. -/
def onHandshakeRead (success : Bool) (count : Nat) (mbedtls : Mbedtls) :
    Socket :=
  if socket.isClosed then socket
  else if !success || count == 0 then socket.notifyConnect false
  else socket.runHandshakeLoop mbedtls

def readAsync (mbedtls : Mbedtls) : Socket :=
  let called := { socket with calls := socket.calls + 1 }
  if socket.state ≠ .connected then called.answer socket.calls false 0
  else { called with readBuf := true, readCb := some socket.calls
    }.tryReadDecrypt mbedtls

/-- The callback of `ReadAsync` in `TryReadDecrypt`. -/
def onRead (success : Bool) (count : Nat) (mbedtls : Mbedtls) : Socket :=
  if socket.isClosed then socket
  else if !success || count == 0 then socket.notifyReadError
  else socket.tryReadDecrypt mbedtls

def writeAsync (length : Nat) (mbedtls : Mbedtls) : Socket :=
  let called := { socket with calls := socket.calls + 1 }
  if socket.state ≠ .connected then called.answer socket.calls false 0
  else
    { called with
      writeBuf := true, writeLen := length, writeOffset := 0
      writeCb := some socket.calls }.tryWriteEncrypt mbedtls

def shutdownWrite : Socket :=
  if socket.state ≠ .connected then socket
  else { socket with shutdownWritePending := true }.shutdownWriteAfterFlush

/-- The queue behind a write of the transport. -/
def written (success : Bool) (count : Nat) : List SendRecord :=
  if !success then []
  else
    match socket.sendQueue with
    | [] => []
    | front :: queue =>
        if front.offset + count ≥ front.len then queue
        else { front with offset := front.offset + count } :: queue

def drained (success : Bool) (count : Nat) : Socket :=
  { socket with
    writeInFlight := false
    sendQueue := socket.written success count }

/-- The half-close and the close that wait for a flush. -/
def afterFlush : Socket :=
  let shut :=
    if socket.shutdownWritePending then socket.shutdownWriteAfterFlush
    else socket
  if shut.state = .closing then shut.closeAfterFlush else shut

/-- The callback of `WriteAsync` in `FlushBio`. -/
def onWritten (write : TransportWrite) (success : Bool) (count : Nat)
    (mbedtls : Mbedtls) : Socket :=
  if socket.state = .closed then socket
  else
    let flushed := (socket.drained success count).flushBio write.onFlushed
    (flushed.1.continueWith mbedtls flushed.2).afterFlush

def close (notify : List Bytes) : Socket :=
  let called := { socket with closeCalled := true }
  if socket.isClosed then called
  else
    let closing := { called with state := .closing }
    (if socket.handshakeDone then closing.bioSend notify
      else closing).closeAfterFlush

end Socket

/-- `StartHandshake` checks that the socket is idle.  `ReadAsync` and
`WriteAsync` post to the task runner that `Connect` and `StartHandshake`
set. -/
def step (socket : Socket) : Action → Option Socket
  | .connect => some socket.connect
  | .startHandshake mbedtls =>
      if socket.state = .idle then some (socket.startHandshake mbedtls)
      else none
  | .tcpConnected success mbedtls =>
      if socket.transportConnects = 0 then none
      else some ({ socket with
        transportConnects := socket.transportConnects - 1
        }.onTcpConnect success mbedtls)
  | .handshakeRead success count mbedtls =>
      if socket.handshakeReads = 0 then none
      else some ({ socket with
        handshakeReads := socket.handshakeReads - 1
        }.onHandshakeRead success count mbedtls)
  | .read mbedtls =>
      if !socket.hasRunner then none else some (socket.readAsync mbedtls)
  | .transportRead success count mbedtls =>
      if socket.transportReads = 0 then none
      else some ({ socket with
        transportReads := socket.transportReads - 1
        }.onRead success count mbedtls)
  | .write length mbedtls =>
      if !socket.hasRunner then none
      else some (socket.writeAsync length mbedtls)
  | .retry mbedtls =>
      if socket.retries = 0 then none
      else some ({ socket with
        retries := socket.retries - 1 }.tryWriteEncrypt mbedtls)
  | .transportWrite success count mbedtls =>
      match socket.transportWrites with
      | [] => none
      | write :: writes =>
          if success ∧ write.len < count then none
          else some ({ socket with
            transportWrites := writes
            sent := socket.sent ++
              if success then write.buf.take count else []
            }.onWritten write success count mbedtls)
  | .shutdownWrite => some socket.shutdownWrite
  | .close notify => some (socket.close notify)

theorem step_transportWrite {socket next : Socket} {success : Bool}
    {count : Nat} {mbedtls : Mbedtls}
    (taken : step socket (.transportWrite success count mbedtls) = some next) :
    ∃ write writes, socket.transportWrites = write :: writes ∧
      (success = true → count ≤ write.len) ∧
      next = { socket with
        transportWrites := writes
        sent := socket.sent ++ if success then write.buf.take count else []
        }.onWritten write success count mbedtls := by
  cases outstanding : socket.transportWrites with
  | nil =>
    rw [step, outstanding] at taken
    cases taken
  | cons write writes =>
    rw [step, outstanding] at taken
    obtain ⟨atMost, taken⟩ := Option.ite_none_left_eq_some.mp taken
    refine ⟨write, writes, rfl, fun ok => ?_, (Option.some.inj taken).symm⟩
    exact Nat.not_lt.mp fun more => atMost ⟨ok, more⟩

end Libnei.Tls

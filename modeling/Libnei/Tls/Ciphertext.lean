import Libnei.Tls.ClientSocket

/-!
# The ciphertext on its way to the transport

As long as the transport writes all that it is given, the bytes that it has
sent and the queued records are together the records of `BioSend`, one write
is outstanding at a time, and the transport is shut down and closed behind
all of them.

A write that sends only a part of a record is followed by one that starts at
the beginning of the record again.
-/

namespace Libnei.Tls

open Lib

/-! ## The invariant -/

/-- One write is outstanding, for the first record of the queue. -/
def Socket.Writing (socket : Socket) : Prop :=
  socket.writeInFlight = true ∧ ∃ front queue onFlushed,
    socket.sendQueue = front :: queue ∧
      socket.transportWrites = [⟨front.buf, front.len, onFlushed⟩]

def Socket.Quiet (socket : Socket) : Prop :=
  socket.writeInFlight = false ∧ socket.transportWrites = []

/-- What the flow of the ciphertext depends on. -/
def Socket.flow (socket : Socket) :=
  (socket.sent, socket.sendQueue, socket.records, socket.writeInFlight,
    socket.transportWrites, socket.ended)

structure Flows (socket : Socket) : Prop where
  queued : socket.sent ++ (socket.sendQueue.map (·.buf)).flatten =
    socket.records
  whole : ∀ record ∈ socket.sendQueue,
    record.offset = 0 ∧ record.len = record.buf.length
  flight : socket.Writing ∨ socket.Quiet
  ended : ∀ moment ∈ socket.ended, moment.2 = moment.1
  held : socket.writeBuf = true → socket.writeCb.isSome

variable {write : TransportWrite} {writes : List TransportWrite}

namespace Flows

variable {socket : Socket}

theorem initially : Flows {} where
  queued := rfl
  whole := by simp
  flight := .inr ⟨rfl, rfl⟩
  ended := by simp
  held := by simp

variable (flows : Flows socket)

include flows

theorem sent_eq (empty : socket.sendQueue = []) :
    socket.sent = socket.records := by
  have queued := flows.queued
  rw [empty] at queued
  simpa using queued

theorem quiet (still : socket.writeInFlight = false) : socket.Quiet := by
  rcases flows.flight with writing | quiet
  · rw [writing.1] at still
    cases still
  · exact quiet

theorem bioSend (records : List Bytes) : Flows (socket.bioSend records) where
  queued := by
    simp [Socket.bioSend, ← flows.queued, Function.comp_def]
  whole := by
    intro record member
    simp only [Socket.bioSend, List.mem_append, List.mem_map] at member
    rcases member with member | ⟨bytes, _, rfl⟩
    · exact flows.whole record member
    · exact ⟨rfl, rfl⟩
  flight := by
    rcases flows.flight with ⟨going, front, queue, next, here, there⟩ | quiet
    · exact .inl ⟨going, front, _, next, congrArg (· ++ _) here, there⟩
    · exact .inr quiet
  ended := flows.ended
  held := flows.held

theorem congr {other : Socket} (same : other.flow = socket.flow)
    (held : other.writeBuf = true → other.writeCb.isSome) : Flows other := by
  simp only [Socket.flow, Prod.mk.injEq] at same
  obtain ⟨sent, queue, records, going, writes, ended⟩ := same
  constructor
  · rw [sent, queue, records]
    exact flows.queued
  · rw [queue]
    exact flows.whole
  · unfold Socket.Writing Socket.Quiet
    rw [going, queue, writes]
    exact flows.flight
  · rw [ended]
    exact flows.ended
  · exact held

theorem notifyConnect (success : Bool) :
    Flows (socket.notifyConnect success) := by
  unfold Socket.notifyConnect
  split
  · exact flows
  · exact flows.congr rfl flows.held

theorem notifyReadError : Flows socket.notifyReadError := by
  unfold Socket.notifyReadError
  split
  · exact flows
  · exact flows.congr rfl flows.held

theorem notifyWriteError : Flows socket.notifyWriteError := by
  unfold Socket.notifyWriteError
  split
  · exact flows
  · refine flows.congr rfl ?_
    intro held
    cases held

theorem clearPending : Flows socket.clearPending :=
  flows.notifyReadError.notifyWriteError.notifyConnect false

/-! ## Flushing and closing -/

theorem flushBio (onFlushed : Continuation) :
    Flows (socket.flushBio onFlushed).1 := by
  unfold Socket.flushBio
  split
  case isTrue => exact flows
  case isFalse still =>
    split
    case h_1 => exact flows
    case h_2 front queue here =>
      have quiet := flows.quiet (Bool.not_eq_true _ ▸ still)
      have first := flows.whole front (by rw [here]; simp)
      refine { flows with
        flight := .inl ⟨rfl, front, queue, onFlushed, here, ?_⟩ }
      simp [quiet.2, first.1]

theorem flushRest : Flows socket.flushRest := by
  unfold Socket.flushRest
  split
  · exact flows.flushBio _
  · exact flows

theorem endTransport (transport : Transport) (empty : socket.sendQueue = []) :
    Flows (socket.endTransport transport) where
  queued := flows.queued
  whole := flows.whole
  flight := flows.flight
  ended := by
    intro moment member
    rcases List.mem_append.mp member with member | member
    · exact flows.ended moment member
    · rw [List.mem_singleton.mp member]
      exact flows.sent_eq empty
  held := flows.held

theorem shutdownWriteAfterFlush : Flows socket.shutdownWriteAfterFlush := by
  unfold Socket.shutdownWriteAfterFlush
  split
  case isTrue => exact flows.flushRest
  case isFalse rest =>
    simp only [Bool.or_eq_true, Bool.not_eq_true', not_or,
      Bool.not_eq_false, List.isEmpty_iff] at rest
    split
    · exact flows
    · refine endTransport ?_ _ rest.1
      exact flows.congr rfl flows.held

theorem finalClose (empty : socket.sendQueue = []) :
    Flows socket.finalClose := by
  refine clearPending (endTransport ?_ _ empty)
  exact flows.congr rfl flows.held

theorem closeAfterFlush : Flows socket.closeAfterFlush := by
  unfold Socket.closeAfterFlush
  split
  case isTrue => exact flows.flushRest
  case isFalse rest =>
    simp only [Bool.or_eq_true, Bool.not_eq_true', not_or,
      Bool.not_eq_false, List.isEmpty_iff] at rest
    exact flows.finalClose rest.1

/-! ## The handshake, reading and writing -/

theorem becomeConnected : Flows socket.becomeConnected := by
  refine notifyConnect ?_ true
  exact flows.congr rfl flows.held

theorem flushBioThenNotify : Flows socket.flushBioThenNotify := by
  unfold Socket.flushBioThenNotify
  split
  · exact flows.becomeConnected
  · exact flows.flushBio _

theorem runHandshakeLoop (mbedtls : Mbedtls) :
    Flows (socket.runHandshakeLoop mbedtls) := by
  have called := flows.bioSend mbedtls.records
  unfold Socket.runHandshakeLoop
  split
  case isTrue => exact flows
  case isFalse =>
    dsimp only
    split
    · exact flushBioThenNotify
        (called.congr rfl called.held)
    · split
      · exact called.flushBio _
      · split
        · exact called.congr rfl called.held
        · exact called.notifyConnect _

theorem continueWith (mbedtls : Mbedtls) (onFlushed : Continuation) :
    Flows (socket.continueWith mbedtls onFlushed) := by
  cases onFlushed with
  | none => exact flows
  | handshake => exact flows.runHandshakeLoop mbedtls
  | notify => exact flows.becomeConnected

theorem tryReadDecrypt (mbedtls : Mbedtls) :
    Flows (socket.tryReadDecrypt mbedtls) := by
  have called := flows.bioSend mbedtls.records
  unfold Socket.tryReadDecrypt
  split
  · exact flows.congr rfl flows.held
  · dsimp only
    split
    · split <;> exact called.congr rfl called.held
    · exact called.congr rfl called.held
    · exact called.notifyReadError

theorem retryLater : Flows socket.retryLater :=
  (flows.flushBio .none).congr rfl (flows.flushBio _).held

theorem tryWriteEncrypt (mbedtls : Mbedtls) :
    Flows (socket.tryWriteEncrypt mbedtls) := by
  have called := flows.bioSend mbedtls.records
  unfold Socket.tryWriteEncrypt
  split
  · exact flows.congr rfl flows.held
  · dsimp only
    split
    · split
      · exact retryLater (called.congr rfl called.held)
      · have flushed := called.flushBio .none
        split
        · refine flushed.congr rfl ?_
          intro held
          cases held
        · refine flushed.congr rfl ?_
          intro held
          cases held
    · exact called.retryLater
    · exact called.notifyWriteError

/-! ## A write of the transport -/

theorem drained (outstanding : socket.transportWrites = write :: writes) :
    Flows ({ socket with
      transportWrites := writes
      sent := socket.sent ++ write.buf.take write.len
      }.drained true write.len) := by
  rcases flows.flight with ⟨-, front, queue, next, here, there⟩ | quiet
  · obtain ⟨rfl, rfl⟩ := List.cons.inj (outstanding.symm.trans there)
    have first := flows.whole front (by rw [here]; simp)
    have rest : ({ socket with
        transportWrites := []
        sent := socket.sent ++ front.buf.take front.len
        }.drained true front.len).sendQueue = queue := by
      simp [Socket.drained, Socket.written, here]
    have queued := flows.queued
    rw [here, List.map_cons, List.flatten_cons] at queued
    refine ⟨?_, ?_, .inr ⟨rfl, rfl⟩, flows.ended, flows.held⟩
    · rw [rest]
      simpa [Socket.drained, first.2] using queued
    · rw [rest]
      intro record member
      exact flows.whole record (by rw [here]; simp [member])
  · rw [quiet.2] at outstanding
    cases outstanding

theorem afterFlush : Flows socket.afterFlush := by
  unfold Socket.afterFlush
  dsimp only
  split
  · split
    · exact flows.shutdownWriteAfterFlush.closeAfterFlush
    · exact flows.shutdownWriteAfterFlush
  · split
    · exact flows.closeAfterFlush
    · exact flows

end Flows

/-! ## A closed socket -/

/-- A closed socket has nothing to write. -/
def Silent (socket : Socket) : Prop :=
  socket.state = .closed → socket.Quiet ∧ socket.writeBuf = false

namespace Silent

variable {socket next : Socket}

theorem of_active (active : socket.state ≠ .closed) : Silent socket :=
  fun closed => absurd closed active

theorem closeAfterFlush (flows : Flows socket)
    (active : socket.state ≠ .closed) : Silent socket.closeAfterFlush := by
  unfold Socket.closeAfterFlush
  split
  case isTrue => exact of_active (by simpa using active)
  case isFalse rest =>
    simp only [Bool.or_eq_true, Bool.not_eq_true', not_or,
      Bool.not_eq_false, List.isEmpty_iff, Bool.not_eq_true] at rest
    have quiet := flows.quiet rest.2
    intro _
    have cleared := Socket.cleared
      ({ socket with state := .closed }.endTransport .closed)
    exact ⟨⟨cleared.writeInFlight.trans quiet.1,
      cleared.transportWrites.trans quiet.2⟩,
      Socket.writeBuf_clearPending _ flows.held⟩

theorem congr (silent : Silent socket) (state : next.state = socket.state)
    (same : next.flow = socket.flow)
    (buf : next.writeBuf = socket.writeBuf) : Silent next := by
  simp only [Socket.flow, Prod.mk.injEq] at same
  obtain ⟨-, -, -, going, writes, -⟩ := same
  unfold Silent Socket.Quiet
  rw [state, going, writes, buf]
  exact silent

theorem runHandshakeLoop (mbedtls : Mbedtls) (active : socket.state ≠ .closed) :
    (socket.runHandshakeLoop mbedtls).state ≠ .closed := by
  intro closed
  rcases socket.state_runHandshakeLoop mbedtls with same | same
  · exact absurd (same.symm.trans closed) (by decide)
  · exact active (same.symm.trans closed)

theorem continueWith (mbedtls : Mbedtls) (onFlushed : Continuation)
    (active : socket.state ≠ .closed) :
    (socket.continueWith mbedtls onFlushed).state ≠ .closed := by
  cases onFlushed with
  | none => exact active
  | handshake => exact runHandshakeLoop mbedtls active
  | notify => simp [Socket.continueWith]

theorem tryWriteEncrypt (silent : Silent socket) (mbedtls : Mbedtls) :
    Silent (socket.tryWriteEncrypt mbedtls) := by
  by_cases closed : socket.state = .closed
  · rw [Socket.tryWriteEncrypt, if_pos (by simp [(silent closed).2])]
    exact silent.congr rfl rfl rfl
  · exact of_active (by simpa using closed)

theorem afterFlush (flows : Flows socket)
    (active : socket.state ≠ .closed) : Silent socket.afterFlush := by
  unfold Socket.afterFlush
  dsimp only
  split
  · split
    · exact closeAfterFlush flows.shutdownWriteAfterFlush
        (by simpa using active)
    · exact of_active (by simpa using active)
  · split
    · exact closeAfterFlush flows active
    · exact of_active active

end Silent

/-! ## Whole runs -/

/-- A write of the transport fails, or it sends only a part of what it was
given. -/
def CutsShort (socket : Socket) : Action → Prop
  | .transportWrite success count _ =>
      success = false ∨ ∃ write ∈ socket.transportWrites, count < write.len
  | _ => False

instance (socket : Socket) (action : Action) :
    Decidable (CutsShort socket action) := by
  cases action <;> unfold CutsShort <;> infer_instance

/-- What holds between two actions. -/
structure Sends (socket : Socket) : Prop where
  flows : Flows socket
  silent : Silent socket

namespace Sends

variable {socket next : Socket}

/-- An action of a socket that is not closed, and that does not close it. -/
theorem of_active (flows : Flows socket) (active : socket.state ≠ .closed) :
    Sends socket :=
  ⟨flows, .of_active active⟩

theorem congr (sends : Sends socket) (same : next.flow = socket.flow)
    (state : next.state = socket.state)
    (buf : next.writeBuf = socket.writeBuf)
    (callback : next.writeCb = socket.writeCb) : Sends next where
  flows := sends.flows.congr same
    (by rw [buf, callback]; exact sends.flows.held)
  silent := sends.silent.congr state same buf

theorem active_of_not_isClosed (going : ¬socket.isClosed = true) :
    socket.state ≠ .closed := by
  intro closed
  exact going (by simp [Socket.isClosed, closed])

section

variable (sends : Sends socket)

include sends

theorem startHandshake (mbedtls : Mbedtls) :
    Sends (socket.startHandshake mbedtls) := by
  refine of_active (Flows.runHandshakeLoop ?_ mbedtls)
    (Silent.runHandshakeLoop mbedtls (by simp))
  exact sends.flows.congr rfl sends.flows.held

theorem onTcpConnect (success : Bool) (mbedtls : Mbedtls) :
    Sends (socket.onTcpConnect success mbedtls) := by
  unfold Socket.onTcpConnect
  split
  case isTrue => exact sends
  case isFalse going =>
    have active := active_of_not_isClosed going
    split
    · exact of_active (sends.flows.notifyConnect _) (by simpa using active)
    · refine of_active (Flows.runHandshakeLoop ?_ mbedtls)
        (Silent.runHandshakeLoop mbedtls (by simp))
      exact sends.flows.congr rfl sends.flows.held

theorem onHandshakeRead (success : Bool) (count : Nat) (mbedtls : Mbedtls) :
    Sends (socket.onHandshakeRead success count mbedtls) := by
  unfold Socket.onHandshakeRead
  split
  case isTrue => exact sends
  case isFalse going =>
    have active := active_of_not_isClosed going
    split
    · exact of_active (sends.flows.notifyConnect _) (by simpa using active)
    · exact of_active (sends.flows.runHandshakeLoop mbedtls)
        (Silent.runHandshakeLoop mbedtls active)

theorem readAsync (mbedtls : Mbedtls) : Sends (socket.readAsync mbedtls) := by
  unfold Socket.readAsync
  dsimp only
  split
  case isTrue => exact sends.congr rfl rfl rfl rfl
  case isFalse connected =>
    refine of_active (Flows.tryReadDecrypt ?_ mbedtls)
      (by simp_all)
    exact sends.flows.congr rfl sends.flows.held

theorem onRead (success : Bool) (count : Nat) (mbedtls : Mbedtls) :
    Sends (socket.onRead success count mbedtls) := by
  unfold Socket.onRead
  split
  case isTrue => exact sends
  case isFalse going =>
    have active := active_of_not_isClosed going
    split
    · exact of_active sends.flows.notifyReadError (by simpa using active)
    · exact of_active (sends.flows.tryReadDecrypt mbedtls)
        (by simpa using active)

theorem writeAsync (length : Nat) (mbedtls : Mbedtls) :
    Sends (socket.writeAsync length mbedtls) := by
  unfold Socket.writeAsync
  dsimp only
  split
  case isTrue => exact sends.congr rfl rfl rfl rfl
  case isFalse connected =>
    refine of_active (Flows.tryWriteEncrypt ?_ mbedtls) (by simp_all)
    exact sends.flows.congr rfl fun _ => rfl

theorem shutdownWrite : Sends socket.shutdownWrite := by
  unfold Socket.shutdownWrite
  split
  case isTrue => exact sends
  case isFalse connected =>
    refine of_active (Flows.shutdownWriteAfterFlush ?_) (by simp_all)
    exact sends.flows.congr rfl sends.flows.held

theorem close (notify : List Bytes) : Sends (socket.close notify) := by
  unfold Socket.close
  dsimp only
  split
  case isTrue => exact sends.congr rfl rfl rfl rfl
  case isFalse =>
    have closing : Flows
        { socket with closeCalled := true, state := .closing } :=
      sends.flows.congr rfl sends.flows.held
    split
    · have noted := closing.bioSend notify
      exact ⟨noted.closeAfterFlush, .closeAfterFlush noted (by simp)⟩
    · exact ⟨closing.closeAfterFlush, .closeAfterFlush closing (by simp)⟩

end

theorem flushed (flows : Flows socket) (active : socket.state ≠ .closed)
    (onFlushed : Continuation) (mbedtls : Mbedtls) :
    Sends ((socket.flushBio onFlushed).1.continueWith mbedtls
      (socket.flushBio onFlushed).2).afterFlush := by
  have continued := (flows.flushBio onFlushed).continueWith mbedtls
    (socket.flushBio onFlushed).2
  refine ⟨continued.afterFlush, .afterFlush continued ?_⟩
  exact Silent.continueWith mbedtls _ (by simpa using active)

theorem onWritten (sends : Sends socket)
    (outstanding : socket.transportWrites = write :: writes)
    (mbedtls : Mbedtls) :
    Sends ({ socket with
      transportWrites := writes
      sent := socket.sent ++ write.buf.take write.len
      }.onWritten write true write.len mbedtls) := by
  have active : socket.state ≠ .closed := fun closed =>
    nomatch outstanding.symm.trans (sends.silent closed).1.2
  unfold Socket.onWritten
  rw [if_neg active]
  exact flushed (sends.flows.drained outstanding) active write.onFlushed
    mbedtls

theorem step {action : Action} (sends : Sends socket)
    (whole : ¬CutsShort socket action)
    (taken : step socket action = some next) : Sends next := by
  cases action with
  | connect =>
    cases taken
    exact sends.congr rfl rfl rfl rfl
  | startHandshake mbedtls =>
    obtain ⟨-, ⟨⟩⟩ := Option.ite_none_right_eq_some.mp taken
    exact sends.startHandshake mbedtls
  | tcpConnected success mbedtls =>
    obtain ⟨-, ⟨⟩⟩ := Option.ite_none_left_eq_some.mp taken
    refine onTcpConnect ?_ success mbedtls
    exact sends.congr rfl rfl rfl rfl
  | handshakeRead success count mbedtls =>
    obtain ⟨-, ⟨⟩⟩ := Option.ite_none_left_eq_some.mp taken
    refine onHandshakeRead ?_ success count mbedtls
    exact sends.congr rfl rfl rfl rfl
  | read mbedtls =>
    obtain ⟨-, ⟨⟩⟩ := Option.ite_none_left_eq_some.mp taken
    exact sends.readAsync mbedtls
  | transportRead success count mbedtls =>
    obtain ⟨-, ⟨⟩⟩ := Option.ite_none_left_eq_some.mp taken
    refine onRead ?_ success count mbedtls
    exact sends.congr rfl rfl rfl rfl
  | write length mbedtls =>
    obtain ⟨-, ⟨⟩⟩ := Option.ite_none_left_eq_some.mp taken
    exact sends.writeAsync length mbedtls
  | retry mbedtls =>
    obtain ⟨-, ⟨⟩⟩ := Option.ite_none_left_eq_some.mp taken
    have waiting : Sends { socket with retries := socket.retries - 1 } :=
      sends.congr rfl rfl rfl rfl
    exact ⟨waiting.flows.tryWriteEncrypt mbedtls,
      waiting.silent.tryWriteEncrypt mbedtls⟩
  | transportWrite success count mbedtls =>
    obtain ⟨write, writes, outstanding, atMost, rfl⟩ :=
      step_transportWrite taken
    simp only [CutsShort, not_or, Bool.not_eq_false, outstanding,
      List.exists_mem_cons_iff, Nat.not_lt] at whole
    obtain ⟨rfl, atLeast, -⟩ := whole
    obtain rfl : count = write.len :=
      Nat.le_antisymm (atMost rfl) atLeast
    exact sends.onWritten outstanding mbedtls
  | shutdownWrite =>
    cases taken
    exact sends.shutdownWrite
  | close notify =>
    cases taken
    exact sends.close notify

end Sends

/-- If the transport sends all that it is given, what it has sent is a
prefix of the records, one write is outstanding at most, and the transport is
shut down and closed behind all records. -/
theorem ciphertext_sent_in_order {actions : List Action} {socket : Socket}
    (performed : perform step {} actions = some socket)
    (avoids : Avoids step CutsShort {} actions) :
    socket.sent <+: socket.records ∧ socket.transportWrites.length ≤ 1 ∧
      ∀ moment ∈ socket.ended, moment.2 = moment.1 := by
  have sends : Sends socket := perform_avoiding Sends.step performed avoids
    ⟨.initially, .of_active (by decide)⟩
  refine ⟨⟨_, sends.flows.queued⟩, ?_, sends.flows.ended⟩
  rcases sends.flows.flight with ⟨-, _, _, _, -, one⟩ | quiet
  · rw [one]
    rfl
  · rw [quiet.2]
    decide

/-- A client greets, its connection is established, and it closes. -/
def greetAndClose : List Action :=
  [.startHandshake ⟨.wantRead, [[22, 3, 1]]⟩,
    .transportWrite true 3 ⟨.wantRead, []⟩,
    .handshakeRead true 9 ⟨.count 0, [[20], [22, 3]]⟩,
    .transportWrite true 1 ⟨.failed, []⟩,
    .transportWrite true 2 ⟨.failed, []⟩,
    .close [[21, 3, 3]], .transportWrite true 3 ⟨.failed, []⟩]

theorem ciphertext_sent_in_order_close :
    ∃ socket, perform step {} greetAndClose = some socket ∧
      socket.ended = [([22, 3, 1, 20, 22, 3, 21, 3, 3],
        [22, 3, 1, 20, 22, 3, 21, 3, 3])] ∧
      socket.sent <+: socket.records ∧
      socket.transportWrites.length ≤ 1 ∧
      ∀ moment ∈ socket.ended, moment.2 = moment.1 := by
  have seen : (perform step {} greetAndClose).map (·.ended) =
      some [([22, 3, 1, 20, 22, 3, 21, 3, 3],
        [22, 3, 1, 20, 22, 3, 21, 3, 3])] := by decide +kernel
  obtain ⟨socket, ran, ended⟩ := Option.map_eq_some_iff.mp seen
  exact ⟨socket, ran, ended, ciphertext_sent_in_order ran (by decide +kernel)⟩

/-- One byte of a record of three bytes is sent, and then the next write
starts with it again. -/
theorem partial_write_repeats_record :
    (perform step {} [.startHandshake ⟨.wantRead, [[22, 3, 1]]⟩,
        .transportWrite true 1 ⟨.wantRead, []⟩,
        .transportWrite true 2 ⟨.wantRead, []⟩]).map
      (fun socket => (socket.records, socket.sent)) =
        some ([22, 3, 1], [22, 22, 3]) ∧
      ¬[22, 22, 3] <+: [22, 3, 1] := by
  decide +kernel

end Libnei.Tls

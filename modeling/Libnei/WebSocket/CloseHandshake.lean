import Libnei.Lib.Actions
import Libnei.WebSocket.Client

/-!
# The close handshake of the WebSocket client

A close frame of the server is answered by `DoSendClose`, which only queues
the echo while a write is in flight, and by `Finish`, which clears the queue
and closes the socket: the echo reaches the transport exactly when no write is
in flight.
-/

namespace Libnei.WebSocket

open Lib

namespace ClientChannel

variable {World : Type}

/-- The callback of `WriteAsync`. -/
def onWriteComplete (channel : ClientChannel World) (ok : Bool) :
    ClientChannel World :=
  let channel := { channel with writeInFlight := false }
  if ok then channel.pumpWrites
  else channel.finish

/-! ## The queue is empty while no write is in flight -/

/-- Frames wait behind a write in flight only, and not in a closed client. -/
structure Pumped (channel : ClientChannel World) : Prop where
  waits : channel.writeInFlight = false → channel.writeQueue = []
  framing : channel.framing = false → channel.writeQueue = []

namespace Pumped

variable {channel : ClientChannel World}

/-- Only a client that is still open has frames to pump. -/
theorem pumpWrites
    (closed : channel.framing = false → channel.writeQueue = []) :
    channel.pumpWrites.Pumped := by
  unfold ClientChannel.pumpWrites
  split
  case isTrue stays =>
    refine ⟨fun idle => closed ?_, closed⟩
    rcases stays with busy | shut
    · exact absurd (busy.symm.trans idle) nofun
    · exact Bool.eq_false_iff.mpr shut
  case isFalse goes =>
    have idle : channel.framing = true := by
      simpa using (not_or.mp goes).2
    split
    case h_1 empty => exact ⟨fun _ => empty, closed⟩
    case h_2 bytes queue nonempty =>
      exact ⟨nofun, fun shut => absurd (idle.symm.trans shut) nofun⟩

theorem doSendFrame (pumped : channel.Pumped) (frameBytes : Bytes) :
    (channel.doSendFrame frameBytes).Pumped := by
  unfold ClientChannel.doSendFrame
  split
  case isFalse => exact pumped
  case isTrue open' =>
    exact pumpWrites fun shut => absurd (open'.symm.trans shut) nofun

theorem finish (closed : channel.framing = false → channel.writeQueue = []) :
    channel.finish.Pumped := by
  unfold ClientChannel.finish
  split
  case isTrue shut =>
    have unframed : channel.framing = false := by
      simp [ClientChannel.framing, shut]
    exact ⟨fun _ => closed unframed, closed⟩
  case isFalse =>
    cases channel.onClose <;> exact ⟨fun _ => rfl, fun _ => rfl⟩

theorem sendFrame (pumped : channel.Pumped) (frameBytes : Bytes) :
    (channel.sendFrame frameBytes).Pumped := by
  unfold ClientChannel.sendFrame
  split
  case isTrue => exact pumped
  case isFalse => exact pumped.doSendFrame frameBytes

theorem close (pumped : channel.Pumped) (code : UInt16) :
    (channel.close code).Pumped := by
  unfold ClientChannel.close
  split
  case isTrue => exact pumped
  case isFalse =>
    split
    case isTrue =>
      have closing : Pumped { channel with state := .closing } :=
        ⟨pumped.waits, fun shut => absurd shut (by
          simp [ClientChannel.framing])⟩
      exact closing.doSendFrame _
    case isFalse => exact finish pumped.framing

theorem run (program : ClientProgram World) (pumped : channel.Pumped) :
    (channel.run program).Pumped := by
  induction program generalizing channel with
  | done => exact pumped
  | touch effect next ih =>
    exact ih _ ⟨pumped.waits, pumped.framing⟩
  | sendText text next ih => exact ih (pumped.sendFrame _)
  | sendBinary data next ih => exact ih (pumped.sendFrame _)
  | sendPing data next ih => exact ih (pumped.sendFrame _)
  | close code next ih => exact ih (pumped.close code)

variable (pumped : channel.Pumped)

include pumped

theorem receive (frame : WebSocketFrame) : (channel.receive frame).Pumped := by
  unfold ClientChannel.receive
  split
  case isTrue =>
    cases channel.onFrame with
    | none => exact pumped
    | some callback => exact run (callback frame) pumped
  case isFalse =>
    split
    case isTrue => exact pumped.doSendFrame _
    case isFalse => exact pumped

theorem receiveClose (frame : WebSocketFrame) :
    (channel.receiveClose frame).Pumped := by
  unfold ClientChannel.receiveClose
  split
  case isTrue => exact finish pumped.framing
  case isFalse => exact finish (pumped.doSendFrame _).framing

theorem startFrameRead : channel.startFrameRead.Pumped := by
  unfold ClientChannel.startFrameRead
  split
  case isTrue => exact ⟨pumped.waits, pumped.framing⟩
  case isFalse => exact pumped

theorem onWriteComplete (ok : Bool) : (channel.onWriteComplete ok).Pumped := by
  unfold ClientChannel.onWriteComplete
  cases ok with
  | true => exact pumpWrites pumped.framing
  | false => exact finish pumped.framing

end Pumped

end ClientChannel

/-! ## Runs -/

namespace WebSocketClient

variable {World : Type}

def onFrameReadComplete (client : WebSocketClient World) (success : Bool)
    (data : Bytes) : Processing World :=
  let client := { client with readInFlight := false }
  if ¬client.framing then ⟨none, client⟩
  else if ¬success ∨ data = [] then ⟨none, client.via .finish⟩
  else { client with
    pendingData := client.pendingData ++ data }.processFrames

/-- What happens on the I/O thread: a round of `ProcessFrames`, a completed
read or write, calls of the owner. -/
inductive Action (World : Type)
  | frame
  | readCompleted (success : Bool) (data : Bytes)
  | writeCompleted (ok : Bool)
  | call (program : ClientProgram World)

def step (state : Processing World) :
    Action World → Option (Processing World)
  | .frame => next state
  | .readCompleted success data =>
      if state.offset = none ∧ state.client.readInFlight then
        some (state.client.onFrameReadComplete success data)
      else none
  | .writeCompleted ok =>
      if state.offset = none ∧ state.client.writeInFlight then
        some ⟨none, state.client.via (.onWriteComplete · ok)⟩
      else none
  | .call program =>
      if state.offset = none then
        some ⟨none, state.client.via (.run program)⟩
      else none

variable {client : WebSocketClient World} {state after : Processing World}
  {position : Nat} {frame : WebSocketFrame}

theorem pumped_processFrame (pumped : client.Pumped) (offset : Nat) :
    (client.processFrame offset).client.Pumped := by
  unfold processFrame
  dsimp only
  split
  case isTrue => exact .finish pumped.framing
  case isFalse =>
    split
    case isFalse => exact pumped
    case isTrue =>
      split
      case isTrue => exact pumped.receiveClose _
      case isFalse => exact pumped.receive _

theorem pumped_next (pumped : state.client.Pumped)
    (taken : next state = some after) : after.client.Pumped := by
  unfold next at taken
  split at taken
  case h_1 => cases taken
  case h_2 offset _ =>
    split at taken
    case isTrue =>
      exact Option.some.inj taken ▸ pumped_processFrame pumped offset
    case isFalse =>
      cases taken
      exact pumped.startFrameRead

theorem pumped_onFrameReadComplete (pumped : client.Pumped) (success : Bool)
    (data : Bytes) :
    (client.onFrameReadComplete success data).client.Pumped := by
  have completed : ClientChannel.Pumped
      { client.toClientChannel with readInFlight := false } :=
    ⟨pumped.waits, pumped.framing⟩
  unfold onFrameReadComplete
  dsimp only
  split
  case isTrue => exact completed
  case isFalse =>
    split
    case isTrue => exact .finish completed.framing
    case isFalse =>
      unfold processFrames
      split
      case isTrue => exact completed.startFrameRead
      case isFalse => exact completed

theorem pumped_step {action : Action World} (pumped : state.client.Pumped)
    (taken : step state action = some after) : after.client.Pumped := by
  cases action with
  | frame => exact pumped_next pumped taken
  | readCompleted success data =>
    dsimp only [step] at taken
    split at taken
    case isFalse => cases taken
    case isTrue =>
      exact Option.some.inj taken ▸
        pumped_onFrameReadComplete pumped success data
  | writeCompleted ok =>
    dsimp only [step] at taken
    split at taken
    case isFalse => cases taken
    case isTrue =>
      cases taken
      exact pumped.onWriteComplete ok
  | call program =>
    dsimp only [step] at taken
    split at taken
    case isFalse => cases taken
    case isTrue =>
      cases taken
      exact ClientChannel.Pumped.run program pumped

/-- The client as the upgrade response leaves it. -/
structure Connected (client : WebSocketClient World) : Prop where
  state : client.state = .connected
  writeQueue : client.writeQueue = []
  writeInFlight : client.writeInFlight = false
  calls : client.calls = []

/-- The round of `ProcessFrames` that is next processes a close frame, in
`kConnected`. -/
structure Processing.AtClose (state : Processing World) (position : Nat)
    (frame : WebSocketFrame) : Prop where
  connected : state.client.state = .connected
  offset : state.offset = some position
  inside : position < state.client.pendingData.length
  consumed : 0 ≤ (state.client.frameParser.parse
    (state.client.pendingData.drop position)).1
  complete : (state.client.frameParser.parse
    (state.client.pendingData.drop position)).2.isFrameComplete
  read : (state.client.frameParser.parse
    (state.client.pendingData.drop position)).2.frame = frame
  opcode : frame.opcode = .close

/-- The echo is handed to the transport behind the frames that were queued,
and before the socket is closed. -/
def Echoes (client after : WebSocketClient World) (frame : WebSocketFrame) :
    Prop :=
  ∃ between rest,
    after.calls = client.calls ++ client.writeQueue.map .writeAsync ++
      between ++ .writeAsync (WebSocketFrameBuilder.buildClose
        (ClientChannel.echoCode frame) []) :: rest ∧
    .close ∉ between

section

variable (closes : state.AtClose position frame)

include closes

theorem Processing.AtClose.taken :
    step state .frame = some (state.client.processFrame position) := by
  rw [step, next, closes.offset]
  exact if_pos closes.inside

theorem Processing.AtClose.answered :
    (state.client.processFrame position).client.toClientChannel =
      (state.client.toClientChannel.doSendClose
        (ClientChannel.echoCode frame)).finish := by
  have connected : state.client.state ≠ .closing := by
    rw [closes.connected]
    nofun
  unfold processFrame
  dsimp only
  rw [if_neg (Int.not_lt.mpr closes.consumed), if_pos closes.complete]
  rw [closes.read, if_pos closes.opcode]
  exact if_neg connected

end

variable {channel : ClientChannel World}

theorem calls_finish (shut : channel.state ≠ .closed) :
    channel.finish.calls = channel.calls ++ [.close] := by
  unfold ClientChannel.finish
  rw [if_neg shut]
  cases channel.onClose <;> rfl

/-- The answer to a close frame without a write in flight. -/
theorem calls_of_idle (connected : channel.state = .connected)
    (idle : channel.writeInFlight = false) (empty : channel.writeQueue = [])
    (code : UInt16) :
    (channel.doSendClose code).finish.calls = channel.calls ++
      [.writeAsync (WebSocketFrameBuilder.buildClose code []), .close] := by
  rw [calls_finish] <;>
    simp [ClientChannel.doSendClose, ClientChannel.doSendFrame,
      ClientChannel.pumpWrites, ClientChannel.framing, connected, idle, empty]

/-- With a write in flight the echo stays in the queue. -/
theorem calls_of_busy (connected : channel.state = .connected)
    (busy : channel.writeInFlight = true) (code : UInt16) :
    (channel.doSendClose code).finish.calls = channel.calls ++ [.close] := by
  rw [calls_finish] <;>
    simp [ClientChannel.doSendClose, ClientChannel.doSendFrame,
      ClientChannel.pumpWrites, ClientChannel.framing, connected, busy]

theorem not_echoes_of_close {after : WebSocketClient World}
    (made : after.calls = client.calls ++ [.close]) (frame : WebSocketFrame) :
    ¬Echoes client after frame := by
  rintro ⟨between, rest, handed, before⟩
  rw [made, List.append_assoc, List.append_assoc,
    List.append_cancel_left_eq] at handed
  -- The only call is the close, and it would have to lie before the echo.
  cases queue : client.writeQueue.map TransportCall.writeAsync ++ between with
  | nil =>
    rw [← List.append_assoc, queue] at handed
    cases (List.cons.inj handed).1
  | cons call calls =>
    rw [← List.append_assoc, queue] at handed
    have first := (List.cons.inj handed).1
    have member : TransportCall.close ∈
        client.writeQueue.map TransportCall.writeAsync ++ between := by
      rw [queue, first]
      exact List.mem_cons_self
    rcases List.mem_append.mp member with queued | later
    · obtain ⟨bytes, -, same⟩ := List.mem_map.mp queued
      cases same
    · exact before later

end WebSocketClient

open WebSocketClient

/-- In every run, the echo of a close frame is handed to the transport behind
all queued frames and before the socket is closed, exactly when no write is in
flight at that moment. -/
theorem close_echoed_iff {World : Type} {start : WebSocketClient World}
    {state after : Processing World} {actions : List (Action World)}
    {position : Nat} {frame : WebSocketFrame}
    (connected : start.Connected)
    (performed : perform step ⟨none, start⟩ actions = some state)
    (closes : state.AtClose position frame)
    (taken : step state .frame = some after) :
    Echoes state.client after.client frame ↔
      state.client.writeInFlight = false := by
  have pumped : state.client.Pumped :=
    @perform_invariant _ _ _ (fun state => state.client.Pumped) pumped_step
      _ _ _ performed
      ⟨fun _ => connected.writeQueue, fun _ => connected.writeQueue⟩
  obtain rfl := Option.some.inj (closes.taken.symm.trans taken)
  constructor
  · intro echoes
    by_contra busy
    refine not_echoes_of_close ?_ frame echoes
    rw [closes.answered]
    exact calls_of_busy closes.connected (Bool.eq_true_of_not_eq_false busy) _
  · intro idle
    refine ⟨[], [.close], ?_, List.not_mem_nil⟩
    have empty := pumped.waits idle
    rw [closes.answered, calls_of_idle closes.connected idle empty, empty]
    simp

/-- A client without callbacks that waits for data. -/
def waitingClient : WebSocketClient Unit where
  world := ()
  readInFlight := true

theorem waitingClient_connected : waitingClient.Connected :=
  ⟨rfl, rfl, rfl, rfl⟩

def goodbye : WebSocketFrame where
  fin := true
  opcode := .close
  payload := [0x03, 0xE8]

def goodbyeBytes : Bytes := [0x88, 0x02, 0x03, 0xE8]

theorem atClose_goodbye {state : Processing Unit}
    (connected : state.client.state = .connected)
    (offset : state.offset = some 0)
    (pending : state.client.pendingData = goodbyeBytes)
    (parser : state.client.frameParser = .reset) :
    state.AtClose 0 goodbye := by
  refine ⟨connected, offset, ?_, ?_, ?_, ?_, rfl⟩
  · rw [pending]
    decide
  · rw [pending, parser]
    decide +kernel
  · rw [pending, parser]
    decide +kernel
  · rw [pending, parser]
    decide +kernel

/-- A text is sent and written before the close frame is read. -/
def answeredText : List (Action Unit) :=
  [.call (.sendText (ascii "hi") .done), .writeCompleted true,
    .readCompleted true goodbyeBytes]

theorem close_echoed_iff_answered :
    ∃ state after,
      perform step ⟨none, waitingClient⟩ answeredText = some state ∧
      state.AtClose 0 goodbye ∧ step state .frame = some after ∧
      state.client.writeInFlight = false ∧
      Echoes state.client after.client goodbye := by
  have seen : (perform step ⟨none, waitingClient⟩ answeredText).map
      (fun state => (state.client.state, state.offset,
        state.client.pendingData, state.client.frameParser,
        state.client.writeInFlight)) =
      some (.connected, some 0, goodbyeBytes, .reset, false) := by
    decide +kernel
  obtain ⟨client, performed, same⟩ := Option.map_eq_some_iff.mp seen
  simp only [Prod.mk.injEq] at same
  obtain ⟨state, offset, pending, parser, idle⟩ := same
  have closes := atClose_goodbye state offset pending parser
  have taken := closes.taken
  exact ⟨client, _, performed, closes, taken, idle,
    (close_echoed_iff waitingClient_connected performed closes taken).mpr
      idle⟩

/-- The text is still being written when the close frame is read. -/
def interruptedText : List (Action Unit) :=
  [.call (.sendText (ascii "hi") .done), .readCompleted true goodbyeBytes]

theorem close_not_echoed :
    ∃ state after,
      perform step ⟨none, waitingClient⟩ interruptedText = some state ∧
      state.AtClose 0 goodbye ∧ step state .frame = some after ∧
      after.client.calls = [.writeAsync (WebSocketFrameBuilder.buildText
        (ascii "hi")), .close] ∧
      ¬Echoes state.client after.client goodbye := by
  have seen : (perform step ⟨none, waitingClient⟩ interruptedText).map
      (fun state => ((state.client.state, state.offset,
        state.client.pendingData), state.client.frameParser,
        state.client.writeInFlight, state.client.calls)) =
      some ((.connected, some 0, goodbyeBytes), .reset, true,
        [.writeAsync (WebSocketFrameBuilder.buildText (ascii "hi"))]) := by
    decide +kernel
  obtain ⟨client, performed, same⟩ := Option.map_eq_some_iff.mp seen
  simp only [Prod.mk.injEq] at same
  obtain ⟨⟨state, offset, pending⟩, parser, busy, calls⟩ := same
  have closes := atClose_goodbye state offset pending parser
  have made : (client.client.processFrame 0).client.calls =
      client.client.calls ++ [.close] := by
    rw [closes.answered]
    exact calls_of_busy state busy _
  refine ⟨client, _, performed, closes, closes.taken, ?_,
    not_echoes_of_close made goodbye⟩
  rw [made, calls]
  rfl

end Libnei.WebSocket

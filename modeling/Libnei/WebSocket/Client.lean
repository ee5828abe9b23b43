import Libnei.WebSocket.Frame

/-!
# The frame mode of the WebSocket client

`WebSocketClient` (`websocket_client.cpp`) once it is connected: sending,
closing, and the receive loop `ProcessFrames` as a machine.  Reads and writes
complete later, outside the loop.
-/

namespace Libnei.WebSocket

inductive ClientState
  | idle | connecting | handshakeReading | connected | closing | closed
deriving DecidableEq

/-- What the frame callback does with the client, on the I/O thread. -/
inductive ClientProgram (World : Type)
  | done
  | touch (effect : World → World) (next : World → ClientProgram World)
  | sendText (text : Bytes) (next : ClientProgram World)
  | sendBinary (data : Bytes) (next : ClientProgram World)
  | sendPing (data : Bytes) (next : ClientProgram World)
  | close (code : UInt16) (next : ClientProgram World)

inductive TransportCall
  | writeAsync (bytes : Bytes)
  | close
deriving DecidableEq

/-- The side of a client that its callbacks reach, and the calls on its
transport so far.  A close callback is called when nothing can be sent any
more, so that only its effect outside is kept. -/
structure ClientChannel (World : Type) where
  world : World
  state : ClientState := .connected
  onFrame : Option (WebSocketFrame → ClientProgram World) := none
  onClose : Option (World → World) := none
  writeQueue : List Bytes := []
  writeInFlight : Bool := false
  readInFlight : Bool := false
  calls : List TransportCall := []

namespace ClientChannel

variable {World : Type}

/-- `kConnected` or `kClosing`. -/
def framing (channel : ClientChannel World) : Bool :=
  channel.state = .connected ∨ channel.state = .closing

def startFrameRead (channel : ClientChannel World) : ClientChannel World :=
  if channel.framing then { channel with readInFlight := true } else channel

def pumpWrites (channel : ClientChannel World) : ClientChannel World :=
  if channel.writeInFlight ∨ ¬channel.framing then channel
  else
    match channel.writeQueue with
    | [] => channel
    | bytes :: queue =>
        { channel with
          writeInFlight := true
          writeQueue := queue
          calls := channel.calls ++ [.writeAsync bytes] }

def doSendFrame (channel : ClientChannel World) (frameBytes : Bytes) :
    ClientChannel World :=
  if channel.framing then
    { channel with writeQueue := channel.writeQueue ++ [frameBytes] }.pumpWrites
  else channel

def doSendPong (channel : ClientChannel World) (data : Bytes) :
    ClientChannel World :=
  channel.doSendFrame (WebSocketFrameBuilder.buildPong data)

def doSendClose (channel : ClientChannel World) (code : UInt16) :
    ClientChannel World :=
  channel.doSendFrame (WebSocketFrameBuilder.buildClose code [])

/-- The socket is closed before the close callback is called. -/
def finish (channel : ClientChannel World) : ClientChannel World :=
  if channel.state = .closed then channel
  else
    let channel := { channel with
      state := .closed
      writeQueue := []
      calls := channel.calls ++ [TransportCall.close] }
    match channel.onClose with
    | some callback =>
        { channel with
          onClose := none
          onFrame := none
          world := callback channel.world }
    | none => channel

/-- `SendText`, `SendBinary` and `SendPing` once on the I/O thread. -/
def sendFrame (channel : ClientChannel World) (frameBytes : Bytes) :
    ClientChannel World :=
  if channel.state ≠ .connected then channel
  else channel.doSendFrame frameBytes

def close (channel : ClientChannel World) (code : UInt16) :
    ClientChannel World :=
  if channel.state = .closed ∨ channel.state = .idle then channel
  else if channel.state = .connected then
    { channel with state := .closing }.doSendClose code
  else channel.finish

def run : ClientProgram World → ClientChannel World → ClientChannel World
  | .done, channel => channel
  | .touch effect next, channel =>
      run (next (effect channel.world))
        { channel with world := effect channel.world }
  | .sendText text next, channel =>
      run next (channel.sendFrame (WebSocketFrameBuilder.buildText text))
  | .sendBinary data next, channel =>
      run next
        (channel.sendFrame (WebSocketFrameBuilder.build true .binary false
          data))
  | .sendPing data next, channel =>
      run next (channel.sendFrame (WebSocketFrameBuilder.buildPing data))
  | .close code next, channel => run next (channel.close code)

/-- A frame other than a close frame. -/
def receive (channel : ClientChannel World) (frame : WebSocketFrame) :
    ClientChannel World :=
  if frame.opcode = .text ∨ frame.opcode = .binary then
    match channel.onFrame with
    | some callback => channel.run (callback frame)
    | none => channel
  else if frame.opcode = .ping then channel.doSendPong frame.payload
  else channel

/-- The code that the echo of a close frame carries. -/
def echoCode (frame : WebSocketFrame) : UInt16 :=
  match frame.payload with
  | byte0 :: byte1 :: _ => byte0.toUInt16 <<< 8 ||| byte1.toUInt16
  | _ => 1000

/-- A close frame: the peer echoed ours, or it starts to close. -/
def receiveClose (channel : ClientChannel World) (frame : WebSocketFrame) :
    ClientChannel World :=
  if channel.state = .closing then channel.finish
  else (channel.doSendClose (echoCode frame)).finish

end ClientChannel

/-! ## ProcessFrames -/

/-- `WebSocketClient::Impl`. -/
structure WebSocketClient (World : Type) extends ClientChannel World where
  pendingData : Bytes := []
  frameParser : WebSocketFrameParser := .reset

namespace WebSocketClient

variable {World : Type}

/-- Something is done with the channel of the client. -/
def via (client : WebSocketClient World)
    (action : ClientChannel World → ClientChannel World) :
    WebSocketClient World :=
  { client with toClientChannel := action client.toClientChannel }

/-- The client in `ProcessFrames`: at the head of the loop, or behind the
function. -/
structure Processing (World : Type) where
  offset : Option Nat
  client : WebSocketClient World

def processFrame (client : WebSocketClient World) (offset : Nat) :
    Processing World :=
  let parsed := client.frameParser.parse (client.pendingData.drop offset)
  let client := { client with frameParser := parsed.2 }
  if parsed.1 < 0 then ⟨none, client.via .finish⟩
  else
    let offset := offset + parsed.1.toNat
    if parsed.2.isFrameComplete then
      if parsed.2.frame.opcode = .close then
        ⟨none, client.via (.receiveClose · parsed.2.frame)⟩
      else
        ⟨some offset, { client.via (.receive · parsed.2.frame) with
          frameParser := .reset }⟩
    else ⟨some offset, client⟩

/-- A step of `ProcessFrames`. -/
def next (state : Processing World) : Option (Processing World) :=
  match state.offset with
  | none => none
  | some offset =>
      if offset < state.client.pendingData.length then
        some (state.client.processFrame offset)
      else
        some ⟨none, { state.client with
          pendingData := state.client.pendingData.drop offset
          }.via .startFrameRead⟩

/-- `ProcessFrames` is entered. -/
def processFrames (client : WebSocketClient World) : Processing World :=
  if client.pendingData = [] then ⟨none, client.via .startFrameRead⟩
  else ⟨some 0, client⟩

end WebSocketClient

end Libnei.WebSocket

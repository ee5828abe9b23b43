import Libnei.Http.Dispatch
import Libnei.Http1.Channel
import Libnei.Http1.Parser
import Libnei.Lib.Machine
import Libnei.WebSocket.Frame

/-!
# The parse loop of the HTTP/1 server connection

`OnRead`, `ProcessPendingData` and `ProcessWebSocketData` of
`Http1Connection` (`http_server.cpp`) as a machine: the control says where in
them the I/O thread is, and one step takes it from the head of a loop to the
next place.  Nothing here says that the loops come to an end.
-/

namespace Libnei.Http1

open Libnei.Http Libnei.WebSocket

inductive Mode
  | http | webSocket | streaming | streamingRequest
deriving DecidableEq

/-- What the parse loop did so far: the bytes received, the bytes counted as
consumed by the parser and the requests answered. -/
structure History where
  received : Bytes := []
  executed : Bytes := []
  requests : List HttpRequest := []
deriving DecidableEq

/-- The fields of a connection that only the parse loop uses. -/
structure ParseState (llhttp : Llhttp) (Handler : Type) where
  mode : Mode := .http
  httpParser : Http1Parser llhttp := .reset llhttp
  wsParser : WebSocketFrameParser := .reset
  wsHandler : Option Handler := none
  wsPath : Bytes := []
  pendingData : Bytes := []
  nextRequestGeneration : Nat := 1
  history : History := {}

structure Http1Connection (llhttp : Llhttp) (Handler World : Type) extends
    ParseState llhttp Handler, Channel World

/-- The routes and filters with the code behind the handlers.  `stream` is
what a streaming handler of any kind does when it is called, given the
generation that its handle is pinned to. -/
structure Server (Handler World : Type) where
  shared : HttpSharedState Handler World
  zlib : Zlib
  serve : Handler → HttpRequest → World → HttpResponse × World
  stream : Invocation Handler → Nat → Program World
  onFrame : Handler → WebSocketFrame → Program World

/-- Where the I/O thread is: out of `OnRead`, at the head of the loop of
`ProcessPendingData`, behind its `Execute` with the message perhaps complete,
at the head of the loop of `ProcessWebSocketData`, or behind the call of
`ProcessPendingData`. -/
inductive Control
  | idle
  | parsing (offset : Nat)
  | answering (offset : Nat)
  | framing (offset : Nat)
  | leaving
deriving DecidableEq

structure Running (llhttp : Llhttp) (Handler World : Type) where
  control : Control
  conn : Http1Connection llhttp Handler World

variable {llhttp : Llhttp} {Handler World : Type}

namespace Http1Connection

/-- The connection as it is accepted, with its first read started. -/
def accepted (llhttp : Llhttp) (Handler : Type) (tls : Bool)
    (world : World) : Http1Connection llhttp Handler World :=
  { tls := tls, world := world, readInFlight := true }

/-- Something is done with the channel of the connection. -/
def via (conn : Http1Connection llhttp Handler World)
    (action : Channel World → Channel World) :
    Http1Connection llhttp Handler World :=
  { conn with toChannel := action conn.toChannel }

/-- `pending_data.erase(0, offset)`. -/
def erase (conn : Http1Connection llhttp Handler World) (offset : Nat) :
    Http1Connection llhttp Handler World :=
  { conn with pendingData := conn.pendingData.drop offset }

/-- `if (offset < pending_data.size()) pending_data.erase(0, offset)`. -/
def eraseInside (conn : Http1Connection llhttp Handler World)
    (offset : Nat) : Http1Connection llhttp Handler World :=
  if offset < conn.pendingData.length then conn.erase offset else conn

/-- The request is taken from the delegate, which is reset. -/
def takeRequest (conn : Http1Connection llhttp Handler World) :
    Http1Connection llhttp Handler World :=
  { conn with
    httpDelegate := .reset
    history := { conn.history with
      requests := conn.history.requests ++ [conn.httpDelegate.request] } }

/-- The tail of `OnRead`, behind the call of `ProcessPendingData`. -/
def afterRead (conn : Http1Connection llhttp Handler World) :
    Http1Connection llhttp Handler World :=
  let bodyFinished := conn.mode = .streamingRequest ∧ conn.srBodyDone
  if ¬conn.closed ∧ ¬bodyFinished then
    if conn.mode = .streamingRequest ∧ highWater ≤ conn.srBufferedBytes then
      { conn with srReadPaused := true }
    else conn.via .startRead
  else conn

end Http1Connection

namespace Server

variable (server : Server Handler World)

/-! ## ProcessPendingData -/

/-- `BeginStreamingRequestHandle`, and `BeginStreamingRequest`, whose handler
ignores the handle. -/
def beginStreamingRequest (invocation : Invocation Handler)
    (conn : Http1Connection llhttp Handler World) :
    Http1Connection llhttp Handler World :=
  let generation := conn.nextRequestGeneration
  { conn with
    mode := .streamingRequest
    nextRequestGeneration := generation + 1
    activeGeneration := generation
    httpDelegate := { conn.httpDelegate with forwardingBody := true } }.via
      (.run (server.stream invocation generation))

/-- Streaming-request routes activate as soon as the headers are parsed. -/
def activate (offset : Nat) (conn : Http1Connection llhttp Handler World) :
    Running llhttp Handler World :=
  if conn.mode = .http ∧ conn.httpDelegate.headersComplete then
    match Http.Http1.headersComplete server.shared conn.httpDelegate.request
        conn.world with
    | some (.rejected response world) =>
        let conn := { conn with world := world }
        ⟨.leaving, conn.via fun channel =>
          (channel.writeResponse (HttpResponseWriter.serialize response)).close⟩
    | some (.invoked invocation world) =>
        let conn := { conn with world := world }
        let conn :=
          if invocation.queued = [] then conn
          else conn.via (.deliverBodyChunk · invocation.queued)
        let conn := server.beginStreamingRequest invocation conn
        if conn.closed then ⟨.leaving, conn⟩ else ⟨.answering offset, conn⟩
    | _ => ⟨.answering offset, conn⟩
  else ⟨.answering offset, conn⟩

/-- What the callbacks of `Execute` leave, and its parser. -/
def executed (conn : Http1Connection llhttp Handler World) (data : Bytes) :
    Http1Connection llhttp Handler World :=
  { conn with
    toChannel :=
      (conn.httpParser.callbacks data).foldl .onCallback conn.toChannel
    httpParser := (conn.httpParser.execute data).2 }

def badRequest (errorMsg : Bytes) : HttpResponse :=
  (HttpResponse.plainText .badRequest errorMsg).pushHeader "Connection"
    "close"

/-- The first half of a round of the loop: `Execute`, and a streaming-request
route. -/
def parse (offset : Nat) (conn : Http1Connection llhttp Handler World) :
    Running llhttp Handler World :=
  let data := conn.pendingData.drop offset
  let consumed := (conn.httpParser.execute data).1
  let conn := executed conn data
  if consumed < 0 then
    ⟨.leaving, conn.via fun channel =>
      (channel.writeResponse (HttpResponseWriter.serialize
        (badRequest conn.httpParser.errorMsg))).close⟩
  else
    server.activate (offset + consumed.toNat)
      { conn with
        history := { conn.history with
          executed := conn.history.executed ++ data.take consumed.toNat } }

/-- A streaming route: the handler runs once and owns the connection. -/
def startStreaming (invocation : Invocation Handler)
    (conn : Http1Connection llhttp Handler World) :
    Http1Connection llhttp Handler World :=
  let conn := { conn with mode := .streaming }
  if invocation.kind = .streamingWithHandle then
    let generation := conn.nextRequestGeneration
    { conn with
      nextRequestGeneration := generation + 1
      activeGeneration := generation }.via
        (.run (server.stream invocation generation))
  else conn.via (.run (server.stream invocation 0))

/-- A 101 response with `Upgrade: websocket`. -/
def upgrades (response : HttpResponse) : Bool :=
  response.code = 101 ∧ equalsCaseInsensitiveASCII
      (getHeaderValue response.headers (ascii "Upgrade"))
      (ascii "websocket")

/-- What is sent for a response of a simple handler. -/
def wireData (request : HttpRequest) (response : HttpResponse) : Bytes :=
  let keepAlive := request.keepAlive && response.keepAlive
  HttpResponseWriter.serialize <| maybeCompressResponse server.zlib request <|
      if keepAlive then response
      else response.pushHeader "Connection" "close"

/-- The response of `Dispatch` is sent; an upgrade switches to frames. -/
def finish (offset : Nat) (request : HttpRequest) (response : HttpResponse)
    (conn : Http1Connection llhttp Handler World) :
    Running llhttp Handler World :=
  if upgrades response then
    let conn := conn.via
      (.writeResponse · (HttpResponseWriter.serialize response))
    match server.shared.tables.wsRoutes.lookup request.url.path with
    | some handler =>
        ⟨.framing 0, { conn.erase offset with
          wsHandler := some handler
          wsPath := request.url.path
          mode := .webSocket }⟩
    | none => ⟨.leaving, conn.via .close⟩
  else
    let conn := conn.via
      (.writeResponse · (server.wireData request response))
    if request.keepAlive && response.keepAlive then
      ⟨.parsing offset, { conn with httpParser := .reset llhttp }⟩
    else ⟨.leaving, conn⟩

/-- A complete request: filters, then streaming routes, then `Dispatch`. -/
def answer (offset : Nat) (request : HttpRequest)
    (conn : Http1Connection llhttp Handler World) :
    Running llhttp Handler World :=
  let filtered :=
    (runFilters server.shared.filters request {} conn.world).request
  match Http.Http1.messageComplete server.shared request conn.world with
  | .rejected response world =>
      let conn := { conn with world := world }
      ⟨.leaving, (conn.via (.writeResponse ·
        (HttpResponseWriter.serialize response))).eraseInside offset⟩
  | .invoked invocation world =>
      if invocation.kind = .simple then
        let served :=
          server.serve invocation.handler invocation.request world
        server.finish offset filtered served.1
          { conn with world := served.2 }
      else
        let conn := { conn with world := world }
        ⟨.leaving, (server.startStreaming invocation conn).eraseInside offset⟩
  | .notFound world =>
      server.finish offset filtered .notFound { conn with world := world }

/-- The second half of a round of the loop. -/
def completeMessage (offset : Nat)
    (conn : Http1Connection llhttp Handler World) :
    Running llhttp Handler World :=
  if ¬conn.httpDelegate.messageComplete then ⟨.parsing offset, conn⟩
  else if conn.mode = .streamingRequest then
    ⟨.leaving, { conn.via .deliverBodyDone with httpDelegate := .reset }⟩
  else server.answer offset conn.httpDelegate.request conn.takeRequest

/-! ## ProcessWebSocketData -/

/-- A frame other than a close frame. -/
def receive (handler : Handler) (frame : WebSocketFrame)
    (channel : Channel World) : Channel World :=
  if frame.opcode = .ping then
    channel.writeRaw (WebSocketFrameBuilder.buildPong frame.payload)
  else if frame.opcode = .pong then channel
  else channel.run (server.onFrame handler frame)

/-- A round of the loop of `ProcessWebSocketData`. -/
def frame (handler : Handler) (offset : Nat)
    (conn : Http1Connection llhttp Handler World) :
    Running llhttp Handler World :=
  let parsed := conn.wsParser.parse (conn.pendingData.drop offset)
  let conn := { conn with wsParser := parsed.2 }
  if parsed.1 < 0 then
    ⟨.leaving, conn.via fun channel =>
      (channel.writeRaw (WebSocketFrameBuilder.buildClose 1002 [])).close⟩
  else
    let offset := offset + parsed.1.toNat
    if parsed.2.isFrameComplete then
      if parsed.2.frame.opcode = .close then
        ⟨.leaving, conn.via fun channel =>
          (channel.writeRaw (WebSocketFrameBuilder.buildClose 1000 [])).close⟩
      else
        ⟨.framing offset,
          { conn.via (server.receive handler parsed.2.frame) with
            wsParser := .reset }⟩
    else ⟨.framing offset, conn⟩

/-! ## The machine -/

/-- A step of `OnRead`. -/
def next (state : Running llhttp Handler World) :
    Option (Running llhttp Handler World) :=
  let conn := state.conn
  match state.control with
  | .idle => none
  | .parsing offset =>
      if offset < conn.pendingData.length ∧ ¬conn.closed then
        some (server.parse offset conn)
      else some ⟨.leaving, conn.erase offset⟩
  | .answering offset => some (server.completeMessage offset conn)
  | .framing offset =>
      match conn.wsHandler with
      | some handler =>
          if offset < conn.pendingData.length ∧ ¬conn.closed then
            some (server.frame handler offset conn)
          else some ⟨.leaving, conn.erase offset⟩
      | none => some ⟨.leaving, conn.erase offset⟩
  | .leaving => some ⟨.idle, conn.afterRead⟩

/-- `OnRead` is entered: `none` is a failed read, no bytes are the end of the
stream. -/
def onRead (conn : Http1Connection llhttp Handler World)
    (result : Option Bytes) : Running llhttp Handler World :=
  let data := result.getD []
  let conn := { conn with
    readInFlight := false
    history := { conn.history with
      received := conn.history.received ++ data } }
  if conn.closed then
    if conn.drainAfterClose then
      if data = [] then ⟨.idle, conn.via .finalTeardown⟩
      else ⟨.idle, conn.via .startRead⟩
    else ⟨.idle, conn⟩
  else if data = [] then ⟨.idle, conn.via .close⟩
  else
    let conn := { conn with pendingData := conn.pendingData ++ data }
    if conn.mode = .webSocket then ⟨.framing 0, conn⟩
    else ⟨.parsing 0, conn⟩

end Server

end Libnei.Http1

import Libnei.Http.SharedState

/-!
# Dispatch

How a request finds its handler.  `Http1Connection::ProcessPendingData`
(`http_server.cpp`) decides when the headers of a request are complete and,
failing that, when the message is complete; `Http2Connection`
(`http2_engine.cpp`) does the same in `OnRequestHeadersComplete` and
`DispatchBuffered`.  A handler is not run here: an outcome records which
handler is invoked, with which request and in which world.
-/

namespace Libnei.Http

inductive HandlerKind
  | simple
  | streaming
  | streamingWithHandle
  | streamingRequest
  | streamingRequestWithHandle
deriving DecidableEq

/-- A handler about to run.  `queued` is the part of the body that is already
waiting in the pull queue of a streaming-request handler. -/
structure Invocation (Handler : Type) where
  kind : HandlerKind
  handler : Handler
  request : HttpRequest
  queued : Bytes := []

inductive Outcome (Handler World : Type)
  | rejected (response : HttpResponse) (world : World)
  | invoked (invocation : Invocation Handler) (world : World)
  | notFound (world : World)

namespace Outcome

variable {Handler World : Type}

def world : Outcome Handler World → World
  | .rejected _ world => world
  | .invoked _ world => world
  | .notFound world => world

def invocation? : Outcome Handler World → Option (Invocation Handler)
  | .invoked invocation _ => some invocation
  | _ => none

end Outcome

variable {Handler World : Type}

namespace Http1

/-- The filters of a streaming-request route see the request as far as it
has arrived; the connection is closed behind a rejected one.  The body parsed
so far goes to the pull queue. -/
def beginStreamingRequest (shared : HttpSharedState Handler World)
    (kind : HandlerKind) (handler : Handler) (request : HttpRequest)
    (world : World) : Outcome Handler World :=
  let filtered := runFilters shared.filters request {} world
  if filtered.accepted then
    .invoked
      { kind := kind
        handler := handler
        request := { filtered.request with body := [] }
        queued := filtered.request.body }
      filtered.world
  else
    .rejected (filtered.response.pushHeader "Connection" "close")
      filtered.world

/-- Streaming-request routes activate as soon as the headers are parsed; the
handle-aware table comes first. -/
def headersComplete (shared : HttpSharedState Handler World)
    (request : HttpRequest) (world : World) :
    Option (Outcome Handler World) :=
  match Routes.find shared.tables.streamingRequestRoutesHandle
      request.method request.url.path with
  | some handler =>
      some (beginStreamingRequest shared .streamingRequestWithHandle handler
        request world)
  | none =>
      match Routes.find shared.tables.streamingRequestRoutes request.method
          request.url.path with
      | some handler =>
          some (beginStreamingRequest shared .streamingRequest handler
            request world)
      | none => none

/-- `HttpSharedState::Dispatch`, up to the call of the handler. -/
def dispatch (tables : RouteTables Handler) (request : HttpRequest)
    (world : World) : Outcome Handler World :=
  match tables.simpleHandler request.method request.url.path with
  | some (handler, some params) =>
      .invoked
        { kind := .simple
          handler := handler
          request := { request with routeParams := params } }
        world
  | some (handler, none) =>
      .invoked { kind := .simple, handler := handler, request := request }
        world
  | none => .notFound world

/-- The routes tried for a whole message that the filters let through. -/
def routeMessage (tables : RouteTables Handler) (request : HttpRequest)
    (world : World) : Outcome Handler World :=
  match Routes.find tables.streamingRoutesHandle request.method
      request.url.path with
  | some handler =>
      .invoked { kind := .streamingWithHandle
                 handler := handler
                 request := request } world
  | none =>
      match Routes.find tables.streamingRoutes request.method
          request.url.path with
      | some handler =>
          .invoked { kind := .streaming
                     handler := handler
                     request := request } world
      | none => dispatch tables request world

/-- The message is complete: filters, then streaming routes, then simple
ones. -/
def messageComplete (shared : HttpSharedState Handler World)
    (request : HttpRequest) (world : World) : Outcome Handler World :=
  let filtered := runFilters shared.filters request {} world
  if filtered.accepted then
    routeMessage shared.tables filtered.request filtered.world
  else .rejected filtered.response filtered.world

/-- A request from its headers, and its body as far as it came with them, to
its completion. -/
def dispatchRequest (shared : HttpSharedState Handler World)
    (head whole : HttpRequest) (world : World) : Outcome Handler World :=
  (headersComplete shared head world).getD
    (messageComplete shared whole world)

end Http1

namespace Http2

/-- The request fields of a `StreamState`. -/
structure StreamRequest where
  method : Bytes := []
  scheme : Bytes := ascii "https"
  authority : Bytes := []
  path : Bytes := []
  headers : HttpHeaders := []
  body : Bytes := []
deriving DecidableEq

def buildRequest (stream : StreamRequest) : HttpRequest :=
  { method := stringToHttpMethod stream.method
    url := Url.parse
      (stream.scheme ++ ascii "://" ++ stream.authority ++ stream.path)
    headers := stream.headers
    httpVersion := .unknown }

/-- `if (!params.empty()) req.route_params = std::move(params)`. -/
def withParams (request : HttpRequest) (params : RouteParams) : HttpRequest :=
  if params = ∅ then request else { request with routeParams := params }

/-- The filters see the headers-only probe; `DispatchStreamingRequest` and
`DispatchStreamingRequestWithHandle` build the request anew. -/
def beginStreamingRequest (shared : HttpSharedState Handler World)
    (kind : HandlerKind) (handler : Handler) (params : RouteParams)
    (stream : StreamRequest) (world : World) : Outcome Handler World :=
  let filtered := runFilters shared.filters (buildRequest stream) {} world
  if filtered.accepted then
    .invoked
      { kind := kind
        handler := handler
        request := withParams (buildRequest stream) params }
      filtered.world
  else .rejected filtered.response filtered.world

/-- `OnRequestHeadersComplete`; `none` when the body is to be buffered. -/
def onRequestHeadersComplete (shared : HttpSharedState Handler World)
    (stream : StreamRequest) (world : World) :
    Option (Outcome Handler World) :=
  let probe := buildRequest stream
  let lookup := shared.tables.lookup probe.method probe.url.path
  match lookup.streamingRequest with
  | some handler =>
      some (beginStreamingRequest shared .streamingRequest handler
        lookup.params stream world)
  | none =>
      match lookup.streamingRequestHandle with
      | some handler =>
          some (beginStreamingRequest shared .streamingRequestWithHandle
            handler lookup.params stream world)
      | none => none

/-- The routes tried for a buffered request that the filters let through. -/
def routeBuffered (tables : RouteTables Handler) (request : HttpRequest)
    (world : World) : Outcome Handler World :=
  let lookup := tables.lookup request.method request.url.path
  let request := withParams request lookup.params
  match lookup.streaming with
  | some handler =>
      .invoked { kind := .streaming
                 handler := handler
                 request := request } world
  | none =>
      match lookup.streamingHandle with
      | some handler =>
          .invoked { kind := .streamingWithHandle
                     handler := handler
                     request := request } world
      | none =>
          match lookup.simple with
          | some handler =>
              .invoked { kind := .simple
                         handler := handler
                         request := request } world
          | none => .notFound world

def dispatchBuffered (shared : HttpSharedState Handler World)
    (stream : StreamRequest) (world : World) : Outcome Handler World :=
  let request := { buildRequest stream with body := stream.body }
  let filtered := runFilters shared.filters request {} world
  if filtered.accepted then
    routeBuffered shared.tables filtered.request filtered.world
  else .rejected filtered.response filtered.world

/-- A stream from its headers to the end of its body. -/
def dispatchRequest (shared : HttpSharedState Handler World)
    (stream : StreamRequest) (world : World) : Outcome Handler World :=
  (onRequestHeadersComplete shared stream world).getD
    (dispatchBuffered shared stream world)

end Http2

end Libnei.Http

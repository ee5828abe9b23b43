import Libnei.Http.Message

/-!
# Route tables and filters

`HttpSharedState` (`http_engine_internal.h`): the route tables and the filters
that the HTTP/1 and the HTTP/2 connections share.  The handlers stay abstract;
filters act on the request, the response and the state `World` of everything
outside the server.
-/

namespace Libnei.Http

structure RouteKey where
  method : HttpMethod
  path : Bytes
deriving DecidableEq

abbrev Routes (Handler : Type) := Finmap fun _ : RouteKey => Handler

/-- `find` in a route table; `none` is `end()`. -/
def Routes.find {Handler : Type} (routes : Routes Handler)
    (method : HttpMethod) (path : Bytes) : Option Handler :=
  routes.lookup ⟨method, path⟩

/-- A route with `:param` placeholders. -/
structure PatternRoute (Handler : Type) where
  method : HttpMethod
  segments : List Bytes
  handler : Handler

/-- The loop of `SplitPathSegments`.  Every round moves `start` forward, so
that `path.length` rounds suffice. -/
def splitLoop (path : Bytes) : Nat → Nat → List Bytes
  | 0, _ => []
  | rounds + 1, start =>
      if start < path.length then
        let last := (path.find (· == '/'.toUInt8) start).getD path.length
        path.slice start last :: splitLoop path rounds (last + 1)
      else []

def splitPathSegments (path : Bytes) : List Bytes :=
  splitLoop path path.length
    (if path.head? = some '/'.toUInt8 then 1 else 0)

/-- The loop of `MatchPattern` over segments of the same number. -/
def matchSegments : List Bytes → List Bytes → RouteParams → Option RouteParams
  | pattern :: patterns, segment :: segments, params =>
      match pattern with
      | [] => matchSegments patterns segments params
      | char :: name =>
          if char = ':'.toUInt8 then
            matchSegments patterns segments (params.insert name segment)
          else if pattern = segment then
            matchSegments patterns segments params
          else none
  | _, _, params => some params

def matchPattern (pattern : List Bytes) (path : Bytes) : Option RouteParams :=
  let segments := splitPathSegments path
  if segments.length ≠ pattern.length then none
  else matchSegments pattern segments ∅

/-- The route tables, as far as requests are dispatched by them. -/
structure RouteTables (Handler : Type) where
  routes : Routes Handler := ∅
  patternRoutes : List (PatternRoute Handler) := []
  streamingRoutes : Routes Handler := ∅
  streamingRequestRoutes : Routes Handler := ∅
  streamingRoutesHandle : Routes Handler := ∅
  streamingRequestRoutesHandle : Routes Handler := ∅
  wsRoutes : Finmap (fun _ : Bytes => Handler) := ∅

/-- `DispatchResult`; a `has_*` flag and its handler are one option. -/
structure DispatchResult (Handler : Type) where
  streamingRequest : Option Handler
  streamingRequestHandle : Option Handler
  streaming : Option Handler
  streamingHandle : Option Handler
  simple : Option Handler
  params : RouteParams

namespace RouteTables

variable {Handler : Type}

def addRoute (tables : RouteTables Handler) (method : HttpMethod)
    (path : Bytes) (handler : Handler) : RouteTables Handler :=
  if ':'.toUInt8 ∈ path then
    { tables with
      patternRoutes := tables.patternRoutes ++
        [⟨method, splitPathSegments path, handler⟩] }
  else
    { tables with routes := tables.routes.insert ⟨method, path⟩ handler }

def addStreamingRequest (tables : RouteTables Handler)
    (method : HttpMethod) (path : Bytes) (handler : Handler) :
    RouteTables Handler :=
  { tables with
    streamingRequestRoutes :=
      tables.streamingRequestRoutes.insert ⟨method, path⟩ handler }

/-- The loop over `pattern_routes_` of `Lookup` and `Dispatch`: the first
route of the method whose pattern matches. -/
def firstPattern (patterns : List (PatternRoute Handler))
    (method : HttpMethod) (path : Bytes) :
    Option (Handler × RouteParams) :=
  match patterns with
  | [] => none
  | route :: patterns =>
      if route.method ≠ method then firstPattern patterns method path
      else
        match matchPattern route.segments path with
        | some params => some (route.handler, params)
        | none => firstPattern patterns method path

/-- The simple handler for a key, and the parameters of its pattern if it is
a pattern route. -/
def simpleHandler (tables : RouteTables Handler) (method : HttpMethod)
    (path : Bytes) : Option (Handler × Option RouteParams) :=
  match Routes.find tables.routes method path with
  | some handler => some (handler, none)
  | none =>
      (firstPattern tables.patternRoutes method path).map
        fun found => (found.1, some found.2)

def lookup (tables : RouteTables Handler) (method : HttpMethod)
    (path : Bytes) : DispatchResult Handler :=
  let simple := tables.simpleHandler method path
  { streamingRequest :=
      Routes.find tables.streamingRequestRoutes method path
    streamingRequestHandle :=
      Routes.find tables.streamingRequestRoutesHandle method path
    streaming := Routes.find tables.streamingRoutes method path
    streamingHandle := Routes.find tables.streamingRoutesHandle method path
    simple := simple.map Prod.fst
    params := (simple.bind Prod.snd).getD ∅ }

end RouteTables

/-- A global pre-request filter: it may change the request, fill the response
and answer whether the request may proceed. -/
abbrev HttpFilter (World : Type) :=
  HttpRequest → HttpResponse → World → Bool × HttpRequest × HttpResponse × World

structure HttpSharedState (Handler World : Type) where
  tables : RouteTables Handler
  filters : List (HttpFilter World)

/-- What `RunFilters` leaves behind. -/
structure Filtered (World : Type) where
  accepted : Bool
  request : HttpRequest
  response : HttpResponse
  world : World

/-- A filter that rejects without filling the response answers 403. -/
def forbiddenUnlessFilled (response : HttpResponse) : HttpResponse :=
  if response.status = 200 ∧ response.body = [] ∧ response.headers = [] then
    { response with
      status := HttpStatusCode.raw .forbidden
      body := ascii "403 Forbidden\r\n" }.pushHeader "Content-Type"
        "text/plain"
  else response

def runFilters {World : Type} : List (HttpFilter World) → HttpRequest →
    HttpResponse → World → Filtered World
  | [], request, response, world => ⟨true, request, response, world⟩
  | filter :: filters, request, response, world =>
      match filter request response world with
      | (true, request, response, world) =>
          runFilters filters request response world
      | (false, request, response, world) =>
          ⟨false, request, forbiddenUnlessFilled response, world⟩

end Libnei.Http

import Libnei.Http.Dispatch

/-!
# Filters in front of the handlers

Every dispatch path runs the global filters on its own copy of the request.
The filters are related to the request step by step, so that a dispatch which
skipped one, ran one twice or ran them in another order would not fit.
-/

namespace Libnei.Http

variable {Handler World : Type}

/-- The filters each answer true, one after the other. -/
inductive Passes : List (HttpFilter World) → HttpRequest → HttpResponse →
    World → HttpRequest → World → Prop
  | nil {request : HttpRequest} {response : HttpResponse} {world : World} :
      Passes [] request response world request world
  | cons {filter : HttpFilter World} {filters : List (HttpFilter World)}
      {request request' request'' : HttpRequest}
      {response response' : HttpResponse} {world world' world'' : World}
      (answer : filter request response world =
        (true, request', response', world'))
      (rest : Passes filters request' response' world' request'' world'') :
      Passes (filter :: filters) request response world request'' world''

/-- Some filter answers false after those before it have answered true. -/
inductive Rejects : List (HttpFilter World) → HttpRequest → HttpResponse →
    World → World → Prop
  | here {filter : HttpFilter World} {filters : List (HttpFilter World)}
      {request request' : HttpRequest} {response response' : HttpResponse}
      {world world' : World}
      (answer : filter request response world =
        (false, request', response', world')) :
      Rejects (filter :: filters) request response world world'
  | later {filter : HttpFilter World} {filters : List (HttpFilter World)}
      {request request' : HttpRequest} {response response' : HttpResponse}
      {world world' world'' : World}
      (answer : filter request response world =
        (true, request', response', world'))
      (rest : Rejects filters request' response' world' world'') :
      Rejects (filter :: filters) request response world world''

variable {filters : List (HttpFilter World)} {request : HttpRequest}
  {world : World} {invocation : Invocation Handler}
  {outcome : Outcome Handler World}

theorem Passes.functional {request1 request2 : HttpRequest}
    {response : HttpResponse} {world1 world2 : World}
    (first : Passes filters request response world request1 world1)
    (second : Passes filters request response world request2 world2) :
    request1 = request2 ∧ world1 = world2 := by
  induction first with
  | nil =>
    cases second
    exact ⟨rfl, rfl⟩
  | cons answer rest ih =>
    cases second with
    | cons answer' rest' =>
      simp only [answer, Prod.mk.injEq, true_and] at answer'
      obtain ⟨rfl, rfl, rfl⟩ := answer'
      exact ih rest'

/-- `RunFilters` runs the filters in order, up to the first that rejects. -/
theorem runFilters_spec (filters : List (HttpFilter World))
    (request : HttpRequest) (response : HttpResponse) (world : World) :
    (runFilters filters request response world).accepted = true ∧
        Passes filters request response world
          (runFilters filters request response world).request
          (runFilters filters request response world).world ∨
      (runFilters filters request response world).accepted = false ∧
        Rejects filters request response world
          (runFilters filters request response world).world := by
  induction filters generalizing request response world with
  | nil => exact Or.inl ⟨rfl, .nil⟩
  | cons filter filters ih =>
    rcases answer : filter request response world with
      ⟨allowed, request', response', world'⟩
    cases allowed with
    | false =>
      right
      simp only [runFilters, answer, true_and]
      exact .here answer
    | true =>
      simp only [runFilters, answer]
      exact (ih request' response' world').imp
        (And.imp_right (.cons answer)) (And.imp_right (.later answer))

/-- The request without what the router adds to it. -/
def HttpRequest.message (request : HttpRequest) : HttpRequest :=
  { request with routeParams := ∅ }

/-- The request a handler gets, with the body that waits for its pulls. -/
def Invocation.received (invocation : Invocation Handler) : HttpRequest :=
  { invocation.request with
    body := invocation.request.body ++ invocation.queued }

theorem Invocation.received_eq_request (none : invocation.queued = []) :
    invocation.received = invocation.request := by
  simp only [received, none, List.append_nil]

/-- Either all filters have run, once and in order, and a handler gets the
request as they left it; or a filter has rejected the request and no handler
runs. -/
def Guarded (filters : List (HttpFilter World)) (request : HttpRequest)
    (world : World) (outcome : Outcome Handler World) : Prop :=
  (∃ request', Passes filters request {} world request' outcome.world ∧
        ∀ invocation ∈ outcome.invocation?,
          invocation.received.message = request'.message) ∨
    Rejects filters request {} world outcome.world ∧ outcome.invocation? = none

theorem guarded_of_run
    (sameWorld : outcome.world = (runFilters filters request {} world).world)
    (accepted : (runFilters filters request {} world).accepted = true →
      ∀ invocation ∈ outcome.invocation?, invocation.received.message =
        (runFilters filters request {} world).request.message)
    (rejected : (runFilters filters request {} world).accepted = false →
      outcome.invocation? = none) :
    Guarded filters request world outcome := by
  rcases runFilters_spec filters request {} world with
    ⟨allowed, passes⟩ | ⟨refused, rejects⟩
  · left
    rw [← sameWorld] at passes
    exact ⟨_, passes, accepted allowed⟩
  · right
    rw [← sameWorld] at rejects
    exact ⟨rejects, rejected refused⟩

theorem Guarded.received_eq (guarded : Guarded filters request world outcome)
    (allowed : (runFilters filters request {} world).accepted = true)
    (invoked : invocation ∈ outcome.invocation?) :
    invocation.received.message =
      (runFilters filters request {} world).request.message := by
  rcases guarded with ⟨request', passes, received⟩ | ⟨_, none⟩
  · rcases runFilters_spec filters request {} world with
      ⟨_, passes'⟩ | ⟨refused, _⟩
    · rw [received invocation invoked, (passes.functional passes').1]
    · rw [allowed] at refused
      cases refused
  · rw [none] at invoked
    cases invoked

/-! ## HTTP/1 -/

variable (shared : HttpSharedState Handler World)

theorem Http1.beginStreamingRequest_guarded (kind : HandlerKind)
    (handler : Handler) (request : HttpRequest) (world : World) :
    Guarded shared.filters request world
      (Http1.beginStreamingRequest shared kind handler request world) := by
  rw [Http1.beginStreamingRequest]
  refine guarded_of_run ?_ ?_ ?_
  · dsimp only
    split <;> rfl
  · intro allowed invocation invoked
    simp only [allowed, if_true, Outcome.invocation?, Option.mem_def,
      Option.some.injEq] at invoked
    rw [← invoked]
    simp [Invocation.received]
  · intro refused
    simp [refused, Outcome.invocation?]

variable (tables : RouteTables Handler)

theorem Http1.routeMessage_world (request : HttpRequest) (world : World) :
    (Http1.routeMessage tables request world).world = world := by
  simp only [Http1.routeMessage, Http1.dispatch]
  repeat' split
  all_goals rfl

theorem Http1.routeMessage_received (request : HttpRequest) (world : World) :
    ∀ invocation ∈ (Http1.routeMessage tables request world).invocation?,
      invocation.received.message = request.message := by
  intro invocation invoked
  simp only [Http1.routeMessage, Http1.dispatch] at invoked
  repeat' split at invoked
  all_goals
    simp only [Outcome.invocation?, Option.mem_def, Option.some.injEq,
      reduceCtorEq] at invoked
  all_goals
    rw [← invoked]
    exact (congrArg HttpRequest.message
      (Invocation.received_eq_request rfl)).trans rfl

theorem Http1.messageComplete_guarded (request : HttpRequest) (world : World) :
    Guarded shared.filters request world
      (Http1.messageComplete shared request world) := by
  rw [Http1.messageComplete]
  refine guarded_of_run ?_ ?_ ?_
  · split
    · exact Http1.routeMessage_world _ _ _
    · rfl
  · intro allowed
    simp only [allowed, if_true]
    exact Http1.routeMessage_received _ _ _
  · intro refused
    simp [refused, Outcome.invocation?]

/-! ## HTTP/2 -/

theorem Http2.withParams_message (request : HttpRequest)
    (params : RouteParams) :
    (Http2.withParams request params).message = request.message := by
  rw [Http2.withParams]
  split <;> rfl

theorem Http2.routeBuffered_world (request : HttpRequest) (world : World) :
    (Http2.routeBuffered tables request world).world = world := by
  simp only [Http2.routeBuffered]
  repeat' split
  all_goals rfl

theorem Http2.routeBuffered_received (request : HttpRequest) (world : World) :
    ∀ invocation ∈ (Http2.routeBuffered tables request world).invocation?,
      invocation.received.message = request.message := by
  intro invocation invoked
  simp only [Http2.routeBuffered] at invoked
  repeat' split at invoked
  all_goals
    simp only [Outcome.invocation?, Option.mem_def, Option.some.injEq,
      reduceCtorEq] at invoked
  all_goals
    rw [← invoked, Invocation.received_eq_request rfl]
    exact Http2.withParams_message _ _

theorem Http2.dispatchBuffered_guarded (stream : Http2.StreamRequest)
    (world : World) :
    Guarded shared.filters
      { Http2.buildRequest stream with body := stream.body } world
      (Http2.dispatchBuffered shared stream world) := by
  rw [Http2.dispatchBuffered]
  refine guarded_of_run ?_ ?_ ?_
  · split
    · exact Http2.routeBuffered_world _ _ _
    · rfl
  · intro allowed
    simp only [allowed, if_true]
    exact Http2.routeBuffered_received _ _ _
  · intro refused
    simp [refused, Outcome.invocation?]

/-- The rebuilt request reaches the handler as the filters left it exactly
when they left it as it was. -/
theorem Http2.beginStreamingRequest_guarded_iff (kind : HandlerKind)
    (handler : Handler) (params : RouteParams) (stream : Http2.StreamRequest)
    (world : World) :
    Guarded shared.filters (Http2.buildRequest stream) world
        (Http2.beginStreamingRequest shared kind handler params stream world) ↔
      ((runFilters shared.filters (Http2.buildRequest stream) {}
          world).accepted = true →
        (runFilters shared.filters (Http2.buildRequest stream) {}
          world).request.message = (Http2.buildRequest stream).message) := by
  rw [Http2.beginStreamingRequest]
  let rebuilt : Invocation Handler :=
    { kind := kind
      handler := handler
      request := Http2.withParams (Http2.buildRequest stream) params }
  have received : rebuilt.received.message =
      (Http2.buildRequest stream).message := by
    rw [Invocation.received_eq_request rfl]
    exact Http2.withParams_message _ _
  constructor
  · intro guarded allowed
    rw [← guarded.received_eq allowed (by
      simp only [allowed, if_true]
      exact Option.mem_some_self rebuilt)]
    exact received
  · intro kept
    refine guarded_of_run ?_ ?_ ?_
    · split <;> rfl
    · intro allowed invocation invoked
      simp only [allowed, if_true] at invoked
      rw [← Option.some.inj invoked]
      exact received.trans (kept allowed).symm
    · intro refused
      simp [refused, Outcome.invocation?]

/-! ## Every dispatch path -/

/-- A request as it arrives at a connection: over HTTP/1 as accumulated when
its headers are complete and when it is complete, over HTTP/2 as the fields
of its stream. -/
inductive Arrival
  | http1 (head whole : HttpRequest)
  | http2 (stream : Http2.StreamRequest)

namespace Arrival

/-- Some streaming-request route takes the request at its headers. -/
def streamsRequest (tables : RouteTables Handler) : Arrival → Bool
  | .http1 head _ =>
      (Routes.find tables.streamingRequestRoutesHandle head.method
        head.url.path).isSome ||
      (Routes.find tables.streamingRequestRoutes head.method
        head.url.path).isSome
  | .http2 stream =>
      let probe := Http2.buildRequest stream
      let found := tables.lookup probe.method probe.url.path
      found.streamingRequest.isSome || found.streamingRequestHandle.isSome

/-- The request that the connection puts before the filters. -/
def presented (tables : RouteTables Handler) (arrival : Arrival) :
    HttpRequest :=
  match arrival with
  | .http1 head whole =>
      if arrival.streamsRequest tables then head else whole
  | .http2 stream =>
      if arrival.streamsRequest tables then Http2.buildRequest stream
      else { Http2.buildRequest stream with body := stream.body }

def dispatch (shared : HttpSharedState Handler World) (arrival : Arrival)
    (world : World) : Outcome Handler World :=
  match arrival with
  | .http1 head whole => Http1.dispatchRequest shared head whole world
  | .http2 stream => Http2.dispatchRequest shared stream world

/-- The filters change the message of a request that an HTTP/2
streaming-request route takes. -/
def losesChanges (shared : HttpSharedState Handler World)
    (arrival : Arrival) (world : World) : Prop :=
  let presented := arrival.presented shared.tables
  let filtered := runFilters shared.filters presented {} world
  match arrival with
  | .http1 _ _ => False
  | .http2 _ =>
      arrival.streamsRequest shared.tables = true ∧ filtered.accepted = true ∧
        filtered.request.message ≠ presented.message

/-- Filters guard every dispatch path, except that HTTP/2 streaming-request
routes lose the changes the filters make. -/
theorem guarded_iff (shared : HttpSharedState Handler World)
    (arrival : Arrival) (world : World) :
    Guarded shared.filters (arrival.presented shared.tables) world
        (arrival.dispatch shared world) ↔
      ¬arrival.losesChanges shared world := by
  cases arrival with
  | http1 head whole =>
      refine iff_of_true ?_ id
      cases requestHandle : Routes.find
          shared.tables.streamingRequestRoutesHandle head.method
          head.url.path with
      | some handler =>
          simpa [presented, streamsRequest, dispatch, Http1.dispatchRequest,
            Http1.headersComplete, requestHandle] using
            Http1.beginStreamingRequest_guarded shared
              .streamingRequestWithHandle handler head world
      | none =>
          cases request : Routes.find shared.tables.streamingRequestRoutes
              head.method head.url.path with
          | some handler =>
              simpa [presented, streamsRequest, dispatch,
                Http1.dispatchRequest, Http1.headersComplete,
                requestHandle, request] using
                Http1.beginStreamingRequest_guarded shared
                  .streamingRequest handler head world
          | none =>
              simpa [presented, streamsRequest, dispatch,
                Http1.dispatchRequest, Http1.headersComplete,
                requestHandle, request] using
                Http1.messageComplete_guarded shared whole world
  | http2 stream =>
      simp only [presented, streamsRequest, dispatch, losesChanges,
        Http2.dispatchRequest, Http2.onRequestHeadersComplete]
      obtain ⟨found, lookup⟩ : ∃ found, shared.tables.lookup
          (Http2.buildRequest stream).method
          (Http2.buildRequest stream).url.path = found := ⟨_, rfl⟩
      simp only [lookup]
      cases found.streamingRequest with
      | some handler =>
          simpa using Http2.beginStreamingRequest_guarded_iff shared
            .streamingRequest handler found.params stream world
      | none =>
          cases found.streamingRequestHandle with
          | some handler =>
              simpa using Http2.beginStreamingRequest_guarded_iff shared
                .streamingRequestWithHandle handler found.params stream
                world
          | none =>
              refine iff_of_true ?_ fun lost => ?_
              · exact Http2.dispatchBuffered_guarded shared stream world
              · cases lost.1

/-- A filter that adds a header in front of an HTTP/2 streaming-request
route: the handler does not see the header. -/
theorem addedHeader_not_guarded :
    ¬Guarded
      [fun request response (world : Unit) =>
        (true, { request with headers := request.headers ++ [⟨ascii "x",
          ascii "y"⟩] }, response, world)]
      (presented (RouteTables.addStreamingRequest {} .get (ascii "/a") 0)
        (.http2 { method := ascii "GET", authority := ascii "h"
                  path := ascii "/a" }))
      ()
      (dispatch
        ⟨RouteTables.addStreamingRequest {} .get (ascii "/a") 0,
          [fun request response world =>
            (true, { request with headers := request.headers ++ [⟨ascii "x",
              ascii "y"⟩] }, response, world)]⟩
        (.http2 { method := ascii "GET", authority := ascii "h"
                  path := ascii "/a" })
        ()) := by
  intro guarded
  have received := guarded.received_eq (by decide) (Option.mem_def.mpr rfl)
  revert received
  decide

end Arrival

end Libnei.Http

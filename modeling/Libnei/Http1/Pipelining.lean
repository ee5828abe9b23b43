import Libnei.Http1.Connection
import Libnei.Http1.Messages

/-!
# Pipelined requests

llhttp reports all the messages of a buffer in one `Execute`, but the
delegate holds one request.  A read is therefore answered once, for the last
of its messages.
-/

namespace Libnei.Http1

open Libnei.Lib Libnei.Http Token

/-! ## Whole messages -/

/-- The callbacks for tokens that are reported at once. -/
def wholeCallbacks (tokens : List Token) : List Callback :=
  emitted tokens (tokens.map Token.once)

/-- The request accumulated from the callbacks. -/
def assembledRequest (callbacks : List Callback) : HttpRequest :=
  (callbacks.foldl ConnectionDelegate.on {}).request

namespace RequestMessage

def callbacks (message : RequestMessage) : List Callback :=
  wholeCallbacks message.tokens

def request (message : RequestMessage) : HttpRequest :=
  assembledRequest message.callbacks

theorem bytes_ne_nil (message : RequestMessage) : message.bytes ≠ [] := by
  apply List.append_ne_nil_of_right_ne_nil
  apply List.append_ne_nil_of_right_ne_nil
  apply List.append_ne_nil_of_left_ne_nil
  exact message.methodGap.property

end RequestMessage

theorem mem_wholeCallbacks {callback : Callback} {tokens : List Token}
    (signalled : .signal callback ∈ tokens) :
    callback ∈ wholeCallbacks tokens := by
  induction tokens with
  | nil => cases signalled
  | cons token tokens ih =>
    have order : wholeCallbacks (token :: tokens) =
        token.callbacks token.once ++ wholeCallbacks tokens := rfl
    rw [order, List.mem_append]
    rcases List.mem_cons.mp signalled with rfl | later
    · exact .inl List.mem_cons_self
    · exact .inr (ih later)

variable (callbacks : List Callback)

namespace ConnectionDelegate

/-- The delegate without its flags, which no callback reads. -/
def unflagged (delegate : ConnectionDelegate) : ConnectionDelegate :=
  { delegate with messageComplete := false, headersComplete := false }

theorem on_unflagged (delegate : ConnectionDelegate) (callback : Callback) :
    (delegate.unflagged.on callback).unflagged =
      (delegate.on callback).unflagged := by
  cases callback with
  | messageBegin => rfl
  | span kind text =>
    cases kind with
    | body =>
      cases forwards : delegate.forwardingBody <;>
        simp [on, onSpan, onBody, unflagged, forwards]
    | _ => rfl
  | headersComplete statusCode =>
    by_cases empty : delegate.url = [] <;>
      simp [on, resolveUrl, unflagged, empty]
  | messageComplete =>
    by_cases empty : delegate.url = [] <;>
      simp [on, resolveUrl, unflagged, empty]

theorem foldl_on_unflagged {first second : ConnectionDelegate}
    (same : first.unflagged = second.unflagged) :
    (callbacks.foldl on first).unflagged =
      (callbacks.foldl on second).unflagged := by
  induction callbacks generalizing first second with
  | nil => exact same
  | cons callback callbacks ih =>
    apply ih
    rw [← on_unflagged, same, on_unflagged]

section

variable (delegate : ConnectionDelegate)

include delegate

theorem resolveUrl_flags :
    delegate.resolveUrl.messageComplete = delegate.messageComplete ∧
      delegate.resolveUrl.forwardingBody = delegate.forwardingBody := by
  unfold resolveUrl
  split <;> exact ⟨rfl, rfl⟩

/-- The end of a message is not forgotten, and no callback makes the delegate
forward the body. -/
theorem on_flags (callback : Callback) :
    ((delegate.on callback).messageComplete = true ↔
        delegate.messageComplete = true ∨ .messageComplete = callback) ∧
      (delegate.on callback).forwardingBody = delegate.forwardingBody := by
  obtain ⟨message, forwarding⟩ := resolveUrl_flags delegate
  cases callback with
  | messageBegin => simp [on, onMessageBegin]
  | span kind text =>
    cases kind with
    | body =>
      simp only [on, onSpan, onBody]
      split <;> simp
    | _ => simp [on, onSpan, onHeaderValue]
  | headersComplete statusCode => simp [on, message, forwarding]
  | messageComplete => simp [on, forwarding]

theorem foldl_on_flags :
    ((callbacks.foldl on delegate).messageComplete = true ↔
        delegate.messageComplete = true ∨ .messageComplete ∈ callbacks) ∧
      (callbacks.foldl on delegate).forwardingBody =
        delegate.forwardingBody := by
  induction callbacks generalizing delegate with
  | nil => simp
  | cons callback callbacks ih =>
    obtain ⟨complete, forwarding⟩ := ih (delegate.on callback)
    obtain ⟨complete', forwarding'⟩ := on_flags delegate callback
    constructor
    · rw [List.foldl_cons, complete, complete', List.mem_cons, or_assoc]
    · rw [List.foldl_cons, forwarding, forwarding']

end

variable {delegate : ConnectionDelegate}

/-- Whatever the delegate held before, a whole message replaces it. -/
theorem foldl_on_message (message : RequestMessage)
    (buffers : delegate.forwardingBody = false) :
    (message.callbacks.foldl on delegate).request = message.request ∧
      (message.callbacks.foldl on delegate).messageComplete = true ∧
      (message.callbacks.foldl on delegate).forwardingBody = false := by
  obtain ⟨complete, forwarding⟩ :=
    foldl_on_flags message.callbacks delegate
  refine ⟨?_, ?_, ?_⟩
  · obtain ⟨later, order⟩ : ∃ later, message.callbacks =
        .messageBegin :: .span .method message.method ::
          .span .url message.url :: later := ⟨_, rfl⟩
    have started :
        (((delegate.on .messageBegin).on (.span .method message.method)).on
            (.span .url message.url)).unflagged =
          (((on {} .messageBegin).on (.span .method message.method)).on
            (.span .url message.url)).unflagged := by
      simp [unflagged, on, onSpan, onMessageBegin, buffers]
    have same := congrArg ConnectionDelegate.request
      (foldl_on_unflagged later started)
    rw [RequestMessage.request, assembledRequest, order]
    exact same
  · rw [complete]
    right
    apply mem_wholeCallbacks
    simp [RequestMessage.tokens, Layout.tokens]
  · rw [forwarding, buffers]

/-- Of messages in a row, the last one is kept. -/
theorem foldl_on_messages (messages : List RequestMessage)
    (last : RequestMessage) (buffers : delegate.forwardingBody = false) :
    let final := ((messages ++ [last]).flatMap
      RequestMessage.callbacks).foldl on delegate
    final.request = last.request ∧ final.messageComplete = true ∧
      final.forwardingBody = false := by
  induction messages generalizing delegate with
  | nil =>
    simpa using foldl_on_message last buffers
  | cons message messages ih =>
    obtain ⟨_, _, buffers'⟩ := foldl_on_message message buffers
    simpa using ih buffers'

end ConnectionDelegate

theorem Channel.foldl_onCallback {World : Type} {channel : Channel World}
    (buffers : channel.httpDelegate.forwardingBody = false) :
    callbacks.foldl Channel.onCallback channel =
      { channel with
        httpDelegate := callbacks.foldl .on channel.httpDelegate } := by
  induction callbacks generalizing channel with
  | nil => rfl
  | cons callback callbacks ih =>
    have buffered : channel.onCallback callback =
        { channel with
          httpDelegate := channel.httpDelegate.on callback } := by
      unfold onCallback
      split
      · rw [buffers, if_neg Bool.false_ne_true]
      · rfl
    rw [List.foldl_cons, List.foldl_cons, buffered, ih]
    rw [← buffers]
    exact (channel.httpDelegate.on_flags callback).2

/-! ## One read -/

/-- What is assumed of llhttp: executed between two messages, it reports every
message of the buffer and is between two messages again. -/
structure Pipelines (llhttp : Llhttp) (parses : RequestMessage → Prop)
    where
  between : llhttp.State → Prop
  between_init : between llhttp.init
  execute : ∀ {state : llhttp.State} {messages : List RequestMessage},
    between state → (∀ message ∈ messages, parses message) →
    let execution :=
      llhttp.execute state (messages.flatMap RequestMessage.bytes)
    execution.callbacks = messages.flatMap RequestMessage.callbacks ∧
      execution.errno = .ok ∧ between execution.state

variable {llhttp : Llhttp} {Handler World : Type}

namespace Server

variable (server : Server Handler World)

/-- What a simple request is answered with, and the world behind it. -/
def reply (request : HttpRequest) (world : World) : Bytes × World :=
  let filtered :=
    (runFilters server.shared.filters request {} world).request
  match Http.Http1.messageComplete server.shared request world with
  | .rejected response world =>
      (HttpResponseWriter.serialize response, world)
  | .invoked invocation world =>
      let served := server.serve invocation.handler invocation.request world
      (server.wireData filtered served.1, served.2)
  | .notFound world => (server.wireData filtered .notFound, world)

def replies : List HttpRequest → World → List Bytes × World
  | [], world => ([], world)
  | request :: requests, world =>
      let first := server.reply request world
      let others := replies requests first.2
      (first.1 :: others.1, others.2)

/-- No streaming route is found for the request, and no handler upgrades
it. -/
structure Simple (request : HttpRequest) : Prop where
  buffered : ∀ world,
    Http.Http1.headersComplete server.shared request world = none
  simple : ∀ {world world'} {invocation : Invocation Handler},
    Http.Http1.messageComplete server.shared request world =
      .invoked invocation world' →
    invocation.kind = .simple ∧
      upgrades (server.serve invocation.handler invocation.request
        world').1 = false

end Server

theorem wireData_ne_nil (server : Server Handler World)
    (request : HttpRequest) (response : HttpResponse) :
    server.wireData request response ≠ [] :=
  HttpResponseWriter.serialize_ne_nil _

/-- The connection between two reads.  `old` are the messages that were parsed
before but are still pending. -/
structure Ready {parses : RequestMessage → Prop}
    (pipelines : Pipelines llhttp parses)
    (conn : Http1Connection llhttp Handler World)
    (old : List RequestMessage) (world : World)
    (requests : List HttpRequest) (writes : List Bytes) : Prop where
  mode : conn.mode = .http
  isOpen : conn.closed = false
  flushes : conn.closeAfterWrites = false
  fresh : conn.httpDelegate = .reset
  between : pipelines.between conn.httpParser.state
  old_parses : ∀ message ∈ old, parses message
  pending : conn.pendingData = old.flatMap RequestMessage.bytes
  world : conn.world = world
  requests : conn.history.requests = requests
  writes : conn.writes = writes

namespace Ready

variable {parses : RequestMessage → Prop}
  {pipelines : Pipelines llhttp parses}
  {conn : Http1Connection llhttp Handler World}
  {old : List RequestMessage} {world : World}
  {requests : List HttpRequest} {writes : List Bytes}

section

variable (ready : Ready pipelines conn old world requests writes)

include ready

theorem afterRead :
    Ready pipelines conn.afterRead old world requests writes := by
  obtain ⟨reading, started⟩ := conn.toChannel.startRead_eq
  have reads : conn.afterRead = { conn with readInFlight := reading } := by
    simp [Http1Connection.afterRead, Http1Connection.via, ready.mode,
      ready.isOpen, started]
  rw [reads]
  exact { ready with }

theorem write {data : Bytes} (some : data ≠ []) :
    Ready pipelines (conn.via (.writeResponse · data)) old world requests
      (writes ++ [data]) := by
  obtain ⟨inFlight, queue, _, wrote⟩ :=
    Channel.writeResponse_eq ready.isOpen some
  rw [Http1Connection.via, wrote]
  exact { ready with writes := by rw [← ready.writes] }

theorem written (success : Bool) :
    Ready pipelines (conn.via (.onWritten · success)) old world requests
      writes := by
  cases success with
  | true =>
    obtain ⟨inFlight, queue, _, wrote⟩ :=
      Channel.onWritten_true_eq ready.flushes
    rw [Http1Connection.via, wrote]
    exact { ready with }
  | false =>
    obtain ⟨draining, reading, _, _, failed⟩ :=
      Channel.onWritten_false_eq conn.toChannel
    rw [Http1Connection.via, failed]
    exact { ready with fresh := rfl, flushes := rfl }

end

section

variable (server : Server Handler World)
  (ready : Ready pipelines conn old world requests writes)

include ready

theorem ends_leaving :
    ∃ conn' old', Ends server.next ⟨.leaving, conn⟩ ⟨.idle, conn'⟩ ∧
        Ready pipelines conn' old' world requests writes :=
  ⟨conn.afterRead, old, .step rfl (.halt rfl), ready.afterRead⟩

theorem ends_parsing :
    ∃ conn' old', Ends server.next ⟨.parsing conn.pendingData.length, conn⟩
          ⟨.idle, conn'⟩ ∧
        Ready pipelines conn' old' world requests writes := by
  have leaves : server.next ⟨.parsing conn.pendingData.length, conn⟩ =
      some ⟨.leaving, conn.erase conn.pendingData.length⟩ := by
    simp [Server.next]
  have erased : Ready pipelines (conn.erase conn.pendingData.length) []
      world requests writes :=
    { ready with
      old_parses := by simp
      pending := List.drop_length }
  obtain ⟨conn', old', ends, ready'⟩ := erased.ends_leaving server
  exact ⟨conn', old', .step leaves ends, ready'⟩

theorem ends_finish (request : HttpRequest) {response : HttpResponse}
    (stays : Server.upgrades response = false) :
    ∃ conn' old', Ends server.next
          (server.finish conn.pendingData.length request response conn)
          ⟨.idle, conn'⟩ ∧
        Ready pipelines conn' old' world requests
          (writes ++ [server.wireData request response]) := by
  have wrote := ready.write (wireData_ne_nil server request response)
  rw [Server.finish, stays, if_neg Bool.false_ne_true]
  dsimp only
  split
  · have again : Ready pipelines
        { conn.via (.writeResponse · (server.wireData request response)) with
          httpParser := .reset llhttp } old world requests
        (writes ++ [server.wireData request response]) :=
      { wrote with between := pipelines.between_init }
    exact again.ends_parsing server
  · exact wrote.ends_leaving server

theorem ends_answer {request : HttpRequest} (simple : server.Simple request) :
    ∃ conn' old', Ends server.next
          (server.answer conn.pendingData.length request conn)
          ⟨.idle, conn'⟩ ∧
        Ready pipelines conn' old' (server.reply request world).2 requests
          (writes ++ [(server.reply request world).1]) := by
  rw [Server.answer, Server.reply, ready.world]
  have moved (world' : World) :
      Ready pipelines { conn with world := world' } old world' requests
        writes := { ready with world := rfl }
  cases routed : Http.Http1.messageComplete server.shared request world with
  | rejected response world' =>
    dsimp only
    have kept : ((Http1Connection.via { conn with world := world' }
        (.writeResponse · (HttpResponseWriter.serialize response))
        ).eraseInside conn.pendingData.length) =
        Http1Connection.via { conn with world := world' }
          (.writeResponse · (HttpResponseWriter.serialize response)) := by
      rw [Http1Connection.eraseInside, if_neg]
      exact Nat.lt_irrefl _
    rw [kept]
    apply ends_leaving server
    exact (moved world').write
      (HttpResponseWriter.serialize_ne_nil response)
  | invoked invocation world' =>
    obtain ⟨kind, stays⟩ := simple.simple routed
    dsimp only
    rw [if_pos kind]
    exact (moved _).ends_finish server _ stays
  | notFound world' =>
    exact (moved world').ends_finish server _ (by decide)

end

variable {messages : List RequestMessage} {last : RequestMessage}

/-- `Execute` on everything that is pending: the delegate ends up with the
last of the messages. -/
theorem executed_last
    (ready : Ready pipelines conn (messages ++ [last]) world requests writes) :
    (conn.httpParser.execute conn.pendingData).1 = conn.pendingData.length ∧
      pipelines.between (conn.httpParser.execute conn.pendingData).2.state ∧
      ∃ delegate, delegate.request = last.request ∧
        delegate.messageComplete = true ∧
        Server.executed conn conn.pendingData =
          { conn with
            httpDelegate := delegate
            httpParser := (conn.httpParser.execute conn.pendingData).2 } := by
  have execution := pipelines.execute ready.between ready.old_parses
  rw [← ready.pending] at execution
  obtain ⟨callbacks, errno, between⟩ := execution
  have buffers : conn.httpDelegate.forwardingBody = false := by
    rw [ready.fresh]
    rfl
  obtain ⟨request, complete, _⟩ :=
    ConnectionDelegate.foldl_on_messages messages last buffers
  refine ⟨?_, ?_, _, request, complete, ?_⟩
  · simp [Http1Parser.execute, errno]
  · simpa [Http1Parser.execute, errno] using between
  · rw [Server.executed, Http1Parser.callbacks, callbacks,
      Channel.foldl_onCallback _ buffers]

/-- The connection when the last of the messages is answered. -/
def answering (conn : Http1Connection llhttp Handler World)
    (request : HttpRequest) : Http1Connection llhttp Handler World :=
  { conn with
    httpParser := (conn.httpParser.execute conn.pendingData).2
    history := { conn.history with
      executed := conn.history.executed ++ conn.pendingData
      requests := conn.history.requests ++ [request] } }

theorem parse_last (server : Server Handler World)
    (ready : Ready pipelines conn (messages ++ [last]) world requests
      writes) (simple : server.Simple last.request) :
    ∃ conn', server.parse 0 conn = ⟨.answering conn.pendingData.length, conn'⟩ ∧
      server.completeMessage conn.pendingData.length conn' =
        server.answer conn.pendingData.length last.request
          (answering conn last.request) := by
  obtain ⟨consumed, _, delegate, request, complete, executed⟩ :=
    ready.executed_last
  have accepted : ¬(conn.pendingData.length : Int) < 0 := by omega
  refine ⟨{ answering conn last.request with
    httpDelegate := delegate
    history := { conn.history with
      executed := conn.history.executed ++ conn.pendingData } }, ?_, ?_⟩
  · rw [Server.parse, List.drop_zero, consumed, if_neg accepted, executed,
      Int.toNat_natCast, Nat.zero_add, List.take_length, Server.activate]
    dsimp only
    rw [request, simple.buffered]
    split <;> rfl
  · simp only [Server.completeMessage, Http1Connection.takeRequest,
      answering, ready.mode, complete, request, ← ready.fresh]
    rfl

theorem ends_read (server : Server Handler World)
    (ready : Ready pipelines conn old world requests writes)
    (parsed : ∀ message ∈ messages ++ [last], parses message)
    (simple : server.Simple last.request) :
    ∃ conn' old', Ends server.next
          (Server.onRead conn
            (some ((messages ++ [last]).flatMap RequestMessage.bytes)))
          ⟨.idle, conn'⟩ ∧
        Ready pipelines conn' old' (server.reply last.request world).2
          (requests ++ [last.request])
          (writes ++ [(server.reply last.request world).1]) := by
  generalize arrived : (messages ++ [last]).flatMap RequestMessage.bytes = data
  have some : data ≠ [] := by
    rw [← arrived, List.flatMap_append]
    apply List.append_ne_nil_of_right_ne_nil
    simpa using last.bytes_ne_nil
  let loaded : Http1Connection llhttp Handler World :=
    { conn with
      readInFlight := false
      history := { conn.history with
        received := conn.history.received ++ data }
      pendingData := conn.pendingData ++ data }
  have entered : Server.onRead conn (.some data) = ⟨.parsing 0, loaded⟩ := by
    simp [Server.onRead, ready.isOpen, ready.mode, some, loaded]
  have ready' : Ready pipelines loaded ((old ++ messages) ++ [last]) world
      requests writes :=
    { ready with
      old_parses := by
        intro message member
        rw [List.append_assoc, List.mem_append] at member
        exact member.elim (ready.old_parses message) (parsed message)
      pending := by
        rw [List.append_assoc, List.flatMap_append, arrived, ← ready.pending] }
  have inside : 0 < loaded.pendingData.length := by
    apply List.length_pos_of_ne_nil
    exact List.append_ne_nil_of_right_ne_nil _ some
  obtain ⟨conn', parses', answers⟩ := ready'.parse_last server simple
  have turned : server.next ⟨.parsing 0, loaded⟩ =
      .some ⟨.answering loaded.pendingData.length, conn'⟩ := by
    rw [← parses']
    exact if_pos ⟨inside, by simp [ready'.isOpen]⟩
  have answered : Ready pipelines (answering loaded last.request)
      ((old ++ messages) ++ [last]) world (requests ++ [last.request])
      writes :=
    { ready' with
      between := ready'.executed_last.2.1
      requests := by rw [← ready'.requests]; rfl }
  obtain ⟨final, old', ends, ready''⟩ := answered.ends_answer server simple
  refine ⟨final, old', ?_, ready''⟩
  rw [entered]
  refine .step turned (.step ?_ ends)
  exact congrArg Option.some answers

end Ready

/-! ## Whole runs -/

/-- The messages that arrive in one read. -/
structure Group where
  first : RequestMessage
  rest : List RequestMessage

namespace Group

def messages (group : Group) : List RequestMessage :=
  group.first :: group.rest

def bytes (group : Group) : Bytes :=
  group.messages.flatMap RequestMessage.bytes

def last (group : Group) : RequestMessage :=
  group.messages.getLast (List.cons_ne_nil _ _)

theorem messages_eq (group : Group) :
    group.messages.dropLast ++ [group.last] = group.messages :=
  List.dropLast_append_getLast (List.cons_ne_nil _ _)

theorem last_mem (group : Group) : group.last ∈ group.messages :=
  List.getLast_mem (List.cons_ne_nil _ _)

variable {groups : List Group}

theorem flatMap_messages_of_single
    (single : ∀ group ∈ groups, group.rest = []) :
    groups.flatMap messages = groups.map last := by
  induction groups with
  | nil => rfl
  | cons group groups ih =>
    rw [List.forall_mem_cons] at single
    rw [List.flatMap_cons, List.map_cons, ih single.2, messages, last]
    simp only [messages, single.1]
    rfl

theorem single_of_length
    (length : (groups.flatMap messages).length ≤ groups.length) :
    ∀ group ∈ groups, group.rest = [] := by
  induction groups with
  | nil => exact fun _ member => nomatch member
  | cons group groups ih =>
    have least : groups.length ≤ (groups.flatMap messages).length := by
      rw [List.length_flatMap]
      have each := List.length_le_sum_of_one_le
        (groups.map fun group => group.messages.length)
        (by simp [messages])
      simpa using each
    rw [List.flatMap_cons, List.length_append, messages, List.length_cons,
      List.length_cons] at length
    rw [List.forall_mem_cons]
    refine ⟨?_, ih (by omega)⟩
    apply List.eq_nil_of_length_eq_zero
    omega

end Group

/-- The groups are read one after the other; a write may complete, or fail,
between two of them. -/
inductive Serves (server : Server Handler World) :
    Http1Connection llhttp Handler World → List Group →
      Http1Connection llhttp Handler World → Prop
  | done {conn : Http1Connection llhttp Handler World} :
      Serves server conn [] conn
  | read {conn middle final : Http1Connection llhttp Handler World}
      {group : Group} {groups : List Group} :
      Ends server.next (Server.onRead conn (some group.bytes))
        ⟨.idle, middle⟩ →
      Serves server middle groups final →
      Serves server conn (group :: groups) final
  | written {conn final : Http1Connection llhttp Handler World}
      {groups : List Group} (success : Bool) :
      conn.writeInFlight = true →
      Serves server (conn.via (.onWritten · success)) groups final →
      Serves server conn groups final

variable {group : Group}

section

variable {parses : RequestMessage → Prop}
  {pipelines : Pipelines llhttp parses} {server : Server Handler World}
  {conn final : Http1Connection llhttp Handler World}
  {old : List RequestMessage} {world : World}
  {requests : List HttpRequest} {writes : List Bytes} {groups : List Group}

theorem Ready.ends_group
    (ready : Ready pipelines conn old world requests writes)
    (parsed : ∀ message ∈ group.messages, parses message)
    (simple : server.Simple group.last.request) :
    ∃ conn' old', Ends server.next (Server.onRead conn (some group.bytes))
          ⟨.idle, conn'⟩ ∧
        Ready pipelines conn' old'
          (server.reply group.last.request world).2
          (requests ++ [group.last.request])
          (writes ++ [(server.reply group.last.request world).1]) := by
  rw [← group.messages_eq] at parsed
  rw [Group.bytes, ← group.messages_eq]
  exact ready.ends_read server parsed simple

/-- Every read is answered once, for the last of its messages. -/
theorem Serves.ready (serves : Serves server conn groups final)
    (ready : Ready pipelines conn old world requests writes)
    (parsed : ∀ group ∈ groups, ∀ message ∈ group.messages, parses message)
    (simple : ∀ group ∈ groups, server.Simple group.last.request) :
    let answered := groups.map fun group => group.last.request
    ∃ old', Ready pipelines final old' (server.replies answered world).2
      (requests ++ answered) (writes ++ (server.replies answered world).1) := by
  induction serves generalizing old world requests writes with
  | done =>
    refine ⟨old, ?_⟩
    simpa [Server.replies] using ready
  | @read conn middle final group groups ends _ ih =>
    rw [List.forall_mem_cons] at parsed simple
    obtain ⟨conn', old', ends', ready'⟩ :=
      ready.ends_group parsed.1 simple.1
    cases ends.functional ends'
    obtain ⟨old'', ready''⟩ := ih ready' parsed.2 simple.2
    refine ⟨old'', ?_⟩
    simpa [Server.replies] using ready''
  | written success _ _ ih =>
    exact ih (ready.written success) parsed simple

end

/-- Every message was answered once, in order, with one buffer each: the reply
of a server that serves them one after the other. -/
def Pipelined (server : Server Handler World) (world : World)
    (messages : List RequestMessage)
    (conn : Http1Connection llhttp Handler World) : Prop :=
  let requests := messages.map RequestMessage.request
  conn.history.requests = requests ∧
    conn.writes = (server.replies requests world).1

theorem ready_accepted {parses : RequestMessage → Prop}
    (pipelines : Pipelines llhttp parses) (tls : Bool) (world : World) :
    Ready pipelines (.accepted llhttp Handler tls world) [] world [] [] where
  mode := rfl
  isOpen := rfl
  flushes := rfl
  fresh := rfl
  between := pipelines.between_init
  old_parses := by simp
  pending := rfl
  world := rfl
  requests := rfl
  writes := rfl

/-- An llhttp that only knows one message. -/
def repeating (message : RequestMessage) : Llhttp where
  State := Unit
  init := ()
  execute _ data :=
    let messages :=
      List.replicate (data.length / message.bytes.length) message
    if data = messages.flatMap RequestMessage.bytes then
      ⟨messages.flatMap RequestMessage.callbacks, .ok, none, none, ()⟩
    else
      ⟨[], .error (ascii "HPE_INVALID_METHOD"), some 0,
        some (ascii "Invalid method encountered"), ()⟩

def repeatingPipelines (message : RequestMessage) :
    Pipelines (repeating message) (· = message) where
  between _ := True
  between_init := trivial
  execute := by
    intro _ messages _ same
    obtain ⟨count, rfl⟩ : ∃ count, messages = List.replicate count message :=
      ⟨messages.length, List.eq_replicate_of_mem same⟩
    have positive := List.length_pos_of_ne_nil message.bytes_ne_nil
    simp [repeating, List.flatMap_replicate, Nat.mul_div_left _ positive]

/-- A server with one simple route, for `GET /ab`, that answers 200. -/
def simpleServer : Server Unit Unit where
  shared := ⟨RouteTables.addRoute {} .get (ascii "/ab") (), []⟩
  zlib := .exhausted
  serve _ _ world := ({}, world)
  stream _ _ := .done
  onFrame _ _ := .done

theorem simpleServer_simple : simpleServer.Simple plainGet.request where
  buffered _ := rfl
  simple := by
    intro world world' invocation routed
    have served : Http.Http1.messageComplete simpleServer.shared
        plainGet.request world =
          .invoked ⟨.simple, (), plainGet.request, []⟩ world := rfl
    rw [served] at routed
    cases routed
    exact ⟨rfl, rfl⟩

theorem repeating_read (only : ∀ message ∈ group.messages, message = plainGet) :
    ∃ conn, Ends simpleServer.next
        (Server.onRead (.accepted (repeating plainGet) Unit false ())
          (some group.bytes)) ⟨.idle, conn⟩ ∧
      conn.history.requests = [plainGet.request] := by
  have last : group.last = plainGet := only group.last group.last_mem
  obtain ⟨conn, _, ends, ready⟩ :=
    (ready_accepted (repeatingPipelines plainGet) false ()).ends_group only
      (last ▸ simpleServer_simple)
  refine ⟨conn, ends, ?_⟩
  rw [ready.requests, last]
  rfl

/-- Whole messages for simple routes are answered once each, in order,
exactly if every read brings one of them.  Every read is processed to its
end. -/
theorem pipelined_iff_single {parses : RequestMessage → Prop}
    (pipelines : Pipelines llhttp parses) (server : Server Handler World)
    (tls : Bool) (world : World) {groups : List Group}
    {conn : Http1Connection llhttp Handler World}
    (parsed : ∀ group ∈ groups, ∀ message ∈ group.messages, parses message)
    (simple : ∀ group ∈ groups, ∀ message ∈ group.messages,
      server.Simple message.request)
    (serves : Serves server (.accepted llhttp Handler tls world) groups
      conn) :
    (Pipelined server world (groups.flatMap Group.messages) conn ↔
        ∀ group ∈ groups, group.rest = []) ∧
      ∀ group : Group, (∀ message ∈ group.messages, parses message) →
        (∀ message ∈ group.messages, server.Simple message.request) →
        ∃ conn', Ends server.next
          (Server.onRead conn (some group.bytes)) ⟨.idle, conn'⟩ := by
  have simple' : ∀ group ∈ groups, server.Simple group.last.request := by
    intro group member
    exact simple group member group.last group.last_mem
  obtain ⟨old, ready⟩ :=
    serves.ready (ready_accepted pipelines tls world) parsed simple'
  constructor
  · constructor
    · rintro ⟨answered, _⟩
      apply Group.single_of_length
      have lengths := congrArg List.length (ready.requests.symm.trans answered)
      simp only [List.nil_append, List.length_map] at lengths
      omega
    · intro single
      rw [Pipelined, Group.flatMap_messages_of_single single, List.map_map]
      exact ⟨ready.requests, ready.writes⟩
  · intro group parsed' simple''
    obtain ⟨conn', _, ends, _⟩ :=
      ready.ends_group parsed' (simple'' group.last group.last_mem)
    exact ⟨conn', ends⟩

/-- Two requests, each read by itself. -/
theorem pipelined_two_gets :
    ∃ conn, Serves simpleServer
        (.accepted (repeating plainGet) Unit false ())
        [⟨plainGet, []⟩, ⟨plainGet, []⟩] conn ∧
      Pipelined simpleServer () [plainGet, plainGet] conn := by
  have only : ∀ message ∈ Group.messages ⟨plainGet, []⟩,
      message = plainGet := by simp [Group.messages]
  have simple : ∀ message ∈ Group.messages ⟨plainGet, []⟩,
      simpleServer.Simple message.request := by
    simpa [Group.messages] using simpleServer_simple
  obtain ⟨first, ends, _⟩ := repeating_read only
  have spec {groups conn} := @pipelined_iff_single _ _ _ _
    (repeatingPipelines plainGet) simpleServer false () groups conn
  obtain ⟨conn, ends'⟩ := (spec (by simpa using only) (by simpa using simple)
    (.read ends .done)).2 _ only simple
  have serves := Serves.read ends (.read ends' .done)
  exact ⟨conn, serves,
    (spec (by simpa using only) (by simpa using simple) serves).1.mpr
      (by simp)⟩

/-- Two requests in one read: only one of them is answered. -/
theorem twoGets_not_pipelined :
    ∃ conn, Serves simpleServer
        (.accepted (repeating plainGet) Unit false ())
        [⟨plainGet, [plainGet]⟩] conn ∧
      ¬Pipelined simpleServer () [plainGet, plainGet] conn := by
  have only : ∀ message ∈ Group.messages ⟨plainGet, [plainGet]⟩,
      message = plainGet := by simp [Group.messages]
  obtain ⟨conn, ends, once⟩ := repeating_read only
  refine ⟨conn, .read ends .done, ?_⟩
  rintro ⟨answered, _⟩
  have lengths := congrArg List.length (once.symm.trans answered)
  contradiction

end Libnei.Http1

import Libnei.Http1.Handlers
import Libnei.Http1.Pipelining
import Libnei.Http1.Run

/-!
# No byte is parsed twice

The parse loop executes what is pending from the front.  As long as it erases
what it has executed before it returns, the bytes executed are a prefix of
the bytes received.  It does not on three of its ways out: behind the
response of a filter and behind a streaming handler if all that is pending
was executed, and behind a response that is not keep-alive.
-/

namespace Libnei.Http1

open Libnei.Lib Libnei.Http Libnei.WebSocket

variable {llhttp : Llhttp} {Handler World : Type}

/-! ## The condition -/

namespace Server

variable (server : Server Handler World)

/-- The answer to a request erases the request, or makes sure that nothing is
read any more. -/
def Erases (offset : Nat) (request : HttpRequest)
    (conn : Http1Connection llhttp Handler World) : Prop :=
  let inside := offset < conn.pendingData.length
  let filtered :=
    (runFilters server.shared.filters request {} conn.world).request
  match Http.Http1.messageComplete server.shared request conn.world with
  | .rejected _ _ => inside
  | .invoked invocation world =>
      if invocation.kind = .simple then
        let response :=
          (server.serve invocation.handler invocation.request world).1
        upgrades response = true ∨
          filtered.keepAlive = true ∧ response.keepAlive = true
      else
        inside ∨ (server.startStreaming invocation
            { conn with world := world }).closed = true
  | .notFound _ => filtered.keepAlive = true

/-- The actions that leave no executed bytes to be read again: an answer
erases them, and no write fails on a TLS connection that has stopped reading
the body of a request. -/
def Careful (state : Running llhttp Handler World) : Action World → Prop
  | .advance =>
      ∀ offset, state.control = .answering offset → state.conn.closed = false →
        state.conn.httpDelegate.messageComplete = true →
        state.conn.mode ≠ .streamingRequest →
        server.Erases offset state.conn.httpDelegate.request
          state.conn.takeRequest
  | .written false =>
      state.conn.closed = false → state.conn.tls = true →
        state.conn.srReadPaused = false ∧
          ¬(state.conn.mode = .streamingRequest ∧ state.conn.srBodyDone = true)
  | _ => True

end Server

/-! ## The invariant -/

/-- The bytes executed and the bytes pending behind the offset are those
received. -/
def Aligned (conn : Http1Connection llhttp Handler World) (offset : Nat) :
    Prop :=
  offset ≤ conn.pendingData.length ∧
    conn.history.executed ++ conn.pendingData.drop offset =
      conn.history.received

/-- No read is in flight and none will be started by a handler. -/
def NotReading (conn : Http1Connection llhttp Handler World) : Prop :=
  conn.readInFlight = false ∧ conn.srReadPaused = false

/-- The handler owns the connection; nothing is read any more. -/
def BodyFinished (conn : Http1Connection llhttp Handler World) : Prop :=
  conn.mode = .streamingRequest ∧ conn.srBodyDone = true

/-- Where the bytes of an open connection are. -/
def Tracks (conn : Http1Connection llhttp Handler World) : Control → Prop
  | .idle =>
      (conn.readInFlight = true → conn.srReadPaused = false) ∧
        (conn.mode = .webSocket ∨
          BodyFinished conn ∧ conn.readInFlight = false ∨
          Aligned conn 0)
  | .parsing offset | .answering offset =>
      NotReading conn ∧ conn.mode ≠ .webSocket ∧ Aligned conn offset
  | .framing _ => NotReading conn ∧ conn.mode = .webSocket
  | .leaving =>
      NotReading conn ∧
        (conn.mode = .webSocket ∨ BodyFinished conn ∨ Aligned conn 0)

structure Consumes (state : Running llhttp Handler World) : Prop where
  within : state.conn.history.executed <+: state.conn.history.received
  closing : state.conn.closed = false →
    state.conn.closeAfterWrites = false ∧ state.conn.closePosted = false
  tracks : state.conn.closed = false → Tracks state.conn state.control

section

variable {conn : Http1Connection llhttp Handler World} {control : Control}
  {offset : Nat} {action : Channel World → Channel World}

theorem Aligned.erase (aligned : Aligned conn offset) :
    Aligned (conn.erase offset) 0 :=
  ⟨Nat.zero_le _, aligned.2⟩

theorem NotReading.via (quiet : NotReading conn)
    (keeps : Keeps conn.toChannel (action conn.toChannel))
    (isOpen : (conn.via action).closed = false) :
    NotReading (conn.via action) := by
  rcases keeps.reads isOpen with ⟨reading, paused⟩ | ⟨paused, _⟩
  · exact ⟨reading.trans quiet.1, paused.trans quiet.2⟩
  · have unpaused := quiet.2
    rw [paused] at unpaused
    contradiction

theorem BodyFinished.via (finished : BodyFinished conn)
    (keeps : Keeps conn.toChannel (action conn.toChannel)) :
    BodyFinished (conn.via action) :=
  ⟨finished.1, keeps.bodyDone.trans finished.2⟩

theorem Tracks.via (tracks : Tracks conn control)
    (keeps : Keeps conn.toChannel (action conn.toChannel))
    (isOpen : (conn.via action).closed = false) :
    Tracks (conn.via action) control := by
  cases control with
  | idle =>
    obtain ⟨exclusive, bytes⟩ := tracks
    rcases keeps.reads isOpen with
      ⟨reading, paused⟩ | ⟨_, pending, resumed, _⟩
    · constructor
      · intro inFlight
        exact paused.trans (exclusive (reading.symm.trans inFlight))
      · rcases bytes with mode | ⟨finished, stopped⟩ | aligned
        · exact .inl mode
        · exact .inr (.inl ⟨finished.via keeps, reading.trans stopped⟩)
        · exact .inr (.inr aligned)
    · refine ⟨fun _ => resumed, ?_⟩
      rcases bytes with mode | ⟨finished, _⟩ | aligned
      · exact .inl mode
      · have done := finished.2
        rw [pending] at done
        contradiction
      · exact .inr (.inr aligned)
  | parsing offset =>
    obtain ⟨quiet, mode, aligned⟩ := tracks
    exact ⟨quiet.via keeps isOpen, mode, aligned⟩
  | answering offset =>
    obtain ⟨quiet, mode, aligned⟩ := tracks
    exact ⟨quiet.via keeps isOpen, mode, aligned⟩
  | framing offset =>
    obtain ⟨quiet, mode⟩ := tracks
    exact ⟨quiet.via keeps isOpen, mode⟩
  | leaving =>
    obtain ⟨quiet, bytes⟩ := tracks
    refine ⟨quiet.via keeps isOpen, ?_⟩
    rcases bytes with mode | finished | aligned
    · exact .inl mode
    · exact .inr (.inl (finished.via keeps))
    · exact .inr (.inr aligned)

section

variable (consumes : Consumes ⟨control, conn⟩)

include consumes

theorem Consumes.via (keeps : Keeps conn.toChannel (action conn.toChannel)) :
    Consumes ⟨control, conn.via action⟩ where
  within := consumes.within
  closing := by
    intro isOpen
    obtain ⟨deferred, posted⟩ := consumes.closing (keeps.wasOpen isOpen)
    obtain ⟨deferred', posted'⟩ := keeps.closing isOpen
    exact ⟨deferred'.trans deferred, posted'.trans posted⟩
  tracks := by
    intro isOpen
    exact (consumes.tracks (keeps.wasOpen isOpen)).via keeps isOpen

theorem Consumes.write (wireData : Bytes) :
    Consumes ⟨control, conn.via (.writeResponse · wireData)⟩ :=
  consumes.via (Channel.writeResponse_keeps _ _)

theorem Consumes.run (program : Program World) :
    Consumes ⟨control, conn.via (.run program)⟩ :=
  consumes.via (Channel.run_keeps _ _)

end

/-- Of a closed connection nothing is executed any more. -/
theorem consumes_of_closed
    (within : conn.history.executed <+: conn.history.received)
    (closed : conn.closed = true) : Consumes ⟨control, conn⟩ where
  within := within
  closing isOpen := by
    have isOpen' : conn.closed = false := isOpen
    rw [closed] at isOpen'
    contradiction
  tracks isOpen := by
    have isOpen' : conn.closed = false := isOpen
    rw [closed] at isOpen'
    contradiction

/-! ## The parse loop -/

variable (server : Server Handler World)

theorem activate_consumes (consumes : Consumes ⟨.answering offset, conn⟩) :
    Consumes (server.activate offset conn) := by
  unfold Server.activate
  split
  · split
    · refine consumes_of_closed consumes.within ?_
      exact Channel.close_closed _
    · rename_i invocation world _
      have moved : Consumes
          ⟨.answering offset, { conn with world := world }⟩ :=
        { consumes with }
      dsimp only
      generalize queued : (if invocation.queued = [] then
        { conn with world := world } else
        Http1Connection.via { conn with world := world }
          (.deliverBodyChunk · invocation.queued)) = conn'
      have delivered : Consumes ⟨.answering offset, conn'⟩ := by
        rw [← queued]
        split
        · exact moved
        · exact moved.via (Channel.deliverBodyChunk_keeps _ _)
      have begun : Consumes ⟨.answering offset,
          server.beginStreamingRequest invocation conn'⟩ := by
        apply Consumes.via _ (Channel.run_keeps _ _)
        exact
          { delivered with
            tracks := by
              intro isOpen
              obtain ⟨quiet, _, aligned⟩ := delivered.tracks isOpen
              exact ⟨quiet, by simp, aligned⟩ }
      split
      · rename_i closed
        exact consumes_of_closed begun.within closed
      · exact begun
    · exact consumes
  · exact consumes

/-- `Execute` is given what is pending and moves the offset behind what it
has consumed. -/
theorem Aligned.advance (aligned : Aligned conn offset) {consumed : Nat}
    (bound : consumed ≤ (conn.pendingData.drop offset).length) :
    offset + consumed ≤ conn.pendingData.length ∧ (conn.history.executed ++
          (conn.pendingData.drop offset).take consumed) ++
        conn.pendingData.drop (offset + consumed) =
      conn.history.received := by
  obtain ⟨inside, joined⟩ := aligned
  constructor
  · rw [List.length_drop] at bound
    omega
  · rw [List.append_assoc, ← List.drop_drop, List.take_append_drop, joined]

theorem parse_consumes (consumes : Consumes ⟨.parsing offset, conn⟩)
    (isOpen : conn.closed = false) :
    Consumes (server.parse offset conn) := by
  obtain ⟨_, mode, aligned⟩ := consumes.tracks isOpen
  generalize pending : conn.pendingData.drop offset = data
  have folded : Consumes ⟨.parsing offset, conn.via fun channel =>
      (conn.httpParser.callbacks data).foldl .onCallback channel⟩ :=
    consumes.via (Channel.foldl_onCallback_keeps _ _)
  have ran : Consumes ⟨.parsing offset, Server.executed conn data⟩ :=
    { folded with }
  unfold Server.parse
  rw [pending]
  dsimp only
  split
  · refine consumes_of_closed consumes.within ?_
    exact Channel.close_closed _
  · rename_i accepted
    have bound : (conn.httpParser.execute data).1.toNat ≤
        (conn.pendingData.drop offset).length := by
      rw [pending]
      rcases conn.httpParser.execute_consumed data with failed | ⟨_, least⟩
      · omega
      · omega
    have aligned' := aligned.advance bound
    rw [pending] at aligned'
    apply activate_consumes
    exact
      { within := ⟨_, aligned'.2⟩
        closing := ran.closing
        tracks := by
          intro isOpen'
          obtain ⟨quiet, _⟩ := ran.tracks isOpen'
          exact ⟨quiet, mode, aligned'⟩ }

section

variable (consumes : Consumes ⟨.answering offset, conn⟩)

include consumes

theorem eraseInside_consumes
    (inside : conn.closed = false → offset < conn.pendingData.length) :
    Consumes ⟨.leaving, conn.eraseInside offset⟩ := by
  unfold Http1Connection.eraseInside
  split
  · exact
      { consumes with
        tracks := by
          intro isOpen
          obtain ⟨quiet, _, aligned⟩ := consumes.tracks isOpen
          exact ⟨quiet, .inr (.inr aligned.erase)⟩ }
  · rename_i behind
    cases closed : conn.closed with
    | true => exact consumes_of_closed consumes.within closed
    | false => exact (behind (inside closed)).elim

theorem finish_consumes (request : HttpRequest) {response : HttpResponse}
    (erases : conn.closed = false → Server.upgrades response = true ∨
      request.keepAlive = true ∧ response.keepAlive = true) :
    Consumes (server.finish offset request response conn) := by
  unfold Server.finish
  dsimp only
  split
  · split
    · have wrote := consumes.write (HttpResponseWriter.serialize response)
      exact
        { wrote with
          tracks := by
            intro isOpen
            obtain ⟨quiet, _⟩ := wrote.tracks isOpen
            exact ⟨quiet, rfl⟩ }
    · refine consumes_of_closed consumes.within ?_
      exact Channel.close_closed _
  · rename_i stays
    have wrote := consumes.write (server.wireData request response)
    split
    · exact { wrote with }
    · rename_i ends
      cases closed : conn.closed with
      | true =>
        refine consumes_of_closed consumes.within ?_
        exact (Channel.writeResponse_keeps _ _).closed closed
      | false =>
        rcases erases closed with upgrade | ⟨request', response'⟩
        · exact (stays upgrade).elim
        · rw [request', response'] at ends
          exact (ends rfl).elim

theorem startStreaming_consumes (invocation : Invocation Handler) :
    Consumes ⟨.answering offset, server.startStreaming invocation conn⟩ := by
  have started : Consumes
      ⟨.answering offset, { conn with mode := .streaming }⟩ :=
    { consumes with
      tracks := by
        intro isOpen
        obtain ⟨quiet, _, aligned⟩ := consumes.tracks isOpen
        exact ⟨quiet, by simp, aligned⟩ }
  unfold Server.startStreaming
  split
  · apply Consumes.run
    exact { started with }
  · exact started.run _

theorem answer_consumes {request : HttpRequest}
    (erases : conn.closed = false → server.Erases offset request conn) :
    Consumes (server.answer offset request conn) := by
  unfold Server.answer
  unfold Server.Erases at erases
  have moved (world : World) : Consumes
      ⟨.answering offset, { conn with world := world }⟩ :=
    { consumes with }
  cases routed : Http.Http1.messageComplete server.shared request
      conn.world with
  | rejected response world =>
    rw [routed] at erases
    have wrote := (moved world).write
      (HttpResponseWriter.serialize response)
    apply eraseInside_consumes wrote
    intro isOpen
    have keeps := Channel.writeResponse_keeps
      { conn.toChannel with world := world }
      (HttpResponseWriter.serialize response)
    exact erases (keeps.wasOpen isOpen)
  | invoked invocation world =>
    rw [routed] at erases
    dsimp only at erases ⊢
    split
    · rename_i kind
      apply finish_consumes server { moved _ with }
      intro isOpen
      have erases' := erases isOpen
      rw [if_pos kind] at erases'
      exact erases'
    · rename_i kind
      apply eraseInside_consumes
        (startStreaming_consumes server (moved world) invocation)
      intro isOpen
      obtain ⟨keeps, sameData⟩ :=
        server.startStreaming_keeps invocation { conn with world := world }
      have erases' := erases (keeps.wasOpen isOpen)
      rw [if_neg kind, isOpen, or_iff_left Bool.false_ne_true] at erases'
      rw [sameData]
      exact erases'
  | notFound world =>
    rw [routed] at erases
    apply finish_consumes server (moved world)
    intro isOpen
    exact .inr ⟨erases isOpen, by decide⟩

theorem bodyDone_consumes (mode : conn.mode = .streamingRequest) :
    Consumes ⟨.leaving,
      { conn.via .deliverBodyDone with httpDelegate := .reset }⟩ := by
  cases closed : conn.closed with
  | true =>
    refine consumes_of_closed consumes.within ?_
    have unchanged : conn.toChannel.deliverBodyDone = conn.toChannel :=
      if_pos closed
    simp [Http1Connection.via, unchanged, closed]
  | false =>
    obtain ⟨quiet, _⟩ := consumes.tracks closed
    have finished : Consumes
        ⟨.leaving, { conn with srBodyDone := true }⟩ :=
      { consumes with
        tracks := fun _ => ⟨quiet, .inr (.inl ⟨mode, rfl⟩)⟩ }
    have keeps : Keeps { conn.toChannel with srBodyDone := true }
        { conn.toChannel.deliverBodyDone with httpDelegate := .reset } :=
      (Channel.deliverBodyDone_keeps closed).trans
        (.of_same rfl rfl rfl rfl rfl rfl)
    have delivered : Consumes ⟨.leaving,
        Http1Connection.via { conn with srBodyDone := true } fun _ =>
          { conn.toChannel.deliverBodyDone with httpDelegate := .reset }⟩ :=
      finished.via keeps
    exact delivered

theorem completeMessage_consumes
    (careful : server.Careful ⟨.answering offset, conn⟩ .advance) :
    Consumes (server.completeMessage offset conn) := by
  unfold Server.completeMessage
  split
  · exact { consumes with }
  · rename_i complete
    split
    · rename_i mode
      exact bodyDone_consumes consumes mode
    · rename_i mode
      have taken : Consumes ⟨.answering offset, conn.takeRequest⟩ :=
        { consumes with }
      apply answer_consumes server taken
      intro isOpen
      exact careful offset rfl isOpen (by simpa using complete) mode

end

theorem frame_consumes {handler : Handler}
    (consumes : Consumes ⟨.framing offset, conn⟩) :
    Consumes (server.frame handler offset conn) := by
  unfold Server.frame
  dsimp only
  generalize conn.wsParser.parse (conn.pendingData.drop offset) = parsed
  split
  · refine consumes_of_closed consumes.within ?_
    exact Channel.close_closed _
  · split
    · split
      · refine consumes_of_closed consumes.within ?_
        exact Channel.close_closed _
      · have received : Consumes ⟨.framing offset,
            conn.via (server.receive handler parsed.2.frame)⟩ :=
          consumes.via (server.receive_keeps handler _ _)
        exact { received with }
    · exact { consumes with }

theorem erase_consumes (consumes : Consumes ⟨control, conn⟩)
    (aligned : conn.closed = false → NotReading conn ∧
      (conn.mode = .webSocket ∨ Aligned conn offset)) :
    Consumes ⟨.leaving, conn.erase offset⟩ :=
  { consumes with
    tracks := by
      intro isOpen
      obtain ⟨quiet, mode | aligned⟩ := aligned isOpen
      · exact ⟨quiet, .inl mode⟩
      · exact ⟨quiet, .inr (.inr aligned.erase)⟩ }

theorem afterRead_consumes (consumes : Consumes ⟨.leaving, conn⟩) :
    Consumes ⟨.idle, conn.afterRead⟩ := by
  unfold Http1Connection.afterRead
  dsimp only
  split
  · rename_i reads
    obtain ⟨isOpen, unfinished⟩ := reads
    have isOpen' : conn.closed = false := by simpa using isOpen
    obtain ⟨quiet, bytes⟩ := consumes.tracks isOpen'
    have bytes' : conn.mode = .webSocket ∨ Aligned conn 0 := by
      rcases bytes with mode | finished | aligned
      · exact .inl mode
      · exact (unfinished finished).elim
      · exact .inr aligned
    split
    · exact
        { consumes with
          tracks := by
            intro _
            refine ⟨?_, bytes'.imp_right .inr⟩
            intro reading
            rw [quiet.1] at reading
            contradiction }
    · obtain ⟨reading, started⟩ := conn.toChannel.startRead_eq
      rw [Http1Connection.via, started]
      exact
        { consumes with
          tracks := fun _ => ⟨fun _ => quiet.2, bytes'.imp_right .inr⟩ }
  · rename_i stops
    exact
      { consumes with
        tracks := by
          intro isOpen
          obtain ⟨quiet, bytes⟩ := consumes.tracks isOpen
          refine ⟨fun _ => quiet.2, ?_⟩
          rcases bytes with mode | finished | aligned
          · exact .inl mode
          · exact .inr (.inl ⟨finished, quiet.1⟩)
          · exact .inr (.inr aligned) }

theorem next_consumes {state state' : Running llhttp Handler World}
    (consumes : Consumes state) (careful : server.Careful state .advance)
    (stepped : server.next state = some state') : Consumes state' := by
  obtain ⟨control, conn⟩ := state
  cases control with
  | idle => contradiction
  | parsing offset =>
    simp only [Server.next] at stepped
    split at stepped
    · rename_i goes
      cases stepped
      exact parse_consumes server consumes (by simpa using goes.2)
    · cases stepped
      apply erase_consumes consumes
      intro isOpen
      obtain ⟨quiet, _, aligned⟩ := consumes.tracks isOpen
      exact ⟨quiet, .inr aligned⟩
  | answering offset =>
    cases stepped
    exact completeMessage_consumes server consumes careful
  | framing offset =>
    have left : Consumes ⟨.leaving, conn.erase offset⟩ := by
      apply erase_consumes consumes
      intro isOpen
      obtain ⟨quiet, mode⟩ := consumes.tracks isOpen
      exact ⟨quiet, .inl mode⟩
    simp only [Server.next] at stepped
    split at stepped
    · split at stepped
      · cases stepped
        exact frame_consumes server consumes
      · cases stepped
        exact left
    · cases stepped
      exact left
  | leaving =>
    cases stepped
    exact afterRead_consumes consumes

/-! ## The other actions -/

theorem onRead_consumes (consumes : Consumes ⟨.idle, conn⟩)
    (reading : conn.readInFlight = true) (result : Option Bytes) :
    Consumes (Server.onRead conn result) := by
  unfold Server.onRead
  generalize result.getD [] = data
  have within : conn.history.executed <+: conn.history.received ++ data :=
    consumes.within.trans (List.prefix_append _ _)
  dsimp only
  split
  · rename_i closed
    split
    · split
      · refine consumes_of_closed within ?_
        exact (Channel.finalTeardown_closed _).trans closed
      · refine consumes_of_closed within ?_
        exact (Channel.startRead_closed _).trans closed
    · exact consumes_of_closed within closed
  · rename_i notClosed
    have isOpen : conn.closed = false := by simpa using notClosed
    split
    · refine consumes_of_closed within ?_
      exact Channel.close_closed _
    · obtain ⟨exclusive, bytes⟩ := consumes.tracks isOpen
      have quiet := exclusive reading
      split
      · rename_i mode
        exact
          { within := within
            closing := consumes.closing
            tracks := fun _ => ⟨⟨rfl, quiet⟩, mode⟩ }
      · rename_i mode
        have aligned : Aligned conn 0 := by
          rcases bytes with mode' | ⟨_, stopped⟩ | aligned
          · exact (mode mode').elim
          · rw [reading] at stopped
            contradiction
          · exact aligned
        have joined : conn.history.executed ++ (conn.pendingData ++ data) =
            conn.history.received ++ data := by
          rw [← List.append_assoc]
          exact congrArg (· ++ data) aligned.2
        exact
          { within := within
            closing := consumes.closing
            tracks := fun _ =>
              ⟨⟨rfl, quiet⟩, mode, Nat.zero_le _, joined⟩ }

theorem onWritten_consumes (consumes : Consumes ⟨.idle, conn⟩) {success : Bool}
    (careful : server.Careful ⟨.idle, conn⟩ (.written success)) :
    Consumes ⟨.idle, conn.via (.onWritten · success)⟩ := by
  cases closed : conn.closed with
  | true =>
    refine consumes_of_closed consumes.within ?_
    exact (Channel.onWritten_closed _ _).trans closed
  | false =>
    obtain ⟨exclusive, bytes⟩ := consumes.tracks closed
    obtain ⟨deferred, posted⟩ := consumes.closing closed
    cases success with
    | true =>
      obtain ⟨_, _, _, wrote⟩ := Channel.onWritten_true_eq deferred
      rw [Http1Connection.via, wrote]
      exact { consumes with }
    | false =>
      obtain ⟨_, reading, _, kept, failed⟩ :=
        Channel.onWritten_false_eq conn.toChannel
      rw [Http1Connection.via, failed]
      refine ⟨consumes.within, fun _ => ⟨rfl, posted⟩, fun _ => ?_⟩
      cases secure : conn.tls with
      | true =>
        -- The drain read is started though the connection is open.
        obtain ⟨resumed, unfinished⟩ := careful closed secure
        refine ⟨fun _ => resumed, ?_⟩
        rcases bytes with mode | ⟨finished, _⟩ | aligned
        · exact .inl mode
        · exact (unfinished finished).elim
        · exact .inr (.inr aligned)
      | false =>
        rw [kept secure]
        exact ⟨exclusive, bytes⟩

theorem step_consumes {state state' : Running llhttp Handler World}
    {action : Action World} (consumes : Consumes state)
    (careful : server.Careful state action)
    (step : Step server state action state') : Consumes state' := by
  cases step with
  | advance stepped => exact next_consumes server consumes careful stepped
  | read result reading => exact onRead_consumes consumes reading result
  | written success => exact onWritten_consumes server consumes careful
  | call program => exact consumes.run program
  | close => exact consumes.via (Channel.close_keeps _)
  | closeElsewhere =>
    exact consumes.via (Channel.closeElsewhere_keeps _)
  | @closePosted conn posted =>
    have closed : conn.closed = true := by
      by_contra notClosed
      have isOpen : conn.closed = false := by simpa using notClosed
      have unposted := (consumes.closing isOpen).2
      rw [posted] at unposted
      contradiction
    refine consumes_of_closed consumes.within ?_
    exact (Channel.doClose_closed _).trans closed
  | @watchdog conn =>
    obtain ⟨_, _, torn⟩ := Channel.finalTeardown_eq conn.toChannel
    rw [Http1Connection.via, torn]
    exact { consumes with }

end

/-- In every run whose answers erase the requests that they answer, and in
which no write fails on a TLS connection that has stopped reading a body, the
bytes executed are at any time the first of the bytes received. -/
theorem executed_within_received (server : Server Handler World)
    {state : Running llhttp Handler World}
    (reachable : (runs llhttp server server.Careful).Reachable state) :
    state.conn.history.executed <+: state.conn.history.received := by
  have consumes : Consumes state := by
    apply reachable.invariant
    · rintro _ ⟨tls, world, rfl⟩
      exact
        { within := List.prefix_rfl
          closing := fun _ => ⟨rfl, rfl⟩
          tracks := fun _ =>
            ⟨fun _ => rfl, .inr (.inr ⟨Nat.le_refl 0, rfl⟩)⟩ }
    · rintro state state' consumes ⟨action, careful, step⟩
      exact step_consumes server consumes careful step
  exact consumes.within

/-- `OnRead` for one keep-alive request. -/
def readGet : Running (repeating plainGet) Unit Unit :=
  Server.onRead (.accepted _ _ false ()) (some plainGet.bytes)

theorem readGet_reachable {server : Server Unit Unit}
    {condition : Running (repeating plainGet) Unit Unit → Action Unit → Prop}
    (allowed : condition ⟨.idle, .accepted _ _ false ()⟩
      (.read (some plainGet.bytes))) :
    (runs (repeating plainGet) server condition).Reachable readGet :=
  .next (.start ⟨false, (), rfl⟩) ⟨_, allowed, .read _ rfl (by decide)⟩

/-- The next request on the same connection. -/
def readGetAgain : Running (repeating plainGet) Unit Unit :=
  Server.onRead (simpleServer.advance readGet 5).conn (some plainGet.bytes)

theorem readGet_careful (again : Bool) :
    ∀ earlier < 5, simpleServer.Careful (simpleServer.advance
      (if again then readGetAgain else readGet) earlier) .advance := by
  intro earlier small offset answering _ _ _
  match again, earlier with
  | false, 0 | false, 2 | false, 3 | false, 4
  | true, 0 | true, 2 | true, 3 | true, 4 => cases answering
  | false, 1 | true, 1 =>
    -- The simple handler answers, and both sides keep the connection.
    cases answering
    exact .inr ⟨by decide +kernel, by decide +kernel⟩

theorem readGetAgain_within :
    (simpleServer.advance readGetAgain 5).conn.history.received =
      plainGet.bytes ++ plainGet.bytes ∧
    (simpleServer.advance readGetAgain 5).conn.history.executed <+:
      (simpleServer.advance readGetAgain 5).conn.history.received := by
  have first := reachable_advance (readGet_reachable trivial)
    (readGet_careful false)
  have again := Lib.System.Reachable.next first
    ⟨.read (some plainGet.bytes), trivial, .read _ rfl (by decide +kernel)⟩
  exact ⟨by decide +kernel, executed_within_received simpleServer
    (reachable_advance again (readGet_careful true))⟩

/-- A filter rejects every request; the connection is kept. -/
def rejectingServer : Server Unit Unit :=
  { simpleServer with
    shared := { simpleServer.shared with
      filters := [fun request response world =>
        (false, request, response, world)] } }

/-- The request was rejected; it was executed to its last byte. -/
def rejectedGet : Running (repeating plainGet) Unit Unit :=
  rejectingServer.advance readGet 4

/-- The client sends the request once more. -/
def rejectedGetAgain : Running (repeating plainGet) Unit Unit :=
  rejectingServer.advance
    (Server.onRead rejectedGet.conn (some plainGet.bytes)) 1

/-- The first request is executed again with the second. -/
theorem rejectedGetAgain_not_within :
    (runs (repeating plainGet) rejectingServer fun _ _ => True).Reachable
        rejectedGetAgain ∧
      ¬rejectedGetAgain.conn.history.executed <+:
        rejectedGetAgain.conn.history.received := by
  have rejected : (runs (repeating plainGet) rejectingServer
      fun _ _ => True).Reachable rejectedGet :=
    reachable_advance (readGet_reachable trivial) fun _ _ => trivial
  have idle : rejectedGet = ⟨.idle, rejectedGet.conn⟩ := rfl
  constructor
  · refine reachable_advance (rejected.next ?_) fun _ _ => trivial
    rw [idle]
    exact ⟨_, trivial, .read _ rfl (by decide)⟩
  · decide +kernel

end Libnei.Http1

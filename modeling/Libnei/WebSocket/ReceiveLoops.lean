import Libnei.Http1.Handlers
import Libnei.WebSocket.Client
import Libnei.WebSocket.ReadBoundaries

/-!
# When the receive loops end

`ProcessWebSocketData` of the server and `ProcessFrames` of the client call
`Parse` for as long as bytes are pending.  `Parse` leaves the bytes of an
incomplete header, length or masking key where they are, so that the loops
call it on them again and again; they end only if nothing is left over or
something stops them before.
-/

namespace Libnei.WebSocket

open Libnei.Lib WebSocketFrameParser

/-! ## What `Parse` finds in a buffer -/

/-- The frames that end in a buffer. -/
def framesIn (parser : WebSocketFrameParser) (data : Bytes) :
    List WebSocketFrame :=
  (Receiver.drain ⟨parser, data, []⟩).frames

/-- The bytes behind them that wait for the rest of a header, of a length or
of a masking key. -/
def leftOver (parser : WebSocketFrameParser) (data : Bytes) : Bytes :=
  (Receiver.drain ⟨parser, data, []⟩).buffer

variable {parser final : WebSocketFrameParser} {data left : Bytes}
  {frames : List WebSocketFrame}

theorem drains_framesIn (data : Bytes) (state : parser.state ≠ .error) :
    frameReader.Drains parser data (framesIn parser data)
      (Receiver.drain ⟨parser, data, []⟩).parser (leftOver parser data) := by
  obtain ⟨_, frames, handed, drains⟩ :=
    Receiver.drain_drains ⟨parser, data, []⟩ state
  rw [List.nil_append] at handed
  rw [framesIn, handed]
  exact drains

theorem reset_state_ne_error : reset.state ≠ .error := by
  simp [reset]

section

variable (state : parser.state ≠ .error)

include state

/-- A call of `Parse` completes the first frame or stops where the reader
does. -/
theorem parse_of_drains
    (drains : frameReader.Drains parser data frames final left) :
    ∃ (consumed : Nat) (parser' : WebSocketFrameParser),
      parser.parse data = (↑consumed, parser') ∧
      (parser'.isFrameComplete = true ∧
          (∃ later, frames = parser'.frame :: later ∧
            frameReader.Drains reset (data.drop consumed) later final
              left) ∨
        parser'.isFrameComplete = false ∧ frames = [] ∧
          final = parser' ∧ left = data.drop consumed) := by
  obtain ⟨front, rest, parser', spec, parsed⟩ := parse_spec parser data state
  have dropped : data.drop front.length = rest := by
    rw [spec.splits, List.drop_left]
  refine ⟨front.length, parser', parsed, ?_⟩
  rw [dropped]
  cases finished : parser'.isFrameComplete with
  | true =>
    have behind := drains_framesIn rest reset_state_ne_error
    obtain ⟨sameFrames, sameParser, sameLeft⟩ :=
      drains.functional (spec.of_complete finished behind)
    refine .inl ⟨rfl, framesIn reset rest, sameFrames, ?_⟩
    rw [sameParser, sameLeft]
    exact behind
  | false =>
    obtain ⟨sameFrames, sameParser, sameLeft⟩ :=
      drains.functional (spec.of_incomplete finished)
    exact .inr ⟨rfl, sameFrames, sameParser, sameLeft⟩

/-- Where the reader needs more input, `Parse` does nothing. -/
theorem parse_of_stuck (stuck : frameReader.step parser left = none) :
    parser.parse left = (0, parser) := by
  obtain ⟨front, rest, parser', spec, parsed⟩ := parse_spec parser left state
  cases finished : parser'.isFrameComplete with
  | true =>
    have behind := drains_framesIn rest reset_state_ne_error
    obtain ⟨none, _⟩ :=
      Consumer.Drains.of_step_none stuck (spec.of_complete finished behind)
    exact (List.cons_ne_nil _ _ none).elim
  | false =>
    obtain ⟨_, rfl, rfl⟩ :=
      Consumer.Drains.of_step_none stuck (spec.of_incomplete finished)
    have nothing : front = [] := by simpa using spec.splits
    rw [parsed, nothing]
    rfl

theorem leftOver_nil (drains : frameReader.Drains parser [] frames final left) :
    left = [] := by
  induction frames generalizing parser with
  | nil =>
    obtain ⟨_, _, _, ⟨_, _, impossible, _⟩ | ⟨_, _, _, rest⟩⟩ :=
      parse_of_drains state drains
    · contradiction
    · rw [rest, List.drop_nil]
  | cons frame frames ih =>
    obtain ⟨_, _, _, ⟨_, later, same, behind⟩ | ⟨_, impossible, _⟩⟩ :=
      parse_of_drains state drains
    · cases same
      rw [List.drop_nil] at behind
      exact ih reset_state_ne_error behind
    · contradiction

theorem state_ne_error_of_drains
    (drains : frameReader.Drains parser data frames final left) :
    final.state ≠ .error := by
  obtain ⟨kept, _, _, drains'⟩ :=
    Receiver.drain_drains ⟨parser, data, []⟩ state
  obtain ⟨_, same, _⟩ := drains'.functional drains
  rw [← same]
  exact kept

end

/-! ## A receive loop -/

/-- A loop that calls `Parse` on what is pending and hands on the frames, as
part of a machine.  `head` says that the machine is at the head of the loop,
with which parser, which bytes and which owner; `goesOn` is the rest of the
loop's condition. -/
structure ReceiveLoop {σ : Type} (next : σ → Option σ) (Owner : Type) where
  head : σ → WebSocketFrameParser → Bytes → Owner → Prop
  goesOn : Owner → Prop
  receive : Owner → WebSocketFrame → Owner
  goesOn_of_receive : ∀ {owner frame}, goesOn (receive owner frame) →
    goesOn owner
  exit : ∀ {state parser data owner}, head state parser data owner →
    ¬(data ≠ [] ∧ goesOn owner) → Terminates next state
  close : ∀ {state parser parser' data owner} {consumed : Nat},
    head state parser data owner → data ≠ [] → goesOn owner →
    parser.parse data = (↑consumed, parser') →
    parser'.isFrameComplete = true → parser'.frame.opcode = .close →
    Terminates next state
  frame : ∀ {state parser parser' data owner} {consumed : Nat},
    head state parser data owner → data ≠ [] → goesOn owner →
    parser.parse data = (↑consumed, parser') →
    parser'.isFrameComplete = true → parser'.frame.opcode ≠ .close →
    ∃ state', next state = some state' ∧
      head state' reset (data.drop consumed) (receive owner parser'.frame)
  wait : ∀ {state parser parser' data owner} {consumed : Nat},
    head state parser data owner → data ≠ [] → goesOn owner →
    parser.parse data = (↑consumed, parser') →
    parser'.isFrameComplete = false →
    ∃ state', next state = some state' ∧
      head state' parser' (data.drop consumed) owner
  spin : ∀ {state parser data owner}, head state parser data owner →
    data ≠ [] → goesOn owner → parser.parse data = (0, parser) →
    parser.isFrameComplete = false → next state = some state

namespace ReceiveLoop

variable {σ Owner : Type} {next : σ → Option σ}
  (loop : ReceiveLoop next Owner) {state : σ} {owner : Owner}

theorem goesOn_of_foldl (goes : loop.goesOn (frames.foldl loop.receive owner)) :
    loop.goesOn owner := by
  induction frames generalizing owner with
  | nil => exact goes
  | cons frame frames ih =>
    exact loop.goesOn_of_receive (ih goes)

variable (here : loop.head state parser data owner)

include here

theorem terminates_iff_of_stuck (goes : loop.goesOn owner)
    (noError : parser.state ≠ .error)
    (unfinished : parser.isFrameComplete = false)
    (stuck : frameReader.step parser data = none) :
    Terminates next state ↔ data = [] := by
  constructor
  · intro terminates
    by_contra pending
    have again := loop.spin here pending goes (parse_of_stuck noError stuck)
      unfinished
    exact not_terminates_of_fixed again terminates
  · intro empty
    apply loop.exit here
    rintro ⟨pending, _⟩
    exact pending empty

theorem terminates_iff_of_exit (noError : parser.state ≠ .error)
    (drains : frameReader.Drains parser data frames final left)
    (exits : ¬(data ≠ [] ∧ loop.goesOn owner)) :
    Terminates next state ↔
      left = [] ∨ (∃ frame ∈ frames, frame.opcode = .close) ∨
        ¬loop.goesOn (frames.foldl loop.receive owner) := by
  refine iff_of_true (loop.exit here exits) ?_
  by_cases goes : loop.goesOn owner
  · have empty : data = [] := by
      by_contra pending
      exact exits ⟨pending, goes⟩
    rw [empty] at drains
    exact .inl (leftOver_nil noError drains)
  · refine .inr (.inr ?_)
    intro later
    exact goes (loop.goesOn_of_foldl later)

/-- The loop ends if nothing is left over, at a close frame, or when its
owner stops it; otherwise it never does. -/
theorem terminates_iff (noError : parser.state ≠ .error)
    (drains : frameReader.Drains parser data frames final left) :
    Terminates next state ↔
      left = [] ∨ (∃ frame ∈ frames, frame.opcode = .close) ∨
        ¬loop.goesOn (frames.foldl loop.receive owner) := by
  induction frames generalizing state parser data owner with
  | nil =>
    by_cases exits : ¬(data ≠ [] ∧ loop.goesOn owner)
    · exact loop.terminates_iff_of_exit here noError drains exits
    obtain ⟨pending, goes⟩ := not_not.mp exits
    obtain ⟨consumed, parser', parsed,
        ⟨_, _, impossible, _⟩ | ⟨unfinished, _, rfl, rfl⟩⟩ :=
      parse_of_drains noError drains
    · contradiction
    · obtain ⟨state', stepped, here'⟩ :=
        loop.wait here pending goes parsed unfinished
      rw [terminates_of_step stepped, loop.terminates_iff_of_stuck here' goes
          (state_ne_error_of_drains noError drains) unfinished drains.stuck]
      simp [goes]
  | cons frame frames ih =>
    by_cases exits : ¬(data ≠ [] ∧ loop.goesOn owner)
    · exact loop.terminates_iff_of_exit here noError drains exits
    obtain ⟨pending, goes⟩ := not_not.mp exits
    obtain ⟨consumed, parser', parsed,
        ⟨finished, later, same, behind⟩ | ⟨_, impossible, _⟩⟩ :=
      parse_of_drains noError drains
    · cases same
      by_cases closes : parser'.frame.opcode = .close
      · refine iff_of_true ?_ (.inr (.inl ?_))
        · exact loop.close here pending goes parsed finished closes
        · exact ⟨parser'.frame, List.mem_cons_self, closes⟩
      · obtain ⟨state', stepped, here'⟩ :=
          loop.frame here pending goes parsed finished closes
        rw [terminates_of_step stepped, ih here' reset_state_ne_error behind]
        simp only [List.exists_mem_cons_iff, closes, false_or, List.foldl_cons]
    · contradiction

end ReceiveLoop

/-! ## The server -/

section Server

open Libnei.Http1

variable {llhttp : Llhttp} {Handler World : Type}
  (server : Server Handler World)
  {conn : Http1Connection llhttp Handler World} {handler : Handler}
  {consumed offset : Nat}

theorem terminates_leaving (conn : Http1Connection llhttp Handler World) :
    Terminates server.next ⟨.leaving, conn⟩ :=
  ⟨_, .step rfl (.halt rfl)⟩

/-- The head of the loop of `ProcessWebSocketData`. -/
structure ServerHead (handler : Handler) (state : Running llhttp Handler World)
    (parser : WebSocketFrameParser) (data : Bytes)
    (channel : Channel World) : Prop where
  atHead : ∃ offset, state.control = .framing offset ∧
    state.conn.pendingData.drop offset = data
  handled : state.conn.wsHandler = some handler
  sameParser : state.conn.wsParser = parser
  sameChannel : state.conn.toChannel = channel

theorem next_framing (handled : conn.wsHandler = some handler)
    (pending : conn.pendingData.drop offset ≠ [])
    (isOpen : conn.closed = false) :
    server.next ⟨.framing offset, conn⟩ =
      some (server.frame handler offset conn) := by
  have inside : offset < conn.pendingData.length := by
    simpa [List.drop_eq_nil_iff] using pending
  simp [Server.next, handled, inside, isOpen]

theorem framing_terminates_of_exit (handled : conn.wsHandler = some handler)
    (exits : ¬(conn.pendingData.drop offset ≠ [] ∧ conn.closed = false)) :
    Terminates server.next ⟨.framing offset, conn⟩ := by
  have leaves : server.next ⟨.framing offset, conn⟩ =
      some ⟨.leaving, conn.erase offset⟩ := by
    simp only [Server.next, handled]
    rw [if_neg]
    simpa [List.drop_eq_nil_iff] using exits
  exact (terminates_of_step leaves).mpr (terminates_leaving server _)

theorem frame_of_parse (handler : Handler)
    (parsed : conn.wsParser.parse (conn.pendingData.drop offset) =
      (↑consumed, parser)) :
    server.frame handler offset conn =
      if parser.isFrameComplete then
        if parser.frame.opcode = .close then
          ⟨.leaving, { conn with wsParser := parser }.via fun channel =>
            (channel.writeRaw (WebSocketFrameBuilder.buildClose 1000 [])).close⟩
        else
          ⟨.framing (offset + consumed),
            { conn.via (server.receive handler parser.frame) with
              wsParser := reset }⟩
      else
        ⟨.framing (offset + consumed), { conn with wsParser := parser }⟩ := by
  unfold Server.frame
  have accepted : ¬(↑consumed : Int) < 0 := by omega
  simp only [parsed, accepted, if_false, Int.toNat_natCast]
  rfl

/-- The loop of `ProcessWebSocketData`. -/
def serverLoop (handler : Handler) :
    ReceiveLoop (server.next : Running llhttp Handler World → _)
      (Channel World) where
  head := ServerHead handler
  goesOn channel := channel.closed = false
  receive channel frame := server.receive handler frame channel
  goesOn_of_receive := by
    intro channel frame isOpen
    exact (server.receive_keeps handler frame channel).wasOpen isOpen
  exit := by
    rintro ⟨_, conn⟩ _ _ _ ⟨⟨offset, rfl, rfl⟩, handled, rfl, rfl⟩ exits
    exact framing_terminates_of_exit server handled exits
  close := by
    rintro ⟨_, conn⟩ _ parser _ _ _ ⟨⟨offset, rfl, rfl⟩, handled, rfl, rfl⟩
      pending isOpen parsed finished closes
    have turned := next_framing server handled pending isOpen
    rw [frame_of_parse server handler parsed, if_pos finished,
      if_pos closes] at turned
    exact (terminates_of_step turned).mpr (terminates_leaving server _)
  frame := by
    rintro ⟨_, conn⟩ _ parser _ _ consumed
      ⟨⟨offset, rfl, rfl⟩, handled, rfl, rfl⟩ pending isOpen parsed finished
      closes
    have turned := next_framing server handled pending isOpen
    rw [frame_of_parse server handler parsed, if_pos finished,
      if_neg closes] at turned
    refine ⟨_, turned, ⟨offset + consumed, rfl, ?_⟩, handled, rfl, rfl⟩
    rw [List.drop_drop]
    rfl
  wait := by
    rintro ⟨_, conn⟩ _ parser _ _ consumed
      ⟨⟨offset, rfl, rfl⟩, handled, rfl, rfl⟩ pending isOpen parsed unfinished
    have turned := next_framing server handled pending isOpen
    rw [frame_of_parse server handler parsed, unfinished,
      if_neg Bool.false_ne_true] at turned
    refine ⟨_, turned, ⟨offset + consumed, rfl, ?_⟩, handled, rfl, rfl⟩
    rw [List.drop_drop]
  spin := by
    rintro ⟨_, conn⟩ _ _ _ ⟨⟨offset, rfl, rfl⟩, handled, rfl, rfl⟩ pending
      isOpen parsed unfinished
    have turned := next_framing server handled pending isOpen
    have parsed' : conn.wsParser.parse (conn.pendingData.drop offset) =
        (↑(0 : Nat), conn.wsParser) := parsed
    rw [frame_of_parse server handler parsed', unfinished] at turned
    exact turned

/-- What stops the loop of the server before it comes to the bytes left over:
there is no handler, a close frame, or a handler that closes. -/
def StopsServer (conn : Http1Connection llhttp Handler World) : Prop :=
  match conn.wsHandler with
  | none => True
  | some handler =>
      let frames := framesIn conn.wsParser conn.pendingData
      let served := frames.foldl
        (fun channel frame => server.receive handler frame channel)
        conn.toChannel
      (∃ frame ∈ frames, frame.opcode = .close) ∨ ¬served.closed = false

theorem framing_terminates_of_error (handled : conn.wsHandler = some handler)
    (failed : conn.wsParser.state = .error) :
    Terminates server.next ⟨.framing 0, conn⟩ := by
  by_cases exits : ¬(conn.pendingData.drop 0 ≠ [] ∧ conn.closed = false)
  · exact framing_terminates_of_exit server handled exits
  · obtain ⟨pending, isOpen⟩ := not_not.mp exits
    rw [terminates_of_step (next_framing server handled pending isOpen)]
    simp only [Server.frame, parse, failed]
    exact terminates_leaving server _

theorem processWebSocketData_terminates_iff
    (conn : Http1Connection llhttp Handler World) :
    Terminates server.next ⟨.framing 0, conn⟩ ↔ conn.wsParser.state = .error ∨
        leftOver conn.wsParser conn.pendingData = [] ∨
        StopsServer server conn := by
  unfold StopsServer
  cases handled : conn.wsHandler with
  | none =>
    have leaves : server.next ⟨.framing 0, conn⟩ =
        some ⟨.leaving, conn.erase 0⟩ := by
      simp [Server.next, handled]
    rw [terminates_of_step leaves]
    exact iff_of_true (terminates_leaving server _) (.inr (.inr trivial))
  | some handler =>
    by_cases failed : conn.wsParser.state = .error
    · exact iff_of_true
        (framing_terminates_of_error server handled failed) (.inl failed)
    · have here : ServerHead handler ⟨.framing 0, conn⟩ conn.wsParser
          conn.pendingData conn.toChannel :=
        ⟨⟨0, rfl, rfl⟩, handled, rfl, rfl⟩
      rw [(serverLoop server handler).terminates_iff here failed
        (drains_framesIn conn.pendingData failed), or_iff_right failed]
      rfl

end Server

/-! ## The client -/

section Client

variable {World : Type} {client : WebSocketClient World}
  {consumed offset : Nat}

theorem terminates_done (client : WebSocketClient World) :
    Terminates WebSocketClient.next ⟨none, client⟩ :=
  ⟨_, .halt rfl⟩

/-- The head of the loop of `ProcessFrames`. -/
structure ClientHead (state : WebSocketClient.Processing World)
    (parser : WebSocketFrameParser) (data : Bytes)
    (channel : ClientChannel World) : Prop where
  atHead : ∃ offset, state.offset = some offset ∧
    state.client.pendingData.drop offset = data
  sameParser : state.client.frameParser = parser
  sameChannel : state.client.toClientChannel = channel

theorem next_processing (pending : client.pendingData.drop offset ≠ []) :
    WebSocketClient.next ⟨some offset, client⟩ =
      some (client.processFrame offset) := by
  have inside : offset < client.pendingData.length := by
    simpa [List.drop_eq_nil_iff] using pending
  simp [WebSocketClient.next, inside]

theorem processing_terminates_of_exit
    (empty : client.pendingData.drop offset = []) :
    Terminates WebSocketClient.next ⟨some offset, client⟩ := by
  rw [List.drop_eq_nil_iff] at empty
  have leaves : WebSocketClient.next ⟨some offset, client⟩ =
      some ⟨none, { client with
        pendingData := client.pendingData.drop offset
        }.via .startFrameRead⟩ := by
    simp [WebSocketClient.next, empty]
  exact (terminates_of_step leaves).mpr (terminates_done _)

theorem processFrame_of_parse
    (parsed : client.frameParser.parse (client.pendingData.drop offset) =
      (↑consumed, parser)) :
    client.processFrame offset =
      if parser.isFrameComplete then
        if parser.frame.opcode = .close then
          ⟨none, { client with frameParser := parser }.via
            (.receiveClose · parser.frame)⟩
        else
          ⟨some (offset + consumed),
            { client.via (.receive · parser.frame) with
              frameParser := reset }⟩
      else
        ⟨some (offset + consumed), { client with frameParser := parser }⟩ := by
  unfold WebSocketClient.processFrame
  have accepted : ¬(↑consumed : Int) < 0 := by omega
  simp only [parsed, accepted, if_false, Int.toNat_natCast]
  rfl

/-- The loop of `ProcessFrames`, which does not ask whether the client was
closed. -/
def clientLoop :
    ReceiveLoop (WebSocketClient.next : WebSocketClient.Processing World → _)
      (ClientChannel World) where
  head := ClientHead
  goesOn _ := True
  receive := .receive
  goesOn_of_receive _ := trivial
  exit := by
    rintro ⟨_, client⟩ _ _ _ ⟨⟨offset, rfl, rfl⟩, rfl, rfl⟩ exits
    apply processing_terminates_of_exit
    by_contra pending
    exact exits ⟨pending, trivial⟩
  close := by
    rintro ⟨_, client⟩ _ parser _ _ _ ⟨⟨offset, rfl, rfl⟩, rfl, rfl⟩ pending
      _ parsed finished closes
    have turned := next_processing pending
    rw [processFrame_of_parse parsed, if_pos finished, if_pos closes]
      at turned
    exact (terminates_of_step turned).mpr (terminates_done _)
  frame := by
    rintro ⟨_, client⟩ _ parser _ _ consumed ⟨⟨offset, rfl, rfl⟩, rfl, rfl⟩
      pending _ parsed finished closes
    have turned := next_processing pending
    rw [processFrame_of_parse parsed, if_pos finished, if_neg closes]
      at turned
    refine ⟨_, turned, ⟨offset + consumed, rfl, ?_⟩, rfl, rfl⟩
    rw [List.drop_drop]
    rfl
  wait := by
    rintro ⟨_, client⟩ _ parser _ _ consumed ⟨⟨offset, rfl, rfl⟩, rfl, rfl⟩
      pending _ parsed unfinished
    have turned := next_processing pending
    rw [processFrame_of_parse parsed, unfinished,
      if_neg Bool.false_ne_true] at turned
    refine ⟨_, turned, ⟨offset + consumed, rfl, ?_⟩, rfl, rfl⟩
    rw [List.drop_drop]
  spin := by
    rintro ⟨_, client⟩ _ _ _ ⟨⟨offset, rfl, rfl⟩, rfl, rfl⟩ pending _ parsed
      unfinished
    have turned := next_processing pending
    have parsed' : client.frameParser.parse
        (client.pendingData.drop offset) =
          (↑(0 : Nat), client.frameParser) := parsed
    rw [processFrame_of_parse parsed', unfinished] at turned
    exact turned

theorem processing_terminates_of_error
    (failed : client.frameParser.state = .error) :
    Terminates WebSocketClient.next ⟨some 0, client⟩ := by
  by_cases empty : client.pendingData.drop 0 = []
  · exact processing_terminates_of_exit empty
  · rw [terminates_of_step (next_processing empty)]
    simp only [WebSocketClient.processFrame, parse, failed]
    exact terminates_done _

theorem processFrames_terminates_iff (client : WebSocketClient World) :
    Terminates WebSocketClient.next client.processFrames ↔
      client.frameParser.state = .error ∨
        leftOver client.frameParser client.pendingData = [] ∨
        ∃ frame ∈ framesIn client.frameParser client.pendingData,
          frame.opcode = .close := by
  have entered : Terminates WebSocketClient.next client.processFrames ↔
      Terminates WebSocketClient.next ⟨some 0, client⟩ := by
    unfold WebSocketClient.processFrames
    split
    · rename_i empty
      refine iff_of_true (terminates_done _) ?_
      exact processing_terminates_of_exit empty
    · rfl
  rw [entered]
  by_cases failed : client.frameParser.state = .error
  · exact iff_of_true (processing_terminates_of_error failed) (.inl failed)
  · have here : ClientHead ⟨some 0, client⟩ client.frameParser
        client.pendingData client.toClientChannel :=
      ⟨⟨0, rfl, rfl⟩, rfl, rfl⟩
    rw [clientLoop.terminates_iff here failed
      (drains_framesIn client.pendingData failed), or_iff_right failed]
    simp [clientLoop]

end Client

/-! ## Both loops -/

/-- The receive loops end exactly if the parser has failed before, if the
pending bytes do not end inside a header, a length or a masking key, or if
something else stops them. -/
theorem receiveLoops_terminate_iff {llhttp : Http1.Llhttp}
    {Handler ServerWorld ClientWorld : Type}
    (server : Http1.Server Handler ServerWorld)
    (conn : Http1.Http1Connection llhttp Handler ServerWorld)
    (client : WebSocketClient ClientWorld) :
    (Terminates server.next ⟨.framing 0, conn⟩ ↔
        conn.wsParser.state = .error ∨
          leftOver conn.wsParser conn.pendingData = [] ∨
          StopsServer server conn) ∧
      (Terminates WebSocketClient.next client.processFrames ↔
        client.frameParser.state = .error ∨
          leftOver client.frameParser client.pendingData = [] ∨
          ∃ frame ∈ framesIn client.frameParser client.pendingData,
            frame.opcode = .close) := by
  constructor
  · exact processWebSocketData_terminates_iff server conn
  · exact processFrames_terminates_iff client

/-- llhttp has no part in the frame mode. -/
def unusedLlhttp : Http1.Llhttp where
  State := Unit
  init := ()
  execute _ _ := ⟨[], .ok, none, none, ()⟩

/-- A server whose handlers do nothing. -/
def quietServer : Http1.Server Unit Unit where
  shared := ⟨{}, []⟩
  zlib := .exhausted
  serve _ _ world := (.notFound, world)
  stream _ _ := .done
  onFrame _ _ := .done

/-- An upgraded connection that has received the first byte of a text
frame. -/
def firstByteServer : Http1.Http1Connection unusedLlhttp Unit Unit where
  tls := false
  world := ()
  mode := .webSocket
  wsHandler := some ()
  pendingData := [0x81]

def firstByteClient : WebSocketClient Unit where
  world := ()
  pendingData := [0x81]

theorem firstByte_not_terminates :
    ¬Terminates quietServer.next ⟨.framing 0, firstByteServer⟩ ∧
      ¬Terminates WebSocketClient.next firstByteClient.processFrames := by
  constructor
  · apply not_terminates_of_fixed
    rfl
  · apply not_terminates_of_fixed
    rfl

end Libnei.WebSocket

import Libnei.Ipc.Parsing
import Mathlib.Logic.Function.Basic

/-!
# Requests and responses

`RpcEndpoint` (`rpc_endpoint.cpp`): two endpoints with a message channel
between them.  The bytes of the channel are those of its frames; an endpoint
takes one frame at a time off them.  `handled` has the calls of the request
handler, `answered` those of the response callbacks, and `sent` the messages
that an endpoint has put into the channel.
-/

namespace Libnei.Ipc.Rpc

open Lib

/-! ## Frames -/

inductive MessageType
  | oneWay
  | request
  | response
deriving DecidableEq

def MessageType.tag : MessageType → UInt8
  | .oneWay => 0
  | .request => 1
  | .response => 2

def kRpcHeaderSize : Nat := 9

def writeUint64LE (value : UInt64) : Bytes :=
  encodeLE 8 value.toNat

def readUint64LE (bytes : Bytes) : UInt64 :=
  .ofNat (decodeLE (bytes.take 8))

def buildRpcFrame (type : MessageType) (requestId : UInt64)
    (payload : Option Bytes) : Bytes :=
  type.tag :: writeUint64LE requestId ++ payload.getD []

/-- The tag, the identifier and the payload; a null pointer in place of an
empty payload. -/
def parseRpcFrame (buf : Bytes) : UInt8 × UInt64 × Option Bytes :=
  (buf.headI, readUint64LE (buf.drop 1),
    if buf.length - kRpcHeaderSize = 0 then none
    else some (buf.drop kRpcHeaderSize))

/-! ## Endpoints -/

/-- A call of a response callback: for a response, or with a null pointer. -/
inductive Answer
  | response (payload : Option Bytes)
  | timedOut
  | aborted
deriving DecidableEq

structure RpcMessage where
  type : MessageType
  requestId : UInt64
  payload : Bytes
deriving DecidableEq

structure Endpoint where
  nextRequestId : UInt64 := 1
  /-- The keys of `pending_requests_`. -/
  pendingRequests : List UInt64 := []
  closed : Bool := false
  handled : List (UInt64 × Option Bytes) := []
  answered : List (UInt64 × Answer) := []
  sent : List RpcMessage := []

namespace Endpoint

variable (endpoint : Endpoint)

def answer (requestId : UInt64) (answer : Answer) : Endpoint :=
  if requestId ∈ endpoint.pendingRequests then
    { endpoint with
      pendingRequests := endpoint.pendingRequests.erase requestId
      answered := endpoint.answered ++ [(requestId, answer)] }
  else endpoint

def onMessageReceived (msg : Bytes) : Endpoint :=
  if msg.length < kRpcHeaderSize then { endpoint with closed := true }
  else
    let (type, requestId, payload) := parseRpcFrame msg
    if type = MessageType.oneWay.tag then endpoint
    else if type = MessageType.request.tag then
      { endpoint with handled := endpoint.handled ++ [(requestId, payload)] }
    else if type = MessageType.response.tag then
      endpoint.answer requestId (.response payload)
    else { endpoint with closed := true }

def onChannelError : Endpoint :=
  { endpoint with
    closed := true
    pendingRequests := []
    answered := endpoint.answered ++
      endpoint.pendingRequests.map fun requestId => (requestId, .aborted) }

/-- The identifier of the next request; zero is left out. -/
def takeRequestId : UInt64 × Endpoint :=
  let id := endpoint.nextRequestId
  if id = 0 then (1, { endpoint with nextRequestId := id + 2 })
  else (id, { endpoint with nextRequestId := id + 1 })

end Endpoint

structure RpcLink where
  ends : Bool → Endpoint := fun _ => {}
  /-- The bytes on their way from an endpoint to the other one. -/
  wires : Bool → Bytes := fun _ => []

inductive RpcAction
  | sendOneWay (side : Bool) (payload : Bytes)
  | sendRequest (side : Bool) (payload : Bytes)
  | reply (side : Bool) (requestId : UInt64) (payload : Bytes)
  | receive (side : Bool)
  | timeout (side : Bool) (requestId : UInt64)
  | channelError (side : Bool)

def RpcMessage.bytes (message : RpcMessage) : Bytes :=
  frame (buildRpcFrame message.type message.requestId message.payload)

namespace RpcLink

variable (link : RpcLink)

/-- An endpoint goes on as `next`. -/
def become (side : Bool) (next : Endpoint) : RpcLink :=
  { link with ends := Function.update link.ends side next }

/-- `MessageChannel::Send`. -/
def send (side : Bool) (endpoint : Endpoint) (message : RpcMessage) : RpcLink :=
  if endpoint.closed then link.become side endpoint
  else
    { ends := Function.update link.ends side
        { endpoint with sent := endpoint.sent ++ [message] }
      wires := Function.update link.wires side
        (link.wires side ++ message.bytes) }

def step (link : RpcLink) : RpcAction → Option RpcLink
  | .sendOneWay side payload =>
      some (link.send side (link.ends side) ⟨.oneWay, 0, payload⟩)
  | .sendRequest side payload =>
      let (requestId, endpoint) := (link.ends side).takeRequestId
      let endpoint := { endpoint with
        pendingRequests := endpoint.pendingRequests.insert requestId }
      some (link.send side endpoint ⟨.request, requestId, payload⟩)
  | .reply side requestId payload =>
      if requestId ∈ (link.ends side).handled.map Prod.fst then
        some (link.send side (link.ends side) ⟨.response, requestId, payload⟩)
      else none
  | .receive side =>
      if (link.ends side).closed then none
      else
        match framing.readFrame (link.wires !side) with
        | some (msg, rest) =>
            some { link.become side ((link.ends side).onMessageReceived msg)
              with wires := Function.update link.wires (!side) rest }
        | none =>
            if framing.corrupt (link.wires !side) then
              some (link.become side { link.ends side with closed := true })
            else none
  | .timeout side requestId =>
      some (link.become side ((link.ends side).answer requestId .timedOut))
  | .channelError side =>
      some (link.become side (link.ends side).onChannelError)

end RpcLink

/-- A message that does not arrive as it was sent: a request or a response
without a payload, or one that the channel does not take. -/
def Unfit (_ : RpcLink) : RpcAction → Prop
  | .sendOneWay _ payload => kMaxMessageSize < kRpcHeaderSize + payload.length
  | .sendRequest _ payload | .reply _ _ payload =>
      payload = [] ∨ kMaxMessageSize < kRpcHeaderSize + payload.length
  | _ => False

instance (link : RpcLink) (action : RpcAction) :
    Decidable (Unfit link action) := by
  cases action <;> unfold Unfit <;> infer_instance

/-! ## Messages that arrive -/

namespace RpcMessage

/-- The channel takes the message, and its payload is there at the other
end. -/
structure Fits (message : RpcMessage) : Prop where
  small : kRpcHeaderSize + message.payload.length ≤ kMaxMessageSize
  some : message.type ≠ .oneWay → message.payload ≠ []

def handled (message : RpcMessage) : Option (UInt64 × Option Bytes) :=
  if message.type = .request then
    some (message.requestId, some message.payload)
  else none

variable {message : RpcMessage}

theorem readUint64LE_writeUint64LE (value : UInt64) (rest : Bytes) :
    readUint64LE (writeUint64LE value ++ rest) = value := by
  rw [readUint64LE, writeUint64LE, List.take_left' (encodeLE_length 8 _),
    decodeLE_encodeLE value.toNat_lt, UInt64.ofNat_toNat]

theorem buildRpcFrame_length (type : MessageType) (requestId : UInt64)
    (payload : Bytes) : (buildRpcFrame type requestId payload).length =
      kRpcHeaderSize + payload.length := by
  simp [buildRpcFrame, writeUint64LE, kRpcHeaderSize]
  omega

theorem parseRpcFrame_buildRpcFrame (type : MessageType)
    (requestId : UInt64) (payload : Bytes) :
    parseRpcFrame (buildRpcFrame type requestId payload) =
      (type.tag, requestId, if payload = [] then none else some payload) := by
  have width : (writeUint64LE requestId).length = 8 := encodeLE_length 8 _
  have behind : (buildRpcFrame type requestId payload).drop kRpcHeaderSize =
      payload := by
    rw [buildRpcFrame, List.cons_append]
    exact List.drop_left' width
  have id : readUint64LE ((buildRpcFrame type requestId payload).drop 1) =
      requestId :=
    readUint64LE_writeUint64LE requestId payload
  rw [parseRpcFrame, behind, id, buildRpcFrame_length, Nat.add_sub_cancel_left]
  simp [buildRpcFrame, List.length_eq_zero_iff]

theorem readFrame_bytes (fits : message.Fits) (rest : Bytes) :
    framing.readFrame (message.bytes ++ rest) = some
      (buildRpcFrame message.type message.requestId message.payload, rest) := by
  have length := buildRpcFrame_length message.type message.requestId
    message.payload
  rw [bytes, frame, List.append_assoc,
    framing.readFrame_header (header_length _) (payloadSize_header
      (length.trans_le fits.small))]
  simp

end RpcMessage

variable {requestId : UInt64}

section

variable (endpoint : Endpoint)

theorem answer_spec (requestId : UInt64) (answer : Answer) :
    (endpoint.answer requestId answer).handled = endpoint.handled ∧
    (endpoint.answer requestId answer).sent = endpoint.sent ∧
    ∀ call ∈ (endpoint.answer requestId answer).answered,
      call ∈ endpoint.answered ∨ call = (requestId, answer) := by
  unfold Endpoint.answer
  split
  · refine ⟨rfl, rfl, fun call member => ?_⟩
    exact (List.mem_append.mp member).imp_right List.mem_singleton.mp
  · exact ⟨rfl, rfl, fun call => .inl⟩

theorem takeRequestId_spec : endpoint.takeRequestId.2.sent = endpoint.sent ∧
    endpoint.takeRequestId.2.handled = endpoint.handled ∧
    endpoint.takeRequestId.2.answered = endpoint.answered := by
  unfold Endpoint.takeRequestId
  dsimp only
  split <;> exact ⟨rfl, rfl, rfl⟩

theorem onMessageReceived_sent (msg : Bytes) :
    (endpoint.onMessageReceived msg).sent = endpoint.sent := by
  unfold Endpoint.onMessageReceived
  dsimp only
  split_ifs
  · rfl
  · rfl
  · rfl
  · exact (answer_spec ..).2.1
  · rfl

theorem onMessageReceived_build {message : RpcMessage} (fits : message.Fits) :
    (endpoint.onMessageReceived (buildRpcFrame message.type message.requestId
        message.payload)).handled =
      endpoint.handled ++ [message].filterMap RpcMessage.handled ∧
    ∀ call ∈ (endpoint.onMessageReceived (buildRpcFrame message.type
        message.requestId message.payload)).answered,
      call ∈ endpoint.answered ∨ message.type = .response ∧
        call = (message.requestId, .response (some message.payload)) := by
  have enough : ¬(buildRpcFrame message.type message.requestId
      message.payload).length < kRpcHeaderSize := by
    rw [RpcMessage.buildRpcFrame_length]
    omega
  rw [Endpoint.onMessageReceived, if_neg enough,
    RpcMessage.parseRpcFrame_buildRpcFrame]
  cases type : message.type with
  | oneWay => simp [MessageType.tag, RpcMessage.handled, type]
  | request =>
    have some := fits.some (by simp [type])
    simp [MessageType.tag, RpcMessage.handled, type, some]
  | response =>
    have some := fits.some (by simp [type])
    obtain ⟨same, -, calls⟩ := answer_spec endpoint message.requestId
      (.response message.payload)
    simp only [MessageType.tag, some, if_false, RpcMessage.handled, type,
      List.filterMap_cons, List.filterMap_nil, reduceCtorEq]
    exact ⟨by simpa using same, fun call member =>
      (calls call member).imp_right fun equal => ⟨trivial, equal⟩⟩

theorem onMessageReceived_response
    (pending : requestId ∈ endpoint.pendingRequests) (payload : Bytes) :
    (endpoint.onMessageReceived
        (buildRpcFrame .response requestId payload)).answered =
      endpoint.answered ++ [(requestId,
        .response (if payload = [] then none else some payload))] := by
  have enough : ¬(buildRpcFrame .response requestId payload).length <
      kRpcHeaderSize := by
    rw [RpcMessage.buildRpcFrame_length]
    omega
  rw [Endpoint.onMessageReceived, if_neg enough,
    RpcMessage.parseRpcFrame_buildRpcFrame]
  simp [MessageType.tag, Endpoint.answer, pending]

end

/-! ## Two endpoints -/

/-- The call of a response callback has a response with the same payload, or
there was none. -/
def Explained (sent : List RpcMessage) (call : UInt64 × Answer) : Prop :=
  (∃ payload, call.2 = .response (some payload) ∧
    ⟨.response, call.1, payload⟩ ∈ sent) ∨
  call.2 = .timedOut ∨ call.2 = .aborted

/-- One direction of a link: what one endpoint has sent, what the other one
has done with it, and the bytes on their way. -/
structure Flow (sent : List RpcMessage) (other : Endpoint) (wire : Bytes) :
    Prop where
  fit : ∀ message ∈ sent, message.Fits
  split : ∃ arrived waiting, sent = arrived ++ waiting ∧
    wire = (waiting.map RpcMessage.bytes).flatten ∧
    other.handled = arrived.filterMap RpcMessage.handled
  answered : ∀ call ∈ other.answered, Explained sent call

namespace Flow

variable {sent : List RpcMessage} {other next : Endpoint} {wire : Bytes}

variable (flow : Flow sent other wire)

include flow

theorem congr (handled : next.handled = other.handled)
    (answered : next.answered = other.answered) : Flow sent next wire where
  fit := flow.fit
  split := by rw [handled]; exact flow.split
  answered := by rw [answered]; exact flow.answered

theorem send {message : RpcMessage} (fits : message.Fits) :
    Flow (sent ++ [message]) other (wire ++ message.bytes) := by
  obtain ⟨fit, ⟨arrived, waiting, rfl, rfl, handled⟩, answered⟩ := flow
  refine ⟨?_, ⟨arrived, waiting ++ [message], by simp, by simp, handled⟩, ?_⟩
  · intro other member
    obtain member | member := List.mem_append.mp member
    · exact fit other member
    · rwa [List.mem_singleton.mp member]
  · intro call member
    exact (answered call member).imp_left fun ⟨payload, same, found⟩ =>
      ⟨payload, same, List.mem_append_left _ found⟩

theorem receive {msg rest : Bytes}
    (read : framing.readFrame wire = some (msg, rest)) :
    Flow sent (other.onMessageReceived msg) rest := by
  obtain ⟨fit, ⟨arrived, waiting, rfl, rfl, handled⟩, answered⟩ := flow
  cases waiting with
  | nil => cases read
  | cons message waiting =>
    have fits := fit message (by simp)
    rw [List.map_cons, List.flatten_cons,
      RpcMessage.readFrame_bytes fits] at read
    cases read
    obtain ⟨more, calls⟩ := onMessageReceived_build other fits
    refine ⟨fit, ⟨arrived ++ [message], waiting, by simp, rfl, ?_⟩, ?_⟩
    · rw [more, handled, List.filterMap_append]
    · intro call member
      obtain old | ⟨type, rfl⟩ := calls call member
      · exact answered call old
      · refine .inl ⟨message.payload, rfl, ?_⟩
        rw [← type]
        simp

theorem answer (requestId : UInt64) :
    Flow sent (other.answer requestId .timedOut) wire := by
  obtain ⟨same, -, calls⟩ := answer_spec other requestId .timedOut
  refine ⟨flow.fit, by rw [same]; exact flow.split, fun call member => ?_⟩
  obtain old | rfl := calls call member
  · exact flow.answered call old
  · exact .inr (.inl rfl)

theorem onChannelError : Flow sent other.onChannelError wire := by
  refine ⟨flow.fit, flow.split, fun call member => ?_⟩
  obtain old | new := List.mem_append.mp member
  · exact flow.answered call old
  · obtain ⟨requestId, -, rfl⟩ := List.mem_map.mp new
    exact .inr (.inr rfl)

end Flow

/-- Both directions. -/
def Linked (link : RpcLink) : Prop :=
  ∀ side, Flow (link.ends side).sent (link.ends !side) (link.wires side)

variable {action : RpcAction}

namespace Linked

variable {link next : RpcLink}

theorem initially : Linked {} := by
  intro side
  exact ⟨nofun, ⟨[], [], rfl, rfl, rfl⟩, nofun⟩

theorem of_sides {side : Bool}
    (out : Flow (next.ends side).sent (next.ends !side) (next.wires side))
    (into : Flow (next.ends !side).sent (next.ends side)
      (next.wires !side)) : Linked next := by
  intro direction
  obtain rfl | rfl : direction = side ∨ direction = !side := by
    cases direction <;> cases side <;> simp
  · exact out
  · rwa [Bool.not_not]

variable {endpoint : Endpoint}

variable (linked : Linked link)

include linked

theorem become {side : Bool} (sent : endpoint.sent = (link.ends side).sent)
    (into : Flow (link.ends !side).sent endpoint (link.wires !side)) :
    Linked (link.become side endpoint) := by
  refine @of_sides _ side ?_ ?_
  · simpa [RpcLink.become, sent] using linked side
  · simpa [RpcLink.become] using into

theorem send {side : Bool} {message : RpcMessage} (fits : message.Fits)
    (sent : endpoint.sent = (link.ends side).sent)
    (into : Flow (link.ends !side).sent endpoint (link.wires !side)) :
    Linked (link.send side endpoint message) := by
  unfold RpcLink.send
  split
  · exact linked.become sent into
  · refine @of_sides _ side ?_ ?_
    · simpa [sent] using (linked side).send fits
    · simp only [Function.update_self, ne_eq, Bool.not_eq_self,
        not_false_eq_true, Function.update_of_ne]
      exact into.congr rfl rfl

theorem step (fit : ¬Unfit link action) (taken : link.step action = some next) :
    Linked next := by
  have into : ∀ side, Flow (link.ends !side).sent (link.ends side)
      (link.wires !side) := by
    intro side
    simpa using linked !side
  cases action with
  | sendOneWay side payload =>
    cases taken
    exact linked.send ⟨Nat.not_lt.mp fit, nofun⟩ rfl (into side)
  | sendRequest side payload =>
    obtain ⟨some, small⟩ := not_or.mp fit
    obtain ⟨sent, handled, answered⟩ :=
      takeRequestId_spec (link.ends side)
    cases taken
    exact linked.send ⟨Nat.not_lt.mp small, fun _ => some⟩ sent
      ((into side).congr handled answered)
  | reply side requestId payload =>
    obtain ⟨-, ⟨⟩⟩ := Option.ite_none_right_eq_some.mp taken
    obtain ⟨some, small⟩ := not_or.mp fit
    exact linked.send ⟨Nat.not_lt.mp small, fun _ => some⟩ rfl (into side)
  | timeout side requestId =>
    cases taken
    exact linked.become (answer_spec ..).2.1 ((into side).answer requestId)
  | channelError side =>
    cases taken
    exact linked.become rfl (into side).onChannelError
  | receive side =>
    obtain ⟨-, taken⟩ := Option.ite_none_left_eq_some.mp taken
    split at taken
    case h_1 msg rest read =>
      cases taken
      refine @of_sides _ side ?_ ?_
      · have sent := onMessageReceived_sent (link.ends side) msg
        simpa [RpcLink.become, sent] using linked side
      · simpa [RpcLink.become] using (into side).receive read
    case h_2 =>
      obtain ⟨-, ⟨⟩⟩ := Option.ite_none_right_eq_some.mp taken
      exact linked.become rfl ((into side).congr rfl rfl)

end Linked

/-- A response that is next on the wire calls the callback of its request, if
that is pending. -/
theorem receive_response {link : RpcLink} {side : Bool} {message : RpcMessage}
    {later : Bytes} (wire : link.wires side = message.bytes ++ later)
    (fits : message.Fits) (type : message.type = .response)
    (stays : (link.ends !side).closed = false)
    (pending : message.requestId ∈ (link.ends !side).pendingRequests) :
    ∃ next, link.step (.receive !side) = some next ∧
      (next.ends !side).answered = (link.ends !side).answered ++
        [(message.requestId, .response (some message.payload))] := by
  have read := RpcMessage.readFrame_bytes fits later
  have some := fits.some (by simp [type])
  rw [type] at read
  refine ⟨_, by simp only [RpcLink.step, stays, Bool.not_not, wire, read]; rfl,
    ?_⟩
  simpa [RpcLink.become, some] using
    onMessageReceived_response _ pending message.payload

/-- Requests and responses with a payload arrive as they were sent, unless
they are too long for the channel.  The handler was called with the requests
of a front part of what the other endpoint has sent, which is all of it if
nothing is on its way.  A response that comes next calls the callback of its
request with its payload if the request is pending, and no callback was called
with anything else, except for a timeout or an abort. -/
theorem rpc_payloads_arrive {actions : List RpcAction} {link : RpcLink}
    (performed : perform RpcLink.step {} actions = some link)
    (avoids : Avoids RpcLink.step Unfit {} actions) (side : Bool) :
    (∃ arrived waiting, (link.ends side).sent = arrived ++ waiting ∧
      link.wires side = (waiting.map RpcMessage.bytes).flatten ∧
      (link.ends !side).handled = arrived.filterMap RpcMessage.handled ∧
      (link.wires side = [] → arrived = (link.ends side).sent) ∧
      ∀ message ∈ waiting.head?, message.type = .response →
        (link.ends !side).closed = false →
        message.requestId ∈ (link.ends !side).pendingRequests →
        ∃ next, link.step (.receive !side) = some next ∧
          (next.ends !side).answered = (link.ends !side).answered ++
            [(message.requestId, .response (some message.payload))]) ∧
    ∀ call ∈ (link.ends !side).answered,
      Explained (link.ends side).sent call := by
  have linked : Linked link :=
    perform_avoiding (fun linked fit taken => linked.step fit taken)
      performed avoids .initially
  obtain ⟨fit, ⟨arrived, waiting, whole, wire, handled⟩, answered⟩ :=
    linked side
  refine ⟨⟨arrived, waiting, whole, wire, handled, fun empty => ?_,
    fun message first type stays pending => ?_⟩, answered⟩
  · cases waiting with
    | nil => rw [whole, List.append_nil]
    | cons message waiting =>
        rw [wire, List.map_cons, List.flatten_cons,
          List.append_eq_nil_iff] at empty
        have size := congrArg List.length empty.1
        rw [RpcMessage.bytes, frame, List.length_append, header_length] at size
        have positive := framing.headerSize_pos
        exact absurd size (by rw [List.length_nil]; omega)
  · obtain ⟨later, rfl⟩ := List.head?_eq_some_iff.mp first
    exact receive_response wire (fit message (by simp [whole])) type stays
      pending

/-- A request with one byte and its answer, which is on its way. -/
theorem rpc_payloads_arrive_byte :
    ∃ link next, perform RpcLink.step {} [.sendRequest true [104],
        .receive false, .reply false 1 [105]] = some link ∧
      link.step (.receive true) = some next ∧
      (next.ends true).answered = [(1, .response (some [105]))] := by
  obtain ⟨⟨arrived, waiting, sent, wire, -, -, arrives⟩, -⟩ :=
    @rpc_payloads_arrive [.sendRequest true [104], .receive false,
      .reply false 1 [105]] _ rfl (by decide +kernel) false
  have first : waiting.head? = some ⟨.response, 1, [105]⟩ := by
    rcases List.append_eq_singleton_iff.mp sent.symm with
      ⟨-, rfl⟩ | ⟨-, rfl⟩
    · rfl
    · cases wire
  obtain ⟨next, received, answered⟩ :=
    arrives _ first rfl rfl (by decide +kernel)
  exact ⟨_, next, rfl, received, answered⟩

/-- An empty request and its empty answer arrive as null pointers. -/
theorem empty_payloads_arrive_as_null :
    (perform RpcLink.step {} [.sendRequest true [], .receive false,
        .reply false 1 [], .receive true]).map
      (fun link => ((link.ends false).handled, (link.ends true).answered)) =
    some ([(1, none)], [(1, .response none)]) := by
  decide +kernel

/-! ## Requests that are answered -/

def RpcAction.isRequest (side : Bool) : RpcAction → Bool
  | .sendRequest other _ => other = side
  | _ => false

def requestIds (count : Nat) : List UInt64 :=
  (List.range count).map fun index => UInt64.ofNat (index + 1)

/-- Each of so many requests is answered or pending, and just once. -/
@[mk_iff]
structure Accounted (count : Nat) (endpoint : Endpoint) : Prop where
  next : endpoint.nextRequestId = UInt64.ofNat (count + 1)
  ids : (endpoint.answered.map Prod.fst ++ endpoint.pendingRequests).Perm
    (requestIds count)

namespace Accounted

variable {count : Nat} {endpoint : Endpoint}

variable (accounted : Accounted count endpoint)

include accounted

theorem answer (requestId : UInt64) (answer : Answer) :
    Accounted count (endpoint.answer requestId answer) := by
  unfold Endpoint.answer
  split
  · case isTrue pending =>
    refine ⟨accounted.next, .trans ?_ accounted.ids⟩
    rw [List.map_append, List.append_assoc]
    exact (List.perm_cons_erase pending).symm.append_left _
  · exact accounted

theorem onMessageReceived (msg : Bytes) :
    Accounted count (endpoint.onMessageReceived msg) := by
  unfold Endpoint.onMessageReceived
  dsimp only
  split_ifs
  · exact ⟨accounted.next, accounted.ids⟩
  · exact accounted
  · exact ⟨accounted.next, accounted.ids⟩
  · exact accounted.answer _ _
  · exact ⟨accounted.next, accounted.ids⟩

theorem onChannelError : Accounted count endpoint.onChannelError := by
  refine ⟨accounted.next, ?_⟩
  simpa [Endpoint.onChannelError, Function.comp_def] using accounted.ids

theorem takeRequestId (few : count + 1 < 2 ^ 64 - 1) :
    Accounted (count + 1) { endpoint.takeRequestId.2 with
      pendingRequests := endpoint.takeRequestId.2.pendingRequests.insert
        endpoint.takeRequestId.1 } := by
  have value : ∀ {index}, index ≤ count + 1 →
      (UInt64.ofNat index).toNat = index := by
    intro index small
    rw [UInt64.toNat_ofNat', Nat.mod_eq_of_lt (by omega)]
  have nonzero : endpoint.nextRequestId ≠ 0 := by
    rw [accounted.next, ne_eq, ← UInt64.toNat_inj, value (Nat.le_refl _)]
    exact Nat.succ_ne_zero count
  have fresh : endpoint.nextRequestId ∉ endpoint.pendingRequests := by
    intro pending
    obtain ⟨index, small, same⟩ := List.mem_map.mp
      (accounted.ids.subset (List.mem_append_right _ pending))
    have below := List.mem_range.mp small
    rw [accounted.next, ← UInt64.toNat_inj, value (by omega),
      value (Nat.le_refl _)] at same
    omega
  have taken : endpoint.takeRequestId = (endpoint.nextRequestId,
      { endpoint with nextRequestId := endpoint.nextRequestId + 1 }) :=
    if_neg nonzero
  rw [taken]
  constructor
  · rw [accounted.next]
    exact (UInt64.ofNat_add (count + 1) 1).symm
  · rw [List.insert_of_not_mem fresh, requestIds, List.range_succ,
      List.map_append]
    refine List.perm_middle.trans ((List.perm_append_singleton _ _).symm.trans
      ?_)
    rw [accounted.next]
    exact accounted.ids.append_right _

end Accounted

theorem Accounted.step {past : List RpcAction} {link next : RpcLink}
    {side : Bool}
    (accounted : Accounted (past.countP (RpcAction.isRequest side))
      (link.ends side))
    (few : (past ++ [action]).countP (RpcAction.isRequest side) < 2 ^ 64 - 1)
    (taken : link.step action = some next) :
    Accounted ((past ++ [action]).countP (RpcAction.isRequest side))
      (next.ends side) := by
  rw [List.countP_append, List.countP_singleton] at few ⊢
  have answered := accounted.answer
  have received := accounted.onMessageReceived
  have failed := accounted.onChannelError
  have requested := accounted.takeRequestId
  have ends := congrArg (Option.map fun link => link.ends side) taken
  simp only [accounted_iff] at *
  cases action <;> simp only [RpcLink.step, RpcLink.send, RpcLink.become,
    apply_ite (Option.map _), apply_ite RpcLink.ends, ite_apply,
    Option.map_some, Function.update_apply, RpcAction.isRequest] at ends few ⊢
  case receive =>
    split at ends
    · cases ends
    · split at ends <;> grind [Function.update_apply]
  all_goals grind

/-- A step that ends the wait for a request: its time-out, an error of the
channel, or a response that is next on the wire. -/
def Ends (side : Bool) (requestId : UInt64) (link : RpcLink) : RpcAction → Prop
  | .timeout other id => other = side ∧ id = requestId
  | .channelError other => other = side
  | .receive other => other = side ∧ ∃ (payload : Bytes) (rest : Bytes),
      framing.readFrame (link.wires !side) =
        some (buildRpcFrame .response requestId payload, rest)
  | _ => False

theorem answered_of_ends {link next : RpcLink} {side : Bool}
    (pending : requestId ∈ (link.ends side).pendingRequests)
    (ends : Ends side requestId link action)
    (taken : link.step action = some next) :
    requestId ∈ (next.ends side).answered.map Prod.fst := by
  cases action with
  | timeout other id =>
    obtain ⟨rfl, rfl⟩ := ends
    cases taken
    simp [RpcLink.become, Endpoint.answer, pending]
  | channelError other =>
    obtain rfl := ends
    cases taken
    simp [RpcLink.become, Endpoint.onChannelError, pending]
  | receive other =>
    obtain ⟨rfl, payload, rest, read⟩ := ends
    obtain ⟨-, taken⟩ := Option.ite_none_left_eq_some.mp taken
    rw [read] at taken
    cases taken
    simp [RpcLink.become, onMessageReceived_response _ pending]
  | _ => exact ends.elim

/-- Over every run with fewer than `2 ^ 64 - 1` requests an endpoint has
called back for each request once, or keeps it as pending, and has called
back for nothing else.  A pending request is called back by its response, its
time-out or an error of the channel, whichever comes next. -/
theorem requests_answered_once {actions : List RpcAction} {link : RpcLink}
    (performed : perform RpcLink.step {} actions = some link)
    (side : Bool)
    (few : actions.countP (RpcAction.isRequest side) < 2 ^ 64 - 1) :
    ((link.ends side).answered.map Prod.fst ++
      (link.ends side).pendingRequests).Perm
        (requestIds (actions.countP (RpcAction.isRequest side))) ∧
    ∀ requestId ∈ (link.ends side).pendingRequests, ∀ action next,
      Ends side requestId link action → link.step action = some next →
        requestId ∈ (next.ends side).answered.map Prod.fst := by
  have accounted := @perform_history _ _ RpcLink.step
    (fun past link => past.countP (RpcAction.isRequest side) < 2 ^ 64 - 1 →
      Accounted (past.countP (RpcAction.isRequest side)) (link.ends side))
    (fun {past _ _ _} before taken few => (before (by
      rw [List.countP_append] at few
      omega)).step few taken) _ _ _ performed fun _ => ⟨rfl, .refl _⟩
  exact ⟨(accounted few).ids, fun _ pending _ _ => answered_of_ends pending⟩

/-- The answer to the first request comes behind its timeout. -/
def lateAnswer : List RpcAction :=
  [.sendRequest true [104], .timeout true 1, .sendRequest true [],
    .receive false, .reply false 1 [105], .receive true]

theorem requests_answered_once_lateAnswer :
    ∃ link, perform RpcLink.step {} lateAnswer = some link ∧
      ((link.ends true).answered.map Prod.fst ++
        (link.ends true).pendingRequests).Perm [1, 2] ∧
      ∀ next, link.step (.timeout true 2) = some next →
        2 ∈ (next.ends true).answered.map Prod.fst := by
  obtain ⟨ids, ends⟩ := @requests_answered_once lateAnswer _ rfl true
    (by decide)
  exact ⟨_, rfl, ids, fun next => ends 2 (by decide +kernel) _ next ⟨rfl, rfl⟩⟩

end Libnei.Ipc.Rpc

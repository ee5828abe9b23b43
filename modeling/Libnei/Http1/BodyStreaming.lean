import Libnei.Http1.Handlers
import Libnei.Lib.Actions

/-!
# Streaming-request bodies

The pull queue of a streaming request: chunks that the parser delivers while
a read is processed, the end of the body, and the pulls of the handler, from
outside or from inside a callback.
-/

namespace Libnei.Http1

open Libnei.Http Libnei.Lib

/-- Is the I/O thread inside `OnRead`? -/
inductive BodyControl
  | processing
  | idle
deriving DecidableEq

structure BodyStream (World : Type) where
  control : BodyControl := .processing
  channel : Channel World

inductive BodyAction (World : Type)
  | chunk (data : Bytes)
  | done
  | leave
  | read
  | call (program : Program World)

namespace Channel

variable {World : Type}

/-- The tail of `OnRead` in streaming-request mode. -/
def afterBodyRead (channel : Channel World) : Channel World :=
  if channel.closed = false ∧ channel.srBodyDone = false then
    if highWater ≤ channel.srBufferedBytes then
      { channel with srReadPaused := true }
    else channel.startRead
  else channel

end Channel

namespace BodyStream

variable {World : Type}

def step (stream : BodyStream World) (action : BodyAction World) :
    Option (BodyStream World) :=
  let channel := stream.channel
  match stream.control, action with
  | control, .call program => some ⟨control, channel.run program⟩
  | .processing, .chunk data =>
      if channel.srBodyDone then none
      else some ⟨.processing, channel.deliverBodyChunk data⟩
  | .processing, .done =>
      if channel.srBodyDone then none
      else some ⟨.processing, channel.deliverBodyDone⟩
  | .processing, .leave => some ⟨.idle, channel.afterBodyRead⟩
  | .idle, .read =>
      if channel.readInFlight then
        some ⟨.processing, { channel with readInFlight := false }⟩
      else none
  | _, _ => none

end BodyStream

/-- The body side of a channel. -/
structure BodyView where
  chunks : List Bytes := []
  buffered : Nat := 0
  paused : Bool := false
  waiting : Bool := false
  done : Bool := false
  reading : Bool := false
  pulls : List (Option Bytes) := []

namespace Channel

variable {World : Type} (channel : Channel World)

def body : BodyView where
  chunks := channel.srChunks
  buffered := channel.srBufferedBytes
  paused := channel.srReadPaused
  waiting := channel.srPendingRead.isSome
  done := channel.srBodyDone
  reading := channel.readInFlight
  pulls := channel.pulls

end Channel

/-! ## The invariant -/

/-- Outside `OnRead` a body that goes on is being read, or reading is paused
and nobody waits. -/
def BodyView.Reads (view : BodyView) : BodyControl → Prop
  | .processing => view.paused = false ∧ view.reading = false
  | .idle => (view.reading = true → view.paused = false) ∧ (view.done = false →
        view.reading = true ∨ view.paused = true ∧ view.waiting = false)

/-- The pulls got the chunks `given`, and then `ends` of them the end. -/
structure Streams (control : BodyControl) (arrived given : List Bytes)
    (ends : Nat) (view : BodyView) : Prop where
  pulls : view.pulls = given.map some ++ List.replicate ends none
  order : arrived = given ++ view.chunks
  ended : 0 < ends → view.done = true ∧ view.chunks = []
  buffered : view.buffered = (view.chunks.map List.length).sum
  waiting : view.waiting = true → view.chunks = [] ∧ view.done = false
  reads : view.Reads control

/-- Reads that backpressure paused are started again. -/
def BodyView.resume (view : BodyView) : BodyView :=
  if view.paused && !view.done then
    { view with paused := false, reading := true }
  else view

namespace Streams

variable {control : BodyControl} {arrived given : List Bytes} {ends : Nat}
  {view : BodyView}

section

variable (streams : Streams control arrived given ends view)

include streams

/-- The end of the body is told once the queue is empty. -/
theorem unended (queued : view.chunks ≠ []) :
    ends = 0 ∧ view.waiting = false := by
  constructor
  · by_contra some
    exact queued (streams.ended (Nat.pos_of_ne_zero some)).2
  · apply eq_false_of_ne_true
    intro waits
    exact queued (streams.waiting waits).1

theorem resume : Streams control arrived given ends view.resume := by
  unfold BodyView.resume
  split
  case isTrue resumes =>
    refine { streams with reads := ?_ }
    cases control with
    | processing =>
      have paused := (Bool.and_eq_true _ _ ▸ resumes).1
      exact absurd (paused.symm.trans streams.reads.1) (by decide)
    | idle => exact ⟨fun _ => rfl, fun _ => Or.inl rfl⟩
  case isFalse => exact streams

theorem wait (empty : view.chunks = []) (goesOn : view.done = false) :
    Streams control arrived given ends
      { view with waiting := true }.resume := by
  have before := streams.reads
  change Streams control arrived given ends
    (if view.paused && !view.done then _ else _)
  cases paused : view.paused with
  | true =>
    rw [if_pos (by rw [goesOn]; rfl)]
    refine { streams with
      waiting := fun _ => ⟨empty, goesOn⟩
      reads := ?_ }
    cases control with
    | processing => exact absurd (paused.symm.trans before.1) (by decide)
    | idle => exact ⟨fun _ => rfl, fun _ => Or.inl rfl⟩
  | false =>
    rw [if_neg (by simp)]
    refine { streams with
      waiting := fun _ => ⟨empty, goesOn⟩
      reads := ?_ }
    cases control with
    | processing => exact ⟨rfl, before.2⟩
    | idle =>
      refine ⟨fun _ => rfl, fun _ => ?_⟩
      rcases before.2 goesOn with reading | ⟨isPaused, _⟩
      · exact Or.inl reading
      · exact absurd (paused.symm.trans isPaused) (by decide)

theorem answer {chunk : Bytes} {chunks : List Bytes}
    (queued : view.chunks = chunk :: chunks) :
    Streams control arrived (given ++ [chunk]) 0
      { view with
        chunks := chunks
        buffered := view.buffered - chunk.length
        pulls := view.pulls ++ [some chunk] } := by
  obtain ⟨none, patient⟩ := streams.unended
    (queued ▸ List.cons_ne_nil chunk chunks)
  have buffered := streams.buffered
  refine ⟨?_, ?_, nofun, ?_, ?_, ?_⟩
  · rw [streams.pulls, none]
    simp
  · rw [streams.order, queued]
    simp
  · rw [queued, List.map_cons, List.sum_cons] at buffered
    dsimp only
    omega
  · exact fun waits => absurd (patient.symm.trans waits) (by decide)
  · exact streams.reads

/-- While the body goes on, no pull was told its end. -/
theorem ends_eq_zero (goesOn : view.done = false) : ends = 0 := by
  by_contra told
  have done := (streams.ended (Nat.pos_of_ne_zero told)).1
  exact absurd (goesOn.symm.trans done) (by decide)

theorem arrive (waits : view.waiting = true) (data : Bytes) :
    Streams control (arrived ++ [data]) (given ++ [data]) 0
      { view with waiting := false, pulls := view.pulls ++ [some data] } := by
  obtain ⟨empty, goesOn⟩ := streams.waiting waits
  refine ⟨?_, ?_, nofun, streams.buffered, nofun, ?_⟩
  · rw [streams.pulls, streams.ends_eq_zero goesOn]
    simp
  · rw [streams.order, empty]
    simp
  · cases control with
    | processing => exact streams.reads
    | idle => exact ⟨streams.reads.1, fun _ =>
      (streams.reads.2 goesOn).imp_right fun paused => ⟨paused.1, rfl⟩⟩

theorem enqueue (nobody : view.waiting = false) (goesOn : view.done = false)
    (data : Bytes) :
    Streams control (arrived ++ [data]) given ends
      { view with
        buffered := view.buffered + data.length
        chunks := view.chunks ++ [data] } := by
  have none := streams.ends_eq_zero goesOn
  refine ⟨streams.pulls, ?_, ?_, ?_, ?_, streams.reads⟩
  · rw [streams.order, List.append_assoc]
  · intro told
    omega
  · simp [streams.buffered]
  · intro waits
    exact absurd (nobody.symm.trans waits) (by decide)

end

section

variable (streams : Streams .processing arrived given ends view)

include streams

theorem finish (nobody : view.waiting = false) :
    Streams .processing arrived given ends { view with done := true } := by
  refine { streams with ended := ?_, waiting := ?_, reads := streams.reads }
  · intro told
    exact ⟨rfl, (streams.ended told).2⟩
  · intro waits
    exact absurd (nobody.symm.trans waits) (by decide)

theorem pause (high : highWater ≤ view.buffered) :
    Streams .idle arrived given ends { view with paused := true } := by
  have queued : view.chunks ≠ [] := by
    intro empty
    have none : view.buffered = 0 := by rw [streams.buffered, empty]; rfl
    rw [none] at high
    exact absurd high (by decide)
  refine { streams with reads := ⟨?_, ?_⟩ }
  · intro reading
    exact absurd (streams.reads.2.symm.trans reading) (by decide)
  · exact fun _ => Or.inr ⟨rfl, (streams.unended queued).2⟩

theorem read : Streams .idle arrived given ends { view with reading := true } :=
  { streams with reads := ⟨fun _ => streams.reads.1, fun _ => Or.inl rfl⟩ }

theorem rest (done : view.done = true) :
    Streams .idle arrived given ends view := by
  refine { streams with reads := ⟨fun _ => streams.reads.1, ?_⟩ }
  intro goesOn
  exact absurd (goesOn.symm.trans done) (by decide)

end

end Streams

/-- While the connection is open, its body is streamed. -/
def Channel.Streaming {World : Type} (control : BodyControl)
    (arrived : List Bytes) (channel : Channel World) : Prop :=
  channel.closed = false →
    ∃ given ends, Streams control arrived given ends channel.body

namespace Channel

variable {World : Type} {control : BodyControl} {arrived : List Bytes}
  {channel : Channel World}

variable {after : Channel World}

theorem Streaming.of_closed (closed : channel.closed = true) :
    channel.Streaming control arrived := by
  intro isOpen
  rw [closed] at isOpen
  contradiction

section

variable (isOpen : channel.closed = false)

include isOpen

end

section

variable (streaming : channel.Streaming .processing arrived)

include streaming

end

/-- What becomes of a pull: it gets the first chunk if one is queued, the end
if that was reached, and otherwise it is kept; the chunk or the end that comes
next goes to the pull that is kept. -/
structure Serves (channel : Channel World) : Prop where
  queued : ∀ chunk ∈ channel.srChunks.head?, ∀ callback,
    channel.pulls ++ [some chunk] <+:
      (channel.run (.readBody callback .done)).pulls
  ended : channel.srChunks = [] → channel.srBodyDone = true → ∀ callback,
    channel.pulls ++ [none] <+:
      (channel.run (.readBody callback .done)).pulls
  kept : channel.srChunks = [] → channel.srBodyDone = false → ∀ callback,
    (channel.run (.readBody callback .done)).srPendingRead = some callback ∧
      (channel.run (.readBody callback .done)).pulls = channel.pulls
  arriving : channel.srPendingRead.isSome → ∀ data,
    channel.pulls ++ [some data] <+: (channel.deliverBodyChunk data).pulls
  ending : channel.srPendingRead.isSome →
    channel.pulls ++ [none] <+: channel.deliverBodyDone.pulls

end Channel

namespace BodyStream

variable {World : Type}

end BodyStream

end Libnei.Http1

import Libnei.Http1.Connection

/-!
# What handlers leave alone

A handler may close the connection, but cannot open it again, and while it is
open the only read that a handler can start is one that backpressure had
paused.
-/

namespace Libnei.Http1

open Libnei.Http Libnei.WebSocket

/-- What a program of the user keeps, whatever it does. -/
structure Keeps {World : Type} (before after : Channel World) : Prop where
  closed : before.closed = true → after.closed = true
  bodyDone : after.srBodyDone = before.srBodyDone
  reads : after.closed = false → after.readInFlight = before.readInFlight ∧
        after.srReadPaused = before.srReadPaused ∨
      before.srReadPaused = true ∧ before.srBodyDone = false ∧
        after.srReadPaused = false ∧ after.readInFlight = true
  closing : after.closed = false →
    after.closeAfterWrites = before.closeAfterWrites ∧
      after.closePosted = before.closePosted

namespace Keeps

variable {World : Type} {first second third : Channel World}

theorem refl (channel : Channel World) : Keeps channel channel where
  closed := id
  bodyDone := rfl
  reads _ := .inl ⟨rfl, rfl⟩
  closing _ := ⟨rfl, rfl⟩

theorem wasOpen (keeps : Keeps first second)
    (isOpen : second.closed = false) : first.closed = false := by
  cases closed : first.closed with
  | false => rfl
  | true =>
    rw [keeps.closed closed] at isOpen
    contradiction

theorem trans (earlier : Keeps first second) (later : Keeps second third) :
    Keeps first third where
  closed := later.closed ∘ earlier.closed
  bodyDone := later.bodyDone.trans earlier.bodyDone
  closing := by
    intro isOpen
    obtain ⟨deferred, posted⟩ := earlier.closing (later.wasOpen isOpen)
    rw [← deferred, ← posted]
    exact later.closing isOpen
  reads := by
    intro isOpen
    rcases earlier.reads (later.wasOpen isOpen) with
      ⟨reading, paused⟩ | ⟨paused, pending, resumed, reading⟩
    · rw [← reading, ← paused, ← earlier.bodyDone]
      exact later.reads isOpen
    · rcases later.reads isOpen with
        ⟨reading', resumed'⟩ | ⟨paused', _⟩
      · refine .inr ⟨paused, pending, ?_, ?_⟩
        · rw [resumed', resumed]
        · rw [reading', reading]
      · rw [resumed] at paused'
        contradiction

/-- A change of fields that none of the kept ones is among. -/
theorem of_same (closed : second.closed = first.closed)
    (bodyDone : second.srBodyDone = first.srBodyDone)
    (reading : second.readInFlight = first.readInFlight)
    (paused : second.srReadPaused = first.srReadPaused)
    (deferred : second.closeAfterWrites = first.closeAfterWrites)
    (posted : second.closePosted = first.closePosted) :
    Keeps first second where
  closed := by rw [closed]; exact id
  bodyDone := bodyDone
  reads _ := .inl ⟨reading, paused⟩
  closing _ := ⟨deferred, posted⟩

/-- What happens to a connection that is closed in the end. -/
theorem of_closed (closed : second.closed = true)
    (bodyDone : second.srBodyDone = first.srBodyDone) :
    Keeps first second where
  closed _ := closed
  bodyDone := bodyDone
  reads isOpen := by rw [closed] at isOpen; contradiction
  closing isOpen := by rw [closed] at isOpen; contradiction

end Keeps

namespace Channel

variable {World : Type} (channel : Channel World)

theorem pumpWrites_keeps : Keeps channel channel.pumpWrites := by
  obtain ⟨inFlight, queue, _, pumped⟩ := pumpWrites_eq channel
  rw [pumped]
  exact .of_same rfl rfl rfl rfl rfl rfl

theorem queueWrite_keeps (data : Bytes) :
    Keeps channel (channel.queueWrite data) := by
  unfold queueWrite
  split
  · exact .refl channel
  · apply Keeps.trans _ (pumpWrites_keeps _)
    exact .of_same rfl rfl rfl rfl rfl rfl

theorem writeResponse_keeps (wireData : Bytes) :
    Keeps channel (channel.writeResponse wireData) := by
  unfold writeResponse
  split
  · exact .refl channel
  · exact queueWrite_keeps channel wireData

theorem writeRaw_keeps (data : Bytes) :
    Keeps channel (channel.writeRaw data) := by
  unfold writeRaw
  split
  · exact .refl channel
  · exact queueWrite_keeps channel data

theorem startRead_closed : channel.startRead.closed = channel.closed := by
  obtain ⟨_, started⟩ := startRead_eq channel
  rw [started]

theorem pumpWrites_closed : channel.pumpWrites.closed = channel.closed := by
  obtain ⟨_, _, _, pumped⟩ := pumpWrites_eq channel
  rw [pumped]

theorem doClose_closed : channel.doClose.closed = channel.closed := by
  obtain ⟨_, _, _, _, closes⟩ := doClose_eq channel
  rw [closes]

theorem finalTeardown_closed :
    channel.finalTeardown.closed = channel.closed := by
  obtain ⟨_, _, torn⟩ := finalTeardown_eq channel
  rw [torn]

theorem onWritten_closed (success : Bool) :
    (channel.onWritten success).closed = channel.closed := by
  cases success with
  | true =>
    unfold onWritten onWriteComplete
    rw [if_pos rfl, if_pos rfl]
    apply (pumpWrites_closed _).trans
    dsimp only
    split
    · exact doClose_closed _
    · rfl
  | false =>
    obtain ⟨_, _, _, _, failed⟩ := onWritten_false_eq channel
    rw [failed]

theorem close_closed : channel.close.closed = true := by
  unfold close
  split
  · assumption
  · exact doClose_closed _

theorem close_keeps : Keeps channel channel.close := by
  apply Keeps.of_closed (close_closed channel)
  unfold close
  split
  · rfl
  · obtain ⟨_, _, _, _, closed⟩ := doClose_eq { channel with closed := true }
    rw [closed]

theorem closeElsewhere_keeps : Keeps channel channel.closeElsewhere := by
  unfold closeElsewhere
  split
  · exact .refl channel
  · exact .of_closed rfl rfl

theorem respond_keeps (headers : HttpResponse) :
    Keeps channel (channel.respond headers) := by
  unfold respond
  split
  · exact .refl channel
  · apply Keeps.trans _ (writeResponse_keeps _ _)
    exact .of_same rfl rfl rfl rfl rfl rfl

theorem writeStreamChunkRaw_keeps (chunk : Bytes) :
    Keeps channel (channel.writeStreamChunkRaw chunk) := by
  unfold writeStreamChunkRaw
  split
  · exact .refl channel
  · exact queueWrite_keeps channel chunk

theorem writeStreamChunk_keeps (chunk : Bytes) :
    Keeps channel (channel.writeStreamChunk chunk) := by
  unfold writeStreamChunk
  split
  · exact .refl channel
  · split
    · apply Keeps.trans _ (writeStreamChunkRaw_keeps _ _)
      apply Keeps.trans _ (writeStreamChunkRaw_keeps _ _)
      exact writeStreamChunkRaw_keeps _ _
    · exact writeStreamChunkRaw_keeps _ _

theorem closeStreaming_keeps : Keeps channel channel.closeStreaming := by
  unfold closeStreaming
  split
  · apply Keeps.trans _ (close_keeps _)
    exact writeStreamChunkRaw_keeps _ _
  · exact close_keeps channel

theorem cancelRequest_keeps (generation : Nat) :
    Keeps channel (channel.cancelRequest generation) := by
  unfold cancelRequest
  split
  · exact .refl channel
  · split
    · exact .refl channel
    · exact close_keeps channel

theorem resume_keeps (paused : channel.srReadPaused = true)
    (pending : channel.srBodyDone = false) :
    Keeps channel (startRead { channel with srReadPaused := false }) := by
  obtain ⟨reading, started⟩ :=
    startRead_eq { channel with srReadPaused := false }
  have reads := startRead_readInFlight
    { channel with srReadPaused := false }
  rw [started] at reads ⊢
  exact
    { closed := id
      bodyDone := rfl
      reads := fun isOpen => .inr ⟨paused, pending, rfl, reads isOpen⟩
      closing := fun _ => ⟨rfl, rfl⟩ }

theorem resumeReading_keeps : Keeps channel channel.resumeReading := by
  unfold resumeReading
  split
  · rename_i resumes
    obtain ⟨paused, pending⟩ :
        channel.srReadPaused = true ∧ channel.srBodyDone = false := by
      simpa using resumes
    exact resume_keeps channel paused pending
  · exact .refl channel

theorem resumeReadingIfDrained_keeps :
    Keeps channel channel.resumeReadingIfDrained := by
  unfold resumeReadingIfDrained
  split
  · rename_i resumes
    obtain ⟨⟨paused, pending⟩, _⟩ :
        (channel.srReadPaused = true ∧ channel.srBodyDone = false) ∧
          channel.srBufferedBytes ≤ lowWater := by
      simpa using resumes
    exact resume_keeps channel paused pending
  · exact .refl channel

theorem answerPull_keeps (answer : Option Bytes) :
    Keeps channel (channel.answerPull answer) :=
  .of_same rfl rfl rfl rfl rfl rfl

theorem run_keeps (program : Program World) :
    Keeps channel (channel.run program) := by
  induction program generalizing channel with
  | done => exact .refl channel
  | touch effect next ih =>
    apply Keeps.trans _ (ih _ _)
    exact .of_same rfl rfl rfl rfl rfl rfl
  | respond headers next ih =>
    exact (respond_keeps channel headers).trans (ih _)
  | write chunk next ih =>
    exact (writeStreamChunk_keeps channel chunk).trans (ih _)
  | closeStreaming next ih =>
    exact (closeStreaming_keeps channel).trans (ih _)
  | cancel generation next ih =>
    exact (cancelRequest_keeps channel generation).trans (ih _)
  | readBody callback next inner ih =>
    rw [run]
    apply Keeps.trans _ (ih _)
    split
    · exact (answerPull_keeps channel none).trans (inner [] true _)
    · split
      · apply Keeps.trans _ (resumeReadingIfDrained_keeps _)
        apply Keeps.trans _ (inner _ _ _)
        exact .of_same rfl rfl rfl rfl rfl rfl
      · split
        · exact (answerPull_keeps channel none).trans (inner [] true _)
        · apply Keeps.trans _ (resumeReading_keeps _)
          exact .of_same rfl rfl rfl rfl rfl rfl
  | sendRaw data next ih =>
    exact (writeRaw_keeps channel data).trans (ih _)
  | close next ih => exact (close_keeps channel).trans (ih _)

theorem deliverBodyChunk_keeps (data : Bytes) :
    Keeps channel (channel.deliverBodyChunk data) := by
  unfold deliverBodyChunk
  split
  · exact .refl channel
  · split
    · apply Keeps.trans _ (run_keeps _ _)
      exact .of_same rfl rfl rfl rfl rfl rfl
    · exact .of_same rfl rfl rfl rfl rfl rfl

theorem deliverBodyDone_keeps {channel : Channel World}
    (isOpen : channel.closed = false) :
    Keeps { channel with srBodyDone := true } channel.deliverBodyDone := by
  unfold deliverBodyDone
  rw [isOpen, if_neg Bool.false_ne_true]
  dsimp only
  split
  · apply Keeps.trans _ (run_keeps _ _)
    exact .of_same rfl rfl rfl rfl rfl rfl
  · exact .of_same rfl rfl rfl rfl rfl rfl

theorem onCallback_keeps (callback : Callback) :
    Keeps channel (channel.onCallback callback) := by
  unfold onCallback
  dsimp only
  split
  · split
    · apply Keeps.trans _ (deliverBodyChunk_keeps _ _)
      exact .of_same rfl rfl rfl rfl rfl rfl
    · exact .of_same rfl rfl rfl rfl rfl rfl
  · exact .of_same rfl rfl rfl rfl rfl rfl

theorem foldl_onCallback_keeps (callbacks : List Callback) :
    Keeps channel (callbacks.foldl onCallback channel) := by
  induction callbacks generalizing channel with
  | nil => exact .refl channel
  | cons callback callbacks ih =>
    exact (onCallback_keeps channel callback).trans (ih _)

end Channel

namespace Server

variable {llhttp : Llhttp} {Handler World : Type}
  (server : Server Handler World)

theorem receive_keeps (handler : Handler) (frame : WebSocketFrame)
    (channel : Channel World) :
    Keeps channel (server.receive handler frame channel) := by
  unfold receive
  split
  · exact Channel.writeRaw_keeps _ _
  · split
    · exact .refl channel
    · exact Channel.run_keeps _ _

theorem startStreaming_keeps (invocation : Invocation Handler)
    (conn : Http1Connection llhttp Handler World) :
    Keeps conn.toChannel
        (server.startStreaming invocation conn).toChannel ∧
      (server.startStreaming invocation conn).pendingData =
        conn.pendingData := by
  unfold startStreaming
  split
  · refine ⟨?_, rfl⟩
    apply Keeps.trans _ (Channel.run_keeps _ _)
    exact .of_same rfl rfl rfl rfl rfl rfl
  · exact ⟨Channel.run_keeps _ _, rfl⟩

end Server

end Libnei.Http1

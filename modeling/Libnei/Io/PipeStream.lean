import Libnei.Lib.Actions

/-!
# Reads of a pipe

`PipeInputStream::Impl` (`pipe_stream_posix.cpp`) with a consumer that may
call `ReadAsync` from inside its read callback.  The calls that have not
returned are the frames of a stack; an action continues the topmost one, and
the pump starts a new one when the stack is empty.  The tasks of the pump are
taken in any order; the stream is not closed.
-/

namespace Libnei.Io

open Lib

def kMaxBytesPerDrain : Nat := 64 * 1024

inductive PipeFrame
  /-- `OnFileCanReadWithoutBlocking`, behind the call of `DrainRead`. -/
  | pump
  | drain (bytesThisCycle : Nat)
  /-- The read callback; `DrainRead` does nothing more behind it. -/
  | callback (success : Bool) (bytes : Nat)
deriving DecidableEq

inductive ReadResult
  | bytes (count : Nat)
  | endOfFile
  | wouldBlock
  | failure
deriving DecidableEq

structure PipeInput where
  pendingLen : Nat := 0
  bytesRead : Nat := 0
  readInFlight : Bool := false
  /-- `pending_cb_` is set. -/
  pendingCallback : Bool := false
  calledFromPump : Bool := false
  watching : Bool := false
  continuations : Nat := 0
  postedResults : List (Bool × Nat) := []
  stack : List PipeFrame := []

inductive PipeAction
  | readAsync (len : Nat)
  | returnFromCallback
  | canRead
  | runContinuation
  | runResult
  | drainRead (result : ReadResult)
  | returnToPump
deriving DecidableEq

namespace PipeInput

variable (stream : PipeInput)

def readAsync (len : Nat) : PipeInput :=
  if stream.readInFlight then
    { stream with postedResults := stream.postedResults ++ [(false, 0)] }
  else
    { stream with
      pendingLen := len
      pendingCallback := true
      bytesRead := 0
      readInFlight := true
      watching := true
      stack := .drain 0 :: stream.stack }

def deliverReadResult (success : Bool) (bytes : Nat) (rest : List PipeFrame) :
    PipeInput :=
  let done :=
    { stream with
      readInFlight := false
      pendingCallback := false
      watching := false
      stack := rest }
  if !stream.pendingCallback then done
  else if stream.calledFromPump then
    { done with stack := .callback success bytes :: rest }
  else { done with postedResults := stream.postedResults ++ [(success, bytes)] }

/-- One turn of the loop of `DrainRead`, or what is behind it. -/
def drainRead (bytesThisCycle : Nat) (rest : List PipeFrame)
    (result : ReadResult) : Option PipeInput :=
  if stream.readInFlight ∧ stream.bytesRead < stream.pendingLen then
    if kMaxBytesPerDrain ≤ bytesThisCycle then
      some { stream with
        watching := true
        continuations := stream.continuations + 1
        stack := rest }
    else
      match result with
      | .bytes count =>
          if 0 < count ∧ count ≤ stream.pendingLen - stream.bytesRead then
            some { stream with
              bytesRead := stream.bytesRead + count
              stack := .drain (bytesThisCycle + count) :: rest }
          else none
      | .endOfFile =>
          some (stream.deliverReadResult (0 < stream.bytesRead)
            stream.bytesRead rest)
      | .wouldBlock =>
          if 0 < stream.bytesRead then
            some (stream.deliverReadResult true stream.bytesRead rest)
          else some { stream with watching := true, stack := rest }
      | .failure => some (stream.deliverReadResult false 0 rest)
  else if stream.pendingLen ≤ stream.bytesRead then
    some (stream.deliverReadResult true stream.bytesRead rest)
  else some { stream with stack := rest }

def step (stream : PipeInput) : PipeAction → Option PipeInput
  | .readAsync len =>
      match stream.stack with
      | [] | .callback _ _ :: _ => some (stream.readAsync len)
      | _ => none
  | .returnFromCallback =>
      match stream.stack with
      | .callback _ _ :: rest => some { stream with stack := rest }
      | _ => none
  | .canRead =>
      if stream.stack = [] ∧ stream.watching ∧ stream.readInFlight then
        some { stream with
          watching := false
          calledFromPump := true
          stack := [.drain 0, .pump] }
      else none
  | .runContinuation =>
      if stream.stack = [] ∧ 0 < stream.continuations then
        some { stream with
          continuations := stream.continuations - 1
          stack := [.drain 0] }
      else none
  | .runResult =>
      match stream.stack, stream.postedResults with
      | [], (success, bytes) :: later =>
          some { stream with
            postedResults := later
            stack := [.callback success bytes] }
      | _, _ => none
  | .drainRead result =>
      match stream.stack with
      | .drain bytesThisCycle :: rest =>
          stream.drainRead bytesThisCycle rest result
      | _ => none
  | .returnToPump =>
      match stream.stack with
      | .pump :: rest =>
          some { stream with calledFromPump := false, stack := rest }
      | _ => none

/-- The read callbacks that have not returned. -/
def activeCallbacks : Nat :=
  stream.stack.countP fun
    | .callback _ _ => true
    | _ => false

end PipeInput

/-- The turn of the loop that completes the read. -/
def Completes (stream : PipeInput) (result : ReadResult) : Prop :=
  stream.pendingLen ≤ stream.bytesRead ∨
    match result with
    | .bytes _ => False
    | .endOfFile | .failure => True
    | .wouldBlock => 0 < stream.bytesRead

instance (stream : PipeInput) (result : ReadResult) :
    Decidable (Completes stream result) := by
  cases result <;> unfold Completes <;> infer_instance

/-- A read that was issued inside of a callback of the pump is complete before
the callback returns. -/
def Nested (stream : PipeInput) : PipeAction → Prop
  | .drainRead result => stream.calledFromPump ∧
      0 < stream.activeCallbacks ∧ Completes stream result
  | _ => False

instance (stream : PipeInput) (action : PipeAction) :
    Decidable (Nested stream action) := by
  cases action <;> unfold Nested <;> infer_instance

/-! ## The stack -/

/-- What is below the calls of a stream: the flag says which it is. -/
inductive Base : Bool → List PipeFrame → Prop
  | none : Base false []
  | pump : Base true [.pump]

/-- The stacks without nested callbacks. -/
inductive Calm (stream : PipeInput) : Prop
  | idle (base : Base stream.calledFromPump stream.stack)
  | draining {cycle : Nat} {rest : List PipeFrame}
      (base : Base stream.calledFromPump rest)
      (stack : stream.stack = .drain cycle :: rest)
  | called {success : Bool} {bytes : Nat} {rest : List PipeFrame}
      (base : Base stream.calledFromPump rest)
      (stack : stream.stack = .callback success bytes :: rest)
  | inside {cycle bytes : Nat} {success : Bool} {rest : List PipeFrame}
      (base : Base stream.calledFromPump rest)
      (stack : stream.stack = .drain cycle :: .callback success bytes :: rest)

theorem deliverReadResult_stack (stream : PipeInput) (success : Bool)
    (bytes : Nat) (rest : List PipeFrame) :
    (stream.deliverReadResult success bytes rest).calledFromPump =
      stream.calledFromPump ∧
    ((stream.deliverReadResult success bytes rest).stack = rest ∨
      stream.calledFromPump = true ∧
        (stream.deliverReadResult success bytes rest).stack =
          .callback success bytes :: rest) := by
  unfold PipeInput.deliverReadResult
  dsimp only
  split
  · exact ⟨rfl, .inl rfl⟩
  · split
    case isTrue pump => exact ⟨rfl, .inr ⟨pump, rfl⟩⟩
    case isFalse => exact ⟨rfl, .inl rfl⟩

variable {result : ReadResult}

/-- A turn of the loop ends it, goes on, or completes the read and calls the
callback directly. -/
theorem drainRead_stack {stream next : PipeInput} {cycle : Nat}
    {rest : List PipeFrame}
    (drained : stream.drainRead cycle rest result = some next) :
    next.calledFromPump = stream.calledFromPump ∧
    (next.stack = rest ∨ (∃ cycle, next.stack = .drain cycle :: rest) ∨
      (stream.calledFromPump = true ∧ Completes stream result) ∧
        ∃ success bytes, next.stack = .callback success bytes :: rest) := by
  have deliver : Completes stream result → ∀ success bytes,
      stream.deliverReadResult success bytes rest = next →
      next.calledFromPump = stream.calledFromPump ∧
      (next.stack = rest ∨ (∃ cycle, next.stack = .drain cycle :: rest) ∨
        (stream.calledFromPump = true ∧ Completes stream result) ∧
          ∃ success bytes, next.stack = .callback success bytes :: rest) := by
    rintro completes success bytes rfl
    obtain ⟨flag, done | ⟨pump, called⟩⟩ :=
      deliverReadResult_stack stream success bytes rest
    · exact ⟨flag, .inl done⟩
    · exact ⟨flag, .inr (.inr ⟨⟨pump, completes⟩, _, _, called⟩)⟩
  unfold PipeInput.drainRead at drained
  split at drained
  · split at drained
    · cases drained
      exact ⟨rfl, .inl rfl⟩
    · cases result with
      | bytes count =>
        obtain ⟨-, ⟨⟩⟩ := Option.ite_none_right_eq_some.mp drained
        exact ⟨rfl, .inr (.inl ⟨_, rfl⟩)⟩
      | endOfFile => exact deliver (.inr trivial) _ _ (Option.some.inj drained)
      | wouldBlock =>
        dsimp only at drained
        split at drained
        case isTrue some =>
          exact deliver (.inr some) _ _ (Option.some.inj drained)
        case isFalse =>
          cases drained
          exact ⟨rfl, .inl rfl⟩
      | failure => exact deliver (.inr trivial) _ _ (Option.some.inj drained)
  · split at drained
    case isTrue all => exact deliver (.inl all) _ _ (Option.some.inj drained)
    case isFalse =>
      cases drained
      exact ⟨rfl, .inl rfl⟩

namespace Calm

variable {stream next : PipeInput}

theorem activeCallbacks_le_one (calm : Calm stream) :
    stream.activeCallbacks ≤ 1 := by
  have below : ∀ {flag rest}, Base flag rest → rest.countP (fun
      | PipeFrame.callback _ _ => true
      | _ => false) = 0 := by
    intro flag rest base
    cases base <;> rfl
  unfold PipeInput.activeCallbacks
  cases calm with
  | idle base => rw [below base]; exact Nat.zero_le 1
  | draining base stack => simp [stack, below base]
  | called base stack => simp [stack, below base]
  | inside base stack => simp [stack, below base]

theorem base_cases {flag : Bool} {stack : List PipeFrame}
    (base : Base flag stack) :
    flag = false ∧ stack = [] ∨ flag = true ∧ stack = [.pump] := by
  cases base with
  | none => exact .inl ⟨rfl, rfl⟩
  | pump => exact .inr ⟨rfl, rfl⟩

variable (calm : Calm stream)

include calm

theorem readAsync {len : Nat}
    (taken : stream.step (.readAsync len) = some next) : Calm next := by
  have reads : stream.readAsync len = next ∧ (stream.stack = [] ∨
      ∃ success bytes rest,
        stream.stack = .callback success bytes :: rest) := by
    unfold PipeInput.step at taken
    dsimp only at taken
    split at taken
    case h_1 empty => exact ⟨Option.some.inj taken, .inl empty⟩
    case h_2 called =>
      exact ⟨Option.some.inj taken, .inr ⟨_, _, _, called⟩⟩
    case h_3 => cases taken
  obtain ⟨rfl, top⟩ := reads
  unfold PipeInput.readAsync
  split
  · -- Another read is in flight: the stack stays as it is.
    cases calm with
    | idle base => exact .idle base
    | draining base stack => exact .draining base stack
    | called base stack => exact .called base stack
    | inside base stack => exact .inside base stack
  · cases calm with
    | idle base => exact .draining base rfl
    | called base stack => exact .inside base (congrArg _ stack)
    | draining base stack => simp [stack] at top
    | inside base stack => simp [stack] at top

theorem drainRead (quiet : ¬Nested stream (.drainRead result))
    (taken : stream.step (.drainRead result) = some next) : Calm next := by
  unfold PipeInput.step at taken
  cases calm with
  | idle base =>
    obtain ⟨-, stack⟩ | ⟨-, stack⟩ := base_cases base <;>
      simp [stack] at taken
  | called base stack => simp [stack] at taken
  | draining base stack =>
    simp only [stack] at taken
    obtain ⟨flag, done | ⟨cycle, more⟩ | ⟨-, success, bytes, called⟩⟩ :=
      drainRead_stack taken
    · exact .idle (by rwa [flag, done])
    · exact .draining (by rwa [flag]) more
    · exact .called (by rwa [flag]) called
  | inside base stack =>
    simp only [stack] at taken
    obtain ⟨flag, done | ⟨cycle, more⟩ | ⟨⟨pump, completes⟩, -⟩⟩ :=
      drainRead_stack taken
    · exact .called (by rwa [flag]) done
    · exact .inside (by rwa [flag]) more
    · have active : 0 < stream.activeCallbacks := by
        simp [PipeInput.activeCallbacks, stack]
      exact absurd ⟨pump, active, completes⟩ quiet

theorem base_of_nil (empty : stream.stack = []) :
    Base stream.calledFromPump [] := by
  cases calm with
  | idle base => rwa [empty] at base
  | draining base stack => simp [stack] at empty
  | called base stack => simp [stack] at empty
  | inside base stack => simp [stack] at empty

theorem step {action : PipeAction} (quiet : ¬Nested stream action)
    (taken : stream.step action = some next) : Calm next := by
  cases action with
  | readAsync len => exact calm.readAsync taken
  | drainRead result => exact calm.drainRead quiet taken
  | returnFromCallback =>
    unfold PipeInput.step at taken
    dsimp only at taken
    split at taken
    case h_1 top =>
      cases taken
      cases calm with
      | called base stack =>
        cases top.symm.trans stack
        exact .idle base
      | idle base =>
        obtain ⟨-, stack⟩ | ⟨-, stack⟩ := base_cases base <;>
          simp [stack] at top
      | draining base stack => simp [stack] at top
      | inside base stack => simp [stack] at top
    case h_2 => cases taken
  | canRead =>
    obtain ⟨-, ⟨⟩⟩ := Option.ite_none_right_eq_some.mp taken
    exact .draining .pump rfl
  | runContinuation =>
    obtain ⟨⟨stack, -⟩, ⟨⟩⟩ := Option.ite_none_right_eq_some.mp taken
    exact .draining (calm.base_of_nil stack) rfl
  | runResult =>
    unfold PipeInput.step at taken
    dsimp only at taken
    split at taken
    case h_1 stack _ =>
      cases taken
      exact .called (calm.base_of_nil stack) rfl
    case h_2 => cases taken
  | returnToPump =>
    unfold PipeInput.step at taken
    dsimp only at taken
    split at taken
    case h_1 top =>
      cases taken
      cases calm with
      | idle base =>
        obtain ⟨-, stack⟩ | ⟨-, stack⟩ := base_cases base
        · simp [stack] at top
        · cases top.symm.trans stack
          exact .idle .none
      | called base stack => simp [stack] at top
      | draining base stack => simp [stack] at top
      | inside base stack => simp [stack] at top
    case h_2 => cases taken

end Calm

/-- At most one read callback is active in every run in which no read that is
issued inside of a callback of the pump is complete before this returns. -/
theorem one_active_callback {actions : List PipeAction} {stream : PipeInput}
    (performed : perform PipeInput.step {} actions = some stream)
    (avoids : Avoids PipeInput.step Nested {} actions) :
    stream.activeCallbacks ≤ 1 :=
  (perform_avoiding (fun calm quiet taken => Calm.step calm quiet taken)
    performed avoids (Calm.idle .none)).activeCallbacks_le_one

/-- A read is issued inside of the callback of another one. -/
def readAgain : List PipeAction :=
  [.readAsync 4, .drainRead .wouldBlock, .canRead, .drainRead (.bytes 4),
    .drainRead .wouldBlock, .readAsync 4]

/-- The next read of a callback finds nothing and is left to the pump. -/
theorem one_active_callback_rearmed :
    ∃ stream, perform PipeInput.step {}
        (readAgain ++ [.drainRead .wouldBlock]) = some stream ∧
      stream.activeCallbacks ≤ 1 := by
  refine ⟨_, rfl, ?_⟩
  exact @one_active_callback (readAgain ++ [.drainRead .wouldBlock]) _ rfl
    (by decide +kernel)

/-- The next read of a callback is complete at once: its callback is called
inside of the first one. -/
theorem two_active_callbacks :
    (perform PipeInput.step {} (readAgain ++ [.drainRead (.bytes 4),
      .drainRead .wouldBlock])).map PipeInput.activeCallbacks = some 2 := by
  decide +kernel

end Libnei.Io

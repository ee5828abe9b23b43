import Libnei.Http1.Callbacks

/-!
# The HTTP/1 parser

`Http1Parser` (`http_parser.cpp`), a wrapper around llhttp.  llhttp itself is
a parameter: whatever it makes of a buffer, it makes callbacks, returns an
error code and leaves a state.
-/

namespace Libnei.Http1

/-- `llhttp_errno_t`, as far as `Execute` tells the codes apart. -/
inductive Errno
  | ok
  | paused
  | pausedUpgrade
  | pausedH2Upgrade
  | error (name : Bytes)
deriving DecidableEq

/-- What `llhttp_execute` does with a buffer.  The error position is counted
from the start of the buffer; it is a pointer that llhttp keeps, so it may
lie outside, or be null. -/
structure Execution (State : Type) where
  callbacks : List Callback
  errno : Errno
  errorPos : Option Int
  reason : Option Bytes
  state : State

structure Llhttp where
  State : Type
  init : State
  execute : State → Bytes → Execution State

/-- `Http1Parser::Impl`. -/
structure Http1Parser (llhttp : Llhttp) where
  state : llhttp.State
  messageComplete : Bool := false
  errorMsg : Bytes := []
  paused : Bool := false

namespace Http1Parser

variable {llhttp : Llhttp}

/-- `Reset`, which is how the parser is set up, too. -/
def reset (llhttp : Llhttp) : Http1Parser llhttp :=
  { state := llhttp.init }

/-- The callbacks made by `llhttp_execute`. -/
def callbacks (parser : Http1Parser llhttp) (data : Bytes) : List Callback :=
  (llhttp.execute parser.state data).callbacks

/-- The number of bytes that a paused parser reports as consumed. -/
def pausedAt (errorPos : Option Int) (length : Nat) : Int :=
  match errorPos with
  | some position =>
      if 0 ≤ position then
        if position ≤ length then position else length
      else 0
  | none => 0

/-- `Execute`, apart from the delegate's part in the callbacks: the bytes
consumed, or -1. -/
def execute (parser : Http1Parser llhttp) (data : Bytes) :
    Int × Http1Parser llhttp :=
  let execution := llhttp.execute parser.state data
  let parser' : Http1Parser llhttp :=
    { parser with
      state := execution.state
      messageComplete := parser.messageComplete ||
        execution.callbacks.contains .messageComplete }
  match execution.errno with
  | .ok => (data.length, parser')
  | .paused | .pausedUpgrade | .pausedH2Upgrade =>
      (pausedAt execution.errorPos data.length,
        { parser' with paused := true })
  | .error name =>
      (-1, { parser' with
        errorMsg := name ++ ascii ": " ++
          execution.reason.getD (ascii "unknown error") })

theorem pausedAt_bounds (errorPos : Option Int) (length : Nat) :
    0 ≤ pausedAt errorPos length ∧ pausedAt errorPos length ≤ length := by
  unfold pausedAt
  split
  · split
    · split <;> omega
    · omega
  · omega

/-- `Execute` fails or consumes no more than it was given. -/
theorem execute_consumed (parser : Http1Parser llhttp) (data : Bytes) :
    (parser.execute data).1 = -1 ∨ 0 ≤ (parser.execute data).1 ∧
        (parser.execute data).1 ≤ data.length := by
  have bounds := pausedAt_bounds
    (llhttp.execute parser.state data).errorPos data.length
  unfold execute
  dsimp only
  split
  · exact .inr ⟨Int.natCast_nonneg _, Int.le_refl _⟩
  · exact .inr bounds
  · exact .inr bounds
  · exact .inr bounds
  · exact .inl rfl

end Http1Parser

end Libnei.Http1

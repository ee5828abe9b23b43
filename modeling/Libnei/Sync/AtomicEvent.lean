import Libnei.Lib.Threads

/-!
# Events on one word

`AtomicEvent` on the single-word path of Linux.  Each atomic operation, each
`FUTEX_WAIT` with its check of the value and each `FUTEX_WAKE` is one step.
-/

namespace Libnei.Sync

open Lib

namespace AtomicEvent

/-- The word: `kSignaledBit`, `kBroadcastBit` and above them the number of
waiters in 30 bits. -/
structure Word where
  signaled : Bool := false
  broadcast : Bool := false
  waiters : Nat := 0
  deriving DecidableEq

namespace Word

def waiterLimit : Nat := 2 ^ 30

/-- `cur & (kSignaledBit | kBroadcastBit)`. -/
def hasBits (word : Word) : Bool :=
  word.signaled || word.broadcast

/-- `word & ~kParkMask`. -/
def masked (word : Word) : Word :=
  { word with signaled := false, broadcast := false }

/-- `fetch_add(kWaiterIncrement)`, where the carry is lost. -/
def addWaiter (word : Word) : Word :=
  { word with waiters := (word.waiters + 1) % waiterLimit }

/-- `fetch_sub(kWaiterIncrement)`. -/
def subWaiter (word : Word) : Word :=
  { word with waiters := (word.waiters + waiterLimit - 1) % waiterLimit }

theorem subWaiter_signaled (word : Word) :
    word.subWaiter.signaled = word.signaled := by
  rw [subWaiter]

theorem subWaiter_broadcast (word : Word) :
    word.subWaiter.broadcast = word.broadcast := by
  rw [subWaiter]

theorem subWaiter_hasBits (word : Word) :
    word.subWaiter.hasBits = word.hasBits := by
  rw [hasBits, subWaiter_signaled, subWaiter_broadcast, hasBits]

theorem subWaiter_waiters {word : Word} (some : 0 < word.waiters)
    (few : word.waiters < waiterLimit) :
    word.subWaiter.waiters = word.waiters - 1 := by
  rw [subWaiter, Nat.sub_add_comm some, Nat.add_mod_right]
  exact Nat.mod_eq_of_lt (by omega)

end Word

/-- A call of `Wait` or `TimedWait`, with the number of tokens that it has
consumed. -/
structure Call where
  timed : Bool
  tokens : Nat
  deriving DecidableEq

/-- Where a thread stands.  `cur` and `expected` are the variables of the
source. -/
inductive Pc
  | idle
  | signalLoad
  | signalCas (cur : Word)
  | signalWake
  | allLoad
  | allCas (cur : Word)
  | allWake
  | waitLoad (call : Call)
  | waitCas (call : Call) (cur : Word)
  | clock (call : Call)
  | spin (call : Call) (left : Nat)
  | register (call : Call)
  | park (call : Call) (expected : Word)
  | parked (call : Call)
  | unregister (call : Call) (woken : Bool)
  deriving DecidableEq

structure Outcome where
  result : Bool
  tokens : Nat
  deriving DecidableEq

/-- `queue` has the threads that sleep in the futex.  `registered` are the
threads between their `fetch_add` and their `fetch_sub`; the tokens that
`Signal` has set are numbered from zero. -/
structure Memory (Thread : Type) where
  word : Word := {}
  queue : List Thread := []
  registered : List Thread := []
  granted : Nat := 0
  consumed : List Nat := []
  returned : List Outcome := []
  deriving DecidableEq

variable {Thread : Type}

namespace Memory

def finish (memory : Memory Thread) (result : Bool) (tokens : Nat) :
    Memory Thread × Pc :=
  ({ memory with returned := ⟨result, tokens⟩ :: memory.returned }, .idle)

end Memory

/-- The calls, and the choices that a step leaves open: a weak exchange may
fail, the deadline may have passed, a wake picks a sleeper. -/
inductive Command (Thread : Type)
  | signal
  | signalAll
  | wait (timed : Bool)
  | run
  | exchange (fails : Bool)
  | look (expired : Bool)
  | wake (chosen : Option Thread)
  | interrupt
  | timeout
  deriving DecidableEq

def spinBeforeParkLoads : Nat := 16

/-- The top of the loop of `Signal`. -/
def signalTop (cur : Word) : Pc :=
  if cur.hasBits then .idle else .signalCas cur

variable [DecidableEq Thread]

def exec (me : Thread) (memory : Memory Thread) :
    Pc → Command Thread → Option (Memory Thread × Pc)
  | .idle, .signal => some (memory, .signalLoad)
  | .idle, .signalAll => some (memory, .allLoad)
  | .idle, .wait timed => some (memory, .waitLoad ⟨timed, 0⟩)
  | .signalLoad, .run => some (memory, signalTop memory.word)
  | .signalCas cur, .exchange fails =>
      if memory.word = cur ∧ ¬fails then
        some ({ memory with
          word := { cur with signaled := true }
          granted := memory.granted + 1 },
          if cur.waiters > 0 then .signalWake else .idle)
      else some (memory, signalTop memory.word)
  | .signalWake, .wake none =>
      if memory.queue = [] then some (memory, .idle) else none
  | .signalWake, .wake (some sleeper) =>
      if sleeper ∈ memory.queue then
        some ({ memory with
          queue := memory.queue.filter (· ≠ sleeper) }, .idle)
      else none
  | .allLoad, .run => some (memory, .allCas memory.word)
  | .allCas cur, .exchange fails =>
      if memory.word = cur ∧ ¬fails then
        some ({ memory with word := { cur with broadcast := true } },
          if cur.waiters > 0 then .allWake else .idle)
      else some (memory, .allLoad)
  | .allWake, .run => some ({ memory with queue := [] }, .idle)
  | .waitLoad call, .run =>
      if memory.word.broadcast then some (memory.finish true call.tokens)
      else if memory.word.signaled then
        some (memory, .waitCas call memory.word)
      else some (memory,
        if call.timed then .clock call else .spin call spinBeforeParkLoads)
  | .waitCas call cur, .exchange fails =>
      if memory.word = cur ∧ ¬fails then
        some ({ memory with
          word := { cur with signaled := false }
          consumed := (memory.granted - 1) :: memory.consumed }.finish true
            (call.tokens + 1))
      else some (memory, .waitLoad call)
  | .clock call, .look expired =>
      if expired then some (memory.finish false call.tokens)
      else some (memory, .spin call spinBeforeParkLoads)
  | .spin call 0, .run => some (memory, .register call)
  | .spin call (left + 1), .run =>
      some (memory,
        if memory.word.hasBits then .waitLoad call else .spin call left)
  | .register call, .run =>
      some ({ memory with
        word := memory.word.addWaiter
        registered := me :: memory.registered },
        .park call memory.word.addWaiter.masked)
  | .park call expected, .run =>
      if memory.word = expected then
        some ({ memory with queue := me :: memory.queue }, .parked call)
      else some (memory, .unregister call true)
  | .parked call, .run =>
      if me ∈ memory.queue then none else some (memory, .unregister call true)
  | .parked call, .interrupt =>
      if me ∈ memory.queue then
        some ({ memory with queue := memory.queue.filter (· ≠ me) },
          .unregister call true)
      else none
  | .parked call, .timeout =>
      if me ∈ memory.queue ∧ call.timed then
        some ({ memory with queue := memory.queue.filter (· ≠ me) },
          .unregister call false)
      else none
  | .unregister call woken, .run =>
      let memory := { memory with
        word := memory.word.subWaiter
        registered := memory.registered.erase me }
      if woken then some (memory, .waitLoad call)
      else some (memory.finish false call.tokens)
  | _, _ => none

abbrev State (Thread : Type) := Threads Thread (Memory Thread) Pc

def State.initial : State Thread := ⟨{}, fun _ => .idle⟩

def step : State Thread → Thread × Command Thread → Option (State Thread) :=
  Threads.step exec

/-! ## Places -/

namespace Pc

/-- Inside `Signal` or `SignalAll`. -/
def signals : Pc → Bool
  | signalLoad | signalCas _ | signalWake | allLoad | allCas _ | allWake =>
      true
  | _ => false

/-- Inside `Wait` or `TimedWait`. -/
def waits : Pc → Bool
  | waitLoad _ | waitCas .. | clock _ | spin .. | register _ | park .. |
    parked _ | unregister .. => true
  | _ => false

def isRegistered : Pc → Bool
  | park .. | parked _ | unregister .. => true
  | _ => false

/-- Before the `fetch_add`. -/
def registers : Pc → Bool
  | register _ => true
  | _ => false

/-- What the variables of a place say. -/
def Ok : Pc → Prop
  | signalCas cur => cur.hasBits = false
  | waitLoad call | clock call | spin call _ | register call | parked call |
    unregister call _ => call.tokens = 0
  | waitCas call cur =>
      call.tokens = 0 ∧ cur.signaled = true ∧ cur.broadcast = false
  | park call expected => call.tokens = 0 ∧ expected.hasBits = false
  | _ => True

end Pc

/-- A thread that will wake the sleepers, or that will see the token before it
leaves. -/
def Covers (memory : Memory Thread) (me : Thread) : Pc → Prop
  | .allWake => True
  | .signalWake | .waitLoad _ | .waitCas .. | .spin .. | .register _ |
    .park .. | .unregister _ true => memory.word.broadcast = false
  | .parked _ => memory.word.broadcast = false ∧ me ∉ memory.queue
  | _ => False

omit [DecidableEq Thread] in
theorem signalTop_ok (cur : Word) : (signalTop cur).Ok := by
  rw [signalTop]
  split
  · trivial
  · case isFalse clear => simpa [Pc.Ok] using clear

end AtomicEvent

end Libnei.Sync

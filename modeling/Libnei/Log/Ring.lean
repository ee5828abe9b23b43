import Libnei.Bytes
import Libnei.Lib.Threads

/-!
# The ring of the asynchronous log

The producers and the consumer of `log_runtime.c`.  A step is one atomic
operation; the plain copy into a slot, the processing of its event and a
critical section that does one such operation are one step each.  A wait by
spinning is a step that looks again; a wait on the condition variable ends
with a signal or, as POSIX allows it, by itself.  Positions do not wrap.

`reserved` has the event of every reserved position, `processed` the events
that were handed to `_nei_log_process_events`, and `released` counts the slots
that the consumer has given back.
-/

namespace Libnei.Log

open Lib

def eventBufferSize : Nat := 8192

/-- The default of `NEI_LOG_RING_SLOTS`. -/
def ringSlots : Nat := 256

/-- `data` holds the `size` valid bytes. -/
structure Slot where
  state : Bool
  data : Bytes
  publishedSeq : Nat

inductive Actor (Thread : Type)
  | consumer
  | producer (thread : Thread)
  deriving DecidableEq

/-- The mutex, which is held from step to step by the consumer only, and the
threads on the condition variable. -/
structure Monitor (Thread : Type) where
  locked : Bool
  consumerSleeping : Bool
  waiters : List (Actor Thread)

structure Ring (Thread : Type) where
  slots : Nat → Slot
  writePos : Nat
  consumerPos : Nat
  committedPos : Nat
  monitor : Monitor Thread
  reserved : List Bytes
  processed : List Bytes
  released : Nat

/-- The calls of `_nei_log_ring_has_ready_slot`: at the head of the waiting
loop, with the mark of a sleeper set, and behind a drain. -/
inductive Place
  | entry
  | recheck
  | retry
  deriving DecidableEq

/-- Where the consumer is outside of `_nei_log_drain_ring`. -/
inductive Pause
  | locking
  | looking (place : Place)
  | peeking (place : Place)
  | dozing
  | falling
  | asleep
  | waking
  | rising
  | unlocking
  | notifying
  deriving DecidableEq

/-- Where a producer is in `_nei_log_enqueue_event` or `nei_log_flush`, or the
consumer in its loop.  Whoever is `blocked` or `awaiting` has gone to the
condition variable. -/
inductive Control
  | idle
  | waiting (pos : Nat) (event : Bytes)
  | blocked (pos : Nat) (event : Bytes)
  | filling (pos : Nat) (event : Bytes)
  | marking (pos : Nat)
  | publishing (pos : Nat)
  | advancing
  | comparing (committed : Nat)
  | swapping (committed : Nat)
  | hinting
  | signalling
  | sampling
  | flushing (target : Nat)
  | awaiting (target : Nat)
  | pausing (pause : Pause)
  | loading (drained : Bool)
  | probing (drained : Bool) (pos : Nat)
  | processing (pos : Nat)
  | releasing (pos : Nat)
  | stepping (pos : Nat)
  deriving DecidableEq

/-- `posts` are the positions that the thread has reserved. -/
structure Party where
  control : Control
  posts : List Nat

/-- `sync` is an operation on the mutex, the condition variable or the mark of
the sleeping consumer, and `woken` the choice of `pthread_cond_signal`; `rouse`
ends a wait without a signal. -/
inductive Command
  | enqueue (event : Bytes)
  | flush
  | go
  | sync (woken : Nat)
  | rouse
  deriving DecidableEq

section Exec

variable {Thread : Type}

def Ring.slot (ring : Ring Thread) (size pos : Nat) : Slot :=
  ring.slots (pos % size)

def Ring.setSlot (ring : Ring Thread) (size pos : Nat) (slot : Slot) :
    Ring Thread :=
  { ring with slots := Function.update ring.slots (pos % size) slot }

def Party.goto (party : Party) (control : Control) : Party :=
  { party with control }

variable (size : Nat) (ring : Ring Thread) (party : Party)

/-- The part of `_nei_log_enqueue_event` up to the reservation. -/
def reserve (event : Bytes) : Ring Thread × Party :=
  if event.length = 0 ∨ event.length > eventBufferSize then (ring, party)
  else
    let pos := ring.writePos
    ({ ring with
        writePos := pos + 1
        reserved := ring.reserved ++ [event] },
      ⟨.waiting pos event, party.posts ++ [pos]⟩)

/-- The next operation on the ring of a thread that is in a call or in its
loop. -/
def execGo : Control → Option (Ring Thread × Party)
  -- `_nei_log_enqueue_event` behind the reservation
  | .waiting pos event =>
      some (ring, party.goto (if (ring.slot size pos).state then
        .waiting pos event else .filling pos event))
  | .filling pos event =>
      some (ring.setSlot size pos { ring.slot size pos with data := event },
        party.goto (.marking pos))
  | .marking pos =>
      some (ring.setSlot size pos { ring.slot size pos with state := true },
        party.goto (.publishing pos))
  | .publishing pos =>
      some (ring.setSlot size pos
          { ring.slot size pos with publishedSeq := pos + 1 },
        party.goto .advancing)
  -- `_nei_log_advance_committed_pos`
  | .advancing => some (ring, party.goto (.comparing ring.committedPos))
  | .comparing committed =>
      some (ring, party.goto
        (if (ring.slot size committed).publishedSeq = committed + 1 then
          .swapping committed else .hinting))
  | .swapping committed =>
      some (if ring.committedPos = committed then
          { ring with committedPos := committed + 1 } else ring,
        party.goto .advancing)
  -- `nei_log_flush`
  | .sampling =>
      some (ring, party.goto (if ring.committedPos = 0 then .idle
        else .flushing ring.committedPos))
  | .flushing target =>
      some (ring, party.goto (if ring.consumerPos ≥ target then .idle
        else .flushing target))
  -- `_nei_log_drain_ring`
  | .loading drained =>
      some (ring, party.goto (.probing drained ring.consumerPos))
  | .probing drained pos =>
      some (ring, party.goto (if (ring.slot size pos).state then
        .processing pos else
          .pausing (if drained then .looking .retry else .locking)))
  | .processing pos =>
      some ({ ring with
          processed := ring.processed ++ [(ring.slot size pos).data] },
        party.goto (.releasing pos))
  | .releasing pos =>
      some ({ ring.setSlot size pos
            { ring.slot size pos with state := false } with
          released := ring.released + 1 },
        party.goto (.stepping pos))
  | .stepping pos =>
      some ({ ring with consumerPos := pos + 1 }, party.goto (.loading true))
  | _ => none

/-! ## Sleeping and waking -/

/-- The answers of `_nei_log_ring_has_ready_slot`. -/
def Place.ready : Place → Pause
  | .entry => .unlocking
  | .recheck => .rising
  | .retry => .locking

def Place.unready : Place → Pause
  | .entry => .dozing
  | .recheck => .falling
  | .retry => .notifying

/-- `pthread_cond_signal` wakes one of the waiters. -/
def Monitor.signal (monitor : Monitor Thread) (woken : Nat) : Monitor Thread :=
  { monitor with
    waiters := monitor.waiters.eraseIdx (woken % monitor.waiters.length) }

/-- The critical section of `_nei_log_signal_consumer_if_sleeping`. -/
def Monitor.signalConsumer (monitor : Monitor Thread) (woken : Nat) :
    Monitor Thread :=
  if monitor.consumerSleeping then monitor.signal woken else monitor

variable (me : Actor Thread)

def Monitor.wait (monitor : Monitor Thread) : Monitor Thread :=
  { monitor with waiters := me :: monitor.waiters }

/-- The loops around `pthread_cond_wait` of a producer and of a flush. -/
def waitForSlot (pos : Nat) (event : Bytes) : Monitor Thread × Control :=
  if (ring.slot size pos).state then
    (ring.monitor.wait me, .blocked pos event)
  else (ring.monitor, .waiting pos event)

def waitForTarget (monitor : Monitor Thread) (target : Nat) :
    Monitor Thread × Control :=
  if ring.consumerPos ≥ target then (monitor, .idle)
  else (monitor.wait me, .awaiting target)

variable [DecidableEq Thread]

/-- The thread gets the mutex. -/
def Monitor.enter {α : Type} (monitor : Monitor Thread) (next : α) : Option α :=
  if monitor.locked ∨ me ∈ monitor.waiters then none else some next

/-- `_nei_log_consumer_thread` around the drain. -/
def execPause (pause : Pause) : Option (Monitor Thread × Control) :=
  let monitor := ring.monitor
  match pause with
  | .locking =>
      monitor.enter me ({ monitor with locked := true },
        .pausing (.looking .entry))
  | .looking place =>
      some (monitor, .pausing (if ring.consumerPos ≥ ring.writePos then
        place.unready else .peeking place))
  | .peeking place =>
      some (monitor, .pausing (if (ring.slot size ring.consumerPos).state then
        place.ready else place.unready))
  | .dozing =>
      some ({ monitor with consumerSleeping := true },
        .pausing (.looking .recheck))
  | .falling =>
      some ({ monitor.wait me with locked := false }, .pausing .asleep)
  | .asleep =>
      monitor.enter me ({ monitor with locked := true }, .pausing .waking)
  | .waking =>
      some ({ monitor with consumerSleeping := false },
        .pausing (.looking .entry))
  | .rising =>
      some ({ monitor with consumerSleeping := false }, .pausing .unlocking)
  | .unlocking => some ({ monitor with locked := false }, .loading false)
  -- `_nei_log_notify_waiters_after_drain`
  | .notifying =>
      monitor.enter me ({ monitor with waiters := [] }, .pausing .locking)

def execSync (woken : Nat) : Control → Option (Monitor Thread × Control)
  | .waiting pos event | .blocked pos event =>
      ring.monitor.enter me (waitForSlot size ring me pos event)
  | .hinting =>
      some (ring.monitor,
        if ring.monitor.consumerSleeping then .signalling else .idle)
  | .signalling =>
      ring.monitor.enter me (ring.monitor.signalConsumer woken, .idle)
  | .flushing target =>
      ring.monitor.enter me
        (waitForTarget ring me (ring.monitor.signalConsumer woken) target)
  | .awaiting target =>
      ring.monitor.enter me (waitForTarget ring me ring.monitor target)
  | .pausing pause => execPause size ring me pause
  | _ => none

def exec : Command → Option (Ring Thread × Party)
  | .enqueue event =>
      match party.control with
      | .idle => some (reserve ring party event)
      | _ => none
  | .flush =>
      match party.control with
      | .idle => some (ring, party.goto .sampling)
      | _ => none
  | .go => execGo size ring party party.control
  | .sync woken =>
      (execSync size ring me woken party.control).map fun next =>
        ({ ring with monitor := next.1 }, party.goto next.2)
  | .rouse =>
      if me ∈ ring.monitor.waiters then
        some ({ ring with
          monitor := { ring.monitor with
            waiters := ring.monitor.waiters.filter (· ≠ me) } }, party)
      else none

end Exec

variable {Thread : Type}

abbrev LogState (Thread : Type) := Threads (Actor Thread) (Ring Thread) Party

def LogState.start : LogState Thread where
  memory := ⟨fun _ => ⟨false, [], 0⟩, 0, 0, 0, ⟨false, false, []⟩, [], [], 0⟩
  threads := fun
    | .consumer => ⟨.pausing .locking, []⟩
    | .producer _ => ⟨.idle, []⟩

section Step

variable [DecidableEq Thread]

def step (size : Nat) : LogState Thread → Actor Thread × Command →
    Option (LogState Thread) :=
  Threads.step fun me ring party => exec size ring party me

theorem step_cases {motive : LogState Thread → Prop} {size : Nat}
    {state next : LogState Thread} {me : Actor Thread} {command : Command}
    (taken : step size state (me, command) = some next)
    (enqueue : ∀ event, (state.threads me).control = .idle →
      motive (state.become me (reserve state.memory (state.threads me) event).1
        (reserve state.memory (state.threads me) event).2))
    (flush : (state.threads me).control = .idle →
      motive (state.become me state.memory
        ((state.threads me).goto .sampling)))
    (go : ∀ {ring party}, command = .go → execGo size state.memory
        (state.threads me) (state.threads me).control = some (ring, party) →
      motive (state.become me ring party))
    (sync : ∀ {woken monitor control}, command = .sync woken →
      execSync size state.memory me woken (state.threads me).control =
        some (monitor, control) →
      motive (state.become me { state.memory with monitor }
        ((state.threads me).goto control)))
    (rouse : me ∈ state.memory.monitor.waiters →
      motive (state.become me { state.memory with
          monitor := { state.memory.monitor with
            waiters := state.memory.monitor.waiters.filter (· ≠ me) } }
        (state.threads me))) :
    motive next := by
  obtain ⟨ring, party, executed, rfl⟩ := Threads.step_eq_some taken
  cases command with
  | enqueue event =>
    dsimp only [exec] at executed
    split at executed
    case h_2 => cases executed
    case h_1 idle =>
      have reserved := enqueue event idle
      rwa [Option.some.inj executed] at reserved
  | flush =>
    dsimp only [exec] at executed
    split at executed
    case h_2 => cases executed
    case h_1 idle =>
      cases executed
      exact flush idle
  | go => exact go rfl executed
  | sync woken =>
    obtain ⟨_, synced, ⟨⟩⟩ := Option.map_eq_some_iff.mp executed
    exact sync rfl synced
  | rouse =>
    obtain ⟨waits, ⟨⟩⟩ := Option.ite_none_right_eq_some.mp executed
    exact rouse waits

end Step

/-! ## What can go wrong -/

/-- The position that the thread has reserved but not marked. -/
def Control.pending : Control → Option Nat
  | .waiting pos _ | .blocked pos _ | .filling pos _ | .marking pos =>
      some pos
  | _ => none

/-- The position that the thread has reserved but not published. -/
def Control.unpublished : Control → Option Nat
  | .waiting pos _ | .blocked pos _ | .filling pos _ | .marking pos
  | .publishing pos => some pos
  | _ => none

/-- The thread is about to move the committed position. -/
def Control.advances : Control → Bool
  | .advancing | .comparing _ | .swapping _ => true
  | _ => false

/-- What the flush of the thread waits for. -/
def Control.target : Control → Option Nat
  | .flushing target | .awaiting target => some target
  | _ => none

/-- The position that the thread waits to take. -/
def Control.awaited : Control → Option Nat
  | .waiting pos _ => some pos
  | _ => none

/-- The position that the thread publishes with its next operation. -/
def Control.published : Control → Option Nat
  | .publishing pos => some pos
  | _ => none

def Command.woken : Command → Option Nat
  | .sync woken => some woken
  | _ => none

section

variable (size : Nat) (state : LogState Thread)
  (action : Actor Thread × Command)

/-- A producer takes its slot although the consumer has not given back the
slot of the lap before. -/
abbrev Overtakes : Prop :=
  action.2 = .go ∧ ∃ pos ∈ (state.threads action.1).control.awaited,
    (state.memory.slot size pos).state = false ∧
      state.memory.released + size ≤ pos

/-- A producer stores its sequence number over one that is not counted yet. -/
abbrev Overwrites : Prop :=
  ∃ pos ∈ (state.threads action.1).control.published,
    state.memory.committedPos + size ≤ pos

/-- A producer signals the sleeping consumer and wakes another waiter. -/
abbrev Misses : Prop :=
  (state.threads action.1).control = .signalling ∧
    ∃ woken ∈ action.2.woken,
      .consumer ∈ (state.memory.monitor.signal woken).waiters

/-- A flush takes its target while some thread has not published a position
in front of one of the caller, or is about to move the committed position. -/
abbrev Races : Prop :=
  (state.threads action.1).control = .sampling ∧
    ∃ actor, (state.threads actor).control.advances = true ∨
      ∃ earlier ∈ (state.threads actor).control.unpublished,
        ∃ pos ∈ (state.threads action.1).posts, earlier < pos

end

instance [Fintype Thread] : Fintype (Actor Thread) where
  elems := .cons .consumer
    (.map ⟨.producer, fun _ _ => Actor.producer.inj⟩ .univ) (by simp)
  complete := fun actor => by
    cases actor with
    | consumer => exact Finset.mem_cons_self ..
    | producer thread =>
        exact Finset.mem_cons_of_mem
          (Finset.mem_map_of_mem _ (Finset.mem_univ thread))

theorem Monitor.enter_eq_some [DecidableEq Thread] {me : Actor Thread}
    {monitor : Monitor Thread} {α : Type} {next result : α} :
    monitor.enter me next = some result ↔
      (monitor.locked = false ∧ me ∉ monitor.waiters) ∧ next = result := by
  unfold Monitor.enter
  rw [Option.ite_none_left_eq_some, Option.some_inj, not_or, Bool.not_eq_true]

/-! ## Slots -/

namespace Ring

variable (ring : Ring Thread) (size pos : Nat) (slot : Slot)

@[simp]
theorem slot_setSlot_self : (ring.setSlot size pos slot).slot size pos = slot :=
  Function.update_self ..

theorem slot_setSlot_of_eq {other : Nat} (same : other % size = pos % size) :
    (ring.setSlot size pos slot).slot size other = slot := by
  rw [Ring.slot, same]
  exact ring.slot_setSlot_self size pos slot

theorem slot_setSlot_of_ne {other : Nat}
    (different : other % size ≠ pos % size) :
    (ring.setSlot size pos slot).slot size other = ring.slot size other :=
  Function.update_of_ne different ..

/-- What a store keeps of its slot it keeps of all slots. -/
theorem view_setSlot {View : Type} (view : Slot → View)
    (kept : view slot = view (ring.slot size pos)) (other : Nat) :
    view ((ring.setSlot size pos slot).slot size other) =
      view (ring.slot size other) := by
  by_cases same : other % size = pos % size
  · rw [ring.slot_setSlot_of_eq size pos slot same, kept, Ring.slot, Ring.slot,
      same]
  · rw [ring.slot_setSlot_of_ne size pos slot same]

theorem marked_setSlot (marked : slot.state = true) {other : Nat}
    (before : (ring.slot size other).state = true) :
    ((ring.setSlot size pos slot).slot size other).state = true := by
  by_cases same : other % size = pos % size
  · rw [ring.slot_setSlot_of_eq size pos slot same, marked]
  · rw [ring.slot_setSlot_of_ne size pos slot same, before]

end Ring

end Libnei.Log

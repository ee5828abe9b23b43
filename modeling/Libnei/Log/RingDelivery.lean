import Libnei.Log.RingCommit

/-!
# The consumer wakes up

The consumer sets its mark before it looks at the ring for the last time and
goes to sleep, and a producer looks at the mark behind its slot.  So, as long
as no signal for the consumer goes to another waiter, a producer is on its way
to a consumer that sleeps in front of a marked slot.  When all of them have
arrived, the consumer by itself processes what stands in front of the first
position that is not marked.
-/

namespace Libnei.Log

open Lib

variable {Thread : Type} {size : Nat}

/-- The thread has marked its slot and not yet come to its signal. -/
def Control.heads : Control → Bool
  | .publishing _ | .advancing | .comparing _ | .swapping _ | .hinting
  | .signalling => true
  | _ => false

/-- The consumer holds the mutex. -/
def Control.locks : Control → Bool
  | .pausing (.looking place) | .pausing (.peeking place) => place ≠ .retry
  | .pausing .dozing | .pausing .falling | .pausing .waking
  | .pausing .rising | .pausing .unlocking => true
  | _ => false

/-- The consumer has set its mark. -/
def Control.naps : Control → Bool
  | .pausing (.looking .recheck) | .pausing (.peeking .recheck)
  | .pausing .falling | .pausing .asleep => true
  | _ => false

abbrev LogState.ready (size : Nat) (state : LogState Thread) : Prop :=
  (state.memory.slot size state.memory.consumerPos).state = true

structure Attentive (size : Nat) (state : LogState Thread) : Prop where
  locked : state.memory.monitor.locked = (state.threads .consumer).control.locks
  sleeping : (state.threads .consumer).control.naps = true →
    state.memory.monitor.consumerSleeping = true
  asleep : .consumer ∈ state.memory.monitor.waiters →
    (state.threads .consumer).control = .pausing .asleep
  noticed : (state.threads .consumer).control = .pausing .falling ∨
      .consumer ∈ state.memory.monitor.waiters →
    state.ready size → ∃ actor, (state.threads actor).control.heads = true

variable [DecidableEq Thread] {state : LogState Thread} {me : Actor Thread}
  {ring' : Ring Thread} {control : Control}

section

variable (attentive : Attentive size state)

include attentive

omit [DecidableEq Thread] in
theorem Attentive.not_waiting
    (at' : (state.threads .consumer).control = control)
    (awake : control ≠ .pausing .asleep) :
    .consumer ∉ state.memory.monitor.waiters := by
  intro waits
  rw [attentive.asleep waits] at at'
  exact awake at'.symm

omit [DecidableEq Thread] in
theorem Attentive.sleeping_of_waiting
    (waits : .consumer ∈ state.memory.monitor.waiters) :
    state.memory.monitor.consumerSleeping = true := by
  apply attentive.sleeping
  rw [attentive.asleep waits]
  rfl

/-! ## The steps of the others -/

variable {party' : Party} {monitor : Monitor Thread} {woken : Nat}

section Aside

variable (notMe : me ≠ .consumer)
  (locked : ring'.monitor.locked = state.memory.monitor.locked)
  (sleeping : ring'.monitor.consumerSleeping =
    state.memory.monitor.consumerSleeping)
  (waiters : .consumer ∈ ring'.monitor.waiters →
    .consumer ∈ state.memory.monitor.waiters)

include notMe locked sleeping waiters

theorem Attentive.other
    (noticed : (state.threads .consumer).control = .pausing .falling ∨
        .consumer ∈ ring'.monitor.waiters →
      (ring'.slot size ring'.consumerPos).state = true →
      party'.control.heads = true ∨
        state.ready size ∧ (state.threads me).control.heads = false) :
    Attentive size (state.become me ring' party') := by
  have kept := state.become_of_ne notMe.symm ring' party'
  constructor
  · rw [kept, Threads.become_memory, locked]
    exact attentive.locked
  · rw [kept, Threads.become_memory, sleeping]
    exact attentive.sleeping
  · rw [kept]
    exact fun waits => attentive.asleep (waiters waits)
  · rw [kept]
    intro sleeps ready
    rcases noticed sleeps ready with mine | ⟨before, aside⟩
    · refine ⟨me, ?_⟩
      rw [Threads.become_self]
      exact mine
    · obtain ⟨actor, heads⟩ :=
        attentive.noticed (sleeps.imp_right waiters) before
      refine ⟨actor, ?_⟩
      rw [Threads.become_of_ne]
      · exact heads
      · rintro rfl
        rw [aside] at heads
        cases heads

/-- A step that leaves the next slot alone and forgets no signal. -/
theorem Attentive.aside
    (slots : (ring'.slot size ring'.consumerPos).state =
      (state.memory.slot size state.memory.consumerPos).state)
    (heads : (state.threads me).control.heads = true →
      party'.control.heads = true) :
    Attentive size (state.become me ring' party') := by
  refine attentive.other notMe locked sleeping waiters fun _ ready => ?_
  by_cases mine : (state.threads me).control.heads = true
  · exact .inl (heads mine)
  · exact .inr ⟨slots.symm.trans ready, eq_false_of_ne_true mine⟩

end Aside

theorem Attentive.produce (ordered : Ordered size state)
    (other : me ≠ .consumer)
    (executed : execGo size state.memory (state.threads me)
      (state.threads me).control = some (ring', party')) :
    Attentive size (state.become me ring' party') := by
  have producer := ordered.drains_of_ne other
  generalize at' : (state.threads me).control = control
    at executed producer
  cases control with
  | waiting | sampling | flushing =>
    cases executed
    exact attentive.aside other rfl rfl id rfl (by rw [at']; nofun)
  | filling pos event =>
    cases executed
    refine attentive.aside other rfl rfl id ?_ (by rw [at']; nofun)
    exact state.memory.view_setSlot size pos
      { state.memory.slot size pos with data := event }
      (fun slot => slot.state) rfl state.memory.consumerPos
  | marking | publishing | advancing =>
    cases executed
    exact attentive.other other rfl rfl id fun _ _ => .inl rfl
  | comparing | swapping =>
    cases executed
    split <;> exact attentive.other other rfl rfl id fun _ _ => .inl rfl
  | loading | probing | processing | releasing | stepping => cases producer
  | _ => cases executed

omit [DecidableEq Thread] attentive in
theorem mem_of_mem_signalConsumer {actor : Actor Thread}
    (waits : actor ∈ (monitor.signalConsumer woken).waiters) :
    actor ∈ monitor.waiters := by
  unfold Monitor.signalConsumer at waits
  split at waits
  · exact List.mem_of_mem_eraseIdx waits
  · exact waits

omit [DecidableEq Thread] attentive in
theorem locked_signalConsumer (monitor : Monitor Thread) (woken : Nat) :
    (monitor.signalConsumer woken).locked = monitor.locked ∧
      (monitor.signalConsumer woken).consumerSleeping =
        monitor.consumerSleeping := by
  unfold Monitor.signalConsumer
  split <;> exact ⟨rfl, rfl⟩

theorem Attentive.signal (other : me ≠ .consumer)
    (signalling : (state.threads me).control = .signalling)
    (hit : ¬Misses state (me, .sync woken))
    (free : state.memory.monitor.locked = false) (posts : List Nat) :
    Attentive size (state.become me
      { state.memory with
        monitor := state.memory.monitor.signalConsumer woken }
      ⟨.idle, posts⟩) := by
  obtain ⟨locked, sleeping⟩ :=
    locked_signalConsumer state.memory.monitor woken
  refine attentive.other other locked sleeping mem_of_mem_signalConsumer ?_
  rintro (falling | waits) -
  · rw [attentive.locked, falling] at free
    cases free
  · have sleeps := attentive.sleeping_of_waiting
      (mem_of_mem_signalConsumer waits)
    unfold Monitor.signalConsumer at waits
    rw [if_pos sleeps] at waits
    exact absurd ⟨signalling, woken, rfl, waits⟩ hit

theorem Attentive.syncOther (ordered : Ordered size state)
    (other : me ≠ .consumer) (hit : ¬Misses state (me, .sync woken))
    (synced : execSync size state.memory me woken
      (state.threads me).control = some (monitor, control)) :
    Attentive size (state.become me { state.memory with monitor }
      ((state.threads me).goto control)) := by
  have producer := ordered.drains_of_ne other
  have still : ∀ {monitor' : Monitor Thread},
      .consumer ∈ (monitor'.wait me).waiters → .consumer ∈ monitor'.waiters :=
    fun waits => List.mem_of_ne_of_mem other.symm waits
  generalize at' : (state.threads me).control = before at synced producer
  cases before with
  | waiting pos event | blocked pos event =>
    have taken := (Monitor.enter_eq_some.mp synced).2
    unfold waitForSlot at taken
    split at taken <;> cases taken
    · exact attentive.aside other rfl rfl still rfl (by rw [at']; nofun)
    · exact attentive.aside other rfl rfl id rfl (by rw [at']; nofun)
  | hinting =>
    cases synced
    by_cases sleeps : state.memory.monitor.consumerSleeping = true
    · rw [if_pos sleeps]
      exact attentive.other other rfl rfl id fun _ _ => .inl rfl
    · refine attentive.other other rfl rfl id ?_
      rintro (falling | waits) -
      · exact absurd (attentive.sleeping (by rw [falling]; rfl)) sleeps
      · exact absurd (attentive.sleeping_of_waiting waits) sleeps
  | signalling =>
    obtain ⟨⟨free, -⟩, taken⟩ := Monitor.enter_eq_some.mp synced
    cases taken
    exact attentive.signal other at' hit free _
  | flushing target =>
    have taken := (Monitor.enter_eq_some.mp synced).2
    obtain ⟨locked, sleeping⟩ :=
      locked_signalConsumer state.memory.monitor woken
    unfold waitForTarget at taken
    split at taken <;> cases taken
    · exact attentive.aside other locked sleeping mem_of_mem_signalConsumer
        rfl (by rw [at']; nofun)
    · exact attentive.aside other locked sleeping
        (mem_of_mem_signalConsumer ∘ still) rfl (by rw [at']; nofun)
  | awaiting target =>
    have taken := (Monitor.enter_eq_some.mp synced).2
    unfold waitForTarget at taken
    split at taken <;> cases taken
    · exact attentive.aside other rfl rfl id rfl (by rw [at']; nofun)
    · exact attentive.aside other rfl rfl still rfl (by rw [at']; nofun)
  | pausing pause => cases producer
  | _ => cases synced

/-! ## The steps of the consumer -/

omit attentive in
theorem attentive_awake (locked : ring'.monitor.locked = party'.control.locks)
    (sleeping : party'.control.naps = true →
      ring'.monitor.consumerSleeping = true)
    (awake : .consumer ∉ ring'.monitor.waiters)
    (unready : party'.control = .pausing .falling →
      (ring'.slot size ring'.consumerPos).state = false) :
    Attentive size (state.become .consumer ring' party') := by
  constructor
  · rw [Threads.become_self]
    exact locked
  · rw [Threads.become_self]
    exact sleeping
  · exact fun waits => absurd waits awake
  · rw [Threads.become_self]
    rintro (falling | waits) ready
    · cases (unready falling).symm.trans ready
    · exact absurd waits awake

theorem Attentive.drain
    (executed : execGo size state.memory (state.threads .consumer)
      (state.threads .consumer).control = some (ring', party'))
    (drains : (state.threads .consumer).control.drains = true) :
    Attentive size (state.become .consumer ring' party') := by
  have locked := attentive.locked
  generalize at' : (state.threads .consumer).control = control
    at executed drains locked
  have awake : control ≠ .pausing .asleep →
      .consumer ∉ state.memory.monitor.waiters := attentive.not_waiting at'
  cases control with
  | loading | processing | releasing | stepping =>
    cases executed
    exact attentive_awake locked nofun (awake nofun) nofun
  | probing drained pos =>
    cases executed
    split
    · exact attentive_awake locked nofun (awake nofun) nofun
    · cases drained <;>
        exact attentive_awake locked nofun (awake nofun) nofun
  | pausing => cases executed
  | _ => cases drains

omit [DecidableEq Thread] attentive in
theorem Ordered.unready (ordered : Ordered size state) (positive : 0 < size)
    (here : state.memory.consumerPos = state.memory.released)
    (late : state.memory.writePos ≤ state.memory.consumerPos) :
    (state.memory.slot size state.memory.consumerPos).state = false := by
  apply eq_false_of_ne_true
  intro ready
  rw [here] at ready late
  have found := ordered.sound.item_next positive ready
  have below := (List.getElem?_eq_some_iff.mp found).1
  have count := ordered.count
  exact absurd (count ▸ below) (Nat.not_lt_of_le late)

theorem Attentive.fall
    (falling : (state.threads .consumer).control = .pausing .falling)
    (posts : List Nat) :
    Attentive size (state.become .consumer
      { state.memory with
        monitor := { state.memory.monitor.wait .consumer with
          locked := false } }
      ⟨.pausing .asleep, posts⟩) := by
  constructor
  · rw [Threads.become_self]
    rfl
  · exact fun _ => attentive.sleeping (by rw [falling]; rfl)
  · rw [Threads.become_self]
    exact fun _ => rfl
  · intro _ ready
    obtain ⟨actor, heads⟩ := attentive.noticed (.inl falling) ready
    refine ⟨actor, ?_⟩
    rw [Threads.become_of_ne]
    · exact heads
    · rintro rfl
      rw [falling] at heads
      cases heads

theorem Attentive.pause (ordered : Ordered size state) (positive : 0 < size)
    {pause : Pause} (at' : (state.threads .consumer).control = .pausing pause)
    (executed : execPause size state.memory .consumer pause =
      some (monitor, control)) :
    Attentive size (state.become .consumer { state.memory with monitor }
      ((state.threads .consumer).goto control)) := by
  have locked := attentive.locked
  have sleeping := attentive.sleeping
  have holds := ordered.holds .consumer
  have awake := attentive.not_waiting at'
  rw [at'] at locked sleeping holds
  cases pause with
  | locking | asleep =>
    obtain ⟨⟨-, out⟩, taken⟩ := Monitor.enter_eq_some.mp executed
    cases taken
    exact attentive_awake rfl nofun out nofun
  | notifying =>
    cases (Monitor.enter_eq_some.mp executed).2
    exact attentive_awake locked nofun List.not_mem_nil nofun
  | looking place =>
    cases executed
    split
    case isTrue late =>
      have unready := ordered.unready positive holds.1 late
      cases place <;>
        exact attentive_awake locked sleeping (awake nofun) fun _ => unready
    case isFalse =>
      cases place <;>
        exact attentive_awake locked sleeping (awake nofun) nofun
  | peeking place =>
    cases executed
    split
    case isTrue =>
      cases place <;> exact attentive_awake locked nofun (awake nofun) nofun
    case isFalse unmarked =>
      have unready := eq_false_of_ne_true unmarked
      cases place <;>
        exact attentive_awake locked sleeping (awake nofun) fun _ => unready
  | dozing =>
    cases executed
    exact attentive_awake locked (fun _ => rfl) (awake nofun) nofun
  | falling =>
    cases executed
    exact attentive.fall at' _
  | waking | rising =>
    cases executed
    exact attentive_awake locked nofun (awake nofun) nofun
  | unlocking =>
    cases executed
    exact attentive_awake rfl nofun (awake nofun) nofun

end

theorem step_attentive {next : LogState Thread}
    {action : Actor Thread × Command} (positive : 0 < size)
    (ordered : Ordered size state) (attentive : Attentive size state)
    (hit : ¬Misses state action)
    (taken : step size state action = some next) : Attentive size next := by
  obtain ⟨me, command⟩ := action
  have drains := (ordered.seat .consumer).mpr rfl
  have producer : (state.threads me).control = .idle → me ≠ .consumer := by
    rintro idle rfl
    rw [idle] at drains
    cases drains
  refine step_cases taken (fun event idle => ?_) (fun idle => ?_)
    (fun _ executed => ?_) ?_ fun waits => ?_
  · unfold reserve
    split
    · exact attentive.aside (producer idle) rfl rfl id rfl id
    · exact attentive.aside (producer idle) rfl rfl id rfl
        (by rw [idle]; nofun)
  · exact attentive.aside (producer idle) rfl rfl id rfl (by rw [idle]; nofun)
  · by_cases consumer : me = .consumer
    · subst consumer
      exact attentive.drain executed drains
    · exact attentive.produce ordered consumer executed
  · rintro woken monitor after rfl synced
    by_cases consumer : me = .consumer
    · subst consumer
      generalize at' : (state.threads .consumer).control = control
        at synced drains
      cases control with
      | pausing pause => exact attentive.pause ordered positive at' synced
      | loading | probing | processing | releasing | stepping => cases synced
      | _ => cases drains
    · exact attentive.syncOther ordered consumer hit synced
  · by_cases consumer : me = .consumer
    · subst consumer
      refine attentive_awake attentive.locked attentive.sleeping (by simp) ?_
      rw [attentive.asleep waits]
      nofun
    · exact attentive.aside consumer rfl rfl List.mem_of_mem_filter rfl id

/-! ## Draining -/

/-- How far the consumer is from the next event it gives back. -/
def Control.rank : Control → Nat
  | .pausing (.looking .retry) => 11
  | .pausing (.peeking .retry) => 10
  | .pausing .notifying | .pausing .asleep | .pausing .dozing => 9
  | .pausing .locking | .pausing .waking | .pausing (.looking .recheck) => 8
  | .pausing (.looking .entry) | .pausing (.peeking .recheck) => 7
  | .pausing (.peeking .entry) | .pausing .rising => 6
  | .pausing .unlocking | .stepping _ => 5
  | .loading _ => 4
  | .probing _ _ => 3
  | .processing _ => 2
  | .releasing _ => 1
  | _ => 0

def lag (ring : Ring Thread) (control : Control) : Nat :=
  5 * (ring.writePos - ring.released) + control.rank

omit [DecidableEq Thread] in
theorem Control.Holds.released_le {ring : Ring Thread}
    (holds : control.Holds size ring) (drains : control.drains = true) :
    ring.released ≤ ring.processed.length := by
  cases control with
  | pausing | loading => exact Nat.le_of_eq holds.2.symm
  | probing | stepping => exact Nat.le_of_eq holds.2.2.symm
  | processing => exact Nat.le_of_eq holds.2.2.1.symm
  | releasing =>
    rw [holds.2.2.1]
    exact Nat.le_succ _
  | _ => cases drains

theorem Control.apart_of_drains (drains : control.drains = true) :
    control.pending = none ∧ control.heads = false ∧
      control.awaited = none := by
  cases control with
  | pausing | loading | probing | processing | releasing | stepping =>
    exact ⟨rfl, rfl, rfl⟩
  | _ => cases drains

/-- One operation of the consumer outside of the drain, with an event to
come and nobody who has still to signal it. -/
theorem execPause_moves {pause : Pause} (attentive : Attentive size state)
    (settled : ∀ actor, (state.threads actor).control.heads = false)
    (at' : (state.threads .consumer).control = .pausing pause)
    (more : state.memory.consumerPos < state.memory.writePos)
    (ready : state.ready size) :
    ∃ monitor control', execPause size state.memory .consumer pause =
        some (monitor, control') ∧
      control'.rank < (Control.pausing pause).rank := by
  have alert : ¬((state.threads .consumer).control = .pausing .falling ∨
      .consumer ∈ state.memory.monitor.waiters) := by
    intro sleeps
    obtain ⟨actor, heads⟩ := attentive.noticed sleeps ready
    rw [settled actor] at heads
    cases heads
  have locked := attentive.locked
  rw [at'] at locked alert
  obtain ⟨up, awake⟩ := not_or.mp alert
  cases pause with
  | locking | asleep | notifying =>
    exact ⟨_, _, Monitor.enter_eq_some.mpr ⟨⟨locked, awake⟩, rfl⟩,
      Nat.lt_succ_self _⟩
  | looking place =>
    refine ⟨_, _, rfl, ?_⟩
    rw [if_neg (Nat.not_le_of_lt more)]
    cases place <;> exact Nat.lt_succ_self _
  | peeking place =>
    refine ⟨_, _, rfl, ?_⟩
    rw [if_pos ready]
    cases place <;> decide
  | falling => exact absurd rfl up
  | dozing | waking | rising | unlocking =>
    exact ⟨_, _, rfl, Nat.lt_succ_self _⟩

theorem exec_moves (attentive : Attentive size state)
    (ordered : Ordered size state)
    (settled : ∀ actor, (state.threads actor).control.heads = false)
    (more : state.memory.released < state.memory.writePos)
    (marked : (state.memory.slot size state.memory.released).state = true) :
    ∃ command ring' control',
      exec size state.memory (state.threads .consumer) .consumer command =
        some (ring', (state.threads .consumer).goto control') ∧
      ring'.reserved = state.memory.reserved ∧
      ring'.writePos = state.memory.writePos ∧
      lag ring' control' <
        lag state.memory (state.threads .consumer).control := by
  have holds := ordered.holds .consumer
  have drains := (ordered.seat .consumer).mpr rfl
  unfold lag
  generalize at' : (state.threads .consumer).control = control
    at holds drains ⊢
  have goes : ∀ {ring' control'}, execGo size state.memory
      (state.threads .consumer) control =
        some (ring', (state.threads .consumer).goto control') →
      exec size state.memory (state.threads .consumer) .consumer .go =
        some (ring', (state.threads .consumer).goto control') := by
    rw [← at']
    exact id
  cases control with
  | pausing pause =>
    obtain ⟨here, -⟩ := holds
    rw [← here] at more marked
    obtain ⟨monitor, control', executed, less⟩ :=
      execPause_moves attentive settled at' more marked
    refine ⟨.sync 0, { state.memory with monitor }, control', ?_, rfl, rfl,
      Nat.add_lt_add_left less _⟩
    unfold exec
    dsimp only
    rw [at']
    exact congrArg (Option.map _) executed
  | loading drained | processing pos | stepping pos =>
    exact ⟨.go, _, _, goes rfl, rfl, rfl, Nat.lt_succ_self _⟩
  | probing drained pos =>
    obtain ⟨rfl, -⟩ := holds
    refine ⟨.go, _, _, goes rfl, rfl, rfl, ?_⟩
    rw [if_pos marked]
    exact Nat.lt_succ_self _
  | releasing pos =>
    refine ⟨.go, _, _, goes rfl, rfl, rfl, ?_⟩
    show 5 * (state.memory.writePos - (state.memory.released + 1)) + 5 <
      5 * (state.memory.writePos - state.memory.released) + 1
    omega
  | _ => cases drains

omit [DecidableEq Thread] in
/-- Where the next slot is not marked, everything in front of the first
position that is not marked is processed. -/
theorem Ordered.lt_processed (ordered : Ordered size state)
    (unmarked : (state.memory.slot size state.memory.released).state ≠ true)
    {pos : Nat} (below : pos < state.memory.writePos)
    (unclaimed : ∀ earlier ≤ pos, ∀ actor, state.pending actor ≠ some earlier) :
    pos < state.memory.processed.length := by
  have released := (ordered.holds .consumer).released_le
    ((ordered.seat .consumer).mpr rfl)
  by_contra more
  have behind := released.trans (Nat.le_of_not_lt more)
  apply unmarked
  refine ordered.sound.flag_next (unclaimed _ behind) ?_
  exact ordered.count ▸ Nat.lt_of_le_of_lt behind below

/-- What the consumer keeps while it drains the ring. -/
structure Settled (size : Nat) (state : LogState Thread) : Prop where
  ordered : Ordered size state
  attentive : Attentive size state
  calm : ∀ actor, (state.threads actor).control.heads = false

theorem Settled.move (positive : 0 < size) (settled : Settled size state)
    (marked : (state.memory.slot size state.memory.released).state = true) :
    ∃ command next, step size state (.consumer, command) = some next ∧
      Settled size next ∧
      next.memory.reserved = state.memory.reserved ∧
      next.memory.writePos = state.memory.writePos ∧
      next.pending = state.pending ∧
      lag next.memory (next.threads .consumer).control <
        lag state.memory (state.threads .consumer).control := by
  obtain ⟨ordered, attentive, calm⟩ := settled
  have found := ordered.sound.item_next positive marked
  have more := (List.getElem?_eq_some_iff.mp found).1
  obtain ⟨command, ring', control', executed, reserved, writePos, less⟩ :=
    exec_moves attentive ordered calm (ordered.count ▸ more) marked
  have taken : step size state (.consumer, command) = some (state.become
      .consumer ring' ((state.threads .consumer).goto control')) :=
    Threads.step_of_exec executed
  obtain ⟨free, -, unawaited⟩ :=
    Control.apart_of_drains ((ordered.seat .consumer).mpr rfl)
  have later := step_ordered positive ordered (by
    rintro ⟨-, pos, awaited, -⟩
    cases unawaited.symm.trans awaited) taken
  have still := step_attentive positive ordered attentive (by
    rintro ⟨signalling, -⟩
    cases (congrArg Control.heads signalling).symm.trans (calm .consumer))
    taken
  have drains := (later.seat .consumer).mpr rfl
  rw [Threads.become_self] at drains
  obtain ⟨nothing, quiet, -⟩ := Control.apart_of_drains drains
  refine ⟨command, _, taken, ⟨later, still, ?_⟩, reserved, writePos, ?_, ?_⟩
  · exact Threads.forall_become
      (fun _ (party : Party) => party.control.heads = false) calm quiet
  · rw [pending_become, nothing, ← free,
      show (state.threads .consumer).control.pending =
        state.pending .consumer from rfl, Function.update_eq_self]
  · rw [Threads.become_self]
    exact less

theorem Settled.drain (positive : 0 < size) (settled : Settled size state) :
    ∃ (commands : List Command) (drained : LogState Thread),
      perform (step size) state (commands.map (Prod.mk .consumer)) =
        some drained ∧
      drained.memory.processed <+: state.memory.reserved ∧
      ∀ pos < state.memory.writePos,
        (∀ earlier ≤ pos, ∀ actor, state.pending actor ≠ some earlier) →
        pos < drained.memory.processed.length := by
  -- The induction is on the lag; each operation of the consumer lowers it.
  induction measured : lag state.memory (state.threads .consumer).control
    using Nat.strongRecOn generalizing state with
  | ind measure ih =>
    by_cases marked : (state.memory.slot size state.memory.released).state
    case neg =>
      exact ⟨[], state, rfl, settled.ordered.delivered,
        fun pos => settled.ordered.lt_processed marked⟩
    case pos =>
      obtain ⟨command, next, taken, later, reserved, writePos, pending,
        less⟩ := settled.move positive marked
      obtain ⟨commands, drained, ran, order, all⟩ :=
        ih _ (measured ▸ less) later rfl
      rw [reserved] at order
      rw [writePos, pending] at all
      refine ⟨command :: commands, drained, ?_, order, all⟩
      rw [List.map_cons, perform_of_step taken]
      exact ran

/-- A call that finds a free slot and commits no position but its own. -/
def enqueueCall (me : Actor Thread) (event : Bytes) :
    List (Actor Thread × Command) :=
  (me, .enqueue event) :: List.replicate 9 (me, .go) ++
    List.replicate 2 (me, .sync 0)

end Libnei.Log

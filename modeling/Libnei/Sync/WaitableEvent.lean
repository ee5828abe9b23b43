import Libnei.Lib.Threads

/-!
# Waitable events

`WaitableEvent` on POSIX.  A manual-reset event has a flag under a mutex and
an eventfd that wakes the waiters, an auto-reset event has a flag under a
mutex and a condition variable.  Each system call is a step, and each lock
section that has none.
-/

namespace Libnei.Sync.WaitableEvent

open Lib

inductive ResetPolicy
  | automatic
  | manual
  deriving DecidableEq

inductive Pc
  | idle
  /-- `Signal` of a manual event before its `write`. -/
  | writing
  /-- The loop of `Reset` of a manual event. -/
  | draining
  /-- Before the lock section of a wait that looks at the flag. -/
  | check (timed expired : Bool)
  /-- In `poll`, or in the wait of the condition variable. -/
  | asleep (timed : Bool)
  /-- `TimedWait` of a manual event behind `poll`. -/
  | recheck
  deriving DecidableEq

/-- `signaled` is the flag of either policy, `manualMutex` the owner of the
mutex between two steps.  `sleepers` wait for a notification, `signals` counts
the calls of `Signal`, `returned` has the results of the waits. -/
structure Memory (Thread : Type) where
  resetPolicy : ResetPolicy
  signaled : Bool
  eventFd : Nat
  manualMutex : Option Thread := none
  sleepers : List Thread := []
  signals : Nat := 0
  returned : List Bool := []
  deriving DecidableEq

variable {Thread : Type}

def Memory.finish (memory : Memory Thread) (result : Bool) :
    Memory Thread × Pc :=
  ({ memory with returned := result :: memory.returned }, .idle)

/-- The calls, and the choices that a step leaves open: `notify_one` picks a
sleeper, a wait may end early or, in `TimedWait`, at its deadline. -/
inductive Command (Thread : Type)
  | signal (chosen : Option Thread)
  | reset
  | wait (timed : Bool)
  | run
  | rouse (expired : Bool)
  deriving DecidableEq

variable [DecidableEq Thread]

namespace Manual

/-- A lock section, where the mutex is free. -/
def locked (memory : Memory Thread) (outcome : Memory Thread × Pc) :
    Option (Memory Thread × Pc) :=
  if memory.manualMutex = none then some outcome else none

def exec (me : Thread) (memory : Memory Thread) :
    Pc → Command Thread → Option (Memory Thread × Pc)
  | .idle, .signal _ =>
      let counted := { memory with signals := memory.signals + 1 }
      locked memory (if memory.signaled then (counted, .idle)
        else ({ counted with signaled := true, manualMutex := me }, .writing))
  | .writing, .run =>
      -- it does not block: the counter is far from its maximum
      some ({ memory with
        eventFd := memory.eventFd + 1, manualMutex := none }, .idle)
  | .idle, .reset =>
      locked memory
        ({ memory with signaled := false, manualMutex := me }, .draining)
  | .draining, .run =>
      if 0 < memory.eventFd then
        some ({ memory with eventFd := 0 }, .draining)
      else some ({ memory with manualMutex := none }, .idle)
  | .idle, .wait timed => some (memory, .check timed false)
  | .check timed _, .run =>
      locked memory (if memory.signaled then memory.finish true
        else (memory, .asleep timed))
  | .asleep timed, .run =>
      if 0 < memory.eventFd then
        some (memory, if timed then .recheck else .check false false)
      else none
  | .asleep timed, .rouse _ =>
      some (if timed then memory.finish false else (memory, .check timed false))
  | .recheck, .run => locked memory (memory.finish memory.signaled)
  | _, _ => none

end Manual

namespace Automatic

def exec (me : Thread) (memory : Memory Thread) :
    Pc → Command Thread → Option (Memory Thread × Pc)
  | .idle, .signal none =>
      if memory.sleepers = [] then
        some ({ memory with
          signaled := true, signals := memory.signals + 1 }, .idle)
      else none
  | .idle, .signal (some sleeper) =>
      if sleeper ∈ memory.sleepers then
        some ({ memory with
          signaled := true
          sleepers := memory.sleepers.filter (· ≠ sleeper)
          signals := memory.signals + 1 }, .idle)
      else none
  | .idle, .reset => some ({ memory with signaled := false }, .idle)
  | .idle, .wait timed => some (memory, .check timed false)
  | .check timed expired, .run =>
      if memory.signaled then
        some ({ memory with signaled := false }.finish true)
      else if expired then some (memory.finish false)
      else some ({ memory with sleepers := me :: memory.sleepers },
        .asleep timed)
  | .asleep timed, .run =>
      if me ∈ memory.sleepers then none else some (memory, .check timed false)
  | .asleep timed, .rouse expired =>
      if expired → timed then
        some ({ memory with sleepers := memory.sleepers.filter (· ≠ me) },
          .check timed expired)
      else none
  | _, _ => none

end Automatic

def exec (me : Thread) (memory : Memory Thread) :
    Pc → Command Thread → Option (Memory Thread × Pc) :=
  match memory.resetPolicy with
  | .manual => Manual.exec me memory
  | .automatic => Automatic.exec me memory

abbrev State (Thread : Type) := Threads Thread (Memory Thread) Pc

def step : State Thread → Thread × Command Thread → Option (State Thread) :=
  Threads.step exec

/-- The constructor. -/
def start (resetPolicy : ResetPolicy) (initiallySignaled : Bool) :
    State Thread where
  memory :=
    { resetPolicy
      signaled := initiallySignaled
      eventFd := if resetPolicy = .manual ∧ initiallySignaled then 1 else 0 }
  threads _ := .idle

/-! ## Invariants -/

/-- The owner of the mutex knows the flag and the eventfd. -/
def Manual.Knows (memory : Memory Thread) (thread : Thread) : Pc → Prop
  | .writing => memory.manualMutex = some thread ∧
      memory.signaled = true ∧ memory.eventFd = 0
  | .draining => memory.manualMutex = some thread ∧ memory.signaled = false
  | _ => memory.manualMutex ≠ some thread

/-- The flag and the eventfd agree where the mutex is free. -/
structure ManualSound (state : State Thread) : Prop where
  policy : state.memory.resetPolicy = .manual
  knows : ∀ thread, Manual.Knows state.memory thread (state.threads thread)
  free : state.memory.manualMutex = none →
    state.memory.eventFd = state.memory.signaled.toNat

/-- A waiter that will look at the flag before it sleeps again. -/
def Awake (memory : Memory Thread) (thread : Thread) : Pc → Prop
  | .check .. => True
  | .asleep _ => thread ∉ memory.sleepers
  | _ => False

/-- While the flag is set, a waiter is awake or nobody sleeps; each token was
set by a signal and is taken once. -/
structure AutomaticSound (initially : Bool) (state : State Thread) :
    Prop where
  policy : state.memory.resetPolicy = .automatic
  sleeping : ∀ thread ∈ state.memory.sleepers, ∃ timed,
    state.threads thread = .asleep timed
  awake : state.memory.signaled = true → state.memory.sleepers = [] ∨
    ∃ thread, Awake state.memory thread (state.threads thread)
  tokens : state.memory.returned.count true + state.memory.signaled.toNat ≤
    state.memory.signals + initially.toNat

section Step

variable {state next : State Thread} {action : Thread × Command Thread}
  {me : Thread} {command : Command Thread} {memory : Memory Thread}
  {current pc : Pc} {initially : Bool}

/-- A step outside the mutex leaves the flag and the eventfd alone. -/
theorem ManualSound.aside {signals : Nat} {returned : List Bool}
    (sound : ManualSound state) (mine : Manual.Knows state.memory me pc) :
    ManualSound (state.become me
      { state.memory with signals, returned } pc) :=
  ⟨sound.policy,
    Threads.forall_become (Manual.Knows _) sound.knows mine, sound.free⟩

/-- A step of the only thread that has the mutex, or takes it. -/
theorem ManualSound.change (sound : ManualSound state)
    (before : ∀ other, state.memory.manualMutex = some other → other = me)
    (behind : ∀ other, memory.manualMutex = some other → other = me)
    (policy : memory.resetPolicy = state.memory.resetPolicy)
    (mine : Manual.Knows memory me pc)
    (free : memory.manualMutex = none →
      memory.eventFd = memory.signaled.toNat) :
    ManualSound (state.become me memory pc) := by
  refine ⟨policy.trans sound.policy, fun other => ?_, free⟩
  by_cases same : other = me
  · rwa [same, Threads.become_self]
  · rw [Threads.become_of_ne state same]
    have knows := sound.knows other
    cases place : state.threads other <;> rw [place] at knows
    case writing => exact absurd (before other knows.1) same
    case draining => exact absurd (before other knows.1) same
    all_goals exact fun owned => same (behind other owned)

theorem ManualSound.exec (sound : ManualSound state)
    (executed : Manual.exec me state.memory (state.threads me) command =
      some (memory, pc)) :
    ManualSound (state.become me memory pc) := by
  have takes : state.memory.manualMutex = none → ∀ other,
      state.memory.manualMutex = some other → other = me :=
    fun free other owned => nomatch free.symm.trans owned
  have owns : ∀ {mutex : Option Thread}, mutex = some me → ∀ other,
      mutex = some other → other = me :=
    fun mine other owned => Option.some.inj (owned.symm.trans mine)
  have knows := sound.knows me
  generalize state.threads me = current at executed knows
  cases current with
  | idle =>
    cases command with
    | signal chosen =>
      obtain ⟨free, outcome⟩ := Option.ite_none_right_eq_some.mp executed
      split at outcome <;> cases outcome
      · exact sound.aside knows
      · next unset =>
        refine sound.change (takes free) (owns rfl) rfl ⟨rfl, rfl, ?_⟩ nofun
        exact (sound.free free).trans (by simp [unset])
    | reset =>
      obtain ⟨free, ⟨⟩⟩ := Option.ite_none_right_eq_some.mp executed
      exact sound.change (takes free) (owns rfl) rfl ⟨rfl, rfl⟩ nofun
    | wait timed =>
      cases executed
      exact sound.aside knows
    | _ => cases executed
  | writing =>
    obtain ⟨mine, set, empty⟩ := knows
    cases command <;> cases executed
    refine sound.change (owns mine) nofun rfl nofun fun _ => ?_
    simp [set, empty]
  | draining =>
    obtain ⟨mine, unset⟩ := knows
    cases command with
    | run =>
      rw [Manual.exec] at executed
      split at executed <;> cases executed
      · exact sound.change (owns mine) (owns mine) rfl ⟨mine, unset⟩
          fun free => nomatch free.symm.trans mine
      · next drained =>
        refine sound.change (owns mine) nofun rfl nofun fun _ => ?_
        simpa [unset] using drained
    | _ => cases executed
  | check timed expired =>
    cases command with
    | run =>
      obtain ⟨free, outcome⟩ := Option.ite_none_right_eq_some.mp executed
      split at outcome <;> cases outcome <;> exact sound.aside knows
    | _ => cases executed
  | asleep timed =>
    cases command with
    | run =>
      obtain ⟨readable, ⟨⟩⟩ := Option.ite_none_right_eq_some.mp executed
      exact sound.aside (by cases timed <;> exact knows)
    | rouse expired =>
      cases timed <;> cases executed <;> exact sound.aside knows
    | _ => cases executed
  | recheck =>
    cases command with
    | run =>
      obtain ⟨free, ⟨⟩⟩ := Option.ite_none_right_eq_some.mp executed
      exact sound.aside knows
    | _ => cases executed

theorem ManualSound.step (sound : ManualSound state)
    (taken : step state action = some next) : ManualSound next := by
  obtain ⟨memory, pc, executed, rfl⟩ := Threads.step_eq_some taken
  unfold WaitableEvent.exec at executed
  rw [sound.policy] at executed
  exact sound.exec executed

/-- Nobody falls asleep at a set flag. -/
theorem AutomaticSound.change (sound : AutomaticSound initially state)
    (policy : memory.resetPolicy = state.memory.resetPolicy)
    (sleeping : ∀ thread ∈ memory.sleepers,
      thread ∈ state.memory.sleepers ∧ thread ≠ me ∨
        thread = me ∧ ∃ timed, pc = .asleep timed)
    (awake : memory.signaled = true → memory.sleepers = [] ∨
      ∃ thread, Awake memory thread
        ((state.become me memory pc).threads thread))
    (tokens : memory.returned.count true + memory.signaled.toNat ≤
      memory.signals + initially.toNat) :
    AutomaticSound initially (state.become me memory pc) := by
  refine ⟨policy.trans sound.policy, fun thread member => ?_, awake, tokens⟩
  obtain ⟨before, other⟩ | ⟨rfl, asleep⟩ := sleeping thread member
  · rw [Threads.become_of_ne state other]
    exact sound.sleeping thread before
  · rwa [Threads.become_self]

omit [DecidableEq Thread] in
theorem AutomaticSound.not_asleep (sound : AutomaticSound initially state)
    (place : state.threads me = pc) (up : ∀ timed, pc ≠ .asleep timed) :
    me ∉ state.memory.sleepers := by
  intro member
  obtain ⟨timed, asleep⟩ := sound.sleeping me member
  exact up timed (place.symm.trans asleep)

variable (sound : AutomaticSound initially state)

include sound

theorem AutomaticSound.exec
    (executed : Automatic.exec me state.memory (state.threads me) command =
      some (memory, pc)) :
    AutomaticSound initially (state.become me memory pc) := by
  have tokens := sound.tokens
  have kept : me ∉ state.memory.sleepers → ∀ thread ∈ state.memory.sleepers,
      thread ∈ state.memory.sleepers ∧ thread ≠ me ∨
        thread = me ∧ ∃ timed, pc = .asleep timed := by
    intro up thread member
    exact .inl ⟨member, ne_of_mem_of_not_mem member up⟩
  -- a thread in front of its look at the flag is awake
  have looks : ∀ {memory : Memory Thread} timed expired,
      pc = .check timed expired → memory.signaled = true →
        memory.sleepers = [] ∨ ∃ thread, Awake memory thread
          ((state.become me memory pc).threads thread) := by
    rintro memory timed expired rfl -
    refine .inr ⟨me, ?_⟩
    rw [Threads.become_self]
    trivial
  generalize place : state.threads me = current at executed
  cases current with
  | idle =>
    have up := sound.not_asleep place nofun
    cases command with
    | signal chosen =>
      cases chosen with
      | none =>
        obtain ⟨nobody, ⟨⟩⟩ := Option.ite_none_right_eq_some.mp executed
        refine sound.change rfl (kept up) (fun _ => .inl nobody) ?_
        simp only [Bool.toNat_true]
        omega
      | some sleeper =>
        obtain ⟨asleep, ⟨⟩⟩ := Option.ite_none_right_eq_some.mp executed
        refine sound.change rfl
          (fun thread member => kept up thread (List.mem_of_mem_filter member))
          (fun _ => .inr ⟨sleeper, ?_⟩) ?_
        · obtain ⟨timed, here⟩ := sound.sleeping sleeper asleep
          rw [Threads.become_of_ne state (ne_of_mem_of_not_mem asleep up),
            here]
          simp [Awake]
        · simp only [Bool.toNat_true]
          omega
    | reset =>
      cases executed
      refine sound.change rfl (kept up) nofun ?_
      simp only [Bool.toNat_false]
      omega
    | wait timed =>
      cases executed
      exact sound.change rfl (kept up) (looks timed false rfl) tokens
    | _ => cases executed
  | check timed expired =>
    have up := sound.not_asleep place nofun
    cases command with
    | run =>
      rw [Automatic.exec] at executed
      split at executed
      · next set =>
        cases executed
        refine sound.change rfl (kept up) nofun ?_
        simp [set] at tokens ⊢
        omega
      · next unset =>
        split at executed <;> cases executed
        · exact sound.change rfl (kept up) (absurd · unset)
            (by simpa using tokens)
        · refine sound.change rfl ?_ (absurd · unset) tokens
          intro thread member
          obtain rfl | before := List.mem_cons.mp member
          · exact .inr ⟨rfl, timed, rfl⟩
          · exact .inl ⟨before, ne_of_mem_of_not_mem before up⟩
    | _ => cases executed
  | asleep timed =>
    cases command with
    | run =>
      obtain ⟨up, ⟨⟩⟩ := Option.ite_none_left_eq_some.mp executed
      exact sound.change rfl (kept up) (looks timed false rfl) tokens
    | rouse expired =>
      obtain ⟨-, ⟨⟩⟩ := Option.ite_none_right_eq_some.mp executed
      refine sound.change rfl ?_ (looks timed expired rfl) tokens
      intro thread member
      obtain ⟨before, other⟩ := List.mem_filter.mp member
      exact .inl ⟨before, of_decide_eq_true other⟩
    | _ => cases executed
  | _ => cases executed

theorem AutomaticSound.step (taken : step state action = some next) :
    AutomaticSound initially next := by
  obtain ⟨memory, pc, executed, rfl⟩ := Threads.step_eq_some taken
  unfold WaitableEvent.exec at executed
  rw [sound.policy] at executed
  exact sound.exec executed

end Step

/-! ## No lost wake-up -/

/-- These threads run on, and one of them returns `true` from its wait. -/
def Returns (state : State Thread) (runs : List Thread) : Prop :=
  ∃ next, perform step state (runs.map (·, .run)) = some next ∧
    next.memory.returned = true :: state.memory.returned

variable {state : State Thread}

theorem ManualSound.returns (manual : ManualSound state)
    (nobody : state.memory.manualMutex = none)
    (signaled : state.memory.signaled = true) {thread : Thread} {timed : Bool}
    (asleep : state.threads thread = .asleep timed) :
    Returns state [thread, thread] := by
  have readable : state.memory.eventFd = 1 := by
    simpa [signaled] using manual.free nobody
  cases timed <;>
    simp [Returns, perform, WaitableEvent.step, Threads.step,
      WaitableEvent.exec, manual.policy, asleep, Manual.exec, Manual.locked,
      readable, nobody, signaled, Memory.finish]

/-- Whoever waits for a manual event that is signalled returns, with the help
of the thread that has the mutex if there is one. -/
theorem manual_signal_reaches_all {initially : Bool}
    {actions : List (Thread × Command Thread)} {final : State Thread}
    (reached : perform step (start .manual initially) actions = some final)
    (signaled : final.memory.signaled = true) {thread : Thread} {timed : Bool}
    (asleep : final.threads thread = .asleep timed) :
    Returns final (final.memory.manualMutex.toList ++ [thread, thread]) := by
  have manual : ManualSound final := perform_invariant
    (fun before taken => before.step taken) reached
    ⟨rfl, fun _ => nofun, by cases initially <;> simp [start]⟩
  cases owned : final.memory.manualMutex with
  | none => exact manual.returns owned signaled asleep
  | some holder =>
    have knows := manual.knows holder
    obtain ⟨writes, empty⟩ : final.threads holder = .writing ∧
        final.memory.eventFd = 0 := by
      cases here : final.threads holder <;>
        simp_all [Manual.Knows]
    have written : step final (holder, .run) = some (final.become holder
        { final.memory with eventFd := 1, manualMutex := none } .idle) := by
      apply Threads.step_of_exec
      simp [exec, manual.policy, writes, Manual.exec, empty]
    have different : thread ≠ holder := by
      rintro rfl
      rw [writes] at asleep
      cases asleep
    obtain ⟨next, performed, returned⟩ :=
      (manual.step written).returns rfl signaled
        ((Threads.become_of_ne final different _ _).trans asleep)
    exact ⟨next, (perform_of_step written _).trans performed, returned⟩

/-- The flag is set, and its `write` is still to come. -/
theorem manual_signal_reaches_all_writing :
    ∃ final : State Bool, perform step (start .manual false)
        [(true, .wait false), (true, .run), (false, .signal none)] =
          some final ∧
      Returns final [false, true, true] := by
  refine ⟨_, rfl, ?_⟩
  exact @manual_signal_reaches_all _ _ false [(true, .wait false),
    (true, .run), (false, .signal none)] _ rfl rfl true false rfl

/-- Every token of an automatic event was set by a signal and is taken once,
and while one is there and somebody sleeps, some waiter can take it. -/
theorem auto_signal_reaches_one {initially : Bool}
    {actions : List (Thread × Command Thread)} {final : State Thread}
    (reached : perform step (start .automatic initially) actions =
      some final) :
    final.memory.returned.count true + final.memory.signaled.toNat ≤
        final.memory.signals + initially.toNat ∧
      (final.memory.signaled = true → final.memory.sleepers ≠ [] →
        ∃ thread, Returns final [thread] ∨
          Returns final [thread, thread]) := by
  have automatic : AutomaticSound initially final := perform_invariant
    (fun before taken => before.step taken) reached
    ⟨rfl, by simp [start], fun _ => .inl rfl, by simp [start]⟩
  refine ⟨automatic.tokens, fun signaled some => ?_⟩
  obtain nobody | ⟨thread, awake⟩ := automatic.awake signaled
  · exact absurd nobody some
  · refine ⟨thread, ?_⟩
    cases here : final.threads thread with
    | check timed expired =>
      left
      simp [Returns, perform, step, Threads.step, exec, automatic.policy,
        here, Automatic.exec, signaled, Memory.finish]
    | asleep timed =>
      right
      have up : thread ∉ final.memory.sleepers := by
        simpa [Awake, here] using awake
      simp [Returns, perform, step, Threads.step, exec, automatic.policy,
        here, Automatic.exec, up, signaled, Memory.finish]
    | _ => simp [Awake, here] at awake

/-- Two waiters sleep, and one of them is notified. -/
def notifiedPair : List (Option Bool × Command (Option Bool)) :=
  [(some true, .wait false), (some false, .wait true), (some true, .run),
    (some false, .run), (none, .signal (some true))]

theorem auto_signal_reaches_one_notifiedPair :
    ∃ final, perform step (start .automatic false) notifiedPair =
        some final ∧
      ∃ thread, Returns final [thread] ∨ Returns final [thread, thread] := by
  refine ⟨_, rfl, ?_⟩
  exact (@auto_signal_reaches_one _ _ false notifiedPair _ rfl).2 rfl
    (by decide)

end Libnei.Sync.WaitableEvent

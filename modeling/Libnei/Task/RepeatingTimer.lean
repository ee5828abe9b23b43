import Libnei.Lib.Actions

/-!
# The repeating timer

`RepeatingTimer::Impl` (`timer.cpp`) on its sequence.  A posted tick holds a
weak pointer, which is valid until the next `InvalidateWeakPtrs`.  The user's
callback runs in the middle of `OnTimerFired` and may call `Start` and
`Stop`.

`OnTimerFired` posts the next tick whenever the timer runs behind the
callback, also where `Start` has already posted one from inside of it.
-/

namespace Libnei.Task

open Lib

variable {Callback : Type}

/-- A posted `OnTimerFired` with the pointer it holds. -/
structure Tick where
  due : Nat
  pointer : Nat
  deriving DecidableEq

/-- `pointer` is the one that `GetWeakPtr` hands out.  `armed` is the time of
the last `ScheduleNextTick`; `restarted` tells that the callback has called
`Start`. -/
structure RepeatingTimer (Callback : Type) where
  userTask : Option Callback := none
  delay : Nat := 0
  isRunning : Bool := false
  pointer : Nat := 0
  posted : List Tick := []
  now : Nat := 0
  callback : Option Callback := none
  armed : Nat := 0
  restarted : Bool := false

inductive TimerAction (Callback : Type)
  | start (delay : Nat) (task : Option Callback)
  | stop
  | wait (time : Nat)
  /-- The sequence runs a tick that is due first. -/
  | deliver (tick : Tick)
  | goOn

namespace RepeatingTimer

variable (timer : RepeatingTimer Callback)

def stop : RepeatingTimer Callback :=
  { timer with
    pointer := timer.pointer + 1
    userTask := none
    isRunning := false }

def scheduleNextTick : RepeatingTimer Callback :=
  { timer with
    posted := timer.posted ++ [⟨timer.now + timer.delay, timer.pointer⟩]
    armed := timer.now }

def start (delay : Nat) (task : Option Callback) : RepeatingTimer Callback :=
  { timer.stop with
    userTask := task
    delay
    isRunning := true
    restarted := timer.callback.isSome }.scheduleNextTick

/-- `OnTimerFired` behind the callback. -/
def goOn : RepeatingTimer Callback :=
  if timer.isRunning then timer.scheduleNextTick else timer

def onTimerFired : RepeatingTimer Callback :=
  if !timer.isRunning then timer
  else
    match timer.userTask with
    | some task => { timer with callback := some task, restarted := false }
    | none => timer.goOn

def isValid (tick : Tick) : Bool := tick.pointer = timer.pointer

def step : TimerAction Callback → Option (RepeatingTimer Callback)
  | .start delay task => some (timer.start delay task)
  | .stop => some timer.stop
  | .wait time => some { timer with now := timer.now + time }
  | .deliver tick =>
      if timer.callback.isNone ∧ tick ∈ timer.posted ∧
          tick.due ≤ timer.now ∧ ∀ other ∈ timer.posted, tick.due ≤ other.due
      then
        let rest := { timer with posted := timer.posted.erase tick }
        some (if timer.isValid tick then rest.onTimerFired else rest)
      else none
  | .goOn =>
      if timer.callback.isSome then some { timer with callback := none }.goOn
      else none

/-- The posted ticks whose pointer is valid. -/
def pending : Nat := timer.posted.countP timer.isValid

/-- The callback has called `Start` and returns with the timer running. -/
def Doubles : TimerAction Callback → Prop
  | .goOn => timer.isRunning = true ∧ timer.restarted = true
  | _ => False

instance : ∀ action, Decidable (timer.Doubles action)
  | .goOn => inferInstanceAs (Decidable (_ ∧ _))
  | .start _ _ | .stop | .wait _ | .deliver _ => .isFalse id

/-- The timer waits for a tick. -/
def waits : Bool :=
  timer.isRunning && (timer.callback.isNone || timer.restarted)

/-- One valid tick where the timer waits for one, and none else. -/
structure Armed : Prop where
  pointers : ∀ tick ∈ timer.posted, tick.pointer ≤ timer.pointer
  count : timer.pending = if timer.waits then 1 else 0
  due : ∀ tick ∈ timer.posted, timer.isValid tick = true →
    tick.due = timer.armed + timer.delay

variable {timer} {next : RepeatingTimer Callback}

theorem isValid_iff {tick : Tick} :
    timer.isValid tick = true ↔ tick.pointer = timer.pointer :=
  decide_eq_true_iff

theorem pending_eq_zero : timer.pending = 0 ↔
    ∀ tick ∈ timer.posted, timer.isValid tick = false := by
  simp [pending]

theorem armed_of_none
    (pointers : ∀ tick ∈ timer.posted, tick.pointer ≤ timer.pointer)
    (none : ∀ tick ∈ timer.posted, timer.isValid tick = false)
    (quiet : timer.waits = false) : timer.Armed := by
  refine ⟨pointers, ?_, fun tick member valid => ?_⟩
  · rw [quiet]
    exact pending_eq_zero.mpr none
  · exact absurd ((none tick member).symm.trans valid) Bool.false_ne_true

theorem armed_scheduleNextTick
    (pointers : ∀ tick ∈ timer.posted, tick.pointer ≤ timer.pointer)
    (none : ∀ tick ∈ timer.posted, timer.isValid tick = false)
    (waits : timer.waits = true) : timer.scheduleNextTick.Armed := by
  have last {tick : Tick} (member : tick ∈ timer.scheduleNextTick.posted) :
      tick ∈ timer.posted ∨
        tick = ⟨timer.now + timer.delay, timer.pointer⟩ := by
    simpa [scheduleNextTick] using member
  constructor
  · intro tick member
    rcases last member with old | rfl
    · exact pointers tick old
    · exact Nat.le_refl _
  · have before : timer.posted.countP timer.isValid = 0 :=
      pending_eq_zero.mpr none
    have same : timer.scheduleNextTick.waits = true := waits
    have own : timer.isValid ⟨timer.now + timer.delay, timer.pointer⟩ = true :=
      isValid_iff.mpr rfl
    rw [same, if_pos rfl]
    show (timer.posted ++ [_]).countP timer.isValid = 1
    rw [List.countP_append, before, List.countP_singleton, own]
    rfl
  · intro tick member valid
    rcases last member with old | rfl
    · have invalid := none tick old
      exact absurd (invalid.symm.trans valid) Bool.false_ne_true
    · rfl

theorem armed_stop (armed : timer.Armed) : timer.stop.Armed ∧
      ∀ tick ∈ timer.stop.posted, timer.stop.isValid tick = false := by
  have none : ∀ tick ∈ timer.stop.posted, timer.stop.isValid tick = false := by
    intro tick member
    have older := armed.pointers tick member
    by_contra valid
    have same := isValid_iff.mp (Bool.not_eq_false _ ▸ valid)
    rw [same] at older
    exact Nat.not_succ_le_self _ older
  refine ⟨armed_of_none (fun tick member => ?_) none rfl, none⟩
  exact Nat.le_succ_of_le (armed.pointers tick member)

theorem armed_start (armed : timer.Armed) (delay : Nat)
    (task : Option Callback) : (timer.start delay task).Armed := by
  obtain ⟨stopped, none⟩ := armed_stop armed
  apply armed_scheduleNextTick
  · exact stopped.pointers
  · exact none
  · cases called : timer.callback with
    | none => simp [waits, stop, called]
    | some task => simp [waits]

/-- Where no tick is valid, the second half of `OnTimerFired` posts one for a
running timer. -/
theorem armed_goOn
    (pointers : ∀ tick ∈ timer.posted, tick.pointer ≤ timer.pointer)
    (none : ∀ tick ∈ timer.posted, timer.isValid tick = false)
    (idle : timer.callback = Option.none) : timer.goOn.Armed := by
  unfold goOn
  split
  case isTrue running =>
    apply armed_scheduleNextTick pointers none
    simp [waits, running, idle]
  case isFalse stopped =>
    exact armed_of_none pointers none (by simp [waits, stopped])

theorem armed_deliver (armed : timer.Armed)
    (idle : timer.callback = none) {tick : Tick}
    (member : tick ∈ timer.posted) :
    (if timer.isValid tick then
        { timer with posted := timer.posted.erase tick }.onTimerFired
      else { timer with posted := timer.posted.erase tick }).Armed := by
  have pointers : ∀ other ∈ timer.posted.erase tick,
      other.pointer ≤ timer.pointer :=
    fun other left => armed.pointers other (List.mem_of_mem_erase left)
  have due : ∀ other ∈ timer.posted.erase tick,
      timer.isValid other = true → other.due = timer.armed + timer.delay :=
    fun other left => armed.due other (List.mem_of_mem_erase left)
  have count := armed.count
  unfold pending at count
  have erased := (List.perm_cons_erase member).countP_eq timer.isValid
  rw [List.countP_cons] at erased
  split
  case isTrue valid =>
    -- The tick was the only valid one.
    have positive : 0 < timer.posted.countP timer.isValid :=
      List.countP_pos_iff.mpr ⟨tick, member, valid⟩
    have running : timer.isRunning = true := by
      by_contra stopped
      simp [waits, stopped] at count
      exact absurd (count tick member) (by simp [valid])
    have zero : (timer.posted.erase tick).countP timer.isValid = 0 := by
      rw [if_pos valid] at erased
      split at count <;> omega
    have none := (@pending_eq_zero Callback
      { timer with posted := timer.posted.erase tick }).mp zero
    unfold onTimerFired
    rw [if_neg (by simp [running])]
    split
    case h_1 task given =>
      refine ⟨pointers, ?_, due⟩
      rw [if_neg (by simp [waits])]
      exact zero
    case h_2 missing => exact armed_goOn pointers none idle
  case isFalse invalid =>
    refine ⟨pointers, ?_, due⟩
    refine Eq.trans ?_ count
    rw [if_neg invalid, Nat.add_zero] at erased
    exact erased.symm

theorem Armed.step {action : TimerAction Callback} (armed : timer.Armed)
    (calm : ¬timer.Doubles action) (taken : timer.step action = some next) :
    next.Armed := by
  cases action with
  | start delay task =>
    cases taken
    exact armed_start armed delay task
  | stop =>
    cases taken
    exact (armed_stop armed).1
  | wait time =>
    cases taken
    exact ⟨armed.pointers, armed.count, armed.due⟩
  | deliver tick =>
    obtain ⟨ready, ⟨⟩⟩ := Option.ite_none_right_eq_some.mp taken
    exact armed_deliver armed (Option.isNone_iff_eq_none.mp ready.1)
      ready.2.1
  | goOn =>
    obtain ⟨called, ⟨⟩⟩ := Option.ite_none_right_eq_some.mp taken
    have zero : timer.pending = 0 := by
      rw [armed.count, if_neg]
      intro waits
      rw [RepeatingTimer.waits, Bool.and_eq_true, Bool.or_eq_true,
        Option.isNone_iff_eq_none] at waits
      rcases waits with ⟨running, idle | restarted⟩
      · rw [idle] at called
        cases called
      · exact calm ⟨running, restarted⟩
    exact armed_goOn armed.pointers (pending_eq_zero.mp zero) rfl

/-- Where no callback returns behind a `Start` of its own with the timer
running, a timer outside of its callback has one valid tick if it is running,
due one delay after the last one was scheduled, and none if it is not. -/
theorem one_pending_tick {actions : List (TimerAction Callback)}
    (ran : perform RepeatingTimer.step {} actions = some timer)
    (calm : Avoids RepeatingTimer.step Doubles {} actions)
    (outside : timer.callback = none) :
    timer.pending = (if timer.isRunning then 1 else 0) ∧
      ∀ tick ∈ timer.posted, timer.isValid tick = true →
        tick.due = timer.armed + timer.delay := by
  have start : ({} : RepeatingTimer Callback).Armed :=
    ⟨nofun, rfl, nofun⟩
  have armed : timer.Armed :=
    perform_avoiding (fun armed calm taken => armed.step calm taken) ran calm
      start
  have waits : timer.waits = timer.isRunning := by
    simp [RepeatingTimer.waits, outside]
  refine ⟨?_, armed.due⟩
  rw [armed.count, waits]

/-- A timer with a period of five that has fired once. -/
def oneFire (inside : List (TimerAction Unit)) : List (TimerAction Unit) :=
  [.start 5 (some ()), .wait 5, .deliver ⟨5, 1⟩] ++ inside ++ [.goOn]

theorem one_pending_tick_oneFire :
    ∃ timer, perform RepeatingTimer.step {} (oneFire []) = some timer ∧
      timer.isRunning = true ∧ timer.posted = [⟨10, 1⟩] ∧
      timer.pending = 1 := by
  have ran : perform RepeatingTimer.step {} (oneFire []) =
    some ((perform RepeatingTimer.step {} (oneFire [])).getD {}) := rfl
  refine ⟨_, ran, rfl, rfl, ?_⟩
  exact (one_pending_tick ran (by decide) rfl).1

/-- `Start` inside of the callback: two ticks from then on. -/
theorem two_pending_ticks_restarted :
    (perform RepeatingTimer.step {} (oneFire [.start 5 (some ())])).map
        (fun timer => (timer.callback, timer.isRunning, timer.posted,
          timer.pending)) =
      some (none, true, [⟨10, 2⟩, ⟨10, 2⟩], 2) := by
  decide +kernel

end RepeatingTimer

end Libnei.Task

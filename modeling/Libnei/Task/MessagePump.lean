import Libnei.Lib.Actions

/-!
# The default message pump

`MessagePumpDefault` (`message_pump_default.cpp`): nested calls of `Run` on
one thread, with `Quit` and the scheduling calls from any thread.  The pump
goes from one section under the lock or use of the event to the next; a
callback of the delegate may enter `Run` again.

`Quit` writes down how deep the runs are nested, in one place for all of them.
A run that is entered behind a `Quit` of the enclosing one is not ended by it,
and its own end wipes the enclosing run's `Quit` out.
-/

namespace Libnei.Task

open Lib

/-- Where a call of `Run` is. -/
inductive PumpPoint
  /-- In front of the loop's condition. -/
  | check
  | doWork
  | doDelayedWork
  | doIdleWork
  /-- In front of the second `IsRunLoopActive`. -/
  | recheck
  | consume
  | getDelayed
  /-- In front of `ResetWakeUpEvent`, with the length of a timed wait. -/
  | reset (milliseconds : Option Nat)
  | reconsume (milliseconds : Option Nat)
  | wait
  | timedWait (deadline : Nat)
  /-- In front of `ClearExpiredDelayedRunTime`. -/
  | clear (now : Nat)
  /-- In front of `ExitRunLoop`. -/
  | exit
  deriving DecidableEq

def PumpPoint.isCallback : PumpPoint → Bool
  | .doWork | .doDelayedWork | .doIdleWork => true
  | _ => false

/-- One call of `Run`.  `quit` tells that a `Quit` was made while it was the
innermost one. -/
structure PumpFrame where
  point : PumpPoint := .check
  recentNow : Option Nat := none
  quit : Bool := false
  deriving DecidableEq

/-- What a callback of the delegate returns. -/
structure Answer where
  worked : Bool := false
  nextRunTime : Option Nat := none
  recentNow : Option Nat := none

/-- `run_depth_` is the number of frames, the innermost one first.  `quitting`
and `scheduling` count the calls in front of their `Signal`, and `returned`
has the mark of every run that has returned. -/
structure MessagePump where
  frames : List PumpFrame := []
  quitRunDepth : Nat := 0
  workScheduled : Bool := false
  delayedRunTime : Option Nat := none
  wakeUpEvent : Bool := false
  clock : Nat := 0
  quitting : Nat := 0
  scheduling : Nat := 0
  returned : List Bool := []

inductive PumpAction
  | run
  /-- The innermost run goes on, behind a callback with its answer. -/
  | pump (answer : Answer)
  /-- The lock section of `RequestQuitInnermostRun`. -/
  | quit
  | quitSignal
  | scheduleWork
  | scheduleDelayedWork (time : Nat)
  | scheduleWorkAndDelayedWork (time : Option Nat)
  | signal
  | tick (time : Nat)

def PumpAction.isPump : PumpAction → Bool
  | .pump _ => true
  | _ => false

namespace MessagePump

variable (pump : MessagePump)

def isRunLoopActive (depth : Nat) : Bool := pump.quitRunDepth < depth

def earlier : Option Nat → Option Nat → Option Nat
  | current, none => current
  | none, some time => some time
  | some current, some time =>
      if time < current then some time else some current

def requestQuitInnermostRun : MessagePump :=
  match pump.frames with
  | frame :: rest =>
      { pump with
        frames := { frame with quit := true } :: rest
        quitRunDepth := pump.frames.length
        workScheduled := true
        quitting := pump.quitting + 1 }
  | [] =>
      { pump with workScheduled := true, quitting := pump.quitting + 1 }

def scheduleDelayedWork (time : Nat) : MessagePump :=
  if earlier pump.delayedRunTime (some time) ≠ pump.delayedRunTime then
    { pump with
      delayedRunTime := some time
      scheduling := pump.scheduling + 1 }
  else pump

def exitRunLoop (frame : PumpFrame) (rest : List PumpFrame) : MessagePump :=
  { pump with
    frames := rest
    quitRunDepth :=
      if pump.quitRunDepth > rest.length then 0 else pump.quitRunDepth
    returned := frame.quit :: pump.returned }

def clearExpiredDelayedRunTime (now : Nat) : Option Nat :=
  pump.delayedRunTime.filter (now < ·)

/-- The loop of `Run`, `none` where it is blocked. -/
def proceed (frame : PumpFrame) (rest : List PumpFrame) (answer : Answer) :
    Option MessagePump :=
  let goTo point : MessagePump :=
    { pump with frames := { frame with point } :: rest }
  match frame.point with
  | .check =>
      some (goTo (if pump.isRunLoopActive pump.frames.length then .doWork
        else .exit))
  | .doWork =>
      some (goTo (if answer.worked then .check else .doDelayedWork))
  | .doDelayedWork =>
      some { pump with
        delayedRunTime := earlier pump.delayedRunTime answer.nextRunTime
        frames :=
          { frame with
            recentNow := answer.recentNow
            point := if answer.worked then .check else .doIdleWork } ::
          rest }
  | .doIdleWork => some (goTo (if answer.worked then .check else .recheck))
  | .recheck =>
      some (goTo (if pump.isRunLoopActive pump.frames.length then .consume
        else .exit))
  | .consume =>
      some { goTo (if pump.workScheduled then .check else .getDelayed) with
        workScheduled := false }
  | .getDelayed =>
      match pump.delayedRunTime with
      | none => some (goTo (.reset none))
      | some time =>
          let now := frame.recentNow.getD pump.clock
          if time ≤ now then some (goTo (.clear now))
          else some (goTo (.reset (some ((time - now + 999) / 1000))))
  | .reset milliseconds =>
      some { goTo (.reconsume milliseconds) with wakeUpEvent := false }
  | .reconsume milliseconds =>
      let waits :=
        match milliseconds with
        | none => .wait
        | some milliseconds => .timedWait (pump.clock + 1000 * milliseconds)
      some { goTo (if pump.workScheduled then .check else waits) with
        workScheduled := false }
  | .wait => if pump.wakeUpEvent then some (goTo .check) else none
  | .timedWait deadline =>
      if pump.wakeUpEvent then some (goTo .check)
      else if deadline ≤ pump.clock then some (goTo (.clear pump.clock))
      else none
  | .clear now =>
      some { goTo .check with
        delayedRunTime := pump.clearExpiredDelayedRunTime now }
  | .exit => some (pump.exitRunLoop frame rest)

def step : PumpAction → Option MessagePump
  | .run =>
      if (pump.frames.take 1).all (·.point.isCallback) then
        some { pump with frames := {} :: pump.frames }
      else none
  | .pump answer =>
      match pump.frames with
      | frame :: rest => pump.proceed frame rest answer
      | [] => none
  | .quit => some pump.requestQuitInnermostRun
  | .quitSignal =>
      if 0 < pump.quitting then
        some { pump with
          wakeUpEvent := true
          quitting := pump.quitting - 1 }
      else none
  | .scheduleWork =>
      some { pump with
        workScheduled := true
        scheduling := pump.scheduling + 1 }
  | .scheduleDelayedWork time => some (pump.scheduleDelayedWork time)
  | .scheduleWorkAndDelayedWork time =>
      some { pump with
        workScheduled := true
        delayedRunTime := earlier pump.delayedRunTime time
        scheduling := pump.scheduling + 1 }
  | .signal =>
      if 0 < pump.scheduling then
        some { pump with
          wakeUpEvent := true
          scheduling := pump.scheduling - 1 }
      else none
  | .tick time => some { pump with clock := pump.clock + time }

/-- The steps that a run with a pending `Quit` has still to go at most. -/
def rank : PumpPoint → Nat
  | .exit => 1
  | .check | .recheck => 2
  | .doIdleWork | .consume | .reconsume _ | .wait | .clear _ => 3
  | .doDelayedWork | .reset _ | .timedWait _ => 4
  | .doWork | .getDelayed => 5

/-- `Quit` has been called for the innermost run. -/
abbrev Pending : Prop := pump.quitRunDepth = pump.frames.length

/-- A run is entered inside of one that is to end. -/
def Reenters : PumpAction → Prop
  | .run => pump.frames ≠ [] ∧ pump.Pending
  | _ => False

instance (action : PumpAction) : Decidable (pump.Reenters action) := by
  cases action <;> unfold Reenters <;> infer_instance

/-- The innermost run cannot sleep through a `Quit`. -/
def Alert (point : PumpPoint) : Prop :=
  match point with
  | .consume | .getDelayed | .reset _ | .reconsume _ =>
      pump.Pending → pump.workScheduled = true
  | .wait | .timedWait _ =>
      pump.Pending → pump.wakeUpEvent = true ∨ 0 < pump.quitting
  | .exit => pump.Pending
  | _ => True

structure Sound : Prop where
  depth : pump.quitRunDepth = 0 ∨ pump.Pending
  alert : ∀ {frame rest}, pump.frames = frame :: rest → pump.Alert frame.point
  mark : ∀ {frame rest}, pump.frames = frame :: rest → pump.Pending →
    frame.quit = true
  inside : ∀ {frame rest}, pump.frames = frame :: rest →
    ∀ outer ∈ rest, outer.point.isCallback = true
  returned : ∀ mark ∈ pump.returned, mark = true

variable {pump} {next : MessagePump} {frame : PumpFrame}
variable {rest : List PumpFrame}

theorem pending_iff (frames : pump.frames = frame :: rest) :
    pump.Pending ↔ pump.quitRunDepth = rest.length + 1 := by
  rw [Pending, frames, List.length_cons]

theorem active_iff (sound : pump.Sound) (frames : pump.frames = frame :: rest) :
    pump.isRunLoopActive pump.frames.length = true ↔ ¬pump.Pending := by
  rw [isRunLoopActive, decide_eq_true_iff, pending_iff frames, frames,
    List.length_cons]
  have depth := sound.depth
  rw [pending_iff frames] at depth
  omega

theorem Sound.goTo (sound : pump.Sound) (frames : pump.frames = frame :: rest)
    {frame' : PumpFrame} (quit : frame'.quit = frame.quit)
    (list : next.frames = frame' :: rest)
    (depth : next.quitRunDepth = pump.quitRunDepth)
    (returned : next.returned = pump.returned)
    (alert : next.Alert frame'.point) : next.Sound := by
  have same : next.Pending ↔ pump.Pending := by
    rw [pending_iff list, pending_iff frames, depth]
  constructor
  case depth => exact sound.depth.imp depth.trans same.mpr
  case alert =>
    intro other others equal
    rw [list] at equal
    cases equal
    exact alert
  case mark =>
    intro other others equal pending
    rw [list] at equal
    cases equal
    rw [quit]
    exact sound.mark frames (same.mp pending)
  case inside =>
    intro other others equal
    rw [list] at equal
    cases equal
    exact sound.inside frames
  case returned =>
    rw [returned]
    exact sound.returned

variable {point : PumpPoint} {answer : Answer} {action : PumpAction}
  {actions : List PumpAction}

theorem alert_of_isCallback (called : point.isCallback = true) :
    pump.Alert point := by
  cases point with
  | doWork | doDelayedWork | doIdleWork => trivial
  | _ => cases called

theorem Sound.exit (sound : pump.Sound) (frames : pump.frames = frame :: rest)
    (exits : frame.point = .exit) :
    (pump.exitRunLoop frame rest).Sound ∧
      (pump.exitRunLoop frame rest).quitRunDepth = 0 := by
  have pending : pump.Pending := by
    have alert := sound.alert frames
    rw [exits] at alert
    exact alert
  have zero : (pump.exitRunLoop frame rest).quitRunDepth = 0 := by
    have deep := (pending_iff frames).mp pending
    unfold exitRunLoop
    rw [deep, if_pos (Nat.lt_succ_self _)]
  have free {outer : PumpFrame} {others : List PumpFrame}
      (list : (pump.exitRunLoop frame rest).frames = outer :: others) :
      ¬(pump.exitRunLoop frame rest).Pending := by
    rw [pending_iff list, zero]
    exact (Nat.succ_ne_zero _).symm
  refine ⟨⟨.inl zero, ?_, fun list pending => absurd pending (free list), ?_,
    ?_⟩, zero⟩
  · intro outer others list
    have list : rest = outer :: others := list
    have called : outer.point.isCallback = true :=
      sound.inside frames outer (list ▸ List.mem_cons_self)
    exact alert_of_isCallback called
  · intro outer others list other member
    have list : rest = outer :: others := list
    exact sound.inside frames other (list ▸ List.mem_cons_of_mem _ member)
  · intro mark member
    rcases List.mem_cons.mp member with rfl | old
    · exact sound.mark frames pending
    · exact sound.returned mark old

/-- What a step makes of the innermost run. -/
structure Moves (pump next : MessagePump) (frame : PumpFrame)
    (rest : List PumpFrame) (moved : PumpFrame) : Prop where
  frames : next.frames = moved :: rest
  quit : moved.quit = frame.quit
  depth : next.quitRunDepth = pump.quitRunDepth
  returned : next.returned = pump.returned
  alert : next.Alert moved.point
  rank : pump.Pending → rank moved.point < rank frame.point

/-- The pump with another innermost frame has the same run to end. -/
theorem pending_moved (frames : pump.frames = frame :: rest)
    {moved : PumpFrame} {delayedRunTime : Option Nat}
    {workScheduled wakeUpEvent : Bool} :
    MessagePump.Pending { pump with
      frames := moved :: rest
      delayedRunTime
      workScheduled
      wakeUpEvent } ↔ pump.Pending := by
  rw [pending_iff rfl, pending_iff frames]

theorem proceed_moves (sound : pump.Sound)
    (frames : pump.frames = frame :: rest)
    (taken : pump.proceed frame rest answer = some next) :
    (frame.point = .exit ∧ next = pump.exitRunLoop frame rest) ∨
      ∃ moved, pump.Moves next frame rest moved := by
  have alert := sound.alert frames
  have active := active_iff sound frames
  have same {moved delayedRunTime workScheduled wakeUpEvent} :=
    @pending_moved pump frame rest frames moved delayedRunTime workScheduled
      wakeUpEvent
  have quits (inactive : ¬pump.isRunLoopActive pump.frames.length = true) :
      pump.Pending := not_not.mp (mt active.mpr inactive)
  have inactive (pending : pump.Pending) :
      ¬pump.isRunLoopActive pump.frames.length = true :=
    mt active.mp (not_not.mpr pending)
  unfold proceed at taken
  dsimp only at taken
  cases point : frame.point <;> rw [point] at taken alert <;>
    dsimp only at taken
  case exit =>
    cases taken
    exact .inl ⟨rfl, rfl⟩
  all_goals right
  case check =>
    cases taken
    refine ⟨_, rfl, rfl, rfl, rfl, ?_, fun pending => ?_⟩
    · dsimp only
      split
      case isTrue => trivial
      case isFalse ends => exact same.mpr (quits ends)
    · rw [point, if_neg (inactive pending)]
      exact Nat.lt_succ_self 1
  case doWork | doDelayedWork | doIdleWork =>
    cases taken
    refine ⟨_, rfl, rfl, rfl, rfl, ?_, fun _ => ?_⟩
    · cases answer.worked <;> trivial
    · rw [point]
      dsimp only
      cases answer.worked <;> decide
  case recheck =>
    cases taken
    refine ⟨_, rfl, rfl, rfl, rfl, ?_, fun pending => ?_⟩
    · dsimp only
      split
      case isTrue goesOn =>
        exact fun pending => absurd (same.mp pending) (active.mp goesOn)
      case isFalse ends => exact same.mpr (quits ends)
    · rw [point, if_neg (inactive pending)]
      exact Nat.lt_succ_self 1
  case consume =>
    cases taken
    refine ⟨_, rfl, rfl, rfl, rfl, ?_, fun pending => ?_⟩
    · dsimp only
      split
      case isTrue => trivial
      case isFalse idle =>
        exact fun pending => absurd (alert (same.mp pending)) idle
    · rw [point, if_pos (alert pending)]
      exact Nat.lt_succ_self 2
  case getDelayed =>
    split at taken
    · cases taken
      refine ⟨_, rfl, rfl, rfl, rfl, alert ∘ same.mp, fun _ => ?_⟩
      rw [point]
      exact Nat.lt_succ_self 4
    · split at taken <;> cases taken
      · refine ⟨_, rfl, rfl, rfl, rfl, trivial, fun _ => ?_⟩
        rw [point]
        exact (by decide : 3 < 5)
      · refine ⟨_, rfl, rfl, rfl, rfl, alert ∘ same.mp, fun _ => ?_⟩
        rw [point]
        exact Nat.lt_succ_self 4
  case reset milliseconds =>
    cases taken
    refine ⟨_, rfl, rfl, rfl, rfl, alert ∘ same.mp, fun _ => ?_⟩
    rw [point]
    exact Nat.lt_succ_self 3
  case reconsume milliseconds =>
    cases taken
    refine ⟨_, rfl, rfl, rfl, rfl, ?_, fun pending => ?_⟩
    · dsimp only
      split
      case isTrue => trivial
      case isFalse idle =>
        have calm := mt alert idle
        cases milliseconds with
        | none => exact fun pending => absurd (same.mp pending) calm
        | some time => exact fun pending => absurd (same.mp pending) calm
    · rw [point, if_pos (alert pending)]
      exact Nat.lt_succ_self 2
  case wait =>
    obtain ⟨-, ⟨⟩⟩ := Option.ite_none_right_eq_some.mp taken
    refine ⟨_, rfl, rfl, rfl, rfl, trivial, fun _ => ?_⟩
    rw [point]
    exact Nat.lt_succ_self 2
  case timedWait deadline =>
    split at taken
    · cases taken
      refine ⟨_, rfl, rfl, rfl, rfl, trivial, fun _ => ?_⟩
      rw [point]
      exact (by decide : 2 < 4)
    · obtain ⟨-, ⟨⟩⟩ := Option.ite_none_right_eq_some.mp taken
      refine ⟨_, rfl, rfl, rfl, rfl, trivial, fun _ => ?_⟩
      rw [point]
      exact Nat.lt_succ_self 3
  case clear now =>
    cases taken
    refine ⟨_, rfl, rfl, rfl, rfl, trivial, fun _ => ?_⟩
    rw [point]
    exact Nat.lt_succ_self 2

theorem Sound.proceed (sound : pump.Sound)
    (frames : pump.frames = frame :: rest)
    (taken : pump.proceed frame rest answer = some next) : next.Sound := by
  rcases proceed_moves sound frames taken with ⟨exits, rfl⟩ | ⟨moved, moves⟩
  · exact (sound.exit frames exits).1
  · exact sound.goTo frames moves.quit moves.frames moves.depth
      moves.returned moves.alert

theorem Alert.mono (alert : pump.Alert point)
    (same : next.Pending ↔ pump.Pending)
    (scheduled : pump.workScheduled = true → next.workScheduled = true)
    (signalled : pump.wakeUpEvent = true ∨ 0 < pump.quitting →
      next.wakeUpEvent = true ∨ 0 < next.quitting) :
    next.Alert point := by
  cases point with
  | consume | getDelayed | reset | reconsume =>
    exact fun pending => scheduled (alert (same.mp pending))
  | wait | timedWait =>
    exact fun pending => signalled (alert (same.mp pending))
  | exit => exact same.mpr alert
  | check | doWork | doDelayedWork | doIdleWork | recheck | clear => trivial

section

variable (sound : pump.Sound)

include sound

/-- An action of another thread leaves the runs as they are. -/
theorem Sound.outside (frames : next.frames = pump.frames)
    (depth : next.quitRunDepth = pump.quitRunDepth)
    (returned : next.returned = pump.returned)
    (scheduled : pump.workScheduled = true → next.workScheduled = true)
    (signalled : pump.wakeUpEvent = true ∨ 0 < pump.quitting →
      next.wakeUpEvent = true ∨ 0 < next.quitting) : next.Sound := by
  have same : next.Pending ↔ pump.Pending := by
    rw [Pending, Pending, frames, depth]
  constructor
  case depth => exact sound.depth.imp depth.trans same.mpr
  case alert =>
    intro frame rest list
    exact (sound.alert (frames ▸ list)).mono same scheduled signalled
  case mark =>
    intro frame rest list pending
    exact sound.mark (frames ▸ list) (same.mp pending)
  case inside =>
    intro frame rest list
    exact sound.inside (frames ▸ list)
  case returned =>
    rw [returned]
    exact sound.returned

theorem Sound.run
    (called : (pump.frames.take 1).all (·.point.isCallback) = true)
    (calm : ¬(pump.frames ≠ [] ∧ pump.Pending)) :
    Sound { pump with frames := {} :: pump.frames } := by
  have zero : pump.quitRunDepth = 0 := by
    rcases sound.depth with zero | pending
    · exact zero
    · by_cases empty : pump.frames = []
      · rw [Pending, empty] at pending
        exact pending
      · exact absurd ⟨empty, pending⟩ calm
  refine ⟨.inl zero, ?_, ?_, ?_, sound.returned⟩
  · intro frame rest list
    cases list
    trivial
  · intro frame rest list pending
    cases list
    rw [pending_iff rfl] at pending
    exact absurd (zero.symm.trans pending) (Nat.succ_ne_zero _).symm
  · intro frame rest list outer member
    cases list
    cases frames : pump.frames with
    | nil =>
      rw [frames] at member
      cases member
    | cons head others =>
      rw [frames] at member called
      rcases List.mem_cons.mp member with rfl | member
      · simpa using called
      · exact sound.inside frames outer member

theorem Sound.quit :
    pump.requestQuitInnermostRun.Sound := by
  unfold requestQuitInnermostRun
  split
  case h_1 frame rest frames =>
    have pending : MessagePump.Pending { pump with
        frames := { frame with quit := true } :: rest
        quitRunDepth := pump.frames.length
        workScheduled := true
        quitting := pump.quitting + 1 } := by
      rw [pending_iff rfl, frames]
      rfl
    refine ⟨.inr pending, ?_, ?_, ?_, sound.returned⟩
    · intro other others list
      cases list
      cases point : frame.point with
      | consume | getDelayed | reset | reconsume => exact fun _ => rfl
      | wait | timedWait =>
        exact fun _ => .inr (Nat.succ_pos _)
      | exit => exact pending
      | check | doWork | doDelayedWork | doIdleWork | recheck | clear =>
        trivial
    · intro other others list _
      cases list
      rfl
    · intro other others list
      cases list
      exact sound.inside frames
  case h_2 frames =>
    exact sound.outside rfl rfl rfl (fun _ => rfl)
      fun _ => .inr (Nat.succ_pos _)

theorem Sound.step (calm : ¬pump.Reenters action)
    (taken : pump.step action = some next) :
    next.Sound := by
  cases action with
  | run =>
    obtain ⟨called, ⟨⟩⟩ := Option.ite_none_right_eq_some.mp taken
    exact sound.run called calm
  | pump answer =>
    rw [MessagePump.step] at taken
    split at taken
    case h_1 frame rest frames => exact sound.proceed frames taken
    case h_2 => cases taken
  | quit =>
    cases taken
    exact sound.quit
  | quitSignal | signal =>
    obtain ⟨-, ⟨⟩⟩ := Option.ite_none_right_eq_some.mp taken
    exact sound.outside rfl rfl rfl id fun _ => .inl rfl
  | scheduleDelayedWork time =>
    cases taken
    unfold scheduleDelayedWork
    split
    · exact sound.outside rfl rfl rfl id id
    · exact sound
  | scheduleWork | scheduleWorkAndDelayedWork =>
    cases taken
    exact sound.outside rfl rfl rfl (fun _ => rfl) id
  | tick time =>
    cases taken
    exact sound.outside rfl rfl rfl id id

end

theorem sound_of_run (ran : perform MessagePump.step {} actions = some pump)
    (calm : Avoids MessagePump.step Reenters {} actions) : pump.Sound := by
  refine perform_avoiding (fun sound calm taken => sound.step calm taken) ran
    calm ?_
  exact ⟨.inl rfl, nofun, nofun, nofun, nofun⟩

/-- A run with a pending `Quit` is blocked only in front of the `Signal` of
that `Quit`. -/
theorem goes_on (sound : pump.Sound) (frames : pump.frames = frame :: rest)
    (pending : pump.Pending) (answer : Answer) :
    (pump.proceed frame rest answer).isSome ∨ 0 < pump.quitting := by
  have alert := sound.alert frames
  unfold proceed
  cases point : frame.point with
  | wait | timedWait =>
    rw [point] at alert
    rcases alert pending with signalled | outstanding
    · exact .inl (by rw [signalled]; rfl)
    · exact .inr outstanding
  | getDelayed =>
    left
    dsimp only
    split
    · rfl
    · split <;> rfl
  | check | doWork | doDelayedWork | doIdleWork | recheck | consume | reset
  | reconsume | clear | exit => exact .inl rfl

/-- The run returns in the course of the actions. -/
def Returns (pump : MessagePump) (rest : List PumpFrame)
    (actions : List PumpAction) : Prop :=
  ∃ first answer later after, actions = first ++ .pump answer :: later ∧
    perform MessagePump.step pump (first ++ [.pump answer]) = some after ∧
    after.frames = rest

theorem Returns.cons (taken : pump.step action = some next)
    (returns : next.Returns rest actions) :
    pump.Returns rest (action :: actions) := by
  obtain ⟨first, answer, later, after, rfl, ran, frames⟩ := returns
  refine ⟨action :: first, answer, later, after, rfl, ?_, frames⟩
  rw [List.cons_append, perform_of_step taken]
  exact ran

/-- Another action keeps the pending `Quit` and the run's place. -/
theorem pending_kept (frames : pump.frames = frame :: rest)
    (pending : pump.Pending) (calm : ¬pump.Reenters action)
    (other : action.isPump = false) (taken : pump.step action = some next) :
    next.Pending ∧ ∃ frame', next.frames = frame' :: rest ∧
      frame'.point = frame.point := by
  cases action with
  | run => exact absurd ⟨by rw [frames]; simp, pending⟩ calm
  | pump answer => cases other
  | quit =>
    cases taken
    unfold requestQuitInnermostRun
    rw [frames]
    exact ⟨rfl, _, rfl, rfl⟩
  | quitSignal | signal =>
    rw [MessagePump.step] at taken
    split at taken <;> cases taken
    exact ⟨pending, frame, frames, rfl⟩
  | scheduleDelayedWork time =>
    cases taken
    unfold scheduleDelayedWork
    split
    · exact ⟨pending, frame, frames, rfl⟩
    · exact ⟨pending, frame, frames, rfl⟩
  | scheduleWork | scheduleWorkAndDelayedWork | tick =>
    cases taken
    exact ⟨pending, frame, frames, rfl⟩

/-- By induction over the actions: the run has returned, or it is still
pending and each of its steps has brought it nearer to the end. -/
theorem returns_or_nearer {final : MessagePump} (sound : pump.Sound)
    (frames : pump.frames = frame :: rest) (pending : pump.Pending)
    (ran : perform MessagePump.step pump actions = some final)
    (calm : Avoids MessagePump.step Reenters pump actions) :
    pump.Returns rest actions ∨
      ∃ frame', final.Sound ∧ final.frames = frame' :: rest ∧ final.Pending ∧
        rank frame'.point + actions.countP PumpAction.isPump ≤
          rank frame.point := by
  induction actions generalizing pump frame with
  | nil =>
    cases ran
    exact .inr ⟨frame, sound, frames, pending, Nat.le_refl _⟩
  | cons action actions ih =>
    obtain ⟨next, taken, ranNext⟩ := perform_cons ran
    have soundNext := sound.step calm.1 taken
    cases pumps : action.isPump with
    | false =>
      obtain ⟨pendingNext, frame', list, point⟩ :=
        pending_kept frames pending calm.1 pumps taken
      rcases ih soundNext list pendingNext ranNext
          (calm.2 next taken) with returns | ⟨last, facts⟩
      · exact .inl (returns.cons taken)
      · right
        refine ⟨last, facts.1, facts.2.1, facts.2.2.1, ?_⟩
        rw [List.countP_cons_of_neg (by rw [pumps]; decide), ← point]
        exact facts.2.2.2
    | true =>
      cases action with
      | pump answer =>
        have moved := taken
        rw [MessagePump.step, frames] at moved
        rcases proceed_moves sound frames moved with
          ⟨_, rfl⟩ | ⟨frame', moves⟩
        · left
          refine ⟨[], answer, actions, pump.exitRunLoop frame rest,
            rfl, ?_, rfl⟩
          rw [List.nil_append, perform_of_step taken]
          rfl
        · have pendingNext : next.Pending := by
            rw [pending_iff moves.frames, moves.depth]
            exact (pending_iff frames).mp pending
          have less := moves.rank pending
          rcases ih soundNext moves.frames pendingNext ranNext
              (calm.2 next taken) with returns | ⟨last, facts⟩
          · exact .inl (returns.cons taken)
          · right
            refine ⟨last, facts.1, facts.2.1, facts.2.2.1, ?_⟩
            rw [List.countP_cons_of_pos rfl]
            have bound := facts.2.2.2
            omega
      | _ => cases pumps

theorem rank_bounds (point : PumpPoint) : 0 < rank point ∧ rank point ≤ 5 := by
  cases point <;> exact ⟨by simp [rank], by simp [rank]⟩

/-- Where no run is entered inside of one with a pending `Quit`: every run
that has returned had a `Quit` while it was the innermost one, and leaves the
enclosing runs active.  A run that gets a `Quit` while it is the innermost one
returns within five of its steps, and is blocked before only where the
`Signal` of a `Quit` is outstanding. -/
theorem quit_ends_innermost {actions : List PumpAction}
    (ran : perform MessagePump.step {} actions = some pump)
    (calm : Avoids MessagePump.step Reenters {} actions) :
    (∀ mark ∈ pump.returned, mark = true) ∧
    (∀ answer next, pump.step (.pump answer) = some next →
      next.frames.length < pump.frames.length →
        ∀ depth > 0, next.isRunLoopActive depth = true) ∧
    ∀ frame rest quit after final, pump.frames = frame :: rest →
      pump.step .quit = some quit →
      perform MessagePump.step quit after = some final →
      Avoids MessagePump.step Reenters quit after →
        (5 ≤ after.countP PumpAction.isPump → quit.Returns rest after) ∧
        (quit.Returns rest after ∨ ∀ answer,
          (final.step (.pump answer)).isSome ∨ 0 < final.quitting) := by
  have sound := sound_of_run ran calm
  refine ⟨sound.returned, ?_, ?_⟩
  · intro answer next taken fewer depth positive
    rw [step] at taken
    split at taken
    case h_1 frame rest frames =>
        rcases proceed_moves sound frames taken with
          ⟨exits, rfl⟩ | ⟨moved, moves⟩
        · rw [isRunLoopActive, (sound.exit frames exits).2]
          exact decide_eq_true positive
        · rw [moves.frames, frames] at fewer
          exact absurd fewer (Nat.lt_irrefl _)
    case h_2 => cases taken
  · intro frame rest quit after final frames taken ranAfter calmAfter
    have soundQuit := sound.step id taken
    cases taken
    have list : pump.requestQuitInnermostRun.frames =
        { frame with quit := true } :: rest := by
      unfold requestQuitInnermostRun
      rw [frames]
    have pending : pump.requestQuitInnermostRun.Pending := by
      unfold requestQuitInnermostRun
      rw [frames]
      rfl
    rcases returns_or_nearer soundQuit list pending ranAfter calmAfter with
      returns | ⟨last, soundLast, listLast, pendingLast, nearer⟩
    · exact ⟨fun _ => returns, .inl returns⟩
    · refine ⟨fun enough => ?_, .inr fun answer => ?_⟩
      · have most := (rank_bounds frame.point).2
        have least := (rank_bounds last.point).1
        exact absurd nearer (by dsimp only; omega)
      · rw [step, listLast]
        exact goes_on soundLast listLast pendingLast answer

/-- A run in its callback gets a `Quit` and goes on to its end. -/
def quitInCallback : List PumpAction :=
  [.pump {}, .pump {}, .pump {}, .pump {}, .pump {}]

theorem quit_ends_innermost_callback :
    ∃ pump quit final, perform MessagePump.step {} [.run, .pump {}] =
        some pump ∧ pump.step .quit = some quit ∧
      perform MessagePump.step quit quitInCallback = some final ∧
      quit.Returns [] quitInCallback := by
  have ran : perform MessagePump.step {} [.run, .pump {}] =
    some ((perform MessagePump.step {} [.run, .pump {}]).getD {}) := rfl
  have ended := (quit_ends_innermost ran (by decide)).2.2 _ [] _
    quitInCallback _ rfl rfl rfl (by decide)
  exact ⟨_, _, _, ran, rfl, rfl, ended.1 (by decide)⟩

/-- The outer run gets a `Quit` in its callback, which then enters an inner
run.  The inner run ends by its own `Quit`, and the outer one goes to
sleep. -/
def lostQuit : List PumpAction :=
  [.run, .pump {}, .quit, .quitSignal, .run, .pump {}, .quit, .quitSignal] ++
    List.replicate 5 (.pump {}) ++
    -- The outer run, behind its `DoWork`.
    List.replicate 14 (.pump {})

theorem quit_lost_nested :
    (perform MessagePump.step {} lostQuit).map (fun pump =>
        (pump.frames, pump.quitRunDepth, pump.wakeUpEvent, pump.quitting,
          pump.returned)) =
      some ([⟨.wait, none, true⟩], 0, false, 0, [true]) := by
  decide +kernel

end MessagePump

end Libnei.Task

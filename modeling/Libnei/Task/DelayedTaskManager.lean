import Libnei.Lib.Actions
import Mathlib.Data.List.AList
import Mathlib.Data.List.Sort

/-!
# The delayed task manager

`DelayedTaskManager` (`delayed_task_manager.cpp`) with the queues it watches:
the sections under its lock, the wake event, and its thread.  A queue is as
far modelled as the manager sees it, which is by the run times of its delayed
tasks.  All times are in microseconds.

Every `OnQueueUpdated` of a queue with delayed work pushes a heap entry, also
where the queue's first run time is the one it was.
-/

namespace Libnei.Task

open Lib

variable {Queue : Type} [DecidableEq Queue]

structure HeapEntry (Queue : Type) where
  queue : Queue
  runTime : Nat
  order : Nat
  deriving DecidableEq

/-- `HeapEntryLess`: the entry is nearer to the top. -/
def HeapEntry.Above (entry other : HeapEntry Queue) : Prop :=
  entry.runTime < other.runTime ∨
    entry.runTime = other.runTime ∧ entry.order < other.order

instance : DecidableRel (@HeapEntry.Above Queue) :=
  fun _ _ => inferInstanceAs (Decidable (_ ∨ _))

inductive ManagerPoint (Queue : Type)
  /-- In front of the first lock section. -/
  | top
  /-- In `wake_event_.Wait()`. -/
  | waiting
  | popped (entry : HeapEntry Queue)
  /-- In front of the second lock section, with the clock it has read. -/
  | early (entry : HeapEntry Queue) (now : Nat)
  | computed (runTime now : Nat)
  /-- In `wake_event_.TimedWait()` since `start`. -/
  | timedWaiting (runTime now start : Nat)
  | due (queue : Queue)
  | promoted (queue : Queue)
  | returned
  deriving DecidableEq

/-- The entries that the thread has in its hands. -/
def ManagerPoint.held : ManagerPoint Queue → Nat
  | .popped _ | .early _ _ => 1
  | _ => 0

/-- `heap` has its top first.  `outstanding` counts the posts of a queue whose
`OnQueueUpdated` is still to come; `changes` counts how often the first run
time of a queue has changed, and `unseen` has the queues where it has changed
since their last refresh. -/
structure DelayedTaskManager (Queue : Type) where
  delayed : Queue → List Nat := fun _ => []
  shutDown : Queue → Bool := fun _ => false
  queues : AList (fun _ : Queue => Option Nat) := ∅
  heap : List (HeapEntry Queue) := []
  nextOrder : Nat := 0
  wakeEvent : Bool := false
  isShutdown : Bool := false
  point : ManagerPoint Queue := .top
  clock : Nat := 0
  outstanding : Queue → Nat := fun _ => 0
  unseen : List Queue := []
  changes : Nat := 0

inductive ManagerAction (Queue : Type)
  /-- A queue takes a delayed task. -/
  | post (queue : Queue) (runTime : Nat)
  /-- The post calls `OnQueueUpdated`. -/
  | posted (queue : Queue)
  /-- A worker calls `OnQueueUpdated`. -/
  | update (queue : Queue)
  /-- Delayed tasks leave a queue, `rest` stay. -/
  | take (queue : Queue) (rest : List Nat)
  | shutdownQueue (queue : Queue)
  | addQueue (queue : Queue)
  | removeQueue (queue : Queue)
  /-- The lock section of `Shutdown`. -/
  | shutdown
  /-- `Shutdown` signals the event. -/
  | signal
  | wait (time : Nat)
  | thread

namespace DelayedTaskManager

variable (manager : DelayedTaskManager Queue)

/-- The run time that a refresh finds. -/
def nextRunTime (queue : Queue) : Option Nat :=
  if manager.shutDown queue then none else (manager.delayed queue).min?

def setDelayed (queue : Queue) (times : List Nat) : DelayedTaskManager Queue :=
  let delayed := Function.update manager.delayed queue times
  if times.min? = (manager.delayed queue).min? then { manager with delayed }
  else
    { manager with
      delayed
      unseen := manager.unseen.insert queue
      changes := manager.changes + 1 }

def push (entry : HeapEntry Queue) : List (HeapEntry Queue) :=
  manager.heap.orderedInsert HeapEntry.Above entry

def refreshQueueState (queue : Queue) : DelayedTaskManager Queue :=
  match manager.queues.lookup queue with
  | none => manager
  | some _ =>
      let refreshed :=
        { manager with
          queues := manager.queues.insert queue (manager.nextRunTime queue)
          unseen := manager.unseen.erase queue }
      match manager.nextRunTime queue with
      | none => refreshed
      | some runTime =>
          { refreshed with
            heap := manager.push ⟨queue, runTime, manager.nextOrder⟩
            nextOrder := manager.nextOrder + 1 }

/-- The thread has something to reconsider. -/
def wakes : Option Nat → Option Nat → Bool
  | none, updated => updated.isSome
  | some _, none => true
  | some previous, some updated => updated < previous

def onQueueUpdated (queue : Queue) : DelayedTaskManager Queue :=
  if manager.isShutdown then manager
  else
    match manager.queues.lookup queue with
    | none => manager
    | some previous =>
        { manager.refreshQueueState queue with
          wakeEvent := manager.wakeEvent ||
            wakes previous (manager.nextRunTime queue) }

def addQueue (queue : Queue) : DelayedTaskManager Queue :=
  if manager.isShutdown then manager
  else
    -- `emplace` leaves a queue that is there already.
    let emplaced :=
      if (manager.queues.lookup queue).isSome then manager
      else { manager with queues := manager.queues.insert queue none }
    { emplaced.refreshQueueState queue with wakeEvent := true }

def removeQueue (queue : Queue) : DelayedTaskManager Queue :=
  { manager with
    queues := manager.queues.erase queue
    wakeEvent := true }

def shutdown : DelayedTaskManager Queue :=
  { manager with isShutdown := true, queues := ∅, heap := [] }

def popNextValidEntry (queues : AList fun _ : Queue => Option Nat) :
    List (HeapEntry Queue) → Option (HeapEntry Queue) × List (HeapEntry Queue)
  | [] => (none, [])
  | entry :: heap =>
      if queues.lookup entry.queue = some (some entry.runTime) then
        (some entry, heap)
      else popNextValidEntry queues heap

/-- The length of the timed wait. -/
def waitMilliseconds (runTime now : Nat) : Nat :=
  let milliseconds := (runTime - now) / 1000
  if milliseconds ≤ 0 then 1 else milliseconds

/-- When a wait that has begun at `start` ends. -/
def waitEnd (runTime now start : Nat) : Nat :=
  start + 1000 * waitMilliseconds runTime now

/-- `ThreadMain`, `none` where the thread is blocked or has returned. -/
def threadMain : Option (DelayedTaskManager Queue) :=
  match manager.point with
  | .top =>
      if manager.isShutdown then some { manager with point := .returned }
      else
        match popNextValidEntry manager.queues manager.heap with
        | (some entry, heap) =>
            some { manager with heap, point := .popped entry }
        | (none, heap) => some { manager with heap, point := .waiting }
  | .waiting =>
      if manager.wakeEvent then
        some { manager with wakeEvent := false, point := .top }
      else none
  | .popped entry =>
      if manager.clock < entry.runTime then
        some { manager with point := .early entry manager.clock }
      else some { manager with point := .due entry.queue }
  | .early entry now =>
      let heap :=
        if !manager.isShutdown ∧ manager.queues.lookup entry.queue =
            some (some entry.runTime) then manager.push entry
        else manager.heap
      some { manager with heap, point := .computed entry.runTime now }
  | .computed runTime now =>
      some { manager with point := .timedWaiting runTime now manager.clock }
  | .timedWaiting runTime now start =>
      if manager.wakeEvent then
        some { manager with wakeEvent := false, point := .top }
      else if waitEnd runTime now start ≤ manager.clock then
        some { manager with point := .top }
      else none
  | .due queue =>
      if manager.shutDown queue then some { manager with point := .top }
      else
        let later := (manager.delayed queue).filter (manager.clock < ·)
        some { manager.setDelayed queue later with point := .promoted queue }
  | .promoted queue =>
      some { manager.onQueueUpdated queue with point := .top }
  | .returned => none

def step : ManagerAction Queue → Option (DelayedTaskManager Queue)
  | .post queue runTime =>
      let times := runTime :: manager.delayed queue
      -- Only an earlier head calls the callback for delayed tasks.
      let calls :=
        if times.min? = (manager.delayed queue).min? then 0 else 1
      some { manager.setDelayed queue times with
        outstanding := Function.update manager.outstanding queue
          (manager.outstanding queue + calls) }
  | .posted queue =>
      if 0 < manager.outstanding queue then
        some { manager.onQueueUpdated queue with
          outstanding := Function.update manager.outstanding queue
            (manager.outstanding queue - 1) }
      else none
  | .update queue => some (manager.onQueueUpdated queue)
  | .take queue rest =>
      if rest ⊆ manager.delayed queue then
        some (manager.setDelayed queue rest)
      else none
  | .shutdownQueue queue =>
      some { manager with
        shutDown := Function.update manager.shutDown queue true }
  | .addQueue queue => some (manager.addQueue queue)
  | .removeQueue queue => some (manager.removeQueue queue)
  | .shutdown => some manager.shutdown
  | .signal =>
      if manager.isShutdown then some { manager with wakeEvent := true }
      else none
  | .wait time => some { manager with clock := manager.clock + time }
  | .thread => manager.threadMain

/-- The queue's first run time is the one of its last refresh. -/
abbrev Unchanged (queue : Queue) : Prop :=
  (manager.nextRunTime queue).isSome ∧ queue ∉ manager.unseen

/-- A queue is refreshed that has not changed. -/
def Repeats (action : ManagerAction Queue) : Prop :=
  manager.isShutdown = false ∧
    match action with
    | .posted queue | .update queue =>
        queue ∈ manager.queues ∧ manager.Unchanged queue
    | .addQueue queue => manager.Unchanged queue
    | .thread => ∃ queue ∈ manager.queues.keys,
        manager.point = .promoted queue ∧ manager.Unchanged queue
    | .post _ _ | .take _ _ | .shutdownQueue _ | .removeQueue _ | .shutdown
    | .signal | .wait _ => False

instance (action : ManagerAction Queue) :
    Decidable (manager.Repeats action) := by
  cases action <;> unfold Repeats <;> infer_instance

/-- Every entry and every queue that may still push one has its change. -/
def Bounded : Prop :=
  manager.heap.length + manager.point.held + manager.unseen.length ≤
    manager.changes

variable {manager} {next : DelayedTaskManager Queue} {queue : Queue}

theorem setDelayed_bounded (bounded : manager.Bounded) (queue : Queue)
    (times : List Nat) : (manager.setDelayed queue times).Bounded := by
  unfold setDelayed
  dsimp only
  split
  · exact bounded
  · have longer : (manager.unseen.insert queue).length ≤
        manager.unseen.length + 1 := by
      rw [List.length_insert]
      split <;> omega
    exact Nat.le_trans (Nat.add_le_add_left longer _)
      (Nat.succ_le_succ bounded)

theorem length_erase_le (queues : List Queue) (queue : Queue) :
    (queues.erase queue).length ≤ queues.length :=
  List.erase_sublist.length_le

section

variable (bounded : manager.Bounded)

include bounded

theorem refresh_bounded
    (changed : queue ∈ manager.queues → ¬manager.Unchanged queue) :
    (manager.refreshQueueState queue).Bounded := by
  unfold Bounded at bounded
  unfold refreshQueueState
  split
  case h_1 => exact bounded
  case h_2 _ registered =>
    dsimp only
    split
    case h_1 =>
      have shorter := length_erase_le manager.unseen queue
      exact Nat.le_trans (Nat.add_le_add_left shorter _) bounded
    case h_2 runTime found =>
      have member : queue ∈ manager.unseen := by
        by_contra absent
        refine changed ?_ ⟨by rw [found]; rfl, absent⟩
        exact AList.lookup_isSome.mp (by rw [registered]; rfl)
      have one := List.length_erase_add_one member
      unfold Bounded
      rw [push, List.orderedInsert_length]
      dsimp only
      omega

theorem onQueueUpdated_bounded (changed : ¬manager.Repeats (.update queue)) :
    (manager.onQueueUpdated queue).Bounded := by
  unfold onQueueUpdated
  split
  · exact bounded
  · next active =>
    split
    · exact bounded
    · exact refresh_bounded bounded fun member same =>
        changed ⟨Bool.eq_false_iff.mpr active, member, same⟩

theorem addQueue_bounded (changed : ¬manager.Repeats (.addQueue queue)) :
    (manager.addQueue queue).Bounded := by
  unfold addQueue
  split
  · exact bounded
  · next active =>
    have changed : ¬manager.Unchanged queue := fun same =>
      changed ⟨Bool.eq_false_iff.mpr active, same⟩
    dsimp only
    split
    · exact refresh_bounded bounded fun _ => changed
    · exact @refresh_bounded Queue _ { manager with
        queues := manager.queues.insert queue none } queue bounded
        fun _ => changed

end

theorem popNextValidEntry_length (queues : AList fun _ : Queue => Option Nat)
    (heap : List (HeapEntry Queue)) :
    (popNextValidEntry queues heap).2.length +
      (popNextValidEntry queues heap).1.toList.length ≤ heap.length := by
  induction heap with
  | nil => exact Nat.le_refl 0
  | cons entry heap ih =>
    rw [popNextValidEntry]
    split
    · exact Nat.le_refl _
    · exact Nat.le_succ_of_le ih

omit [DecidableEq Queue] in
theorem Bounded.moved (bounded : manager.Bounded)
    {heap : List (HeapEntry Queue)} {point : ManagerPoint Queue}
    {wakeEvent : Bool} (fewer : heap.length + point.held ≤
      manager.heap.length + manager.point.held) :
    Bounded { manager with heap, point, wakeEvent } :=
  Nat.le_trans (Nat.add_le_add_right fewer _) bounded

theorem threadMain_bounded (bounded : manager.Bounded)
    (changed : ¬manager.Repeats .thread)
    (taken : manager.threadMain = some next) : next.Bounded := by
  unfold threadMain at taken
  split at taken
  case h_1 atTop =>
    have shorter := popNextValidEntry_length manager.queues manager.heap
    split at taken
    · cases taken
      exact bounded.moved (Nat.add_le_add_left (Nat.zero_le _) _)
    · split at taken
      case h_1 entry heap popped =>
        cases taken
        rw [popped] at shorter
        exact bounded.moved (Nat.le_add_right_of_le shorter)
      case h_2 heap popped =>
        cases taken
        rw [popped] at shorter
        exact bounded.moved (Nat.le_add_right_of_le shorter)
  case h_2 inWait =>
    split at taken <;> cases taken
    exact bounded.moved (Nat.add_le_add_left (Nat.zero_le _) _)
  case h_3 entry popped =>
    split at taken <;> cases taken
    · refine bounded.moved ?_
      rw [popped]
      exact Nat.le_refl _
    · exact bounded.moved (Nat.add_le_add_left (Nat.zero_le _) _)
  case h_4 entry now early =>
    cases taken
    refine bounded.moved ?_
    rw [early]
    split
    · rw [push, List.orderedInsert_length]
      exact Nat.le_refl _
    · exact Nat.le_succ _
  case h_5 runTime now computed =>
    cases taken
    exact bounded.moved (Nat.add_le_add_left (Nat.zero_le _) _)
  case h_6 runTime now start inWait =>
    split at taken
    · cases taken
      exact bounded.moved (Nat.add_le_add_left (Nat.zero_le _) _)
    · split at taken <;> cases taken
      exact bounded.moved (Nat.add_le_add_left (Nat.zero_le _) _)
  case h_7 queue due =>
    split at taken <;> cases taken
    · exact bounded.moved (Nat.add_le_add_left (Nat.zero_le _) _)
    · exact (setDelayed_bounded bounded queue _).moved
        (Nat.add_le_add_left (Nat.zero_le _) _)
  case h_8 queue promoted =>
    cases taken
    refine (onQueueUpdated_bounded bounded ?_).moved
      (Nat.add_le_add_left (Nat.zero_le _) _)
    rintro ⟨active, member, same⟩
    exact changed ⟨active, queue, member, promoted, same⟩
  case h_9 => cases taken

theorem Bounded.step {action : ManagerAction Queue}
    (bounded : manager.Bounded) (changed : ¬manager.Repeats action)
    (taken : manager.step action = some next) : next.Bounded := by
  cases action with
  | post queue runTime =>
    cases taken
    exact setDelayed_bounded bounded queue _
  | posted queue =>
    rw [DelayedTaskManager.step] at taken
    split at taken <;> cases taken
    exact onQueueUpdated_bounded bounded changed
  | update queue =>
    cases taken
    exact onQueueUpdated_bounded bounded changed
  | take queue rest =>
    rw [DelayedTaskManager.step] at taken
    split at taken <;> cases taken
    exact setDelayed_bounded bounded queue rest
  | addQueue queue =>
    cases taken
    exact addQueue_bounded bounded changed
  | shutdown =>
    cases taken
    refine Nat.le_trans ?_ bounded
    exact Nat.add_le_add_right (Nat.add_le_add_right (Nat.zero_le _) _) _
  | signal =>
    rw [DelayedTaskManager.step] at taken
    split at taken <;> cases taken
    exact bounded
  | shutdownQueue _ | removeQueue _ | wait _ =>
    cases taken
    exact bounded
  | thread => exact threadMain_bounded bounded changed taken

/-- Where no queue is refreshed whose first run time has not changed since its
last refresh, the heap has at most one entry for every registered queue and
every change. -/
theorem heap_within_changes {actions : List (ManagerAction Queue)}
    (ran : perform DelayedTaskManager.step {} actions = some manager)
    (changed : Avoids DelayedTaskManager.step Repeats {} actions) :
    manager.heap.length ≤ manager.queues.keys.length + manager.changes := by
  have bounded : manager.Bounded :=
    perform_avoiding (fun bounded changed taken => bounded.step changed taken)
      ran changed (Nat.le_refl 0)
  unfold Bounded at bounded
  omega

def oneTask : List (ManagerAction Unit) :=
  [.addQueue (), .post () 1000000, .posted ()]

theorem heap_within_changes_oneTask :
    ∃ manager, perform DelayedTaskManager.step {} oneTask = some manager ∧
      manager.heap = [⟨(), 1000000, 0⟩] ∧
      manager.heap.length ≤
        manager.queues.keys.length + manager.changes := by
  have ran : perform DelayedTaskManager.step {} oneTask =
    some ((perform DelayedTaskManager.step {} oneTask).getD {}) := rfl
  exact ⟨_, ran, rfl, heap_within_changes ran (by decide)⟩

/-- A worker that runs immediate tasks of the queue adds an entry with every
batch. -/
theorem heap_beyond_changes :
    (perform DelayedTaskManager.step {}
        (oneTask ++ [.update (), .update (), .update ()])).map
        (fun manager => (manager.heap.length, manager.queues.keys.length,
          manager.changes)) =
      some (4, 1, 1) := by
  decide +kernel

end DelayedTaskManager

end Libnei.Task

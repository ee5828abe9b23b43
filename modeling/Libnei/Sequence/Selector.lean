import Libnei.Lib.Actions
import Mathlib.Algebra.Group.Nat.Defs
import Mathlib.Data.Fintype.Basic
import Mathlib.Logic.Function.Basic

/-!
# The queue selector

`task_queue_selector.cpp`: per priority a mask with a bit for each queue that
has work, a round-robin index, and quotas across the priorities.  A shift of a
mask by 64 gives no bits.
-/

namespace Libnei.Sequence

open Lib

variable {Queue : Type}

inductive TaskPriority
  | bestEffort
  | userVisible
  | userBlocking
  deriving DecidableEq

def priorityToIndex : TaskPriority → Fin 3
  | .userBlocking => 0
  | .bestEffort => 2
  | .userVisible => 1

def maxQueuesPerPriority : Nat := 63

/-- `kQuotaUserBlocking`, `kQuotaUserVisible` and `kQuotaBestEffort`. -/
def quota : Fin 3 → Nat
  | 0 => 4
  | 1 => 2
  | 2 => 1

/-- `kUbShift`, `kUvShift` and `kBeShift`. -/
def shift : Fin 3 → Nat
  | 0 => 0
  | 1 => 4
  | 2 => 8

structure PriorityLevel (Queue : Type) where
  queues : List Queue := []
  workMask : BitVec 64 := 0
  roundRobinIndex : Nat := 0

/-- `active` has the bits of `active_priority_mask_`. -/
structure TaskQueueSelector (Queue : Type) where
  levels : Fin 3 → PriorityLevel Queue := fun _ => {}
  active : Fin 3 → Bool := fun _ => false
  scheduleCounter : Nat := 0

def priorities : List (Fin 3) := [0, 1, 2]

namespace TaskQueueSelector

variable (selector : TaskQueueSelector Queue)

def setLevel (priority : Fin 3) (level : PriorityLevel Queue) :
    TaskQueueSelector Queue :=
  { selector with levels := Function.update selector.levels priority level }

/-- Gives the bit position of the queue; the `CHECK` fails, with `none`, where
the level is full. -/
def addQueue (queue : Queue) (priority : TaskPriority) :
    Option (Nat × TaskQueueSelector Queue) :=
  let index := priorityToIndex priority
  let level := selector.levels index
  if level.queues.length ≥ maxQueuesPerPriority then none
  else
    some (level.queues.length, selector.setLevel index
      { level with queues := level.queues ++ [queue] })

/-- Where `SetQueueHasWork` finds the queue. -/
def position [DecidableEq Queue] (queue : Queue) : Option (Fin 3 × Nat) :=
  priorities.findSome? fun priority =>
    ((selector.levels priority).queues.findIdx? (· = queue)).map
      (priority, ·)

def setQueueHasWork [DecidableEq Queue] (queue : Queue) (hasWork : Bool) :
    TaskQueueSelector Queue :=
  match selector.position queue with
  | none => selector
  | some (priority, index) =>
      let level := selector.levels priority
      let bit := BitVec.twoPow 64 index
      if hasWork then
        { selector.setLevel priority
            { level with workMask := level.workMask ||| bit } with
          active := Function.update selector.active priority true }
      else
        let workMask := level.workMask &&& ~~~bit
        let cleared := selector.setLevel priority { level with workMask }
        if workMask = 0 then
          { cleared with
            active := Function.update selector.active priority false }
        else cleared

/-- The selections of the level in this round. -/
def used (priority : Fin 3) : Nat :=
  selector.scheduleCounter >>> shift priority &&& 0xF

def maybeResetScheduleRound : TaskQueueSelector Queue :=
  if priorities.all fun priority =>
      !selector.active priority || quota priority ≤ selector.used priority then
    { selector with scheduleCounter := 0 }
  else selector

def isOpen (priority : Fin 3) : Bool :=
  selector.active priority && selector.used priority < quota priority

/-- The queue that the loop of `SelectNextQueue` finds in the level. -/
def candidate (priority : Fin 3) : Option Nat :=
  if !selector.isOpen priority then none
  else
    let level := selector.levels priority
    if level.workMask = 0 ∨ level.queues = [] then none
    else
      let count := level.queues.length
      let start := level.roundRobinIndex % count
      let rotated :=
        level.workMask >>> start ||| level.workMask <<< (64 - start)
      let offset := rotated.ctz.toNat
      if offset ≥ count then none else some ((start + offset) % count)

/-- The level and the queue that the loop of `SelectNextQueue` ends at. -/
def choose : Option (Fin 3 × Nat) :=
  priorities.findSome? fun priority =>
    (selector.candidate priority).map (priority, ·)

def take (priority : Fin 3) (index : Nat) : TaskQueueSelector Queue :=
  let level := selector.levels priority
  { selector.setLevel priority
      { level with
        roundRobinIndex := (index + 1) % level.queues.length } with
    scheduleCounter :=
      (selector.scheduleCounter + 1 <<< shift priority) % 2 ^ 16 }

def selectNextQueue : Option Queue × TaskQueueSelector Queue :=
  let selector := selector.maybeResetScheduleRound
  match selector.choose with
  | none => (none, selector)
  | some (priority, index) =>
      ((selector.levels priority).queues[index]?, selector.take priority index)

/-- The work bit of the queue at this place is set. -/
def ready (priority : Fin 3) (index : Nat) : Bool :=
  (selector.levels priority).workMask.getLsbD index

/-- The first level with work and quota. -/
def visited : Option (Fin 3) := priorities.find? selector.isOpen

end TaskQueueSelector

/-! ## Histories -/

/-- A selector with the places that were selected. -/
structure SelectorHistory (Queue : Type) where
  selector : TaskQueueSelector Queue := {}
  chosen : List (Fin 3 × Nat) := []

inductive SelectorCall (Queue : Type)
  | addQueue (queue : Queue) (priority : TaskPriority)
  | setQueueHasWork (queue : Queue) (hasWork : Bool)
  | selectNextQueue

def SelectorHistory.next (history : SelectorHistory Queue) :
    Option (Fin 3 × Nat) :=
  history.selector.maybeResetScheduleRound.choose

def SelectorHistory.step [DecidableEq Queue] (history : SelectorHistory Queue) :
    SelectorCall Queue → Option (SelectorHistory Queue)
  | .addQueue queue priority =>
      (history.selector.addQueue queue priority).map fun (_, selector) =>
        { history with selector }
  | .setQueueHasWork queue hasWork =>
      some { history with
        selector := history.selector.setQueueHasWork queue hasWork }
  | .selectNextQueue =>
      some
        { selector := history.selector.selectNextQueue.2
          chosen := history.chosen ++ history.next.toList }

/-- A selection at a level whose queues with work all lie in front of the
round-robin index. -/
def SelectorHistory.Wraps (history : SelectorHistory Queue) :
    SelectorCall Queue → Prop
  | .selectNextQueue =>
      ∃ priority ∈ history.selector.maybeResetScheduleRound.visited,
        (history.selector.levels priority).workMask >>>
          ((history.selector.levels priority).roundRobinIndex %
            (history.selector.levels priority).queues.length) = 0
  | _ => False

instance (history : SelectorHistory Queue) (call : SelectorCall Queue) :
    Decidable (history.Wraps call) := by
  cases call <;> unfold SelectorHistory.Wraps <;> infer_instance

end Libnei.Sequence

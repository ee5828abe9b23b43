import Libnei.Lib.Bisection
import Mathlib.Algebra.Order.Group.Multiset
import Mathlib.Data.List.Sort

/-!
# The queue of a task runner

`sequenced_task_queue.cpp`.  Posting threads write the incoming list; a single
consumer has a work list of its own, which it fills with all of the incoming
list at once.
-/

namespace Libnei.Pool

variable {Task : Type}

/-- A task with its `sequence_num`. -/
structure Item (Task : Type) where
  number : Nat
  task : Task

/-- A task with its `delayed_run_time`. -/
structure DelayedItem (Task : Type) extends Item Task where
  due : Nat

/-- The order of the delayed tasks: `operator>` of two tasks, reversed. -/
def DelayedItem.before (item other : DelayedItem Task) : Bool :=
  if item.due = other.due then item.number ≤ other.number
  else item.due < other.due

structure TaskQueue (Task : Type) where
  incoming : List (Item Task) := []
  work : List (Item Task) := []
  delayed : List (DelayedItem Task) := []
  immediateNumber : Nat := 0
  delayedNumber : Nat := 0

namespace TaskQueue

/-- At the end, or where a bisection finds the first larger number. -/
def insertItem (incoming : List (Item Task)) (item : Item Task) :
    List (Item Task) :=
  match incoming.getLast? with
  | none => [item]
  | some last =>
      if last.number ≤ item.number then incoming ++ [item]
      else
        let place := Lib.upperBound (item.number < ·.number) incoming
        incoming.take place ++ item :: incoming.drop place

def pushImmediateTask (queue : TaskQueue Task) (task : Task) : TaskQueue Task :=
  let number := queue.immediateNumber + 1
  { queue with
    incoming := insertItem queue.incoming ⟨number, task⟩
    immediateNumber := number }

def pushDelayedTask (queue : TaskQueue Task) (due : Nat) (task : Task) :
    TaskQueue Task :=
  let number := queue.delayedNumber + 1
  { queue with
    delayed := queue.delayed.orderedInsert (fun item other =>
      item.before other) ⟨⟨number, task⟩, due⟩
    delayedNumber := number }

def promoteReadyDelayedTasks (queue : TaskQueue Task) (now : Nat) :
    TaskQueue Task :=
  { queue with
    incoming := queue.incoming ++
      (queue.delayed.takeWhile (·.due ≤ now)).map DelayedItem.toItem
    delayed := queue.delayed.dropWhile (·.due ≤ now) }

/-- The loop of `TakeImmediateTasks`, which also ends behind a task that
blocks the shutdown. -/
def takeTasks (blocks : Task → Bool) :
    Nat → List (Item Task) → List Task × List (Item Task)
  | 0, items => ([], items)
  | _ + 1, [] => ([], [])
  | max + 1, item :: items =>
      if blocks item.task then ([item.task], items)
      else
        let (taken, rest) := takeTasks blocks max items
        (item.task :: taken, rest)

/-- `ReloadWorkQueueIfEmpty`. -/
def reload (queue : TaskQueue Task) : TaskQueue Task :=
  if queue.work.isEmpty then
    { queue with work := queue.incoming, incoming := [] }
  else queue

def takeImmediateTask (singleConsumer : Bool) (queue : TaskQueue Task) :
    Option Task × TaskQueue Task :=
  if singleConsumer then
    let reloaded := queue.reload
    match reloaded.work with
    | [] => (none, reloaded)
    | item :: rest => (some item.task, { reloaded with work := rest })
  else
    match queue.incoming with
    | [] => (none, queue)
    | item :: rest => (some item.task, { queue with incoming := rest })

def takeImmediateTasks (blocks : Task → Bool) (singleConsumer : Bool)
    (max : Nat) (queue : TaskQueue Task) : List Task × TaskQueue Task :=
  if max = 0 then ([], queue)
  else if singleConsumer then
    let reloaded := queue.reload
    let (taken, rest) := takeTasks blocks max reloaded.work
    (taken, { reloaded with work := rest })
  else
    let (taken, rest) := takeTasks blocks max queue.incoming
    (taken, { queue with incoming := rest })

/-! ## What a queue holds -/

theorem takeTasks_append (blocks : Task → Bool) (max : Nat)
    (items : List (Item Task)) :
    (takeTasks blocks max items).1 ++
      (takeTasks blocks max items).2.map Item.task = items.map Item.task := by
  fun_induction takeTasks with
  | case1 => rfl
  | case2 => rfl
  | case3 => rfl
  | case4 max item items _ taken rest equation ih =>
    rw [equation] at ih
    exact congrArg (item.task :: ·) ih

theorem mem_of_takeTasks {blocks : Task → Bool} {max : Nat}
    {items : List (Item Task)} {item : Item Task}
    (member : item ∈ (takeTasks blocks max items).2) : item ∈ items := by
  fun_induction takeTasks with
  | case1 => exact member
  | case2 => exact member
  | case3 => exact List.mem_cons_of_mem _ member
  | case4 max first items _ taken rest equation ih =>
    rw [equation] at ih
    exact List.mem_cons_of_mem _ (ih member)

end TaskQueue

end Libnei.Pool

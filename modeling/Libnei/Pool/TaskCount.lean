import Libnei.Lib.Actions
import Libnei.Pool.TaskQueue
import Mathlib.Algebra.GroupWithZero.Nat

/-!
# The pool's count of pending tasks

`total_task_count_` of `PooledTaskSource`, with every way a task takes into
the pool and out of it (`task_runner.cpp`, `thread_pool.cpp`).  A post counts
its task in a callback behind the push; a worker counts it back before it runs
it, one by one for a batch.

A task for a parallel runner that is to run at once goes past the queue and is
not counted, though its worker counts it back.  The worker of the shared
runners does not count back what was counted.
-/

namespace Libnei.Pool

open Lib

variable {Task : Type}

inductive RunnerKind
  | sequenced
  | parallel
  | dedicated
  | shared
  deriving DecidableEq

/-- `set_single_consumer`. -/
def RunnerKind.singleConsumer : RunnerKind → Bool
  | .dedicated | .shared => true
  | .sequenced | .parallel => false

/-- A runner with its queue, and the tasks of its `ParallelTaskSequence`. -/
structure Runner (Task : Type) where
  kind : RunnerKind
  queue : TaskQueue Task := {}
  sequence : List Task := []

/-- `posting` counts the posts behind their push, `consuming` the tasks that a
worker has taken and not yet counted back. -/
structure TaskCount (Task : Type) where
  runners : List (Runner Task) := []
  totalTaskCount : Int := 0
  posting : Nat := 0
  consuming : Nat := 0

inductive CountAction (Task : Type)
  | create (kind : RunnerKind)
  /-- A post, with the run time of a delayed task. -/
  | post (runner : Nat) (task : Task) (due : Option Nat)
  | notifyTaskPosted
  | promote (runner now : Nat)
  /-- A worker takes a batch of at most so many tasks from the queue. -/
  | takeBatch (runner max : Nat)
  /-- A worker takes a task from the sequence. -/
  | takeTask (runner : Nat)
  | notifyTaskConsumed

def TaskQueue.waiting (queue : TaskQueue Task) : Nat :=
  queue.incoming.length + queue.work.length + queue.delayed.length

namespace Runner

variable (runner : Runner Task)

/-- The tasks that were accepted and that no worker has taken. -/
def waiting : Nat := runner.queue.waiting + runner.sequence.length

/-- The task goes into the parallel sequence. -/
def bypasses (due : Option Nat) : Bool :=
  runner.kind = .parallel && due.isNone

def push (task : Task) (due : Option Nat) : Runner Task :=
  if runner.bypasses due then
    { runner with sequence := runner.sequence ++ [task] }
  else
    { runner with
      queue :=
        match due with
        | none => runner.queue.pushImmediateTask task
        | some due => runner.queue.pushDelayedTask due task }

end Runner

namespace TaskCount

variable (blocks : Task → Bool) (count : TaskCount Task)

def waiting : Nat := (count.runners.map Runner.waiting).sum

def setRunner (place : Nat) (runner : Runner Task) : TaskCount Task :=
  { count with runners := count.runners.set place runner }

/-- `ProcessTaskBatch` of both workers up to the first task. -/
def processTaskBatch (place max : Nat) (runner : Runner Task) :
    TaskCount Task :=
  let (taken, queue) := runner.queue.takeImmediateTasks blocks
    runner.kind.singleConsumer max
  { count.setRunner place { runner with queue } with
    consuming :=
      match runner.kind with
      | .shared => count.consuming
      | _ => count.consuming + taken.length }

def step (action : CountAction Task) : Option (TaskCount Task) :=
  match action with
  | .create kind =>
      some { count with runners := count.runners ++ [{ kind }] }
  | .post place task due =>
      count.runners[place]?.map fun runner =>
        { count.setRunner place (runner.push task due) with
          posting :=
            if runner.bypasses due then count.posting
            else count.posting + 1 }
  | .notifyTaskPosted =>
      if 0 < count.posting then
        some { count with
          totalTaskCount := count.totalTaskCount + 1
          posting := count.posting - 1 }
      else none
  | .promote place now =>
      count.runners[place]?.map fun runner =>
        count.setRunner place { runner with
          queue := runner.queue.promoteReadyDelayedTasks now }
  | .takeBatch place max =>
      count.runners[place]?.map (count.processTaskBatch blocks place max)
  | .takeTask place =>
      count.runners[place]?.bind fun runner =>
        match runner.sequence with
        | [] => none
        | _ :: sequence =>
            some { count.setRunner place { runner with sequence } with
              consuming := count.consuming + 1 }
  | .notifyTaskConsumed =>
      if 0 < count.consuming then
        some { count with
          totalTaskCount := count.totalTaskCount - 1
          consuming := count.consuming - 1 }
      else none

/-- A task is posted that only one side counts. -/
def Miscounts : CountAction Task → Prop
  | .post place _ due => ∃ runner ∈ count.runners[place]?,
      runner.kind = .shared ∨ runner.bypasses due = true
  | _ => False

instance (action : CountAction Task) : Decidable (count.Miscounts action) := by
  cases action <;> unfold Miscounts <;> infer_instance

/-- The count with the posts and the batches that are under way, and nothing
on the ways that are not counted. -/
structure Balanced : Prop where
  total : count.totalTaskCount + count.posting = count.waiting + count.consuming
  sequence : ∀ runner ∈ count.runners, runner.sequence = []
  shared : ∀ runner ∈ count.runners, runner.kind = .shared →
    runner.queue.waiting = 0

end TaskCount

theorem length_insertItem (incoming : List (Item Task)) (item : Item Task) :
    (TaskQueue.insertItem incoming item).length = incoming.length + 1 := by
  unfold TaskQueue.insertItem
  split
  case h_1 empty =>
    rw [List.getLast?_eq_none_iff.mp empty]
    rfl
  case h_2 =>
    split
    · rw [List.length_append]
      rfl
    · dsimp only
      rw [List.length_append, List.length_cons, ← Nat.add_assoc,
        ← List.length_append, List.take_append_drop]

namespace TaskQueue

variable (queue : TaskQueue Task)

theorem waiting_pushImmediateTask (task : Task) :
    (queue.pushImmediateTask task).waiting = queue.waiting + 1 := by
  unfold pushImmediateTask waiting
  dsimp only
  rw [length_insertItem]
  omega

theorem waiting_pushDelayedTask (due : Nat) (task : Task) :
    (queue.pushDelayedTask due task).waiting = queue.waiting + 1 := by
  unfold pushDelayedTask waiting
  dsimp only
  rw [List.orderedInsert_length]
  omega

theorem waiting_promote (now : Nat) :
    (queue.promoteReadyDelayedTasks now).waiting = queue.waiting := by
  have parts := congrArg List.length
    (List.takeWhile_append_dropWhile (p := (·.due ≤ now)) (l := queue.delayed))
  rw [List.length_append] at parts
  unfold promoteReadyDelayedTasks waiting
  dsimp only
  rw [List.length_append, List.length_map]
  omega

theorem waiting_takeImmediateTasks (blocks : Task → Bool)
    (singleConsumer : Bool) (max : Nat) :
    (queue.takeImmediateTasks blocks singleConsumer max).1.length +
      (queue.takeImmediateTasks blocks singleConsumer max).2.waiting =
        queue.waiting := by
  have parts (items : List (Item Task)) :
      (takeTasks blocks max items).1.length +
        (takeTasks blocks max items).2.length = items.length := by
    have append := congrArg List.length (takeTasks_append blocks max items)
    rw [List.length_append, List.length_map, List.length_map] at append
    exact append
  unfold takeImmediateTasks
  split_ifs
  · exact Nat.zero_add _
  · have reloaded : queue.reload.waiting = queue.waiting := by
      unfold reload waiting
      split
      case isTrue empty =>
        rw [List.isEmpty_iff.mp empty]
        dsimp only
        rw [List.length_nil]
        omega
      case isFalse => rfl
    have work := parts queue.reload.work
    unfold waiting at reloaded ⊢
    dsimp only
    omega
  · have incoming := parts queue.incoming
    unfold waiting
    dsimp only
    omega

end TaskQueue

theorem sum_map_set {α : Type} {items : List α} {place : Nat} {old : α}
    (measure : α → Nat) (found : items[place]? = some old) (new : α) :
    ((items.set place new).map measure).sum + measure old =
      (items.map measure).sum + measure new := by
  induction items generalizing place with
  | nil => cases found
  | cons item items ih =>
    cases place with
    | zero =>
      cases found
      rw [List.set_cons_zero, List.map_cons, List.map_cons,
        List.sum_cons, List.sum_cons]
      omega
    | succ place =>
      have rest := ih found
      rw [List.set_cons_succ, List.map_cons, List.map_cons,
        List.sum_cons, List.sum_cons]
      omega

namespace TaskCount

variable {blocks : Task → Bool} {count next : TaskCount Task}
variable {place : Nat} {runner : Runner Task}

/-- Another state of one runner, with what its change has set under way. -/
theorem Balanced.set (balanced : count.Balanced)
    (found : count.runners[place]? = some runner) {runner' : Runner Task}
    {posting consuming : Nat} (sequence : runner'.sequence = [])
    (shared : runner'.kind = .shared → runner'.queue.waiting = 0)
    (change : posting + runner.waiting + count.consuming =
      count.posting + runner'.waiting + consuming) :
    Balanced { count.setRunner place runner' with posting, consuming } := by
  have sum := sum_map_set Runner.waiting found runner'
  have total := balanced.total
  refine ⟨?_, ?_, ?_⟩
  · unfold waiting at total ⊢
    unfold setRunner
    dsimp only
    omega
  · intro other member
    rcases List.mem_or_eq_of_mem_set member with old | rfl
    · exact balanced.sequence other old
    · exact sequence
  · intro other member
    rcases List.mem_or_eq_of_mem_set member with old | rfl
    · exact balanced.shared other old
    · exact shared

theorem Balanced.create (balanced : count.Balanced) (kind : RunnerKind) :
    Balanced { count with runners := count.runners ++ [{ kind }] } := by
  have total := balanced.total
  refine ⟨?_, ?_, ?_⟩
  · have same : TaskCount.waiting { count with
        runners := count.runners ++ [{ kind }] } = count.waiting := by
      unfold waiting
      rw [List.map_append, List.sum_append]
      rfl
    rw [same]
    exact total
  · intro runner member
    rcases List.mem_append.mp member with old | new
    · exact balanced.sequence runner old
    · rw [List.mem_singleton.mp new]
  · intro runner member shared
    rcases List.mem_append.mp member with old | new
    · exact balanced.shared runner old shared
    · rw [List.mem_singleton.mp new]
      rfl

theorem waiting_push {due : Option Nat} (counted : runner.bypasses due = false)
    (task : Task) : (runner.push task due).waiting = runner.waiting + 1 := by
  unfold Runner.push
  rw [counted, if_neg Bool.false_ne_true]
  unfold Runner.waiting
  cases due with
  | none =>
    dsimp only
    rw [TaskQueue.waiting_pushImmediateTask]
    omega
  | some due =>
    dsimp only
    rw [TaskQueue.waiting_pushDelayedTask]
    omega

section

variable (balanced : count.Balanced)

include balanced

section

variable (found : count.runners[place]? = some runner)

include found

theorem Balanced.post (task : Task) {due : Option Nat}
    (own : runner.kind ≠ .shared) (counted : runner.bypasses due = false) :
    Balanced { count.setRunner place (runner.push task due) with
      posting := count.posting + 1 } := by
  have more := waiting_push counted task
  have same : (runner.push task due).kind = runner.kind ∧
      (runner.push task due).sequence = runner.sequence := by
    unfold Runner.push
    rw [counted]
    exact ⟨rfl, rfl⟩
  refine balanced.set found ?_ (fun shared => ?_) ?_
  · rw [same.2]
    exact balanced.sequence runner (List.mem_of_getElem? found)
  · exact absurd (same.1.symm.trans shared) own
  · show count.posting + 1 + runner.waiting + count.consuming =
      count.posting + (runner.push task due).waiting + count.consuming
    omega

theorem Balanced.processTaskBatch (max : Nat) :
    (count.processTaskBatch blocks place max runner).Balanced := by
  have member := List.mem_of_getElem? found
  have taken := runner.queue.waiting_takeImmediateTasks blocks
    runner.kind.singleConsumer max
  have none : runner.kind = .shared → runner.queue.waiting = 0 :=
    balanced.shared runner member
  unfold TaskCount.processTaskBatch
  rcases result : runner.queue.takeImmediateTasks blocks
    runner.kind.singleConsumer max with ⟨tasks, queue⟩
  rw [result] at taken
  dsimp only at taken ⊢
  refine balanced.set found (balanced.sequence runner member)
    (fun shared => ?_) ?_
  · have zero := none shared
    show queue.waiting = 0
    omega
  · show count.posting + (runner.queue.waiting + runner.sequence.length) +
      count.consuming = count.posting + (queue.waiting +
        runner.sequence.length) + _
    split
    case h_1 shared =>
      have zero := none shared
      omega
    case h_2 => omega

end

theorem Balanced.step {action : CountAction Task}
    (counted : ¬count.Miscounts action)
    (taken : count.step blocks action = some next) : next.Balanced := by
  have total := balanced.total
  cases action with
  | create kind =>
    cases taken
    exact balanced.create kind
  | post place task due =>
    obtain ⟨runner, found, rfl⟩ := Option.map_eq_some_iff.mp taken
    have own : runner.kind ≠ .shared :=
      fun shared => counted ⟨runner, found, .inl shared⟩
    have queued : runner.bypasses due = false := by
      rw [← Bool.not_eq_true]
      exact fun bypasses => counted ⟨runner, found, .inr bypasses⟩
    rw [queued]
    exact balanced.post found task own queued
  | notifyTaskPosted =>
    obtain ⟨posting, ⟨⟩⟩ := Option.ite_none_right_eq_some.mp taken
    refine ⟨?_, balanced.sequence, balanced.shared⟩
    show count.totalTaskCount + 1 + ((count.posting - 1 : Nat) : Int) =
      count.waiting + count.consuming
    omega
  | promote place now =>
    obtain ⟨runner, found, rfl⟩ := Option.map_eq_some_iff.mp taken
    have member := List.mem_of_getElem? found
    have same := runner.queue.waiting_promote now
    refine balanced.set found (balanced.sequence runner member)
      (fun shared => ?_) ?_
    · exact same.trans (balanced.shared runner member shared)
    · unfold Runner.waiting
      dsimp only
      rw [same]
  | takeBatch place max =>
    obtain ⟨runner, found, rfl⟩ := Option.map_eq_some_iff.mp taken
    exact balanced.processTaskBatch found max
  | takeTask place =>
    obtain ⟨runner, found, taken⟩ := Option.bind_eq_some_iff.mp taken
    rw [balanced.sequence runner (List.mem_of_getElem? found)] at taken
    cases taken
  | notifyTaskConsumed =>
    obtain ⟨consuming, ⟨⟩⟩ := Option.ite_none_right_eq_some.mp taken
    refine ⟨?_, balanced.sequence, balanced.shared⟩
    show count.totalTaskCount - 1 + (count.posting : Int) =
      count.waiting + ((count.consuming - 1 : Nat) : Int)
    omega

end

/-- Where no task is posted to a shared runner, or to a parallel one to run at
once, the count is the number of accepted tasks that no worker has taken, but
for the posts and the batches that are under way. -/
theorem pending_tasks_counted {actions : List (CountAction Task)}
    (ran : perform (TaskCount.step blocks) {} actions = some count)
    (counted : Avoids (TaskCount.step blocks) Miscounts {} actions) :
    count.totalTaskCount + count.posting = count.waiting + count.consuming ∧
      (count.posting = 0 → count.consuming = 0 →
        count.totalTaskCount = count.waiting) := by
  have balanced : count.Balanced := by
    refine perform_avoiding (fun balanced counted taken =>
      balanced.step counted taken) ran counted ?_
    exact ⟨rfl, by simp, by simp⟩
  have total := balanced.total
  exact ⟨total, fun _ _ => by omega⟩

/-- A sequenced runner with a task to run at once and a delayed one, the first
of which a worker takes. -/
def oneTaken : List (CountAction Unit) :=
  [.create .sequenced, .post 0 () none, .notifyTaskPosted,
    .post 0 () (some 5), .notifyTaskPosted, .takeBatch 0 64,
    .notifyTaskConsumed]

theorem pending_tasks_counted_oneTaken :
    ∃ count : TaskCount Unit,
      perform (TaskCount.step fun _ => false) {} oneTaken = some count ∧
      count.totalTaskCount = 1 ∧ count.totalTaskCount = count.waiting := by
  have ran : perform (TaskCount.step fun _ => false) {} oneTaken =
    some ((perform (TaskCount.step fun _ => false) {} oneTaken).getD {}) :=
    rfl
  exact ⟨_, ran, rfl, (pending_tasks_counted ran (by decide)).2 rfl rfl⟩

/-- One task through a shared runner, and one through a parallel runner. -/
theorem pending_tasks_miscounted :
    (perform (TaskCount.step fun _ => false) {}
        ([.create .shared, .post 0 () none, .notifyTaskPosted,
          .takeBatch 0 64] : List (CountAction Unit))).map (fun count =>
        (count.totalTaskCount, count.waiting, count.posting,
          count.consuming)) = some (1, 0, 0, 0) ∧
    (perform (TaskCount.step fun _ => false) {}
        ([.create .parallel, .post 0 () none, .takeTask 0,
          .notifyTaskConsumed] : List (CountAction Unit))).map (fun count =>
        (count.totalTaskCount, count.waiting, count.posting,
          count.consuming)) = some (-1, 0, 0, 0) := by
  decide +kernel

end TaskCount

end Libnei.Pool

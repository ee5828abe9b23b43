import Libnei.Lib.Actions
import Libnei.Pool.TaskQueue

/-!
# Order within a task queue

Immediate and delayed tasks have numbers from two counters, but an immediate
task is inserted by its number among both.  The order of the immediate tasks
is kept where the bisection is used on a partitioned queue only.
-/

namespace Libnei.Pool

open Lib

variable {Task : Type}

/-- A task and how it was posted; `number` counts the delayed posts. -/
inductive Posted (Task : Type)
  | immediate (task : Task)
  | delayed (due number : Nat) (task : Task)
  deriving DecidableEq

namespace Posted

def immediate? : Posted Task → Option Task
  | immediate task => some task
  | delayed _ _ _ => none

/-- The run time and the place in the order of posting. -/
def delayed? : Posted Task → Option (Nat × Nat)
  | immediate _ => none
  | delayed due number _ => some (due, number)

def task : Posted Task → Task
  | immediate task | delayed _ _ task => task

end Posted

/-- Order of run time and then of posting. -/
def Earlier (first second : Nat × Nat) : Prop :=
  first.1 < second.1 ∨ first.1 = second.1 ∧ first.2 < second.2

/-- A queue and what has happened to it. -/
structure QueueHistory (Task : Type) where
  queue : TaskQueue (Posted Task) := {}
  taken : List (Posted Task) := []
  pushed : List Task := []
  promotions : List Nat := []

inductive QueueCall (Task : Type)
  | pushImmediateTask (task : Task)
  | pushDelayedTask (due : Nat) (task : Task)
  | promoteReadyDelayedTasks (now : Nat)
  | takeImmediateTask
  | takeImmediateTasks (max : Nat)

namespace QueueHistory

def call (blocks : Task → Bool) (singleConsumer : Bool)
    (history : QueueHistory Task) : QueueCall Task → QueueHistory Task
  | .pushImmediateTask task =>
      { history with
        queue := history.queue.pushImmediateTask (.immediate task)
        pushed := history.pushed ++ [task] }
  | .pushDelayedTask due task =>
      { history with
        queue := history.queue.pushDelayedTask due
          (.delayed due (history.queue.delayedNumber + 1) task) }
  | .promoteReadyDelayedTasks now =>
      { history with
        queue := history.queue.promoteReadyDelayedTasks now
        promotions := history.promotions ++ [now] }
  | .takeImmediateTask =>
      let (task, queue) := history.queue.takeImmediateTask singleConsumer
      { history with queue, taken := history.taken ++ task.toList }
  | .takeImmediateTasks max =>
      let (tasks, queue) := history.queue.takeImmediateTasks
        (fun posted => blocks posted.task) singleConsumer max
      { history with queue, taken := history.taken ++ tasks }

def step (blocks : Task → Bool) (singleConsumer : Bool)
    (history : QueueHistory Task) (call : QueueCall Task) :
    Option (QueueHistory Task) :=
  some (history.call blocks singleConsumer call)

/-- An immediate task is inserted by bisection in a queue that is not
partitioned by its number. -/
def Misorders (history : QueueHistory Task) : QueueCall Task → Prop
  | .pushImmediateTask _ =>
      (∃ last ∈ history.queue.incoming.getLast?,
        history.queue.immediateNumber + 1 < last.number) ∧
      ¬Partitioned (history.queue.immediateNumber + 1 < ·.number)
        history.queue.incoming
  | _ => False

/-- A delayed task is due before a promotion that has been. -/
def Backdates (history : QueueHistory Task) : QueueCall Task → Prop
  | .pushDelayedTask due _ => ∃ now ∈ history.promotions, due < now
  | _ => False

instance (history : QueueHistory Task) (call : QueueCall Task) :
    Decidable (history.Misorders call) := by
  cases call <;> unfold QueueHistory.Misorders <;> infer_instance

instance (history : QueueHistory Task) (call : QueueCall Task) :
    Decidable (history.Backdates call) := by
  cases call <;> unfold QueueHistory.Backdates <;> infer_instance

/-- The tasks that were taken and those that can be taken, in this order. -/
def line (history : QueueHistory Task) : List (Posted Task) :=
  history.taken ++ history.queue.work.map Item.task ++
    history.queue.incoming.map Item.task

end QueueHistory

def DelayedItem.key (item : DelayedItem Task) : Nat × Nat :=
  (item.due, item.number)

/-! ## Taking -/

/-- The tasks come from the front, and the rest stays. -/
structure TaskQueue.Takes {Task : Type} (queue : TaskQueue Task)
    (tasks : List Task) (rest : TaskQueue Task) : Prop where
  line : tasks ++ (rest.work.map Item.task ++ rest.incoming.map Item.task) =
    queue.work.map Item.task ++ queue.incoming.map Item.task
  incoming : ∀ item ∈ rest.incoming, item ∈ queue.incoming
  delayed : rest.delayed = queue.delayed
  immediateNumber : rest.immediateNumber = queue.immediateNumber
  delayedNumber : rest.delayedNumber = queue.delayedNumber

variable (blocks : Task → Bool)

namespace TaskQueue

theorem takes_reload (queue : TaskQueue Task) :
    queue.Takes [] queue.reload := by
  unfold reload
  split
  case isTrue empty =>
    rw [List.isEmpty_iff] at empty
    refine ⟨?_, nofun, rfl, rfl, rfl⟩
    rw [empty]
    simp
  case isFalse _ => exact ⟨rfl, fun _ => id, rfl, rfl, rfl⟩

variable {queue : TaskQueue Task} {tasks : List Task} {task : Task}
  {singleConsumer : Bool}

variable {rest : List (Item Task)}

theorem Takes.work {reloaded : TaskQueue Task}
    (reloads : queue.Takes [] reloaded)
    (taken : tasks ++ rest.map Item.task = reloaded.work.map Item.task) :
    queue.Takes tasks { reloaded with work := rest } where
  line := by
    rw [← reloads.line, List.nil_append, ← taken, List.append_assoc]
  incoming := reloads.incoming
  delayed := reloads.delayed
  immediateNumber := reloads.immediateNumber
  delayedNumber := reloads.delayedNumber

theorem takes_incoming (unused : queue.work = [])
    (taken : tasks ++ rest.map Item.task = queue.incoming.map Item.task)
    (fewer : ∀ item ∈ rest, item ∈ queue.incoming) :
    queue.Takes tasks { queue with incoming := rest } where
  line := by
    rw [unused]
    exact taken
  incoming := fewer
  delayed := rfl
  immediateNumber := rfl
  delayedNumber := rfl

theorem takes_takeImmediateTasks (max : Nat)
    (unused : singleConsumer = false → queue.work = []) :
    queue.Takes
      (queue.takeImmediateTasks blocks singleConsumer max).1
      (queue.takeImmediateTasks blocks singleConsumer max).2 := by
  unfold takeImmediateTasks
  split_ifs with _ single
  · exact ⟨rfl, fun _ => id, rfl, rfl, rfl⟩
  · exact queue.takes_reload.work (takeTasks_append blocks max _)
  · exact takes_incoming (unused (by simpa using single))
      (takeTasks_append blocks max _) fun _ => mem_of_takeTasks

theorem takes_takeImmediateTask
    (unused : singleConsumer = false → queue.work = []) :
    queue.Takes (queue.takeImmediateTask singleConsumer).1.toList
      (queue.takeImmediateTask singleConsumer).2 := by
  cases singleConsumer with
  | true =>
    simp only [takeImmediateTask, if_true]
    split
    case h_1 _ => exact queue.takes_reload
    case h_2 item rest found =>
      refine queue.takes_reload.work ?_
      rw [found]
      rfl
  | false =>
    simp only [takeImmediateTask, Bool.false_eq_true, if_false]
    split
    case h_1 _ => exact ⟨rfl, fun _ => id, rfl, rfl, rfl⟩
    case h_2 item rest found =>
      refine takes_incoming (unused rfl) ?_ fun other member => ?_
      · rw [found]
        rfl
      · rw [found]
        exact List.mem_cons_of_mem _ member

theorem work_takeImmediateTask (unused : queue.work = []) :
    (queue.takeImmediateTask false).2.work = [] := by
  unfold takeImmediateTask
  rw [if_neg Bool.false_ne_true]
  split <;> exact unused

theorem work_takeImmediateTasks (max : Nat) (unused : queue.work = []) :
    (queue.takeImmediateTasks blocks false max).2.work = [] := by
  unfold takeImmediateTasks
  rw [if_neg Bool.false_ne_true]
  split <;> exact unused

/-! ## Inserting -/

/-- Where the item goes; what is behind it has larger numbers if the
bisection is used on a partitioned queue. -/
theorem insertItem_split {incoming : List (Item Task)} {item : Item Task}
    (orderly : (∃ last ∈ incoming.getLast?, item.number < last.number) →
      Partitioned (item.number < ·.number) incoming) :
    ∃ front back, incoming = front ++ back ∧
      insertItem incoming item = front ++ item :: back ∧
      ∀ other ∈ back, item.number < other.number := by
  unfold insertItem
  split
  case h_1 empty =>
    rw [List.getLast?_eq_none_iff] at empty
    exact ⟨[], [], empty, rfl, nofun⟩
  case h_2 last found =>
    split
    case isTrue _ => exact ⟨incoming, [], by simp, rfl, nofun⟩
    case isFalse larger =>
      have partitioned := orderly ⟨last, found, Nat.lt_of_not_le larger⟩
      refine ⟨_, _, (List.take_append_drop _ _).symm, rfl, ?_⟩
      intro other member
      rw [upperBound_eq partitioned] at member
      apply of_decide_eq_true
      apply partitioned
      have split := List.takeWhile_append_dropWhile
        (p := fun other : Item Task => !decide (item.number <
          other.number)) (l := incoming)
      conv at member =>
        rw [← split]
      rw [List.drop_left'] at member
      · exact member
      · rw [split]

end TaskQueue

namespace QueueHistory

variable {history : QueueHistory Task} {singleConsumer : Bool}

/-- The delayed tasks that were promoted, and those that were not. -/
def keys (history : QueueHistory Task) : List (Nat × Nat) :=
  history.line.filterMap Posted.delayed? ++
    history.queue.delayed.map DelayedItem.key

structure InOrder (singleConsumer : Bool) (history : QueueHistory Task) :
    Prop where
  unused : singleConsumer = false → history.queue.work = []
  immediates : history.line.filterMap Posted.immediate? = history.pushed
  numbered : ∀ item ∈ history.queue.incoming, ∀ task,
    item.task = .immediate task → item.number ≤ history.queue.immediateNumber
  labelled : ∀ item ∈ history.queue.delayed,
    ∃ task, item.task = .delayed item.due item.number task
  sorted : history.keys.Pairwise Earlier
  counted : ∀ key ∈ history.keys, key.2 ≤ history.queue.delayedNumber
  reached : ∀ key ∈ history.line.filterMap Posted.delayed?,
    ∃ now ∈ history.promotions, key.1 ≤ now

theorem InOrder.start : InOrder singleConsumer ({} : QueueHistory Task) where
  unused := fun _ => rfl
  immediates := rfl
  numbered := nofun
  labelled := nofun
  sorted := .nil
  counted := nofun
  reached := nofun

variable {rest : TaskQueue (Posted Task)}
  {items : List (DelayedItem (Posted Task))} {task : Task}

section

variable (inOrder : history.InOrder singleConsumer)

include inOrder

theorem InOrder.take {tasks : List (Posted Task)}
    (takes : history.queue.Takes tasks rest)
    (unused : singleConsumer = false → rest.work = []) :
    InOrder singleConsumer
      { history with queue := rest, taken := history.taken ++ tasks } := by
  have line : QueueHistory.line { history with
      queue := rest, taken := history.taken ++ tasks } = history.line := by
    unfold QueueHistory.line
    dsimp only
    rw [List.append_assoc, List.append_assoc, takes.line, List.append_assoc]
  have keys : QueueHistory.keys { history with
      queue := rest, taken := history.taken ++ tasks } = history.keys := by
    unfold QueueHistory.keys
    rw [line]
    dsimp only
    rw [takes.delayed]
  constructor
  · exact unused
  · rw [line]
    exact inOrder.immediates
  · intro item member task isImmediate
    rw [takes.immediateNumber]
    exact inOrder.numbered item (takes.incoming item member) task isImmediate
  · rw [takes.delayed]
    exact inOrder.labelled
  · rw [keys]
    exact inOrder.sorted
  · rw [keys, takes.delayedNumber]
    exact inOrder.counted
  · rw [line]
    exact inOrder.reached

theorem InOrder.labels (within : ∀ item ∈ items, item ∈ history.queue.delayed) :
    (items.map fun item => item.task).filterMap Posted.delayed? =
        items.map DelayedItem.key ∧
      (items.map fun item => item.task).filterMap Posted.immediate? = [] := by
  induction items with
  | nil => exact ⟨rfl, rfl⟩
  | cons item items ih =>
    obtain ⟨here, later⟩ := List.forall_mem_cons.mp within
    obtain ⟨task, labelled⟩ := inOrder.labelled item here
    obtain ⟨keys, nothing⟩ := ih later
    rw [List.map_cons, List.filterMap_cons, List.filterMap_cons, labelled]
    exact ⟨congrArg (item.key :: ·) keys, nothing⟩

theorem InOrder.promote (now : Nat) : InOrder singleConsumer { history with
      queue := history.queue.promoteReadyDelayedTasks now
      promotions := history.promotions ++ [now] } := by
  generalize ready : history.queue.delayed.takeWhile (·.due ≤ now) = promoted
  have within : ∀ item ∈ promoted, item ∈ history.queue.delayed := by
    rw [← ready]
    exact fun item member => (List.takeWhile_sublist _).subset member
  obtain ⟨keyed, notImmediate⟩ := inOrder.labels within
  generalize behind : ({ history with
      queue := history.queue.promoteReadyDelayedTasks now
      promotions := history.promotions ++ [now] } :
    QueueHistory Task) = after
  have incoming : after.queue.incoming = history.queue.incoming ++
      promoted.map DelayedItem.toItem := by
    rw [← behind, ← ready]
    rfl
  have line : after.line =
      history.line ++ promoted.map fun item => item.task := by
    unfold QueueHistory.line
    rw [incoming, ← behind, List.map_append, List.map_map, ← List.append_assoc]
    rfl
  have keys : after.keys = history.keys := by
    have parts := List.takeWhile_append_dropWhile
      (p := fun item : DelayedItem (Posted Task) => item.due ≤ now)
      (l := history.queue.delayed)
    unfold QueueHistory.keys
    rw [line, List.filterMap_append, keyed, List.append_assoc, ← behind]
    congr 1
    rw [← ready]
    exact (List.map_append ..).symm.trans (congrArg _ parts)
  constructor
  · rw [← behind]
    exact inOrder.unused
  · rw [line, List.filterMap_append, notImmediate, List.append_nil, ← behind]
    exact inOrder.immediates
  · intro item member task isImmediate
    rw [incoming] at member
    rw [← behind]
    rcases List.mem_append.mp member with old | new
    · exact inOrder.numbered item old task isImmediate
    · obtain ⟨delayed, isPromoted, rfl⟩ := List.mem_map.mp new
      obtain ⟨_, labelled⟩ := inOrder.labelled delayed
        (within delayed isPromoted)
      rw [labelled] at isImmediate
      cases isImmediate
  · intro item member
    rw [← behind] at member
    exact inOrder.labelled item ((List.dropWhile_sublist _).subset member)
  · rw [keys]
    exact inOrder.sorted
  · rw [keys, ← behind]
    exact inOrder.counted
  · intro key member
    rw [line, List.filterMap_append, keyed] at member
    rw [← behind]
    rcases List.mem_append.mp member with old | new
    · obtain ⟨before, been, le⟩ := inOrder.reached key old
      exact ⟨before, List.mem_append_left _ been, le⟩
    · obtain ⟨item, isPromoted, rfl⟩ := List.mem_map.mp new
      rw [← ready] at isPromoted
      have due := List.mem_takeWhile_imp isPromoted
      exact ⟨now, List.mem_append_right _ List.mem_cons_self,
        of_decide_eq_true due⟩

theorem InOrder.pushImmediate
    (orderly : ¬history.Misorders (.pushImmediateTask task)) :
    InOrder singleConsumer { history with
      queue := history.queue.pushImmediateTask (.immediate task)
      pushed := history.pushed ++ [task] } := by
  generalize made : (⟨history.queue.immediateNumber + 1, .immediate task⟩ :
    Item (Posted Task)) = item
  have number : item.number = history.queue.immediateNumber + 1 := by
    rw [← made]
  have label : item.task = .immediate task := by rw [← made]
  obtain ⟨front, back, parts, inserted, larger⟩ :=
    @TaskQueue.insertItem_split _ history.queue.incoming item
      fun bisects => not_not.mp fun notPartitioned => by
        rw [number] at bisects notPartitioned
        exact orderly ⟨bisects, notPartitioned⟩
  generalize behind : ({ history with
      queue := history.queue.pushImmediateTask (.immediate task)
      pushed := history.pushed ++ [task] } : QueueHistory Task) = after
  have incoming : after.queue.incoming = front ++ item :: back := by
    rw [← behind, ← inserted, ← made]
    rfl
  have before : history.line = history.taken ++
      history.queue.work.map Item.task ++
      (front.map Item.task ++ back.map Item.task) := by
    rw [QueueHistory.line, parts, List.map_append]
  have line : after.line = history.taken ++ history.queue.work.map Item.task ++
      (front.map Item.task ++ .immediate task :: back.map Item.task) := by
    rw [QueueHistory.line, incoming, List.map_append, List.map_cons, label,
      ← behind]
    rfl
  -- What is behind the new task has larger numbers, so it was promoted.
  have promoted : (back.map Item.task).filterMap Posted.immediate? = [] := by
    rw [List.filterMap_eq_nil_iff]
    intro posted member
    obtain ⟨other, isBehind, rfl⟩ := List.mem_map.mp member
    have less := larger other isBehind
    cases isLabel : other.task with
    | delayed due number task => rfl
    | immediate task =>
      have le := inOrder.numbered other
        (by rw [parts]; exact List.mem_append_right _ isBehind) task isLabel
      omega
  have delayed : after.line.filterMap Posted.delayed? =
      history.line.filterMap Posted.delayed? := by
    rw [line, before]
    simp only [List.filterMap_append, List.filterMap_cons, Posted.delayed?]
  have keys : after.keys = history.keys := by
    rw [QueueHistory.keys, delayed, ← behind]
    rfl
  constructor
  · rw [← behind]
    exact inOrder.unused
  · have sofar := inOrder.immediates
    rw [before] at sofar
    rw [line, ← behind]
    simp only [List.filterMap_append, List.filterMap_cons, promoted,
      Posted.immediate?, List.append_nil] at sofar ⊢
    rw [← sofar]
    simp
  · intro other member task' isImmediate
    rw [incoming] at member
    rw [← behind]
    show other.number ≤ history.queue.immediateNumber + 1
    rcases List.mem_append.mp member with old | new
    · exact Nat.le_succ_of_le (inOrder.numbered other
        (by rw [parts]; exact List.mem_append_left _ old) task' isImmediate)
    · rcases List.mem_cons.mp new with rfl | old
      · rw [number]
      · exact Nat.le_succ_of_le (inOrder.numbered other
          (by rw [parts]; exact List.mem_append_right _ old) task'
            isImmediate)
  · rw [← behind]
    exact inOrder.labelled
  · rw [keys]
    exact inOrder.sorted
  · rw [keys, ← behind]
    exact inOrder.counted
  · rw [delayed, ← behind]
    exact inOrder.reached

end

theorem orderedInsert_earlier {item : DelayedItem (Posted Task)}
    (fresh : ∀ other ∈ items, other.number < item.number)
    (sorted : (items.map DelayedItem.key).Pairwise Earlier) :
    ((items.orderedInsert (fun item other => item.before other)
      item).map DelayedItem.key).Pairwise Earlier := by
  induction items with
  | nil => exact List.pairwise_singleton ..
  | cons first items ih =>
    obtain ⟨newer, rest⟩ := List.forall_mem_cons.mp fresh
    rw [List.map_cons, List.pairwise_cons] at sorted
    obtain ⟨earliest, sorted⟩ := sorted
    rw [List.orderedInsert]
    split
    case isTrue before =>
      have less : item.due < first.due := by
        unfold DelayedItem.before at before
        split at before
        · exact absurd (of_decide_eq_true before) (Nat.not_le_of_lt newer)
        · exact of_decide_eq_true before
      rw [List.map_cons, List.pairwise_cons]
      refine ⟨fun key member => .inl ?_, ?_⟩
      · rcases List.mem_cons.mp member with rfl | later
        · exact less
        · rcases earliest key later with lt | ⟨eq, -⟩
          · exact Nat.lt_trans less lt
          · exact eq ▸ less
      · exact List.pairwise_cons.mpr ⟨earliest, sorted⟩
    case isFalse notBefore =>
      have earlier : Earlier first.key item.key := by
        unfold DelayedItem.before at notBefore
        split at notBefore
        case isTrue same => exact .inr ⟨same.symm, newer⟩
        case isFalse different =>
          rw [decide_eq_true_eq] at notBefore
          exact .inl (Nat.lt_of_le_of_ne (Nat.le_of_not_lt notBefore)
            (Ne.symm different))
      rw [List.map_cons, List.pairwise_cons]
      refine ⟨fun key member => ?_, ih rest sorted⟩
      obtain ⟨other, isThere, rfl⟩ := List.mem_map.mp member
      rcases (List.mem_orderedInsert ..).mp isThere with rfl | old
      · exact earlier
      · exact earliest _ (List.mem_map_of_mem old)

theorem InOrder.pushDelayed (inOrder : history.InOrder singleConsumer)
    {due : Nat} (timely : ¬history.Backdates (.pushDelayedTask due task)) :
    InOrder singleConsumer { history with
      queue := history.queue.pushDelayedTask due
        (.delayed due (history.queue.delayedNumber + 1) task) } := by
  generalize made : (⟨⟨history.queue.delayedNumber + 1,
    .delayed due (history.queue.delayedNumber + 1) task⟩, due⟩ :
      DelayedItem (Posted Task)) = item
  have number : item.number = history.queue.delayedNumber + 1 := by
    rw [← made]
  have isDue : item.due = due := by rw [← made]
  generalize behind : ({ history with
      queue := history.queue.pushDelayedTask due
        (.delayed due (history.queue.delayedNumber + 1) task) } :
    QueueHistory Task) = after
  have delayed : after.queue.delayed = history.queue.delayed.orderedInsert
      (fun item other => item.before other) item := by
    rw [← behind, ← made]
    rfl
  have line : after.line = history.line := by
    rw [← behind]
    rfl
  have members : ∀ {other}, other ∈ after.queue.delayed →
      other = item ∨ other ∈ history.queue.delayed := by
    intro other member
    rw [delayed] at member
    exact (List.mem_orderedInsert ..).mp member
  have older : ∀ key ∈ history.keys, key.2 < item.number := by
    intro key member
    rw [number]
    exact Nat.lt_succ_of_le (inOrder.counted key member)
  have sorted := List.pairwise_append.mp inOrder.sorted
  constructor
  · rw [← behind]
    exact inOrder.unused
  · rw [line, ← behind]
    exact inOrder.immediates
  · rw [← behind]
    exact inOrder.numbered
  · intro other member
    rcases members member with rfl | old
    · rw [← made]
      exact ⟨task, rfl⟩
    · exact inOrder.labelled other old
  · rw [QueueHistory.keys, line, delayed]
    refine List.pairwise_append.mpr ⟨sorted.1, orderedInsert_earlier
      (fun other member => older other.key (List.mem_append_right _
        (List.mem_map_of_mem member))) sorted.2.1, ?_⟩
    intro key promoted key' waiting
    obtain ⟨other, member, rfl⟩ := List.mem_map.mp waiting
    rcases (List.mem_orderedInsert ..).mp member with rfl | old
    · -- What was promoted was due by then, and so before the new task.
      obtain ⟨now, been, le⟩ := inOrder.reached key promoted
      have notLess : ¬due < now := fun less => timely ⟨now, been, less⟩
      have less := older key (List.mem_append_left _ promoted)
      unfold Earlier DelayedItem.key
      dsimp only
      omega
    · exact sorted.2.2 key promoted other.key (List.mem_map_of_mem old)
  · have counter : after.queue.delayedNumber = item.number := by
      rw [← behind, number]
      rfl
    intro key member
    rw [counter]
    rw [QueueHistory.keys, line] at member
    rcases List.mem_append.mp member with promoted | waiting
    · exact Nat.le_of_lt (older key (List.mem_append_left _ promoted))
    · obtain ⟨other, isThere, rfl⟩ := List.mem_map.mp waiting
      rcases members isThere with rfl | old
      · exact Nat.le_refl _
      · exact Nat.le_of_lt (older other.key
          (List.mem_append_right _ (List.mem_map_of_mem old)))
  · rw [line, ← behind]
    exact inOrder.reached

theorem step_inOrder {blocks : Task → Bool} {call : QueueCall Task}
    {next : QueueHistory Task} (inOrder : history.InOrder singleConsumer)
    (good : ¬(history.Misorders call ∨ history.Backdates call))
    (taken : step blocks singleConsumer history call = some next) :
    next.InOrder singleConsumer := by
  obtain ⟨orderly, timely⟩ := not_or.mp good
  cases taken
  cases call with
  | pushImmediateTask task => exact inOrder.pushImmediate orderly
  | pushDelayedTask due task => exact inOrder.pushDelayed timely
  | promoteReadyDelayedTasks now => exact inOrder.promote now
  | takeImmediateTask =>
    exact inOrder.take
      (TaskQueue.takes_takeImmediateTask inOrder.unused) fun isFalse => by
        subst isFalse
        exact TaskQueue.work_takeImmediateTask (inOrder.unused rfl)
  | takeImmediateTasks max =>
    refine inOrder.take
      (TaskQueue.takes_takeImmediateTasks _ max inOrder.unused) ?_
    rintro rfl
    exact TaskQueue.work_takeImmediateTasks _ max (inOrder.unused rfl)

/-- Immediate tasks are taken in the order in which they were pushed, delayed
tasks in the order of run time and then of posting, and only when a promotion
has reached their run time. -/
theorem queue_is_fifo {blocks : Task → Bool} {singleConsumer : Bool}
    {calls : List (QueueCall Task)} {final : QueueHistory Task}
    (ran : perform (step blocks singleConsumer) {} calls = some final)
    (orderly : Avoids (step blocks singleConsumer) (fun history call =>
      history.Misorders call ∨ history.Backdates call) {} calls) :
    final.taken.filterMap Posted.immediate? <+: final.pushed ∧
      (final.taken.filterMap Posted.delayed?).Pairwise Earlier ∧
      ∀ key ∈ final.taken.filterMap Posted.delayed?,
        ∃ now ∈ final.promotions, key.1 ≤ now := by
  have inOrder : final.InOrder singleConsumer :=
    perform_avoiding step_inOrder ran orderly InOrder.start
  have front : final.taken <+: final.line := by
    rw [line, List.append_assoc]
    exact List.prefix_append ..
  have keys := front.filterMap Posted.delayed?
  refine ⟨?_, ?_, fun key member => ?_⟩
  · rw [← inOrder.immediates]
    exact front.filterMap _
  · exact ((List.pairwise_append.mp inOrder.sorted).1).sublist keys.sublist
  · exact inOrder.reached key (keys.subset member)

/-- Tasks of both kinds, with a promotion between them. -/
def mixedCalls : List (QueueCall Nat) :=
  [.pushDelayedTask 5 0, .pushDelayedTask 3 1, .pushImmediateTask 2,
    .promoteReadyDelayedTasks 4, .pushImmediateTask 3, .takeImmediateTask,
    .promoteReadyDelayedTasks 6, .takeImmediateTasks 8]

theorem queue_is_fifo_mixedCalls :
    ∃ final, perform (step (fun _ => false) true) {} mixedCalls =
        some final ∧
      final.taken.length = 3 ∧
      final.taken.filterMap Posted.immediate? <+: final.pushed ∧
      (final.taken.filterMap Posted.delayed?).Pairwise Earlier := by
  have ran : (perform (step (fun _ => false) true) {} mixedCalls).isSome := by
    decide
  have got := (Option.some_get ran).symm
  obtain ⟨immediates, delayed, -⟩ := queue_is_fifo got (by decide)
  exact ⟨_, got, rfl, immediates, delayed⟩

/-- Nine delayed tasks, of which the last one posted is promoted before the
first one. -/
def unsortedCalls : List (QueueCall Nat) :=
  [5, 1, 2, 3, 9, 9, 9, 6, 4].map (.pushDelayedTask · 0) ++
    [.promoteReadyDelayedTasks 5, .pushImmediateTask 1,
      .promoteReadyDelayedTasks 6, .pushImmediateTask 2,
      .takeImmediateTasks 8]

/-- The second immediate task is taken before the first one. -/
theorem unsortedCalls_overtake :
    (perform (step (fun _ => false) true) {} unsortedCalls).map
      (fun final => (final.taken.filterMap Posted.immediate?, final.pushed)) =
      some ([2, 1], [1, 2]) := by
  decide

/-! ## Tasks are kept

Whatever the order, nothing that was posted is lost or doubled. -/

def posts : QueueCall Task → Option Task
  | .pushImmediateTask task | .pushDelayedTask _ task => some task
  | _ => none

/-- All tasks: those that were taken, those that can be taken and those that
are not due. -/
def tasks (history : QueueHistory Task) : List Task :=
  (history.line ++ history.queue.delayed.map (·.task)).map Posted.task

theorem insertItem_perm (incoming : List (Item Task)) (item : Item Task) :
    (TaskQueue.insertItem incoming item).Perm (item :: incoming) := by
  unfold TaskQueue.insertItem
  split
  case h_1 empty => rw [List.getLast?_eq_none_iff.mp empty]
  case h_2 last found =>
    split
    · exact List.perm_append_singleton ..
    · apply List.perm_middle.trans
      rw [List.take_append_drop]

theorem tasks_take {taken : List (Posted Task)}
    (takes : history.queue.Takes taken rest) :
    tasks { history with queue := rest, taken := history.taken ++ taken } =
      history.tasks := by
  have line := takes.line
  simp only [← List.append_assoc] at line
  simp [tasks, QueueHistory.line, takes.delayed, ← line]

theorem tasks_call (call : QueueCall Task)
    (unused : singleConsumer = false → history.queue.work = []) :
    (history.call blocks singleConsumer call).tasks.Perm
      ((posts call).toList ++ history.tasks) := by
  cases call with
  | pushImmediateTask task =>
    simp only [call, posts, tasks, line, TaskQueue.pushImmediateTask,
      List.map_append, List.map_map, List.append_assoc]
    refine (((((insertItem_perm _ _).map _).append_right _).append_left
      _).append_left _).trans ?_
    exact (List.perm_middle.append_left _).trans List.perm_middle
  | pushDelayedTask due task =>
    simp only [call, posts, tasks, TaskQueue.pushDelayedTask,
      List.map_append, List.map_map]
    exact (((List.perm_orderedInsert _ _ _).map _).append_left _).trans
      List.perm_middle
  | promoteReadyDelayedTasks now =>
    apply List.Perm.of_eq
    simp only [call, posts, tasks, line, TaskQueue.promoteReadyDelayedTasks,
      List.map_append, List.map_map, List.append_assoc]
    simp [← List.map_append, Function.comp_def]
  | takeImmediateTask =>
    exact .of_eq (tasks_take (TaskQueue.takes_takeImmediateTask unused))
  | takeImmediateTasks max =>
    exact .of_eq (tasks_take (TaskQueue.takes_takeImmediateTasks _ max unused))

theorem work_call (call : QueueCall Task) (unused : history.queue.work = []) :
    (history.call blocks false call).queue.work = [] := by
  cases call with
  | takeImmediateTask => exact TaskQueue.work_takeImmediateTask unused
  | takeImmediateTasks max =>
    exact TaskQueue.work_takeImmediateTasks _ max unused
  | _ => exact unused

/-- Over every run, also one that breaks the order, each posted task has been
taken once or is still in the queue, and nothing else is. -/
theorem queue_keeps_tasks {blocks : Task → Bool} {singleConsumer : Bool}
    {calls : List (QueueCall Task)} {final : QueueHistory Task}
    (ran : perform (step blocks singleConsumer) {} calls = some final) :
    final.tasks.Perm (calls.filterMap posts) := by
  have kept := @perform_history _ _ (step blocks singleConsumer)
    (fun past (history : QueueHistory Task) =>
      (singleConsumer = false → history.queue.work = []) ∧
        history.tasks.Perm (past.filterMap posts))
    (fun {past history call next} before taken => by
      cases taken
      refine ⟨?_, (tasks_call blocks call before.1).trans ?_⟩
      · rintro rfl
        exact work_call blocks call (before.1 rfl)
      · rw [List.filterMap_append]
        refine List.perm_append_comm.trans (before.2.append ?_)
        cases call <;> rfl) _ _ _ ran ⟨fun _ => rfl, .refl _⟩
  exact kept.2

theorem queue_keeps_tasks_unsortedCalls :
    ∃ final, perform (step (fun _ => false) true) {} unsortedCalls =
        some final ∧
      final.tasks.Perm [0, 0, 0, 0, 0, 0, 0, 0, 0, 1, 2] :=
  ⟨_, rfl, @queue_keeps_tasks _ (fun _ => false) true unsortedCalls _ rfl⟩

end QueueHistory

end Libnei.Pool

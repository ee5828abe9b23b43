import Libnei.Lib.BinaryHeap
import Mathlib.Logic.Function.Basic

/-!
# The heap of a shard

The keys by which the sources of a shard are ordered, and what becomes of
them: `registered_task_source.h`, `task_source_sort_key.h` and the heap of
`pooled_task_source.cpp`.  A key is set on the handle of a source, and the
handle is moved into the heap without it.  So the heap compares equal keys,
and the sources leave it in an order that depends on their number only.
-/

namespace Libnei.Pool

open Lib

inductive RunStatus
  | disallowed
  | allowedNotSaturated
  | allowedSaturated

inductive TaskPriority
  | bestEffort
  | userVisible
  | userBlocking
  deriving DecidableEq

def TaskPriority.value : TaskPriority → Nat
  | .bestEffort => 0
  | .userVisible => 1
  | .userBlocking => 2

/-- The time of a source without delayed tasks is null, which is zero. -/
structure TaskSourceSortKey where
  priority : TaskPriority := .userVisible
  readyTime : Int := 0
  enqueueOrder : Nat := 0

namespace TaskSourceSortKey

/-- `operator<`: the key on the right is to be served first. -/
def less (lhs rhs : TaskSourceSortKey) : Bool :=
  if lhs.priority.value ≠ rhs.priority.value then
    lhs.priority.value < rhs.priority.value
  else if lhs.readyTime ≠ rhs.readyTime then
    if decide (lhs.readyTime = 0) ≠ decide (rhs.readyTime = 0) then
      rhs.readyTime = 0
    else lhs.readyTime > rhs.readyTime
  else lhs.enqueueOrder > rhs.enqueueOrder

end TaskSourceSortKey

variable {Source : Type}

structure RegisteredTaskSource (Source : Type) where
  taskSource : Option Source := none
  sortKey : TaskSourceSortKey := {}
  runStatus : RunStatus := .disallowed

namespace RegisteredTaskSource

/-- The move constructor.  The move assignment leaves the key of its target
alone as well; in the heap there are only keys that come from a move. -/
def moved (other : RegisteredTaskSource Source) : RegisteredTaskSource Source :=
  { taskSource := other.taskSource, runStatus := other.runStatus }

/-- `operator<` of two entries of the heap. -/
def less (lhs rhs : RegisteredTaskSource Source) : Bool :=
  lhs.sortKey.less rhs.sortKey

end RegisteredTaskSource

/-- What a source answers: `PeekNextDelayedRunTime` is null or the time of its
next delayed task, and `hasWork` is asked of parallel sources only. -/
structure SourceView where
  priority : TaskPriority
  nextDelayedRunTime : Int
  isShutdown : Bool
  runStatus : RunStatus
  isParallel : Bool
  hasWork : Bool

def SourceView.getSortKey (view : SourceView) : TaskSourceSortKey :=
  { priority := view.priority, readyTime := view.nextDelayedRunTime }

structure SourceState where
  queued : Bool := false
  inFlight : Bool := false
  dedicatedOwner : Nat := 0

structure Shard (Source : Type) where
  heap : List (RegisteredTaskSource Source) := []
  states : Source → SourceState := fun _ => {}
  enqueueOrder : Nat := 0
  isShutdown : Bool := false

namespace Shard

variable [DecidableEq Source] (view : Source → SourceView)

def setState (shard : Shard Source) (source : Source)
    (change : SourceState → SourceState) : Shard Source :=
  { shard with
    states := Function.update shard.states source
      (change (shard.states source)) }

/-- The handle gets the key of its source and the next number, and is moved
into the heap. -/
def pushSource (shard : Shard Source) (source : Source)
    (handle : RegisteredTaskSource Source) : Shard Source :=
  let key := { (view source).getSortKey with
    enqueueOrder := shard.enqueueOrder }
  { shard.setState source fun state => { state with queued := true } with
    heap := BinaryHeap.push RegisteredTaskSource.less shard.heap
      { handle with sortKey := key }.moved
    enqueueOrder := shard.enqueueOrder + 1 }

def enqueueTaskSourceLocked (shard : Shard Source)
    (handle : RegisteredTaskSource Source) : Bool × Shard Source :=
  match handle.taskSource with
  | none => (false, shard)
  | some source =>
      if shard.isShutdown || (view source).isShutdown ||
          (shard.states source).dedicatedOwner ≠ 0 ||
          (shard.states source).queued then (false, shard)
      else (true, shard.pushSource view source handle)

/-- The loop of `DequeueTaskSourceLocked`, for at most as many rounds as there
are entries. -/
def dequeueLoop : Nat → Shard Source →
    RegisteredTaskSource Source × Shard Source
  | 0, shard => ({}, shard)
  | rounds + 1, shard =>
      match BinaryHeap.pop RegisteredTaskSource.less shard.heap with
      | none => ({}, shard)
      | some (entry, heap) =>
          let popped := { shard with heap := heap }
          let handle := entry.moved
          match handle.taskSource with
          | none => dequeueLoop rounds popped
          | some source =>
              if (shard.states source).queued then
                let taken := popped.setState source fun state =>
                  { state with queued := false }
                if (view source).isShutdown then
                  dequeueLoop rounds (taken.setState source fun state =>
                    { state with inFlight := false })
                else
                  match (view source).runStatus with
                  | .disallowed => dequeueLoop rounds taken
                  | .allowedNotSaturated =>
                      let back :=
                        if (view source).isParallel && (view source).hasWork
                        then taken.pushSource view source
                          { handle with runStatus := .allowedNotSaturated }
                        else taken
                      ({ taskSource := some source },
                        back.setState source fun state =>
                          { state with inFlight := true })
                  | .allowedSaturated =>
                      ({ handle with runStatus := .allowedSaturated },
                        taken.setState source fun state =>
                          { state with inFlight := true })
              else dequeueLoop rounds popped

def dequeueTaskSourceLocked (shard : Shard Source) :
    RegisteredTaskSource Source × Shard Source :=
  dequeueLoop view shard.heap.length shard

def enqueueAll (sources : List Source) (shard : Shard Source) : Shard Source :=
  sources.foldl (fun shard source =>
    (shard.enqueueTaskSourceLocked view { taskSource := some source }).2)
    shard

def dequeueMany : Nat → Shard Source → List (Option Source)
  | 0, _ => []
  | count + 1, shard =>
      let (handle, next) := shard.dequeueTaskSourceLocked view
      handle.taskSource :: dequeueMany count next

/-! ## The heap compares equal keys -/

def handleOf (source : Source) : RegisteredTaskSource Source :=
  { taskSource := some source }

/-- The order in which a heap gives back elements that compare equal. -/
def heapOrder (sources : List Source) : List Source :=
  BinaryHeap.drain (fun _ _ => false) sources.length
    (BinaryHeap.build (fun _ _ => false) sources)

/-- The heap holds these sources, each of them once. -/
structure Loaded (order : List Source) (shard : Shard Source) : Prop where
  heap : shard.heap = order.map handleOf
  nodup : order.Nodup
  queued : ∀ source ∈ order, (shard.states source).queued = true

/-- The source is handed out when it is popped, and not pushed again. -/
structure Ready (view : SourceView) : Prop where
  runs : view.isShutdown = false
  allowed : view.runStatus ≠ .disallowed
  notBack : (view.isParallel && view.hasWork) = false

omit [DecidableEq Source] in
theorem push_handleOf (order : List Source) (source : Source) :
    BinaryHeap.push RegisteredTaskSource.less (order.map handleOf)
        (handleOf source) =
      (BinaryHeap.push (fun _ _ => false) order source).map handleOf :=
  BinaryHeap.push_map (fun _ _ => rfl) order source

omit [DecidableEq Source] in
theorem pop_handleOf (order : List Source) :
    BinaryHeap.pop RegisteredTaskSource.less (order.map handleOf) =
      (BinaryHeap.pop (fun _ _ => false) order).map fun popped =>
        (handleOf popped.1, popped.2.map handleOf) :=
  BinaryHeap.pop_map (fun _ _ => rfl) order

variable {view} {shard : Shard Source} {source : Source} {order : List Source}

theorem enqueue_fresh (running : shard.isShutdown = false)
    (runs : (view source).isShutdown = false)
    (fresh : shard.states source = {}) :
    (shard.enqueueTaskSourceLocked view (handleOf source)).2 =
      shard.pushSource view source (handleOf source) := by
  simp [enqueueTaskSourceLocked, handleOf, running, runs, fresh]

variable (loaded : Loaded order shard)

include loaded

theorem Loaded.pushSource (fresh : source ∉ order) :
    Loaded (BinaryHeap.push (fun _ _ => false) order source)
      (shard.pushSource view source (handleOf source)) := by
  have same := BinaryHeap.push_perm (fun _ _ => false) order source
  refine ⟨?_, ?_, fun other member => ?_⟩
  · rw [← push_handleOf, ← loaded.heap]
    rfl
  · exact same.nodup_iff.mpr (List.nodup_cons.mpr ⟨fresh, loaded.nodup⟩)
  · unfold Shard.pushSource setState
    dsimp only
    by_cases mine : other = source
    · subst mine
      rw [Function.update_self]
    · rw [Function.update_of_ne mine]
      exact loaded.queued other
        (List.mem_of_ne_of_mem mine (same.mem_iff.mp member))

theorem Loaded.enqueueAll {sources : List Source}
    (running : shard.isShutdown = false) (nodup : sources.Nodup)
    (runs : ∀ source ∈ sources, (view source).isShutdown = false)
    (fresh : ∀ source ∈ sources, source ∉ order ∧ shard.states source = {}) :
    Loaded (sources.foldl (BinaryHeap.push fun _ _ => false) order)
      (shard.enqueueAll view sources) := by
  induction sources generalizing order shard with
  | nil => exact loaded
  | cons source sources ih =>
    obtain ⟨notLater, nodup⟩ := List.nodup_cons.mp nodup
    obtain ⟨notInside, unused⟩ := fresh source List.mem_cons_self
    have same := BinaryHeap.push_perm (fun _ _ => false) order source
    unfold Shard.enqueueAll
    rw [List.foldl_cons, List.foldl_cons]
    have pushed := enqueue_fresh running
      (runs source List.mem_cons_self) unused
    unfold handleOf at pushed
    rw [pushed]
    refine ih (loaded.pushSource notInside) running nodup ?_ ?_
    · exact fun other later => runs other (List.mem_cons_of_mem _ later)
    · intro other later
      obtain ⟨outside, state⟩ := fresh other (List.mem_cons_of_mem _ later)
      have different : other ≠ source := by
        rintro rfl
        exact notLater later
      constructor
      · intro member
        exact outside (List.mem_of_ne_of_mem different (same.mem_iff.mp member))
      · unfold Shard.pushSource setState
        dsimp only
        rw [Function.update_of_ne different]
        exact state

theorem Loaded.dequeue {rest : List Source} {top : Source}
    (ready : Ready (view top))
    (popped : BinaryHeap.pop (fun _ _ => false) order = some (top, rest)) :
    (shard.dequeueTaskSourceLocked view).1.taskSource = some top ∧
      Loaded rest (shard.dequeueTaskSourceLocked view).2 := by
  have same := BinaryHeap.pop_perm popped
  have queued := loaded.queued top (same.mem_iff.mpr List.mem_cons_self)
  obtain ⟨notInside, nodup⟩ := List.nodup_cons.mp
    (same.nodup_iff.mp loaded.nodup)
  have length : shard.heap.length = rest.length + 1 := by
    rw [loaded.heap, List.length_map, same.length_eq, List.length_cons]
  -- the other sources keep their states
  have others : ∀ {next : Shard Source}, next.heap = rest.map handleOf →
      (∀ source, source ≠ top → next.states source = shard.states source) →
      Loaded rest next := by
    intro next heap states
    refine ⟨heap, nodup, fun source member => ?_⟩
    have different : source ≠ top := by
      rintro rfl
      exact notInside member
    rw [states source different]
    exact loaded.queued source
      (same.mem_iff.mpr (List.mem_cons_of_mem _ member))
  unfold dequeueTaskSourceLocked
  rw [length, dequeueLoop, loaded.heap, pop_handleOf, popped]
  simp only [Option.map_some, handleOf, RegisteredTaskSource.moved, queued,
    if_true, ready.runs, Bool.false_eq_true, if_false, ready.notBack]
  cases status : (view top).runStatus with
  | disallowed => exact absurd status ready.allowed
  | allowedNotSaturated =>
    refine ⟨rfl, others rfl fun source different => ?_⟩
    simp only [setState, Function.update_of_ne different]
  | allowedSaturated =>
    refine ⟨rfl, others rfl fun source different => ?_⟩
    simp only [setState, Function.update_of_ne different]

theorem Loaded.dequeueMany {count : Nat}
    (ready : ∀ source ∈ order, Ready (view source))
    (length : order.length = count) :
    shard.dequeueMany view count =
      (BinaryHeap.drain (fun _ _ => false) count order).map some := by
  induction count generalizing order shard with
  | zero => rfl
  | succ count ih =>
    unfold Shard.dequeueMany BinaryHeap.drain
    cases popped : BinaryHeap.pop (fun _ _ => false) order with
    | none =>
      rw [BinaryHeap.pop_eq_none popped] at length
      cases length
    | some top =>
      obtain ⟨top, rest⟩ := top
      have same := BinaryHeap.pop_perm popped
      obtain ⟨first, later⟩ := loaded.dequeue (ready top
        (same.mem_iff.mpr List.mem_cons_self)) popped
      dsimp only
      rw [first, List.map_cons]
      refine congrArg (some top :: ·) (ih later ?_ ?_)
      · exact fun source member => ready source
          (same.mem_iff.mpr (List.mem_cons_of_mem _ member))
      · have lengths := same.length_eq
        rw [List.length_cons] at lengths
        omega

end Shard

/-! ## The order of the dequeues -/

section Serving

/-- An immediate source goes before a delayed one, and an earlier time before
a later one. -/
def EarlierReady (time other : Int) : Prop :=
  time ≠ other ∧ (time = 0 ∨ other ≠ 0 ∧ time < other)

/-- The order in which keys are to be served. -/
def TaskSourceSortKey.ServedBefore (key other : TaskSourceSortKey) : Prop :=
  other.priority.value < key.priority.value ∨ other.priority = key.priority ∧
      (EarlierReady key.readyTime other.readyTime ∨
        key.readyTime = other.readyTime ∧ key.enqueueOrder < other.enqueueOrder)

instance (key other : TaskSourceSortKey) : Decidable (key.ServedBefore other) :=
  inferInstanceAs (Decidable (_ ∨ _ ∧ (_ ∧ (_ ∨ _ ∧ _) ∨ _ ∧ _)))

/-- Keys that are served in either order, for other numbers, differ in their
numbers only. -/
theorem same_of_servedBefore {key other : TaskSourceSortKey}
    {number number' : Nat} (before : key.ServedBefore other)
    (after : ({ other with enqueueOrder := number } :
        TaskSourceSortKey).ServedBefore
      { key with enqueueOrder := number' }) :
    (key.priority = other.priority ∧ key.readyTime = other.readyTime) ∧
      key.enqueueOrder < other.enqueueOrder ∧ number < number' := by
  unfold TaskSourceSortKey.ServedBefore EarlierReady at before after
  dsimp only at after
  obtain higher | ⟨same, before⟩ := before
  · obtain higher' | ⟨same, -⟩ := after
    · omega
    · rw [same] at higher
      omega
  · obtain higher' | ⟨-, after⟩ := after
    · rw [same] at higher'
      omega
    · exact ⟨⟨same.symm, by omega⟩, by omega, by omega⟩

end Serving

section Dequeues

variable [DecidableEq Source] {view : Source → SourceView}
  {sources : List Source}

/-- The key that a source gets when these are enqueued in this order. -/
def assignedKey (view : Source → SourceView) (sources : List Source)
    (source : Source) : TaskSourceSortKey :=
  { (view source).getSortKey with enqueueOrder := sources.idxOf source }

/-- The dequeues give back the sources, and each of them before those that
are to be served later. -/
def ServedInOrder (view : Source → SourceView) (sources : List Source) : Prop :=
  ∃ dequeued : List Source,
    (({} : Shard Source).enqueueAll view sources).dequeueMany view
      sources.length = dequeued.map some ∧
    dequeued.Perm sources ∧
    dequeued.Pairwise fun source other =>
      (assignedKey view sources source).ServedBefore
        (assignedKey view sources other)

/-- The places in the order of enqueueing, in the order in which they have
their turns. -/
def turns (count : Nat) : List Nat :=
  Shard.heapOrder (List.range count)

omit [DecidableEq Source] in
theorem heapOrder_eq (sources : List Source) : Shard.heapOrder sources =
    BinaryHeap.drain (fun _ _ => false) sources.length sources :=
  congrArg (BinaryHeap.drain _ _) (BinaryHeap.build_equal sources [])

omit [DecidableEq Source] in
theorem heapOrder_perm (sources : List Source) :
    (Shard.heapOrder sources).Perm sources := by
  rw [heapOrder_eq]
  exact BinaryHeap.drain_perm _ sources

omit [DecidableEq Source] in
theorem heapOrder_turns (sources : List Source) :
    (Shard.heapOrder sources).map some =
      (turns sources.length).map (sources[·]?) := by
  have places : sources.map some =
      (List.range sources.length).map (sources[·]?) := by
    refine List.ext_getElem? fun place => ?_
    rw [List.getElem?_map, List.getElem?_map]
    by_cases inside : place < sources.length
    · rw [List.getElem?_range inside, List.getElem?_eq_getElem inside]
      exact (congrArg some (List.getElem?_eq_getElem inside)).symm
    · rw [List.getElem?_eq_none (by omega),
        List.getElem?_eq_none (by simpa using inside)]
      rfl
  have renamed : ∀ {Place : Type} (heap : List Place)
      (rename : Place → Option Source),
      (BinaryHeap.drain (fun _ _ => false) sources.length heap).map rename =
        BinaryHeap.drain (fun _ _ => false) sources.length
          (heap.map rename) := by
    intro Place heap rename
    have agrees : ∀ _ _ : Place, false = false := fun _ _ => rfl
    exact (BinaryHeap.drain_map agrees _ heap).symm
  unfold turns
  rw [heapOrder_eq, heapOrder_eq, List.length_range, renamed, renamed, places]

/-- Whatever the keys, the sources are dequeued in the order in which a heap
gives back equal elements. -/
theorem dequeueMany_eq_heapOrder (nodup : sources.Nodup)
    (ready : ∀ source ∈ sources, Shard.Ready (view source)) :
    (({} : Shard Source).enqueueAll view sources).dequeueMany view
      sources.length = (Shard.heapOrder sources).map some := by
  have empty : Shard.Loaded [] ({} : Shard Source) :=
    ⟨rfl, List.nodup_nil, nofun⟩
  have loaded := empty.enqueueAll rfl nodup
    (fun source member => (ready source member).runs)
    fun source _ => ⟨nofun, rfl⟩
  rw [BinaryHeap.build_equal, List.nil_append] at loaded
  rw [heapOrder_eq]
  exact loaded.dequeueMany ready rfl

theorem servedInOrder_iff (nodup : sources.Nodup)
    (ready : ∀ source ∈ sources, Shard.Ready (view source)) :
    ServedInOrder view sources ↔
      (Shard.heapOrder sources).Pairwise fun source other =>
        (assignedKey view sources source).ServedBefore
          (assignedKey view sources other) := by
  unfold ServedInOrder
  rw [dequeueMany_eq_heapOrder nodup ready]
  constructor
  · rintro ⟨dequeued, all, -, ordered⟩
    rwa [(List.map_inj_right fun _ _ => Option.some.inj).mp all]
  · exact fun ordered => ⟨_, rfl, heapOrder_perm sources, ordered⟩

variable {others : List Source}

theorem ServedInOrder.first {source other : Source}
    (served : ServedInOrder view (source :: others))
    (nodup : (source :: others).Nodup)
    (ready : ∀ other ∈ source :: others, Shard.Ready (view other))
    (member : other ∈ others) :
    (assignedKey view (source :: others) source).ServedBefore
      (assignedKey view (source :: others) other) := by
  have ordered := (servedInOrder_iff nodup ready).mp served
  have same := heapOrder_perm (source :: others)
  obtain ⟨later, drained⟩ := @BinaryHeap.drain_top Source
    (source :: others) others.length (fun _ _ => false) source rfl
  rw [heapOrder_eq, List.length_cons, drained] at ordered same
  exact List.rel_of_pairwise_cons ordered
    ((List.perm_cons source).mp same |>.mem_iff.mpr member)

/-- The third of four sources or more goes before the second one. -/
theorem ServedInOrder.third {first second third fourth : Source}
    (served : ServedInOrder view (first :: second :: third :: fourth :: others))
    (nodup : (first :: second :: third :: fourth :: others).Nodup)
    (ready : ∀ other ∈ first :: second :: third :: fourth :: others,
      Shard.Ready (view other)) :
    (assignedKey view (first :: second :: third :: fourth :: others)
        third).ServedBefore
      (assignedKey view (first :: second :: third :: fourth :: others)
        second) := by
  have ordered := (servedInOrder_iff nodup ready).mp served
  have same := heapOrder_perm (first :: second :: third :: fourth :: others)
  obtain ⟨later, drained⟩ := BinaryHeap.drain_equal first second third fourth
    others
  rw [heapOrder_eq] at ordered same
  dsimp only [List.length_cons] at ordered same
  rw [drained] at ordered same
  have swapped := ((List.perm_cons first).mp same).trans
    (List.Perm.swap third second _)
  exact List.rel_of_pairwise_cons ordered.of_cons
    ((List.perm_cons third).mp swapped |>.mem_iff.mpr List.mem_cons_self)

omit [DecidableEq Source] in
theorem heapOrder_few (few : sources.length ≤ 3) :
    Shard.heapOrder sources = sources := by
  rw [heapOrder_eq]
  match sources with
  | [] => rfl
  | [_] => rfl
  | [_, _] => rfl
  | [_, _, _] =>
    simp [BinaryHeap.drain, BinaryHeap.pop, BinaryHeap.refill,
      BinaryHeap.siftDown, BinaryHeap.siftUp_equal]
  | _ :: _ :: _ :: _ :: _ =>
    dsimp only [List.length_cons] at few
    omega

theorem servedInOrder_same (nodup : sources.Nodup)
    (ready : ∀ source ∈ sources, Shard.Ready (view source))
    (few : sources.length ≤ 3)
    (same : ∀ source ∈ sources, ∀ other ∈ sources,
      (view source).getSortKey = (view other).getSortKey) :
    ServedInOrder view sources := by
  rw [servedInOrder_iff nodup ready, heapOrder_few few,
    List.pairwise_iff_getElem]
  intro place later inside inside' before
  have key := same _ (List.getElem_mem inside) _ (List.getElem_mem inside')
  unfold assignedKey
  rw [nodup.idxOf_getElem, nodup.idxOf_getElem, key]
  exact .inr ⟨rfl, .inr ⟨rfl, before⟩⟩

/-- The heap leaves the priorities, the times and the numbers out.  So sources
are served in their order where they happen to be enqueued in the order that
the turns ask for; and whatever the order of enqueueing only where there are
three of them at most and all of them have one priority and one time. -/
theorem sources_served_by_priority (nodup : sources.Nodup)
    (ready : ∀ source ∈ sources, Shard.Ready (view source)) :
    (ServedInOrder view sources ↔
      (turns sources.length).Pairwise fun place later =>
        ∀ source other, sources[place]? = some source →
          sources[later]? = some other →
          (assignedKey view sources source).ServedBefore
            (assignedKey view sources other)) ∧
    ((∀ order : List Source, order.Perm sources → ServedInOrder view order) ↔
      sources.length ≤ 3 ∧ ∀ source ∈ sources, ∀ other ∈ sources,
        (view source).getSortKey = (view other).getSortKey) := by
  refine ⟨?_, fun served => ⟨?_, ?_⟩, ?_⟩
  · have turn := @List.pairwise_map Nat (Option Source) (sources[·]?)
      (fun place later => ∀ source other,
        place = some source → later = some other →
          (assignedKey view sources source).ServedBefore
            (assignedKey view sources other)) (turns sources.length)
    rw [← turn, ← heapOrder_turns, List.pairwise_map,
      servedInOrder_iff nodup ready]
    simp only [Option.some.injEq, forall_eq', forall_apply_eq_imp_iff]
  · match sources, served with
    | [], _ | [_], _ | [_, _], _ | [_, _, _], _ => simp
    | first :: second :: third :: fourth :: others, served =>
      have swapped : (first :: third :: second :: fourth :: others).Perm
          (first :: second :: third :: fourth :: others) :=
        (List.Perm.swap second third _).cons first
      have before := (served _ (List.Perm.refl _)).third nodup ready
      have after := (served _ swapped).third (swapped.nodup_iff.mpr nodup)
        fun source member => ready source (swapped.mem_iff.mp member)
      obtain ⟨-, numbers, -⟩ := same_of_servedBefore before after
      have second_place : List.idxOf second _ = 1 :=
        nodup.idxOf_getElem 1 (by simp)
      have third_place : List.idxOf third _ = 2 :=
        nodup.idxOf_getElem 2 (by simp)
      dsimp only [assignedKey] at numbers
      omega
  · intro source member other member'
    by_cases different : source = other
    · rw [different]
    have first : ∀ {source other}, source ∈ sources → other ∈ sources →
        source ≠ other → ∃ order, (assignedKey view order source).ServedBefore
            (assignedKey view order other) := by
      intro source other member member' different
      have same := (List.perm_cons_erase member).symm
      refine ⟨source :: sources.erase source, ?_⟩
      refine (served _ same).first (same.nodup_iff.mpr nodup) ?_
        ((List.mem_erase_of_ne (Ne.symm different)).mpr member')
      exact fun other inside => ready other (same.mem_iff.mp inside)
    obtain ⟨order, before⟩ := first member member' different
    obtain ⟨order', after⟩ := first member' member (Ne.symm different)
    obtain ⟨⟨priorities, times⟩, -⟩ := same_of_servedBefore before after
    exact congrArg₂ (TaskSourceSortKey.mk · · 0) priorities times
  · rintro ⟨few, same⟩ order perm
    refine servedInOrder_same (perm.nodup_iff.mpr nodup) ?_ ?_ ?_
    · exact fun source member => ready source (perm.mem_iff.mp member)
    · rw [perm.length_eq]
      exact few
    · intro source member other member'
      exact same source (perm.mem_iff.mp member) other
        (perm.mem_iff.mp member')

def idleSource (priority : TaskPriority) (nextDelayedRunTime : Int) :
    SourceView :=
  ⟨priority, nextDelayedRunTime, false, .allowedNotSaturated, false, false⟩

/-- The third source is to be served before the second one. -/
def orderlyView : Fin 4 → SourceView
  | 0 => idleSource .userBlocking 7
  | 1 => idleSource .userVisible 5
  | 2 => idleSource .userVisible 0
  | 3 => idleSource .bestEffort 0

theorem sources_served_by_priority_orderlyView :
    ServedInOrder orderlyView [0, 1, 2, 3] ∧
      ¬∀ order : List (Fin 4), order.Perm [0, 1, 2, 3] →
        ServedInOrder orderlyView order := by
  have ready : ∀ source : Fin 4, Shard.Ready (orderlyView source) := by
    intro source
    match source with
    | 0 | 1 | 2 | 3 => exact ⟨rfl, nofun, rfl⟩
  have nodup : ([0, 1, 2, 3] : List (Fin 4)).Nodup := by decide
  obtain ⟨inTurn, anyOrder⟩ :=
    sources_served_by_priority nodup fun source _ => ready source
  refine ⟨inTurn.mpr (by decide), fun served => ?_⟩
  exact absurd (anyOrder.mp served).1 (by decide)

/-- An urgent source comes behind one that can wait. -/
def urgentView : Fin 2 → SourceView
  | 0 => idleSource .bestEffort 0
  | 1 => idleSource .userBlocking 0

theorem urgentView_served_last :
    (({} : Shard (Fin 2)).enqueueAll urgentView [0, 1]).dequeueMany
        urgentView 2 = [some 0, some 1] ∧
      (assignedKey urgentView [0, 1] 1).ServedBefore
        (assignedKey urgentView [0, 1] 0) := by
  decide

end Dequeues

end Libnei.Pool

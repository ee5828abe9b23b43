import Libnei.Task.DelayedTaskManager

/-!
# The deadline of the delayed task thread

What the manager's thread waits for.  A queue's cached time has an entry in
the heap or in the thread's hands, and a change that the thread may not sleep
through leaves the wake event signalled.  The run time that the thread waits
for is thus never behind a delayed task, but the wait itself is counted in
whole milliseconds from the moment it begins.
-/

namespace Libnei.Task

open Lib

variable {Queue : Type} [DecidableEq Queue]

namespace ManagerPoint

/-- The thread has taken the queue's entry off the heap. -/
def Holds (point : ManagerPoint Queue) (queue : Queue) (runTime : Nat) : Prop :=
  match point with
  | .popped entry | .early entry _ =>
      entry.queue = queue ∧ entry.runTime = runTime
  | .due other | .promoted other => other = queue
  | _ => False

/-- The run time that the thread is going to wait for, `some none` for a wait
without an end. -/
def target : ManagerPoint Queue → Option (Option Nat)
  | .waiting => some none
  | .popped entry | .early entry _ => some (some entry.runTime)
  | .computed runTime _ | .timedWaiting runTime _ _ => some (some runTime)
  | _ => none

/-- The clock was read in front of the run time and of the wait. -/
def Timely (clock : Nat) : ManagerPoint Queue → Prop
  | .early entry now => now < entry.runTime ∧ now ≤ clock
  | .computed runTime now => now < runTime ∧ now ≤ clock
  | .timedWaiting runTime now start => now < runTime ∧ now ≤ start
  | _ => True

end ManagerPoint

namespace DelayedTaskManager

variable (manager : DelayedTaskManager Queue)

/-- The time that a queue in service is registered with. -/
def Cached (queue : Queue) (time : Option Nat) : Prop :=
  manager.queues.lookup queue = some time ∧ manager.shutDown queue = false

structure Watched : Prop where
  sorted : manager.heap.Pairwise (·.runTime ≤ ·.runTime)
  entry : ∀ {queue runTime}, manager.Cached queue (some runTime) →
    (∃ entry ∈ manager.heap, entry.queue = queue ∧
      entry.runTime = runTime) ∨ manager.point.Holds queue runTime
  target : ∀ {target}, manager.point.target = some target →
    manager.wakeEvent = false →
      ∀ {queue runTime}, manager.Cached queue (some runTime) →
        ∃ time ∈ target, time ≤ runTime
  cached : ∀ {queue time}, manager.Cached queue time →
    manager.outstanding queue = 0 → ∀ runTime ∈ manager.delayed queue,
      ∃ first ∈ time, first ≤ runTime
  empty : manager.isShutdown = true → manager.queues = ∅
  timely : manager.point.Timely manager.clock

/-- A section under the lock that refreshes the queue. -/
structure Refreshes (next : DelayedTaskManager Queue) (queue : Queue) :
    Prop where
  others : ∀ {other}, other ≠ queue →
    next.queues.lookup other = manager.queues.lookup other
  current : ∀ {time}, next.queues.lookup queue = some time →
    time = manager.nextRunTime queue
  heap : ∀ entry ∈ manager.heap, entry ∈ next.heap
  own : ∀ {runTime}, next.queues.lookup queue = some (some runTime) →
    ∃ entry ∈ next.heap, entry.queue = queue ∧ entry.runTime = runTime
  sorted : manager.heap.Pairwise (·.runTime ≤ ·.runTime) →
    next.heap.Pairwise (·.runTime ≤ ·.runTime)
  awake : next.wakeEvent = false → manager.wakeEvent = false ∧
    ∀ {runTime}, next.queues.lookup queue = some (some runTime) →
      ∃ previous, manager.queues.lookup queue = some (some previous) ∧
        previous ≤ runTime
  empty : manager.isShutdown = true → next.queues = manager.queues
  same : next.delayed = manager.delayed ∧ next.shutDown = manager.shutDown ∧
    next.isShutdown = manager.isShutdown ∧ next.clock = manager.clock ∧
    next.point = manager.point ∧ next.outstanding = manager.outstanding

variable {manager} {next : DelayedTaskManager Queue} {queue : Queue}
  {heap rest : List (HeapEntry Queue)} {entry : HeapEntry Queue}
  {queues : AList fun _ : Queue => Option Nat} {runTime : Nat}
  {point : ManagerPoint Queue}

omit [DecidableEq Queue] in
theorem sorted_orderedInsert (entry : HeapEntry Queue)
    (sorted : heap.Pairwise (·.runTime ≤ ·.runTime)) :
    (heap.orderedInsert HeapEntry.Above entry).Pairwise
      (·.runTime ≤ ·.runTime) := by
  induction heap with
  | nil => exact List.pairwise_singleton _ _
  | cons first heap ih =>
    obtain ⟨lower, rest⟩ := List.pairwise_cons.mp sorted
    rw [List.orderedInsert]
    split
    case isTrue above =>
      have least : entry.runTime ≤ first.runTime := by
        rcases above with before | ⟨same, _⟩
        · exact Nat.le_of_lt before
        · exact Nat.le_of_eq same
      refine List.pairwise_cons.mpr ⟨?_, sorted⟩
      intro other member
      rcases List.mem_cons.mp member with rfl | member
      · exact least
      · exact Nat.le_trans least (lower other member)
    case isFalse below =>
      refine List.pairwise_cons.mpr ⟨?_, ih rest⟩
      intro other member
      rcases (List.mem_orderedInsert HeapEntry.Above).mp member with
        rfl | member
      · by_contra behind
        exact below (.inl (Nat.lt_of_not_le behind))
      · exact lower other member

omit [DecidableEq Queue] in
theorem nextRunTime_le (live : manager.shutDown queue = false) :
    ∀ runTime ∈ manager.delayed queue,
      ∃ first ∈ manager.nextRunTime queue, first ≤ runTime := by
  intro runTime member
  rw [nextRunTime, live]
  cases least : (manager.delayed queue).min? with
  | none =>
    rw [List.min?_eq_none_iff.mp least] at member
    cases member
  | some first =>
    exact ⟨first, rfl, (List.min?_eq_some_iff.mp least).2 runTime member⟩

theorem refreshes_absent (absent : manager.queues.lookup queue = none) :
    manager.Refreshes manager queue where
  others _ := rfl
  current found := by rw [absent] at found; cases found
  heap _ member := member
  own found := by rw [absent] at found; cases found
  sorted sorted := sorted
  awake asleep := ⟨asleep, fun found => by rw [absent] at found; cases found⟩
  empty _ := rfl
  same := ⟨rfl, rfl, rfl, rfl, rfl, rfl⟩

theorem refreshQueueState_refreshes (active : manager.isShutdown = false)
    (registered : (manager.queues.lookup queue).isSome) {wakeEvent : Bool}
    (awake : wakeEvent = false → manager.wakeEvent = false ∧
      ∀ {runTime}, manager.nextRunTime queue = some runTime →
        ∃ previous, manager.queues.lookup queue = some (some previous) ∧
          previous ≤ runTime) :
    manager.Refreshes
      { manager.refreshQueueState queue with wakeEvent } queue := by
  obtain ⟨previous, found⟩ := Option.isSome_iff_exists.mp registered
  have lookup : (manager.queues.insert queue
      (manager.nextRunTime queue)).lookup queue =
        some (manager.nextRunTime queue) := AList.lookup_insert _
  have others {other : Queue} (different : other ≠ queue) :
      (manager.queues.insert queue (manager.nextRunTime queue)).lookup other =
        manager.queues.lookup other := AList.lookup_insert_ne different
  unfold refreshQueueState
  rw [found]
  dsimp only
  split
  case h_1 idle =>
    rw [idle] at lookup others awake ⊢
    refine ⟨others, ?_, fun _ member => member, ?_, id, ?_, ?_,
      ⟨rfl, rfl, rfl, rfl, rfl, rfl⟩⟩
    · intro time now
      rw [idle]
      exact (Option.some.inj (lookup.symm.trans now)).symm
    · intro runTime now
      cases lookup.symm.trans now
    · intro asleep
      refine ⟨(awake asleep).1, fun now => ?_⟩
      cases lookup.symm.trans now
    · intro shut
      rw [active] at shut
      cases shut
  case h_2 first least =>
    rw [least] at lookup others awake ⊢
    have inserted {entry : HeapEntry Queue} :
        entry ∈ manager.push ⟨queue, first, manager.nextOrder⟩ ↔
          entry = ⟨queue, first, manager.nextOrder⟩ ∨ entry ∈ manager.heap :=
      List.mem_orderedInsert HeapEntry.Above
    refine ⟨others, ?_, fun _ member => inserted.mpr (.inr member), ?_,
      sorted_orderedInsert _, ?_, ?_, ⟨rfl, rfl, rfl, rfl, rfl, rfl⟩⟩
    · intro time now
      rw [least]
      exact (Option.some.inj (lookup.symm.trans now)).symm
    · intro runTime now
      cases lookup.symm.trans now
      exact ⟨_, inserted.mpr (.inl rfl), rfl, rfl⟩
    · intro asleep
      refine ⟨(awake asleep).1, fun now => ?_⟩
      cases lookup.symm.trans now
      exact (awake asleep).2 rfl
    · intro shut
      rw [active] at shut
      cases shut

/-- Where the update does not wake the thread, the queue's time has not come
forward. -/
theorem wakes_eq_false {previous updated : Option Nat}
    (asleep : wakes previous updated = false) (now : updated = some runTime) :
    ∃ time, previous = some time ∧ time ≤ runTime := by
  subst now
  cases previous with
  | none => cases asleep
  | some time =>
    exact ⟨time, rfl, Nat.le_of_not_lt (of_decide_eq_false asleep)⟩

theorem onQueueUpdated_refreshes (watched : manager.Watched) (queue : Queue) :
    manager.Refreshes (manager.onQueueUpdated queue) queue := by
  unfold onQueueUpdated
  split
  case isTrue shut =>
    refine refreshes_absent ?_
    rw [watched.empty shut]
    rfl
  case isFalse active =>
    split
    case h_1 absent => exact refreshes_absent absent
    case h_2 previous found =>
      refine refreshQueueState_refreshes (Bool.not_eq_true _ ▸ active)
        (by rw [found]; rfl) fun asleep => ?_
      obtain ⟨before, quiet⟩ := Bool.or_eq_false_iff.mp asleep
      refine ⟨before, fun now => ?_⟩
      obtain ⟨time, rfl, earlier⟩ := wakes_eq_false quiet now
      exact ⟨time, found, earlier⟩

theorem addQueue_refreshes (watched : manager.Watched) (queue : Queue) :
    manager.Refreshes (manager.addQueue queue) queue := by
  unfold addQueue
  split
  case isTrue shut =>
    refine refreshes_absent ?_
    rw [watched.empty shut]
    rfl
  case isFalse active =>
    have active := Bool.not_eq_true _ ▸ active
    dsimp only
    split
    case isTrue registered =>
      exact refreshQueueState_refreshes active registered
        fun asleep => absurd asleep.symm Bool.false_ne_true
    case isFalse absent =>
      have refreshed := @refreshQueueState_refreshes Queue _
        { manager with queues := manager.queues.insert queue none } queue
        active (by rw [AList.lookup_insert]; rfl) true
        fun asleep => absurd asleep.symm Bool.false_ne_true
      refine { refreshed with
        others := fun different => ?_
        awake := fun asleep => absurd asleep.symm Bool.false_ne_true
        empty := fun shut => ?_ }
      · rw [refreshed.others different, AList.lookup_insert_ne different]
      · rw [active] at shut
        cases shut

variable {outstanding : Queue → Nat} {now : Nat}

/-- A refresh keeps the manager watchful, also the one by which the thread
gives an entry back. -/
theorem Watched.refresh (watched : manager.Watched)
    (refreshes : manager.Refreshes next queue)
    (back : point = manager.point ∨
      manager.point = .promoted queue ∧ point = .top)
    (others : ∀ {other}, other ≠ queue →
      outstanding other = manager.outstanding other) :
    Watched { next with point, outstanding } := by
  obtain ⟨delayed, shutDown, isShutdown, clock, _, _⟩ := refreshes.same
  have before {other : Queue} {time : Option Nat} (different : other ≠ queue)
      (cached : next.Cached other time) : manager.Cached other time :=
    ⟨refreshes.others different ▸ cached.1, shutDown ▸ cached.2⟩
  constructor
  case sorted => exact refreshes.sorted watched.sorted
  case entry =>
    intro other runTime cached
    by_cases different : other = queue
    · subst different
      exact .inl (refreshes.own cached.1)
    · rcases watched.entry (before different cached) with
        ⟨entry, member, facts⟩ | holds
      · exact .inl ⟨entry, refreshes.heap entry member, facts⟩
      · rcases back with rfl | ⟨promoted, rfl⟩
        · exact .inr holds
        · rw [promoted] at holds
          exact absurd holds.symm different
  case target =>
    intro target pointed asleep other runTime cached
    obtain ⟨quiet, earlier⟩ := refreshes.awake asleep
    rcases back with rfl | ⟨_, rfl⟩
    · by_cases different : other = queue
      · subst different
        obtain ⟨previous, found, least⟩ := earlier cached.1
        obtain ⟨time, member, most⟩ :=
          watched.target pointed quiet ⟨found, shutDown ▸ cached.2⟩
        exact ⟨time, member, Nat.le_trans most least⟩
      · exact watched.target pointed quiet (before different cached)
    · cases pointed
  case cached =>
    intro other time cached settled runTime member
    dsimp only at settled member
    rw [delayed] at member
    by_cases different : other = queue
    · subst different
      rw [refreshes.current cached.1]
      exact nextRunTime_le (shutDown ▸ cached.2) runTime member
    · rw [others different] at settled
      exact watched.cached (before different cached) settled runTime member
  case empty =>
    intro shut
    have shut := isShutdown ▸ shut
    exact (refreshes.empty shut).trans (watched.empty shut)
  case timely =>
    rcases back with rfl | ⟨_, rfl⟩
    · show manager.point.Timely next.clock
      rw [clock]
      exact watched.timely
    · trivial

/-- Delayed tasks that leave a queue, that join one whose update is
outstanding, or that do not come first. -/
theorem Watched.withDelayed (watched : manager.Watched)
    {delayed : Queue → List Nat} {unseen : List Queue} {changes : Nat}
    (fewer : ∀ {queue}, outstanding queue = 0 →
      manager.outstanding queue = 0 ∧ ∀ runTime ∈ delayed queue,
        ∃ earlier ∈ manager.delayed queue, earlier ≤ runTime) :
    Watched { manager with delayed, outstanding, unseen, changes } := by
  refine { watched with cached := ?_ }
  intro queue time cached settled runTime member
  obtain ⟨settled, covered⟩ := fewer settled
  obtain ⟨earlier, among, before⟩ := covered runTime member
  obtain ⟨first, found, least⟩ :=
    watched.cached cached settled earlier among
  exact ⟨first, found, Nat.le_trans least before⟩

theorem setDelayed_eq (manager : DelayedTaskManager Queue) (queue : Queue)
    (times : List Nat) :
    ∃ unseen changes, manager.setDelayed queue times =
      { manager with
        delayed := Function.update manager.delayed queue times
        unseen
        changes } := by
  unfold setDelayed
  dsimp only
  split
  · exact ⟨manager.unseen, manager.changes, rfl⟩
  · exact ⟨_, _, rfl⟩

section

variable (watched : manager.Watched)

include watched

theorem Watched.setDelayed {times : List Nat}
    (subset : times ⊆ manager.delayed queue) :
    (manager.setDelayed queue times).Watched := by
  obtain ⟨unseen, changes, equal⟩ := setDelayed_eq manager queue times
  rw [equal]
  refine watched.withDelayed fun {other} settled => ⟨settled, ?_⟩
  intro runTime member
  by_cases different : other = queue
  · subst different
    rw [Function.update_self] at member
    exact ⟨runTime, subset member, Nat.le_refl _⟩
  · rw [Function.update_of_ne different] at member
    exact ⟨runTime, member, Nat.le_refl _⟩

theorem Watched.post (queue : Queue) (runTime : Nat) {calls : Nat}
    (silent : calls = 0 → (runTime :: manager.delayed queue).min? =
      (manager.delayed queue).min?) :
    Watched { manager.setDelayed queue (runTime :: manager.delayed queue) with
      outstanding := Function.update manager.outstanding queue
        (manager.outstanding queue + calls) } := by
  obtain ⟨unseen, changes, equal⟩ :=
    setDelayed_eq manager queue (runTime :: manager.delayed queue)
  rw [equal]
  refine watched.withDelayed fun {other} settled => ?_
  dsimp only
  by_cases different : other = queue
  · subst different
    rw [Function.update_self] at settled ⊢
    refine ⟨Nat.eq_zero_of_add_eq_zero_right settled, ?_⟩
    -- The head is the old one, and is in front of the new task.
    have head := silent (Nat.eq_zero_of_add_eq_zero_left settled)
    cases least : (runTime :: manager.delayed other).min? with
    | none => cases List.min?_eq_none_iff.mp least
    | some first =>
      obtain ⟨_, below⟩ := List.min?_eq_some_iff.mp least
      obtain ⟨among, _⟩ :=
        List.min?_eq_some_iff.mp (head.symm.trans least)
      exact fun time member => ⟨first, among, below time member⟩
  · rw [Function.update_of_ne different] at settled ⊢
    exact ⟨settled, fun time member => ⟨time, member, Nat.le_refl _⟩⟩

/-- Queues that are no longer registered or in service. -/
theorem Watched.fewer (cached : ∀ {queue time}, next.Cached queue time →
      manager.Cached queue time)
    (heap : next.heap = manager.heap ∨
      ∀ {queue time}, ¬next.Cached queue time)
    (wakeEvent : next.wakeEvent = false → manager.wakeEvent = false)
    (empty : next.isShutdown = true → next.queues = ∅)
    (same : next.point = manager.point ∧
      next.outstanding = manager.outstanding ∧
      next.delayed = manager.delayed ∧ next.clock = manager.clock)
    (sorted : next.heap.Pairwise (·.runTime ≤ ·.runTime)) :
    next.Watched := by
  obtain ⟨point, outstanding, delayed, clock⟩ := same
  refine ⟨sorted, ?_, ?_, ?_, empty, ?_⟩
  · intro queue runTime now
    rcases heap with heap | none
    · rw [heap, point]
      exact watched.entry (cached now)
    · exact absurd now none
  · intro target pointed asleep queue runTime now
    rw [point] at pointed
    exact watched.target pointed (wakeEvent asleep) (cached now)
  · intro queue time now settled
    rw [outstanding] at settled
    rw [delayed]
    exact watched.cached (cached now) settled
  · rw [point, clock]
    exact watched.timely

theorem Watched.removeQueue (queue : Queue) :
    (manager.removeQueue queue).Watched := by
  have before {other : Queue} {time : Option Nat}
      (now : (manager.removeQueue queue).Cached other time) :
      manager.Cached other time := by
    by_cases different : other = queue
    · have gone : (manager.queues.erase queue).lookup queue = none :=
        AList.lookup_erase _ _
      have found := now.1
      rw [different] at found
      cases gone.symm.trans found
    · have kept : (manager.queues.erase queue).lookup other =
          manager.queues.lookup other := AList.lookup_erase_ne different
      exact ⟨kept.symm.trans now.1, now.2⟩
  refine watched.fewer before (.inl rfl)
    (fun asleep => absurd asleep.symm Bool.false_ne_true) ?_
    ⟨rfl, rfl, rfl, rfl⟩ watched.sorted
  intro shut
  show manager.queues.erase queue = ∅
  rw [watched.empty shut]
  rfl

theorem Watched.shutdownQueue (queue : Queue) : Watched { manager with
      shutDown := Function.update manager.shutDown queue true } := by
  refine watched.fewer (fun {other _} now => ⟨now.1, ?_⟩) (.inl rfl) id
    watched.empty ⟨rfl, rfl, rfl, rfl⟩ watched.sorted
  have live : Function.update manager.shutDown queue true other = false :=
    now.2
  by_cases different : other = queue
  · rw [different, Function.update_self] at live
    cases live
  · rwa [Function.update_of_ne different] at live

theorem Watched.shutdown : manager.shutdown.Watched := by
  have none {queue : Queue} {time : Option Nat} :
      ¬manager.shutdown.Cached queue time := by
    intro now
    cases now.1
  exact watched.fewer (fun now => absurd now none) (.inr none) id
    (fun _ => rfl) ⟨rfl, rfl, rfl, rfl⟩ List.Pairwise.nil

theorem Watched.released {wakeEvent : Bool}
    (holds : ∀ {queue runTime}, manager.Cached queue (some runTime) →
      manager.point.Holds queue runTime → point.Holds queue runTime)
    (target : point.target = none) (timely : point.Timely manager.clock) :
    Watched { manager with point, wakeEvent } := by
  refine ⟨watched.sorted, ?_, ?_, watched.cached, watched.empty, timely⟩
  · intro queue runTime cached
    exact (watched.entry cached).imp_right (holds cached)
  · intro _ pointed
    cases target.symm.trans pointed

/-- The thread goes on towards the same wait. -/
theorem Watched.advanced
    (holds : ∀ {queue runTime}, manager.point.Holds queue runTime →
      point.Holds queue runTime) (target : point.target = manager.point.target)
    (timely : point.Timely manager.clock) :
    Watched { manager with point } := by
  refine ⟨watched.sorted, ?_, ?_, watched.cached, watched.empty, timely⟩
  · intro queue runTime cached
    exact (watched.entry cached).imp_right holds
  · intro _ pointed
    exact watched.target (target.symm.trans pointed)

end

theorem popNextValidEntry_some
    (popped : popNextValidEntry queues heap = (some entry, rest)) :
    ∃ dropped, heap = dropped ++ entry :: rest ∧
      ∀ other ∈ dropped,
        queues.lookup other.queue ≠ some (some other.runTime) := by
  induction heap with
  | nil => cases popped
  | cons first heap ih =>
    rw [popNextValidEntry] at popped
    split at popped
    case isTrue valid =>
      cases popped
      exact ⟨[], rfl, List.forall_mem_nil _⟩
    case isFalse invalid =>
      obtain ⟨dropped, rfl, stale⟩ := ih popped
      refine ⟨first :: dropped, rfl, ?_⟩
      intro other member
      rcases List.mem_cons.mp member with rfl | member
      · exact invalid
      · exact stale other member

theorem popNextValidEntry_none
    (popped : popNextValidEntry queues heap = (none, rest)) :
    ∀ other ∈ heap, queues.lookup other.queue ≠ some (some other.runTime) := by
  induction heap with
  | nil => exact List.forall_mem_nil _
  | cons first heap ih =>
    rw [popNextValidEntry] at popped
    split at popped
    case isTrue => cases popped
    case isFalse invalid =>
      intro other member
      rcases List.mem_cons.mp member with rfl | member
      · exact invalid
      · exact ih popped other member

/-- At the top of its loop the thread holds nothing, so that every cached time
is in the heap. -/
theorem Watched.atTop (watched : manager.Watched) (top : manager.point = .top)
    (cached : manager.Cached queue (some runTime)) :
    ∃ entry ∈ manager.heap, entry.queue = queue ∧ entry.runTime = runTime := by
  rcases watched.entry cached with found | holds
  · exact found
  · rw [top] at holds
    cases holds

theorem Watched.pop (watched : manager.Watched) (top : manager.point = .top)
    (popped : popNextValidEntry manager.queues manager.heap =
      (some entry, heap)) :
    Watched { manager with heap, point := .popped entry } := by
  obtain ⟨dropped, split, stale⟩ := popNextValidEntry_some popped
  have sorted := watched.sorted
  rw [split] at sorted
  obtain ⟨least, rest⟩ :=
    List.pairwise_cons.mp (List.pairwise_append.mp sorted).2.1
  -- What is cached is not among the entries that were dropped.
  have left {queue : Queue} {runTime : Nat}
      (cached : manager.Cached queue (some runTime)) :
      ∃ other ∈ entry :: heap, other.queue = queue ∧
        other.runTime = runTime := by
    obtain ⟨other, member, rfl, rfl⟩ := watched.atTop top cached
    rw [split] at member
    rcases List.mem_append.mp member with member | member
    · exact absurd cached.1 (stale other member)
    · exact ⟨other, member, rfl, rfl⟩
  refine ⟨rest, ?_, ?_, watched.cached, watched.empty, trivial⟩
  · intro queue runTime cached
    obtain ⟨other, member, rfl, rfl⟩ := left cached
    rcases List.mem_cons.mp member with rfl | member
    · exact .inr ⟨rfl, rfl⟩
    · exact .inl ⟨other, member, rfl, rfl⟩
  · intro target pointed _ queue runTime cached
    cases pointed
    obtain ⟨other, member, rfl, rfl⟩ := left cached
    refine ⟨entry.runTime, rfl, ?_⟩
    rcases List.mem_cons.mp member with rfl | member
    · exact Nat.le_refl _
    · exact least other member

theorem popNextValidEntry_rest
    (popped : popNextValidEntry queues heap = (none, rest)) : rest = [] := by
  induction heap with
  | nil => exact (Prod.mk.inj popped).2.symm
  | cons first heap ih =>
    rw [popNextValidEntry] at popped
    split at popped
    · cases popped
    · exact ih popped

section

variable (watched : manager.Watched)

include watched

theorem Watched.popNothing (top : manager.point = .top)
    (popped : popNextValidEntry manager.queues manager.heap = (none, heap)) :
    Watched { manager with heap, point := .waiting } := by
  have none {queue : Queue} {runTime : Nat} :
      ¬manager.Cached queue (some runTime) := by
    intro cached
    obtain ⟨entry, member, rfl, rfl⟩ := watched.atTop top cached
    exact popNextValidEntry_none popped entry member cached.1
  refine ⟨?_, ?_, ?_, watched.cached, watched.empty, trivial⟩
  · rw [popNextValidEntry_rest popped]
    exact List.Pairwise.nil
  · intro queue runTime cached
    exact absurd cached none
  · intro target _ _ queue runTime cached
    exact absurd cached none

/-- The thread gives the entry back, unless the queue has another time now,
for which there is an entry. -/
theorem Watched.giveBack (early : manager.point = .early entry now) :
    Watched { manager with
      heap :=
        if !manager.isShutdown ∧ manager.queues.lookup entry.queue =
            some (some entry.runTime) then manager.push entry
        else manager.heap
      point := .computed entry.runTime now } := by
  have timely := watched.timely
  rw [early] at timely
  have inserted {other : HeapEntry Queue} :
      other ∈ manager.push entry ↔ other = entry ∨ other ∈ manager.heap :=
    List.mem_orderedInsert HeapEntry.Above
  refine ⟨?_, ?_, ?_, watched.cached, watched.empty, timely⟩
  · dsimp only
    split
    · exact sorted_orderedInsert entry watched.sorted
    · exact watched.sorted
  · intro queue runTime cached
    left
    have found := watched.entry cached
    rw [early] at found
    dsimp only
    split
    case isTrue =>
      rcases found with ⟨other, member, facts⟩ | holds
      · exact ⟨other, inserted.mpr (.inr member), facts⟩
      · exact ⟨entry, inserted.mpr (.inl rfl), holds⟩
    case isFalse changed =>
      rcases found with found | ⟨rfl, rfl⟩
      · exact found
      · have active : manager.isShutdown = false := by
          by_contra shut
          have empty := watched.empty (Bool.not_eq_false _ ▸ shut)
          have found := cached.1
          rw [show manager.queues.lookup entry.queue = none by
            rw [empty]; rfl] at found
          cases found
        exact absurd ⟨by rw [active]; rfl, cached.1⟩ changed
  · intro target pointed
    have same : manager.point.target = some (some entry.runTime) := by
      rw [early]
      rfl
    cases pointed
    exact watched.target same

theorem Watched.thread (taken : manager.threadMain = some next) :
    next.Watched := by
  unfold threadMain at taken
  split at taken
  case h_1 top =>
    split at taken
    · cases taken
      refine watched.released (fun _ holds => ?_) rfl trivial
      rw [top] at holds
      cases holds
    · split at taken
      case h_1 entry heap popped =>
        cases taken
        exact watched.pop top popped
      case h_2 heap popped =>
        cases taken
        exact watched.popNothing top popped
  case h_2 waiting =>
    split at taken <;> cases taken
    refine watched.released (fun _ holds => ?_) rfl trivial
    rw [waiting] at holds
    cases holds
  case h_3 entry popped =>
    split at taken
    case isTrue before =>
      cases taken
      refine watched.advanced (fun holds => ?_) ?_
        ⟨before, Nat.le_refl _⟩
      · rw [popped] at holds
        exact holds
      · rw [popped]
        rfl
    case isFalse =>
      cases taken
      refine watched.released (fun _ holds => ?_) rfl trivial
      rw [popped] at holds
      exact holds.1
  case h_4 entry now early =>
    cases taken
    exact watched.giveBack early
  case h_5 runTime now computed =>
    cases taken
    have timely := watched.timely
    rw [computed] at timely
    refine watched.advanced (fun holds => ?_) ?_ timely
    · rw [computed] at holds
      cases holds
    · rw [computed]
      rfl
  case h_6 runTime now start waiting =>
    have free {queue : Queue} {runTime : Nat} :
        ¬manager.point.Holds queue runTime := by
      intro holds
      rw [waiting] at holds
      cases holds
    split at taken
    · cases taken
      exact watched.released (fun _ holds => absurd holds free) rfl trivial
    · split at taken <;> cases taken
      exact watched.released (fun _ holds => absurd holds free) rfl trivial
  case h_7 queue due =>
    split at taken
    case isTrue shut =>
      cases taken
      refine watched.released (fun cached holds => ?_) rfl trivial
      rw [due] at holds
      rw [← show queue = _ from holds, Cached, shut] at cached
      cases cached.2
    case isFalse =>
      cases taken
      have promoted := watched.setDelayed
        (@List.filter_sublist _ (manager.clock < ·)
          (manager.delayed queue)).subset
      refine promoted.released (fun _ holds => ?_) rfl trivial
      obtain ⟨_, _, equal⟩ := setDelayed_eq manager queue
        ((manager.delayed queue).filter (manager.clock < ·))
      rw [equal, due] at holds
      exact holds
  case h_8 queue promoted =>
    cases taken
    have refreshes := onQueueUpdated_refreshes watched queue
    obtain ⟨_, _, _, _, _, outstanding⟩ := refreshes.same
    exact watched.refresh refreshes (.inr ⟨promoted, rfl⟩)
      fun _ => congrFun outstanding _
  case h_9 => cases taken

theorem Watched.step {action : ManagerAction Queue}
    (taken : manager.step action = some next) :
    next.Watched := by
  cases action with
  | post queue runTime =>
    cases taken
    refine watched.post queue runTime fun none => ?_
    by_contra changed
    rw [if_neg changed] at none
    cases none
  | posted queue =>
    rw [DelayedTaskManager.step] at taken
    split at taken <;> cases taken
    have refreshes := onQueueUpdated_refreshes watched queue
    obtain ⟨_, _, _, _, point, _⟩ := refreshes.same
    exact watched.refresh refreshes (.inl point)
      fun different => Function.update_of_ne different _ _
  | update queue =>
    cases taken
    have refreshes := onQueueUpdated_refreshes watched queue
    obtain ⟨_, _, _, _, point, outstanding⟩ := refreshes.same
    exact watched.refresh refreshes (.inl point)
      fun _ => congrFun outstanding _
  | take queue rest =>
    obtain ⟨subset, ⟨⟩⟩ := Option.ite_none_right_eq_some.mp taken
    exact watched.setDelayed subset
  | shutdownQueue queue =>
    cases taken
    exact watched.shutdownQueue queue
  | addQueue queue =>
    cases taken
    have refreshes := addQueue_refreshes watched queue
    obtain ⟨_, _, _, _, point, outstanding⟩ := refreshes.same
    exact watched.refresh refreshes (.inl point)
      fun _ => congrFun outstanding _
  | removeQueue queue =>
    cases taken
    exact watched.removeQueue queue
  | shutdown =>
    cases taken
    exact watched.shutdown
  | signal =>
    rw [DelayedTaskManager.step] at taken
    split at taken <;> cases taken
    exact watched.fewer id (.inl rfl)
      (fun asleep => absurd asleep.symm Bool.false_ne_true) watched.empty
      ⟨rfl, rfl, rfl, rfl⟩ watched.sorted
  | wait time =>
    cases taken
    refine { watched with timely := ?_ }
    have timely := watched.timely
    show manager.point.Timely (manager.clock + time)
    cases point : manager.point with
    | early entry now | computed runTime now =>
      rw [point] at timely
      exact ⟨timely.1, Nat.le_add_right_of_le timely.2⟩
    | timedWaiting runTime now start =>
      rw [point] at timely
      exact timely
    | _ => trivial
  | thread => exact watched.thread taken

end

theorem waitEnd_le {start : Nat} (early : now < runTime) (later : now ≤ start) :
    waitEnd runTime now start ≤ max runTime (now + 1000) + (start - now) := by
  unfold waitEnd waitMilliseconds
  dsimp only
  split <;> omega

/-- Where the thread is blocked with its event not signalled and no update is
outstanding, no queue in service has delayed work if the wait has no end, and
else the run time it waits for is not behind any delayed task's.  The wait
ends then, or a millisecond after the clock was read, or as much later as the
wait began behind that reading. -/
theorem waits_for_earliest {actions : List (ManagerAction Queue)}
    (ran : perform DelayedTaskManager.step {} actions = some manager)
    (asleep : manager.wakeEvent = false)
    (settled : ∀ queue, manager.outstanding queue = 0) :
    (manager.point = .waiting →
      ∀ queue ∈ manager.queues, manager.shutDown queue = false →
        manager.delayed queue = []) ∧
    ∀ runTime now start, manager.point = .timedWaiting runTime now start →
      now ≤ start ∧
      ∀ queue ∈ manager.queues, manager.shutDown queue = false →
        ∀ time ∈ manager.delayed queue, runTime ≤ time ∧
          waitEnd runTime now start ≤
            max time (now + 1000) + (start - now) := by
  have watched : manager.Watched := by
    refine perform_invariant (fun watched taken => watched.step taken) ran ?_
    refine ⟨List.Pairwise.nil, fun cached => ?_, nofun, fun cached => ?_,
      nofun, trivial⟩
    · cases cached.1
    · cases cached.1
  have waitsFor {target : Option Nat} {queue : Queue} {time : Nat}
      (pointed : manager.point.target = some target)
      (registered : queue ∈ manager.queues)
      (live : manager.shutDown queue = false)
      (member : time ∈ manager.delayed queue) :
      ∃ runTime ∈ target, runTime ≤ time := by
    obtain ⟨cache, found⟩ :=
      Option.isSome_iff_exists.mp (AList.lookup_isSome.mpr registered)
    obtain ⟨first, rfl, least⟩ :=
      watched.cached ⟨found, live⟩ (settled queue) time member
    obtain ⟨runTime, among, before⟩ :=
      watched.target pointed asleep ⟨found, live⟩
    exact ⟨runTime, among, Nat.le_trans before least⟩
  refine ⟨fun waiting queue registered live => ?_,
    fun runTime now start waiting => ?_⟩
  · rw [List.eq_nil_iff_forall_not_mem]
    intro time member
    obtain ⟨_, among, _⟩ :=
      waitsFor (by rw [waiting]; rfl) registered live member
    cases among
  · have timely := watched.timely
    rw [waiting] at timely
    refine ⟨timely.2, fun queue registered live time member => ?_⟩
    obtain ⟨first, among, before⟩ :=
      waitsFor (by rw [waiting]; rfl) registered live member
    cases among
    have ends := waitEnd_le timely.1 timely.2
    exact ⟨before, by omega⟩

/-- A task with half a millisecond to go.  The thread finds the signals of the
registration and of the post, and is then in its second wait. -/
def halfMillisecond : List (ManagerAction Unit) :=
  [.addQueue (), .post () 500, .posted ()] ++ List.replicate 9 .thread

theorem waits_for_earliest_half :
    ∃ manager,
      perform DelayedTaskManager.step {} halfMillisecond = some manager ∧
      manager.point = .timedWaiting 500 0 0 ∧ manager.delayed () = [500] ∧
      ∀ time ∈ manager.delayed (), 500 ≤ time ∧
        waitEnd 500 0 0 ≤ max time 1000 := by
  have ran : perform DelayedTaskManager.step {} halfMillisecond =
    some ((perform DelayedTaskManager.step {} halfMillisecond).getD {}) := rfl
  refine ⟨_, ran, rfl, rfl, ?_⟩
  exact ((waits_for_earliest ran rfl fun _ => rfl).2 500 0 0 rfl).2 ()
    (by decide) rfl

theorem waits_past_earliest :
    (perform DelayedTaskManager.step {} halfMillisecond).map
        (fun manager => (manager.point, manager.wakeEvent,
          manager.outstanding (), manager.delayed (),
          waitEnd 500 0 0)) =
      some (.timedWaiting 500 0 0, false, 0, [500], 1000) := by
  decide +kernel

end DelayedTaskManager

end Libnei.Task

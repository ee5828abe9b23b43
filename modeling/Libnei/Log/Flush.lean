import Libnei.Log.RingDelivery

/-!
# Flush as a barrier

A flush waits for the positions that are committed when it begins.  It covers
the events of its caller where, at that moment, nobody has an earlier position
unpublished or is about to move the committed position.
-/

namespace Libnei.Log

open Lib

variable {Thread : Type} {size : Nat}

/-- The positions of the threads, and what a flush waits for. -/
structure Posted (state : LogState Thread) : Prop where
  below : ∀ {actor pos}, pos ∈ (state.threads actor).posts →
    pos < state.memory.writePos
  own : ∀ {actor pos}, state.unpublished actor = some pos →
    pos ∈ (state.threads actor).posts
  apart : ∀ {first second pos}, pos ∈ (state.threads first).posts →
    pos ∈ (state.threads second).posts → first = second
  targets : ∀ {actor target},
    (state.threads actor).control.target = some target →
      ∀ pos ∈ (state.threads actor).posts, pos < target

theorem posted_start : Posted (LogState.start : LogState Thread) where
  below := fun {actor} => by cases actor <;> nofun
  own := fun {actor} => by cases actor <;> nofun
  apart := fun {first} => by cases first <;> nofun
  targets := fun {actor} => by cases actor <;> nofun

variable [DecidableEq Thread] {state : LogState Thread}
  {me : Actor Thread} {ring' : Ring Thread}

theorem Posted.aside (posted : Posted state) {control : Control}
    (writePos : ring'.writePos = state.memory.writePos)
    (unpublished : ∀ pos, control.unpublished = some pos →
      (state.threads me).control.unpublished = some pos)
    (targets : ∀ target, control.target = some target →
      ∀ pos ∈ (state.threads me).posts, pos < target) :
    Posted (state.become me ring' ((state.threads me).goto control)) := by
  have posts : ∀ actor, ((state.become me ring'
      ((state.threads me).goto control)).threads actor).posts =
        (state.threads actor).posts := by
    intro actor
    by_cases same : actor = me
    · rw [same, Threads.become_self]
      rfl
    · rw [Threads.become_of_ne state same]
  constructor
  · intro actor pos member
    rw [posts] at member
    rw [Threads.become_memory, writePos]
    exact posted.below member
  · intro actor pos held
    rw [posts]
    unfold LogState.unpublished at held
    by_cases same : actor = me
    · subst same
      rw [Threads.become_self] at held
      exact posted.own (unpublished pos held)
    · rw [Threads.become_of_ne state same] at held
      exact posted.own held
  · intro first second pos member member'
    rw [posts] at member member'
    exact posted.apart member member'
  · intro actor target flushing
    rw [posts]
    by_cases same : actor = me
    · subst same
      rw [Threads.become_self] at flushing
      exact targets target flushing
    · rw [Threads.become_of_ne state same] at flushing
      exact posted.targets flushing

theorem Posted.reserve (posted : Posted state)
    (idle : (state.threads me).control = .idle) (event : Bytes) :
    Posted (state.become me
      (Log.reserve state.memory (state.threads me) event).1
      (Log.reserve state.memory (state.threads me) event).2) := by
  unfold Log.reserve
  split
  case isTrue refused =>
    show Posted (state.become me state.memory
      ((state.threads me).goto (state.threads me).control))
    exact posted.aside rfl (fun _ held => held)
      fun target flushing => posted.targets flushing
  case isFalse accepted =>
    dsimp only
    generalize joined : state.become me _ _ = next
    have writePos : next.memory.writePos = state.memory.writePos + 1 := by
      rw [← joined]
      rfl
    have mine : next.threads me = ⟨.waiting state.memory.writePos event,
          (state.threads me).posts ++ [state.memory.writePos]⟩ := by
      rw [← joined, Threads.become_self]
    have others : ∀ {actor}, actor ≠ me →
        next.threads actor = state.threads actor := by
      intro actor other
      rw [← joined, Threads.become_of_ne state other]
    -- A position is the new one of this thread or one from before.
    have posts : ∀ {actor pos}, pos ∈ (next.threads actor).posts →
        pos ∈ (state.threads actor).posts ∧ pos < state.memory.writePos ∨
          actor = me ∧ pos = state.memory.writePos := by
      intro actor pos member
      by_cases same : actor = me
      · subst same
        rw [mine] at member
        rcases List.mem_append.mp member with old | new
        · exact .inl ⟨old, posted.below old⟩
        · exact .inr ⟨rfl, List.mem_singleton.mp new⟩
      · rw [others same] at member
        exact .inl ⟨member, posted.below member⟩
    constructor
    · intro actor pos member
      rw [writePos]
      rcases posts member with ⟨-, below⟩ | ⟨-, rfl⟩
      · exact Nat.lt_succ_of_lt below
      · exact Nat.lt_succ_self _
    · intro actor pos held
      unfold LogState.unpublished at held
      by_cases same : actor = me
      · subst same
        rw [mine] at held ⊢
        obtain rfl := Option.some.inj held
        exact List.mem_append_right _ List.mem_cons_self
      · rw [others same] at held ⊢
        exact posted.own held
    · intro first second pos member member'
      rcases posts member with ⟨old, below⟩ | ⟨own, new⟩ <;>
        rcases posts member' with ⟨old', below'⟩ | ⟨own', new'⟩
      · exact posted.apart old old'
      · exact absurd new' (Nat.ne_of_lt below)
      · exact absurd new (Nat.ne_of_lt below')
      · exact own.trans own'.symm
    · intro actor target flushing
      by_cases same : actor = me
      · subst same
        rw [mine] at flushing
        cases flushing
      · rw [others same] at flushing ⊢
        exact posted.targets flushing

omit [DecidableEq Thread] in
/-- The events of the caller are committed where nothing races with its
flush. -/
theorem Posted.lt_committedPos (posted : Posted state)
    (counted : Counted size state) (positive : 0 < size)
    (sampling : (state.threads me).control = .sampling)
    {command : Command} (calm : ¬Races state (me, command)) :
    ∀ pos ∈ (state.threads me).posts, pos < state.memory.committedPos := by
  intro pos member
  apply PublishedPrefix.Sound.lt_committed counted positive
  · exact posted.below member
  · intro actor earlier claimed
    have held : state.unpublished actor = some earlier := claimed
    have notEarlier : ¬earlier < pos := fun before =>
      calm ⟨sampling, actor, .inr ⟨earlier, held, pos, member, before⟩⟩
    have different : pos ≠ earlier := by
      rintro rfl
      have same := posted.apart member (posted.own held)
      subst same
      unfold LogState.unpublished at held
      rw [sampling] at held
      cases held
    exact Nat.lt_of_le_of_ne (Nat.le_of_not_lt notEarlier) different
  · intro actor attends
    have advances : (state.threads actor).control.advances = true := by
      have attending : (state.threads actor).control.phase.Attends
        state.memory.committedPos := attends
      generalize (state.threads actor).control = control at attending ⊢
      cases control with
      | advancing | comparing | swapping => rfl
      | _ => exact attending.elim
    exact calm ⟨sampling, actor, .inl advances⟩

theorem step_posted {next : LogState Thread}
    {action : Actor Thread × Command} (positive : 0 < size)
    (posted : Posted state) (counted : Counted size state)
    (calm : ¬Races state action)
    (taken : step size state action = some next) : Posted next := by
  obtain ⟨me, command⟩ := action
  refine step_cases taken (fun event idle => posted.reserve idle event)
    (fun _ => posted.aside rfl nofun nofun) ?_ ?_ ?_
  · intro ring party _ executed
    generalize at' : (state.threads me).control = control at executed
    have kept : ∀ pos, control.unpublished = some pos →
        (state.threads me).control.unpublished = some pos := by
      rw [at']
      exact fun _ held => held
    cases control with
    | waiting =>
      cases executed
      split <;> exact posted.aside rfl kept nofun
    | filling | marking =>
      cases executed
      exact posted.aside rfl kept nofun
    | publishing | advancing | loading | processing | releasing | stepping =>
      cases executed
      exact posted.aside rfl nofun nofun
    | comparing | probing | swapping =>
      cases executed
      split <;> exact posted.aside rfl nofun nofun
    | sampling =>
      have committed := posted.lt_committedPos counted positive at' calm
      cases executed
      split
      · exact posted.aside rfl nofun nofun
      · refine posted.aside rfl nofun fun target flushing => ?_
        obtain rfl := Option.some.inj flushing
        exact committed
    | flushing target =>
      have waits := posted.targets (congrArg Control.target at')
      cases executed
      split
      · exact posted.aside rfl nofun nofun
      · refine posted.aside rfl nofun fun other flushing => ?_
        obtain rfl := Option.some.inj flushing
        exact waits
    | _ => cases executed
  · intro woken monitor after _ synced
    have beside := execSync_beside synced
    refine posted.aside rfl (fun pos held => ?_) fun target waits => ?_
    · exact beside.unpublished.symm.trans held
    · exact posted.targets (beside.targets target waits)
  · exact fun _ => posted.aside rfl (fun _ => id) fun _ => posted.targets

omit [DecidableEq Thread] in
theorem Ordered.consumerPos_le (ordered : Ordered size state) :
    state.memory.consumerPos ≤ state.memory.processed.length := by
  have holds := ordered.holds .consumer
  have drains := (ordered.seat .consumer).mpr rfl
  generalize (state.threads .consumer).control = control at holds drains
  cases control with
  | pausing | loading => rw [holds.1, holds.2]
  | probing drained pos => rw [holds.2.1, holds.2.2]
  | processing pos => rw [holds.2.1, holds.2.2.1]
  | releasing pos =>
    rw [holds.2.1, holds.2.2.1]
    exact Nat.le_succ _
  | stepping pos =>
    rw [holds.2.1, holds.2.2, holds.1]
    exact Nat.le_succ _
  | _ => cases drains

def Control.flushes : Control → Bool
  | .sampling | .flushing _ | .awaiting _ => true
  | _ => false

omit [DecidableEq Thread] in
theorem waitForTarget_idle {monitor monitor' : Monitor Thread}
    {target : Nat} (returned : waitForTarget state.memory me monitor target =
      (monitor', .idle)) : target ≤ state.memory.consumerPos := by
  unfold waitForTarget at returned
  split at returned
  · assumption
  · cases returned

theorem flush_returns {command : Command} {party' : Party}
    (positive : 0 < size) (posted : Posted state)
    (counted : Counted size state) (calm : ¬Races state (me, command))
    (flushes : (state.threads me).control.flushes = true)
    (executed : exec size state.memory (state.threads me) me command =
      some (ring', party')) (returned : party'.control = .idle) :
    ring'.reserved = state.memory.reserved ∧
    ring'.processed = state.memory.processed ∧
    ∀ pos ∈ party'.posts, pos < state.memory.consumerPos := by
  have behind : ∀ {target}, target ≤ state.memory.consumerPos →
      (state.threads me).control.target = some target →
      ∀ pos ∈ (state.threads me).posts, pos < state.memory.consumerPos :=
    fun reached waits pos member =>
      Nat.lt_of_lt_of_le (posted.targets waits pos member) reached
  unfold exec at executed
  cases command with
  | enqueue | flush =>
    dsimp only at executed
    split at executed
    case h_2 => cases executed
    case h_1 idle =>
      rw [idle] at flushes
      cases flushes
  | go =>
    dsimp only at executed
    generalize at' : (state.threads me).control = control
      at executed flushes behind
    cases control with
    | sampling =>
      have committed := posted.lt_committedPos counted positive at' calm
      cases executed
      refine ⟨rfl, rfl, fun pos member => ?_⟩
      have zero : state.memory.committedPos = 0 := by
        by_contra more
        rw [if_neg more] at returned
        cases returned
      have less := committed pos member
      rw [zero] at less
      exact absurd less (Nat.not_lt_zero _)
    | flushing target =>
      cases executed
      refine ⟨rfl, rfl, behind ?_ rfl⟩
      by_contra less
      rw [if_neg less] at returned
      cases returned
    | awaiting => cases executed
    | _ => cases flushes
  | sync woken =>
    obtain ⟨⟨monitor, after⟩, synced, same⟩ :=
      Option.map_eq_some_iff.mp executed
    cases same
    obtain rfl : after = .idle := returned
    refine ⟨rfl, rfl, ?_⟩
    generalize (state.threads me).control = control
      at synced flushes behind
    cases control with
    | sampling => cases synced
    | flushing target | awaiting target =>
      exact behind
        (waitForTarget_idle (Monitor.enter_eq_some.mp synced).2) rfl
    | _ => cases flushes
  | rouse =>
    obtain ⟨-, ⟨⟩⟩ := Option.ite_none_right_eq_some.mp executed
    rw [returned] at flushes
    cases flushes

/-- Where no producer takes or publishes a slot of a later lap too early and
nothing races with the beginning of a flush, all events of the caller are
processed when its flush returns. -/
theorem flush_is_barrier (positive : 0 < size)
    {actions : List (Actor Thread × Command)} {command : Command}
    {before after : LogState Thread}
    (ran : perform (step size) .start actions = some before)
    (flushes : (before.threads me).control.flushes = true)
    (taken : step size before (me, command) = some after)
    (returned : (after.threads me).control = .idle)
    (calm : Avoids (step size) (fun state action =>
      (Overtakes size state action ∨ Overwrites size state action) ∨
        Races state action) .start (actions ++ [(me, command)])) :
    ∀ pos ∈ (after.threads me).posts, ∃ event,
      after.memory.reserved[pos]? = some event ∧
      after.memory.processed[pos]? = some event := by
  obtain ⟨soFar, last⟩ := calm.of_append
  have notRacing := (not_or.mp (last before ran).1).2
  have ordered : Ordered size before := perform_avoiding
    (step_ordered positive) ran (soFar.mono (.inl ∘ .inl)) ordered_start
  have kept : ∀ {state : LogState Thread} {action next},
      Counted size state ∧ Posted state →
      ¬(Overwrites size state action ∨ Races state action) →
      step size state action = some next →
      Counted size next ∧ Posted next := by
    intro state action next both good taken
    obtain ⟨published, still⟩ := not_or.mp good
    exact ⟨step_counted positive both.1 published taken,
      step_posted positive both.2 both.1 still taken⟩
  have both := perform_avoiding kept ran
    (soFar.mono (Or.imp_left .inr)) ⟨counted_start, posted_start⟩
  obtain ⟨ring', party', executed, rfl⟩ := Threads.step_eq_some taken
  dsimp only at executed returned ⊢
  rw [Threads.become_self] at returned ⊢
  rw [Threads.become_memory]
  obtain ⟨reserved, processed, behind⟩ := flush_returns positive both.2
    both.1 notRacing flushes executed returned
  intro pos member
  have inside := Nat.lt_of_lt_of_le (behind pos member)
    ordered.consumerPos_le
  obtain ⟨rest, split⟩ := ordered.delivered
  rw [reserved, processed]
  refine ⟨_, ?_, List.getElem?_eq_getElem inside⟩
  rw [← split, List.getElem?_append_left inside]
  exact List.getElem?_eq_getElem inside

/-- One producer enqueues two events, the first of which wakes the consumer,
and waits in its flush until the consumer has processed them. -/
def flushBehind : List (Actor (Fin 1) × Command) :=
  let me : Actor (Fin 1) := .producer ⟨0, Nat.zero_lt_one⟩
  List.replicate 5 (.consumer, .sync 0) ++ enqueueCall me [7] ++
    enqueueCall me [8] ++ [(me, .flush), (me, .go), (me, .sync 0)] ++
      List.replicate 5 (.consumer, .sync 0) ++
        List.replicate 12 (.consumer, .go) ++
          List.replicate 2 (.consumer, .sync 0)

theorem flushBehind_run :
    (perform (step 4) .start flushBehind).isSome := by decide +kernel

theorem flushBehind_returns :
    (step 4 ((perform (step 4) .start flushBehind).get flushBehind_run)
      (.producer 0, .sync 0)).isSome := by decide +kernel

theorem flush_is_barrier_twoEvents :
    ∃ before after, perform (step 4) .start flushBehind = some before ∧
      step 4 before (.producer 0, .sync 0) = some after ∧
      (after.threads (.producer 0)).posts = [0, 1] ∧
      ∀ pos ∈ (after.threads (.producer 0)).posts, ∃ event,
        after.memory.reserved[pos]? = some event ∧
        after.memory.processed[pos]? = some event := by
  have got := (Option.some_get flushBehind_run).symm
  have went := (Option.some_get flushBehind_returns).symm
  exact ⟨_, _, got, went, by decide +kernel,
    flush_is_barrier (by decide) got (by decide +kernel) went
      (by decide +kernel) (by decide +kernel)⟩

/-- The first producer stays behind its reservation while the second enqueues
an event and flushes. -/
def flushAhead : List (Actor (Fin 2) × Command) :=
  (.producer 0, .enqueue [1]) :: (.producer 1, .enqueue [2]) ::
    List.replicate 6 (.producer 1, .go) ++
      [(.producer 1, .sync 0), (.producer 1, .flush), (.producer 1, .go)]

/-- The committed position is still 0, so the flush of the second producer
returns at once. -/
theorem flush_returns_before_processing :
    (perform (step ringSlots) .start flushAhead).map (fun state =>
      ((state.threads (.producer 1)).posts, state.memory.processed,
        (state.threads (.producer 1)).control matches .idle)) =
      some ([1], [], true) := by decide +kernel

end Libnei.Log

import Libnei.Sequence.RoundRobin
import Mathlib.Algebra.GroupWithZero.Nat
import Mathlib.Data.Fin.VecNotation

/-!
# The quotas of the priorities

With one queue at each level, a selection depends on the active levels and on
the packed counter alone, and the counter takes thirty values.  While a level
has work, the selections that others can have before it are counted down.
-/

namespace Libnei.Sequence

open Lib

variable {Queue : Type}

/-- The packed counter behind so many selections of each level. -/
def packed (blocking visible effort : Nat) : Nat :=
  blocking + 16 * visible + 256 * effort

/-- The counters within the quotas. -/
def counters : List Nat :=
  (List.range 5).flatMap fun blocking =>
    (List.range 3).flatMap fun visible =>
      (List.range 2).map fun effort => packed blocking visible effort

namespace TaskQueueSelector

/-- A selector reduced to what the quotas are about. -/
def schedule (active : Fin 3 → Bool) (scheduleCounter : Nat) :
    TaskQueueSelector Unit :=
  { active, scheduleCounter }

/-- The selections that other levels can still have before this one: those of
the levels in front of it and, where its quota is used up, all those of the
round that is left and of the next round. -/
def rank (selector : TaskQueueSelector Queue) (priority : Fin 3) : Nat :=
  let left (other : Fin 3) := quota other - selector.used other
  let front := priorities.filter (· < priority)
  if selector.used priority < quota priority then (front.map left).sum
  else
    ((priorities.filter (· ≠ priority)).map left).sum + (front.map quota).sum

theorem schedule_turn : ∀ counter ∈ counters, ∀ blocking visible effort,
    ∀ priority : Fin 3, ![blocking, visible, effort] priority = true →
    (match (schedule ![blocking, visible, effort]
        counter).maybeResetScheduleRound.visited with
      | none => false
      | some chosen =>
        let next := (schedule ![blocking, visible, effort]
          counter).maybeResetScheduleRound.take chosen 0
        next.scheduleCounter ∈ counters && (chosen = priority ||
          next.rank priority < (schedule ![blocking, visible, effort]
            counter).rank priority)) = true := by
  decide +kernel

theorem rank_le : ∀ counter ∈ counters, ∀ priority,
    (schedule (fun _ => true) counter).rank priority ≤ 12 := by
  decide +kernel

/-- The levels of a round in which all of them have work. -/
def round : List (Fin 3) :=
  priorities.flatMap fun priority => List.replicate (quota priority) priority

def roundCounter (count : Nat) : Nat :=
  packed (min count 4) (min (count - 4) 2) (count - 6)

theorem schedule_round : ∀ count : Fin 7,
    (schedule (fun _ => true) (roundCounter count)).visited = round[count.1]? ∧
      (∀ chosen ∈ round[count.1]?,
        ((schedule (fun _ => true) (roundCounter count)).take chosen
          0).scheduleCounter = roundCounter (count + 1)) ∧
      (count.1 + 1 < 7 → (schedule (fun _ => true)
        (roundCounter (count + 1))).maybeResetScheduleRound.scheduleCounter =
          roundCounter (count + 1)) := by
  decide +kernel

/-! ## The schedule of a selector -/

variable {selector : TaskQueueSelector Queue} {priority : Fin 3}

theorem scheduleCounter_reset :
    selector.maybeResetScheduleRound.scheduleCounter = (schedule selector.active
        selector.scheduleCounter).maybeResetScheduleRound.scheduleCounter := by
  unfold maybeResetScheduleRound
  by_cases exhausted : (priorities.all fun level =>
      !selector.active level || quota level ≤ selector.used level) = true
  · rw [if_pos exhausted, if_pos]
    exact exhausted
  · rw [if_neg exhausted, if_neg]
    · rfl
    · exact exhausted

/-- The level that is visited depends on the schedule only. -/
theorem visited_congr {other : TaskQueueSelector Unit}
    (active : selector.active = other.active)
    (counter : selector.scheduleCounter = other.scheduleCounter) :
    selector.visited = other.visited := by
  unfold visited isOpen used
  rw [active, counter]

theorem rank_congr {Other : Type} {other : TaskQueueSelector Other}
    (counter : selector.scheduleCounter = other.scheduleCounter) :
    selector.rank priority = other.rank priority := by
  unfold rank used
  rw [counter]

theorem turn (counted : selector.scheduleCounter ∈ counters)
    (work : selector.active priority = true) :
    ∃ chosen, selector.maybeResetScheduleRound.visited = some chosen ∧
      (selector.maybeResetScheduleRound.take chosen 0).scheduleCounter ∈
        counters ∧
      (chosen = priority ∨
        (selector.maybeResetScheduleRound.take chosen 0).rank priority <
          selector.rank priority) := by
  have levels : ![selector.active 0, selector.active 1, selector.active 2] =
      selector.active := by
    funext level
    match level with
    | 0 => rfl
    | 1 => rfl
    | 2 => rfl
  have visited : selector.maybeResetScheduleRound.visited =
      (schedule selector.active
        selector.scheduleCounter).maybeResetScheduleRound.visited := by
    apply visited_congr
    · rw [active_reset, active_reset]
      rfl
    · exact scheduleCounter_reset
  have turns := schedule_turn _ counted (selector.active 0)
    (selector.active 1) (selector.active 2) priority
  rw [levels, ← visited] at turns
  have turned := turns work
  cases chosen : selector.maybeResetScheduleRound.visited with
  | none =>
    rw [chosen] at turned
    cases turned
  | some level =>
    have same : (selector.maybeResetScheduleRound.take level
        0).scheduleCounter = ((schedule selector.active
          selector.scheduleCounter).maybeResetScheduleRound.take level
            0).scheduleCounter := by
      unfold take
      dsimp only
      rw [scheduleCounter_reset]
    rw [chosen] at turned
    refine ⟨level, rfl, ?_⟩
    have start : selector.rank priority = (schedule selector.active
        selector.scheduleCounter).rank priority :=
      rank_congr rfl
    rw [same, rank_congr same, start]
    simpa using turned

theorem counted_reset (counted : selector.scheduleCounter ∈ counters) :
    selector.maybeResetScheduleRound.scheduleCounter ∈ counters := by
  unfold maybeResetScheduleRound
  split
  case isTrue _ => exact (by decide : 0 ∈ counters)
  case isFalse _ => exact counted

/-- One queue at each level, and a counter within the quotas. -/
structure Single (selector : TaskQueueSelector Queue) : Prop where
  sound : selector.Sound
  alone : ∀ priority, (selector.levels priority).queues.length = 1
  counted : selector.scheduleCounter ∈ counters

section

variable (single : selector.Single)

include single

theorem Single.ready_iff :
    selector.ready priority 0 = true ↔ selector.active priority = true := by
  rw [single.sound.active, exists_ready_iff]
  constructor
  · exact fun set => ⟨0, set⟩
  · rintro ⟨index, set⟩
    have inside := single.sound.bits set
    rw [single.alone, Nat.lt_one_iff] at inside
    rwa [inside] at set

theorem Single.choose {chosen : Fin 3}
    (visited : selector.visited = some chosen) :
    selector.choose = some (chosen, 0) := by
  have isOpen := List.find?_some visited
  have active : selector.active chosen = true :=
    (Bool.and_eq_true_iff.mp isOpen).1
  have nonzero := (single.sound.active chosen).mp active
  obtain ⟨place, candidate, -, set, -⟩ :=
    candidate_spec single.sound isOpen (by
      rw [single.alone, Nat.mod_one]
      simpa using nonzero)
  have inside := single.sound.bits set
  rw [single.alone, Nat.lt_one_iff] at inside
  rw [choose_visited visited candidate, inside]

theorem Single.reset :
    selector.maybeResetScheduleRound.Single where
  sound := single.sound.reset
  alone := by
    rw [levels_reset]
    exact single.alone
  counted := counted_reset single.counted

end

theorem Single.setQueueHasWork [DecidableEq Queue]
    (single : selector.Single) (queue : Queue) (hasWork : Bool) :
    (selector.setQueueHasWork queue hasWork).Single ∧
      (selector.setQueueHasWork queue hasWork).scheduleCounter =
        selector.scheduleCounter := by
  have sound := single.sound.setQueueHasWork queue hasWork
  unfold TaskQueueSelector.setQueueHasWork at sound ⊢
  split at sound
  case h_1 _ => exact ⟨single, rfl⟩
  case h_2 changed place found =>
    have alone (level : PriorityLevel Queue)
        (queues : level.queues = (selector.levels changed).queues)
        (other : Fin 3) : (Function.update selector.levels changed level
          other).queues.length = 1 := by
      by_cases same : other = changed
      · rw [same, Function.update_self, queues]
        exact single.alone changed
      · rw [Function.update_of_ne same]
        exact single.alone other
    dsimp only at sound ⊢
    split_ifs at sound ⊢
    all_goals exact ⟨⟨sound, alone _ rfl, single.counted⟩, rfl⟩

end TaskQueueSelector

open TaskQueueSelector

namespace SelectorCall

def isSelection : SelectorCall Queue → Bool
  | .selectNextQueue => true
  | _ => false

def isAddition : SelectorCall Queue → Bool
  | .addQueue _ _ => true
  | _ => false

def selections (calls : List (SelectorCall Queue)) : Nat :=
  calls.countP isSelection

theorem selections_select (calls : List (SelectorCall Queue)) :
    selections (.selectNextQueue :: calls) = selections calls + 1 :=
  List.countP_cons_of_pos rfl

theorem selections_set (queue : Queue) (hasWork : Bool)
    (calls : List (SelectorCall Queue)) :
    selections (.setQueueHasWork queue hasWork :: calls) = selections calls :=
  List.countP_cons_of_neg Bool.false_ne_true

end SelectorCall

open SelectorCall

namespace SelectorHistory

variable {history after : SelectorHistory Queue} {priority : Fin 3}

theorem Single.select (single : history.selector.Single) {chosen : Fin 3}
    (visited : history.selector.maybeResetScheduleRound.visited = some chosen) :
    history.next = some (chosen, 0) ∧ history.selector.selectNextQueue.2 =
        history.selector.maybeResetScheduleRound.take chosen 0 ∧
      ((history.selector.maybeResetScheduleRound.take chosen
        0).scheduleCounter ∈ counters →
          (history.selector.maybeResetScheduleRound.take chosen 0).Single) := by
  have next : history.next = some (chosen, 0) := single.reset.choose visited
  refine ⟨next, ?_, ?_⟩
  · rw [selectNextQueue_eq, next]
  · intro counted
    have inside : 0 < (history.selector.maybeResetScheduleRound.levels
        chosen).queues.length := by
      rw [single.reset.alone]
      exact Nat.zero_lt_one
    refine ⟨single.reset.sound.take inside, ?_, counted⟩
    intro other
    rw [levels_take]
    by_cases same : other = chosen
    · rw [same, Function.update_self]
      exact single.reset.alone chosen
    · rw [Function.update_of_ne same]
      exact single.reset.alone other

variable [DecidableEq Queue] {call : SelectorCall Queue}
  {calls : List (SelectorCall Queue)}

theorem Single.step (single : history.selector.Single)
    (fixed : call.isAddition = false)
    (taken : history.step call = some after) : after.selector.Single := by
  cases call with
  | addQueue queue priority => cases fixed
  | setQueueHasWork queue hasWork =>
    cases taken
    exact (single.setQueueHasWork queue hasWork).1
  | selectNextQueue =>
    cases taken
    by_cases work : ∃ priority, history.selector.active priority = true
    · obtain ⟨priority, active⟩ := work
      obtain ⟨chosen, visited, counted, -⟩ := turn single.counted active
      obtain ⟨-, same, kept⟩ := Single.select single visited
      exact same ▸ kept counted
    · have idle : ∀ priority, history.selector.active priority = false :=
        fun priority => Bool.not_eq_true _ ▸ not_exists.mp work priority
      have same := selectNextQueue_eq history
      rw [next_of_idle idle] at same
      exact same ▸ single.reset

/-- The level has no work, or this is its turn. -/
abbrev Served (priority : Fin 3) (history : SelectorHistory Queue)
    (call : SelectorCall Queue) : Prop :=
  history.selector.ready priority 0 = false ∨
    call.isSelection = true ∧ history.next.map (·.1) = some priority

/-- A level that waits with work bounds the selections by its rank. -/
theorem selections_le_rank (single : history.selector.Single)
    (fixed : ∀ call ∈ calls, call.isAddition = false)
    (went : perform step history calls = some after)
    (waits : Avoids step (Served priority) history calls) :
    selections calls ≤ history.selector.rank priority := by
  induction calls generalizing history with
  | nil => exact Nat.zero_le _
  | cons call calls ih =>
    obtain ⟨next, taken, later⟩ := perform_cons went
    obtain ⟨waiting, more⟩ := waits
    have fixedHere := fixed call List.mem_cons_self
    have rest := ih (Single.step single fixedHere taken)
      (fun other member => fixed other (List.mem_cons_of_mem _ member))
      later (more next taken)
    cases call with
    | addQueue queue priority => cases fixedHere
    | setQueueHasWork queue hasWork =>
      cases taken
      have same := (single.setQueueHasWork queue hasWork).2
      rw [rank_congr same] at rest
      rw [selections_set]
      exact rest
    | selectNextQueue =>
      have ready : history.selector.ready priority 0 = true := by
        by_contra clear
        exact waiting (.inl (Bool.not_eq_true _ ▸ clear))
      obtain ⟨chosen, visited, -, turned⟩ :=
        turn single.counted (single.ready_iff.mp ready)
      obtain ⟨picked, same, -⟩ := Single.select single visited
      have less := turned.resolve_left fun own =>
        waiting (.inr ⟨rfl, by rw [picked, own]; rfl⟩)
      cases taken
      dsimp only at rest
      rw [same] at rest
      rw [selections_select]
      exact Nat.succ_le_of_lt (Nat.lt_of_le_of_lt rest less)

/-- Some level has no work. -/
abbrev Idles (history : SelectorHistory Queue) (_ : SelectorCall Queue) :
    Prop :=
  ∃ priority, history.selector.ready priority 0 = false

omit [DecidableEq Queue] in
theorem active_of_not_idles (single : history.selector.Single)
    (working : ¬Idles history call) :
    history.selector.active = fun _ => true := by
  funext level
  apply single.ready_iff.mp
  by_contra clear
  exact working ⟨level, Bool.not_eq_true _ ▸ clear⟩

theorem chosen_round {count : Nat} (single : history.selector.Single)
    (fixed : ∀ call ∈ calls, call.isAddition = false)
    (went : perform step history calls = some after)
    (ready : Avoids step Idles history calls)
    (counter : count < 7 → (schedule (fun _ => true)
      history.selector.scheduleCounter).maybeResetScheduleRound.scheduleCounter
        = roundCounter count)
    (seven : count + selections calls = 7) :
    after.chosen = history.chosen ++ (round.drop count).map (·, 0) := by
  induction calls generalizing history count with
  | nil =>
    cases went
    obtain rfl : count = 7 := seven
    exact (List.append_nil _).symm
  | cons call calls ih =>
    obtain ⟨next, taken, later⟩ := perform_cons went
    obtain ⟨working, more⟩ := ready
    have fixedHere := fixed call List.mem_cons_self
    have fixedLater : ∀ other ∈ calls, other.isAddition = false :=
      fun other member => fixed other (List.mem_cons_of_mem _ member)
    have singleNext := Single.step single fixedHere taken
    have readyLater := more next taken
    cases call with
    | addQueue queue priority => cases fixedHere
    | setQueueHasWork queue hasWork =>
      cases taken
      rw [selections_set] at seven
      have same := (single.setQueueHasWork queue hasWork).2
      have rest := ih singleNext fixedLater later
        readyLater (same ▸ counter) seven
      exact rest
    | selectNextQueue =>
      have active := active_of_not_idles single working
      rw [selections_select] at seven
      have less : count < 7 := by omega
      have start : history.selector.maybeResetScheduleRound.scheduleCounter
          = roundCounter count := by
        rw [scheduleCounter_reset, active]
        exact counter less
      obtain ⟨place, turns, resets⟩ := schedule_round ⟨count, less⟩
      have inside : round[count]? = some (round.get ⟨count, less⟩) :=
        List.getElem?_eq_getElem less
      have visited : history.selector.maybeResetScheduleRound.visited =
          some (round.get ⟨count, less⟩) := by
        rw [← inside, ← place]
        exact visited_congr (active_reset.trans active) start
      obtain ⟨picked, same, -⟩ := Single.select single visited
      have counterNext : history.selector.selectNextQueue.2.scheduleCounter
          = roundCounter (count + 1) := by
        rw [same, ← turns _ inside]
        unfold take
        dsimp only
        rw [start]
        rfl
      cases taken
      have resetNext : count + 1 < 7 → (schedule (fun _ => true)
          history.selector.selectNextQueue.2.scheduleCounter
          ).maybeResetScheduleRound.scheduleCounter =
            roundCounter (count + 1) := by
        rw [counterNext]
        exact resets
      have rest := ih singleNext fixedLater later
        readyLater resetNext (by omega)
      have unfolded : round.drop count =
          round.get ⟨count, less⟩ :: round.drop (count + 1) :=
        List.drop_eq_getElem_cons less
      rw [rest, unfolded, List.map_cons]
      dsimp only
      rw [picked, List.append_assoc]
      rfl

/-- One queue is added to each level. -/
def threeQueues (queues : Fin 3 → Queue) : List (SelectorCall Queue) :=
  [.addQueue (queues ⟨0, Nat.zero_lt_succ 2⟩) .userBlocking,
    .addQueue (queues ⟨1, Nat.one_lt_succ_succ 1⟩) .userVisible,
    .addQueue (queues ⟨2, Nat.lt_succ_self 2⟩) .bestEffort]

def oneEach (queues : Fin 3 → Queue) : SelectorHistory Queue :=
  { selector := { levels := fun level => { queues := [queues level] } } }

theorem perform_threeQueues (queues : Fin 3 → Queue)
    (calls : List (SelectorCall Queue)) :
    perform step {} (threeQueues queues ++ calls) =
      perform step (oneEach queues) calls := by
  have added : perform step {} (threeQueues queues) =
      some (oneEach queues) := by
    refine congrArg (fun levels => some
      ({ selector := { levels } } : SelectorHistory Queue)) ?_
    funext level
    match level with
    | 0 => rfl
    | 1 => rfl
    | 2 => rfl
  exact perform_append added calls

omit [DecidableEq Queue] in
theorem single_oneEach (queues : Fin 3 → Queue) :
    (oneEach queues).selector.Single where
  sound :=
    { few := fun _ => (by decide : 1 ≤ maxQueuesPerPriority)
      bits := fun {_ index} set => absurd
        ((getLsbD_of_eq_zero rfl index).symm.trans set) Bool.false_ne_true
      active := fun _ =>
        ⟨fun set => absurd set Bool.false_ne_true,
          fun nonzero => absurd rfl nonzero⟩
      inside := fun _ => .inl rfl }
  alone := fun _ => rfl
  counted := (by decide : 0 ∈ counters)

/-- With one queue at each level: a round in which all levels have work
serves them four times, twice and once, and a level that keeps its work is
served after at most twelve selections of the others. -/
theorem quotas_respected {queues : Fin 3 → Queue}
    {past calls : List (SelectorCall Queue)}
    (ran : perform step {} (threeQueues queues ++ past) = some history)
    (fixed : ∀ call ∈ past ++ calls, call.isAddition = false)
    (went : perform step history calls = some after) :
    (history.selector.maybeResetScheduleRound.scheduleCounter = 0 →
      Avoids step Idles history calls → selections calls = 7 →
        after.chosen = history.chosen ++
          [(0, 0), (0, 0), (0, 0), (0, 0), (1, 0), (1, 0), (2, 0)]) ∧
      ∀ priority, Avoids step (Served priority) history calls →
        selections calls ≤ 12 := by
  have fixedPast : ∀ call ∈ past, call.isAddition = false :=
    fun call member => fixed call (List.mem_append_left _ member)
  have fixedLater : ∀ call ∈ calls, call.isAddition = false :=
    fun call member => fixed call (List.mem_append_right _ member)
  have single : history.selector.Single := by
    rw [perform_threeQueues] at ran
    have calm : Avoids step (fun _ call => ¬call.isAddition = false)
        (oneEach queues) past :=
      avoids_of_forall (fun call member addition =>
        addition (fixedPast call member)) _
    exact perform_avoiding (fun single calm taken =>
      Single.step single (not_not.mp calm) taken) ran calm
        (single_oneEach queues)
  constructor
  · intro reset ready seven
    have active : history.selector.active = fun _ => true := by
      cases calls with
      | nil => cases seven
      | cons call calls => exact active_of_not_idles single ready.1
    rw [scheduleCounter_reset, active] at reset
    have start : (schedule (fun _ => true) history.selector.scheduleCounter
        ).maybeResetScheduleRound.scheduleCounter = roundCounter 0 := reset
    exact chosen_round single fixedLater went ready (fun _ => start)
      ((Nat.zero_add _).trans seven)
  · intro priority waits
    calc
      selections calls ≤ history.selector.rank priority :=
        selections_le_rank single fixedLater went waits
      _ ≤ 12 := rank_le _ single.counted priority

def allWork : List (SelectorCall Nat) :=
  [.setQueueHasWork 0 true, .setQueueHasWork 1 true, .setQueueHasWork 2 true]

/-- The last level has used its quota when the others get work. -/
def lateWork : List (SelectorCall Nat) :=
  [.setQueueHasWork 2 true, .selectNextQueue, .setQueueHasWork 0 true,
    .setQueueHasWork 1 true]

def selects (count : Nat) : List (SelectorCall Nat) :=
  List.replicate count .selectNextQueue

theorem quotas_respected_oneRound :
    (behind (threeQueues Fin.val ++ allWork ++ selects 7)).chosen =
        [(0, 0), (0, 0), (0, 0), (0, 0), (1, 0), (1, 0), (2, 0)] ∧
      Avoids step (Served 2) (behind (threeQueues Fin.val ++ lateWork))
        (selects 12) ∧
      selections (selects 12) ≤ 12 := by
  have ran : perform step {} (threeQueues Fin.val ++ allWork) =
    some (behind (threeQueues Fin.val ++ allWork)) := rfl
  have went : perform step (behind (threeQueues Fin.val ++ allWork))
      (selects 7) =
    some (behind (threeQueues Fin.val ++ allWork ++ selects 7)) := rfl
  have late : perform step {} (threeQueues Fin.val ++ lateWork) =
    some (behind (threeQueues Fin.val ++ lateWork)) := rfl
  have waited : perform step (behind (threeQueues Fin.val ++ lateWork))
      (selects 12) =
    some (behind (threeQueues Fin.val ++ lateWork ++ selects 12)) := rfl
  have waits : Avoids step (Served 2)
      (behind (threeQueues Fin.val ++ lateWork)) (selects 12) := by
    decide +kernel
  refine ⟨?_, waits, ?_⟩
  · exact (quotas_respected ran (by decide) went).1 (by decide +kernel)
      (by decide +kernel) (by decide)
  · exact (quotas_respected late (by decide) waited).2 2 waits

end SelectorHistory

end Libnei.Sequence

import Libnei.Sequence.RoundRobin

/-!
# The work bits of the selector

`RemoveQueue` (`task_queue_selector.cpp`) erases a queue from the middle of a
level but leaves the bits of the queues behind it at their old places.  The
bits follow the queues as long as those queues have no work then.
-/

namespace Libnei.Sequence

open Lib

variable {Queue : Type}

def PriorityLevel.erase (level : PriorityLevel Queue) (index : Nat) :
    PriorityLevel Queue :=
  let queues := level.queues.eraseIdx index
  { queues
    workMask := level.workMask &&& ~~~BitVec.twoPow 64 index
    roundRobinIndex :=
      if level.roundRobinIndex ≥ queues.length ∧ queues ≠ [] then 0
      else level.roundRobinIndex }

variable {changed : Fin 3} {place : Nat}

namespace TaskQueueSelector

theorem getLsbD_clear (mask : BitVec 64) (cleared tested : Nat) :
    (mask &&& ~~~BitVec.twoPow 64 cleared).getLsbD tested =
      (mask.getLsbD tested && decide (tested ≠ cleared)) := by
  rw [BitVec.getLsbD_and, BitVec.getLsbD_not, BitVec.getLsbD_twoPow]
  rcases Nat.lt_or_ge tested 64 with inside | beyond
  · by_cases same : tested = cleared
    · simp [← same, inside]
    · simp [inside, same, Ne.symm same]
  · rw [BitVec.getLsbD_of_ge mask tested beyond]
    rfl

theorem getLsbD_set (mask : BitVec 64) {set : Nat} (word : set < 64)
    (tested : Nat) :
    (mask ||| BitVec.twoPow 64 set).getLsbD tested =
      (mask.getLsbD tested || decide (tested = set)) := by
  rw [BitVec.getLsbD_or, BitVec.getLsbD_twoPow, decide_eq_true word]
  simp [eq_comm]

/-- Behind this place no queue of the level has work. -/
theorem clear_behind {selector : TaskQueueSelector Queue} {tested : Nat}
    (calm : (selector.levels changed).workMask >>> (place + 1) = 0)
    (behind : place < tested) : selector.ready changed tested = false := by
  have clear := getLsbD_of_eq_zero calm (tested - (place + 1))
  rwa [BitVec.getLsbD_ushiftRight, Nat.add_sub_cancel' behind] at clear

theorem round_erase {level : PriorityLevel Queue}
    (inside : place < level.queues.length)
    (round : level.roundRobinIndex = 0 ∨
      level.roundRobinIndex < level.queues.length) :
    (level.erase place).roundRobinIndex = 0 ∨
      (level.erase place).roundRobinIndex <
        (level.erase place).queues.length := by
  have size : (level.queues.eraseIdx place).length = level.queues.length - 1 :=
    List.length_eraseIdx_of_lt inside
  have empty : level.queues.eraseIdx place = [] ↔
      (level.queues.eraseIdx place).length = 0 :=
    List.length_eq_zero_iff.symm
  simp only [PriorityLevel.erase, ne_eq, empty]
  split_ifs <;> omega

variable [DecidableEq Queue]

def removeQueue (selector : TaskQueueSelector Queue) (queue : Queue) :
    TaskQueueSelector Queue :=
  match selector.position queue with
  | none => selector
  | some (priority, index) =>
      let level := (selector.levels priority).erase index
      let removed := selector.setLevel priority level
      if level.workMask = 0 then
        { removed with
          active := Function.update selector.active priority false }
      else removed

def At (selector : TaskQueueSelector Queue) (queue : Queue)
    (priority : Fin 3) (index : Nat) : Prop :=
  (selector.levels priority).queues[index]? = some queue

end TaskQueueSelector

variable [DecidableEq Queue]

/-- A selector; `working` tells of each queue whether the last
`SetQueueHasWork` call since it was added had `has_work`. -/
structure Tracked (Queue : Type) where
  selector : TaskQueueSelector Queue := {}
  working : Queue → Bool := fun _ => false

inductive RegistryCall (Queue : Type)
  | addQueue (queue : Queue) (priority : TaskPriority)
  | removeQueue (queue : Queue)
  | setQueueHasWork (queue : Queue) (hasWork : Bool)

namespace Tracked

def step (state : Tracked Queue) : RegistryCall Queue → Option (Tracked Queue)
  | .addQueue queue priority =>
      (state.selector.addQueue queue priority).map fun (_, selector) =>
        { selector, working := Function.update state.working queue false }
  | .removeQueue queue =>
      some { state with selector := state.selector.removeQueue queue }
  | .setQueueHasWork queue hasWork =>
      some
        { selector := state.selector.setQueueHasWork queue hasWork
          working := Function.update state.working queue hasWork }

/-- A queue is added a second time, or removed in front of one with work. -/
def Misplaces (state : Tracked Queue) : RegistryCall Queue → Prop
  | .addQueue queue _ => (state.selector.position queue).isSome = true
  | .removeQueue queue =>
      ∃ place ∈ state.selector.position queue,
        (state.selector.levels place.1).workMask >>> (place.2 + 1) ≠ 0
  | .setQueueHasWork _ _ => False

instance (state : Tracked Queue) (call : RegistryCall Queue) :
    Decidable (state.Misplaces call) := by
  cases call <;> unfold Tracked.Misplaces <;> infer_instance

end Tracked

namespace TaskQueueSelector

variable {selector : TaskQueueSelector Queue} {queue : Queue}
  {priority : Fin 3} {index : Nat}

theorem at_of_position
    (found : selector.position queue = some (priority, index)) :
    selector.At queue priority index := by
  obtain ⟨other, -, here⟩ := List.exists_of_findSome?_eq_some found
  obtain ⟨index', indexed, same⟩ := Option.map_eq_some_iff.mp here
  obtain ⟨rfl, rfl⟩ := Prod.mk.inj same
  obtain ⟨inside, isQueue, -⟩ := List.findIdx?_eq_some_iff_getElem.mp indexed
  rw [At, List.getElem?_eq_getElem inside, of_decide_eq_true isQueue]

theorem not_at_of_position (missing : selector.position queue = none) :
    ¬selector.At queue priority index := by
  intro here
  have nowhere := List.findSome?_eq_none_iff.mp missing priority
    (mem_priorities priority)
  rw [Option.map_eq_none_iff, List.findIdx?_eq_none_iff] at nowhere
  have other := nowhere queue (List.mem_of_getElem? here)
  exact of_decide_eq_false other rfl

variable {hasWork : Bool}

theorem at_setQueueHasWork {other : Queue} :
    (selector.setQueueHasWork queue hasWork).At other priority index ↔
      selector.At other priority index := by
  unfold setQueueHasWork
  split
  case h_1 _ => rfl
  case h_2 changed place found =>
    unfold At
    by_cases same : priority = changed
    · subst same
      dsimp only
      split_ifs <;> simp [setLevel]
    · dsimp only
      split_ifs <;> simp [setLevel, Function.update_of_ne same]

theorem ready_setQueueHasWork (sound : selector.Sound)
    (found : selector.position queue = some (changed, place)) :
    (selector.setQueueHasWork queue hasWork).ready priority index =
      if priority = changed ∧ index = place then hasWork
      else selector.ready priority index := by
  have word : place < 64 :=
    Nat.lt_of_lt_of_le (position_inside found)
      (Nat.le_succ_of_le (sound.few changed))
  unfold setQueueHasWork ready
  rw [found]
  by_cases same : priority = changed
  · subst same
    cases hasWork with
    | true =>
      by_cases here : index = place
      · simp [setLevel, getLsbD_set _ word, here]
      · simp [setLevel, getLsbD_set _ word, here]
    | false =>
      have bit := getLsbD_clear (selector.levels priority).workMask place
        index
      dsimp only
      split_ifs with _ here <;> simp_all [setLevel]
  · dsimp only
    split_ifs <;> simp_all [setLevel]

theorem levels_removeQueue
    (found : selector.position queue = some (changed, place)) :
    (selector.removeQueue queue).levels = Function.update selector.levels
      changed ((selector.levels changed).erase place) := by
  unfold removeQueue
  rw [found]
  dsimp only
  split_ifs <;> rfl

theorem Sound.removeQueue (sound : selector.Sound)
    (calm : ∀ place ∈ selector.position queue,
      (selector.levels place.1).workMask >>> (place.2 + 1) = 0) :
    (selector.removeQueue queue).Sound := by
  unfold TaskQueueSelector.removeQueue
  split
  case h_1 _ => exact sound
  case h_2 changed place found =>
    have inside := position_inside found
    have size : ((selector.levels changed).erase place).queues.length =
        (selector.levels changed).queues.length - 1 :=
      List.length_eraseIdx_of_lt inside
    have few := sound.few changed
    have fewer : ((selector.levels changed).erase place).queues.length ≤
        maxQueuesPerPriority := by
      omega
    have bits : ∀ index,
        ((selector.levels changed).erase place).workMask.getLsbD index = true →
        index < ((selector.levels changed).erase place).queues.length := by
      intro index set
      rw [PriorityLevel.erase, getLsbD_clear, Bool.and_eq_true,
        decide_eq_true_eq] at set
      have front : ¬place < index := by
        intro behind
        have clear := clear_behind (calm _ found) behind
        rw [ready, set.1] at clear
        cases clear
      omega
    have round := round_erase inside (sound.inside changed)
    dsimp only
    split_ifs with zero
    · refine sound.setLevel rfl fewer bits ?_ ?_ round
      · simp [zero]
      · exact fun other different => Function.update_of_ne different ..
    · refine sound.setLevel rfl fewer bits ?_ (fun _ _ => rfl) round
      refine ⟨fun _ => zero, fun _ => ?_⟩
      obtain ⟨other, set⟩ := exists_ready_iff.mp zero
      rw [PriorityLevel.erase, getLsbD_clear, Bool.and_eq_true] at set
      exact (sound.active changed).mpr (exists_ready_iff.mpr ⟨other, set.1⟩)

end TaskQueueSelector

open TaskQueueSelector

namespace Tracked

/-- Each queue is at one place, and its bit there tells of its work. -/
structure Follows (state : Tracked Queue) : Prop where
  sound : state.selector.Sound
  unique : ∀ {queue priority index priority' index'},
    state.selector.At queue priority index →
    state.selector.At queue priority' index' →
      priority = priority' ∧ index = index'
  bits : ∀ {queue priority index}, state.selector.At queue priority index →
    state.selector.ready priority index = state.working queue

variable {state next : Tracked Queue}

variable {queue : Queue}

section

variable (follows : Follows state)

include follows

theorem Follows.addQueue {importance : TaskPriority} {bit : Nat}
    {selector : TaskQueueSelector Queue}
    (added : state.selector.addQueue queue importance = some (bit, selector))
    (fresh : state.selector.position queue = none) :
    Follows { selector := selector
              working := Function.update state.working queue false } := by
  have sound := follows.sound.addQueue added
  have missing {priority : Fin 3} {index : Nat} :
      ¬state.selector.At queue priority index :=
    not_at_of_position fresh
  obtain ⟨room, ⟨⟩⟩ := Option.ite_none_left_eq_some.mp added
  set level := priorityToIndex importance
  set count := (state.selector.levels level).queues.length
  -- A queue is where it was, or it is the new one behind the others.
  have places {other : Queue} {priority : Fin 3} {index : Nat}
      (here : (state.selector.setLevel level
        { state.selector.levels level with
          queues := (state.selector.levels level).queues ++
            [queue] }).At other priority index) :
      state.selector.At other priority index ∨
        other = queue ∧ priority = level ∧ index = count := by
    unfold At setLevel at here
    by_cases same : priority = level
    · subst same
      simp only [Function.update_self, List.getElem?_append] at here
      split at here
      · exact .inl here
      · have last : index - count = 0 ∧ queue = other := by
          simpa [List.getElem?_singleton] using here
        right
        refine ⟨last.2.symm, rfl, ?_⟩
        omega
    · simp only [Function.update_of_ne same] at here
      exact .inl here
  have old (priority : Fin 3) (index : Nat) : (state.selector.setLevel level
        { state.selector.levels level with
          queues := (state.selector.levels level).queues ++
            [queue] }).ready priority index =
        state.selector.ready priority index := by
    by_cases same : priority = level
    · simp [ready, setLevel, same]
    · simp [ready, setLevel, same]
  refine ⟨sound, ?_, ?_⟩
  · intro other priority index priority' index' here there
    rcases places here with before | ⟨rfl, rfl, rfl⟩
    · rcases places there with before' | ⟨rfl, rfl, rfl⟩
      · exact follows.unique before before'
      · exact absurd before missing
    · rcases places there with before' | ⟨-, rfl, rfl⟩
      · exact absurd before' missing
      · exact ⟨rfl, rfl⟩
  · intro other priority index here
    dsimp only
    rw [old]
    rcases places here with before | ⟨rfl, rfl, rfl⟩
    · have different : other ≠ queue := by
        rintro rfl
        exact missing before
      rw [Function.update_of_ne different]
      exact follows.bits before
    · rw [Function.update_self]
      by_contra set
      exact Nat.lt_irrefl _
        (follows.sound.bits (Bool.not_eq_false _ ▸ set))

theorem Follows.setQueueHasWork (queue : Queue) (hasWork : Bool) : Follows
      { selector := state.selector.setQueueHasWork queue hasWork
        working := Function.update state.working queue hasWork } := by
  refine ⟨follows.sound.setQueueHasWork queue hasWork, ?_, ?_⟩
  · intro other priority index priority' index' here there
    exact follows.unique (at_setQueueHasWork.mp here)
      (at_setQueueHasWork.mp there)
  · intro other priority index here
    have before := at_setQueueHasWork.mp here
    dsimp only
    cases found : state.selector.position queue with
    | none =>
      have different : other ≠ queue := by
        rintro rfl
        exact not_at_of_position found before
      rw [Function.update_of_ne different, TaskQueueSelector.ready,
        TaskQueueSelector.setQueueHasWork, found]
      exact follows.bits before
    | some place =>
      have itself := at_of_position found
      rw [ready_setQueueHasWork follows.sound found]
      split_ifs with same
      · obtain ⟨rfl, rfl⟩ := same
        obtain rfl := Option.some.inj (before.symm.trans itself)
        rw [Function.update_self]
      · have different : other ≠ queue := by
          rintro rfl
          exact same (follows.unique before itself)
        rw [Function.update_of_ne different]
        exact follows.bits before

theorem Follows.removeQueue (calm : ¬state.Misplaces (.removeQueue queue)) :
    Follows
      { state with selector := state.selector.removeQueue queue } := by
  have quiet : ∀ place ∈ state.selector.position queue,
      (state.selector.levels place.1).workMask >>> (place.2 + 1) = 0 := by
    intro place found
    by_contra busy
    exact calm ⟨place, found, busy⟩
  have sound := follows.sound.removeQueue quiet
  cases found : state.selector.position queue with
  | none =>
    have same : state.selector.removeQueue queue = state.selector := by
      rw [TaskQueueSelector.removeQueue, found]
    rw [same]
    exact follows
  | some place =>
    obtain ⟨changed, place⟩ := place
    have levels := levels_removeQueue found
    -- The queues behind the erased one move up by one place.
    have places {other : Queue} {priority : Fin 3} {index : Nat}
        (here : (state.selector.removeQueue queue).At other priority index) :
        state.selector.At other priority
          (if priority = changed ∧ place ≤ index then index + 1
            else index) := by
      unfold At at here ⊢
      rw [levels] at here
      by_cases same : priority = changed
      · subst same
        rw [Function.update_self, PriorityLevel.erase,
          List.getElem?_eraseIdx] at here
        split at here
        case isTrue front =>
          rwa [if_neg (by omega)]
        case isFalse behind =>
          rwa [if_pos ⟨rfl, Nat.le_of_not_lt behind⟩]
      · rw [Function.update_of_ne same] at here
        rwa [if_neg (by simp [same])]
    have bit (priority : Fin 3) (index : Nat) :
        (state.selector.removeQueue queue).ready priority index =
          (state.selector.ready priority index &&
            decide (¬(priority = changed ∧ index = place))) := by
      unfold ready
      rw [levels]
      by_cases same : priority = changed
      · subst same
        rw [Function.update_self, PriorityLevel.erase, getLsbD_clear]
        simp
      · rw [Function.update_of_ne same]
        simp [same]
    refine ⟨sound, ?_, ?_⟩
    · intro other priority index priority' index' here there
      obtain ⟨rfl, same⟩ := follows.unique (places here) (places there)
      refine ⟨rfl, ?_⟩
      split_ifs at same <;> omega
    · intro other priority index here
      have before := follows.bits (places here)
      dsimp only
      rw [bit]
      split_ifs at before with moved
      · obtain ⟨rfl, behind⟩ := moved
        rw [← before, clear_behind (quiet _ found) (Nat.lt_succ_of_le behind)]
        rcases Nat.eq_or_lt_of_le behind with rfl | later
        · simp
        · rw [clear_behind (quiet _ found) later]
          rfl
      · have elsewhere : ¬(priority = changed ∧ index = place) := by
          rintro ⟨rfl, rfl⟩
          exact moved ⟨rfl, Nat.le_refl _⟩
        rw [before, decide_eq_true elsewhere, Bool.and_true]

theorem Follows.step {call : RegistryCall Queue} (calm : ¬state.Misplaces call)
    (taken : state.step call = some next) :
    Follows next := by
  cases call with
  | addQueue queue priority =>
    obtain ⟨⟨bit, selector⟩, added, rfl⟩ := Option.map_eq_some_iff.mp taken
    refine follows.addQueue added ?_
    exact Option.not_isSome_iff_eq_none.mp calm
  | removeQueue queue =>
    cases taken
    exact follows.removeQueue calm
  | setQueueHasWork queue hasWork =>
    cases taken
    exact follows.setQueueHasWork queue hasWork

end

omit [DecidableEq Queue] in
theorem follows_start : Follows ({} : Tracked Queue) where
  sound := sound_start
  unique := fun here => absurd here (by simp [At])
  bits := fun here => absurd here (by simp [At])

/-- Where no queue is added twice or removed in front of one with work, the
work bits follow the queues, and the active levels are those with work. -/
theorem work_bits_follow_queues {calls : List (RegistryCall Queue)}
    (ran : perform step {} calls = some state)
    (calm : Avoids step Misplaces {} calls) :
    (∀ priority index queue,
      (state.selector.levels priority).queues[index]? = some queue →
        (state.selector.ready priority index = true ↔
          state.working queue = true)) ∧
      ∀ priority, state.selector.active priority = true ↔
        (state.selector.levels priority).workMask ≠ 0 := by
  have follows : Follows state :=
    perform_avoiding (fun follows calm taken => follows.step calm taken) ran
      calm follows_start
  constructor
  · intro priority index queue here
    rw [follows.bits here]
  · exact follows.sound.active

/-- The last queue of a level is removed while the one in front of it and one
of another level have work. -/
def removeLast : List (RegistryCall Nat) :=
  [.addQueue 0 .userVisible, .addQueue 1 .userVisible,
    .addQueue 2 .userBlocking, .setQueueHasWork 0 true,
    .setQueueHasWork 2 true, .removeQueue 1]

theorem work_bits_follow_queues_removeLast :
    ∃ state, perform step {} removeLast = some state ∧
      (state.selector.levels 1).queues = [0] ∧
      state.selector.ready 1 0 = true ∧ state.selector.active 1 = true := by
  have ran : perform step {} removeLast =
    some ((perform step {} removeLast).getD {}) := rfl
  obtain ⟨bits, active⟩ := work_bits_follow_queues ran (by decide +kernel)
  refine ⟨_, ran, by decide +kernel, ?_, (active 1).mpr (by decide +kernel)⟩
  exact (bits 1 0 0 (by decide +kernel)).mpr (by decide +kernel)

/-- The first of two queues is removed, the second one has work. -/
def removeFirst : List (RegistryCall Nat) :=
  [.addQueue 0 .userVisible, .addQueue 1 .userVisible,
    .setQueueHasWork 1 true, .removeQueue 0]

/-- The bit of the second queue stays at the second place. -/
theorem work_bits_lost_on_removal :
    (perform step {} removeFirst).map (fun state =>
      ((state.selector.levels 1).queues, state.selector.ready 1 0,
        state.working 1)) = some ([1], false, true) := by
  decide +kernel

end Tracked

end Libnei.Sequence

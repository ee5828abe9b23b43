import Libnei.Lib.RoundRobin
import Libnei.Sequence.Selector

/-!
# The selections of the queue selector

Where no selection is made at a level whose queues with work all lie in front
of the round-robin index, the selector finds a queue with work and serves the
queues of a level in turn.
-/

namespace Libnei.Sequence

open Lib

variable {Queue : Type}

variable {level : PriorityLevel Queue}

namespace TaskQueueSelector

variable {selector : TaskQueueSelector Queue} {priority : Fin 3}

structure Sound (selector : TaskQueueSelector Queue) : Prop where
  few : ∀ priority,
    (selector.levels priority).queues.length ≤ maxQueuesPerPriority
  bits : ∀ {priority index}, selector.ready priority index = true →
    index < (selector.levels priority).queues.length
  active : ∀ priority, selector.active priority = true ↔
    (selector.levels priority).workMask ≠ 0
  inside : ∀ priority, (selector.levels priority).roundRobinIndex = 0 ∨
    (selector.levels priority).roundRobinIndex <
      (selector.levels priority).queues.length

variable {mask : BitVec 64} {place : Nat} {next : TaskQueueSelector Queue}
  {queue : Queue}

theorem getLsbD_of_eq_zero (zero : mask = 0) (index : Nat) :
    mask.getLsbD index = false := by
  rw [zero]
  exact BitVec.getLsbD_zero

theorem sound_start : Sound ({} : TaskQueueSelector Queue) where
  few := fun _ => Nat.zero_le _
  bits := fun set => absurd set (by
    rw [ready, getLsbD_of_eq_zero rfl]
    exact Bool.false_ne_true)
  active := fun _ => ⟨nofun, fun nonzero => absurd rfl nonzero⟩
  inside := fun _ => .inl rfl

theorem exists_ready_iff : mask ≠ 0 ↔ ∃ index, mask.getLsbD index = true := by
  constructor
  · exact fun nonzero => ⟨_, BitVec.getLsbD_true_ctz_of_ne_zero nonzero⟩
  · rintro ⟨index, set⟩ zero
    rw [getLsbD_of_eq_zero zero] at set
    cases set

theorem ctz_eq (set : mask.getLsbD place = true)
    (clear : ∀ index < place, mask.getLsbD index = false) :
    mask.ctz.toNat = place := by
  have nonzero := exists_ready_iff.mpr ⟨place, set⟩
  rcases Nat.lt_trichotomy mask.ctz.toNat place with less | same | more
  · have low := BitVec.getLsbD_true_ctz_of_ne_zero nonzero
    rw [clear _ less] at low
    cases low
  · exact same
  · rw [BitVec.getLsbD_false_of_lt_ctz more] at set
    cases set

/-- The rotation finds the first bit at or behind the start, if there is
one. -/
theorem ctz_rotated {start : Nat} (found : mask >>> start ≠ 0) :
    ∃ place, start ≤ place ∧ mask.getLsbD place = true ∧
      (∀ index, start ≤ index → index < place → mask.getLsbD index = false) ∧
      (mask >>> start ||| mask <<< (64 - start)).ctz.toNat = place - start := by
  generalize at' : (mask >>> start).ctz.toNat = offset
  have low := BitVec.getLsbD_true_ctz_of_ne_zero found
  rw [at', BitVec.getLsbD_ushiftRight] at low
  have inside : start + offset < 64 := BitVec.lt_of_getLsbD low
  have clear : ∀ index < offset, mask.getLsbD (start + index) = false := by
    intro index less
    rw [← BitVec.getLsbD_ushiftRight]
    exact BitVec.getLsbD_false_of_lt_ctz (at' ▸ less)
  refine ⟨start + offset, Nat.le_add_right .., low, ?_, ?_⟩
  · intro index above below
    have here := clear (index - start) (by omega)
    rw [Nat.add_sub_cancel' above] at here
    exact here
  · -- The bits in front of the start come out behind all the others.
    rw [Nat.add_sub_cancel_left]
    apply ctz_eq
    · rw [BitVec.getLsbD_or, BitVec.getLsbD_ushiftRight, low, Bool.true_or]
    · intro index less
      have short : index < 64 - start := by omega
      rw [BitVec.getLsbD_or, BitVec.getLsbD_ushiftRight, clear index less,
        Bool.false_or, BitVec.getLsbD_shiftLeft, decide_eq_true short]
      simp

/-! ## A selection -/

theorem mem_priorities (priority : Fin 3) : priority ∈ priorities := by
  revert priority
  decide

theorem quota_pos (priority : Fin 3) : 0 < quota priority := by
  revert priority
  decide

theorem levels_reset :
    selector.maybeResetScheduleRound.levels = selector.levels := by
  unfold maybeResetScheduleRound
  split <;> rfl

theorem active_reset :
    selector.maybeResetScheduleRound.active = selector.active := by
  unfold maybeResetScheduleRound
  split <;> rfl

theorem visited_reset (work : ∃ priority, selector.active priority = true) :
    ∃ priority, selector.maybeResetScheduleRound.visited = some priority := by
  apply Option.isSome_iff_exists.mp
  rw [visited, List.find?_isSome]
  unfold maybeResetScheduleRound
  split
  case isTrue _ =>
    obtain ⟨priority, active⟩ := work
    refine ⟨priority, mem_priorities priority, ?_⟩
    have none : ({ selector with scheduleCounter := 0 } :
        TaskQueueSelector Queue).used priority = 0 := by
      rw [used]
      exact (congrArg (· &&& 0xF) (Nat.zero_shiftRight _)).trans
        (Nat.zero_and _)
    rw [isOpen, none, decide_eq_true (quota_pos priority), Bool.and_true]
    exact active
  case isFalse exhausted =>
    rw [Bool.not_eq_true, List.all_eq_false] at exhausted
    obtain ⟨priority, member, fresh⟩ := exhausted
    refine ⟨priority, member, ?_⟩
    rw [Bool.not_eq_true, Bool.or_eq_false_iff, Bool.not_eq_false',
      decide_eq_false_iff_not, Nat.not_le] at fresh
    rw [isOpen, fresh.1, decide_eq_true fresh.2]
    rfl

/-- In an open level with work at or behind the index, the candidate is the
next queue with work. -/
theorem candidate_spec (sound : selector.Sound)
    (isOpen : selector.isOpen priority = true)
    (found : (selector.levels priority).workMask >>>
      ((selector.levels priority).roundRobinIndex %
        (selector.levels priority).queues.length) ≠ 0) :
    ∃ place, selector.candidate priority = some place ∧
      (selector.levels priority).roundRobinIndex ≤ place ∧
      selector.ready priority place = true ∧
      ∀ index, (selector.levels priority).roundRobinIndex ≤ index →
        index < place → selector.ready priority index = false := by
  obtain ⟨place, behind, set, clear, offset⟩ := ctz_rotated found
  have inside : place < (selector.levels priority).queues.length :=
    sound.bits set
  have start : (selector.levels priority).roundRobinIndex %
      (selector.levels priority).queues.length =
        (selector.levels priority).roundRobinIndex := by
    rcases sound.inside priority with zero | less
    · rw [zero, Nat.zero_mod]
    · exact Nat.mod_eq_of_lt less
  have nonzero := exists_ready_iff.mpr ⟨place, set⟩
  have nonempty : (selector.levels priority).queues ≠ [] := by
    intro empty
    rw [empty] at inside
    cases inside
  rw [start] at behind clear offset
  refine ⟨place, ?_, behind, set, clear⟩
  rw [candidate, isOpen, Bool.not_true, if_neg Bool.false_ne_true]
  dsimp only
  rw [if_neg (not_or.mpr ⟨nonzero, nonempty⟩), start, offset,
    if_neg (by omega), Nat.add_sub_cancel' behind, Nat.mod_eq_of_lt inside]

theorem candidate_closed (closed : selector.isOpen priority = false) :
    selector.candidate priority = none := by
  rw [candidate, closed]
  rfl

theorem choose_visited (visited : selector.visited = some priority)
    (found : selector.candidate priority = some place) :
    selector.choose = some (priority, place) := by
  obtain ⟨-, front, back, split, closed⟩ :=
    List.find?_eq_some_iff_append.mp visited
  have nothing : front.findSome? (fun priority =>
      (selector.candidate priority).map (priority, ·)) = none := by
    rw [List.findSome?_eq_none_iff]
    intro other member
    rw [candidate_closed (Bool.not_eq_true' _ ▸ closed other member)]
    rfl
  rw [choose, split, List.findSome?_append, nothing, Option.none_or,
    List.findSome?_cons, found]
  rfl

theorem choose_inside (chosen : selector.choose = some (priority, place)) :
    place < (selector.levels priority).queues.length := by
  obtain ⟨other, -, here⟩ := List.exists_of_findSome?_eq_some chosen
  obtain ⟨index, found, same⟩ := Option.map_eq_some_iff.mp here
  obtain ⟨rfl, rfl⟩ := Prod.mk.inj same
  obtain ⟨-, found⟩ := Option.ite_none_left_eq_some.mp found
  obtain ⟨idle, found⟩ := Option.ite_none_left_eq_some.mp found
  obtain ⟨-, ⟨⟩⟩ := Option.ite_none_left_eq_some.mp found
  exact Nat.mod_lt _
    (List.length_pos_of_ne_nil fun empty => idle (.inr empty))

/-- A turn at the next place with work. -/
structure Serves (selector : TaskQueueSelector Queue) (priority : Fin 3)
    (place : Nat) : Prop where
  behind : (selector.levels priority).roundRobinIndex ≤ place
  ready : selector.ready priority place = true
  first : ∀ index, (selector.levels priority).roundRobinIndex ≤ index →
    index < place → selector.ready priority index = false

theorem Serves.not_past {other : Nat} (serves : selector.Serves priority place)
    (ready : selector.ready priority other = true)
    (before : (selector.levels priority).roundRobinIndex ≤ other) :
    place ≤ other := by
  by_contra past
  have clear := serves.first other before (Nat.lt_of_not_le past)
  rw [ready] at clear
  cases clear

section

variable (sound : selector.Sound)

include sound

theorem Sound.reset :
    selector.maybeResetScheduleRound.Sound := by
  unfold maybeResetScheduleRound
  split
  case isTrue _ =>
    exact { sound with }
  case isFalse _ => exact sound

theorem Sound.setLevel
    (levels : next.levels = Function.update selector.levels priority level)
    (few : level.queues.length ≤ maxQueuesPerPriority)
    (bits : ∀ index, level.workMask.getLsbD index = true →
      index < level.queues.length)
    (active : next.active priority = true ↔ level.workMask ≠ 0)
    (others : ∀ other, other ≠ priority →
      next.active other = selector.active other)
    (inside : level.roundRobinIndex = 0 ∨
      level.roundRobinIndex < level.queues.length) : next.Sound := by
  have here : next.levels priority = level := by
    rw [levels, Function.update_self]
  have elsewhere : ∀ other, other ≠ priority →
      next.levels other = selector.levels other := by
    intro other different
    rw [levels, Function.update_of_ne different]
  constructor
  · intro other
    by_cases same : other = priority
    · rw [same, here]
      exact few
    · rw [elsewhere other same]
      exact sound.few other
  · intro other index set
    unfold ready at set
    by_cases same : other = priority
    · rw [same, here] at set ⊢
      exact bits index set
    · rw [elsewhere other same] at set ⊢
      exact sound.bits set
  · intro other
    by_cases same : other = priority
    · rw [same, here]
      exact active
    · rw [elsewhere other same, others other same]
      exact sound.active other
  · intro other
    by_cases same : other = priority
    · rw [same, here]
      exact inside
    · rw [elsewhere other same]
      exact sound.inside other

theorem Sound.addQueue {importance : TaskPriority} {bit : Nat}
    (added : selector.addQueue queue importance = some (bit, next)) :
    next.Sound := by
  obtain ⟨room, ⟨⟩⟩ := Option.ite_none_left_eq_some.mp added
  refine sound.setLevel rfl ?_ ?_ (sound.active _) (fun _ _ => rfl) ?_
  · rw [List.length_append]
    exact Nat.lt_of_not_le room
  · intro index set
    rw [List.length_append]
    exact Nat.lt_succ_of_lt (sound.bits set)
  · rw [List.length_append]
    exact (sound.inside _).imp_right Nat.lt_succ_of_lt

end

section SetQueueHasWork

variable [DecidableEq Queue]

theorem position_inside {index : Nat}
    (found : selector.position queue = some (priority, index)) :
    index < (selector.levels priority).queues.length := by
  obtain ⟨other, -, here⟩ := List.exists_of_findSome?_eq_some found
  obtain ⟨index', indexed, same⟩ := Option.map_eq_some_iff.mp here
  obtain ⟨rfl, rfl⟩ := Prod.mk.inj same
  exact (List.findIdx?_eq_some_iff_getElem.mp indexed).1

theorem Sound.setQueueHasWork (sound : selector.Sound) (queue : Queue)
    (hasWork : Bool) : (selector.setQueueHasWork queue hasWork).Sound := by
  unfold TaskQueueSelector.setQueueHasWork
  split
  case h_1 _ => exact sound
  case h_2 priority index found =>
    have inside := position_inside found
    have word : index < 64 :=
      Nat.lt_of_lt_of_le inside (Nat.le_succ_of_le (sound.few priority))
    dsimp only
    split
    case isTrue _ =>
      refine sound.setLevel rfl (sound.few priority) ?_ ?_ ?_
        (sound.inside priority)
      · intro other set
        rw [BitVec.getLsbD_or, Bool.or_eq_true] at set
        rcases set with old | new
        · exact sound.bits old
        · rw [BitVec.getLsbD_twoPow, Bool.and_eq_true,
            decide_eq_true_eq, decide_eq_true_eq] at new
          exact new.2 ▸ inside
      · refine ⟨fun _ => exists_ready_iff.mpr ⟨index, ?_⟩, fun _ =>
          Function.update_self ..⟩
        rw [BitVec.getLsbD_or, BitVec.getLsbD_twoPow,
          decide_eq_true word, decide_eq_true rfl]
        exact Bool.or_true _
      · exact fun other different => Function.update_of_ne different ..
    case isFalse _ =>
      have bits : ∀ other, ((selector.levels priority).workMask &&&
            ~~~BitVec.twoPow 64 index).getLsbD other = true →
          other < (selector.levels priority).queues.length := by
        intro other set
        rw [BitVec.getLsbD_and, Bool.and_eq_true] at set
        exact sound.bits set.1
      split
      case isTrue zero =>
        refine sound.setLevel rfl (sound.few priority) bits ?_ ?_
          (sound.inside priority)
        · have off : Function.update selector.active priority false
              priority = false := Function.update_self ..
          exact ⟨fun active =>
            absurd (off.symm.trans active) Bool.false_ne_true,
            fun nonzero => absurd zero nonzero⟩
        · exact fun other different =>
            Function.update_of_ne different ..
      case isFalse nonzero =>
        refine sound.setLevel rfl (sound.few priority) bits ?_
          (fun _ _ => rfl) (sound.inside priority)
        refine ⟨fun _ => nonzero, fun _ => ?_⟩
        obtain ⟨other, set⟩ := exists_ready_iff.mp nonzero
        rw [BitVec.getLsbD_and, Bool.and_eq_true] at set
        exact (sound.active priority).mpr
          (exists_ready_iff.mpr ⟨other, set.1⟩)

end SetQueueHasWork

theorem levels_take (place : Nat) : (selector.take priority place).levels =
      Function.update selector.levels priority
        { selector.levels priority with
          roundRobinIndex := (place + 1) %
            (selector.levels priority).queues.length } := rfl

theorem Sound.take (sound : selector.Sound)
    (inside : place < (selector.levels priority).queues.length) :
    (selector.take priority place).Sound := by
  refine sound.setLevel rfl (sound.few priority) (fun _ set => sound.bits set)
    (sound.active priority) (fun _ _ => rfl) (.inr ?_)
  exact Nat.mod_lt _ (Nat.zero_lt_of_lt inside)

end TaskQueueSelector

open TaskQueueSelector

namespace SelectorHistory

variable {history : SelectorHistory Queue}

theorem next_of_idle
    (idle : ∀ priority, history.selector.active priority = false) :
    history.next = none := by
  rw [next, choose, List.findSome?_eq_none_iff]
  intro priority _
  rw [candidate_closed]
  · rfl
  · rw [TaskQueueSelector.isOpen, active_reset, idle priority]
    rfl

theorem next_eq (sound : history.selector.Sound)
    (calm : ¬history.Wraps .selectNextQueue) :
    (history.next = none ∧
      ∀ priority index, history.selector.ready priority index = false) ∨
    ∃ priority place, history.next = some (priority, place) ∧
      history.selector.Serves priority place := by
  by_cases work : ∃ priority, history.selector.active priority = true
  · right
    obtain ⟨priority, visited⟩ := visited_reset work
    have isOpen := List.find?_some visited
    have found : (history.selector.levels priority).workMask >>>
        ((history.selector.levels priority).roundRobinIndex %
          (history.selector.levels priority).queues.length) ≠ 0 :=
      fun zero => calm ⟨priority, visited, zero⟩
    rw [← levels_reset] at found
    obtain ⟨place, candidate, behind, set, first⟩ :=
      candidate_spec sound.reset isOpen found
    refine ⟨priority, place, choose_visited visited candidate, ?_⟩
    unfold TaskQueueSelector.ready at set first
    rw [levels_reset] at behind set first
    exact ⟨behind, set, first⟩
  · left
    have idle : ∀ priority, history.selector.active priority = false :=
      fun priority => Bool.not_eq_true _ ▸ not_exists.mp work priority
    refine ⟨next_of_idle idle, ?_⟩
    · intro priority index
      by_contra set
      have active := (sound.active priority).mpr
        (exists_ready_iff.mpr ⟨index, Bool.not_eq_false _ ▸ set⟩)
      rw [idle priority] at active
      cases active

theorem selectNextQueue_eq (history : SelectorHistory Queue) :
    history.selector.selectNextQueue.2 = match history.next with
      | none => history.selector.maybeResetScheduleRound
      | some (priority, place) =>
        history.selector.maybeResetScheduleRound.take priority place := by
  unfold selectNextQueue next
  dsimp only
  cases history.selector.maybeResetScheduleRound.choose <;> rfl

/-- A selection gives a queue with work, or nothing where there is none. -/
theorem selectNextQueue_conserving (sound : history.selector.Sound)
    (calm : ¬history.Wraps .selectNextQueue) :
    (history.selector.selectNextQueue.1 = none ∧
      ∀ priority index, history.selector.ready priority index = false) ∨
    ∃ queue priority index, history.selector.selectNextQueue.1 = some queue ∧
      (history.selector.levels priority).queues[index]? = some queue ∧
      history.selector.ready priority index = true := by
  have result : history.selector.selectNextQueue.1 =
      history.next.bind fun (priority, place) =>
        (history.selector.levels priority).queues[place]? := by
    rw [← levels_reset]
    unfold selectNextQueue next
    dsimp only
    cases history.selector.maybeResetScheduleRound.choose <;> rfl
  rw [result]
  rcases next_eq sound calm with ⟨none, idle⟩ | ⟨priority, place, some, serves⟩
  · rw [none]
    exact .inl ⟨rfl, idle⟩
  · have here := List.getElem?_eq_getElem (sound.bits serves.ready)
    rw [some]
    exact .inr ⟨_, priority, place, here, here, serves.ready⟩

variable [DecidableEq Queue] {call : SelectorCall Queue}
  {after : SelectorHistory Queue}

theorem step_sound (sound : history.selector.Sound)
    (taken : history.step call = some after) : after.selector.Sound := by
  cases call with
  | addQueue queue priority =>
    obtain ⟨⟨bit, selector⟩, added, rfl⟩ := Option.map_eq_some_iff.mp taken
    exact sound.addQueue added
  | setQueueHasWork queue hasWork =>
    cases taken
    exact sound.setQueueHasWork queue hasWork
  | selectNextQueue =>
    cases taken
    show history.selector.selectNextQueue.2.Sound
    rw [selectNextQueue_eq]
    cases chosen : history.next with
    | none => exact sound.reset
    | some turn => exact sound.reset.take (choose_inside chosen)

/-- What a step does to a level: nothing to its index, or a turn. -/
inductive Turns (priority : Fin 3) (history after : SelectorHistory Queue) :
    Prop
  | keeps (more : List (Fin 3 × Nat))
      (index : (after.selector.levels priority).roundRobinIndex =
        (history.selector.levels priority).roundRobinIndex)
      (count : (history.selector.levels priority).queues.length ≤
        (after.selector.levels priority).queues.length)
      (chosen : after.chosen = history.chosen ++ more)
      (others : ∀ place, (priority, place) ∉ more)
  | serves (place : Nat) (serves : history.selector.Serves priority place)
      (index : (after.selector.levels priority).roundRobinIndex =
        (place + 1) % (history.selector.levels priority).queues.length)
      (count : (after.selector.levels priority).queues.length =
        (history.selector.levels priority).queues.length)
      (chosen : after.chosen = history.chosen ++ [(priority, place)])

omit [DecidableEq Queue] in
theorem Turns.of_level {priority : Fin 3} {changed : Fin 3}
    (levels : after.selector.levels =
      Function.update history.selector.levels changed level)
    (index : level.roundRobinIndex =
      (history.selector.levels changed).roundRobinIndex)
    (count : (history.selector.levels changed).queues.length ≤
      level.queues.length) (chosen : after.chosen = history.chosen) :
    Turns priority history after := by
  by_cases same : priority = changed
  · subst same
    have here : after.selector.levels priority = level := by
      rw [levels, Function.update_self]
    exact .keeps [] (by rw [here, index]) (by rw [here]; exact count)
      (by rw [chosen, List.append_nil]) nofun
  · have elsewhere : after.selector.levels priority =
        history.selector.levels priority := by
      rw [levels, Function.update_of_ne same]
    exact .keeps [] (by rw [elsewhere]) (by rw [elsewhere])
      (by rw [chosen, List.append_nil]) nofun

theorem step_turns (priority : Fin 3) (sound : history.selector.Sound)
    (calm : ¬history.Wraps call) (taken : history.step call = some after) :
    Turns priority history after := by
  cases call with
  | addQueue queue importance =>
    obtain ⟨⟨bit, selector⟩, added, rfl⟩ := Option.map_eq_some_iff.mp taken
    unfold TaskQueueSelector.addQueue at added
    dsimp only at added
    split at added
    · cases added
    · cases added
      refine .of_level rfl rfl ?_ rfl
      rw [List.length_append]
      exact Nat.le_succ _
  | setQueueHasWork queue hasWork =>
    cases taken
    unfold TaskQueueSelector.setQueueHasWork
    split
    · exact .keeps [] rfl (Nat.le_refl _) (List.append_nil _).symm nofun
    · dsimp only
      split
      · exact .of_level rfl rfl (Nat.le_refl _) rfl
      · split <;> exact .of_level rfl rfl (Nat.le_refl _) rfl
  | selectNextQueue =>
    cases taken
    rw [selectNextQueue_eq]
    rcases next_eq sound calm with ⟨none, -⟩ | ⟨chosen, place, some, serves⟩
    · rw [none]
      dsimp only
      exact .keeps [] (by rw [levels_reset]) (by rw [levels_reset]) rfl
        nofun
    · rw [some]
      dsimp only
      by_cases same : priority = chosen
      · subst same
        have here : (history.selector.maybeResetScheduleRound.take priority
            place).levels priority = { history.selector.levels priority with
              roundRobinIndex := (place + 1) %
                (history.selector.levels priority).queues.length } := by
          rw [levels_take, levels_reset, Function.update_self]
        exact .serves place serves (by rw [here]) (by rw [here]) rfl
      · have elsewhere : (history.selector.maybeResetScheduleRound.take
            chosen place).levels priority =
              history.selector.levels priority := by
          rw [levels_take, levels_reset, Function.update_of_ne same]
        refine .keeps [(chosen, place)] (by rw [elsewhere])
          (by rw [elsewhere]) rfl fun index member => ?_
        obtain ⟨rfl, -⟩ := Prod.mk.inj (List.mem_singleton.mp member)
        exact same rfl

/-! ## Between two turns of a queue -/

/-- Since `base`, neither `first` nor `second` had a turn, and the index has
not passed `second`. -/
def Waits (priority : Fin 3) (first second : Nat) (base : List (Fin 3 × Nat))
    (history : SelectorHistory Queue) : Prop :=
  first < (history.selector.levels priority).queues.length ∧
  second < (history.selector.levels priority).queues.length ∧
  ∃ more, history.chosen = base ++ more ∧
    ((priority, first) ∈ more ∨ (priority, second) ∈ more ∨
      RoundRobin.Between first second
        (history.selector.levels priority).roundRobinIndex)

variable {base : List (Fin 3 × Nat)}

theorem step_waits {priority : Fin 3} {first second : Nat}
    (different : first ≠ second)
    (waits : history.Waits priority first second base)
    (sound : history.selector.Sound)
    (ready : history.selector.ready priority second = true)
    (calm : ¬history.Wraps call) (taken : history.step call = some after) :
    after.Waits priority first second base := by
  obtain ⟨own, inside, more, chosen, state⟩ := waits
  cases step_turns priority sound calm taken with
  | keeps others index count longer notMine =>
    refine ⟨Nat.lt_of_lt_of_le own count, Nat.lt_of_lt_of_le inside count,
      more ++ others, by rw [longer, chosen, List.append_assoc], ?_⟩
    rw [index]
    exact state.imp (List.mem_append_left _)
      (Or.imp_left (List.mem_append_left _))
  | serves place serves index count longer =>
    refine ⟨count ▸ own, count ▸ inside, more ++ [(priority, place)],
      by rw [longer, chosen, List.append_assoc], ?_⟩
    rcases state with had | had | between
    · exact .inl (List.mem_append_left _ had)
    · exact .inr (.inl (List.mem_append_left _ had))
    · rcases RoundRobin.turn different own inside between serves.behind
        (sound.bits serves.ready) (serves.not_past ready)
        with ⟨rfl, -⟩ | ⟨-, -, still⟩
      · exact .inr (.inl (List.mem_append_right _ List.mem_cons_self))
      · rw [index]
        exact .inr (.inr still)

/-- Since `base`, `first` had no turn, and `second` had none and waits for
one, or had one and `first` waits. -/
def Alternates (priority : Fin 3) (first second : Nat)
    (base : List (Fin 3 × Nat)) (history : SelectorHistory Queue) : Prop :=
  first < (history.selector.levels priority).queues.length ∧
  second < (history.selector.levels priority).queues.length ∧
  ∃ more, history.chosen = base ++ more ∧ ((priority, first) ∈ more ∨
      more.count (priority, second) = 0 ∧ RoundRobin.Between first second
          (history.selector.levels priority).roundRobinIndex ∨
      more.count (priority, second) = 1 ∧ RoundRobin.Between second first
          (history.selector.levels priority).roundRobinIndex)

theorem step_alternates {priority : Fin 3} {first second : Nat}
    (different : first ≠ second)
    (alternates : history.Alternates priority first second base)
    (sound : history.selector.Sound)
    (ready : history.selector.ready priority first = true ∧
      history.selector.ready priority second = true)
    (calm : ¬history.Wraps call) (taken : history.step call = some after) :
    after.Alternates priority first second base := by
  obtain ⟨own, inside, more, chosen, state⟩ := alternates
  cases step_turns priority sound calm taken with
  | keeps others index count longer notMine =>
    have none : others.count (priority, second) = 0 :=
      List.count_eq_zero.mpr (notMine second)
    refine ⟨Nat.lt_of_lt_of_le own count, Nat.lt_of_lt_of_le inside count,
      more ++ others, by rw [longer, chosen, List.append_assoc], ?_⟩
    rw [index, List.count_append, none]
    exact state.imp_left (List.mem_append_left _)
  | serves place serves index count longer =>
    refine ⟨count ▸ own, count ▸ inside, more ++ [(priority, place)],
      by rw [longer, chosen, List.append_assoc], ?_⟩
    rw [index, List.count_append]
    rcases state with had | ⟨zero, between⟩ | ⟨one, between⟩
    · exact .inl (List.mem_append_left _ had)
    · right
      rcases RoundRobin.turn different own inside between serves.behind
        (sound.bits serves.ready) (serves.not_past ready.2)
        with ⟨rfl, next⟩ | ⟨-, other, still⟩
      · refine .inr ⟨?_, next⟩
        rw [zero, List.count_singleton_self]
      · refine .inl ⟨?_, still⟩
        rw [zero, List.count_eq_zero.mpr]
        intro member
        exact other (Prod.mk.inj (List.mem_singleton.mp member)).2.symm
    · rcases RoundRobin.turn (Ne.symm different) inside own between
        serves.behind (sound.bits serves.ready)
        (serves.not_past ready.1) with ⟨rfl, -⟩ | ⟨other, -, still⟩
      · exact .inl (List.mem_append_right _ List.mem_cons_self)
      · refine .inr (.inr ⟨?_, still⟩)
        rw [one, List.count_eq_zero.mpr]
        intro member
        exact other (Prod.mk.inj (List.mem_singleton.mp member)).2.symm

theorem turns_next {priority : Fin 3} {first : Nat}
    (sound : history.selector.Sound)
    (calm : ¬history.Wraps .selectNextQueue)
    (next : history.next = some (priority, first))
    (taken : history.step .selectNextQueue = some after) :
    (after.selector.levels priority).roundRobinIndex =
        (first + 1) % (after.selector.levels priority).queues.length ∧
      first < (after.selector.levels priority).queues.length := by
  have chosen : after.chosen = history.chosen ++ [(priority, first)] := by
    cases taken
    dsimp only
    rw [next]
    rfl
  cases step_turns priority sound calm taken with
  | keeps more index count longer others =>
    rw [chosen] at longer
    refine absurd ?_ (others first)
    rw [← List.append_cancel_left longer]
    exact List.mem_cons_self
  | serves place serves index count longer =>
    rw [chosen] at longer
    have same := List.append_cancel_left longer
    obtain rfl : first = place := by
      injection same with same
      injection same
    rw [index, count]
    exact ⟨rfl, sound.bits serves.ready⟩

section Rounds

variable {later : SelectorHistory Queue} {priority : Fin 3}
  {first second : Nat} {calls : List (SelectorCall Queue)}
  {more : List (Fin 3 × Nat)}

variable (different : first ≠ second)
  (ran : perform step history calls = some later)
  (calm : Avoids step Wraps history (calls ++ [.selectNextQueue]))
  (kept : Avoids step (fun history _ =>
    history.selector.ready priority second = false) history
    (calls ++ [.selectNextQueue]))
  (again : later.next = some (priority, first))

include different ran calm kept again

/-- The next turn is not for `first` while it waits for `second`. -/
theorem not_between (sound : later.selector.Sound) :
    ¬RoundRobin.Between first second
      (later.selector.levels priority).roundRobinIndex := by
  intro between
  have ready : later.selector.ready priority second = true :=
    Bool.not_eq_false _ ▸ (kept.of_append.2 later ran).1
  rcases next_eq sound (calm.of_append.2 later ran).1
    with ⟨none, -⟩ | ⟨served, place, some, serves⟩
  · rw [again] at none
    cases none
  · rw [again] at some
    cases some
    rcases RoundRobin.turn different (sound.bits serves.ready)
      (sound.bits ready) between serves.behind (sound.bits serves.ready)
      (serves.not_past ready) with ⟨same, -⟩ | ⟨other, -, -⟩
    · exact different same
    · exact other rfl

variable (sound : history.selector.Sound)
  (chosen : later.chosen = history.chosen ++ more)
  (none : (priority, first) ∉ more)

include sound chosen none

theorem served_once_more
    (start : history.Waits priority first second history.chosen) :
    (priority, second) ∈ more := by
  have holds : ∀ {state : SelectorHistory Queue} {call next},
      state.selector.Sound ∧ state.Waits priority first second history.chosen →
      ¬(state.Wraps call ∨ state.selector.ready priority second = false) →
      state.step call = some next → next.selector.Sound ∧
        next.Waits priority first second history.chosen := by
    intro state call next ⟨sound, waits⟩ good taken
    obtain ⟨calm, set⟩ := not_or.mp good
    exact ⟨step_sound sound taken, step_waits different waits sound
      (Bool.not_eq_false _ ▸ set) calm taken⟩
  obtain ⟨sound, -, -, others, split, state⟩ :=
    perform_avoiding holds ran (calm.of_append.1.either kept.of_append.1)
      ⟨sound, start⟩
  rw [chosen] at split
  obtain rfl := List.append_cancel_left split
  rcases state with had | had | between
  · exact absurd had none
  · exact had
  · exact absurd between (not_between different ran calm kept again sound)

theorem served_once
    (own : Avoids step (fun history _ =>
      history.selector.ready priority first = false) history
      (calls ++ [.selectNextQueue]))
    (start : history.Alternates priority first second history.chosen) :
    more.count (priority, second) = 1 := by
  have holds : ∀ {state : SelectorHistory Queue} {call next},
      state.selector.Sound ∧
        state.Alternates priority first second history.chosen →
      ¬(state.Wraps call ∨ state.selector.ready priority first = false ∨
        state.selector.ready priority second = false) →
      state.step call = some next → next.selector.Sound ∧
        next.Alternates priority first second history.chosen := by
    intro state call next ⟨sound, alternates⟩ good taken
    obtain ⟨calm, set⟩ := not_or.mp good
    obtain ⟨own, set⟩ := not_or.mp set
    exact ⟨step_sound sound taken, step_alternates different alternates
      sound ⟨Bool.not_eq_false _ ▸ own, Bool.not_eq_false _ ▸ set⟩ calm
      taken⟩
  obtain ⟨sound, -, -, others, split, state⟩ :=
    perform_avoiding holds ran (calm.of_append.1.either
      (own.of_append.1.either kept.of_append.1)) ⟨sound, start⟩
  rw [chosen] at split
  obtain rfl := List.append_cancel_left split
  rcases state with had | ⟨-, between⟩ | ⟨one, -⟩
  · exact absurd had none
  · exact absurd between (not_between different ran calm kept again sound)
  · exact one

end Rounds

/-- Whatever the history, a selection that does not wrap gives a queue with
work, or nothing where there is none; and if no selection wraps up to the next
turn of the queue that it gives, the other queues of the level that keep their
work have a turn before that, just one if the queue keeps its own work. -/
theorem selector_serves_in_turn {calls : List (SelectorCall Queue)}
    (ran : perform step {} calls = some history)
    (calm : ¬history.Wraps .selectNextQueue) :
    ((history.selector.selectNextQueue.1 = none ∧
      ∀ priority index, history.selector.ready priority index = false) ∨
    ∃ queue priority index,
      history.selector.selectNextQueue.1 = some queue ∧
      (history.selector.levels priority).queues[index]? = some queue ∧
      history.selector.ready priority index = true) ∧
    ∀ priority first after between later more,
      history.next = some (priority, first) →
      history.step .selectNextQueue = some after →
      perform step after between = some later →
      Avoids step Wraps after (between ++ [.selectNextQueue]) →
      later.next = some (priority, first) →
      later.chosen = after.chosen ++ more → (priority, first) ∉ more →
      ∀ second, first ≠ second →
        Avoids step (fun history _ =>
          history.selector.ready priority second = false) after
          (between ++ [.selectNextQueue]) →
        (priority, second) ∈ more ∧
        (Avoids step (fun history _ =>
          history.selector.ready priority first = false) after
          (between ++ [.selectNextQueue]) →
        more.count (priority, second) = 1) := by
  have sound := perform_invariant step_sound ran sound_start
  refine ⟨selectNextQueue_conserving sound calm, ?_⟩
  intro priority first after between later more next taken went quiet again
    chosen none second different kept
  obtain ⟨index, own⟩ := turns_next sound calm next taken
  have soundAfter := step_sound sound taken
  have ready : after.selector.ready priority second = true := by
    cases between with
    | nil => exact Bool.not_eq_false _ ▸ kept.1
    | cons call between => exact Bool.not_eq_false _ ▸ kept.1
  have inside := soundAfter.bits ready
  have start : RoundRobin.Between first second
      (after.selector.levels priority).roundRobinIndex := by
    rw [index]
    exact RoundRobin.between_next inside own
  constructor
  · exact served_once_more different went quiet kept again soundAfter chosen
      none ⟨own, inside, [], (List.append_nil _).symm, .inr (.inr start)⟩
  · intro stayed
    exact served_once different went quiet kept again soundAfter chosen none
      stayed
      ⟨own, inside, [], (List.append_nil _).symm, .inr (.inl ⟨rfl, start⟩)⟩

def twoQueues : List (SelectorCall Nat) :=
  [.addQueue 0 .userVisible, .addQueue 1 .userVisible, .setQueueHasWork 0 true]

def behind (calls : List (SelectorCall Nat)) : SelectorHistory Nat :=
  (perform step {} calls).getD {}

theorem selector_serves_in_turn_twoQueues :
    ∃ history after later : SelectorHistory Nat,
      perform step {} (twoQueues ++ [.setQueueHasWork 1 true]) =
        some history ∧
      history.next = some (1, 0) ∧
      history.step .selectNextQueue = some after ∧
      perform step after [.selectNextQueue] = some later ∧
      later.next = some (1, 0) ∧ later.chosen = after.chosen ++ [(1, 1)] ∧
      [((1 : Fin 3), 1)].count (1, 1) = 1 := by
  have ran : perform step {} (twoQueues ++ [.setQueueHasWork 1 true]) =
    some (behind (twoQueues ++ [.setQueueHasWork 1 true])) := rfl
  refine ⟨_, _, _, ran, by decide +kernel, rfl, rfl, by decide +kernel,
    by decide +kernel, ?_⟩
  exact ((selector_serves_in_turn ran (by decide +kernel)).2 1 0 _
    [.selectNextQueue] _ [(1, 1)] (by decide +kernel) rfl rfl
    (by decide +kernel) (by decide +kernel) (by decide +kernel) (by decide)
    1 (by decide) (by decide +kernel)).2 (by decide +kernel)

/-- With its bit cleared, the first queue lets the second have two turns.  The
first queue alone has one turn, and then none. -/
theorem turns_of_twoQueues :
    ((perform step {} (twoQueues ++ [.setQueueHasWork 1 true,
      .selectNextQueue, .setQueueHasWork 0 false, .selectNextQueue,
      .selectNextQueue, .setQueueHasWork 0 true, .selectNextQueue])).map
      (·.chosen) = some [(1, 0), (1, 1), (1, 1), (1, 0)]) ∧
    (perform step {} (twoQueues ++ [.selectNextQueue])).map
      (fun history => (history.selector.selectNextQueue.1,
        history.selector.ready 1 0)) = some (none, true) := by
  decide +kernel

end SelectorHistory

end Libnei.Sequence

import Libnei.Log.Config
import Mathlib.Data.List.Infix

/-!
# Configurations and the events of their slots

An event holds the handle of its configuration only.  Where no configuration
is added in a slot of which an event is still to be processed, the slot of an
event holds the configuration of the event or nothing.
-/

namespace Libnei.Log.Configs

open Lib

/-- The slot of the handle holds this configuration or nothing. -/
def Agrees (table : Table) (handle : Nat) (config : Config) : Prop :=
  ∀ slot, slotFromHandle handle = some slot →
    table.ptrs slot = some config ∨ table.ptrs slot = none

/-- What a step can do to the table; the slots in `awaited` get no new
configuration. -/
structure Follows (awaited : Nat → Prop) (table next : Table) : Prop where
  snapshot : table.snapshot ≤ next.snapshot
  ptrs : next.snapshot = table.snapshot → next.ptrs = table.ptrs
  slots : ∀ slot, awaited slot →
    next.ptrs slot = table.ptrs slot ∨ next.ptrs slot = none
  outcomes : table.outcomes <+: next.outcomes

theorem Follows.refl {awaited : Nat → Prop} {table next : Table}
    (snapshot : next.snapshot = table.snapshot)
    (ptrs : next.ptrs = table.ptrs)
    (outcomes : table.outcomes <+: next.outcomes) :
    Follows awaited table next where
  snapshot := Nat.le_of_eq snapshot.symm
  ptrs := fun _ => ptrs
  slots := fun _ _ => .inl (by rw [ptrs])
  outcomes := outcomes

/-- What a thread knows of the table. -/
structure Denoted (table : Table) (party : Party) : Prop where
  snapshot : party.tlsSnapshot ≤ table.snapshot
  cached : party.tlsSnapshot = table.snapshot → party.tlsPtrs = table.ptrs
  filtering : ∀ {call config}, party.control = .filtering call →
    party.configFast call.handle = some config → Agrees table call.handle config
  enqueueing : ∀ {event}, party.control = .enqueueing event →
    Agrees table event.handle event.config
  emitting : ∀ {position event config slot},
    party.control = .emitting position event config slot →
      table.outcomes[position]? = some (event, some config)

structure Sound {Thread : Type} (state : ConfigState Thread) : Prop where
  threads : ∀ actor, Denoted state.memory (state.threads actor)
  queued : ∀ event ∈ state.memory.queue,
    Agrees state.memory event.handle event.config
  own : ∀ event config, (event, some config) ∈ state.memory.outcomes →
    config = event.config
  delivered : ∀ delivery ∈ state.memory.delivered,
    state.memory.outcomes[delivery.position]? =
      some (delivery.event, some delivery.config) ∧
    delivery.sink ∈ delivery.config.sinks

theorem found_later {α : Type} {front list : List α} {index : Nat} {item : α}
    (longer : front <+: list) (found : front[index]? = some item) :
    list[index]? = some item := by
  obtain ⟨inside, rfl⟩ := List.getElem?_eq_some_iff.mp found
  exact List.prefix_iff_getElem?.mp longer index inside

variable {awaited : Nat → Prop} {table next : Table} {party : Party}

variable {handle slot position : Nat} {config : Config} {party' : Party}
  {event : Event}

theorem Agrees.follow (agrees : Agrees table handle config)
    (follows : Follows awaited table next)
    (kept : ∀ slot, slotFromHandle handle = some slot → awaited slot) :
    Agrees next handle config := by
  intro slot found
  rcases follows.slots slot (kept slot found) with same | none
  · rw [same]
    exact agrees slot found
  · exact .inr none

theorem Denoted.follow (denoted : Denoted table party)
    (follows : Follows awaited table next)
    (kept : ∀ slot, party.awaits slot = true → awaited slot) :
    Denoted next party where
  snapshot := Nat.le_trans denoted.snapshot follows.snapshot
  cached := fun same => by
    have before := denoted.snapshot
    have between := follows.snapshot
    rw [denoted.cached (by omega), follows.ptrs (by omega)]
  filtering := fun {call config} at' found => by
    refine (denoted.filtering at' found).follow follows fun slot isSlot => ?_
    rw [Party.configFast, isSlot] at found
    have cached : party.tlsPtrs slot = some config := found
    apply kept
    rw [Party.awaits, at']
    dsimp only
    rw [isSlot, cached]
    simp
  enqueueing := fun {event} at' => by
    refine (denoted.enqueueing at').follow follows fun slot isSlot => ?_
    apply kept
    rw [Party.awaits, at']
    dsimp only
    rw [isSlot]
    simp
  emitting := fun at' =>
    found_later follows.outcomes (denoted.emitting at')

/-- The controls in which a thread knows nothing of the table. -/
def Control.isPlain : Control → Bool
  | .filtering _ | .enqueueing _ | .emitting _ _ _ _ => false
  | _ => true

theorem Denoted.goto (denoted : Denoted table party) {control : Control}
    (plain : control.isPlain = true) :
    Denoted table (party.goto control) where
  snapshot := denoted.snapshot
  cached := denoted.cached
  filtering := fun {call _} at' => by
    cases (show control = .filtering call from at')
    cases plain
  enqueueing := fun {event} at' => by
    cases (show control = .enqueueing event from at')
    cases plain
  emitting := fun {position event config slot} at' => by
    cases (show control = .emitting position event config slot from at')
    cases plain

/-! ## The steps -/

variable {Thread : Type} [DecidableEq Thread] {state : ConfigState Thread}
  {me : Actor Thread}

section

variable (sound : Sound state)

include sound

theorem Sound.become (follows : Follows awaited state.memory next)
    (others : ∀ actor slot, (state.threads actor).awaits slot = true →
      awaited slot) (mine : Denoted next party')
    (queued : ∀ event ∈ next.queue, Agrees next event.handle event.config)
    (own : ∀ event config, (event, some config) ∈ next.outcomes →
      config = event.config)
    (delivered : ∀ delivery ∈ next.delivered,
      delivery ∈ state.memory.delivered ∨
      next.outcomes[delivery.position]? =
          some (delivery.event, some delivery.config) ∧
        delivery.sink ∈ delivery.config.sinks) :
    Sound (state.become me next party') where
  threads := Threads.forall_become (fun _ => Denoted next)
    (fun other => (sound.threads other).follow follows (others other)) mine
  queued := queued
  own := own
  delivered := fun delivery member => by
    rcases delivered delivery member with old | new
    · obtain ⟨found, registered⟩ := sound.delivered delivery old
      exact ⟨found_later follows.outcomes found, registered⟩
    · exact new

/-- A step that leaves the queue and what was processed. -/
theorem Sound.aside (follows : Follows awaited state.memory next)
    (others : ∀ actor slot, (state.threads actor).awaits slot = true →
      awaited slot)
    (events : ∀ event ∈ state.memory.queue, ∀ slot,
      slotFromHandle event.handle = some slot → awaited slot)
    (mine : Denoted next party') (queue : next.queue = state.memory.queue)
    (outcomes : next.outcomes = state.memory.outcomes)
    (delivered : next.delivered = state.memory.delivered) :
    Sound (state.become me next party') := by
  refine sound.become follows others mine ?_ ?_ ?_
  · intro event member
    rw [queue] at member
    exact (sound.queued event member).follow follows (events event member)
  · rw [outcomes]
    exact sound.own
  · rw [delivered]
    exact fun _ => .inl

/-- A step that leaves the whole table but for counters. -/
theorem Sound.local (mine : Denoted state.memory party' )
    (snapshot : next.snapshot = state.memory.snapshot)
    (ptrs : next.ptrs = state.memory.ptrs)
    (queue : next.queue = state.memory.queue)
    (outcomes : next.outcomes = state.memory.outcomes)
    (delivered : next.delivered = state.memory.delivered) :
    Sound (state.become me next party') := by
  have follows : Follows (fun _ => True) state.memory next :=
    .refl snapshot ptrs (by rw [outcomes])
  exact sound.aside follows (fun _ _ _ => trivial) (fun _ _ _ _ => trivial)
    (mine.follow follows fun _ _ => trivial) queue outcomes delivered

theorem Sound.add (settings : Settings)
    (fresh : ¬Reuses state (me, .add settings)) :
    Sound (state.become me (state.memory.addConfig settings).1
      { state.threads me with
        handle := (state.memory.addConfig settings).2 }) := by
  have mine := sound.threads me
  unfold Table.addConfig
  cases free : state.memory.freeSlot with
  | none =>
    exact sound.local { mine with } rfl rfl rfl rfl rfl
  | some slot =>
    dsimp only
    have follows : Follows (· ≠ slot) state.memory
        (state.memory.addConfig settings).1 := by
      rw [Table.addConfig, free]
      exact ⟨Nat.le_succ _, fun same => absurd same (Nat.succ_ne_self _),
        fun other different => .inl (Function.update_of_ne different ..),
        List.prefix_rfl⟩
    have others : ∀ actor other,
        (state.threads actor).awaits other = true → other ≠ slot := by
      rintro actor other awaits rfl
      exact fresh ⟨other, free, .inr ⟨actor, awaits⟩⟩
    have events : ∀ event ∈ state.memory.queue, ∀ other,
        slotFromHandle event.handle = some other → other ≠ slot := by
      rintro event member other found rfl
      exact fresh ⟨other, free, .inl ⟨event, member, found⟩⟩
    have kept := mine.follow follows (others me)
    rw [Table.addConfig, free] at follows kept
    exact sound.aside follows others events
      { kept with } rfl rfl rfl

end

variable {sinks : List Sink} {cleared : Table} {call : Call}
  {action : Actor Thread × Command} {after : ConfigState Thread}

theorem Sound.remove (sound : Sound state)
    (removed : state.memory.removeConfig handle = some (cleared, slot, sinks)) :
    Sound (state.become me cleared
      ((state.threads me).goto (.quiescing slot sinks))) := by
  unfold Table.removeConfig at removed
  split at removed
  · cases removed
  next slot' found =>
  split at removed
  case isFalse _ => cases removed
  case isTrue used =>
    dsimp only at removed
    have follows : Follows (fun _ => True) state.memory cleared := by
      cases removed
      split
      all_goals refine ⟨Nat.le_succ _,
        fun same => absurd same (Nat.succ_ne_self _), ?_, List.prefix_rfl⟩
      · exact fun _ _ => .inl rfl
      · intro other _
        by_cases same : other = slot
        · rw [same]
          exact .inr (Function.update_self ..)
        · exact .inl (Function.update_of_ne same ..)
    refine sound.aside follows (fun _ _ _ => trivial)
      (fun _ _ _ _ => trivial)
      (((sound.threads me).follow follows fun _ _ => trivial).goto rfl)
      ?_ ?_ ?_
    all_goals
      cases removed
      split <;> rfl

theorem Agrees.of_copy (copied : party.tlsPtrs = table.ptrs)
    (found : party.configFast handle = some config) :
    Agrees table handle config := by
  intro slot isSlot
  rw [Party.configFast, isSlot, copied] at found
  exact .inl found

theorem Denoted.filter (snapshot : party.tlsSnapshot ≤ table.snapshot)
    (copied : party.tlsPtrs = table.ptrs)
    (at' : party.control = .filtering call) : Denoted table party where
  snapshot := snapshot
  cached := fun _ => copied
  filtering := fun _ found => .of_copy copied found
  enqueueing := fun other => by
    rw [at'] at other
    cases other
  emitting := fun other => by
    rw [at'] at other
    cases other

section

variable (denoted : Denoted table party)

include denoted

theorem Denoted.enqueue (agrees : Agrees table event.handle event.config) :
    Denoted table (party.goto (.enqueueing event)) where
  snapshot := denoted.snapshot
  cached := denoted.cached
  filtering := nofun
  enqueueing := fun at' => by
    cases at'
    exact agrees
  emitting := nofun

theorem Denoted.emit
    (found : table.outcomes[position]? = some (event, some config)) :
    Denoted table (party.goto (.emitting position event config slot)) where
  snapshot := denoted.snapshot
  cached := denoted.cached
  filtering := nofun
  enqueueing := nofun
  emitting := fun at' => by
    cases at'
    exact found

theorem Denoted.filterCall (serialize : Call → Option Bytes)
    (at' : party.control = .filtering call) :
    Denoted table (party.goto (filterCall serialize party call)) := by
  unfold Configs.filterCall
  split
  · exact denoted.goto rfl
  next config found =>
  split
  · split
    · exact denoted.goto rfl
    · exact denoted.enqueue (denoted.filtering at' found)
  · exact denoted.goto rfl

end

theorem mem_emitMessage {settings : Settings} {level verbose : Int}
    {sink : Sink} (called : sink ∈ emitMessage settings level verbose) :
    sink ∈ settings.sinks := by
  unfold emitMessage at called
  split at called <;> split at called
  · exact (List.mem_filter.mp called).1
  · cases called
  · exact (List.mem_filter.mp called).1
  · cases called

theorem lookup_ptrs (found : table.lookup handle = some (config, slot)) :
    slotFromHandle handle = some slot ∧ table.ptrs slot = some config := by
  unfold Table.lookup at found
  split at found
  · cases found
  next slot' isSlot =>
  split at found
  · obtain ⟨config', held, same⟩ := Option.map_eq_some_iff.mp found
    cases same
    exact ⟨isSlot, held⟩
  · cases found

theorem acquire_eq (acquired : acquire table party = some (next, party')) :
    ∃ event queue, table.queue = event :: queue ∧ next.queue = queue ∧
      next.outcomes = table.outcomes ++
        [(event, (table.lookup event.handle).map (·.1))] ∧
      next.ptrs = table.ptrs ∧ next.snapshot = table.snapshot ∧
      next.delivered = table.delivered ∧
      (party' = party.goto .ready ∨ ∃ config slot,
        table.lookup event.handle = some (config, slot) ∧
        party' = party.goto
          (.emitting table.outcomes.length event config slot)) := by
  unfold acquire at acquired
  split at acquired
  · cases acquired
  next event queue waiting =>
  refine ⟨event, queue, waiting, ?_⟩
  split at acquired
  next missing =>
    cases acquired
    rw [missing]
    exact ⟨rfl, rfl, rfl, rfl, rfl, .inl rfl⟩
  next config slot found =>
    cases acquired
    rw [found]
    exact ⟨rfl, rfl, rfl, rfl, rfl, .inr ⟨config, slot, rfl, rfl⟩⟩

theorem Sound.acquire (sound : Sound state)
    (acquired : acquire state.memory (state.threads me) = some (next, party')) :
    Sound (state.become me next party') := by
  obtain ⟨event, queue, waiting, rest, outcomes, ptrs, snapshot, delivered,
    moved⟩ := acquire_eq acquired
  have follows : Follows (fun _ => True) state.memory next :=
    .refl snapshot ptrs (by rw [outcomes]; exact List.prefix_append ..)
  have here := sound.queued event (by rw [waiting]; exact List.mem_cons_self)
  have mine := (sound.threads me).follow follows fun _ _ => trivial
  refine sound.become follows (fun _ _ _ => trivial) ?_ ?_ ?_ ?_
  · rcases moved with rfl | ⟨config, slot, found, rfl⟩
    · exact mine.goto rfl
    · refine mine.emit ?_
      rw [outcomes, found, List.getElem?_concat_length]
      rfl
  · intro other member
    rw [rest] at member
    refine (sound.queued other ?_).follow follows fun _ _ => trivial
    rw [waiting]
    exact List.mem_cons_of_mem _ member
  · intro other config member
    rw [outcomes] at member
    rcases List.mem_append.mp member with old | new
    · exact sound.own other config old
    · obtain ⟨rfl, looked⟩ := Prod.mk.inj (List.mem_singleton.mp new)
      obtain ⟨⟨config', slot⟩, found, rfl⟩ :=
        Option.map_eq_some_iff.mp looked.symm
      obtain ⟨isSlot, held⟩ := lookup_ptrs found
      rcases here slot isSlot with same | none
      · exact Option.some.inj (held.symm.trans same)
      · rw [held] at none
        cases none
  · rw [delivered]
    exact fun _ => .inl

theorem Sound.deliver (sound : Sound state)
    (at' : (state.threads me).control = .emitting position event config slot)
    {deliveries : List Delivery}
    (called : ∀ delivery ∈ deliveries, delivery.position = position ∧
      delivery.event = event ∧ delivery.config = config ∧
      delivery.sink ∈ config.sinks) :
    Sound (state.become me
      { state.memory with
        delivered := state.memory.delivered ++ deliveries }
      ((state.threads me).goto (.releasing slot))) := by
  have mine := sound.threads me
  have found := mine.emitting at'
  refine sound.become
    (@Follows.refl (fun _ => True) _ _ rfl rfl List.prefix_rfl)
    (fun _ _ _ => trivial) ?_ ?_ sound.own ?_
  · exact ⟨mine.snapshot, mine.cached, nofun, nofun, nofun⟩
  · exact sound.queued
  · intro delivery member
    rcases List.mem_append.mp member with old | new
    · exact .inl old
    · obtain ⟨rfl, rfl, rfl, registered⟩ := called delivery new
      exact .inr ⟨found, registered⟩

theorem Sound.enqueue (sound : Sound state)
    (at' : (state.threads me).control = .enqueueing event) :
    Sound (state.become me
      { state.memory with queue := state.memory.queue ++ [event] }
      ((state.threads me).goto .idle)) := by
  have mine := sound.threads me
  refine sound.become
    (@Follows.refl (fun _ => True) _ _ rfl rfl List.prefix_rfl)
    (fun _ _ _ => trivial) ?_ ?_ sound.own fun _ => .inl
  · exact ⟨mine.snapshot, mine.cached, nofun, nofun, nofun⟩
  · intro other member
    rcases List.mem_append.mp member with old | new
    · exact sound.queued other old
    · rw [List.mem_singleton.mp new]
      exact mine.enqueueing at'

omit [DecidableEq Thread] in
theorem sound_start : Sound (ConfigState.start : ConfigState Thread) where
  threads := fun actor => by
    cases actor <;>
      exact ⟨Nat.zero_le _, nofun, nofun, nofun, nofun⟩
  queued := nofun
  own := nofun
  delivered := nofun

variable {serialize : Call → Option Bytes}
  {format : Config → Bytes → Option Bytes}

theorem step_sound (sound : Sound state) (fresh : ¬Reuses state action)
    (taken : step serialize format state action = some after) :
    Sound after := by
  obtain ⟨next, party', executed, rfl⟩ := Threads.step_eq_some taken
  obtain ⟨me, command⟩ := action
  dsimp only at executed ⊢
  have mine := sound.threads me
  unfold exec at executed
  cases command with
  | add settings =>
    dsimp only at executed
    split at executed
    · cases executed
      exact sound.add settings fresh
    · cases executed
  | remove handle =>
    dsimp only at executed
    split at executed
    · split at executed
      · cases executed
        exact sound.local mine rfl rfl rfl rfl rfl
      next cleared slot sinks removed =>
        cases executed
        exact sound.remove removed
    · cases executed
  | log call =>
    dsimp only at executed
    split at executed
    · cases executed
      exact sound.local (mine.goto rfl) rfl rfl rfl rfl rfl
    · cases executed
  | go =>
    dsimp only at executed
    generalize at' : (state.threads me).control = control at executed
    cases control with
    | idle => cases executed
    | snapping call =>
      cases executed
      by_cases same : (state.threads me).tlsSnapshot = state.memory.snapshot
      · rw [if_pos same]
        have behind : Denoted state.memory
            ((state.threads me).goto (.filtering call)) :=
          .filter mine.snapshot (mine.cached same) rfl
        exact sound.local behind rfl rfl rfl rfl rfl
      · rw [if_neg same]
        exact sound.local (mine.goto rfl) rfl rfl rfl rfl rfl
    | refreshing call =>
      cases executed
      exact sound.local (.filter (Nat.le_refl _) rfl rfl)
        rfl rfl rfl rfl rfl
    | filtering call =>
      cases executed
      exact sound.local (mine.filterCall serialize at')
        rfl rfl rfl rfl rfl
    | enqueueing event =>
      cases executed
      exact sound.enqueue at'
    | quiescing slot sinks =>
      unfold execGo at executed
      dsimp only at executed
      split at executed <;> cases executed <;>
        exact sound.local (mine.goto rfl) rfl rfl rfl rfl rfl
    | ready => exact sound.acquire executed
    | emitting position event config slot =>
      cases executed
      refine sound.deliver at' fun delivery member => ?_
      split at member
      · cases member
      · obtain ⟨sink, called, rfl⟩ := List.mem_map.mp member
        exact ⟨rfl, rfl, rfl, mem_emitMessage called⟩
    | releasing slot =>
      cases executed
      exact sound.local (mine.goto rfl) rfl rfl rfl rfl rfl

/-! ## Events whose configuration is gone -/

/-- The event at `position` is skipped, or will be: it waits and its slot is
empty. -/
def Skips (event : Event) (position : Nat) (state : ConfigState Thread) :
    Prop :=
  state.memory.outcomes[position]? = some (event, none) ∨
    state.memory.outcomes.length ≤ position ∧
      state.memory.queue[position - state.memory.outcomes.length]? =
        some event ∧
      ∀ slot, slotFromHandle event.handle = some slot →
        state.memory.ptrs slot = none

/-- The slots of the waiting events stay empty, and the queue grows or gives
its first event to the lookup. -/
def Advances (table next : Table) : Prop :=
  (∀ event ∈ table.queue, ∀ slot, slotFromHandle event.handle = some slot →
    table.ptrs slot = none → next.ptrs slot = none) ∧
  (next.outcomes = table.outcomes ∧ table.queue <+: next.queue ∨
    ∃ event, table.queue = event :: next.queue ∧
      next.outcomes = table.outcomes ++
        [(event, (table.lookup event.handle).map (·.1))])

theorem Advances.of_eq (ptrs : next.ptrs = table.ptrs)
    (queue : next.queue = table.queue)
    (outcomes : next.outcomes = table.outcomes) : Advances table next := by
  refine ⟨fun _ _ slot _ gone => ?_, .inl ⟨outcomes, ?_⟩⟩
  · rw [ptrs, gone]
  · rw [queue]

omit [DecidableEq Thread] in
theorem advances_add (settings : Settings)
    (fresh : ¬Reuses state (me, .add settings)) :
    Advances state.memory (state.memory.addConfig settings).1 := by
  unfold Table.addConfig
  cases free : state.memory.freeSlot with
  | none => exact .of_eq rfl rfl rfl
  | some slot =>
    refine ⟨fun event member other isSlot gone => ?_,
      .inl ⟨rfl, List.prefix_rfl⟩⟩
    have different : other ≠ slot := by
      rintro rfl
      exact fresh ⟨other, free, .inl ⟨event, member, isSlot⟩⟩
    exact (Function.update_of_ne different ..).trans gone

theorem advances_remove
    (removed : table.removeConfig handle = some (cleared, slot, sinks)) :
    Advances table cleared := by
  unfold Table.removeConfig at removed
  split at removed
  · cases removed
  split at removed
  case isFalse _ => cases removed
  case isTrue used =>
    dsimp only at removed
    cases removed
    split
    · exact .of_eq rfl rfl rfl
    · refine ⟨fun _ _ other _ gone => ?_, .inl ⟨rfl, List.prefix_rfl⟩⟩
      by_cases same : other = slot
      · rw [same]
        exact Function.update_self ..
      · exact (Function.update_of_ne same ..).trans gone

theorem step_advances (fresh : ¬Reuses state action)
    (taken : step serialize format state action = some after) :
    Advances state.memory after.memory := by
  obtain ⟨next, party', executed, rfl⟩ := Threads.step_eq_some taken
  obtain ⟨me, command⟩ := action
  dsimp only at executed ⊢
  rw [Threads.become_memory]
  unfold exec at executed
  cases command with
  | add settings =>
    dsimp only at executed
    split at executed
    · cases executed
      exact advances_add settings fresh
    · cases executed
  | remove handle =>
    dsimp only at executed
    split at executed
    · split at executed
      · cases executed
        exact .of_eq rfl rfl rfl
      next removed =>
        cases executed
        exact advances_remove removed
    · cases executed
  | log call =>
    dsimp only at executed
    split at executed
    · cases executed
      exact .of_eq rfl rfl rfl
    · cases executed
  | go =>
    dsimp only at executed
    generalize (state.threads me).control = control at executed
    cases control with
    | idle => cases executed
    | quiescing slot sinks =>
      unfold execGo at executed
      dsimp only at executed
      split at executed <;> cases executed <;> exact .of_eq rfl rfl rfl
    | enqueueing event =>
      cases executed
      exact ⟨fun _ _ _ _ gone => gone, .inl ⟨rfl, List.prefix_append ..⟩⟩
    | ready =>
      obtain ⟨event, queue, waiting, rfl, outcomes, ptrs, -⟩ :=
        acquire_eq executed
      refine ⟨fun _ _ slot _ gone => ?_, .inr ⟨event, waiting, outcomes⟩⟩
      rw [ptrs, gone]
    | _ =>
      cases executed
      exact .of_eq rfl rfl rfl

theorem lookup_of_gone (gone : ∀ slot, slotFromHandle handle = some slot →
      table.ptrs slot = none) : table.lookup handle = none := by
  unfold Table.lookup
  split
  · rfl
  next slot isSlot =>
  rw [gone slot isSlot]
  split <;> rfl

theorem step_skips (skips : Skips event position state)
    (fresh : ¬Reuses state action)
    (taken : step serialize format state action = some after) :
    Skips event position after := by
  obtain ⟨slots, moved⟩ := step_advances fresh taken
  rcases skips with done | ⟨later, waits, gone⟩
  · refine .inl ?_
    rcases moved with ⟨same, -⟩ | ⟨_, -, longer⟩
    · rw [same, done]
    · exact found_later (by rw [longer]; exact List.prefix_append ..) done
  · have still : ∀ slot, slotFromHandle event.handle = some slot →
        after.memory.ptrs slot = none := fun slot isSlot =>
      slots event (List.mem_of_getElem? waits) slot isSlot (gone slot isSlot)
    rcases moved with ⟨same, longer⟩ | ⟨first, queue, outcomes⟩
    · refine .inr ⟨?_, ?_, still⟩
      · rw [same]
        exact later
      · rw [same]
        exact found_later longer waits
    · rw [queue] at waits
      by_cases now : position = state.memory.outcomes.length
      · -- It is the turn of the event, and the lookup finds nothing.
        subst now
        rw [Nat.sub_self] at waits
        cases waits
        refine .inl ?_
        rw [outcomes, lookup_of_gone gone, List.getElem?_concat_length]
        rfl
      · refine .inr ⟨?_, ?_, still⟩
        · rw [outcomes, List.length_append]
          exact Nat.lt_of_le_of_ne later (Ne.symm now)
        · rw [outcomes, List.length_append, List.length_singleton]
          obtain ⟨rest, more⟩ : ∃ rest,
              position - state.memory.outcomes.length = rest + 1 :=
            ⟨position - state.memory.outcomes.length - 1, by omega⟩
          rw [more, List.getElem?_cons_succ] at waits
          rw [← waits]
          congr 1
          omega

/-- An event reaches sinks of the configuration that its handle denoted, and
an event whose configuration is gone while it is queued reaches none. -/
theorem configs_do_not_bleed {before after : List (Actor Thread × Command)}
    {middle final : ConfigState Thread}
    (ran : perform (step serialize format) .start before = some middle)
    (went : perform (step serialize format) middle after = some final)
    (fresh : Avoids (step serialize format) Reuses .start
      (before ++ after)) :
    (∀ delivery ∈ final.memory.delivered,
      delivery.config = delivery.event.config ∧
      delivery.sink ∈ delivery.event.config.sinks) ∧
    ∀ index event slot, middle.memory.queue[index]? = some event →
      slotFromHandle event.handle = some slot →
      middle.memory.ptrs slot ≠ some event.config →
      ∀ delivery ∈ final.memory.delivered,
        delivery.position ≠ middle.memory.outcomes.length + index := by
  obtain ⟨first, rest⟩ := fresh.of_append
  have sound : Sound middle :=
    perform_avoiding step_sound ran first sound_start
  have soundFinal : Sound final :=
    perform_avoiding step_sound went (rest middle ran) sound
  constructor
  · intro delivery member
    obtain ⟨found, registered⟩ := soundFinal.delivered delivery member
    have same := soundFinal.own _ _ (List.mem_of_getElem? found)
    exact ⟨same, same ▸ registered⟩
  · intro index event slot waits isSlot removed delivery member here
    have gone : ∀ other, slotFromHandle event.handle = some other →
        middle.memory.ptrs other = none := by
      intro other found
      obtain rfl := Option.some.inj (isSlot.symm.trans found)
      exact (sound.queued event (List.mem_of_getElem? waits) slot
        isSlot).resolve_left removed
    have skips : Skips event (middle.memory.outcomes.length + index)
        middle := by
      refine .inr ⟨Nat.le_add_right .., ?_, gone⟩
      rw [Nat.add_sub_cancel_left, waits]
    have atEnd : Skips event (middle.memory.outcomes.length + index) final :=
      perform_avoiding step_skips went (rest middle ran) skips
    obtain ⟨found, -⟩ := soundFinal.delivered delivery member
    rw [here] at found
    rcases atEnd with done | ⟨later, -⟩
    · rw [done] at found
      cases found
    · exact absurd (List.getElem?_eq_some_iff.mp found).1
        (Nat.not_lt_of_le later)

def oneSink (id : Nat) : Settings :=
  ⟨0xFFFFFFFF, -1, [some ⟨id, true, true, true⟩]⟩

def plainText : Call → Option Bytes
  | .llog _ _ text | .vlog _ _ text => some text

/-- One event is emitted, and one is queued when its configuration is
removed. -/
def removedLater : List (Actor (Fin 1) × Command) :=
  (.producer 0, .add (oneSink 1)) :: (.producer 0, .log (.llog 2 3 [7])) ::
    List.replicate 4 (.producer 0, .go) ++
    List.replicate 3 (.consumer, .go) ++
    (.producer 0, .log (.llog 2 3 [8])) ::
    List.replicate 3 (.producer 0, .go) ++ [(.producer 0, .remove 2)]

theorem configs_do_not_bleed_removedLater :
    ∃ middle final, perform (step plainText fun _ => some) .start
        removedLater = some middle ∧
      perform (step plainText fun _ => some) middle [(.consumer, .go)] =
        some final ∧
      (middle.memory.queue.length = 1 ∧ final.memory.queue = []) ∧
      final.memory.delivered.length = 1 ∧
      ∀ delivery ∈ final.memory.delivered, delivery.position ≠ 1 := by
  have ran : (perform (step plainText fun _ => some) .start
    removedLater).isSome := by decide +kernel
  have got := (Option.some_get ran).symm
  have taken : (perform (step plainText fun _ => some)
    ((perform (step plainText fun _ => some) .start removedLater).get ran)
    [(.consumer, .go)]).isSome := rfl
  have went := (Option.some_get taken).symm
  refine ⟨_, _, got, went, ⟨rfl, rfl⟩, rfl, ?_⟩
  exact (configs_do_not_bleed got went (by decide +kernel)).2 0
    ⟨2, 3, -1, [8], ⟨oneSink 1, 1⟩⟩ 1 rfl rfl nofun

/-- The slot of a queued event gets a new configuration. -/
def reusedSlot : List (Actor (Fin 1) × Command) :=
  (.producer 0, .add (oneSink 1)) :: (.producer 0, .log (.llog 2 3 [7])) ::
    List.replicate 4 (.producer 0, .go) ++
    [(.producer 0, .remove 2), (.producer 0, .go),
      (.producer 0, .add (oneSink 2)), (.consumer, .go), (.consumer, .go)]

theorem reusedSlot_bleeds :
    (perform (step plainText fun _ => some) .start reusedSlot).map
      (fun final => final.memory.delivered.map fun delivery =>
        (delivery.event.config.sinks.map (·.id), delivery.sink.id)) =
      some [([1], 2)] := by
  decide +kernel

end Libnei.Log.Configs

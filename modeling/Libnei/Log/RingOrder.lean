import Libnei.Lib.LapRing
import Libnei.Log.Ring
import Mathlib.Data.List.Infix

/-!
# The order of the events

As long as no producer takes a slot of a later lap too early, every slot
belongs to one position at a time.  So the consumer finds in a marked slot the
event of the position it has come to, and processes the events in the order
of the reserved positions.
-/

namespace Libnei.Log

open Lib

variable {Thread : Type} {size : Nat}

/-- The thread is the consumer in its loop. -/
def Control.drains : Control → Bool
  | .pausing _ | .loading _ | .probing _ _ | .processing _ | .releasing _
  | .stepping _ => true
  | _ => false

/-- What a thread relies on at its point. -/
def Control.Holds (size : Nat) (ring : Ring Thread) : Control → Prop
  | .waiting pos event | .blocked pos event => ring.reserved[pos]? = some event
  | .filling pos event =>
      pos < ring.released + size ∧ ring.reserved[pos]? = some event
  | .marking pos =>
      pos < ring.released + size ∧
        ring.reserved[pos]? = some (ring.slot size pos).data
  | .pausing _ | .loading _ =>
      ring.consumerPos = ring.released ∧ ring.processed.length = ring.released
  | .probing _ pos =>
      pos = ring.released ∧ ring.consumerPos = ring.released ∧
        ring.processed.length = ring.released
  | .processing pos =>
      pos = ring.released ∧ ring.consumerPos = ring.released ∧
        ring.processed.length = ring.released ∧
        (ring.slot size pos).state = true
  | .releasing pos =>
      pos = ring.released ∧ ring.consumerPos = ring.released ∧
        ring.processed.length = ring.released + 1 ∧
        (ring.slot size pos).state = true
  | .stepping pos =>
      ring.released = pos + 1 ∧ ring.consumerPos = pos ∧
        ring.processed.length = ring.released
  | _ => True

variable {control : Control} {actor : Actor Thread} {posts : List Nat}
  {pos : Nat}

/-- A step of the consumer is nothing to a producer that keeps its data. -/
theorem Control.Holds.producer {ring ring' : Ring Thread}
    (holds : control.Holds size ring) (producer : control.drains = false)
    (reserved : ring.reserved <+: ring'.reserved)
    (released : ring.released ≤ ring'.released)
    (data : ∀ pos, control = .marking pos →
      (ring'.slot size pos).data = (ring.slot size pos).data) :
    control.Holds size ring' := by
  have kept : ∀ {pos : Nat} {event}, ring.reserved[pos]? = some event →
      ring'.reserved[pos]? = some event := by
    intro pos event found
    obtain ⟨more, extended⟩ := reserved
    have inside := (List.getElem?_eq_some_iff.mp found).1
    rw [← extended, List.getElem?_append_left inside]
    exact found
  cases control with
  | waiting pos event | blocked pos event => exact kept holds
  | filling pos event =>
    exact ⟨Nat.lt_of_lt_of_le holds.1 (by omega), kept holds.2⟩
  | marking pos =>
    refine ⟨Nat.lt_of_lt_of_le holds.1 (by omega), ?_⟩
    rw [data pos rfl]
    exact kept holds.2
  | pausing | loading | probing | processing | releasing | stepping =>
    cases producer
  | _ => trivial

/-- A step of a producer is nothing to the consumer. -/
theorem Control.Holds.consumer {ring ring' : Ring Thread}
    (holds : control.Holds size ring) (consumer : control.drains = true)
    (consumerPos : ring'.consumerPos = ring.consumerPos)
    (released : ring'.released = ring.released)
    (processed : ring'.processed = ring.processed)
    (marked : ∀ pos, (ring.slot size pos).state = true →
      (ring'.slot size pos).state = true) :
    control.Holds size ring' := by
  cases control with
  | pausing | loading | probing | stepping =>
    simpa only [Control.Holds, consumerPos, released, processed] using holds
  | processing pos =>
    obtain ⟨here, read, length, state⟩ := holds
    simp only [Control.Holds, consumerPos, released, processed]
    exact ⟨here, read, length, marked pos state⟩
  | releasing pos =>
    obtain ⟨here, read, length, state⟩ := holds
    simp only [Control.Holds, consumerPos, released, processed]
    exact ⟨here, read, length, marked pos state⟩
  | _ => cases consumer

/-! ## Steps beside the ring -/

/-- What an operation on the monitor leaves to its thread. -/
structure Control.Beside (size : Nat) (ring ring' : Ring Thread)
    (before after : Control) : Prop where
  pending : after.pending = before.pending
  unpublished : after.unpublished = before.unpublished
  drains : after.drains = before.drains
  away : before.advances = false ∧ after.advances = false
  targets : ∀ target, after.target = some target → before.target = some target
  holds : before.Holds size ring → after.Holds size ring'

section

variable [DecidableEq Thread] {ring : Ring Thread} {me : Actor Thread}
  {woken : Nat} {before after : Control} {monitor : Monitor Thread}

theorem execPause_next {pause : Pause}
    (executed : execPause size ring me pause = some (monitor, after)) :
    (∃ next, after = .pausing next) ∨ after = .loading false := by
  cases pause with
  | locking | asleep | notifying =>
    cases (Monitor.enter_eq_some.mp executed).2
    exact .inl ⟨_, rfl⟩
  | unlocking =>
    cases executed
    exact .inr rfl
  | _ =>
    cases executed
    exact .inl ⟨_, rfl⟩

theorem execSync_beside
    (synced : execSync size ring me woken before = some (monitor, after)) :
    Control.Beside size ring { ring with monitor } before after := by
  cases before with
  | waiting pos event | blocked pos event =>
    have taken := (Monitor.enter_eq_some.mp synced).2
    unfold waitForSlot at taken
    split at taken <;> cases taken <;>
      exact ⟨rfl, rfl, rfl, ⟨rfl, rfl⟩, nofun, id⟩
  | hinting =>
    cases synced
    split <;> exact ⟨rfl, rfl, rfl, ⟨rfl, rfl⟩, nofun, id⟩
  | signalling =>
    cases (Monitor.enter_eq_some.mp synced).2
    exact ⟨rfl, rfl, rfl, ⟨rfl, rfl⟩, nofun, id⟩
  | flushing target | awaiting target =>
    have taken := (Monitor.enter_eq_some.mp synced).2
    unfold waitForTarget at taken
    split at taken <;> cases taken
    · exact ⟨rfl, rfl, rfl, ⟨rfl, rfl⟩, nofun, id⟩
    · exact ⟨rfl, rfl, rfl, ⟨rfl, rfl⟩, fun _ => id, id⟩
  | pausing pause =>
    rcases execPause_next synced with ⟨next, rfl⟩ | rfl <;>
      exact ⟨rfl, rfl, rfl, ⟨rfl, rfl⟩, nofun, id⟩
  | _ => cases synced

end

/-! ## The slots as laps -/

def Ring.laps {Actor : Type} (ring : Ring Thread) (claim : Actor → Option Nat) :
    LapRing.State Actor Bytes where
  items := ring.reserved
  released := ring.released
  flag index := (ring.slots index).state
  data index := (ring.slots index).data
  claim := claim

theorem laps_setSlot {Actor : Type} (ring : Ring Thread) (pos : Nat)
    (slot : Slot) (claim : Actor → Option Nat) :
    (ring.setSlot size pos slot).laps claim =
      { ring.laps claim with
        flag := Function.update (ring.laps claim).flag (pos % size) slot.state
        data := Function.update (ring.laps claim).data (pos % size)
          slot.data } := by
  unfold Ring.laps Ring.setSlot
  congr 1
  · exact Function.comp_update (fun slot : Slot => slot.state) ..
  · exact Function.comp_update (fun slot : Slot => slot.data) ..

theorem laps_publish {Actor : Type} (ring : Ring Thread) (pos seq : Nat)
    (claim : Actor → Option Nat) :
    (ring.setSlot size pos
      { ring.slot size pos with publishedSeq := seq }).laps claim =
        ring.laps claim := by
  rw [laps_setSlot]
  dsimp only
  rw [show (ring.slot size pos).state = (ring.laps claim).flag (pos % size)
      from rfl,
    show (ring.slot size pos).data = (ring.laps claim).data (pos % size)
      from rfl, Function.update_eq_self, Function.update_eq_self]

def LogState.pending (state : LogState Thread) (actor : Actor Thread) :
    Option Nat :=
  (state.threads actor).control.pending

structure Ordered (size : Nat) (state : LogState Thread) : Prop where
  count : state.memory.reserved.length = state.memory.writePos
  delivered : state.memory.processed <+: state.memory.reserved
  seat : ∀ actor, (state.threads actor).control.drains = true ↔
    actor = .consumer
  sound : LapRing.Sound size (state.memory.laps state.pending)
  holds : ∀ actor, (state.threads actor).control.Holds size state.memory

theorem ordered_start : Ordered size (LogState.start : LogState Thread) where
  count := rfl
  delivered := List.nil_prefix
  seat := fun actor => by cases actor <;> simp [LogState.start, Control.drains]
  sound :=
    { released_le := Nat.le_refl 0
      claims := ⟨fun {actor} => by cases actor <;> nofun,
        fun {first} => by cases first <;> nofun⟩
      full := nofun
      covered := nofun }
  holds := fun actor => by
    cases actor
    · exact ⟨rfl, rfl⟩
    · trivial

variable [DecidableEq Thread] {state : LogState Thread}
  {me : Actor Thread} {ring' : Ring Thread} {party' : Party}

theorem pending_become (state : LogState Thread) (me : Actor Thread)
    (ring' : Ring Thread) (party' : Party) :
    LogState.pending (state.become me ring' party') =
      Function.update state.pending me party'.control.pending :=
  Function.comp_update (fun party : Party => party.control.pending) ..

omit [DecidableEq Thread] in
theorem Ordered.drains_of_ne (ordered : Ordered size state)
    (other : actor ≠ .consumer) :
    (state.threads actor).control.drains = false :=
  eq_false_of_ne_true (mt (ordered.seat actor).mp other)

theorem Ordered.become (ordered : Ordered size state)
    (count : ring'.reserved.length = ring'.writePos)
    (delivered : ring'.processed <+: ring'.reserved)
    (drains : party'.control.drains = (state.threads me).control.drains)
    (sound : LapRing.Sound size (ring'.laps
      (Function.update state.pending me party'.control.pending)))
    (mine : party'.control.Holds size ring')
    (others : ∀ actor, actor ≠ me →
      (state.threads actor).control.Holds size ring') :
    Ordered size (state.become me ring' party') := by
  refine ⟨count, delivered, fun actor => ?_, ?_, fun actor => ?_⟩
  · by_cases own : actor = me
    · rw [own, Threads.become_self, drains]
      exact ordered.seat me
    · rw [Threads.become_of_ne state own]
      exact ordered.seat actor
  · rw [pending_become]
    exact sound
  · by_cases own : actor = me
    · rw [own, Threads.become_self]
      exact mine
    · rw [Threads.become_of_ne state own]
      exact others actor own

/-- A step that leaves slots, claims and lists alone. -/
theorem Ordered.aside (ordered : Ordered size state) {before : Control}
    (at' : (state.threads me).control = before)
    (pending : control.pending = before.pending)
    (drains : control.drains = before.drains)
    (mine : control.Holds size state.memory) :
    Ordered size (state.become me state.memory ⟨control, posts⟩) := by
  rw [← at'] at pending drains
  refine ordered.become ordered.count ordered.delivered drains ?_ mine
    fun actor _ => ordered.holds actor
  rw [pending, show (state.threads me).control.pending = state.pending me
    from rfl, Function.update_eq_self]
  exact ordered.sound

omit [DecidableEq Thread] in
/-- What the other threads rely on, where a producer has made a step. -/
theorem Ordered.others (ordered : Ordered size state)
    (reserved : state.memory.reserved <+: ring'.reserved)
    (consumerPos : ring'.consumerPos = state.memory.consumerPos)
    (released : ring'.released = state.memory.released)
    (processed : ring'.processed = state.memory.processed)
    (marked : ∀ pos, (state.memory.slot size pos).state = true →
      (ring'.slot size pos).state = true)
    (data : ∀ pos, (state.threads actor).control = .marking pos →
      (ring'.slot size pos).data = (state.memory.slot size pos).data) :
    (state.threads actor).control.Holds size ring' := by
  have holds := ordered.holds actor
  by_cases consumer : actor = .consumer
  · exact holds.consumer ((ordered.seat actor).mpr consumer) consumerPos
      released processed marked
  · exact holds.producer (ordered.drains_of_ne consumer) reserved
      (Nat.le_of_eq released.symm) data

/-! ## The steps of a producer -/

section

variable (ordered : Ordered size state)

include ordered

theorem Ordered.reserve (idle : (state.threads me).control = .idle)
    (event : Bytes) :
    Ordered size (state.become me
      (Log.reserve state.memory (state.threads me) event).1
      (Log.reserve state.memory (state.threads me) event).2) := by
  have free : state.pending me = none := congrArg Control.pending idle
  unfold Log.reserve
  split
  case isTrue refused => exact ordered.aside rfl rfl rfl (ordered.holds me)
  case isFalse accepted =>
    dsimp only
    refine ordered.become ?_ ?_ ?_ ?_ ?_ ?_
    · rw [List.length_append, ordered.count]
      rfl
    · exact ordered.delivered.trans (List.prefix_append _ _)
    · rw [idle]
      rfl
    · have reserved := ordered.sound.reserve free event
      rw [show (state.memory.laps state.pending).items.length =
        state.memory.writePos from ordered.count] at reserved
      exact reserved
    · show (state.memory.reserved ++ [event])[state.memory.writePos]? =
        some event
      rw [← ordered.count]
      exact List.getElem?_concat_length
    · intro actor _
      apply ordered.others
      case reserved => exact List.prefix_append _ _
      case marked => exact fun _ marked => marked
      case data => exact fun _ _ => rfl
      all_goals rfl

theorem Ordered.fill {event : Bytes}
    (filling : (state.threads me).control = .filling pos event)
    (posts : List Nat) :
    Ordered size (state.become me (state.memory.setSlot size pos
        { state.memory.slot size pos with data := event })
      ⟨.marking pos, posts⟩) := by
  have mine : state.pending me = some pos := congrArg Control.pending filling
  have holds := ordered.holds me
  rw [filling] at holds
  obtain ⟨lap, own⟩ := holds
  refine ordered.become ordered.count ordered.delivered ?_ ?_ ?_ ?_
  · rw [filling]
    rfl
  · have filled := ordered.sound.fill mine lap event
    rw [laps_setSlot, show (Control.marking pos).pending = state.pending me
      from mine.symm, Function.update_eq_self]
    dsimp only
    rw [show (state.memory.slot size pos).state =
        (state.memory.laps state.pending).flag (pos % size) from rfl,
      Function.update_eq_self]
    exact filled
  · refine ⟨lap, ?_⟩
    rw [Ring.slot_setSlot_self]
    exact own
  · intro actor other
    apply ordered.others
    case reserved => exact List.prefix_rfl
    case marked =>
      intro at' marked
      have kept := state.memory.view_setSlot size pos
        { state.memory.slot size pos with data := event }
        (fun slot => slot.state) rfl at'
      exact kept.trans marked
    case data =>
      intro at' marking
      have theirs : state.pending actor = some at' :=
        congrArg Control.pending marking
      have holds := ordered.holds actor
      rw [marking] at holds
      rw [Ring.slot_setSlot_of_ne]
      intro same
      have equal := LapRing.eq_of_mod_eq
        (ordered.sound.claims.range theirs).1 holds.1
        (ordered.sound.claims.range mine).1 lap same
      rw [equal] at theirs
      exact other (ordered.sound.claims.distinct theirs mine)
    all_goals rfl

theorem Ordered.mark (marking : (state.threads me).control = .marking pos)
    (posts : List Nat) :
    Ordered size (state.become me (state.memory.setSlot size pos
        { state.memory.slot size pos with state := true })
      ⟨.publishing pos, posts⟩) := by
  have mine : state.pending me = some pos := congrArg Control.pending marking
  have holds := ordered.holds me
  rw [marking] at holds
  obtain ⟨lap, filled⟩ := holds
  refine ordered.become ordered.count ordered.delivered ?_ ?_ trivial ?_
  · rw [marking]
    rfl
  · have marked := ordered.sound.mark mine lap filled
    rw [laps_setSlot]
    dsimp only
    rw [show (state.memory.slot size pos).data = (state.memory.laps
        (Function.update state.pending me
          (Control.publishing pos).pending)).data (pos % size) from rfl,
      Function.update_eq_self]
    exact marked
  · intro actor other
    apply ordered.others
    case reserved => exact List.prefix_rfl
    case marked =>
      exact fun at' marked =>
        state.memory.marked_setSlot size pos _ rfl marked
    case data =>
      exact fun at' _ => state.memory.view_setSlot size pos
        { state.memory.slot size pos with state := true }
        (fun slot => slot.data) rfl at'
    all_goals rfl

/-- The sequence numbers and the committed position play no part. -/
theorem Ordered.outside {before : Control}
    (at' : (state.threads me).control = before)
    (pending : control.pending = before.pending)
    (drains : control.drains = before.drains) (mine : control.Holds size ring')
    (laps : ring'.laps state.pending = state.memory.laps state.pending)
    (writePos : ring'.writePos = state.memory.writePos)
    (consumerPos : ring'.consumerPos = state.memory.consumerPos)
    (processed : ring'.processed = state.memory.processed) :
    Ordered size (state.become me ring' ⟨control, posts⟩) := by
  rw [← at'] at pending drains
  have reserved : ring'.reserved = state.memory.reserved :=
    congrArg LapRing.State.items laps
  have flag := congrArg LapRing.State.flag laps
  have data := congrArg LapRing.State.data laps
  refine ordered.become ?_ ?_ drains ?_ mine ?_
  · rw [reserved, writePos]
    exact ordered.count
  · rw [processed, reserved]
    exact ordered.delivered
  · rw [pending, show (state.threads me).control.pending = state.pending me
      from rfl, Function.update_eq_self, laps]
    exact ordered.sound
  · intro actor _
    apply ordered.others
    case reserved => rw [reserved]
    case consumerPos => exact consumerPos
    case released => exact congrArg LapRing.State.released laps
    case processed => exact processed
    case marked =>
      exact fun pos marked => (congrFun flag (pos % size)).trans marked
    case data => exact fun pos _ => congrFun data (pos % size)

end

/-! ## The steps of the consumer -/

section

variable (ordered : Ordered size state)

include ordered

theorem Ordered.process (positive : 0 < size)
    (processing : (state.threads me).control = .processing pos)
    (posts : List Nat) :
    Ordered size (state.become me
      { state.memory with
        processed := state.memory.processed ++
          [(state.memory.slot size pos).data] }
      ⟨.releasing pos, posts⟩) := by
  have consumer : me = .consumer := by
    rw [← ordered.seat me, processing]
    rfl
  have holds := ordered.holds me
  rw [processing] at holds
  obtain ⟨rfl, read, length, marked⟩ := holds
  have found := ordered.sound.item_next positive marked
  refine ordered.become ordered.count ?_ ?_ ?_ ?_ ?_
  · -- The event of this position is the next one.
    obtain ⟨rest, split⟩ := ordered.delivered
    have next : state.memory.reserved[state.memory.processed.length]? =
        some (state.memory.slot size state.memory.released).data := by
      rw [length]
      exact found
    rw [← split, List.getElem?_append_right (Nat.le_refl _), Nat.sub_self]
      at next
    cases rest with
    | nil => cases next
    | cons first others =>
      obtain rfl := Option.some.inj next
      refine ⟨others, ?_⟩
      rw [List.append_assoc]
      exact split
  · rw [processing]
    rfl
  · rw [show (Control.releasing state.memory.released).pending =
      state.pending me from (congrArg Control.pending processing).symm,
      Function.update_eq_self]
    exact ordered.sound
  · refine ⟨rfl, read, ?_, marked⟩
    rw [List.length_append, length]
    rfl
  · intro actor other
    rw [consumer] at other
    exact (ordered.holds actor).producer (ordered.drains_of_ne other)
      List.prefix_rfl (Nat.le_refl _) fun _ _ => rfl

theorem Ordered.release (positive : 0 < size)
    (releasing : (state.threads me).control = .releasing pos)
    (posts : List Nat) :
    Ordered size (state.become me
      { state.memory.setSlot size pos
          { state.memory.slot size pos with state := false } with
        released := state.memory.released + 1 }
      ⟨.stepping pos, posts⟩) := by
  have consumer : me = .consumer := by
    rw [← ordered.seat me, releasing]
    rfl
  have holds := ordered.holds me
  rw [releasing] at holds
  obtain ⟨rfl, read, length, marked⟩ := holds
  refine ordered.become ordered.count ordered.delivered ?_ ?_ ?_ ?_
  · rw [releasing]
    rfl
  · have released := ordered.sound.release positive marked
    rw [show (Control.stepping state.memory.released).pending =
      state.pending me from (congrArg Control.pending releasing).symm,
      Function.update_eq_self]
    show LapRing.Sound size
      { (state.memory.setSlot size state.memory.released
          { state.memory.slot size state.memory.released with
            state := false }).laps state.pending with
        released := state.memory.released + 1 }
    rw [laps_setSlot]
    dsimp only
    rw [show (state.memory.slot size state.memory.released).data =
      (state.memory.laps state.pending).data (state.memory.released % size)
        from rfl, Function.update_eq_self]
    exact released
  · exact ⟨rfl, read, length⟩
  · intro actor other
    rw [consumer] at other
    refine (ordered.holds actor).producer (ordered.drains_of_ne other)
      List.prefix_rfl (Nat.le_succ _) fun at' _ => ?_
    exact state.memory.view_setSlot size state.memory.released
      { state.memory.slot size state.memory.released with state := false }
      (fun slot => slot.data) rfl at'

theorem Ordered.stepOn (stepping : (state.threads me).control = .stepping pos)
    (posts : List Nat) :
    Ordered size (state.become me
      { state.memory with consumerPos := pos + 1 } ⟨.loading true, posts⟩) := by
  have consumer : me = .consumer := by
    rw [← ordered.seat me, stepping]
    rfl
  have holds := ordered.holds me
  rw [stepping] at holds
  obtain ⟨released, read, length⟩ := holds
  refine ordered.become ordered.count ordered.delivered ?_ ?_ ?_ ?_
  · rw [stepping]
    rfl
  · rw [show (Control.loading true).pending = state.pending me from
      (congrArg Control.pending stepping).symm, Function.update_eq_self]
    exact ordered.sound
  · exact ⟨released.symm, length⟩
  · intro actor other
    rw [consumer] at other
    exact (ordered.holds actor).producer (ordered.drains_of_ne other)
      List.prefix_rfl (Nat.le_refl _) fun _ _ => rfl

end

/-! ## Runs -/

theorem step_ordered {next : LogState Thread}
    {action : Actor Thread × Command} (positive : 0 < size)
    (ordered : Ordered size state) (good : ¬Overtakes size state action)
    (taken : step size state action = some next) : Ordered size next := by
  obtain ⟨me, command⟩ := action
  have holds := ordered.holds me
  unfold Overtakes at good
  dsimp only at good
  refine step_cases taken (fun event idle => ordered.reserve idle event)
    (fun idle => ordered.aside idle rfl rfl trivial) ?_ ?_ ?_
  · intro ring party going executed
    generalize at' : (state.threads me).control = control
      at executed holds good
    cases control with
    | waiting pos event =>
      cases executed
      by_cases marked : (state.memory.slot size pos).state = true
      · rw [if_pos marked]
        exact ordered.aside at' rfl rfl holds
      · rw [if_neg marked]
        have free := eq_false_of_ne_true marked
        have lap : pos < state.memory.released + size :=
          Nat.lt_of_not_le fun late => good ⟨going, pos, rfl, free, late⟩
        exact ordered.aside at' rfl rfl ⟨lap, holds⟩
    | filling pos event =>
      cases executed
      exact ordered.fill at' _
    | marking pos =>
      cases executed
      exact ordered.mark at' _
    | publishing pos =>
      cases executed
      exact ordered.outside at' rfl rfl trivial
        (laps_publish _ _ _ _) rfl rfl rfl
    | advancing =>
      cases executed
      exact ordered.aside at' rfl rfl trivial
    | comparing | sampling | flushing =>
      cases executed
      split <;> exact ordered.aside at' rfl rfl trivial
    | swapping committed =>
      cases executed
      split
      · exact ordered.outside at' rfl rfl trivial rfl rfl rfl rfl
      · exact ordered.aside at' rfl rfl trivial
    | loading drained =>
      cases executed
      exact ordered.aside at' rfl rfl ⟨holds.1, holds.1, holds.2⟩
    | probing drained pos =>
      cases executed
      obtain ⟨here, read, length⟩ := holds
      by_cases marked : (state.memory.slot size pos).state = true
      · rw [if_pos marked]
        exact ordered.aside at' rfl rfl ⟨here, read, length, marked⟩
      · rw [if_neg marked]
        exact ordered.aside at' rfl rfl ⟨read, length⟩
    | processing pos =>
      cases executed
      exact ordered.process positive at' _
    | releasing pos =>
      cases executed
      exact ordered.release positive at' _
    | stepping pos =>
      cases executed
      exact ordered.stepOn at' _
    | _ => cases executed
  · intro woken monitor after _ synced
    have beside := execSync_beside synced
    exact ordered.outside rfl beside.pending beside.drains
      (beside.holds holds) rfl rfl rfl rfl
  · exact fun _ => ordered.outside rfl rfl rfl holds rfl rfl rfl rfl

end Libnei.Log

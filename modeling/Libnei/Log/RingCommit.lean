import Libnei.Lib.PublishedPrefix
import Libnei.Log.RingOrder

/-!
# The committed position

As long as no producer stores its sequence number over one that is not
counted, the committed position counts the published prefix and has reached
the write position when all enqueue calls have returned.
-/

namespace Libnei.Log

open Lib

variable {Thread : Type} {size : Nat}

def Control.phase : Control → PublishedPrefix.Phase
  | .advancing => .advancing
  | .comparing committed => .comparing committed
  | .swapping committed => .swapping committed
  | _ => .away

theorem Control.phase_eq_away {control : Control}
    (away : control.advances = false) : control.phase = .away := by
  cases control with
  | advancing | comparing | swapping => cases away
  | _ => rfl

def LogState.unpublished (state : LogState Thread) (actor : Actor Thread) :
    Option Nat :=
  (state.threads actor).control.unpublished

def LogState.phase (state : LogState Thread) (actor : Actor Thread) :
    PublishedPrefix.Phase :=
  (state.threads actor).control.phase

def Ring.published {Actor : Type} (ring : Ring Thread)
    (claim : Actor → Option Nat) (phase : Actor → PublishedPrefix.Phase) :
    PublishedPrefix.State Actor where
  count := ring.writePos
  committed := ring.committedPos
  seq index := (ring.slots index).publishedSeq
  claim := claim
  phase := phase

def Counted (size : Nat) (state : LogState Thread) : Prop :=
  PublishedPrefix.Sound size
    (state.memory.published state.unpublished state.phase)

theorem counted_start : Counted size (LogState.start : LogState Thread) where
  committed_le := Nat.le_refl 0
  claims := ⟨fun {actor} => by cases actor <;> nofun,
    fun {first} => by cases first <;> nofun⟩
  published := fun _ _ => ⟨nofun, fun out => absurd out.1 (Nat.not_lt_zero _)⟩
  beyond := nofun
  behind := fun {actor} => by cases actor <;> nofun
  swaps := fun {actor} => by cases actor <;> nofun
  noticed := nofun

theorem seq_setSlot (ring : Ring Thread) (pos : Nat) {slot : Slot}
    (same : slot.publishedSeq = (ring.slot size pos).publishedSeq)
    (index : Nat) :
    ((ring.setSlot size pos slot).slots index).publishedSeq =
      (ring.slots index).publishedSeq := by
  unfold Ring.setSlot
  dsimp only
  by_cases here : index = pos % size
  · rw [here, Function.update_self]
    exact same
  · rw [Function.update_of_ne here]

variable [DecidableEq Thread] {state : LogState Thread}
  {me : Actor Thread} {ring' : Ring Thread} {party' : Party}

theorem counted_become (sound : PublishedPrefix.Sound size (ring'.published
      (Function.update state.unpublished me party'.control.unpublished)
      (Function.update state.phase me party'.control.phase))) :
    Counted size (state.become me ring' party') := by
  unfold Counted
  rw [show LogState.unpublished (state.become me ring' party') =
      Function.update state.unpublished me party'.control.unpublished from
        Function.comp_update (fun party : Party => party.control.unpublished)
          ..,
    show LogState.phase (state.become me ring' party') =
      Function.update state.phase me party'.control.phase from
        Function.comp_update (fun party : Party => party.control.phase) ..]
  exact sound

variable {before control : Control} {pos : Nat}

section

variable (counted : Counted size state)

include counted

/-- A step that is nothing to the published prefix. -/
theorem Counted.aside (at' : (state.threads me).control = before)
    (unpublished : party'.control.unpublished = before.unpublished)
    (phase : party'.control.phase = before.phase)
    (writePos : ring'.writePos = state.memory.writePos)
    (committedPos : ring'.committedPos = state.memory.committedPos)
    (seq : ∀ pos, (ring'.slots pos).publishedSeq =
      (state.memory.slots pos).publishedSeq) :
    Counted size (state.become me ring' party') := by
  apply counted_become
  rw [unpublished, phase, ← at',
    show (state.threads me).control.unpublished = state.unpublished me
      from rfl,
    show (state.threads me).control.phase = state.phase me from rfl,
    Function.update_eq_self, Function.update_eq_self, Ring.published,
    writePos, committedPos, funext seq]
  exact counted

/-- A step that only moves the thread itself in its loop. -/
theorem Counted.turn (at' : (state.threads me).control = before)
    (unpublished : party'.control.unpublished = before.unpublished)
    (behind : ∀ read, party'.control.phase.read = some read →
      read ≤ state.memory.committedPos)
    (swaps : party'.control.phase = .swapping state.memory.committedPos →
      (state.memory.slot size state.memory.committedPos).publishedSeq =
        state.memory.committedPos + 1)
    (attends : before.phase.Attends state.memory.committedPos →
      (state.memory.slot size state.memory.committedPos).publishedSeq =
        state.memory.committedPos + 1 →
      party'.control.phase.Attends state.memory.committedPos) :
    Counted size (state.become me state.memory party') := by
  apply counted_become
  rw [unpublished, ← at',
    show (state.threads me).control.unpublished = state.unpublished me
      from rfl, Function.update_eq_self]
  refine PublishedPrefix.Sound.turn counted behind swaps ?_
  rw [← at'] at attends
  exact attends

theorem Counted.reserve (idle : (state.threads me).control = .idle)
    (event : Bytes) :
    Counted size (state.become me
      (Log.reserve state.memory (state.threads me) event).1
      (Log.reserve state.memory (state.threads me) event).2) := by
  have free : state.unpublished me = none :=
    congrArg Control.unpublished idle
  have away : PublishedPrefix.Phase.away = state.phase me :=
    (congrArg Control.phase idle).symm
  unfold Log.reserve
  split
  case isTrue refused =>
    exact counted.aside rfl rfl rfl rfl rfl fun _ => rfl
  case isFalse accepted =>
    apply counted_become
    have reserved := PublishedPrefix.Sound.reserve counted free
    rw [show (Control.waiting state.memory.writePos event).phase =
      state.phase me from away, Function.update_eq_self]
    exact reserved

theorem Counted.publish
    (publishing : (state.threads me).control = .publishing pos)
    (lap : pos < state.memory.committedPos + size) (posts : List Nat) :
    Counted size (state.become me (state.memory.setSlot size pos
        { state.memory.slot size pos with publishedSeq := pos + 1 })
      ⟨.advancing, posts⟩) := by
  have mine : state.unpublished me = some pos :=
    congrArg Control.unpublished publishing
  apply counted_become
  have published := PublishedPrefix.Sound.publish counted mine lap
  have seq : (fun index => ((Function.update state.memory.slots (pos % size)
      { state.memory.slot size pos with publishedSeq := pos + 1 })
        index).publishedSeq) =
      Function.update (fun index => (state.memory.slots index).publishedSeq)
        (pos % size) (pos + 1) :=
    Function.comp_update (fun slot : Slot => slot.publishedSeq) ..
  rw [Ring.published, Ring.setSlot, seq]
  exact published

theorem Counted.swap (positive : 0 < size)
    (swapping : (state.threads me).control =
      .swapping state.memory.committedPos) (posts : List Nat) :
    Counted size (state.become me
      { state.memory with committedPos := state.memory.committedPos + 1 }
      ⟨.advancing, posts⟩) := by
  have unpublished : Control.advancing.unpublished = state.unpublished me :=
    (congrArg Control.unpublished swapping).symm
  apply counted_become
  rw [unpublished, Function.update_eq_self]
  exact PublishedPrefix.Sound.swap counted positive
    (congrArg Control.phase swapping)

end

theorem step_counted {next : LogState Thread}
    {action : Actor Thread × Command} (positive : 0 < size)
    (counted : Counted size state) (good : ¬Overwrites size state action)
    (taken : step size state action = some next) : Counted size next := by
  obtain ⟨me, command⟩ := action
  unfold Overwrites at good
  dsimp only at good
  refine step_cases taken (fun event idle => counted.reserve idle event)
    (fun idle => counted.aside idle rfl rfl rfl rfl fun _ => rfl) ?_ ?_ ?_
  · intro ring party _ executed
    generalize at' : (state.threads me).control = control at executed good
    cases control with
    | waiting | sampling | flushing | probing =>
      cases executed
      split <;> exact counted.aside at' rfl rfl rfl rfl fun _ => rfl
    | filling pos event | marking pos | releasing pos =>
      cases executed
      exact counted.aside at' rfl rfl rfl rfl (seq_setSlot _ _ rfl)
    | publishing pos =>
      cases executed
      have lap : pos < state.memory.committedPos + size :=
        Nat.lt_of_not_le fun late => good ⟨pos, rfl, late⟩
      exact counted.publish at' lap _
    | advancing =>
      cases executed
      refine counted.turn at' rfl ?_ nofun fun _ _ => rfl
      intro read reads
      obtain rfl := Option.some.inj reads
      exact Nat.le_refl _
    | comparing committed =>
      have behind : committed ≤ state.memory.committedPos :=
        counted.behind (congrArg (fun control => control.phase.read) at')
      cases executed
      split
      case isTrue stored =>
        refine counted.turn at' rfl ?_ ?_ ?_
        · intro read reads
          obtain rfl := Option.some.inj reads
          exact behind
        · intro swapping
          obtain rfl := PublishedPrefix.Phase.swapping.inj swapping
          exact stored
        · exact fun attends _ => attends
      case isFalse missing =>
        refine counted.turn at' rfl nofun nofun ?_
        rintro rfl stored
        exact missing stored
    | swapping committed =>
      cases executed
      split
      case isTrue same =>
        subst same
        exact counted.swap positive at' _
      case isFalse =>
        exact counted.turn at' rfl nofun nofun fun _ _ => trivial
    | loading | processing | stepping =>
      cases executed
      exact counted.aside at' rfl rfl rfl rfl fun _ => rfl
    | _ => cases executed
  · intro woken monitor after _ synced
    have beside := execSync_beside synced
    refine counted.aside rfl beside.unpublished ?_ rfl rfl fun _ => rfl
    exact (Control.phase_eq_away beside.away.2).trans
      (Control.phase_eq_away beside.away.1).symm
  · exact fun _ => counted.aside rfl rfl rfl rfl rfl fun _ => rfl

end Libnei.Log

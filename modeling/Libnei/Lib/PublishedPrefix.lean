import Libnei.Lib.LapRing

/-!
# Counting a prefix of published positions

Positions are handed out one after the other and are published in any order:
whoever holds a position stores its number in the slot `pos % size`.  The
published prefix is counted by whoever has published: it reads the counter,
compares the slot behind it, moves the counter by a compare-and-swap and
starts again, until the next slot is not published.

As long as no number is stored over one that is not counted yet, a published
position behind the counter is noticed by someone (`Sound.noticed`), and the
counter has reached the end when nobody is on the way any more.
-/

namespace Libnei.Lib.PublishedPrefix

open LapRing

inductive Phase
  | away
  | advancing
  | comparing (committed : Nat)
  | swapping (committed : Nat)

/-- The actor will see that this position is published. -/
def Phase.Attends (committed : Nat) : Phase → Prop
  | .away => False
  | .advancing => True
  | .comparing read | .swapping read => read = committed

def Phase.read : Phase → Option Nat
  | .away | .advancing => none
  | .comparing read | .swapping read => some read

structure State (Actor : Type) where
  count : Nat
  committed : Nat
  seq : Nat → Nat
  claim : Actor → Option Nat
  phase : Actor → Phase

variable {Actor : Type} {size : Nat}

structure Sound (size : Nat) (state : State Actor) : Prop where
  committed_le : state.committed ≤ state.count
  claims : Claims state.committed state.count state.claim
  published : ∀ {pos}, state.committed ≤ pos → pos < state.committed + size →
    (state.seq (pos % size) = pos + 1 ↔
      pos < state.count ∧ ∀ actor, state.claim actor ≠ some pos)
  beyond : ∀ {pos}, state.committed + size ≤ pos → pos < state.count →
    ∃ actor, state.claim actor = some pos
  behind : ∀ {actor read}, (state.phase actor).read = some read →
    read ≤ state.committed
  swaps : ∀ {actor}, state.phase actor = .swapping state.committed →
    state.seq (state.committed % size) = state.committed + 1
  noticed : state.seq (state.committed % size) = state.committed + 1 →
    ∃ actor, (state.phase actor).Attends state.committed

variable {state : State Actor}

variable {pos : Nat} {actor : Actor}

/-- A position is counted when all up to it are published and nobody moves
the counter. -/
theorem Sound.lt_committed (sound : Sound size state) (positive : 0 < size)
    (handedOut : pos < state.count)
    (unclaimed : ∀ actor earlier, state.claim actor = some earlier →
      pos < earlier)
    (settled : ∀ actor, ¬(state.phase actor).Attends state.committed) :
    pos < state.committed := by
  by_contra short
  have le := Nat.le_of_not_lt short
  have stored := (sound.published (Nat.le_refl _)
    (Nat.lt_add_of_pos_right positive)).mpr
      ⟨Nat.lt_of_le_of_lt le handedOut, fun actor claimed =>
        Nat.not_lt.mpr le (unclaimed actor _ claimed)⟩
  obtain ⟨actor, attends⟩ := sound.noticed stored
  exact settled actor attends

variable [DecidableEq Actor]

variable (sound : Sound size state)

include sound

theorem Sound.reserve (free : state.claim actor = none) : Sound size
      { state with
        count := state.count + 1
        claim := Function.update state.claim actor (some state.count) } := by
  constructor
  case committed_le => exact Nat.le_succ_of_le sound.committed_le
  case claims => exact sound.claims.reserve sound.committed_le
  case published =>
    intro pos le lt
    dsimp only at le lt ⊢
    rw [sound.published le lt]
    constructor
    · rintro ⟨below, unclaimed⟩
      exact ⟨Nat.lt_succ_of_lt below, fun other claimed =>
        unclaimed other ((Claims.update_some_iff free below).mp claimed)⟩
    · rintro ⟨below, unclaimed⟩
      rcases Nat.lt_succ_iff_lt_or_eq.mp below with inside | rfl
      · exact ⟨inside, fun other claimed =>
          unclaimed other ((Claims.update_some_iff free inside).mpr claimed)⟩
      · exact absurd (Function.update_self ..) (unclaimed actor)
  case beyond =>
    intro pos le lt
    dsimp only at le lt ⊢
    rcases Nat.lt_succ_iff_lt_or_eq.mp lt with inside | rfl
    · obtain ⟨other, claimed⟩ := sound.beyond le inside
      exact ⟨other, (Claims.update_some_iff free inside).mpr claimed⟩
    · exact ⟨actor, Function.update_self ..⟩
  case behind => exact sound.behind
  case swaps => exact sound.swaps
  case noticed => exact sound.noticed

theorem Sound.publish (mine : state.claim actor = some pos)
    (lap : pos < state.committed + size) :
    Sound size
      { state with
        seq := Function.update state.seq (pos % size) (pos + 1)
        claim := Function.update state.claim actor none
        phase := Function.update state.phase actor .advancing } := by
  have range := sound.claims.range mine
  have read : ∀ {other at'},
      (Function.update state.phase actor .advancing other).read = some at' →
      (state.phase other).read = some at' ∧ other ≠ actor := by
    intro other at' reads
    by_cases own : other = actor
    · rw [own, Function.update_self] at reads
      cases reads
    · rw [Function.update_of_ne own] at reads
      exact ⟨reads, own⟩
  constructor
  case committed_le => exact sound.committed_le
  case claims => exact sound.claims.letGo
  case published =>
    intro other le lt
    dsimp only at le lt ⊢
    by_cases this : other = pos
    · rw [this, Function.update_self]
      exact ⟨fun _ => ⟨range.2, sound.claims.letGo_ne mine⟩, fun _ => rfl⟩
    · have different : other % size ≠ pos % size :=
        fun same => this (eq_of_mod_eq le lt range.1 lap same)
      rw [Function.update_of_ne different, sound.published le lt]
      simp only [ne_eq, Claims.letGo_iff mine this]
  case beyond =>
    intro other le lt
    obtain ⟨holder, claimed⟩ := sound.beyond le lt
    have different : other ≠ pos := by
      dsimp only at le
      omega
    exact ⟨holder, (Claims.letGo_iff mine different).mpr claimed⟩
  case behind => exact fun reads => sound.behind (read reads).1
  case swaps =>
    intro other swapping
    dsimp only at swapping ⊢
    have own : other ≠ actor := by
      rintro rfl
      rw [Function.update_self] at swapping
      cases swapping
    rw [Function.update_of_ne own] at swapping
    have stored := sound.swaps swapping
    by_cases same : state.committed % size = pos % size
    · rw [same, Function.update_self]
      have positive : 0 < size := by omega
      have equal := eq_of_mod_eq (Nat.le_refl _)
        (Nat.lt_add_of_pos_right positive) range.1 lap same
      rw [← equal]
    · rw [Function.update_of_ne same]
      exact stored
  case noticed =>
    intro _
    refine ⟨actor, ?_⟩
    dsimp only
    rw [Function.update_self]
    trivial

/-- A thread that reads the counter or compares the slot behind it. -/
theorem Sound.turn {phase : Phase}
    (behind : ∀ read, phase.read = some read → read ≤ state.committed)
    (swaps : phase = .swapping state.committed →
      state.seq (state.committed % size) = state.committed + 1)
    (attends : (state.phase actor).Attends state.committed →
      state.seq (state.committed % size) = state.committed + 1 →
      phase.Attends state.committed) :
    Sound size
      { state with phase := Function.update state.phase actor phase } := by
  refine { sound with behind := ?_, swaps := ?_, noticed := ?_ }
  · intro other read reads
    dsimp only at reads ⊢
    by_cases own : other = actor
    · rw [own, Function.update_self] at reads
      exact behind read reads
    · rw [Function.update_of_ne own] at reads
      exact sound.behind reads
  · intro other swapping
    dsimp only at swapping ⊢
    by_cases own : other = actor
    · rw [own, Function.update_self] at swapping
      exact swaps swapping
    · rw [Function.update_of_ne own] at swapping
      exact sound.swaps swapping
  · intro stored
    dsimp only at stored ⊢
    obtain ⟨other, attending⟩ := sound.noticed stored
    refine ⟨other, ?_⟩
    by_cases own : other = actor
    · subst own
      rw [Function.update_self]
      exact attends attending stored
    · rw [Function.update_of_ne own]
      exact attending

/-- The counter moves on by one. -/
theorem Sound.swap (positive : 0 < size)
    (swapping : state.phase actor = .swapping state.committed) :
    Sound size
      { state with
        committed := state.committed + 1
        phase := Function.update state.phase actor .advancing } := by
  have inLap := Nat.lt_add_of_pos_right positive (n := state.committed)
  have stored := sound.swaps swapping
  have counted := (sound.published (Nat.le_refl _) inLap).mp stored
  constructor
  case committed_le => exact counted.1
  case claims => exact sound.claims.raise counted.2
  case published =>
    intro pos le lt
    dsimp only at le lt ⊢
    by_cases inside : pos < state.committed + size
    · exact sound.published (Nat.le_of_succ_le le) inside
    · -- The slot of the next lap still has the number of this one.
      have last : pos = state.committed + size := by omega
      subst last
      rw [Nat.add_mod_right, stored]
      constructor
      · intro equal
        omega
      · rintro ⟨below, unclaimed⟩
        obtain ⟨holder, claimed⟩ := sound.beyond (Nat.le_refl _) below
        exact absurd claimed (unclaimed holder)
  case beyond =>
    intro pos le lt
    dsimp only at le
    exact sound.beyond (by omega) lt
  case behind =>
    intro other read reads
    dsimp only at reads ⊢
    by_cases own : other = actor
    · rw [own, Function.update_self] at reads
      cases reads
    · rw [Function.update_of_ne own] at reads
      exact Nat.le_succ_of_le (sound.behind reads)
  case swaps =>
    intro other swapping'
    dsimp only at swapping'
    by_cases own : other = actor
    · rw [own, Function.update_self] at swapping'
      cases swapping'
    · rw [Function.update_of_ne own] at swapping'
      have late := sound.behind (congrArg Phase.read swapping')
      exact absurd late (Nat.not_succ_le_self _)
  case noticed =>
    intro _
    refine ⟨actor, ?_⟩
    dsimp only
    rw [Function.update_self]
    trivial

end Libnei.Lib.PublishedPrefix

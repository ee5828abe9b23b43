import Mathlib.Data.List.Basic
import Mathlib.Logic.Function.Basic

/-!
# Slots that are used lap after lap

Positions are handed out one after the other, and position `pos` uses the slot
`pos % size`, as many laps as there are.  A slot has a flag and some data.
Whoever holds a position fills its slot, sets the flag and lets the position
go; the slots are given back in the order of the positions, with the flag
cleared.

`Sound` is the discipline of one lap: of the `size` positions from the first
one that is not given back, each is held by one actor or its slot is flagged
and has the data of this very position.
-/

namespace Libnei.Lib.LapRing

/-- Within one lap a slot belongs to one position. -/
theorem eq_of_mod_eq {size base first second : Nat}
    (le : base ≤ first) (lt : first < base + size) (le' : base ≤ second)
    (lt' : second < base + size) (same : first % size = second % size) :
    first = second := by
  rcases Nat.le_total first second with below | above
  · have zero := Nat.sub_mod_eq_zero_of_mod_eq same.symm
    rw [Nat.mod_eq_of_lt (by omega)] at zero
    omega
  · have zero := Nat.sub_mod_eq_zero_of_mod_eq same
    rw [Nat.mod_eq_of_lt (by omega)] at zero
    omega

/-! ## Positions in the hands of the actors -/

/-- The positions that the actors hold, all from `low` up to `count`. -/
structure Claims {Actor : Type} (low count : Nat)
    (claim : Actor → Option Nat) : Prop where
  range : ∀ {actor pos}, claim actor = some pos → low ≤ pos ∧ pos < count
  distinct : ∀ {first second pos}, claim first = some pos →
    claim second = some pos → first = second

namespace Claims

variable {Actor : Type} {low count : Nat} {claim : Actor → Option Nat}

theorem raise (claims : Claims low count claim)
    (unclaimed : ∀ actor, claim actor ≠ some low) :
    Claims (low + 1) count claim := by
  refine ⟨fun {actor pos} claimed => ?_, claims.distinct⟩
  have range := claims.range claimed
  have different : low ≠ pos := by
    rintro rfl
    exact unclaimed actor claimed
  exact ⟨Nat.lt_of_le_of_ne range.1 different, range.2⟩

variable [DecidableEq Actor] {actor : Actor}

variable {other : Actor} {pos : Nat}

theorem update_some_iff (free : claim actor = none) (below : pos < count) :
    Function.update claim actor (some count) other = some pos ↔
      claim other = some pos := by
  by_cases own : other = actor
  · rw [own, Function.update_self, free]
    exact ⟨fun equal => absurd (Option.some.inj equal) (Nat.ne_of_gt below),
      nofun⟩
  · rw [Function.update_of_ne own]

theorem update_none_iff : Function.update claim actor none other = some pos ↔
      claim other = some pos ∧ other ≠ actor := by
  by_cases own : other = actor
  · rw [own, Function.update_self]
    exact ⟨nofun, fun both => absurd rfl both.2⟩
  · rw [Function.update_of_ne own]
    exact ⟨fun claimed => ⟨claimed, own⟩, And.left⟩

section

variable (claims : Claims low count claim)

include claims

theorem reserve (le : low ≤ count) :
    Claims low (count + 1) (Function.update claim actor (some count)) := by
  have cases : ∀ {other pos},
      Function.update claim actor (some count) other = some pos →
      other = actor ∧ pos = count ∨ claim other = some pos ∧ pos < count := by
    intro other pos claimed
    by_cases own : other = actor
    · rw [own, Function.update_self] at claimed
      exact .inl ⟨own, (Option.some.inj claimed).symm⟩
    · rw [Function.update_of_ne own] at claimed
      exact .inr ⟨claimed, (claims.range claimed).2⟩
  constructor
  · intro other pos claimed
    rcases cases claimed with ⟨-, rfl⟩ | ⟨old, below⟩
    · exact ⟨le, Nat.lt_succ_self _⟩
    · exact ⟨(claims.range old).1, Nat.lt_succ_of_lt below⟩
  · intro first second pos claimed claimed'
    rcases cases claimed with ⟨own, rfl⟩ | ⟨old, below⟩ <;>
      rcases cases claimed' with ⟨own', new⟩ | ⟨old', below'⟩
    · rw [own, own']
    · exact absurd below' (Nat.lt_irrefl _)
    · exact absurd new (Nat.ne_of_lt below)
    · exact claims.distinct old old'

theorem letGo : Claims low count (Function.update claim actor none) :=
  ⟨fun claimed => claims.range (update_none_iff.mp claimed).1,
    fun claimed claimed' => claims.distinct (update_none_iff.mp claimed).1
      (update_none_iff.mp claimed').1⟩

theorem letGo_ne (mine : claim actor = some pos) (other : Actor) :
    Function.update claim actor none other ≠ some pos := by
  intro claimed
  obtain ⟨held, notMe⟩ := update_none_iff.mp claimed
  exact notMe (claims.distinct held mine)

end

theorem letGo_iff {other : Nat} (mine : claim actor = some pos)
    (different : other ≠ pos) {holder : Actor} :
    Function.update claim actor none holder = some other ↔
      claim holder = some other := by
  rw [update_none_iff, and_iff_left_iff_imp]
  rintro claimed rfl
  exact different (Option.some.inj (claimed.symm.trans mine))

end Claims

/-! ## Laps -/

/-- `items` has the item of each position that was handed out. -/
structure State (Actor Item : Type) where
  items : List Item
  released : Nat
  flag : Nat → Bool
  data : Nat → Item
  claim : Actor → Option Nat

variable {Actor Item : Type} {size : Nat}

structure Sound (size : Nat) (state : State Actor Item) : Prop where
  released_le : state.released ≤ state.items.length
  claims : Claims state.released state.items.length state.claim
  full : ∀ {pos}, state.released ≤ pos → pos < state.released + size →
    state.flag (pos % size) = true →
    state.items[pos]? = some (state.data (pos % size)) ∧
      ∀ actor, state.claim actor ≠ some pos
  covered : ∀ {pos}, state.released ≤ pos → pos < state.items.length →
    pos < state.released + size ∧ state.flag (pos % size) = true ∨
      ∃ actor, state.claim actor = some pos

variable {state : State Actor Item} {actor : Actor} {pos : Nat}

section

variable (sound : Sound size state)

include sound

theorem Sound.flag_of_claim (mine : state.claim actor = some pos)
    (lap : pos < state.released + size) :
    state.flag (pos % size) = false := by
  by_contra flagged
  have marked := eq_true_of_ne_false flagged
  exact (sound.full (sound.claims.range mine).1 lap marked).2 actor mine

/-- The next slot is flagged, or its position is held. -/
theorem Sound.flag_next
    (unclaimed : ∀ actor, state.claim actor ≠ some state.released)
    (more : state.released < state.items.length) :
    state.flag (state.released % size) = true := by
  rcases sound.covered (Nat.le_refl _) more with ⟨-, flagged⟩ | ⟨actor, claimed⟩
  · exact flagged
  · exact absurd claimed (unclaimed actor)

theorem Sound.item_next (positive : 0 < size)
    (flagged : state.flag (state.released % size) = true) :
    state.items[state.released]? = some (state.data (state.released % size)) :=
  (sound.full (Nat.le_refl _) (Nat.lt_add_of_pos_right positive) flagged).1

/-- The data of a claimed slot are free to change. -/
theorem Sound.fill (mine : state.claim actor = some pos)
    (lap : pos < state.released + size) (item : Item) :
    Sound size
      { state with data := Function.update state.data (pos % size) item } := by
  refine { sound with full := ?_ }
  intro other le lt flagged
  have different : other % size ≠ pos % size := by
    intro same
    obtain rfl := eq_of_mod_eq le lt (sound.claims.range mine).1 lap same
    rw [sound.flag_of_claim mine lap] at flagged
    cases flagged
  dsimp only
  rw [Function.update_of_ne different]
  exact sound.full le lt flagged

theorem Sound.release (positive : 0 < size)
    (flagged : state.flag (state.released % size) = true) :
    Sound size
      { state with
        released := state.released + 1
        flag := Function.update state.flag (state.released % size) false } := by
  have inLap := Nat.lt_add_of_pos_right positive (n := state.released)
  have first := sound.full (Nat.le_refl _) inLap flagged
  have flagOther : ∀ {pos}, state.released + 1 ≤ pos →
      pos < state.released + size → Function.update state.flag
        (state.released % size) false (pos % size) =
          state.flag (pos % size) := by
    intro pos le lt
    refine Function.update_of_ne (fun same => ?_) _ _
    have equal := eq_of_mod_eq (Nat.le_of_succ_le le) lt (Nat.le_refl _)
      inLap same
    omega
  constructor
  case released_le => exact (List.getElem?_eq_some_iff.mp first.1).1
  case claims => exact sound.claims.raise first.2
  case full =>
    intro pos le lt marked
    dsimp only at le lt marked
    by_cases same : pos % size = state.released % size
    · rw [same, Function.update_self] at marked
      cases marked
    · rw [Function.update_of_ne same] at marked
      have inside : pos < state.released + size := by
        by_contra outside
        have last : pos = state.released + size := by omega
        rw [last, Nat.add_mod_right] at same
        exact same rfl
      exact sound.full (Nat.le_of_succ_le le) inside marked
  case covered =>
    intro pos le lt
    dsimp only at le lt ⊢
    rcases sound.covered (Nat.le_of_succ_le le) lt with ⟨inside, marked⟩ |
      claimed
    · rw [flagOther le inside]
      exact .inl ⟨by omega, marked⟩
    · exact .inr claimed

end

section Claims

variable [DecidableEq Actor]

theorem Sound.reserve (sound : Sound size state)
    (free : state.claim actor = none) (item : Item) :
    Sound size
      { state with
        items := state.items ++ [item]
        claim := Function.update state.claim actor
          (some state.items.length) } := by
  have length : (state.items ++ [item]).length = state.items.length + 1 :=
    List.length_append
  constructor
  case released_le =>
    rw [length]
    exact Nat.le_succ_of_le sound.released_le
  case claims =>
    rw [length]
    exact sound.claims.reserve sound.released_le
  case full =>
    intro pos le lt flagged
    obtain ⟨found, unclaimed⟩ := sound.full le lt flagged
    have inside := (List.getElem?_eq_some_iff.mp found).1
    refine ⟨?_, fun other claimed =>
      unclaimed other ((Claims.update_some_iff free inside).mp claimed)⟩
    dsimp only
    rw [List.getElem?_append_left inside]
    exact found
  case covered =>
    intro pos le lt
    dsimp only at le lt ⊢
    rw [length] at lt
    rcases Nat.lt_succ_iff_lt_or_eq.mp lt with inside | rfl
    · refine (sound.covered le inside).imp_right fun ⟨other, claimed⟩ => ?_
      exact ⟨other, (Claims.update_some_iff free inside).mpr claimed⟩
    · exact .inr ⟨actor, Function.update_self ..⟩

theorem Sound.mark (sound : Sound size state)
    (mine : state.claim actor = some pos) (lap : pos < state.released + size)
    (filled : state.items[pos]? = some (state.data (pos % size))) :
    Sound size
      { state with
        flag := Function.update state.flag (pos % size) true
        claim := Function.update state.claim actor none } := by
  constructor
  case released_le => exact sound.released_le
  case claims => exact sound.claims.letGo
  case full =>
    intro other le lt flagged
    dsimp only at le lt flagged
    by_cases same : other % size = pos % size
    · obtain rfl := eq_of_mod_eq le lt (sound.claims.range mine).1 lap same
      exact ⟨filled, sound.claims.letGo_ne mine⟩
    · rw [Function.update_of_ne same] at flagged
      obtain ⟨found, unclaimed⟩ := sound.full le lt flagged
      exact ⟨found, fun holder claimed =>
        unclaimed holder (Claims.update_none_iff.mp claimed).1⟩
  case covered =>
    intro other le lt
    dsimp only at le lt ⊢
    by_cases this : other = pos
    · rw [this, Function.update_self]
      exact .inl ⟨lap, rfl⟩
    · rcases sound.covered le lt with ⟨inside, flagged⟩ | ⟨holder, claimed⟩
      · refine .inl ⟨inside, ?_⟩
        by_cases same : other % size = pos % size
        · rw [same, Function.update_self]
        · rw [Function.update_of_ne same]
          exact flagged
      · exact .inr ⟨holder, (Claims.letGo_iff mine this).mpr claimed⟩

end Claims

end Libnei.Lib.LapRing

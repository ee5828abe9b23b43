import Mathlib.Tactic.SplitIfs

/-!
# Turns in a circle

Places `0` to `count - 1` in a circle, and an index that goes to the place
behind the one whose turn it was.
-/

namespace Libnei.Lib.RoundRobin

/-- Going up from behind `first`, and from `0` again, the index has not passed
`second`. -/
def Between (first second index : Nat) : Prop :=
  if first < second then first < index ∧ index ≤ second
  else first < index ∨ index ≤ second

variable {first second index place count : Nat}

/-- The turn of the first place is over. -/
theorem between_next (inside : second < count) (own : first < count) :
    Between first second ((first + 1) % count) := by
  unfold Between
  by_cases last : first + 1 = count
  · rw [last, Nat.mod_self]
    split_ifs <;> omega
  · rw [Nat.mod_eq_of_lt (by omega)]
    split_ifs <;> omega

/-- The turn goes to the second place, or to one in front of it that is not
the first. -/
theorem turn (different : first ≠ second) (own : first < count)
    (inside : second < count) (between : Between first second index)
    (behind : index ≤ place) (below : place < count)
    (notPast : index ≤ second → place ≤ second) :
    place = second ∧ Between second first ((place + 1) % count) ∨
      place ≠ first ∧ place ≠ second ∧
        Between first second ((place + 1) % count) := by
  by_cases same : place = second
  · subst same
    exact .inl ⟨rfl, between_next own below⟩
  · refine .inr ?_
    unfold Between at between ⊢
    by_cases last : place + 1 = count
    · rw [last, Nat.mod_self]
      split_ifs at between ⊢ <;> omega
    · rw [Nat.mod_eq_of_lt (by omega)]
      split_ifs at between ⊢ <;> omega

end Libnei.Lib.RoundRobin

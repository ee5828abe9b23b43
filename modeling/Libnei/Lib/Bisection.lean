import Mathlib.Data.List.TakeDrop
import Mathlib.Data.List.TakeWhile

/-!
# Bisection

`std::upper_bound` on a list: it halves the range that is left, looks at the
item in the middle and goes on in front of it or behind it.  On a list that is
partitioned it finds the border.
-/

namespace Libnei.Lib

variable {α : Type} {above : α → Bool} {list : List α}

/-- The loop over `length` items from `first` on. -/
def upperBoundFrom (above : α → Bool) (list : List α) : Nat → Nat → Nat → Nat
  | 0, first, _ => first
  | fuel + 1, first, length =>
      if length = 0 then first
      else
        let half := length / 2
        match list[first + half]? with
        | none => first
        | some item =>
            if above item then upperBoundFrom above list fuel first half
            else
              upperBoundFrom above list fuel (first + half + 1)
                (length - half - 1)

/-- `above item` says that the value is less than the item. -/
def upperBound (above : α → Bool) (list : List α) : Nat :=
  upperBoundFrom above list list.length 0 list.length

/-- No item behind one that is above is not above. -/
abbrev Partitioned (above : α → Bool) (list : List α) : Prop :=
  ∀ item ∈ list.dropWhile (!above ·), above item = true

/-- The range that is left keeps the border in it. -/
theorem upperBoundFrom_eq {front back : List α}
    (below : ∀ item ∈ front, above item = false)
    (aboveBack : ∀ item ∈ back, above item = true) (fuel : Nat)
    {first length : Nat} (enough : length ≤ fuel)
    (low : first ≤ front.length) (high : front.length ≤ first + length)
    (inside : first + length ≤ (front ++ back).length) :
    upperBoundFrom above (front ++ back) fuel first length = front.length := by
  induction fuel generalizing first length with
  | zero =>
    rw [upperBoundFrom]
    omega
  | succ fuel ih =>
    rw [upperBoundFrom]
    by_cases empty : length = 0
    · rw [if_pos empty]
      omega
    · rw [if_neg empty]
      dsimp only
      have middle : first + length / 2 < (front ++ back).length := by omega
      rw [List.getElem?_eq_getElem middle]
      dsimp only
      by_cases inFront : first + length / 2 < front.length
      · have here : (front ++ back)[first + length / 2] ∈ front := by
          rw [List.getElem_append_left inFront]
          exact List.getElem_mem _
        rw [below _ here, if_neg Bool.false_ne_true]
        exact ih (by omega) (by omega) (by omega) (by omega)
      · have here : (front ++ back)[first + length / 2] ∈ back := by
          rw [List.getElem_append_right (Nat.le_of_not_lt inFront)]
          exact List.getElem_mem _
        rw [aboveBack _ here, if_pos rfl]
        exact ih (by omega) low (by omega) (by omega)

theorem upperBound_eq (partitioned : Partitioned above list) :
    upperBound above list = (list.takeWhile (!above ·)).length := by
  have split := List.takeWhile_append_dropWhile (p := (!above ·)) (l := list)
  rw [upperBound]
  conv_lhs => rw [← split]
  apply upperBoundFrom_eq _ partitioned
  · exact Nat.le_refl _
  · exact Nat.zero_le _
  · rw [List.length_append]
    omega
  · rw [Nat.zero_add]
  · intro item member
    have low := List.mem_takeWhile_imp member
    simpa using low

end Libnei.Lib

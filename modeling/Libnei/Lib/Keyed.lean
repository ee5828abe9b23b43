import Mathlib.Data.List.Induction

/-!
# Lists with one entry for each key

`put` replaces the entry that has the key of the new one, or appends the new
one.  A list built by `put` has one entry for each key, the last one put.
-/

namespace Libnei.Lib

variable {α κ : Type} [DecidableEq κ] (key : α → κ)

def put (item : α) : List α → List α
  | [] => [item]
  | held :: rest =>
      if key held = key item then item :: rest
      else held :: put item rest

def entry (wanted : κ) (items : List α) : Option α :=
  items.find? fun item => key item = wanted

variable {item : α} {items : List α} {wanted : κ}

theorem key_mem_put (member : wanted ∈ (put key item items).map key) :
    wanted = key item ∨ wanted ∈ items.map key := by
  induction items with
  | nil => exact Or.inl (by simpa [put] using member)
  | cons held rest ih =>
    by_cases same : key held = key item
    · simp only [put, if_pos same, List.map_cons, List.mem_cons] at member
      rcases member with found | found
      · exact Or.inl found
      · exact Or.inr (List.mem_cons_of_mem _ found)
    · simp only [put, if_neg same, List.map_cons, List.mem_cons] at member
      rcases member with found | found
      · exact Or.inr (by simp [found])
      · rcases ih found with here | behind
        · exact Or.inl here
        · exact Or.inr (List.mem_cons_of_mem _ behind)

theorem nodup_put (item : α) (distinct : (items.map key).Nodup) :
    ((put key item items).map key).Nodup := by
  induction items with
  | nil => simp [put]
  | cons held rest ih =>
    obtain ⟨fresh, others⟩ := List.nodup_cons.mp distinct
    by_cases same : key held = key item
    · simp only [put, if_pos same, List.map_cons]
      exact List.nodup_cons.mpr ⟨same ▸ fresh, others⟩
    · simp only [put, if_neg same, List.map_cons]
      refine List.nodup_cons.mpr ⟨?_, ih others⟩
      intro member
      rcases key_mem_put key member with found | found
      · exact same found
      · exact fresh found

theorem entry_put_same (item : α) (items : List α) :
    entry key (key item) (put key item items) = some item := by
  induction items with
  | nil => simp [put, entry]
  | cons held rest ih =>
    by_cases same : key held = key item
    · simp [put, entry, same]
    · simpa [put, entry, same] using ih

theorem entry_put_other (items : List α) (other : key item ≠ wanted) :
    entry key wanted (put key item items) = entry key wanted items := by
  induction items with
  | nil => simp [put, entry, other]
  | cons held rest ih =>
    by_cases same : key held = key item
    · simp [put, entry, same, other]
    · by_cases found : key held = wanted
      · simp only [put, if_neg same]
        simp [entry, found]
      · simpa [put, entry, same, found] using ih

/-- The list after putting `items` one after the other. -/
def putAll (items : List α) : List α :=
  items.foldl (fun held item => put key item held) []

theorem putAll_concat (items : List α) (item : α) :
    putAll key (items ++ [item]) = put key item (putAll key items) := by
  simp [putAll]

theorem nodup_putAll (items : List α) : ((putAll key items).map key).Nodup := by
  induction items using List.reverseRecOn with
  | nil => simp [putAll]
  | append_singleton items item ih =>
    rw [putAll_concat]
    exact nodup_put key item ih

/-- The last one put wins. -/
theorem entry_putAll (items : List α) (wanted : κ) :
    entry key wanted (putAll key items) =
      (items.filter fun item => key item = wanted).getLast? := by
  induction items using List.reverseRecOn with
  | nil => simp [putAll, entry]
  | append_singleton items item ih =>
    rw [putAll_concat]
    by_cases same : key item = wanted
    · subst same
      simp [entry_put_same, List.filter_append]
    · rw [entry_put_other key _ same, ih]
      simp [List.filter_append, same]

end Libnei.Lib

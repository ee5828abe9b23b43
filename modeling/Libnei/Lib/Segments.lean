import Mathlib.Algebra.Order.BigOperators.Group.List
import Mathlib.Algebra.Order.Ring.Nat

/-!
# Segments between separators

The non-empty runs of a list that the separators cut out of it.
-/

namespace Libnei.Lib

variable {α : Type} (isSep : α → Bool)

/-- The run in front of the first separator, and the runs behind it that are
not empty. -/
def runs : List α → List α × List (List α)
  | [] => ([], [])
  | item :: items =>
      let (run, later) := runs items
      if isSep item then ([], if run = [] then later else run :: later)
      else (item :: run, later)

def segments (items : List α) : List (List α) :=
  let (run, later) := runs isSep items
  if run = [] then later else run :: later

variable {isSep}

@[simp] theorem segments_nil : segments isSep [] = [] := rfl

variable {sep : α} {seps run : List α}

section

variable (separates : isSep sep = true)

include separates

theorem runs_sep (items : List α) :
    runs isSep (sep :: items) = ([], segments isSep items) := by
  simp [runs, segments, separates]

theorem runs_append_sep (front items : List α) :
    runs isSep (front ++ sep :: items) =
      ((runs isSep front).1, (runs isSep front).2 ++ segments isSep items) := by
  induction front with
  | nil => simpa [runs] using runs_sep separates items
  | cons item front ih =>
    simp only [List.cons_append, runs, ih]
    split
    · split <;> rfl
    · rfl

/-- A separator cuts the list. -/
theorem segments_append_sep (front items : List α) :
    segments isSep (front ++ sep :: items) =
      segments isSep front ++ segments isSep items := by
  simp only [segments, runs_append_sep separates front items]
  split <;> rfl

@[simp] theorem segments_sep (items : List α) :
    segments isSep (sep :: items) = segments isSep items :=
  segments_append_sep separates [] items

end

section

variable (separate : ∀ sep ∈ seps, isSep sep = true)

include separate

theorem segments_seps (items : List α) :
    segments isSep (seps ++ items) = segments isSep items := by
  induction seps with
  | nil => rfl
  | cons sep seps ih =>
    rw [List.cons_append, segments_sep (separate sep List.mem_cons_self)]
    exact ih fun other member =>
      separate other (List.mem_cons_of_mem sep member)

theorem segments_append_seps (items : List α) :
    segments isSep (items ++ seps) = segments isSep items := by
  cases seps with
  | nil => rw [List.append_nil]
  | cons sep seps =>
    have rest := segments_seps (fun other member =>
      separate other (List.mem_cons_of_mem sep member)) []
    rw [segments_append_sep (separate sep List.mem_cons_self)]
    rw [List.append_nil] at rest
    rw [rest, segments_nil, List.append_nil]

end

theorem runs_of_plain (plain : ∀ item ∈ run, isSep item = false) :
    runs isSep run = (run, []) := by
  induction run with
  | nil => rfl
  | cons item run ih =>
    have rest := ih fun other member =>
      plain other (List.mem_cons_of_mem item member)
    simp [runs, rest, plain item List.mem_cons_self]

theorem segments_of_plain (plain : ∀ item ∈ run, isSep item = false)
    (present : run ≠ []) :
    segments isSep run = [run] := by
  simp [segments, runs_of_plain plain, present]

theorem segments_ne_nil {item : α} (plain : isSep item = false)
    (items : List α) : segments isSep (item :: items) ≠ [] := by
  simp [segments, runs, plain]

theorem runs_size (items : List α) : (runs isSep items).1.length +
      ((runs isSep items).2.map (·.length + 1)).sum ≤ items.length := by
  induction items with
  | nil => simp [runs]
  | cons item items ih =>
    rcases same : runs isSep items with ⟨run, later⟩
    rw [same] at ih
    simp only [runs, same]
    split
    · split
      · simp only [List.length_nil, List.length_cons] at ih ⊢
        omega
      · simp only [List.length_nil, List.map_cons, List.sum_cons,
          List.length_cons] at ih ⊢
        omega
    · simp only [List.length_cons] at ih ⊢
      omega

/-- The segments fit into the list with one separator between them. -/
theorem segments_size (items : List α) :
    ((segments isSep items).map (·.length + 1)).sum ≤ items.length + 1 := by
  have size := @runs_size _ isSep items
  simp only [segments]
  split
  · omega
  · simp only [List.map_cons, List.sum_cons]
    omega

theorem length_le_of_mem_segments {items : List α}
    (member : run ∈ segments isSep items) : run.length ≤ items.length := by
  have part : run.length + 1 ≤
      ((segments isSep items).map (·.length + 1)).sum :=
    List.single_le_sum (fun _ _ => Nat.zero_le _) _
      (List.mem_map.mpr ⟨run, member, rfl⟩)
  have size := @segments_size _ isSep items
  omega

end Libnei.Lib

import Mathlib.Data.List.DropRight
import Mathlib.Data.List.Infix

/-!
# Searching for a pattern

The first occurrence of a pattern in a list, and what is known about it when
a separator that is not part of the pattern stands in front of it.
-/

namespace Libnei.Lib

variable {α : Type} {pattern : List α}

variable {front : List α} {separator : α} {test : α → Bool}

/-- A pattern without the separator lies on one side of it. -/
theorem infix_append_cons {rest : List α} (absent : separator ∉ pattern) :
    pattern <:+: front ++ separator :: rest ↔
      pattern <:+: front ∨ pattern <:+: rest := by
  constructor
  · rintro ⟨before, after, spelled⟩
    rw [List.append_assoc, List.append_eq_append_iff] at spelled
    rcases spelled with ⟨middle, within, spelled⟩ | ⟨middle, rfl, spelled⟩
    · -- The occurrence starts in the front part.
      rw [List.append_eq_append_iff] at spelled
      rcases spelled with ⟨last, rfl, _⟩ | ⟨last, rfl, spelled⟩
      · left
        exact ⟨before, last, by rw [within, List.append_assoc]⟩
      · cases last with
        | nil =>
          left
          exact ⟨before, [], by rw [within]; simp⟩
        | cons head last =>
          obtain ⟨rfl, _⟩ := List.cons.inj spelled
          exact absurd (by simp) absent
    · -- It starts at the separator or behind it.
      cases middle with
      | nil =>
        cases pattern with
        | nil => exact .inl (List.nil_infix)
        | cons head tail =>
          obtain ⟨rfl, _⟩ := List.cons.inj spelled
          exact absurd List.mem_cons_self absent
      | cons head middle =>
        obtain ⟨_, rest⟩ := List.cons.inj spelled
        right
        exact ⟨middle, after, by rw [List.append_assoc]; exact rest.symm⟩
  · rintro (inFront | inRest)
    · exact inFront.trans (List.prefix_append front _).isInfix
    · exact inRest.trans
        ((List.suffix_cons separator rest).trans
          (List.suffix_append front _)).isInfix

/-- `takeWhile` takes a front part whose successor stops it. -/
theorem takeWhile_front {rest : List α}
    (taken : ∀ item ∈ front, test item = true)
    (stops : ∀ item ∈ rest.head?, test item = false) :
    (front ++ rest).takeWhile test = front := by
  rw [List.takeWhile_append_of_pos taken]
  cases rest with
  | nil => simp
  | cons item rest => simp [stops item rfl]

/-- Nothing is dropped from either end of a list whose items all fail the
test. -/
theorem dropWhile_rdropWhile_eq_self {items : List α}
    (kept : ∀ item ∈ items, test item = false) :
    (items.dropWhile test).rdropWhile test = items := by
  have front : items.dropWhile test = items := by
    cases items with
    | nil => rfl
    | cons item rest =>
      exact List.dropWhile_cons_of_neg (by simp [kept item])
  rw [front, List.rdropWhile_eq_self_iff]
  intro nonempty
  simp [kept _ (List.getLast_mem nonempty)]

variable [DecidableEq α]

/-- The position of the first occurrence of `pattern`. -/
def search (pattern : List α) : List α → Option Nat
  | [] => if pattern = [] then some 0 else none
  | head :: tail =>
      if pattern.isPrefixOf (head :: tail) then some 0
      else (search pattern tail).map (· + 1)

theorem search_append_self (rest : List α) :
    search pattern (pattern ++ rest) = some 0 := by
  cases spelled : pattern ++ rest with
  | nil =>
    have empty : pattern = [] := (List.append_eq_nil_iff.mp spelled).1
    rw [search, if_pos empty]
  | cons head tail =>
    have here : pattern.isPrefixOf (head :: tail) = true := by
      rw [List.isPrefixOf_iff_prefix, ← spelled]
      exact List.prefix_append pattern rest
    rw [search, if_pos here]

/-- A part that the pattern does not start with is passed over. -/
theorem search_cons {head : α} {tail : List α}
    (elsewhere : ¬pattern <+: head :: tail) :
    search pattern (head :: tail) = (search pattern tail).map (· + 1) := by
  rw [search, if_neg]
  rwa [List.isPrefixOf_iff_prefix]

/-- The first element of the pattern does not occur in what is skipped. -/
theorem search_skip {first : α} (rest text : List α) (absent : first ∉ front) :
    search (first :: rest) (front ++ text) =
      (search (first :: rest) text).map (front.length + ·) := by
  induction front with
  | nil => simp
  | cons head tail ih =>
    have elsewhere : ¬(first :: rest) <+: head :: (tail ++ text) := by
      intro starts
      obtain ⟨rfl, _⟩ := List.cons_prefix_cons.mp starts
      exact absent List.mem_cons_self
    rw [List.cons_append, search_cons elsewhere,
      ih fun member => absent (List.mem_cons_of_mem _ member),
      Option.map_map]
    congr 1
    funext position
    simp only [Function.comp_apply, List.length_cons]
    omega

/-- The pattern behind a separator is found when it does not occur in front
of it. -/
theorem search_behind (rest : List α) (absent : separator ∉ pattern)
    (elsewhere : ¬pattern <:+: front) :
    search pattern (front ++ separator :: (pattern ++ rest)) =
      some (front.length + 1) := by
  induction front with
  | nil =>
    have notHere : ¬pattern <+: separator :: (pattern ++ rest) := by
      rintro starts
      cases pattern with
      | nil => exact elsewhere List.nil_infix
      | cons head tail =>
        obtain ⟨rfl, _⟩ := List.cons_prefix_cons.mp starts
        exact absent List.mem_cons_self
    rw [List.nil_append, search_cons notHere, search_append_self]
    rfl
  | cons head tail ih =>
    have later : ¬pattern <:+: tail := fun occurs =>
      elsewhere (occurs.trans (List.suffix_cons head tail).isInfix)
    have notHere :
        ¬pattern <+: head :: (tail ++ separator :: (pattern ++ rest)) := by
      rintro ⟨after, spelled⟩
      rw [← List.cons_append, List.append_eq_append_iff] at spelled
      rcases spelled with ⟨last, whole, _⟩ | ⟨last, rfl, spelled⟩
      · exact elsewhere ⟨[], last, by rw [whole]; simp⟩
      · cases last with
        | nil => exact elsewhere ⟨[], [], by simp⟩
        | cons first last =>
          obtain ⟨rfl, _⟩ := List.cons.inj spelled
          exact absent (by simp)
    rw [List.cons_append, search_cons notHere, ih later]
    rfl

end Libnei.Lib

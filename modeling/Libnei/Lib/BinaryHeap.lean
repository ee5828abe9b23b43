import Mathlib.Logic.Basic

/-!
# Binary heaps

`std::push_heap` and `std::pop_heap` on a list.  A hole goes up or down, and a
value is put where it stops; so the heap behind a step is the one before it
with the hole filled, up to order.
-/

namespace Libnei.Lib.BinaryHeap

variable {α β : Type}

section Algorithms

variable (less : α → α → Bool)

/-- The hole goes up as long as the element above it is less than the
value. -/
def siftUp : Nat → List α → Nat → α → List α
  | 0, heap, hole, value => heap.set hole value
  | fuel + 1, heap, hole, value =>
      match heap[(hole - 1) / 2]? with
      | some parent =>
          if hole ≠ 0 ∧ less parent value then
            siftUp fuel (heap.set hole parent) ((hole - 1) / 2) value
          else heap.set hole value
      | none => heap.set hole value

/-- The hole goes down to the bottom, to the second child unless that is less
than the first one. -/
def siftDown : Nat → List α → Nat → List α × Nat
  | 0, heap, hole => (heap, hole)
  | fuel + 1, heap, hole =>
      match heap[2 * hole + 1]?, heap[2 * hole + 2]? with
      | some first, some second =>
          if less second first then
            siftDown fuel (heap.set hole first) (2 * hole + 1)
          else siftDown fuel (heap.set hole second) (2 * hole + 2)
      | some only, none => (heap.set hole only, 2 * hole + 1)
      | none, _ => (heap, hole)

def push (heap : List α) (value : α) : List α :=
  siftUp less heap.length (heap ++ [value]) heap.length value

/-- The value takes the place of the first element. -/
def refill (heap : List α) (value : α) : List α :=
  let sunk := siftDown less heap.length heap 0
  siftUp less sunk.2 sunk.1 sunk.2 value

/-- The last element fills the hole that the first one leaves. -/
def pop : List α → Option (α × List α)
  | [] => none
  | top :: rest =>
      match rest.getLast? with
      | none => some (top, [])
      | some value => some (top, refill less (top :: rest).dropLast value)

/-- The heap of a list of elements. -/
def build (elements : List α) : List α :=
  elements.foldl (push less) []

/-- The elements of a heap in the order in which they are popped. -/
def drain : Nat → List α → List α
  | 0, _ => []
  | fuel + 1, heap =>
      match pop less heap with
      | some (top, rest) => top :: drain fuel rest
      | none => []

end Algorithms

/-! ## The elements stay the same -/

variable {heap : List α} {hole fuel : Nat}

/-- An element goes to the hole and leaves one where it was. -/
theorem move_perm {other : Nat} {element value : α} (different : hole ≠ other)
    (inside : hole < heap.length) (found : heap[other]? = some element) :
    ((heap.set hole element).set other value).Perm
      (heap.set hole value) := by
  obtain ⟨bound, rfl⟩ := List.getElem?_eq_some_iff.mp found
  have swapped := @List.set_set_perm α (heap.set hole value) hole other
    (by rwa [List.length_set]) (by rwa [List.length_set])
  rw [List.getElem_set_self, List.getElem_set_ne different,
    List.set_set] at swapped
  exact swapped

variable {less : α → α → Bool}

theorem siftUp_perm {value : α} (inside : hole < heap.length) :
    (siftUp less fuel heap hole value).Perm (heap.set hole value) := by
  induction fuel generalizing heap hole with
  | zero => exact List.Perm.refl _
  | succ fuel ih =>
    unfold siftUp
    split
    case h_1 parent found =>
      split
      case isTrue rises =>
        have above : (hole - 1) / 2 < hole := by omega
        refine (ih ?_).trans
          (move_perm (by omega) inside found)
        rw [List.length_set]
        omega
      case isFalse => exact List.Perm.refl _
    case h_2 => exact List.Perm.refl _

theorem siftDown_perm (inside : hole < heap.length) :
    (siftDown less fuel heap hole).2 < (siftDown less fuel heap hole).1.length ∧
      ∀ value, ((siftDown less fuel heap hole).1.set
        (siftDown less fuel heap hole).2 value).Perm
          (heap.set hole value) := by
  induction fuel generalizing heap hole with
  | zero => exact ⟨inside, fun _ => List.Perm.refl _⟩
  | succ fuel ih =>
    -- where the hole has gone down to a child
    have moved : ∀ {child : Nat} {element : α}, hole < child →
        heap[child]? = some element →
        child < (heap.set hole element).length ∧
          ∀ value, ((heap.set hole element).set child value).Perm
            (heap.set hole value) := by
      intro child element below found
      obtain ⟨bound, -⟩ := List.getElem?_eq_some_iff.mp found
      refine ⟨?_, fun value => move_perm (by omega) inside found⟩
      rwa [List.length_set]
    unfold siftDown
    split
    case h_1 first second foundFirst foundSecond =>
      split
      case isTrue =>
        obtain ⟨below, same⟩ := moved (by omega) foundFirst
        obtain ⟨bound, further⟩ := ih below
        exact ⟨bound, fun value => (further value).trans (same value)⟩
      case isFalse =>
        obtain ⟨below, same⟩ := moved (by omega) foundSecond
        obtain ⟨bound, further⟩ := ih below
        exact ⟨bound, fun value => (further value).trans (same value)⟩
    case h_2 only found _ => exact moved (by omega) found
    case h_3 => exact ⟨inside, fun _ => List.Perm.refl _⟩

theorem push_perm (less : α → α → Bool) (heap : List α) (value : α) :
    (push less heap value).Perm (value :: heap) := by
  have inside : heap.length < (heap ++ [value]).length := by simp
  refine (siftUp_perm inside).trans ?_
  rw [List.set_append_right _ _ (Nat.le_refl _), Nat.sub_self]
  exact List.perm_append_singleton value heap

theorem refill_perm (some : 0 < heap.length) (value : α) :
    (refill less heap value).Perm (heap.set 0 value) := by
  obtain ⟨bound, same⟩ := siftDown_perm some
  exact (siftUp_perm bound).trans (same value)

theorem pop_perm {rest : List α} {top : α}
    (popped : pop less heap = some (top, rest)) :
    heap.Perm (top :: rest) := by
  cases heap with
  | nil => cases popped
  | cons first others =>
    rw [pop] at popped
    split at popped
    case h_1 none =>
      obtain ⟨rfl, rfl⟩ := Prod.mk.inj (Option.some.inj popped)
      rw [List.getLast?_eq_none_iff.mp none]
    case h_2 value last =>
      obtain ⟨rfl, rfl⟩ := Prod.mk.inj (Option.some.inj popped)
      obtain ⟨front, rfl⟩ := List.getLast?_eq_some_iff.mp last
      rw [← List.cons_append, List.dropLast_concat]
      have filled : (refill less (first :: front) value).Perm
          (value :: front) :=
        refill_perm (List.length_pos_of_mem List.mem_cons_self) value
      refine List.Perm.cons first ?_
      exact (List.perm_append_singleton value front).trans filled.symm

theorem pop_eq_none (none : pop less heap = none) : heap = [] := by
  cases heap with
  | nil => rfl
  | cons first others =>
    rw [pop] at none
    split at none <;> cases none

theorem drain_perm (less : α → α → Bool) (heap : List α) :
    (drain less heap.length heap).Perm heap := by
  generalize length : heap.length = count
  induction count generalizing heap with
  | zero =>
    rw [List.length_eq_zero_iff.mp length]
    exact List.Perm.refl _
  | succ count ih =>
    unfold drain
    split
    case h_1 top rest popped =>
      have same := pop_perm popped
      refine (List.Perm.cons top (ih rest ?_)).trans same.symm
      have lengths := same.length_eq
      rw [List.length_cons] at lengths
      omega
    case h_2 none =>
      rw [pop_eq_none none] at length
      cases length

/-! ## Heaps of elements that compare in the same way -/

section Map

variable {less' : β → β → Bool} {rename : α → β}
  (agrees : ∀ element other,
    less' (rename element) (rename other) = less element other)

include agrees

theorem siftUp_map (fuel : Nat) (heap : List α) (hole : Nat) (value : α) :
    siftUp less' fuel (heap.map rename) hole (rename value) =
      (siftUp less fuel heap hole value).map rename := by
  induction fuel generalizing heap hole with
  | zero => exact List.map_set.symm
  | succ fuel ih =>
    unfold siftUp
    rw [List.getElem?_map]
    cases heap[(hole - 1) / 2]? with
    | none => exact List.map_set.symm
    | some parent =>
      simp only [Option.map_some, agrees]
      split
      case isTrue =>
        rw [← List.map_set]
        exact ih _ _
      case isFalse => exact List.map_set.symm

theorem siftDown_map (fuel : Nat) (heap : List α) (hole : Nat) :
    siftDown less' fuel (heap.map rename) hole =
      ((siftDown less fuel heap hole).1.map rename,
        (siftDown less fuel heap hole).2) := by
  induction fuel generalizing heap hole with
  | zero => rfl
  | succ fuel ih =>
    unfold siftDown
    rw [List.getElem?_map, List.getElem?_map]
    cases heap[2 * hole + 1]? with
    | none => rfl
    | some first =>
      cases heap[2 * hole + 2]? with
      | none =>
        simp only [Option.map_some, Option.map_none]
        rw [List.map_set]
      | some second =>
        simp only [Option.map_some, agrees]
        split
        case isTrue =>
          rw [← List.map_set]
          exact ih _ _
        case isFalse =>
          rw [← List.map_set]
          exact ih _ _

theorem push_map (heap : List α) (value : α) :
    push less' (heap.map rename) (rename value) =
      (push less heap value).map rename := by
  unfold push
  rw [List.length_map, ← siftUp_map agrees, List.map_append]
  rfl

theorem pop_map (heap : List α) : pop less' (heap.map rename) =
      (pop less heap).map fun popped =>
        (rename popped.1, popped.2.map rename) := by
  cases heap with
  | nil => rfl
  | cons top rest =>
    have refilled : ∀ value,
        refill less' ((top :: rest).map rename).dropLast (rename value) =
          (refill less (top :: rest).dropLast value).map rename := by
      intro value
      unfold refill
      dsimp only
      rw [← List.map_dropLast, List.length_map, siftDown_map agrees]
      exact siftUp_map agrees _ _ _ _
    rw [List.map_cons] at refilled ⊢
    rw [pop, pop, List.getLast?_map]
    cases rest.getLast? with
    | none => rfl
    | some value =>
      simp only [Option.map_some]
      rw [refilled]

theorem drain_map (fuel : Nat) (heap : List α) :
    drain less' fuel (heap.map rename) = (drain less fuel heap).map rename := by
  induction fuel generalizing heap with
  | zero => rfl
  | succ fuel ih =>
    unfold drain
    rw [pop_map agrees]
    cases pop less heap with
    | none => rfl
    | some popped =>
      simp only [Option.map_some, List.map_cons]
      rw [ih]

end Map

/-! ## Heaps of equal elements -/

section Equal

theorem siftUp_equal (fuel : Nat) (heap : List α) (hole : Nat) (value : α) :
    siftUp (fun _ _ => false) fuel heap hole value = heap.set hole value := by
  cases fuel with
  | zero => rfl
  | succ fuel =>
    unfold siftUp
    split
    case h_1 => exact if_neg fun rises => Bool.false_ne_true rises.2
    case h_2 => rfl

/-- Equal elements stay in the order in which they are pushed. -/
theorem build_equal (elements heap : List α) :
    elements.foldl (push fun _ _ => false) heap = heap ++ elements := by
  induction elements generalizing heap with
  | nil => exact (List.append_nil heap).symm
  | cons element elements ih =>
    have pushed : push (fun _ _ => false) heap element = heap ++ [element] := by
      unfold push
      rw [siftUp_equal, List.set_append_right _ _ (Nat.le_refl _), Nat.sub_self]
      rfl
    rw [List.foldl_cons, ih, pushed, List.append_assoc]
    rfl

theorem siftDown_top (below : 0 < hole) : 0 < (siftDown less fuel heap hole).2 ∧
      (siftDown less fuel heap hole).1[0]? = heap[0]? := by
  have kept : ∀ element, (heap.set hole element)[0]? = heap[0]? :=
    fun element => List.getElem?_set_ne (by omega)
  induction fuel generalizing heap hole with
  | zero => exact ⟨below, rfl⟩
  | succ fuel ih =>
    have moved : ∀ child element, 0 < child →
        0 < (siftDown less fuel (heap.set hole element) child).2 ∧
          (siftDown less fuel (heap.set hole element) child).1[0]? =
            heap[0]? := by
      intro child element under
      rw [← kept element]
      exact ih under fun _ => List.getElem?_set_ne (by omega)
    unfold siftDown
    split
    case h_1 first second _ _ =>
      split
      case isTrue => exact moved _ first (by omega)
      case isFalse => exact moved _ second (by omega)
    case h_2 only _ _ => exact ⟨by dsimp only; omega, kept only⟩
    case h_3 => exact ⟨below, rfl⟩

/-- The element that is first in a heap is popped first. -/
theorem drain_top {top : α} (first : heap[0]? = some top) :
    ∃ later, drain less (fuel + 1) heap = top :: later := by
  cases heap with
  | nil => cases first
  | cons other rest =>
    obtain rfl := Option.some.inj first
    unfold drain
    rw [pop]
    cases rest.getLast? with
    | none => exact ⟨_, rfl⟩
    | some value => exact ⟨_, rfl⟩

/-- Of four equal elements or more the third one is popped second. -/
theorem drain_equal (first second third fourth : α) (others : List α) :
    ∃ later, drain (fun _ _ => false) (others.length + 4)
      (first :: second :: third :: fourth :: others) =
        first :: third :: later := by
  have refilled : ∀ middle value, (refill (fun _ _ => false)
      (first :: second :: third :: middle) value)[0]? = some third := by
    intro middle value
    obtain ⟨below, top⟩ := @siftDown_top α
      (third :: second :: third :: middle) 2 (middle.length + 2)
      (fun _ _ => false) (by omega)
    have sunk : siftDown (fun _ _ => false) (middle.length + 3)
        (first :: second :: third :: middle) 0 =
          siftDown (fun _ _ => false) (middle.length + 2)
            (third :: second :: third :: middle) 2 := rfl
    unfold refill
    dsimp only [List.length_cons]
    rw [siftUp_equal, sunk, List.getElem?_set_ne (Nat.ne_of_gt below), top]
    rfl
  unfold drain
  rw [pop, List.getLast?_cons_cons, List.getLast?_cons_cons]
  cases last : (fourth :: others).getLast? with
  | none => cases List.getLast?_eq_none_iff.mp last
  | some value =>
    obtain ⟨later, drained⟩ := @drain_top α _ (others.length + 2)
      (fun _ _ => false) third (refilled (fourth :: others).dropLast value)
    exact ⟨later, congrArg (first :: ·) drained⟩

end Equal

end Libnei.Lib.BinaryHeap

import Mathlib.Data.List.Basic
import Mathlib.Data.Nat.Init
import Mathlib.Logic.Function.Basic

/-!
# Named files and numbered backups

A disk as a partial map from paths to contents, and a row of numbered files in
which every file moves up by one place.
-/

namespace Libnei.Lib

abbrev Files (Path Content : Type) := Path → Option Content

namespace Files

variable {Path Content : Type} [DecidableEq Path]

def remove (files : Files Path Content) (path : Path) : Files Path Content :=
  Function.update files path none

/-- Nothing changes where there is no file `source`. -/
def rename (files : Files Path Content) (source target : Path) :
    Files Path Content :=
  match files source with
  | none => files
  | some content =>
      Function.update (Function.update files target (some content)) source none

def write (files : Files Path Content) (path : Path) (content : Content) :
    Files Path Content :=
  Function.update files path (some content)

/-- The file `source` takes the place of the file `target`. -/
def replace (files : Files Path Content) (source target : Path) :
    Files Path Content :=
  (files.remove target).rename source target

/-- The files with the numbers `1` to `last - 1` move up by one place, the
highest first. -/
def shift (path : Nat → Path) : Nat → Files Path Content → Files Path Content
  | last + 2, files =>
      shift path (last + 1)
        (files.replace (path (last + 1)) (path (last + 2)))
  | _, files => files

variable {files : Files Path Content} {source target : Path}

section

variable (different : source ≠ target)

include different

theorem replace_eq : files.replace source target =
      Function.update (Function.update files target (files source))
        source none := by
  have kept : files.remove target source = files source :=
    Function.update_of_ne different ..
  rw [replace, rename, kept]
  cases found : files source with
  | none =>
    dsimp only
    rw [remove, eq_comm, Function.update_eq_self_iff, eq_comm]
    exact (Function.update_of_ne different ..).trans found
  | some content =>
    dsimp only
    rw [remove, Function.update_idem]

theorem replace_target :
    files.replace source target target = files source := by
  rw [replace_eq different, Function.update_of_ne different.symm,
    Function.update_self]

theorem replace_source :
    files.replace source target source = none := by
  rw [replace_eq different, Function.update_self]

end

variable {path : Path} {last : Nat}

theorem replace_of_ne (different : source ≠ target) (notSource : path ≠ source)
    (notTarget : path ≠ target) :
    files.replace source target path = files path := by
  rw [replace_eq different, Function.update_of_ne notSource,
    Function.update_of_ne notTarget]

section Shift

variable {number : Nat → Path} (distinct : Function.Injective number)
include distinct

theorem shift_of_ne
    (outside : ∀ index, 0 < index → index ≤ last → path ≠ number index) :
    shift number last files path = files path := by
  induction last using Nat.twoStepInduction generalizing files with
  | zero => rfl
  | one => rfl
  | more last _ ih =>
    rw [shift, ih fun index positive le =>
      outside index positive (Nat.le_succ_of_le le)]
    exact replace_of_ne (distinct.ne (Nat.succ_ne_self _).symm)
      (outside _ (Nat.succ_pos _) (Nat.le_succ _))
      (outside _ (Nat.succ_pos _) (Nat.le_refl _))

theorem shift_succ {index : Nat} (positive : 0 < index) (below : index < last) :
    shift number last files (number (index + 1)) = files (number index) := by
  induction last using Nat.twoStepInduction generalizing files with
  | zero => exact absurd below (Nat.not_lt_zero _)
  | one => omega
  | more last _ ih =>
    have apart := distinct.ne (Nat.succ_ne_self (last + 1)).symm
    rw [shift]
    by_cases top : index = last + 1
    · subst top
      rw [shift_of_ne distinct fun other _ le =>
        distinct.ne (by omega)]
      exact replace_target apart
    · rw [ih (by omega)]
      exact replace_of_ne apart (distinct.ne (by omega))
        (distinct.ne (by omega))

end Shift

/-- The contents of the files `last` to `1`. -/
def numbered (files : Files Path Content) (path : Nat → Path) (last : Nat) :
    List Content :=
  (List.range last).reverse.filterMap fun index => files (path (index + 1))

/-- A row of files with newer ones in front of it. -/
def shelf (row : Nat → Option Content) : List Content → Nat → Option Content
  | [], index => row index
  | content :: _, 0 => some content
  | _ :: contents, index + 1 => shelf row contents index

theorem filterMap_shelf (row : Nat → Option Content) (contents : List Content)
    (last : Nat) :
    (List.range last).filterMap (shelf row contents) <+:
      contents ++ (List.range last).filterMap row := by
  induction contents generalizing last with
  | nil => exact List.prefix_refl _
  | cons content contents ih =>
    cases last with
    | zero => exact List.nil_prefix
    | succ last =>
      have front := ih last
      rw [List.range_succ_eq_map, List.filterMap_cons, List.filterMap_map,
        ← List.range_succ_eq_map, List.range_succ, List.filterMap_append]
      refine (List.prefix_cons_inj content).mpr (front.trans ?_)
      exact ⟨_, List.append_assoc ..⟩

omit [DecidableEq Path] in
/-- Newer files push the oldest ones out of a row. -/
theorem numbered_shelf {path : Nat → Path} {before : Files Path Content}
    {contents : List Content}
    (row : ∀ index < last, files (path (index + 1)) =
      shelf (fun index => before (path (index + 1))) contents.reverse index) :
    files.numbered path last <:+ before.numbered path last ++ contents := by
  have shelved : (List.range last).filterMap
      (fun index => files (path (index + 1))) =
        (List.range last).filterMap (shelf (fun index =>
          before (path (index + 1))) contents.reverse) :=
    List.filterMap_congr fun index member =>
      row index (List.mem_range.mp member)
  have front := filterMap_shelf (fun index => before (path (index + 1)))
    contents.reverse last
  rw [← shelved, ← List.reverse_suffix, List.reverse_append,
    List.reverse_reverse] at front
  rw [numbered, numbered, List.filterMap_reverse, List.filterMap_reverse]
  exact front

end Files

end Libnei.Lib

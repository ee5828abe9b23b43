import Libnei.Lib.Segments
import Libnei.Text

/-!
# The shape of a path

The paths of `path_util.c` have two separators and an optional drive letter.
A path is a string of C without its zero byte.
-/

namespace Libnei.Path

open Lib

def isSeparator (char : UInt8) : Bool :=
  char == '/'.toUInt8 || char == '\\'.toUInt8

def colon : UInt8 := ':'.toUInt8

def dot : Bytes := ascii "."

def hasDrive : Bytes → Bool
  | letter :: next :: _ => isAlpha letter && next == colon
  | _ => false

def isAbsolute (path : Bytes) : Bool :=
  path.head?.any isSeparator || hasDrive path

/-- `none`, `/`, and a drive with or without a separator behind it. -/
structure Root where
  drive : Option UInt8
  rooted : Bool
  deriving DecidableEq

/-- What stands behind the drive. -/
def body (path : Bytes) : Bytes :=
  if hasDrive path then path.drop 2 else path

def rootOf (path : Bytes) : Root where
  drive := if hasDrive path then path.head? else none
  rooted := (body path).head?.any isSeparator

def components (path : Bytes) : List Bytes :=
  segments isSeparator (body path)

def endsInSeparator (path : Bytes) : Bool :=
  path.getLast?.any isSeparator

/-! ## Separators -/

theorem not_isAlpha {char : UInt8} (separates : isSeparator char = true) :
    isAlpha char = false ∧ (char == colon) = false := by
  have all : ∀ code : Fin 256, isSeparator (UInt8.ofFin code) = true →
      isAlpha (UInt8.ofFin code) = false ∧
        (UInt8.ofFin code == colon) = false := by
    decide +kernel
  exact all char.toFin separates

theorem isSeparator_slash : isSeparator '/'.toUInt8 = true := rfl

variable {sep : UInt8}

theorem hasDrive_append_sep (separates : isSeparator sep = true)
    (front rest : Bytes) :
    hasDrive (front ++ sep :: rest) = hasDrive front := by
  obtain ⟨notLetter, notColon⟩ := not_isAlpha separates
  match front with
  | [] => cases rest <;> simp [hasDrive, notLetter]
  | [letter] => simp [hasDrive, notColon]
  | letter :: next :: front => rfl

theorem length_of_hasDrive {path : Bytes} (drive : hasDrive path = true) :
    2 ≤ path.length := by
  match path with
  | [] | [_] => simp [hasDrive] at drive
  | _ :: _ :: path => simp

variable (separates : isSeparator sep = true)

include separates

theorem body_append_sep (front rest : Bytes) :
    body (front ++ sep :: rest) = body front ++ sep :: rest := by
  rw [body, body, hasDrive_append_sep separates]
  split
  · case isTrue drive =>
    exact List.drop_append_of_le_length (length_of_hasDrive drive)
  · rfl

theorem components_append_sep (front rest : Bytes) :
    components (front ++ sep :: rest) =
      components front ++ segments isSeparator rest := by
  rw [components, body_append_sep separates, segments_append_sep separates]
  rfl

/-- A separator behind a drive or at the very front makes the path rooted. -/
theorem rootOf_append_sep (front rest : Bytes) : rootOf (front ++ sep :: rest) =
      ⟨(rootOf front).drive, body front == [] || (rootOf front).rooted⟩ := by
  have drive : (if hasDrive front then (front ++ sep :: rest).head?
      else none) = if hasDrive front then front.head? else none := by
    cases front with
    | nil => rfl
    | cons => rfl
  simp only [rootOf, hasDrive_append_sep separates, drive,
    body_append_sep separates]
  cases body front with
  | nil => simp [separates]
  | cons char rest => simp

end Libnei.Path

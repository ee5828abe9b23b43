import Libnei.Path.Shape
import Mathlib.Data.List.DropRight

/-!
# Splitting and joining paths

`nei_path_dirname`, `nei_path_basename` and `nei_path_join` with buffers that
are large enough.
-/

namespace Libnei.Path

open Lib

/-- Strip trailing separators, but keep the first character. -/
def stripTrailing : Bytes → Bytes
  | [] => []
  | first :: rest => first :: rest.rdropWhile isSeparator

/-- `find_last_sep`: what stands in front of the last separator, the
separator, and what stands behind it. -/
def findLastSep : Bytes → Option (Bytes × UInt8 × Bytes)
  | [] => none
  | char :: rest =>
      match findLastSep rest with
      | some (front, sep, behind) => some (char :: front, sep, behind)
      | none => if isSeparator char then some ([], char, rest) else none

def dirname (path : Bytes) : Bytes :=
  if path = [] then dot
  else
    match findLastSep (stripTrailing path) with
    | none => dot
    | some (front, sep, _) =>
        if front = [] then path.take 1
        else if front.length = 2 ∧ path[1]? = some colon then front ++ [sep]
        else
          let directory := front.rdropWhile isSeparator
          if directory = [] then path.take 1 else directory

def basename (path : Bytes) : Bytes :=
  match findLastSep (stripTrailing path) with
  | none => stripTrailing path
  | some (_, _, behind) => behind

def join (first second : Bytes) : Bytes :=
  if isAbsolute second then second
  else if first ≠ [] ∧ ¬endsInSeparator first then
    first ++ '/'.toUInt8 :: second
  else first ++ second

/-- The root and the components that name something. -/
def shape (path : Bytes) : Root × List Bytes :=
  (rootOf path, (components path).filter (· != dot))

/-- A drive with nothing but separators behind it, or a last component behind
a separator that starts like a drive. -/
def misread (path : Bytes) : Bool :=
  ((rootOf path).drive.isSome && (rootOf path).rooted &&
      components path == []) ||
    ((components path).getLast?.any hasDrive &&
      ((rootOf path).rooted || decide (2 ≤ (components path).length)))

/-! ## The pieces of a path -/

theorem findLastSep_none {text : Bytes} (absent : findLastSep text = none) :
    ∀ char ∈ text, isSeparator char = false := by
  induction text with
  | nil => simp
  | cons char rest ih =>
    rw [findLastSep] at absent
    split at absent
    · simp at absent
    · case h_2 later =>
      split at absent
      · simp at absent
      · case isFalse plain =>
        intro other member
        rcases List.mem_cons.mp member with rfl | member
        · simpa using plain
        · exact ih later other member

variable {path name seps front : Bytes} {sep : UInt8}

theorem findLastSep_some {text behind : Bytes}
    (found : findLastSep text = some (front, sep, behind)) :
    text = front ++ sep :: behind ∧ isSeparator sep = true ∧
      ∀ char ∈ behind, isSeparator char = false := by
  induction text generalizing front with
  | nil => simp [findLastSep] at found
  | cons char rest ih =>
    rw [findLastSep] at found
    split at found
    · case h_1 later _ _ deeper =>
      cases found
      obtain ⟨rfl, separates, plain⟩ := ih deeper
      exact ⟨rfl, separates, plain⟩
    · case h_2 later =>
      split at found
      · case isTrue separates =>
        cases found
        exact ⟨rfl, separates, findLastSep_none later⟩
      · simp at found

theorem not_endsInSeparator_rdropWhile (text : Bytes) :
    endsInSeparator (text.rdropWhile isSeparator) = false := by
  by_cases empty : text.rdropWhile isSeparator = []
  · rw [empty]
    rfl
  · have plain := List.rdropWhile_last_not isSeparator text empty
    rw [endsInSeparator, List.getLast?_eq_some_getLast empty]
    simpa using plain

/-- A path is its stripped part and separators behind it.  Behind its first
character the stripped part does not end in a separator. -/
theorem stripTrailing_spec (present : path ≠ []) :
    ∃ first rest seps, stripTrailing path = first :: rest ∧
      path = first :: rest ++ seps ∧
      (∀ sep ∈ seps, isSeparator sep = true) ∧
      endsInSeparator rest = false := by
  obtain ⟨first, tail, rfl⟩ := List.exists_cons_of_ne_nil present
  refine ⟨first, tail.rdropWhile isSeparator, tail.rtakeWhile isSeparator,
    rfl, ?_, fun _ member => List.mem_rtakeWhile_imp member,
    not_endsInSeparator_rdropWhile tail⟩
  rw [List.cons_append, List.rdropWhile_append_rtakeWhile]

/-- The three forms of a path, with what `dirname` and `basename` make of
them. -/
inductive Pieces (path : Bytes) : Prop
  | root (sep : UInt8) (seps : Bytes) (path_eq : path = sep :: seps)
      (separate : ∀ other ∈ sep :: seps, isSeparator other = true)
      (dirname_eq : dirname path = [sep]) (basename_eq : basename path = [])
  | single (name seps : Bytes) (path_eq : path = name ++ seps)
      (present : name ≠ []) (plain : ∀ char ∈ name, isSeparator char = false)
      (separate : ∀ sep ∈ seps, isSeparator sep = true)
      (dirname_eq : dirname path = dot) (basename_eq : basename path = name)
  | nested (front : Bytes) (sep : UInt8) (name seps : Bytes)
      (path_eq : path = front ++ sep :: (name ++ seps))
      (present : name ≠ []) (plain : ∀ char ∈ name, isSeparator char = false)
      (separates : isSeparator sep = true)
      (separate : ∀ sep ∈ seps, isSeparator sep = true)
      (found : findLastSep (stripTrailing path) = some (front, sep, name))

theorem pieces (present : path ≠ []) : Pieces path := by
  obtain ⟨first, rest, seps, stripped, path_eq, separate, notLast⟩ :=
    stripTrailing_spec present
  rcases found : findLastSep (stripTrailing path) with
    _ | ⟨front, sep, name⟩
  · refine .single (first :: rest) seps path_eq (by simp) ?_ separate ?_ ?_
    · exact stripped ▸ findLastSep_none found
    · simp [dirname, present, found]
    · rw [basename, found]
      exact stripped
  · obtain ⟨text_eq, separates, plain⟩ := findLastSep_some found
    rw [stripped] at text_eq
    rcases name with _ | ⟨char, name⟩
    · -- the stripped part is one separator
      obtain rfl : front = [] := by
        rcases front with _ | ⟨other, front⟩
        · rfl
        · rw [List.cons_append, List.cons.injEq] at text_eq
          rw [text_eq.2, endsInSeparator] at notLast
          simp [separates] at notLast
      obtain ⟨rfl, rfl⟩ : first = sep ∧ rest = [] := by simpa using text_eq
      refine .root first seps path_eq ?_ ?_ ?_
      · intro other member
        rcases List.mem_cons.mp member with rfl | member
        · exact separates
        · exact separate other member
      · simp only [dirname, present, if_false, found, if_true]
        rw [path_eq]
        rfl
      · simp [basename, found]
    · refine .nested front sep (char :: name) seps ?_ (by simp) plain
        separates separate found
      rw [path_eq, text_eq, List.append_assoc]
      rfl

/-! ## Joining the pieces -/

theorem isAbsolute_of_plain (plain : ∀ char ∈ name, isSeparator char = false) :
    isAbsolute name = hasDrive name := by
  cases name with
  | nil => rfl
  | cons char rest => simp [isAbsolute, plain char List.mem_cons_self]

theorem join_of_endsInSeparator {first second : Bytes}
    (relative : isAbsolute second = false)
    (ends : endsInSeparator first = true) :
    join first second = first ++ second := by
  simp [join, relative, ends]

theorem join_of_not_endsInSeparator {first second : Bytes}
    (relative : isAbsolute second = false) (present : first ≠ [])
    (notEnds : endsInSeparator first = false) :
    join first second = first ++ '/'.toUInt8 :: second := by
  simp [join, relative, present, notEnds]

/-- The directory is joined again with one separator, whatever stood
there. -/
theorem join_dirname_nested (path_eq : path = front ++ sep :: (name ++ seps))
    (separates : isSeparator sep = true)
    (found : findLastSep (stripTrailing path) = some (front, sep, name))
    (relative : isAbsolute name = false) :
    ∃ other, isSeparator other = true ∧ join (dirname path) name =
        front.rdropWhile isSeparator ++ other :: name := by
  have present : path ≠ [] := by simp [path_eq]
  have single : ∀ other, isSeparator other = true →
      join [other] name = [] ++ other :: name := fun other separates =>
    join_of_endsInSeparator relative (by simp [endsInSeparator, separates])
  simp only [dirname, present, if_false, found]
  split
  · case isTrue empty =>
    subst empty
    refine ⟨sep, separates, ?_⟩
    rw [path_eq]
    exact single sep separates
  · case isFalse someFront =>
    split
    · case isTrue drive =>
      obtain ⟨two, second⟩ := drive
      obtain ⟨letter, next, rfl⟩ := List.length_eq_two.mp two
      obtain rfl : next = colon := by simpa [path_eq] using second
      refine ⟨sep, separates, ?_⟩
      have kept : List.rdropWhile isSeparator [letter, colon] =
          [letter, colon] :=
        List.rdropWhile_concat_neg isSeparator [letter] colon (by decide)
      rw [kept]
      exact join_of_endsInSeparator relative
        (by simp [endsInSeparator, separates])
    · split
      · case isTrue onlySeparators =>
        obtain ⟨other, rest, rfl⟩ :=
          List.exists_cons_of_ne_nil someFront
        have first : isSeparator other = true :=
          (List.rdropWhile_eq_nil_iff.mp onlySeparators) other
            List.mem_cons_self
        refine ⟨other, first, ?_⟩
        rw [onlySeparators, path_eq]
        exact single other first
      · case isFalse directory =>
        exact ⟨'/'.toUInt8, isSeparator_slash,
          join_of_not_endsInSeparator relative directory
            (not_endsInSeparator_rdropWhile front)⟩

/-! ## Shapes -/

/-- The shape does not see which separators stand between two parts. -/
theorem shape_congr {first second : UInt8}
    (firstSeparates : isSeparator first = true)
    (secondSeparates : isSeparator second = true) {left right : Bytes}
    (same : segments isSeparator left = segments isSeparator right) :
    shape (front ++ first :: left) = shape (front ++ second :: right) := by
  simp only [shape, rootOf_append_sep firstSeparates,
    rootOf_append_sep secondSeparates, components_append_sep firstSeparates,
    components_append_sep secondSeparates, same]

section

variable (present : name ≠ []) (plain : ∀ char ∈ name, isSeparator char = false)
  (separate : ∀ sep ∈ seps, isSeparator sep = true)

include present plain separate

theorem segments_name :
    segments isSeparator (name ++ seps) = [name] := by
  rw [segments_append_seps separate, segments_of_plain plain present]

/-- A path with a separator in it can be cut behind its last part that is not
a separator. -/
theorem nested_eq (separates : isSeparator sep = true) :
    ∃ other rest, isSeparator other = true ∧
      segments isSeparator rest = [name] ∧
      front ++ sep :: (name ++ seps) =
        front.rdropWhile isSeparator ++ other :: rest := by
  have parts := @List.rdropWhile_append_rtakeWhile _ isSeparator front
  have between := fun char => @List.mem_rtakeWhile_imp _ isSeparator front char
  have names := segments_name present plain separate
  rcases equal : front.rtakeWhile isSeparator with _ | ⟨other, others⟩
  · rw [equal, List.append_nil] at parts
    exact ⟨sep, name ++ seps, separates, names, by rw [parts]⟩
  · rw [equal] at parts between
    refine ⟨other, others ++ sep :: (name ++ seps),
      between other List.mem_cons_self, ?_, ?_⟩
    · rw [segments_seps fun char member =>
        between char (List.mem_cons_of_mem other member),
        segments_sep separates, names]
    · nth_rewrite 1 [← parts]
      simp

end

/-! ## The three forms -/

theorem exists_of_hasDrive (drive : hasDrive name = true) :
    ∃ letter next rest, name = letter :: next :: rest := by
  match name with
  | [] | [_] => simp [hasDrive] at drive
  | letter :: next :: rest => exact ⟨letter, next, rest, rfl⟩

theorem shape_root (path_eq : path = sep :: seps)
    (separate : ∀ other ∈ sep :: seps, isSeparator other = true) :
    shape (join [sep] []) = shape path ∧ misread path = false := by
  have separates := separate sep List.mem_cons_self
  have rest : segments isSeparator seps = segments isSeparator [] := by
    have dropped := segments_seps (fun other member =>
      separate other (List.mem_cons_of_mem sep member)) []
    rwa [List.append_nil] at dropped
  have whole : path = [] ++ sep :: seps := path_eq
  have none : components path = [] := by
    rw [whole, components_append_sep separates, rest]
    rfl
  refine ⟨?_, ?_⟩
  · rw [join_of_endsInSeparator rfl (by simp [endsInSeparator, separates]),
      whole]
    exact @shape_congr [] sep sep separates separates [] seps rest.symm
  · have noDrive : (rootOf path).drive = Option.none := by
      rw [whole, rootOf_append_sep separates]
      rfl
    simp [misread, none, noDrive]

/-- A name without a drive keeps its shape behind `./`. -/
theorem shape_single (path_eq : path = name ++ seps) (present : name ≠ [])
    (plain : ∀ char ∈ name, isSeparator char = false)
    (separate : ∀ sep ∈ seps, isSeparator sep = true)
    (noDrive : hasDrive name = false) :
    shape (join dot name) = shape path ∧ misread path = false := by
  have relative : isAbsolute name = false := by
    rw [isAbsolute_of_plain plain, noDrive]
  have pathDrive : hasDrive path = false := by
    cases seps with
    | nil => rw [path_eq, List.append_nil, noDrive]
    | cons sep seps =>
      rw [path_eq, hasDrive_append_sep (separate sep List.mem_cons_self),
        noDrive]
  have whole : body path = name ++ seps := by
    rw [body, pathDrive, if_neg Bool.false_ne_true, path_eq]
  have names : components path = [name] := by
    rw [components, whole]
    exact segments_name present plain separate
  have root : rootOf path = ⟨none, false⟩ := by
    obtain ⟨char, rest, rfl⟩ := List.exists_cons_of_ne_nil present
    simp [rootOf, whole, pathDrive, plain char List.mem_cons_self]
  refine ⟨?_, by simp [misread, names, root]⟩
  rw [join_of_not_endsInSeparator relative (by decide) (by decide), shape,
    shape, rootOf_append_sep isSeparator_slash,
    components_append_sep isSeparator_slash, segments_of_plain plain present,
    root, names]
  rfl

/-- A drive is a name of its own; a separator behind it is lost. -/
theorem shape_drive (path_eq : path = name ++ seps)
    (plain : ∀ char ∈ name, isSeparator char = false)
    (separate : ∀ sep ∈ seps, isSeparator sep = true)
    (drive : hasDrive name = true) :
    shape (join dot name) = shape path ↔ misread path = false := by
  obtain ⟨letter, next, rest, rfl⟩ := exists_of_hasDrive drive
  have pathDrive : hasDrive path = true := by
    rw [path_eq]
    exact drive
  have absolute : join dot (letter :: next :: rest) =
      letter :: next :: rest := by
    rw [join, isAbsolute_of_plain plain, drive, if_pos rfl]
  have nameBody : body (letter :: next :: rest) = rest := by
    simp [body, drive]
  have pathBody : body path = rest ++ seps := by
    rw [body, pathDrive, path_eq]
    rfl
  have same : components path = components (letter :: next :: rest) := by
    rw [components, components, pathBody, nameBody,
      segments_append_seps separate]
  have nameRoot : rootOf (letter :: next :: rest) =
      ⟨some letter, rest.head?.any isSeparator⟩ := by
    simp [rootOf, drive, nameBody]
  have pathRoot : rootOf path =
      ⟨some letter, (rest ++ seps).head?.any isSeparator⟩ := by
    rw [rootOf, pathBody, pathDrive, path_eq]
    rfl
  rw [absolute, shape, shape, same]
  cases rest with
  | nil =>
    have none : components [letter, next] = [] := by
      rw [components, nameBody]
      rfl
    simp [misread, same, none, nameRoot, pathRoot]
  | cons char rest =>
    have plainChar := plain char (by simp)
    have one : components (letter :: next :: char :: rest) =
        [char :: rest] := by
      rw [components, nameBody, segments_of_plain _ (by simp)]
      intro other member
      exact plain other (by simp_all)
    simp [misread, same, one, nameRoot, pathRoot, plainChar]

theorem shape_nested (path_eq : path = front ++ sep :: (name ++ seps))
    (present : name ≠ []) (plain : ∀ char ∈ name, isSeparator char = false)
    (separates : isSeparator sep = true)
    (separate : ∀ sep ∈ seps, isSeparator sep = true)
    (found : findLastSep (stripTrailing path) = some (front, sep, name)) :
    shape (join (dirname path) name) = shape path ↔ misread path = false := by
  have names : components path = components front ++ [name] := by
    rw [path_eq, components_append_sep separates,
      segments_name present plain separate]
  cases drive : hasDrive name with
  | false =>
    have relative : isAbsolute name = false := by
      rw [isAbsolute_of_plain plain, drive]
    obtain ⟨other, otherSeparates, joined⟩ :=
      join_dirname_nested path_eq separates found relative
    obtain ⟨another, rest, anotherSeparates, restNames, cut⟩ :=
      @nested_eq name seps front sep present plain separate separates
    refine iff_of_true ?_ (by simp [misread, names, drive])
    rw [joined, path_eq, cut]
    refine shape_congr otherSeparates anotherSeparates ?_
    rw [restNames, segments_of_plain plain present]
  | true =>
    refine iff_of_false ?_ ?_
    · intro same
      rw [join, isAbsolute_of_plain plain, drive, if_pos rfl] at same
      have filtered : (components name).filter (· != dot) =
          (components path).filter (· != dot) :=
        congrArg Prod.snd same
      obtain ⟨letter, next, rest, rfl⟩ := exists_of_hasDrive drive
      have notDot : (letter :: next :: rest != dot) = true := by
        simp [dot, ascii]
      have last : letter :: next :: rest ∈ components path := by
        rw [names]
        exact List.mem_append_right _ (List.mem_singleton.mpr rfl)
      have kept : letter :: next :: rest ∈
          (components path).filter (· != dot) :=
        List.mem_filter.mpr ⟨last, notDot⟩
      rw [← filtered] at kept
      have member := (List.mem_filter.mp kept).1
      rw [components, body, drive, if_pos rfl] at member
      have shorter := length_le_of_mem_segments member
      simp only [List.drop_succ_cons, List.drop_zero,
        List.length_cons] at shorter
      omega
    · have behind : (rootOf path).rooted = true ∨
          2 ≤ (components path).length := by
        rw [names, path_eq, rootOf_append_sep separates]
        rcases equal : body front with _ | ⟨char, rest⟩
        · exact .inl rfl
        · cases charSeparates : isSeparator char with
          | true => exact .inl (by simp [rootOf, equal, charSeparates])
          | false =>
            have some := segments_ne_nil charSeparates rest
            rw [← equal] at some
            have length := List.length_pos_iff.mpr some
            right
            rw [List.length_append]
            exact Nat.succ_le_succ length
      rcases behind with rooted | several <;>
        simp_all [misread]

/-- Splitting and joining a path keep its shape, unless a drive is taken for a
name or a name for a drive. -/
theorem shape_join_dirname_basename {path : Bytes} (present : path ≠ []) :
    shape (join (dirname path) (basename path)) = shape path ↔
      misread path = false := by
  cases pieces present with
  | root sep seps path_eq separate dirname_eq basename_eq =>
      obtain ⟨same, notMisread⟩ := shape_root path_eq separate
      rw [dirname_eq, basename_eq]
      exact iff_of_true same notMisread
  | single name seps path_eq someName plain separate dirname_eq
      basename_eq =>
      rw [dirname_eq, basename_eq]
      cases drive : hasDrive name with
      | false =>
          obtain ⟨same, notMisread⟩ :=
            shape_single path_eq someName plain separate drive
          exact iff_of_true same notMisread
      | true => exact shape_drive path_eq plain separate drive
  | nested front sep name seps path_eq someName plain separates separate
      found =>
      have name_eq : basename path = name := by rw [basename, found]
      rw [name_eq]
      exact shape_nested path_eq someName plain separates separate found

theorem shape_join_dirname_basename_nested :
    ascii "C://a//b/" ≠ [] ∧
      shape (join (dirname (ascii "C://a//b/"))
        (basename (ascii "C://a//b/"))) = shape (ascii "C://a//b/") :=
  ⟨by decide, (shape_join_dirname_basename (by decide)).mpr (by decide +kernel)⟩

/-- The root of `C:/` becomes the current directory of the drive, and the
file `C:b` of a directory becomes a file of the drive. -/
theorem shape_join_drive :
    join (dirname (ascii "C:/")) (basename (ascii "C:/")) = ascii "C:" ∧
      shape (ascii "C:") ≠ shape (ascii "C:/") ∧
      join (dirname (ascii "x/C:b")) (basename (ascii "x/C:b")) =
        ascii "C:b" ∧
      shape (ascii "C:b") ≠ shape (ascii "x/C:b") := by
  decide +kernel

end Libnei.Path

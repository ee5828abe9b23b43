import Libnei.Http.SharedState

/-!
# Patterns of routes

`MatchPattern` as substitution: the parameters it returns are those that turn
the segments of the pattern into the segments of the path.  An empty segment
of the pattern is skipped, and so stands for any segment.
-/

namespace Libnei.Http

/-- The name of a `:name` segment. -/
def parameterName : Bytes → Option Bytes
  | [] => none
  | char :: name => if char = ':'.toUInt8 then some name else none

def parameterNames (pattern : List Bytes) : List Bytes :=
  pattern.filterMap parameterName

/-- A segment of the pattern with its parameter replaced. -/
def substitute (params : RouteParams) (segment : Bytes) : Option Bytes :=
  match parameterName segment with
  | some name => params.lookup name
  | none => some segment

/-- A segment of the pattern lets a segment of the path through. -/
def Fits (params : RouteParams) (pattern segment : Bytes) : Prop :=
  pattern = [] ∨ substitute params pattern = some segment

variable {params : RouteParams}

theorem fits_parameter {name segment : Bytes} :
    Fits params (':'.toUInt8 :: name) segment ↔
      params.lookup name = some segment := by
  simp [Fits, substitute, parameterName]

theorem fits_literal {char : UInt8} {rest segment : Bytes}
    (literal : char ≠ ':'.toUInt8) :
    Fits params (char :: rest) segment ↔ char :: rest = segment := by
  simp [Fits, substitute, parameterName, literal]

variable {pattern segments : List Bytes}

/-- The loop over the segments adds an entry for each parameter. -/
theorem matchSegments_eq_some_iff
    (sameLength : pattern.length = segments.length)
    (distinct : (parameterNames pattern).Nodup) (before : RouteParams) :
    matchSegments pattern segments before = some params ↔
      List.Forall₂ (Fits params) pattern segments ∧
        ∀ name, name ∉ parameterNames pattern →
          params.lookup name = before.lookup name := by
  induction pattern generalizing segments before with
  | nil =>
    obtain rfl := List.length_eq_zero_iff.mp sameLength.symm
    constructor
    · intro same
      obtain rfl := Option.some.inj same
      exact ⟨.nil, fun _ _ => rfl⟩
    · rintro ⟨-, same⟩
      exact congrArg some (Finmap.ext_lookup fun name =>
        (same name List.not_mem_nil).symm)
  | cons first pattern ih =>
    obtain ⟨segment, segments, rfl⟩ :=
      List.exists_cons_of_length_eq_add_one sameLength.symm
    have shorter : pattern.length = segments.length :=
      Nat.succ.inj sameLength
    rw [List.forall₂_cons]
    cases first with
    | nil =>
      have skipped : Fits params [] segment := .inl rfl
      rw [matchSegments, ih shorter distinct, and_iff_right skipped]
      exact Iff.rfl
    | cons char rest =>
      by_cases parameter : char = ':'.toUInt8
      · subst parameter
        have names : parameterNames ((':'.toUInt8 :: rest) :: pattern) =
            rest :: parameterNames pattern := rfl
        rw [names, List.nodup_cons] at distinct
        rw [matchSegments, if_pos rfl, ih shorter distinct.2,
          fits_parameter, names]
        constructor
        · rintro ⟨fits, others⟩
          refine ⟨⟨?_, fits⟩, fun name absent => ?_⟩
          · rw [others rest distinct.1, Finmap.lookup_insert]
          · rw [List.mem_cons, not_or] at absent
            rw [others name absent.2, Finmap.lookup_insert_of_ne _ absent.1]
        · rintro ⟨⟨found, fits⟩, others⟩
          refine ⟨fits, fun name absent => ?_⟩
          by_cases same : name = rest
          · rw [same, Finmap.lookup_insert, found]
          · rw [Finmap.lookup_insert_of_ne _ same, others]
            rw [List.mem_cons, not_or]
            exact ⟨same, absent⟩
      · have names : parameterNames ((char :: rest) :: pattern) =
            parameterNames pattern :=
          List.filterMap_cons_none (if_neg parameter)
        rw [names] at distinct
        rw [matchSegments, if_neg parameter, fits_literal parameter, names]
        split
        case isTrue same =>
          rw [ih shorter distinct, and_iff_right same]
        case isFalse other =>
          exact iff_of_false nofun fun fits => other fits.1.1

theorem matchPattern_eq_some_iff_fits {path : Bytes}
    (distinct : (parameterNames pattern).Nodup) :
    matchPattern pattern path = some params ↔
      List.Forall₂ (Fits params) pattern (splitPathSegments path) ∧
        ∀ name, name ∉ parameterNames pattern → params.lookup name = none := by
  rw [matchPattern]
  split
  case isTrue other =>
    exact iff_of_false nofun fun fits => other fits.1.length_eq.symm
  case isFalse same =>
    rw [matchSegments_eq_some_iff (not_not.mp same).symm distinct]
    simp only [Finmap.lookup_empty]

section

variable (fits : List.Forall₂ (Fits params) pattern segments)

include fits

theorem mem_of_fits {name : Bytes} (member : name ∈ parameterNames pattern) :
    name ∈ params := by
  induction fits with
  | nil => cases member
  | @cons first segment pattern segments fit fits ih =>
    cases named : parameterName first with
    | none =>
      rw [parameterNames, List.filterMap_cons_none named] at member
      exact ih member
    | some found =>
      rw [parameterNames, List.filterMap_cons_some named,
        List.mem_cons] at member
      obtain rfl | member := member
      · obtain rfl | same := fit
        · cases named
        · rw [substitute, named] at same
          exact Finmap.mem_of_lookup_eq_some same
      · exact ih member

theorem keys_eq_iff :
    (∀ name, name ∉ parameterNames pattern → params.lookup name = none) ↔
      params.keys = (parameterNames pattern).toFinset := by
  constructor
  · intro others
    ext name
    rw [Finmap.mem_keys, List.mem_toFinset]
    refine ⟨fun member => ?_, mem_of_fits fits⟩
    by_contra absent
    exact Finmap.lookup_eq_none.mp (others name absent) member
  · intro same name absent
    rw [Finmap.lookup_eq_none, ← Finmap.mem_keys, same, List.mem_toFinset]
    exact absent

end

/-- Without empty segments, the segments of the path are those of the pattern
with the parameters replaced. -/
theorem forall₂_fits_iff (full : [] ∉ pattern) :
    List.Forall₂ (Fits params) pattern segments ↔
      pattern.map (substitute params) = segments.map some := by
  induction pattern generalizing segments with
  | nil => cases segments <;> simp
  | cons first pattern ih =>
    rw [List.mem_cons, not_or] at full
    cases segments with
    | nil => simp
    | cons segment segments =>
      rw [List.forall₂_cons, List.map_cons, List.map_cons,
        List.cons.injEq, ih full.2, Fits,
        or_iff_right (Ne.symm full.1)]

/-- The parameters that are returned have an entry for each `:name` segment,
and the pattern with these in place is the path, apart from what the empty
segments of the pattern skip. -/
theorem matchPattern_substitutes {pattern path : Bytes}
    (distinct : (parameterNames (splitPathSegments pattern)).Nodup)
    (params : RouteParams) :
    (matchPattern (splitPathSegments pattern) path = some params ↔
      List.Forall₂ (fun segment found =>
          segment = [] ∨ substitute params segment = some found)
        (splitPathSegments pattern) (splitPathSegments path) ∧
      params.keys = (parameterNames (splitPathSegments pattern)).toFinset) ∧
    ([] ∉ splitPathSegments pattern →
      (matchPattern (splitPathSegments pattern) path = some params ↔
        (splitPathSegments pattern).map (substitute params) =
          (splitPathSegments path).map some ∧
        params.keys =
          (parameterNames (splitPathSegments pattern)).toFinset)) := by
  have matches_iff : matchPattern (splitPathSegments pattern) path =
      some params ↔ List.Forall₂ (Fits params) (splitPathSegments pattern)
        (splitPathSegments path) ∧ params.keys =
            (parameterNames (splitPathSegments pattern)).toFinset := by
    rw [matchPattern_eq_some_iff_fits distinct]
    exact and_congr_right keys_eq_iff
  refine ⟨matches_iff, fun full => ?_⟩
  rw [matches_iff, forall₂_fits_iff full]

theorem matchPattern_substitutes_user :
    matchPattern (splitPathSegments (ascii "/user/:id/profile"))
        (ascii "/user/42/profile/") =
      some ((∅ : RouteParams).insert (ascii "id") (ascii "42")) := by
  refine ((matchPattern_substitutes (by decide) _).1).mpr ⟨?_, ?_⟩
  · decide
  · decide

/-- `/a//:id` lets any second segment through. -/
theorem matchPattern_skips_empty :
    (parameterNames (splitPathSegments (ascii "/a//:id"))).Nodup ∧
    matchPattern (splitPathSegments (ascii "/a//:id")) (ascii "/a/x/5") =
      some ((∅ : RouteParams).insert (ascii "id") (ascii "5")) ∧
    (splitPathSegments (ascii "/a//:id")).map
        (substitute ((∅ : RouteParams).insert (ascii "id") (ascii "5"))) ≠
      (splitPathSegments (ascii "/a/x/5")).map some := by
  decide

end Libnei.Http

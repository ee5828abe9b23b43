import Mathlib.Data.List.Basic
import Mathlib.Data.List.Count
import Mathlib.Tactic.Common

/-!
# Splitting a text into arguments

The rules of the Windows command line for the arguments behind the program
name.  Blanks separate arguments outside of quotes.  In front of a quote, two
backslashes stand for one, and a backslash that is left over makes the quote
an ordinary unit; every other quote switches quoting on or off.

A text is read in two passes.  The first one settles what backslashes and
quotes mean, which does not depend on what is quoted; the second one takes
the arguments apart.
-/

namespace Libnei.Lib

structure ArgumentRules (α : Type) where
  quote : α
  backslash : α
  blank : α → Bool
  quote_ne_backslash : quote ≠ backslash
  blank_quote : blank quote = false
  blank_backslash : blank backslash = false

/-- A unit of an argument, or a switch between quoted and unquoted text. -/
inductive Symbol (α : Type)
  | unit (value : α)
  | toggle
deriving DecidableEq

namespace ArgumentRules

variable {α : Type} [DecidableEq α] (rules : ArgumentRules α)

/-- The first pass, behind `pending` backslashes. -/
def symbols (pending : Nat) : List α → List (Symbol α)
  | [] => List.replicate pending (.unit rules.backslash)
  | c :: rest =>
      if c = rules.backslash then symbols (pending + 1) rest
      else if c = rules.quote then
        List.replicate (pending / 2) (.unit rules.backslash) ++
          (if pending % 2 = 0 then .toggle else .unit rules.quote) ::
            symbols 0 rest
      else
        List.replicate pending (.unit rules.backslash) ++
          .unit c :: symbols 0 rest

/-- The second pass, inside of the argument `current` if there is one. -/
def fields (quoted : Bool) (current : Option (List α)) :
    List (Symbol α) → List (List α)
  | [] => current.toList
  | .toggle :: rest => fields (!quoted) (some (current.getD [])) rest
  | .unit c :: rest =>
      if !quoted && rules.blank c then
        current.toList ++ fields false none rest
      else fields quoted (some (current.getD [] ++ [c])) rest

def split (text : List α) : List (List α) :=
  rules.fields false none (rules.symbols 0 text)

/-! ## Backslashes and quotes -/

variable (pending : Nat)

theorem symbols_backslash (rest : List α) :
    rules.symbols pending (rules.backslash :: rest) =
      rules.symbols (pending + 1) rest :=
  if_pos rfl

theorem symbols_quote (rest : List α) :
    rules.symbols pending (rules.quote :: rest) =
      List.replicate (pending / 2) (.unit rules.backslash) ++
        (if pending % 2 = 0 then .toggle else .unit rules.quote) ::
          rules.symbols 0 rest :=
  (if_neg rules.quote_ne_backslash).trans (if_pos rfl)

variable {c : α} {text : List α}

theorem symbols_unit (backslash : c ≠ rules.backslash) (quote : c ≠ rules.quote)
    (pending : Nat) (rest : List α) :
    rules.symbols pending (c :: rest) =
      List.replicate pending (.unit rules.backslash) ++
        .unit c :: rules.symbols 0 rest :=
  (if_neg backslash).trans (if_neg quote)

theorem symbols_replicate (pending count : Nat) (rest : List α) :
    rules.symbols pending (List.replicate count rules.backslash ++ rest) =
      rules.symbols (pending + count) rest := by
  induction count generalizing pending with
  | zero => rfl
  | succ count ih =>
    rw [List.replicate_succ, List.cons_append, symbols_backslash, ih,
      Nat.add_assoc, Nat.add_comm 1]

/-- Behind a unit that is neither a backslash nor a quote the first pass
starts anew. -/
theorem symbols_append_unit (backslash : c ≠ rules.backslash)
    (quote : c ≠ rules.quote) (pending : Nat) (text rest : List α) :
    rules.symbols pending (text ++ c :: rest) =
      rules.symbols pending text ++ .unit c :: rules.symbols 0 rest := by
  induction text generalizing pending with
  | nil => exact rules.symbols_unit backslash quote pending rest
  | cons first text ih =>
    simp only [List.cons_append, symbols]
    split
    · exact ih _
    · split <;> simp [ih]

/-- Without quotes, backslashes are units like the others. -/
theorem symbols_plain (plain : rules.quote ∉ text) (pending : Nat) :
    rules.symbols pending text =
      List.replicate pending (.unit rules.backslash) ++ text.map .unit := by
  induction text generalizing pending with
  | nil => exact (List.append_nil _).symm
  | cons c text ih =>
    rw [List.mem_cons, not_or] at plain
    by_cases backslash : c = rules.backslash
    · rw [backslash, symbols_backslash, ih plain.2, List.replicate_succ']
      simp
    · rw [rules.symbols_unit backslash (Ne.symm plain.1), ih plain.2]
      rfl

/-! ## Arguments -/

omit [DecidableEq α] in
theorem fields_units {quoted : Bool} {units : List α}
    (inside : quoted = true ∨ ∀ c ∈ units, rules.blank c = false)
    (current : List α) (rest : List (Symbol α)) :
    rules.fields quoted (some current) (units.map .unit ++ rest) =
      rules.fields quoted (some (current ++ units)) rest := by
  induction units generalizing current with
  | nil => rw [List.append_nil]; rfl
  | cons c units ih =>
    have kept : ¬(!quoted && rules.blank c) = true := by
      rcases inside with rfl | all
      · exact nofun
      · simp [all c List.mem_cons_self]
    rw [List.map_cons, List.cons_append, fields, if_neg kept,
      ih (inside.imp_right fun all c member =>
        all c (List.mem_cons_of_mem _ member))]
    simp

/-- The text is split into the arguments, whatever is behind a blank that
follows it. -/
structure Parses (text : List α) (args : List (List α)) : Prop where
  whole : rules.split text = args
  front : ∀ c rest, rules.blank c = true →
    rules.fields false none (rules.symbols 0 text ++ .unit c :: rest) =
      args ++ rules.fields false none rest

namespace Parses

variable {rules}

theorem nil : rules.Parses [] [] where
  whole := rfl
  front c rest blank := by
    rw [symbols, List.replicate_zero, List.nil_append, fields]
    exact if_pos blank

theorem append {more : List α} {args others : List (List α)}
    (first : rules.Parses text args) (second : rules.Parses more others)
    (blank : rules.blank c = true) :
    rules.Parses (text ++ c :: more) (args ++ others) := by
  have backslash : c ≠ rules.backslash := by
    rintro rfl
    exact nomatch blank.symm.trans rules.blank_backslash
  have quote : c ≠ rules.quote := by
    rintro rfl
    exact nomatch blank.symm.trans rules.blank_quote
  constructor
  · rw [split, rules.symbols_append_unit backslash quote, first.front c _ blank]
    exact congrArg _ second.whole
  · intro next rest isBlank
    rw [rules.symbols_append_unit backslash quote, List.append_assoc,
      List.cons_append, first.front c _ blank, second.front next rest isBlank,
      List.append_assoc]

theorem quoted {arg : List α} (spelled : rules.symbols 0 text =
      .toggle :: (arg.map .unit ++ [.toggle])) :
    rules.Parses text [arg] := by
  have read : ∀ rest, rules.fields false none (rules.symbols 0 text ++ rest) =
      rules.fields false (some arg) rest := by
    intro rest
    rw [spelled, List.cons_append, List.append_assoc, fields, Bool.not_false,
      rules.fields_units (.inl rfl)]
    rfl
  constructor
  · rw [split, ← List.append_nil (rules.symbols 0 text), read]
    rfl
  · intro c rest blank
    rw [read, fields]
    exact if_pos blank

theorem unquoted (some : text ≠ []) (plain : rules.quote ∉ text)
    (solid : ∀ c ∈ text, rules.blank c = false) :
    rules.Parses text [text] := by
  obtain ⟨first, behind, rfl⟩ := List.exists_cons_of_ne_nil some
  rw [List.forall_mem_cons] at solid
  have read : ∀ rest, rules.fields false none
      (rules.symbols 0 (first :: behind) ++ rest) =
        rules.fields false (.some (first :: behind)) rest := by
    intro rest
    rw [rules.symbols_plain plain, List.replicate_zero, List.nil_append,
      List.map_cons, List.cons_append, fields, if_neg (by simp [solid.1]),
      rules.fields_units (.inr solid.2)]
    rfl
  constructor
  · rw [split, ← List.append_nil (rules.symbols 0 _), read]
    rfl
  · intro c rest blank
    rw [read, fields]
    exact if_pos blank

end Parses

/-! ## Counting -/

/-- A unit that is no blank is part of an argument. -/
theorem count_fields (solid : rules.blank c = false) (quoted : Bool)
    (current : Option (List α)) (symbols : List (Symbol α)) :
    (rules.fields quoted current symbols).flatten.count c =
      (current.getD []).count c + symbols.count (.unit c) := by
  fun_induction fields rules quoted current symbols with
  | case1 quoted current => cases current <;> simp
  | case2 quoted current rest ih =>
    simp [ih]
  | case3 quoted current d rest isBlank ih =>
    have other : Symbol.unit d ≠ .unit c := by
      rintro ⟨⟩
      simp [solid] at isBlank
    rw [List.flatten_append, List.count_append, ih, List.count_cons_of_ne other]
    cases current <;> simp
  | case4 quoted current d rest kept ih =>
    rw [ih, Option.getD_some, List.count_append]
    simp only [List.count_cons, List.count_nil, beq_iff_eq, Symbol.unit.injEq]
    omega

/-- Backslashes count twice, quotes once. -/
def weight (text : List α) : Nat :=
  2 * text.count rules.backslash + text.count rules.quote

def symbolWeight (symbols : List (Symbol α)) : Nat :=
  2 * symbols.count (.unit rules.backslash) + symbols.count (.unit rules.quote)

theorem weight_cons (c : α) (text : List α) :
    rules.weight (c :: text) = rules.weight text +
      if c = rules.backslash then 2 else if c = rules.quote then 1 else 0 := by
  have other := rules.quote_ne_backslash
  simp only [weight, List.count_cons, beq_iff_eq]
  split_ifs with first second
  · exact absurd (second.symm.trans first) other
  all_goals omega

theorem weight_append (text more : List α) :
    rules.weight (text ++ more) = rules.weight text + rules.weight more := by
  simp only [weight, List.count_append]
  omega

theorem symbolWeight_append (first second : List (Symbol α)) :
    rules.symbolWeight (first ++ second) =
      rules.symbolWeight first + rules.symbolWeight second := by
  simp only [symbolWeight, List.count_append]
  omega

theorem symbolWeight_units (text : List α) :
    rules.symbolWeight (text.map .unit) = rules.weight text := by
  have count : ∀ c, (text.map Symbol.unit).count (.unit c) = text.count c :=
    List.count_map_of_injective text _ fun _ _ => Symbol.unit.inj
  rw [symbolWeight, weight, count, count]

theorem symbolWeight_replicate (count : Nat) :
    rules.symbolWeight (List.replicate count (.unit rules.backslash)) =
      2 * count := by
  have other : ¬rules.backslash = rules.quote :=
    Ne.symm rules.quote_ne_backslash
  simp [symbolWeight, List.count_replicate, other]

/-- A quote behind backslashes weighs as much as there are of them. -/
theorem symbolWeight_quote (rest : List (Symbol α)) : rules.symbolWeight
        (List.replicate (pending / 2) (.unit rules.backslash) ++
          (if pending % 2 = 0 then .toggle else .unit rules.quote) :: rest) =
      pending + rules.symbolWeight rest := by
  have other := rules.quote_ne_backslash
  rw [symbolWeight_append, symbolWeight_replicate, ← List.singleton_append,
    symbolWeight_append, ← Nat.add_assoc]
  congr 1
  split
  · rw [show rules.symbolWeight [.toggle] = 0 from rfl]
    omega
  · have one : rules.symbolWeight [.unit rules.quote] = 1 := by
      simp [symbolWeight, other]
    omega

theorem weight_split (text : List α) : rules.weight (rules.split text).flatten =
      rules.symbolWeight (rules.symbols 0 text) := by
  simp [weight, symbolWeight, split, rules.count_fields rules.blank_backslash,
    rules.count_fields rules.blank_quote]

end ArgumentRules

end Libnei.Lib

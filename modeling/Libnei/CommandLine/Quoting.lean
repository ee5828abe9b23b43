import Libnei.Lib.Arguments
import Libnei.Strings.Conversions

/-!
# Quoted arguments

The two ways in which arguments become one text: `QuoteForCommandLine`
(`command_line.cpp`), joined as `GetCommandLineString` does it, and `QuoteArg`
with `BuildArgString` (`process_util_win.cpp`).
-/

namespace Libnei.Cmdline

open Lib Strings

def quoteMark : UInt16 := 0x22

def backslash : UInt16 := 0x5C

def space : UInt16 := 0x20

def tab : UInt16 := 0x09

/-- What `CommandLineToArgvW` does behind the program name. -/
def windowsRules : ArgumentRules UInt16 where
  quote := quoteMark
  backslash := backslash
  blank := fun c => c == space || c == tab
  quote_ne_backslash := by decide
  blank_quote := by decide
  blank_backslash := by decide

def needsQuotes (arg : Units) : Bool :=
  arg.any fun ch => ch == space || ch == tab || ch == quoteMark

/-! ## `command_line.cpp` -/

/-- The loop of `QuoteForCommandLine` and what is appended behind it. -/
def quoteLoop (backslashCount : Nat) : Units → Units
  | [] => List.replicate (backslashCount * 2) backslash
  | ch :: rest =>
      if ch = backslash then quoteLoop (backslashCount + 1) rest
      else if ch = quoteMark then
        List.replicate (backslashCount * 2 + 1) backslash ++
          quoteMark :: quoteLoop 0 rest
      else
        List.replicate backslashCount backslash ++ ch :: quoteLoop 0 rest

def quoteForCommandLine (arg : Units) : Units :=
  if arg = [] then [quoteMark, quoteMark]
  else if !needsQuotes arg then arg
  else quoteMark :: (quoteLoop 0 arg ++ [quoteMark])

/-- The loop of `GetCommandLineString`. -/
def joinQuoted : List Units → Units
  | [] => []
  | first :: args =>
      args.foldl (fun joined arg => joined ++ space :: quoteForCommandLine arg)
        (quoteForCommandLine first)

/-! ## `process_util_win.cpp` -/

/-- The loop of `QuoteArg`. -/
def escapeQuotes (arg : Units) : Units :=
  arg.flatMap fun ch => if ch = quoteMark then [backslash, quoteMark] else [ch]

def quoteArg (arg : Units) : Units :=
  if !needsQuotes arg then arg
  else quoteMark :: (escapeQuotes arg ++ [quoteMark])

def appendArg (out arg : Units) : Units :=
  (if out = [] then out else out ++ [space]) ++ quoteArg arg

def buildArgString (argv : List Units) (startIndex : Nat) : Units :=
  (argv.drop startIndex).foldl appendArg []

/-- A backslash stands in front of a quote or at the end; `behind` says
whether one stands in front of the text. -/
def escapes (behind : Bool) : Units → Bool
  | [] => behind
  | ch :: rest =>
      behind && ch == quoteMark || escapes (ch == backslash) rest

/-- An argument that `QuoteArg` keeps: it is not empty, and if it is quoted
then no backslash of it comes to stand in front of a quote. -/
abbrev Plain (arg : Units) : Prop :=
  arg ≠ [] ∧ (needsQuotes arg = true → escapes false arg = false)

/-! ## Arguments without quotes -/

variable {arg : Units}

theorem plain_of_needsQuotes (none : needsQuotes arg = false) :
    windowsRules.quote ∉ arg ∧
      ∀ c ∈ arg, windowsRules.blank c = false := by
  simp only [needsQuotes, List.any_eq_false, Bool.or_eq_true, beq_iff_eq,
    not_or] at none
  constructor
  · intro member
    exact (none _ member).2 rfl
  · intro c member
    simp [windowsRules, (none c member).1.1, (none c member).1.2]

theorem parses_unquoted (some : arg ≠ []) (none : needsQuotes arg = false) :
    windowsRules.Parses arg [arg] :=
  .unquoted some (plain_of_needsQuotes none).1 (plain_of_needsQuotes none).2

/-! ## `QuoteForCommandLine` -/

theorem symbols_open (rest : Units) :
    windowsRules.symbols 0 (quoteMark :: rest) =
      .toggle :: windowsRules.symbols 0 rest :=
  windowsRules.symbols_quote 0 rest

/-- The splitter undoes the loop with its pending backslashes. -/
theorem symbols_quoteLoop (count : Nat) (arg : Units) :
    windowsRules.symbols 0 (quoteLoop count arg ++ [quoteMark]) =
      List.replicate count (.unit backslash) ++
        (arg.map .unit ++ [.toggle]) := by
  fun_induction quoteLoop count arg with
  | case1 count =>
    refine (windowsRules.symbols_replicate 0 (count * 2) [quoteMark]).trans ?_
    refine (windowsRules.symbols_quote _ []).trans ?_
    rw [Nat.zero_add, Nat.mul_div_cancel _ (by decide), Nat.mul_mod_left]
    rfl
  | case2 count rest ih =>
    rw [ih, List.replicate_succ']
    simp
  | case3 count rest other ih =>
    rw [List.append_assoc, List.cons_append]
    refine (windowsRules.symbols_replicate 0 (count * 2 + 1) _).trans ?_
    refine (windowsRules.symbols_quote _ _).trans ?_
    rw [ih, Nat.zero_add, if_neg (by omega),
      show (count * 2 + 1) / 2 = count by omega]
    rfl
  | case4 count ch rest notBackslash notQuote ih =>
    rw [List.append_assoc, List.cons_append]
    refine (windowsRules.symbols_replicate 0 count _).trans ?_
    refine (windowsRules.symbols_unit notBackslash notQuote _ _).trans ?_
    rw [ih, Nat.zero_add]
    rfl

theorem parses_quoteForCommandLine (arg : Units) :
    windowsRules.Parses (quoteForCommandLine arg) [arg] := by
  unfold quoteForCommandLine
  split
  case isTrue empty =>
    rw [empty]
    exact .quoted rfl
  case isFalse some =>
    split
    case isTrue none => exact parses_unquoted some (by simpa using none)
    case isFalse quotes =>
      refine .quoted ?_
      rw [symbols_open, symbols_quoteLoop]
      rfl

/-- Splitting the joined text gives the arguments back. -/
theorem split_joinQuoted (args : List Units) :
    windowsRules.split (joinQuoted args) = args := by
  have go : ∀ (args done : List Units) (joined : Units),
      windowsRules.Parses joined done → windowsRules.Parses
        (args.foldl (fun joined arg =>
          joined ++ space :: quoteForCommandLine arg) joined)
        (done ++ args) := by
    intro args
    induction args with
    | nil =>
        intro done joined parses
        rwa [List.append_nil]
    | cons arg args ih =>
        intro done joined parses
        rw [← List.singleton_append, ← List.append_assoc]
        exact ih _ _ (parses.append (parses_quoteForCommandLine arg)
          (by decide))
  cases args with
  | nil => rfl
  | cons first args =>
      exact (go args [first] _ (parses_quoteForCommandLine first)).whole

/-! ## `BuildArgString` -/

variable (pending : Nat)

/-- What the loop of `QuoteArg` makes of one unit, in front of the rest. -/
theorem symbols_escaped_cons (ch : UInt16) (rest : Units) :
    windowsRules.symbols pending
        (escapeQuotes (ch :: rest) ++ [quoteMark]) =
      if ch = backslash then
        windowsRules.symbols (pending + 1) (escapeQuotes rest ++ [quoteMark])
      else if ch = quoteMark then
        List.replicate ((pending + 1) / 2) (.unit backslash) ++
          (if (pending + 1) % 2 = 0 then .toggle else .unit quoteMark) ::
            windowsRules.symbols 0 (escapeQuotes rest ++ [quoteMark])
      else
        List.replicate pending (.unit backslash) ++ .unit ch ::
            windowsRules.symbols 0 (escapeQuotes rest ++ [quoteMark]) := by
  have front : escapeQuotes (ch :: rest) ++ [quoteMark] =
      (if ch = quoteMark then [backslash, quoteMark] else [ch]) ++
        (escapeQuotes rest ++ [quoteMark]) := by
    rw [escapeQuotes, List.flatMap_cons, List.append_assoc, ← escapeQuotes]
  rw [front]
  by_cases quote : ch = quoteMark
  · rw [if_pos quote, if_neg (by rw [quote]; decide), if_pos quote]
    refine (windowsRules.symbols_backslash pending _).trans ?_
    exact windowsRules.symbols_quote _ _
  · rw [if_neg quote, if_neg quote]
    split
    case isTrue same =>
      rw [same]
      exact windowsRules.symbols_backslash pending _
    case isFalse other => exact windowsRules.symbols_unit other quote _ _

theorem symbols_escaped {pending : Nat}
    (none : escapes (0 < pending) arg = false) :
    windowsRules.symbols pending (escapeQuotes arg ++ [quoteMark]) =
      List.replicate pending (.unit backslash) ++
        (arg.map .unit ++ [.toggle]) := by
  induction arg generalizing pending with
  | nil =>
    have zero : pending = 0 := by simpa [escapes] using none
    rw [zero]
    rfl
  | cons ch rest ih =>
    rw [escapes, Bool.or_eq_false_iff] at none
    rw [symbols_escaped_cons]
    split
    case isTrue same =>
      rw [ih (by simpa [same] using none.2), same, List.replicate_succ']
      simp
    case isFalse notBackslash =>
      have clear := none.2
      rw [beq_false_of_ne notBackslash] at clear
      have behind := @ih 0 clear
      split
      case isTrue same =>
        have zero : pending = 0 := by simpa [same] using none.1
        rw [zero, behind, same]
        rfl
      case isFalse notQuote =>
        rw [behind]
        rfl

/-- What is left of the weight of a quoted argument. -/
def escapedWeight (pending : Nat) (arg : Units) : Nat :=
  windowsRules.symbolWeight
    (windowsRules.symbols pending (escapeQuotes arg ++ [quoteMark]))

theorem escapedWeight_nil : escapedWeight pending [] = pending :=
  (congrArg _ (windowsRules.symbols_quote pending [])).trans
    (windowsRules.symbolWeight_quote pending [])

theorem escapedWeight_cons (ch : UInt16) (rest : Units) :
    escapedWeight pending (ch :: rest) =
      if ch = backslash then escapedWeight (pending + 1) rest
      else if ch = quoteMark then pending + 1 + escapedWeight 0 rest
      else 2 * pending + escapedWeight 0 rest := by
  rw [escapedWeight, symbols_escaped_cons]
  split
  · rfl
  · case isFalse notBackslash =>
    split
    · exact windowsRules.symbolWeight_quote (pending + 1) _
    · case isFalse notQuote =>
      have alone : windowsRules.symbolWeight [.unit ch] = 0 := by
        simp [ArgumentRules.symbolWeight, windowsRules, notBackslash, notQuote]
      rw [windowsRules.symbolWeight_append, ← List.singleton_append,
        windowsRules.symbolWeight_append, alone, Nat.zero_add]
      exact congrArg (· + _) (windowsRules.symbolWeight_replicate pending)

theorem weight_cons (ch : UInt16) (rest : Units) :
    windowsRules.weight (ch :: rest) = windowsRules.weight rest +
      if ch = backslash then 2 else if ch = quoteMark then 1 else 0 :=
  windowsRules.weight_cons ch rest

/-- Quoting never adds weight, and it keeps the weight only where it does no
harm. -/
theorem escapedWeight_le (arg : Units) (pending : Nat) :
    escapedWeight pending arg ≤ 2 * pending + windowsRules.weight arg ∧
    (escapedWeight pending arg = 2 * pending + windowsRules.weight arg →
      escapes (0 < pending) arg = false) := by
  induction arg generalizing pending with
  | nil =>
    rw [escapedWeight_nil, show windowsRules.weight [] = 0 from rfl]
    refine ⟨by omega, fun same => ?_⟩
    rw [show pending = 0 by omega]
    rfl
  | cons ch rest ih =>
    rw [escapedWeight_cons, weight_cons, escapes]
    split
    case isTrue isBackslash =>
      obtain ⟨less, equal⟩ := ih (pending + 1)
      refine ⟨by omega, fun same => ?_⟩
      have none := equal (by omega)
      have other : backslash ≠ quoteMark := by decide
      simpa [isBackslash, other] using none
    case isFalse notBackslash =>
      obtain ⟨less, equal⟩ := ih 0
      rw [beq_false_of_ne notBackslash]
      split
      case isTrue isQuote =>
        refine ⟨by omega, fun same => ?_⟩
        rw [show pending = 0 by omega]
        exact equal (by omega)
      case isFalse notQuote =>
        refine ⟨by omega, fun same => ?_⟩
        rw [beq_false_of_ne notQuote, Bool.and_false]
        exact equal (by omega)

theorem quoteArg_weight_le (arg : Units) :
    windowsRules.symbolWeight (windowsRules.symbols 0 (quoteArg arg)) ≤
      windowsRules.weight arg ∧
    (windowsRules.symbolWeight (windowsRules.symbols 0 (quoteArg arg)) =
      windowsRules.weight arg → needsQuotes arg = true →
        escapes false arg = false) := by
  unfold quoteArg
  split
  case isTrue none =>
    have none : needsQuotes arg = false := by simpa using none
    rw [windowsRules.symbols_plain (plain_of_needsQuotes none).1]
    refine ⟨(windowsRules.symbolWeight_units arg).le, fun _ quotes => ?_⟩
    exact absurd (none.symm.trans quotes) Bool.false_ne_true
  case isFalse quotes =>
    obtain ⟨less, equal⟩ := escapedWeight_le arg 0
    have opened : windowsRules.symbolWeight (windowsRules.symbols 0
        (quoteMark :: (escapeQuotes arg ++ [quoteMark]))) =
          escapedWeight 0 arg := by
      rw [symbols_open, ← List.singleton_append,
        windowsRules.symbolWeight_append]
      exact Nat.zero_add _
    rw [opened]
    exact ⟨by omega, fun same _ => equal (by omega)⟩

theorem weight_appendArg (out arg : Units) :
    windowsRules.symbolWeight (windowsRules.symbols 0 (appendArg out arg)) =
      windowsRules.symbolWeight (windowsRules.symbols 0 out) +
        windowsRules.symbolWeight (windowsRules.symbols 0 (quoteArg arg)) := by
  unfold appendArg
  split
  case isTrue empty =>
    rw [empty]
    exact (Nat.zero_add _).symm
  case isFalse some =>
    rw [List.append_assoc, List.singleton_append,
      windowsRules.symbols_append_unit (by decide) (by decide),
      windowsRules.symbolWeight_append, ← List.singleton_append,
      windowsRules.symbolWeight_append]
    exact congrArg _ (Nat.zero_add _)

theorem weight_foldl_appendArg (args : List Units) (out : Units) :
    windowsRules.symbolWeight (windowsRules.symbols 0
        (args.foldl appendArg out)) ≤
      windowsRules.symbolWeight (windowsRules.symbols 0 out) +
        windowsRules.weight args.flatten ∧
    (windowsRules.symbolWeight (windowsRules.symbols 0
        (args.foldl appendArg out)) =
      windowsRules.symbolWeight (windowsRules.symbols 0 out) +
        windowsRules.weight args.flatten →
      ∀ arg ∈ args, needsQuotes arg = true → escapes false arg = false) := by
  induction args generalizing out with
  | nil => exact ⟨Nat.le_refl _, fun _ => nofun⟩
  | cons arg args ih =>
    obtain ⟨less, equal⟩ := ih (appendArg out arg)
    obtain ⟨first, keeps⟩ := quoteArg_weight_le arg
    rw [weight_appendArg] at less equal
    rw [List.foldl_cons, List.flatten_cons, windowsRules.weight_append]
    refine ⟨by omega, fun same => ?_⟩
    rw [List.forall_mem_cons]
    exact ⟨keeps (by omega), equal (by omega)⟩

/-! Arguments that no backslash spoils are kept, apart from the empty ones. -/

theorem parses_quoteArg (plain : Plain arg) :
    windowsRules.Parses (quoteArg arg) [arg] := by
  unfold quoteArg
  split
  case isTrue none => exact parses_unquoted plain.1 (by simpa using none)
  case isFalse quotes =>
    refine .quoted ?_
    have safe := plain.2 (by simpa using quotes)
    rw [symbols_open, @symbols_escaped arg 0 safe]
    rfl

theorem parses_appendArg {out : Units} {done more : List Units}
    (parses : windowsRules.Parses out done)
    (spelled : windowsRules.Parses (quoteArg arg) more) :
    windowsRules.Parses (appendArg out arg) (done ++ more) := by
  unfold appendArg
  split
  case isTrue empty =>
    have none : done = [] := by rw [← parses.whole, empty]; rfl
    rw [empty, none]
    exact spelled
  case isFalse some =>
    rw [List.append_assoc, List.singleton_append]
    exact parses.append spelled (by decide)

theorem parses_foldl_appendArg {args : List Units}
    (kept : ∀ arg ∈ args, needsQuotes arg = true →
      escapes false arg = false) {out : Units} {done : List Units}
    (parses : windowsRules.Parses out done) :
    windowsRules.Parses (args.foldl appendArg out)
      (done ++ args.filter (· ≠ [])) := by
  induction args generalizing out done with
  | nil => simpa using parses
  | cons arg args ih =>
    rw [List.forall_mem_cons] at kept
    rw [List.foldl_cons]
    by_cases empty : arg = []
    · have spelled : windowsRules.Parses (quoteArg arg) [] := by
        rw [empty]
        exact .nil
      simpa [empty] using
        ih kept.2 (parses_appendArg parses spelled)
    · have spelled := parses_quoteArg ⟨empty, kept.1⟩
      simpa [empty] using
        ih kept.2 (parses_appendArg parses spelled)

/-- The built text is split into the elements from `startIndex` on if and only
if `QuoteArg` keeps each of them. -/
theorem split_buildArgString_iff (argv : List Units) (startIndex : Nat) :
    windowsRules.split (buildArgString argv startIndex) =
        argv.drop startIndex ↔
      ∀ arg ∈ argv.drop startIndex, Plain arg := by
  unfold buildArgString
  generalize argv.drop startIndex = args
  constructor
  · intro same
    have weight := windowsRules.weight_split (args.foldl appendArg [])
    rw [same] at weight
    have kept := (weight_foldl_appendArg args []).2
      (weight.symm.trans (Nat.zero_add _).symm)
    have parses := (parses_foldl_appendArg kept .nil).whole
    rw [same, List.nil_append] at parses
    intro arg member
    rw [parses] at member
    exact ⟨by simpa using (List.mem_filter.mp member).2,
      kept arg (List.mem_filter.mp member).1⟩
  · intro plain
    have parses := parses_foldl_appendArg (fun arg member =>
      (plain arg member).2) .nil
    rw [parses.whole, List.nil_append, List.filter_eq_self]
    exact fun arg member => by simpa using (plain arg member).1

/-- The arguments are a blank with a backslash behind it and an `x`; the
backslash keeps the quote from closing the first one. -/
theorem split_buildArgString_trailing :
    windowsRules.split (buildArgString
        [[space, backslash], [0x78]] 0) =
      [[space, quoteMark, space, 0x78]] ∧
    windowsRules.split (buildArgString
        [[space, backslash], [0x78]] 0) ≠ [[space, backslash], [0x78]] := by
  decide +kernel

end Libnei.Cmdline

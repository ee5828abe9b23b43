import Libnei.CommandLine.CommandLine

/-!
# Reading a command line back

The switch map and the argument list against the tokens: what the parser finds
in the tokens, and what the edits do to it.
-/

namespace Libnei.Cmdline

open Lib Strings

variable {windows : Bool}

/-! ## What the parser finds -/

/-- The switches in front of the terminator. -/
def switchesIn (windows : Bool) : List Units → List (Units × Units)
  | [] => []
  | token :: tokens =>
      if token = terminator then []
      else
        match parseSwitchToken windows token with
        | some entry => entry :: switchesIn windows tokens
        | none => switchesIn windows tokens

def positional (windows : Bool) : List Units → List Units
  | [] => []
  | token :: tokens =>
      if token = terminator then tokens
      else
        match parseSwitchToken windows token with
        | some _ => positional windows tokens
        | none => token :: positional windows tokens

def assign (switches : SwitchMap) (entries : List (Units × Units)) :
    SwitchMap :=
  entries.foldl (fun switches entry => switches.insert entry.1 entry.2)
    switches

variable {entry : Units × Units}

section

variable {token : Units} (tokens : List Units)

theorem read_terminator (ends : token = terminator) :
    switchesIn windows (token :: tokens) = [] ∧
      positional windows (token :: tokens) = tokens := by
  rw [switchesIn, positional, if_pos ends, if_pos ends]
  exact ⟨rfl, rfl⟩

variable (continues : token ≠ terminator)

include continues

theorem read_switch (parsed : parseSwitchToken windows token = some entry) :
    switchesIn windows (token :: tokens) = entry :: switchesIn windows tokens ∧
      positional windows (token :: tokens) = positional windows tokens := by
  rw [switchesIn, positional, if_neg continues, if_neg continues, parsed]
  exact ⟨rfl, rfl⟩

theorem read_argument (parsed : parseSwitchToken windows token = none) :
    switchesIn windows (token :: tokens) = switchesIn windows tokens ∧
      positional windows (token :: tokens) =
        token :: positional windows tokens := by
  rw [switchesIn, positional, if_neg continues, if_neg continues, parsed]
  exact ⟨rfl, rfl⟩

end

variable (switches : SwitchMap)

theorem parseTokens_terminated (args tokens : List Units) :
    CommandLine.parseTokens windows false switches args tokens =
      (switches, args ++ tokens) := by
  induction tokens generalizing args with
  | nil => rw [CommandLine.parseTokens, List.append_nil]
  | cons token tokens ih =>
    rw [CommandLine.parseTokens, Bool.false_and, if_neg Bool.false_ne_true]
    refine (ih (args ++ [token])).trans ?_
    rw [List.append_assoc]
    rfl

theorem parseTokens_eq (args tokens : List Units) :
    CommandLine.parseTokens windows true switches args tokens =
      (assign switches (switchesIn windows tokens),
        args ++ positional windows tokens) := by
  induction tokens generalizing switches args with
  | nil =>
    rw [CommandLine.parseTokens, positional, List.append_nil]
    rfl
  | cons token tokens ih =>
    rw [CommandLine.parseTokens, switchesIn, positional, Bool.true_and]
    by_cases ends : token = terminator
    · rw [if_pos (beq_iff_eq.mpr ends), if_pos ends, if_pos ends]
      exact parseTokens_terminated switches args tokens
    · rw [if_neg (by simpa using ends), if_neg ends, if_neg ends]
      rw [if_pos rfl]
      cases parseSwitchToken windows token with
      | some entry => exact ih _ _
      | none =>
        refine (ih switches (args ++ [token])).trans ?_
        rw [List.append_assoc]
        rfl

/-! ## Edits of the tokens -/

theorem removeFrom_spec (name : Units) (tokens : List Units) :
    switchesIn windows (removeFrom windows name tokens) =
        (switchesIn windows tokens).filter (·.1 ≠ name) ∧
      positional windows (removeFrom windows name tokens) =
        positional windows tokens := by
  induction tokens with
  | nil => exact ⟨rfl, rfl⟩
  | cons token tokens ih =>
    rw [removeFrom]
    by_cases ends : token = terminator
    · obtain ⟨none, all⟩ := read_terminator tokens ends
      rw [if_pos ends, none, all]
      exact ⟨rfl, rfl⟩
    rw [if_neg ends]
    cases parsed : parseSwitchToken windows token with
    | none =>
      obtain ⟨switches, args⟩ := read_argument tokens ends parsed
      obtain ⟨switches', args'⟩ := read_argument
        (removeFrom windows name tokens) ends parsed
      rw [if_neg (by simp), switches, args, switches', args', ih.1, ih.2]
      exact ⟨rfl, rfl⟩
    | some entry =>
      obtain ⟨switches, args⟩ := read_switch tokens ends parsed
      by_cases named : entry.1 = name
      · rw [if_pos (by simp [named]), switches, args,
          List.filter_cons_of_neg (by simp [named])]
        exact ih
      · obtain ⟨switches', args'⟩ := read_switch
          (removeFrom windows name tokens) ends parsed
        rw [if_neg (by simp [named]), switches, args, switches', args',
          List.filter_cons_of_pos (by simp [named]), ih.1,
          ih.2]
        exact ⟨rfl, rfl⟩

theorem insertIdx_spec {token : Units} (continues : token ≠ terminator)
    (parsed : parseSwitchToken windows token = some entry)
    (tokens : List Units) :
    (∃ front back, switchesIn windows tokens = front ++ back ∧
      switchesIn windows (tokens.insertIdx
        (tokens.findIdx (stopsInsertion windows)) token) =
          front ++ entry :: back) ∧
      positional windows (tokens.insertIdx
        (tokens.findIdx (stopsInsertion windows)) token) =
          positional windows tokens := by
  have first := fun tokens : List Units => read_switch tokens continues parsed
  induction tokens with
  | nil => exact ⟨⟨[], [], rfl, (first []).1⟩, (first []).2⟩
  | cons head tokens ih =>
    rw [List.findIdx_cons]
    cases stops : stopsInsertion windows head with
    | true => exact ⟨⟨[], _, rfl, (first _).1⟩, (first _).2⟩
    | false =>
      -- The head is a switch itself.
      obtain ⟨unended, switch⟩ := Bool.or_eq_false_iff.mp stops
      have unended : head ≠ terminator := ne_of_beq_false unended
      cases found : parseSwitchToken windows head with
      | none => rw [found] at switch; cases switch
      | some other =>
        obtain ⟨⟨front, back, before, after⟩, args⟩ := ih
        obtain ⟨switches, args'⟩ := read_switch tokens unended found
        obtain ⟨switches', args''⟩ := read_switch (tokens.insertIdx
          (tokens.findIdx (stopsInsertion windows)) token) unended found
        rw [cond_false, List.insertIdx_succ_cons, switches, switches',
          args', args'', before, after]
        exact ⟨⟨other :: front, back, rfl, rfl⟩, args⟩

theorem append_spec {value : Units} {tokens : List Units}
    (plain : terminator ∈ tokens ∨
      value ≠ terminator ∧ parseSwitchToken windows value = none) :
    switchesIn windows (tokens ++ [value]) = switchesIn windows tokens ∧
      positional windows (tokens ++ [value]) =
        positional windows tokens ++ [value] := by
  induction tokens with
  | nil =>
    obtain member | ⟨continues, parsed⟩ := plain
    · cases member
    · exact read_argument [] continues parsed
  | cons token tokens ih =>
    rw [List.cons_append]
    by_cases ends : token = terminator
    · obtain ⟨none, all⟩ := read_terminator tokens ends
      obtain ⟨none', all'⟩ := read_terminator (tokens ++ [value]) ends
      rw [none, all, none', all']
      exact ⟨rfl, rfl⟩
    have later : terminator ∈ tokens ∨
        value ≠ terminator ∧ parseSwitchToken windows value = none := by
      refine plain.imp_left fun member => ?_
      exact (List.mem_cons.mp member).resolve_left (Ne.symm ends)
    obtain ⟨same, appended⟩ := ih later
    cases parsed : parseSwitchToken windows token with
    | none =>
      obtain ⟨switches, args⟩ := read_argument tokens ends parsed
      obtain ⟨switches', args'⟩ :=
        read_argument (tokens ++ [value]) ends parsed
      rw [switches, args, switches', args', same, appended]
      exact ⟨rfl, rfl⟩
    | some entry =>
      obtain ⟨switches, args⟩ := read_switch tokens ends parsed
      obtain ⟨switches', args'⟩ :=
        read_switch (tokens ++ [value]) ends parsed
      rw [switches, args, switches', args', same, appended]
      exact ⟨rfl, rfl⟩

/-! ## The switch map -/

theorem insert_comm {name name' : Units} (apart : name ≠ name')
    (switches : SwitchMap) (value value' : Units) :
    (switches.insert name value).insert name' value' =
      (switches.insert name' value').insert name value := by
  refine Std.ExtTreeMap.ext_getElem? fun key => ?_
  simp only [Std.ExtTreeMap.getElem?_insert, Std.compare_eq_iff_eq]
  split
  case isTrue here =>
    subst here
    rw [if_neg apart]
  case isFalse => rfl

theorem insert_insert (name value value' : Units) :
    (switches.insert name value).insert name value' =
      switches.insert name value' := by
  refine Std.ExtTreeMap.ext_getElem? fun key => ?_
  simp only [Std.ExtTreeMap.getElem?_insert, Std.compare_eq_iff_eq]
  split <;> rfl

variable {name : Units} {entries : List (Units × Units)}

theorem assign_insert (unused : ∀ entry ∈ entries, entry.1 ≠ name)
    (value : Units) (switches : SwitchMap) :
    assign (switches.insert name value) entries =
      (assign switches entries).insert name value := by
  induction entries generalizing switches with
  | nil => rfl
  | cons entry entries ih =>
    have apart : entry.1 ≠ name := unused entry List.mem_cons_self
    have fewer : ∀ other ∈ entries, other.1 ≠ name :=
      fun other member => unused other (List.mem_cons_of_mem _ member)
    refine Eq.trans ?_ (ih fewer (switches.insert entry.1 entry.2))
    exact congrArg (assign · entries) (insert_comm apart.symm ..)

/-- The switches of a name do not count where it is assigned last. -/
theorem assign_filter (value : Units) (entries : List (Units × Units))
    {switches switches' : SwitchMap}
    (same : switches.insert name value = switches'.insert name value) :
    (assign switches (entries.filter (·.1 ≠ name))).insert name value =
      (assign switches' entries).insert name value := by
  induction entries generalizing switches switches' with
  | nil => exact same
  | cons entry entries ih =>
    by_cases named : entry.1 = name
    · rw [List.filter_cons_of_neg (by simp [named])]
      refine ih (same.trans ?_)
      dsimp only
      rw [named]
      exact (insert_insert switches' name entry.2 value).symm
    · rw [List.filter_cons_of_pos (by simp [named])]
      refine ih ?_
      rw [insert_comm named, same, insert_comm named]

/-- A switch takes the place of the others of its name. -/
theorem assign_inserted {front back : List (Units × Units)}
    (fewer : front ++ back = entries.filter (·.1 ≠ name)) (value : Units) :
    assign ∅ (front ++ (name, value) :: back) =
      (assign ∅ entries).insert name value := by
  have unused : ∀ entry ∈ back, entry.1 ≠ name := by
    intro entry member
    have kept : entry ∈ entries.filter (·.1 ≠ name) :=
      fewer ▸ List.mem_append_right front member
    simpa using (List.mem_filter.mp kept).2
  calc
    assign ∅ (front ++ (name, value) :: back) =
        assign ((assign ∅ front).insert name value) back :=
      List.foldl_append
    _ = (assign (assign ∅ front) back).insert name value :=
      assign_insert unused value _
    _ = (assign ∅ (front ++ back)).insert name value := by
      rw [assign, assign, assign, List.foldl_append]
    _ = (assign ∅ entries).insert name value := by
      rw [fewer]
      exact assign_filter value entries rfl

/-! ## Tokens of switches -/

theorem parseSwitchToken_terminator :
    parseSwitchToken windows terminator = none := by
  rw [parseSwitchToken, beq_self_eq_true, Bool.or_true, if_pos rfl]

theorem toNat_lowered {ch : UInt16} (letter : 0x41 ≤ ch ∧ ch ≤ 0x5A) :
    0x61 ≤ (ch - 0x41 + 0x61).toNat := by
  simp only [UInt16.le_iff_toNat_le] at letter
  rw [UInt16.toNat_add, UInt16.toNat_sub]
  simp at letter ⊢
  omega

/-- A character in front of the letters is not the lower case of another. -/
theorem toLowerASCIIChar_below {ch bound : UInt16} (low : bound < 0x41)
    (same : toLowerASCIIChar ch = bound) : ch = bound := by
  unfold toLowerASCIIChar at same
  split at same
  case isFalse => exact same
  case isTrue letter =>
    have high := toNat_lowered letter
    have low : bound.toNat < 0x41 := UInt16.lt_iff_toNat_lt.mp low
    rw [same] at high
    omega

theorem toLowerASCIIChar_idem (ch : UInt16) :
    toLowerASCIIChar (toLowerASCIIChar ch) = toLowerASCIIChar ch := by
  by_cases letter : 0x41 ≤ ch ∧ ch ≤ 0x5A
  · have high := toNat_lowered letter
    have lowered : toLowerASCIIChar ch = ch - 0x41 + 0x61 := if_pos letter
    rw [lowered, toLowerASCIIChar, if_neg]
    rintro ⟨-, upper⟩
    have upper : (ch - 0x41 + 0x61).toNat ≤ 0x5A :=
      UInt16.le_iff_toNat_le.mp upper
    omega
  · have same : toLowerASCIIChar ch = ch := if_neg letter
    rw [same, same]

theorem toLowerASCII_idem (input : Units) :
    toLowerASCII (toLowerASCII input) = toLowerASCII input := by
  unfold toLowerASCII
  rw [List.map_map]
  exact List.map_congr_left fun ch _ => toLowerASCIIChar_idem ch

theorem mem_toLowerASCII_below {bound : UInt16} (low : bound < 0x41)
    {input : Units} (member : bound ∈ toLowerASCII input) :
    bound ∈ input := by
  obtain ⟨ch, there, same⟩ := List.mem_map.mp member
  obtain rfl := toLowerASCIIChar_below low same
  exact there

/-- A name that is read back from its token. -/
structure Readable (name : Units) : Prop where
  dashless : name.head? ≠ some dash
  slashless : name.head? ≠ some slash
  plain : equals ∉ name

instance decidableReadable (name : Units) : Decidable (Readable name) :=
  decidable_of_iff (name.head? ≠ some dash ∧ name.head? ≠ some slash ∧
    equals ∉ name) ⟨fun all => ⟨all.1, all.2.1, all.2.2⟩,
      fun readable => ⟨readable.dashless, readable.slashless, readable.plain⟩⟩

theorem Readable.unprefixed (readable : Readable name) :
    removeSwitchPrefix name = name := by
  unfold removeSwitchPrefix
  rw [if_neg, if_neg]
  · rintro (dashed | slashed)
    · exact readable.dashless dashed
    · exact readable.slashless slashed
  · intro dashes
    refine readable.dashless ?_
    cases name with
    | nil => cases dashes
    | cons head rest => exact congrArg some (List.cons.inj dashes).1

/-- Only `=` separates the value of a switch with dashes. -/
theorem findSwitchValueSeparator_dashed (body : Units) :
    findSwitchValueSeparator windows (dash :: dash :: body) =
      (body.findIdx? (· == equals)).map (· + 2) := by
  have found : (dash :: dash :: body).findIdx? (· == equals) =
      (body.findIdx? (· == equals)).map (· + 2) := by
    have dashed : (dash == equals) = false := by decide
    rw [List.findIdx?_cons, List.findIdx?_cons, dashed, if_neg nofun,
      if_neg nofun, Option.map_map]
    rfl
  unfold findSwitchValueSeparator
  rw [found]
  cases windows with
  | false => rfl
  | true =>
    have unslashed : ¬(dash :: dash :: body).head? = some slash := by
      rw [List.head?_cons]
      decide
    dsimp only
    rw [if_neg unslashed]
    cases (body.findIdx? (· == equals)).map (· + 2) <;> rfl

theorem parseSwitchToken_dashed {body : Units} (nonempty : body ≠ []) :
    parseSwitchToken windows (dash :: dash :: body) =
      match body.findIdx? (· == equals) with
      | none =>
        if normalizeSwitchName body = [] then none
        else some (normalizeSwitchName body, [])
      | some position =>
        if normalizeSwitchName (body.take position) = [] then none
        else some (normalizeSwitchName (body.take position),
          body.drop (position + 1)) := by
  have length : 0 < body.length := List.length_pos_iff.mpr nonempty
  have switch : isSwitchToken windows (dash :: dash :: body) = true := by
    unfold isSwitchToken
    rw [if_pos]
    exact ⟨by simp; omega, rfl⟩
  have continues : (dash :: dash :: body == terminator) = false := by
    rw [beq_eq_false_iff_ne]
    intro same
    exact nonempty (List.cons.inj (List.cons.inj same).2).2
  have bare : removeSwitchPrefix (dash :: dash :: body) = body := if_pos rfl
  have two : (dash :: dash :: body).length - body.length = 2 := by
    rw [List.length_cons, List.length_cons]
    omega
  unfold parseSwitchToken
  rw [switch, continues, bare, findSwitchValueSeparator_dashed]
  dsimp only
  rw [if_neg nofun, if_neg nonempty, two]
  cases body.findIdx? (· == equals) with
  | none => rfl
  | some position =>
    simp only [Option.map_some, Nat.add_sub_cancel]
    rfl

theorem parseSwitchToken_switchToken (value : Units) (nonempty : name ≠ [])
    (readable : Readable name) (lower : toLowerASCII name = name) :
    parseSwitchToken windows (CommandLine.switchToken name value) =
      some (name, value) := by
  have normal : normalizeSwitchName name = name := by
    rw [normalizeSwitchName, readable.unprefixed, lower]
  have unseparated : name.findIdx? (· == equals) = none := by
    rw [List.findIdx?_eq_none_iff]
    intro ch member
    rw [beq_eq_false_iff_ne]
    rintro rfl
    exact readable.plain member
  unfold CommandLine.switchToken
  split
  case isTrue empty =>
    rw [List.append_nil, parseSwitchToken_dashed nonempty, unseparated]
    dsimp only
    rw [normal, if_neg nonempty, empty]
  case isFalse =>
    have found : (name ++ equals :: value).findIdx? (· == equals) =
        some name.length := by
      rw [List.findIdx?_append, unseparated, Option.none_or,
        List.findIdx?_cons, beq_self_eq_true, if_pos rfl]
      simp
    have body : name ++ equals :: value ≠ [] := by simp
    rw [parseSwitchToken_dashed body, found]
    dsimp only
    rw [List.take_left, normal, if_neg nonempty, ← List.drop_drop,
      List.drop_left]
    rfl

/-! ## Runs of edits -/

/-- The switches and the arguments are those of the tokens. -/
structure InStep (windows : Bool) (commandLine : CommandLine) : Prop where
  switches : commandLine.switches =
    assign ∅ (switchesIn windows commandLine.argv.tail)
  args : commandLine.args = positional windows commandLine.argv.tail

theorem inStep_parsed (argv : List Units) :
    InStep windows (.parseFromUTF16Argv windows argv) := by
  have parsed : CommandLine.parseTokens windows true ∅ [] argv.tail = _ :=
    parseTokens_eq ∅ [] argv.tail
  exact ⟨congrArg Prod.fst parsed, congrArg Prod.snd parsed⟩

theorem InStep.reparsed {commandLine : CommandLine}
    (inStep : InStep windows commandLine) :
    CommandLine.parseFromUTF16Argv windows commandLine.argv = commandLine := by
  rw [CommandLine.parseFromUTF16Argv, parseTokens_eq, ← inStep.switches,
    List.nil_append, ← inStep.args]

structure Ready (windows : Bool) (commandLine : CommandLine) : Prop where
  inStep : InStep windows commandLine
  program : commandLine.argv ≠ []

namespace Ready

variable {commandLine : CommandLine}

theorem appendSwitchToken (ready : Ready windows commandLine)
    (readable : Readable (normalizeSwitchName name)) (value : Units)
    (policy : DuplicateSwitchPolicy) :
    Ready windows
      (commandLine.appendSwitchToken windows name value policy) := by
  unfold CommandLine.appendSwitchToken
  dsimp only
  generalize named : normalizeSwitchName name = normalized at readable ⊢
  have lower : toLowerASCII normalized = normalized := by
    rw [← named, normalizeSwitchName, toLowerASCII_idem]
  split
  case isTrue => exact ready
  case isFalse nonempty =>
    split
    case isTrue => exact ready
    case isFalse =>
      obtain ⟨argv, switches, args⟩ := commandLine
      obtain ⟨⟨read, read'⟩, program⟩ := ready
      cases argv with
      | nil => exact absurd rfl program
      | cons program tokens =>
        dsimp only [List.tail_cons] at read read' ⊢
        rw [removeSwitchTokens, findSwitchInsertionIndex,
          List.insertIdx_succ_cons]
        have parsed : parseSwitchToken windows
            (CommandLine.switchToken normalized value) =
              some (normalized, value) :=
          parseSwitchToken_switchToken value nonempty readable lower
        have continues :
            CommandLine.switchToken normalized value ≠ terminator := by
          intro ends
          rw [ends, parseSwitchToken_terminator] at parsed
          cases parsed
        obtain ⟨fewer, same⟩ := removeFrom_spec normalized tokens
        obtain ⟨⟨front, back, before, after⟩, args'⟩ :=
          insertIdx_spec continues parsed
            (removeFrom windows normalized tokens)
        refine ⟨⟨?_, ?_⟩, List.cons_ne_nil _ _⟩
        · rw [List.tail_cons, after, read]
          rw [before] at fewer
          exact (assign_inserted fewer value).symm
        · rw [read', List.tail_cons, args', same]

/-- `CopySwitchesFrom`, one switch after the other. -/
theorem appendSwitchTokens
    (readable : ∀ entry ∈ entries, Readable (normalizeSwitchName entry.1))
    (policy : DuplicateSwitchPolicy) (ready : Ready windows commandLine) :
    Ready windows (entries.foldl (fun commandLine entry =>
      commandLine.appendSwitchToken windows entry.1 entry.2 policy)
        commandLine) := by
  induction entries generalizing commandLine with
  | nil => exact ready
  | cons entry entries ih =>
    refine ih (fun other member =>
      readable other (List.mem_cons_of_mem _ member)) ?_
    exact ready.appendSwitchToken (readable entry List.mem_cons_self)
      entry.2 policy

theorem appendArg (ready : Ready windows commandLine) {value : Bytes}
    (plain : terminator ∈ commandLine.argv.tail ∨
      utf8ToUTF16 value ≠ terminator ∧
        parseSwitchToken windows (utf8ToUTF16 value) = none) :
    Ready windows (commandLine.appendArg value) := by
  obtain ⟨switches, args⟩ := append_spec plain
  have tail : (commandLine.appendArg value).argv.tail =
      commandLine.argv.tail ++ [utf8ToUTF16 value] :=
    List.tail_append_of_ne_nil ready.program
  refine ⟨⟨?_, ?_⟩, List.append_ne_nil_of_left_ne_nil ready.program _⟩
  · rw [tail, switches]
    exact ready.inStep.switches
  · rw [tail, args, ← ready.inStep.args]
    rfl

end Ready

/-- A name that is not empty and has no character of the switch syntax. -/
abbrev PlainName (name : Units) : Prop :=
  name ≠ [] ∧ dash ∉ name ∧ slash ∉ name ∧ equals ∉ name ∧ colon ∉ name

theorem PlainName.readable (plain : PlainName name) :
    Readable (normalizeSwitchName name) := by
  obtain ⟨-, dashless, slashless, separated, -⟩ := plain
  have bare : Readable name :=
    ⟨fun here => dashless (List.mem_of_mem_head? here),
      fun here => slashless (List.mem_of_mem_head? here), separated⟩
  rw [normalizeSwitchName, bare.unprefixed]
  refine ⟨fun here => dashless ?_, fun here => slashless ?_,
    fun here => separated ?_⟩
  · exact mem_toLowerASCII_below (by decide) (List.mem_of_mem_head? here)
  · exact mem_toLowerASCII_below (by decide) (List.mem_of_mem_head? here)
  · exact mem_toLowerASCII_below (by decide) here

/-- The switches that are appended have plain names. -/
def Edit.Admissible : Edit → Prop
  | .appendSwitch name _ | .appendSwitchASCII name _ _ =>
      PlainName (utf8ToUTF16 name)
  | .appendSwitchUTF16 name _ _ => PlainName name
  | .copySwitchesFrom .. | .appendArg _ => True

instance : DecidablePred Edit.Admissible
  | .appendSwitch name _ | .appendSwitchASCII name _ _ =>
      inferInstanceAs (Decidable (PlainName (utf8ToUTF16 name)))
  | .appendSwitchUTF16 name _ _ =>
      inferInstanceAs (Decidable (PlainName name))
  | .copySwitchesFrom .. | .appendArg _ => .isTrue trivial

/-- The edits that lose the tokens' meaning: there is no program that they
could stand behind, an argument is read as a switch or as the terminator, or a
copied name is read differently. -/
def Loses (windows : Bool) (commandLine : CommandLine) : Edit → Prop
  | .appendSwitch .. | .appendSwitchASCII .. | .appendSwitchUTF16 .. =>
      commandLine.argv = []
  | .copySwitchesFrom source options =>
      commandLine.argv = [] ∨ ∃ entry ∈ source.copied options,
        ¬Readable (normalizeSwitchName entry.1)
  | .appendArg value =>
      commandLine.argv = [] ∨ terminator ∉ commandLine.argv.tail ∧
        (utf8ToUTF16 value = terminator ∨
          (parseSwitchToken windows (utf8ToUTF16 value)).isSome)

instance decidableLoses (windows : Bool) (commandLine : CommandLine) :
    DecidablePred (Loses windows commandLine)
  | .appendSwitch .. | .appendSwitchASCII .. | .appendSwitchUTF16 .. =>
      inferInstanceAs (Decidable (commandLine.argv = []))
  | .copySwitchesFrom source options =>
      inferInstanceAs (Decidable (commandLine.argv = [] ∨
        ∃ entry ∈ source.copied options,
          ¬Readable (normalizeSwitchName entry.1)))
  | .appendArg value =>
      inferInstanceAs (Decidable (commandLine.argv = [] ∨
        terminator ∉ commandLine.argv.tail ∧ (utf8ToUTF16 value = terminator ∨
            (parseSwitchToken windows (utf8ToUTF16 value)).isSome)))

theorem InStep.edit {commandLine next : CommandLine} {change : Edit}
    (inStep : InStep windows commandLine) (admissible : change.Admissible)
    (keeps : ¬Loses windows commandLine change)
    (taken : Cmdline.edit windows commandLine change = some next) :
    InStep windows next := by
  cases change with
  | appendSwitch name policy =>
    have ready : Ready windows commandLine := ⟨inStep, keeps⟩
    exact Option.some.inj taken ▸
      (ready.appendSwitchToken admissible.readable _ policy).inStep
  | appendSwitchASCII name value policy =>
    have ready : Ready windows commandLine := ⟨inStep, keeps⟩
    exact Option.some.inj taken ▸
      (ready.appendSwitchToken admissible.readable _ policy).inStep
  | appendSwitchUTF16 name value policy =>
    have ready : Ready windows commandLine := ⟨inStep, keeps⟩
    exact Option.some.inj taken ▸
      (ready.appendSwitchToken admissible.readable value policy).inStep
  | copySwitchesFrom source options =>
    obtain ⟨program, none⟩ := not_or.mp keeps
    have ready : Ready windows commandLine := ⟨inStep, program⟩
    have readable : ∀ entry ∈ source.copied options,
        Readable (normalizeSwitchName entry.1) := by
      intro entry member
      by_contra unreadable
      exact none ⟨entry, member, unreadable⟩
    exact Option.some.inj taken ▸
      (ready.appendSwitchTokens readable options.policy).inStep
  | appendArg value =>
    obtain ⟨program, argument⟩ := not_or.mp keeps
    have ready : Ready windows commandLine := ⟨inStep, program⟩
    have plain : terminator ∈ commandLine.argv.tail ∨
        utf8ToUTF16 value ≠ terminator ∧
          parseSwitchToken windows (utf8ToUTF16 value) = none := by
      by_cases ended : terminator ∈ commandLine.argv.tail
      · exact .inl ended
      · obtain ⟨continues, unparsed⟩ :=
          not_or.mp fun bad => argument ⟨ended, bad⟩
        exact .inr ⟨continues, by simpa using unparsed⟩
    exact Option.some.inj taken ▸ (ready.appendArg plain).inStep

/-- A command line that was parsed and then changed by edits that keep the
tokens' meaning is what its tokens are parsed to: the same program, switches
and arguments. -/
theorem argv_in_step (windows : Bool) {argv : List Units}
    {changes : List Edit} {commandLine : CommandLine}
    (performed : perform (edit windows) (.parseFromUTF16Argv windows argv)
      changes = some commandLine)
    (admissible : ∀ change ∈ changes, change.Admissible)
    (keeps : Avoids (edit windows) (Loses windows)
      (.parseFromUTF16Argv windows argv) changes) :
    CommandLine.parseFromUTF16Argv windows commandLine.argv =
      commandLine := by
  have good : ∀ change ∈ changes, ¬¬change.Admissible :=
    fun change member => not_not_intro (admissible change member)
  have kept : ∀ {commandLine : CommandLine} {change : Edit}
      {next : CommandLine}, InStep windows commandLine →
      ¬(¬change.Admissible ∨ Loses windows commandLine change) →
      edit windows commandLine change = some next → InStep windows next := by
    intro commandLine change next inStep allowed taken
    obtain ⟨admissible, keeps⟩ := not_or.mp allowed
    exact inStep.edit (not_not.mp admissible) keeps taken
  exact (perform_avoiding kept performed
    ((avoids_of_forall good _).either keeps) (inStep_parsed argv)).reparsed

/-- A program with a switch, a terminator and an argument behind it. -/
def terminatedArgv : List Units :=
  [ascii "prog", ascii "--name=old", ascii "--", ascii "--in"].map utf8ToUTF16

/-- Switches are replaced and copied, and an argument with dashes is put
behind the terminator. -/
def carefulEdits : List Edit :=
  [.appendSwitchASCII (ascii "Name") (ascii "a=b") .replaceExisting,
    .appendSwitch (ascii "name") .preserveExisting,
    .copySwitchesFrom (.parseFromArgv false [ascii "other", ascii "-v"]) {},
    .appendArg (ascii "--out")]

theorem argv_in_step_terminated :
    Avoids (edit false) (Loses false)
        (.parseFromUTF16Argv false terminatedArgv) carefulEdits ∧
      ∃ commandLine, perform (edit false)
          (.parseFromUTF16Argv false terminatedArgv) carefulEdits =
            some commandLine ∧
        commandLine.args = [ascii "--in", ascii "--out"].map utf8ToUTF16 ∧
        CommandLine.parseFromUTF16Argv false commandLine.argv =
          commandLine := by
  have keeps : Avoids (edit false) (Loses false)
      (.parseFromUTF16Argv false terminatedArgv) carefulEdits := by
    decide +kernel
  have admissible : ∀ change ∈ carefulEdits, change.Admissible := by
    decide +kernel
  have seen : (perform (edit false)
      (.parseFromUTF16Argv false terminatedArgv) carefulEdits).map (·.args) =
        some ([ascii "--in", ascii "--out"].map utf8ToUTF16) := by
    decide +kernel
  obtain ⟨commandLine, performed, args⟩ := Option.map_eq_some_iff.mp seen
  exact ⟨keeps, commandLine, performed, args,
    argv_in_step false performed admissible keeps⟩

/-- A positional argument with dashes is read back as a switch, and a switch
without a program as the program. -/
theorem argv_out_of_step :
    (∃ commandLine, perform (edit false)
        (.parseFromArgv false [ascii "prog"]) [.appendArg (ascii "--x")] =
          some commandLine ∧
      (CommandLine.parseFromUTF16Argv false commandLine.argv).args ≠
        commandLine.args) ∧
    ∃ commandLine, perform (edit false) (.parseFromArgv false [])
        [.appendSwitch (ascii "x") .replaceExisting] = some commandLine ∧
      (CommandLine.parseFromUTF16Argv false commandLine.argv).switches ≠
        commandLine.switches := by
  refine ⟨⟨_, rfl, ?_⟩, _, rfl, ?_⟩
  · decide +kernel
  · intro same
    have member : utf8ToUTF16 (ascii "x") ∈
        ((CommandLine.parseFromArgv false []).appendSwitch false (ascii "x")
          .replaceExisting).switches := by
      decide +kernel
    rw [← same] at member
    revert member
    decide +kernel

end Libnei.Cmdline

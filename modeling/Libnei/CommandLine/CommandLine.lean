import Libnei.Lib.Actions
import Libnei.Strings.Conversions

/-!
# Command lines

`command_line.cpp`: the tokens of a command line, the switches and the
positional arguments that were read off them, and the edits that change the
three separately.  `windows` says which of the two platforms the code is
compiled for.  Wrapper tokens and the two caches are left out.
-/

namespace Libnei.Cmdline

open Strings

def dash : UInt16 := 0x2D

def slash : UInt16 := 0x2F

def equals : UInt16 := 0x3D

def colon : UInt16 := 0x3A

/-- The token `--`. -/
def terminator : Units := [dash, dash]

def toLowerASCIIChar (ch : UInt16) : UInt16 :=
  if 0x41 ≤ ch ∧ ch ≤ 0x5A then ch - 0x41 + 0x61 else ch

def toLowerASCII (input : Units) : Units :=
  input.map toLowerASCIIChar

/-! ## Tokens -/

section

variable (windows : Bool)

def findSwitchValueSeparator (token : Units) : Option Nat :=
  let equalsPos := token.findIdx? (· == equals)
  if windows then
    let slashPrefixed := token.head? = some slash
    let colonPos := if slashPrefixed then token.findIdx? (· == colon) else none
    match equalsPos, colonPos with
    | none, colonPos => colonPos
    | equalsPos, none => equalsPos
    | some equalsPos, some colonPos =>
        if equalsPos < colonPos then some equalsPos else some colonPos
  else equalsPos

def isSwitchToken (token : Units) : Bool :=
  if 3 ≤ token.length ∧ token.take 2 = [dash, dash] then true
  else if 2 ≤ token.length ∧ token.head? = some dash then true
  else windows && decide (2 ≤ token.length ∧ token.head? = some slash)

def removeSwitchPrefix (token : Units) : Units :=
  if token.take 2 = [dash, dash] then token.drop 2
  else if token.head? = some dash ∨ token.head? = some slash then token.drop 1
  else token

def normalizeSwitchName (name : Units) : Units :=
  toLowerASCII <| removeSwitchPrefix name

def parseSwitchToken (token : Units) : Option (Units × Units) :=
  if !isSwitchToken windows token || token == terminator then none
  else
    let withoutPrefix := removeSwitchPrefix token
    if withoutPrefix = [] then none
    else
      match findSwitchValueSeparator windows token with
      | none =>
          let name := normalizeSwitchName withoutPrefix
          if name = [] then none else some (name, [])
      | some separatorPos =>
          let prefixLength := token.length - withoutPrefix.length
          let name := normalizeSwitchName
            ((token.drop prefixLength).take (separatorPos - prefixLength))
          if name = [] then none
          else some (name, token.drop (separatorPos + 1))

/-- The loop of `FindSwitchInsertionIndex` stops at the token. -/
def stopsInsertion (token : Units) : Bool :=
  token == terminator || (parseSwitchToken windows token).isNone

def findSwitchInsertionIndex : List Units → Nat
  | [] => 0
  | _ :: tokens => tokens.findIdx (stopsInsertion windows) + 1

/-- The loop of `RemoveSwitchTokens`, behind the program. -/
def removeFrom (name : Units) : List Units → List Units
  | [] => []
  | token :: tokens =>
      if token = terminator then token :: tokens
      else if (parseSwitchToken windows token).map Prod.fst = some name then
        removeFrom name tokens
      else token :: removeFrom name tokens

def removeSwitchTokens (name : Units) : List Units → List Units
  | [] => []
  | program :: tokens => program :: removeFrom windows name tokens

end

/-! ## The command line -/

abbrev SwitchMap := Std.ExtTreeMap Units Units

inductive DuplicateSwitchPolicy
  | replaceExisting
  | preserveExisting
deriving DecidableEq

inductive SwitchValueFilter
  | all
  | withValueOnly
  | withoutValueOnly
deriving DecidableEq

def SwitchValueFilter.admits (value : Units) : SwitchValueFilter → Bool
  | .all => true
  | .withValueOnly => value ≠ []
  | .withoutValueOnly => value = []

structure CopySwitchesOptions where
  whitelist : List Bytes := []
  blacklist : List Bytes := []
  valueFilter : SwitchValueFilter := .all
  policy : DuplicateSwitchPolicy := .replaceExisting

structure CommandLine where
  argv : List Units := []
  switches : SwitchMap := ∅
  args : List Units := []

namespace CommandLine

variable (windows : Bool)

/-- The loop of `ParseFromUTF16Argv`, behind the program. -/
def parseTokens : Bool → SwitchMap → List Units → List Units →
    SwitchMap × List Units
  | _, switches, args, [] => (switches, args)
  | parseSwitches, switches, args, token :: tokens =>
      if parseSwitches && token == terminator then
        parseTokens false switches args tokens
      else
        match if parseSwitches then parseSwitchToken windows token
          else none with
        | some (name, value) =>
            parseTokens parseSwitches (switches.insert name value) args tokens
        | none => parseTokens parseSwitches switches (args ++ [token]) tokens

def parseFromUTF16Argv (argv : List Units) : CommandLine :=
  let (switches, args) := parseTokens windows true ∅ [] argv.tail
  { argv, switches, args }

def parseFromArgv (argv : List Bytes) : CommandLine :=
  parseFromUTF16Argv windows (argv.map utf8ToUTF16)

def switchToken (name value : Units) : Units :=
  dash :: dash :: (name ++ if value = [] then [] else equals :: value)

def appendSwitchToken (commandLine : CommandLine) (name value : Units)
    (policy : DuplicateSwitchPolicy) : CommandLine :=
  let normalizedName := normalizeSwitchName name
  if normalizedName = [] then commandLine
  else if policy = .preserveExisting ∧
      normalizedName ∈ commandLine.switches then commandLine
  else
    let argv := removeSwitchTokens windows normalizedName commandLine.argv
    { commandLine with
      switches := commandLine.switches.insert normalizedName value
      argv := argv.insertIdx (findSwitchInsertionIndex windows argv)
        (switchToken normalizedName value) }

def appendSwitchUTF16 (commandLine : CommandLine) (name value : Units)
    (policy : DuplicateSwitchPolicy) : CommandLine :=
  commandLine.appendSwitchToken windows name value policy

def appendSwitchASCII (commandLine : CommandLine) (name value : Bytes)
    (policy : DuplicateSwitchPolicy) : CommandLine :=
  commandLine.appendSwitchUTF16 windows (utf8ToUTF16 name)
    (utf8ToUTF16 value) policy

def appendSwitch (commandLine : CommandLine) (name : Bytes)
    (policy : DuplicateSwitchPolicy) : CommandLine :=
  commandLine.appendSwitchASCII windows name [] policy

def buildWhitelist (names : List Bytes) : List Units :=
  (names.map fun name => normalizeSwitchName (utf8ToUTF16 name)).filter
    (· ≠ [])

/-- The switches of the source that are copied, in the order of its map. -/
def copied (source : CommandLine) (options : CopySwitchesOptions) :
    List (Units × Units) :=
  let whitelist := buildWhitelist options.whitelist
  let blacklist := buildWhitelist options.blacklist
  source.switches.toList.filter fun entry =>
    (whitelist = [] || entry.1 ∈ whitelist) && entry.1 ∉ blacklist &&
      options.valueFilter.admits entry.2

def copySwitchesFrom (commandLine source : CommandLine)
    (options : CopySwitchesOptions) : CommandLine :=
  (source.copied options).foldl
    (fun commandLine entry => commandLine.appendSwitchToken windows entry.1
      entry.2 options.policy) commandLine

def appendArg (commandLine : CommandLine) (value : Bytes) : CommandLine :=
  let value16 := utf8ToUTF16 value
  { commandLine with
    args := commandLine.args ++ [value16]
    argv := commandLine.argv ++ [value16] }

end CommandLine

inductive Edit
  | appendSwitch (name : Bytes) (policy : DuplicateSwitchPolicy)
  | appendSwitchASCII (name value : Bytes) (policy : DuplicateSwitchPolicy)
  | appendSwitchUTF16 (name value : Units) (policy : DuplicateSwitchPolicy)
  | copySwitchesFrom (source : CommandLine) (options : CopySwitchesOptions)
  | appendArg (value : Bytes)

def edit (windows : Bool) (commandLine : CommandLine) :
    Edit → Option CommandLine
  | .appendSwitch name policy =>
      some (commandLine.appendSwitch windows name policy)
  | .appendSwitchASCII name value policy =>
      some (commandLine.appendSwitchASCII windows name value policy)
  | .appendSwitchUTF16 name value policy =>
      some (commandLine.appendSwitchUTF16 windows name value policy)
  | .copySwitchesFrom source options =>
      some (commandLine.copySwitchesFrom windows source options)
  | .appendArg value => some (commandLine.appendArg value)

end Libnei.Cmdline

import Libnei.Log.Ring
import Mathlib.Data.List.ReduceOption

/-!
# The configurations of the log

The configuration table of `log_config.c`, the log calls of `log_api.c` with
their copy of the table, and the consumer that looks an event's configuration
up again.  A section under the table lock is one step; the ring is a queue and
the runtime is initialized.  Serialization and formatting are parameters.
-/

namespace Libnei.Log.Configs

open Lib

def maxConfigs : Nat := 16
def notVerbose : Int := -1
def levelVerbose : Int := 0
def levelFatal : Int := 6

/-- The callbacks of a sink that are not `NULL`. -/
structure Sink where
  id : Nat
  llog : Bool
  vlog : Bool
  release : Bool
  deriving DecidableEq

/-- The part of `nei_log_config_st` that decides on the emission; `entries` is
its array of sinks. -/
structure Settings where
  levelFlags : Nat
  verboseThreshold : Int
  entries : List (Option Sink)
  deriving DecidableEq

/-- The sinks in front of the first `NULL`, the only ones to be called. -/
def Settings.sinks (settings : Settings) : List Sink :=
  (settings.entries.takeWhile Option.isSome).reduceOption

/-- A configuration in memory.  The copies are never freed, so an address
denotes one copy. -/
structure Config extends Settings where
  address : Nat
  deriving DecidableEq

/-- `_nei_log_fill_default_config`. -/
def defaultConfig : Config := ⟨⟨0xFFFFFFFF, -1, []⟩, 0⟩

inductive Call
  | llog (handle : Nat) (level : Int) (text : Bytes)
  | vlog (handle : Nat) (verbose : Int) (text : Bytes)
  deriving DecidableEq

namespace Call

def handle : Call → Nat
  | llog handle _ _ | vlog handle _ _ => handle

def level : Call → Int
  | llog _ level _ => level
  | vlog _ _ _ => levelVerbose

def verbose : Call → Int
  | llog _ _ _ => notVerbose
  | vlog _ verbose _ => verbose

end Call

/-- An event in the ring.  `config` is the configuration that the handle
denoted when the event was logged; the code does not have it. -/
structure Event where
  handle : Nat
  level : Int
  verbose : Int
  payload : Bytes
  config : Config
  deriving DecidableEq

/-- A call of a sink for the event that is processed at `position`. -/
structure Delivery where
  position : Nat
  event : Event
  config : Config
  sink : Sink
  message : Bytes
  deriving DecidableEq

/-- `outcomes` has the processed events with what the lookup returned, and
`released` the sinks that were released. -/
structure Table where
  used : Nat → Bool
  ptrs : Nat → Option Config
  activeEmitCounts : Nat → Nat
  snapshot : Nat
  allocated : Nat
  queue : List Event
  outcomes : List (Event × Option Config)
  delivered : List Delivery
  released : List Sink

inductive Control
  | idle
  | snapping (call : Call)
  | refreshing (call : Call)
  | filtering (call : Call)
  | enqueueing (event : Event)
  | quiescing (slot : Nat) (sinks : List Sink)
  | ready
  | emitting (position : Nat) (event : Event) (config : Config) (slot : Nat)
  | releasing (slot : Nat)

/-- A thread with its copy of the table; `handle` is what its last
`nei_log_add_config` gave. -/
structure Party where
  control : Control
  tlsSnapshot : Nat
  tlsPtrs : Nat → Option Config
  handle : Option Nat

inductive Command
  | add (settings : Settings)
  | remove (handle : Nat)
  | log (call : Call)
  | go

/-- `_nei_log_slot_from_handle`. -/
def slotFromHandle (handle : Nat) : Option Nat :=
  if handle = 0 then none
  else if handle - 1 ≥ maxConfigs then none
  else some (handle - 1)

/-- `_nei_log_make_handle_from_slot`. -/
def makeHandleFromSlot (slot : Nat) : Nat :=
  if slot ≥ maxConfigs then 0 else slot + 1

def levelPasses (settings : Settings) (level : Int) : Bool :=
  levelVerbose ≤ level && level ≤ levelFatal &&
    settings.levelFlags.testBit level.toNat

def verbosePasses (settings : Settings) (verbose : Int) : Bool :=
  !(settings.verboseThreshold ≥ 0 && verbose > settings.verboseThreshold)

/-- The early filter of `nei_llog` and `nei_vlog`. -/
def Call.passes (settings : Settings) : Call → Bool
  | .llog _ level _ => levelPasses settings level
  | .vlog _ verbose _ => verbosePasses settings verbose

/-- The sinks that `_nei_log_emit_message` calls. -/
def emitMessage (settings : Settings) (level verbose : Int) : List Sink :=
  if verbose = notVerbose then
    if levelPasses settings level then settings.sinks.filter (·.llog) else []
  else if verbosePasses settings verbose then
    settings.sinks.filter (·.vlog)
  else []

namespace Table

variable (table : Table)

/-- The free slot that `nei_log_add_config` takes. -/
def freeSlot : Option Nat :=
  (List.range' 1 (maxConfigs - 1)).find? fun slot => !table.used slot

/-- `nei_log_add_config`. -/
def addConfig (settings : Settings) : Table × Option Nat :=
  match table.freeSlot with
  | none => (table, none)
  | some slot =>
      ({ table with
          used := Function.update table.used slot true
          ptrs := Function.update table.ptrs slot
            (some ⟨settings, table.allocated + 1⟩)
          allocated := table.allocated + 1
          snapshot := table.snapshot + 1 },
        some (makeHandleFromSlot slot))

/-- The locked section of `nei_log_remove_config`, with the slot and the sinks
to release. -/
def removeConfig (handle : Nat) : Option (Table × Nat × List Sink) :=
  match slotFromHandle handle with
  | none => none
  | some slot =>
      if table.used slot then
        let sinks := match table.ptrs slot with
          | some config => config.entries.reduceOption.filter (·.release)
          | none => []
        let cleared := if slot = 0 then table else
          { table with
            used := Function.update table.used slot false
            ptrs := Function.update table.ptrs slot none }
        some ({ cleared with snapshot := table.snapshot + 1 }, slot, sinks)
      else none

/-- The lookup of `_nei_log_acquire_config_for_emit`. -/
def lookup (handle : Nat) : Option (Config × Nat) :=
  match slotFromHandle handle with
  | none => none
  | some slot =>
      if table.used slot then (table.ptrs slot).map (·, slot) else none

def countEmit (slot count : Nat) : Table :=
  { table with
    activeEmitCounts := Function.update table.activeEmitCounts slot count }

end Table

def Party.goto (party : Party) (control : Control) : Party :=
  { party with control }

section Exec

variable (serialize : Call → Option Bytes)
  (format : Config → Bytes → Option Bytes) (table : Table) (party : Party)

/-- The configuration that `_nei_log_get_config_fast` gives from the copy of
the thread. -/
def Party.configFast (handle : Nat) : Option Config :=
  (slotFromHandle handle).bind party.tlsPtrs

/-- The consumer takes the next event and looks its configuration up. -/
def acquire : Option (Table × Party) :=
  match table.queue with
  | [] => none
  | event :: queue =>
      match table.lookup event.handle with
      | none =>
          some ({ table with
              queue
              outcomes := table.outcomes ++ [(event, none)] },
            party.goto .ready)
      | some (config, slot) =>
          some ({ table.countEmit slot (table.activeEmitCounts slot + 1) with
              queue
              outcomes := table.outcomes ++ [(event, some config)] },
            party.goto
              (.emitting table.outcomes.length event config slot))

/-- The event behind the early filter. -/
def filterCall (call : Call) : Control :=
  match party.configFast call.handle with
  | none => .idle
  | some config =>
      if call.passes config.toSettings then
        match serialize call with
        | none => .idle
        | some payload =>
            .enqueueing ⟨call.handle, call.level, call.verbose, payload, config⟩
      else .idle

def execGo : Control → Option (Table × Party)
  | .idle => none
  -- `_nei_log_get_config_fast`
  | .snapping call =>
      some (table, party.goto (if party.tlsSnapshot = table.snapshot then
        .filtering call else .refreshing call))
  | .refreshing call =>
      some (table, { party with
        control := .filtering call
        tlsSnapshot := table.snapshot
        tlsPtrs := table.ptrs })
  | .filtering call =>
      some (table, party.goto (filterCall serialize party call))
  | .enqueueing event =>
      some ({ table with queue := table.queue ++ [event] }, party.goto .idle)
  -- `nei_log_remove_config` behind the locked section
  | .quiescing slot sinks =>
      if table.activeEmitCounts slot = 0 then
        some ({ table with released := table.released ++ sinks },
          party.goto .idle)
      else some (table, party.goto (.quiescing slot sinks))
  -- `_nei_log_process_events`
  | .ready => acquire table party
  | .emitting position event config slot =>
      some ({ table with
          delivered := table.delivered ++
            match format config event.payload with
            | none => []
            | some message =>
                (emitMessage config.toSettings event.level event.verbose).map
                  (⟨position, event, config, ·, message⟩) },
        party.goto (.releasing slot))
  | .releasing slot =>
      some (table.countEmit slot (table.activeEmitCounts slot - 1),
        party.goto .ready)

variable {Thread : Type}

def exec (_ : Actor Thread) : Command → Option (Table × Party)
  | .add settings =>
      match party.control with
      | .idle =>
          some ((table.addConfig settings).1,
            { party with handle := (table.addConfig settings).2 })
      | _ => none
  | .remove handle =>
      match party.control with
      | .idle =>
          match table.removeConfig handle with
          | none => some (table, party)
          | some (cleared, slot, sinks) =>
              some (cleared, party.goto (.quiescing slot sinks))
      | _ => none
  | .log call =>
      match party.control with
      | .idle => some (table, party.goto (.snapping call))
      | _ => none
  | .go => execGo serialize format table party party.control

end Exec

abbrev ConfigState (Thread : Type) := Threads (Actor Thread) Table Party

variable {Thread : Type}

def ConfigState.start : ConfigState Thread where
  memory :=
    { used := (· = 0)
      ptrs := fun slot => if slot = 0 then some defaultConfig else none
      activeEmitCounts := fun _ => 0
      snapshot := 1
      allocated := 0
      queue := []
      outcomes := []
      delivered := []
      released := [] }
  threads := fun
    | .consumer => ⟨.ready, 0, fun _ => none, none⟩
    | .producer _ => ⟨.idle, 0, fun _ => none, none⟩

def step [DecidableEq Thread] (serialize : Call → Option Bytes)
    (format : Config → Bytes → Option Bytes) :
    ConfigState Thread → Actor Thread × Command → Option (ConfigState Thread) :=
  Threads.step fun actor table party =>
    exec serialize format table party actor

/-! ## What can go wrong -/

/-- The thread is about to log an event that it has looked up in the slot. -/
def Party.awaits (party : Party) (slot : Nat) : Bool :=
  match party.control with
  | .filtering call =>
      slotFromHandle call.handle = some slot && (party.tlsPtrs slot).isSome
  | .enqueueing event => slotFromHandle event.handle = some slot
  | _ => false

/-- A configuration is added in a slot of which an event is still to be
processed. -/
def Reuses (state : ConfigState Thread) (action : Actor Thread × Command) :
    Prop :=
  match action.2 with
  | .add _ => ∃ slot ∈ state.memory.freeSlot, (∃ event ∈ state.memory.queue,
        slotFromHandle event.handle = some slot) ∨
      ∃ actor, (state.threads actor).awaits slot = true
  | _ => False

instance [Fintype Thread] (state : ConfigState Thread) :
    ∀ action, Decidable (Reuses state action)
  | (_, .add _) => inferInstanceAs (Decidable (∃ _ ∈ _, _ ∨ ∃ _, _))
  | (_, .remove _) | (_, .log _) | (_, .go) => .isFalse id

end Libnei.Log.Configs
